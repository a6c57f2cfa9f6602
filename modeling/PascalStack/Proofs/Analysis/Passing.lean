import PascalStack.Proofs.Analysis.Programs
import PascalStack.Proofs.Syntax.Names

/-!
# Checks that pass

A check passes if it ends and no error is known then. What a check that passes has found is said
once for every phrase of the language: the symbols that names stand for, the types of parts, and the
scope that declarations lead to.
-/

namespace PascalStack.Analysis

open Checking Syntax

variable {α β : Type}

def Passes (m : Checking α) (s : Scope) (v : α) (s' : Scope) : Prop :=
  ∃ a a', a.scope = s ∧ m.run a = .ok v a' ∧ a'.scope = s' ∧ a'.errors = []

section Rules

variable {m : Checking α} {f : α → Checking β} {s s' : Scope} {u : β} {v : α}

theorem Passes.bind [∀ v, Adds (f v)] (h : Passes (m >>= f) s u s') :
    ∃ v middle, Passes m s v middle ∧ Passes (f v) middle u s' := by
  obtain ⟨a, a', start, run, stop, clean⟩ := h
  obtain ⟨v, a₁, run₁, run₂⟩ := run_bind_ok run
  exact ⟨v, a₁.scope, ⟨a, a₁, start, run₁, rfl, clean_of_adds run₂ clean⟩, a₁, a', rfl, run₂, stop,
    clean⟩

theorem Passes.scope_eq [Stays m] (h : Passes m s v s') : s' = s := by
  obtain ⟨a, a', rfl, run, rfl, -⟩ := h
  exact (Moves.of_run (R := Keeps) run).scope

theorem Passes.outer_eq [Moves Balanced m] (h : Passes m s v s') : s'.outer = s.outer := by
  obtain ⟨a, a', rfl, run, rfl, -⟩ := h
  exact (Moves.of_run (R := Balanced) run).outer

theorem Passes.staying [Stays m] [∀ v, Adds (f v)] (h : Passes (m >>= f) s u s') :
    ∃ v, Passes m s v s ∧ Passes (f v) s u s' := by
  obtain ⟨v, middle, first, second⟩ := h.bind
  obtain rfl := first.scope_eq
  exact ⟨v, first, second⟩

theorem Passes.elim [Fails m] {p : Prop} (h : Passes m s v s') : p := by
  obtain ⟨a, a', -, run, -, clean⟩ := h
  exact absurd clean (Fails.errors_ne run)

theorem passes_pure {w : α} (h : Passes (pure w) s v s') : v = w ∧ s' = s := by
  obtain ⟨a, a', rfl, run, rfl, -⟩ := h
  cases run
  exact ⟨rfl, rfl⟩

theorem Passes.before {w : β} (h : Passes (m >>= fun _ => pure w) s u s') :
    ∃ v, Passes m s v s' := by
  obtain ⟨v, middle, first, second⟩ := h.bind
  obtain ⟨-, rfl⟩ := passes_pure second
  exact ⟨v, first⟩

theorem Passes.discarded {u : PUnit} (h : Passes (discard m) s u s') : ∃ v, Passes m s v s' := by
  obtain ⟨a, a', start, run, stop, clean⟩ := h
  obtain ⟨v, run⟩ := run_discard_ok run
  exact ⟨v, a, a', start, run, stop, clean⟩

theorem Passes.reading {look : Scope → Except Fault α} (h : Passes (m >>= f) s u s')
    (reads : Reads m look) : ∃ v, look s = .ok v ∧ Passes (f v) s u s' := by
  obtain ⟨a, a', rfl, run, stop, clean⟩ := h
  obtain ⟨v, a₁, looked, run₁⟩ := run_bind_ok run
  obtain ⟨found, rfl⟩ := (reads _ _ _).mp looked
  exact ⟨v, found, _, a', rfl, run₁, stop, clean⟩

theorem Passes.taking {x : Except Fault α} (h : Passes (ofExcept x >>= f) s u s') :
    ∃ v, x = .ok v ∧ Passes (f v) s u s' := h.reading (reads_ofExcept x)

theorem Passes.finding {x : String} {f : Option Symbol → Checking β}
    (h : Passes (find? (.str x) >>= f) s u s') : Passes (f (s.view x)) s u s' := by
  obtain ⟨found, looked, rest⟩ := h.reading (reads_find? _)
  cases looked
  exact rest

theorem Passes.found {x : String} {f : Option Symbol → Checking β} [Fails (f none)]
    (h : Passes (find? (.str x) >>= f) s u s') :
    ∃ symbol, s.view x = some symbol ∧ Passes (f (some symbol)) s u s' := by
  have rest := Passes.finding h
  cases known : s.view x with
  | none =>
    rw [known] at rest
    exact rest.elim
  | some symbol => exact ⟨symbol, rfl, known ▸ rest⟩

theorem Passes.test {c : Bool} {refuse : Checking Unit} {u : Unit} [Fails refuse]
    (h : Passes (if !c then refuse else pure ()) s u s') : c = true := by
  cases c with
  | true => rfl
  | false => exact Passes.elim (m := refuse) h

theorem Passes.insideLoop {m : Checking Unit} {u : Unit} (h : Passes (inLoop m) s u s') :
    Passes m s () s' := by
  obtain ⟨a, a', rfl, run, stop, clean⟩ := h
  obtain ⟨c, inside, rfl⟩ := run_inLoop_ok run
  exact ⟨{ a with loopLevel := a.loopLevel + 1 }, c, rfl, inside, stop, clean⟩

theorem Passes.insideScope {m : Checking Unit} {u : Unit} (h : Passes (inScope m) s u s') :
    ∃ inner, Passes m s.enter () inner ∧ s' = inner.leave := by
  obtain ⟨a, a', rfl, run, rfl, clean⟩ := h
  obtain ⟨c, inside, rfl⟩ := run_inScope_ok run
  exact ⟨c.scope, ⟨_, c, rfl, inside, rfl, clean⟩, rfl⟩

end Rules

variable {what : String} {u : Unit} {name : Tree} {position : Nat} {wanted : List Value}
  {type : Value} {value : Expression} {items : List Statement} {targets : List Variable}

section Expressions

variable {s s' : Scope} {v : Value} {x op : String} {e l r index : Expression}

theorem passes_literal {literal : Literal}
    (h : Passes (check (Expression.literal literal).tree) s v s') : v = .named literal.typeName :=
  (passes_pure h).1

theorem passes_name (h : Passes (check (Expression.name x).tree) s v s') :
    ∃ symbol, s.view x = some symbol ∧ v = symbol.type := by
  obtain ⟨symbol, known, rest⟩ := Passes.found h
  exact ⟨symbol, known, (passes_pure rest).1⟩

theorem passes_checkIndex (h : Passes (checkIndex what (check index.tree)) s u s') :
    ∃ type, Passes (check index.tree) s type s ∧ isWhole type = true := by
  obtain ⟨type, checked, rest⟩ := h.staying
  exact ⟨type, checked, Passes.test rest⟩

theorem passes_element (h : Passes (check (Expression.element x index).tree) s v s') :
    ∃ symbol type, s.view x = some symbol ∧ Passes (check index.tree) s type s ∧
      isWhole type = true ∧
      ((∃ dimensions, symbol.role = .array v dimensions) ∨ v = .named "CHAR") := by
  obtain ⟨symbol, known, rest⟩ := Passes.found h
  simp only [] at rest
  split at rest
  · rename_i element dimensions role
    obtain ⟨_, middle, indexed, rest⟩ := rest.bind
    obtain ⟨type, checked, whole⟩ := passes_checkIndex indexed
    obtain ⟨rfl, -⟩ := passes_pure rest
    exact ⟨symbol, type, known, checked, whole, .inl ⟨dimensions, role⟩⟩
  · split at rest
    · obtain ⟨_, middle, indexed, rest⟩ := rest.bind
      obtain ⟨type, checked, whole⟩ := passes_checkIndex indexed
      exact ⟨symbol, type, known, checked, whole, .inr (passes_pure rest).1⟩
    · exact rest.elim

theorem passes_length (h : Passes (check (Expression.length e).tree) s v s') :
    Passes (check e.tree) s (.named "STRING") s ∧ v = .named "INTEGER" := by
  rw [Expression.tree, check_length] at h
  obtain ⟨type, checked, rest⟩ := h.staying
  obtain ⟨_, middle, measured, rest⟩ := rest.bind
  have string : type.isNamed "STRING" = true :=
    Passes.test measured
  rw [isNamed_iff.mp string] at checked
  exact ⟨checked, (passes_pure rest).1⟩

theorem passes_negation {sign : String}
    (h : Passes (check (Expression.negation sign e).tree) s v s') :
    ∃ operand type, Passes (check e.tree) s (.named operand) s ∧
      (unaryTable sign).lookup operand = some type ∧ v = .named type := by
  obtain ⟨w, checked, rest⟩ := h.staying
  obtain ⟨found, given, rest⟩ := rest.taking
  cases found with
  | none => exact rest.elim
  | some type =>
    obtain ⟨operand, rfl, table⟩ := named_of_unaryType given
    exact ⟨operand, type, checked, table, (passes_pure rest).1⟩

theorem passes_operation (h : Passes (check (Expression.operation l op r).tree) s v s') :
    ∃ left right type, Passes (check l.tree) s (.named left) s ∧
      Passes (check r.tree) s (.named right) s ∧
      (operatorTable op).lookup (left, right) = some type ∧ v = .named type := by
  obtain ⟨w, checked, rest⟩ := h.staying
  obtain ⟨w', checked', rest⟩ := rest.staying
  obtain ⟨found, given, rest⟩ := rest.taking
  cases found with
  | none => exact rest.elim
  | some type =>
    obtain ⟨left, right, rfl, rfl, table⟩ := named_of_operationType given
    exact ⟨left, right, type, checked, checked', table, (passes_pure rest).1⟩

end Expressions

/-! ## Calls -/

section Calls

variable {s s' : Scope} {v : Value} {f : String} {arguments : List Expression}

def callee (s : Scope) (f : String) : Option Symbol :=
  (s.view f).or (standardProcedures.find? fun symbol => Tree.same symbol.name (.str f))

def Takes (s : Scope) (param : Value) (e : Expression) : Prop :=
  ∃ wanted type, paramType param = .ok wanted ∧ Passes (check e.tree) s type s ∧
    compatible wanted type = .ok true

theorem passes_expressions {after : Tree → Value → Checking Unit} {es : List Expression}
    [∀ t v, Stays (after t v)] [∀ t v, Adds (after t v)]
    (h : Passes (checkAll after (Expression.trees es)) s u s') :
    ∀ e ∈ es, ∃ type, Passes (check e.tree) s type s := by
  induction es with
  | nil => simp
  | cons e rest ih =>
    obtain ⟨type, checked, others⟩ := h.staying
    obtain ⟨_, -, others⟩ := others.staying
    intro e' member
    rcases List.mem_cons.mp member with rfl | member
    · exact ⟨type, checked⟩
    · exact ih others e' member

theorem passes_checkArgument {param found : Value}
    (h : Passes (checkArgument what name position param found) s u s') :
    ∃ wanted, paramType param = .ok wanted ∧ compatible wanted found = .ok true := by
  obtain ⟨wanted, named, rest⟩ := h.taking
  obtain ⟨fits, given, rest⟩ := rest.taking
  have fitting : fits = true := Passes.test rest
  exact ⟨wanted, named, fitting ▸ given⟩

theorem passes_zip
    (h : Passes (checkZip what name position wanted (Expression.trees arguments)) s u s')
    (length : wanted.length = arguments.length) : List.Forall₂ (Takes s) wanted arguments := by
  induction arguments generalizing position wanted with
  | nil =>
    rw [List.length_eq_zero_iff.mp length]
    exact .nil
  | cons e rest ih =>
    cases wanted with
    | nil => cases length
    | cons param params =>
      obtain ⟨type, checked, others⟩ := h.staying
      obtain ⟨_, taken, others⟩ := others.staying
      obtain ⟨wanted, named, fits⟩ := passes_checkArgument taken
      exact .cons ⟨wanted, type, named, checked, fits⟩ (ih others (Nat.succ.inj length))

theorem length_arguments (es : List Expression) : (Expression.trees es).length = es.length := by
  induction es with
  | nil => rfl
  | cons e rest ih => exact congrArg (· + 1) ih

theorem passes_checkArguments {title what : String} {wanted : List Value} {right : Bool}
    (h : Passes (checkArguments title (.str f) (.list (Expression.trees arguments)) wanted
      (checkPairs what (.str f) wanted (.list (Expression.trees arguments)))) s right s') :
    right = true ∧ List.Forall₂ (Takes s) wanted arguments := by
  obtain ⟨count, counted, rest⟩ := h.taking
  cases counted
  split at rest
  · rename_i equal
    obtain ⟨_, middle, taken, rest⟩ := rest.bind
    rw [beq_iff_eq, length_arguments] at equal
    exact ⟨(passes_pure rest).1, passes_zip taken equal⟩
  · exact rest.elim

theorem passes_call (h : Passes (check (Expression.call f arguments).tree) s v s') :
    ∃ symbol wanted isFunction, callee s f = some symbol ∧
      symbol.role = .routine wanted isFunction ∧ v = resultType symbol ∧
      (isInputOutput f = true ∧ (∀ e ∈ arguments, ∃ type, Passes (check e.tree) s type s) ∨
        isInputOutput f = false ∧ List.Forall₂ (Takes s) wanted arguments) := by
  obtain ⟨found, looked, rest⟩ := h.reading (reads_callee? _ _)
  cases found with
  | none => exact rest.elim
  | some symbol =>
    have known : callee s f = some symbol := Except.ok.inj looked
    simp only [] at rest
    split at rest
    · rename_i wanted isFunction role
      refine ⟨symbol, wanted, isFunction, known, role, ?_⟩
      obtain ⟨small, lower, rest⟩ := rest.taking
      cases lower
      split at rest
      · rename_i standard
        obtain ⟨_, middle, checked, rest⟩ := rest.bind
        exact ⟨(passes_pure rest).1,
          .inl ⟨standard, passes_expressions checked⟩⟩
      · rename_i standard
        obtain ⟨right, middle, taken, rest⟩ := rest.bind
        obtain ⟨rfl, takes⟩ := passes_checkArguments taken
        exact ⟨(passes_pure rest).1, .inr ⟨Bool.eq_false_iff.mpr standard, takes⟩⟩
    · exact rest.elim

theorem passes_of_takes (takes : List.Forall₂ (Takes s) wanted arguments) :
    ∀ e ∈ arguments, ∃ type, Passes (check e.tree) s type s := by
  induction takes with
  | nil => simp
  | cons first _ ih =>
    obtain ⟨_, type, -, checked, -⟩ := first
    intro e member
    rcases List.mem_cons.mp member with rfl | member
    · exact ⟨type, checked⟩
    · exact ih e member

theorem passes_arguments (h : Passes (check (Expression.call f arguments).tree) s v s') :
    ∃ symbol, callee s f = some symbol ∧
      ∀ e ∈ arguments, ∃ type, Passes (check e.tree) s type s := by
  obtain ⟨symbol, wanted, isFunction, found, -, -, checked⟩ := passes_call h
  refine ⟨symbol, found, ?_⟩
  rcases checked with ⟨-, checked⟩ | ⟨-, takes⟩
  · exact checked
  · exact passes_of_takes takes

end Calls

section Statements

variable {s s' : Scope} {v : Value} {x f : String} {e condition limit : Expression}
  {yes no body : Statement}

theorem calledType_eq {called : Option Value} (checked : Passes (check e.tree) s type s)
    (found : Passes (calledType? e.tree) s called s) : called.getD type = type := by
  cases e with
  | call f arguments =>
    obtain ⟨symbol, wanted, isFunction, known, role, rfl, -⟩ := passes_call checked
    have rest := Passes.finding found
    cases seen : s.view f with
    | none =>
      rw [seen] at rest
      rw [(passes_pure rest).1]
      rfl
    | some other =>
      rw [seen] at rest
      obtain rfl : other = symbol := by
        rw [callee, seen] at known
        exact Option.some.inj known
      simp only [role] at rest
      cases isFunction with
      | true =>
        rw [(passes_pure rest).1, resultType, role]
        rfl
      | false =>
        rw [(passes_pure rest).1]
        rfl
  | literal l =>
    cases l <;> rw [(passes_pure found).1] <;> rfl
  | _ =>
    rw [(passes_pure found).1]
    rfl

theorem passes_giveTo {target : Symbol} (h : Passes (giveTo target type) s u s') :
    compatible target.type type = .ok true := by
  obtain ⟨fits, given, rest⟩ := h.taking
  split at rest
  · rename_i fitting
    exact fitting ▸ given
  · exact rest.elim

theorem passes_assign (h : Passes (check (Assignment.tree ⟨.name x, value⟩)) s v s') :
    ∃ symbol type, s.view x = some symbol ∧ Passes (check value.tree) s type s ∧
      compatible symbol.type type = .ok true := by
  obtain ⟨_, h⟩ := h.before
  obtain ⟨symbol, known, rest⟩ := Passes.found h
  simp only [] at rest
  split at rest
  · exact rest.elim
  · change Passes (check value.tree >>= giveFound symbol value.tree) s _ s' at rest
    obtain ⟨type, checked, rest⟩ := rest.staying
    refine ⟨symbol, type, known, checked, ?_⟩
    unfold giveFound at rest
    split at rest
    · obtain ⟨called, found, rest⟩ := rest.staying
      rw [pure_bind, calledType_eq checked found] at rest
      exact passes_giveTo rest
    · rw [pure_bind] at rest
      exact passes_giveTo rest

theorem passes_condition (h : Passes (checkCondition what type) s u s') : type = .named "BOOLEAN" :=
  isNamed_iff.mp (Passes.test h)

theorem passes_statements (h : Passes (checkAll andNothing (Statement.trees items)) s u s') :
    ∀ item ∈ items, ∃ v, Passes (check item.tree) s v s := by
  induction items with
  | nil => simp
  | cons first rest ih =>
    obtain ⟨v, checked, others⟩ := h.staying
    intro item member
    rcases List.mem_cons.mp member with rfl | member
    · exact ⟨v, checked⟩
    · exact ih others item member

theorem passes_compound (h : Passes (check (Statement.compound items).tree) s v s') :
    ∀ item ∈ items, ∃ v, Passes (check item.tree) s v s := by
  obtain ⟨_, h⟩ := h.before
  exact passes_statements h

theorem passes_conditional
    (h : Passes (check (Statement.conditional condition yes no).tree) s v s') :
    Passes (check condition.tree) s (.named "BOOLEAN") s ∧ (∃ v, Passes (check yes.tree) s v s) ∧
      (no.isPresent = true → ∃ v, Passes (check no.tree) s v s) := by
  obtain ⟨type, tested, rest⟩ := h.staying
  obtain ⟨_, boolean, following⟩ := rest.staying
  obtain rfl := passes_condition boolean
  obtain ⟨_, first, last⟩ := following.staying
  refine ⟨tested, first.discarded, fun present => ?_⟩
  obtain ⟨_, second⟩ := last.before
  rw [whenPresent, truthy_tree, if_pos present] at second
  obtain ⟨v, second⟩ := second.discarded
  obtain rfl := second.scope_eq
  exact ⟨v, second⟩

theorem passes_while (h : Passes (check (Statement.whileDo condition body).tree) s v s') :
    Passes (check condition.tree) s (.named "BOOLEAN") s ∧ ∃ v, Passes (check body.tree) s v s := by
  obtain ⟨type, tested, rest⟩ := h.staying
  obtain ⟨_, boolean, rest⟩ := rest.staying
  obtain rfl := passes_condition boolean
  obtain ⟨_, inside⟩ := rest.before
  obtain ⟨v, inside⟩ := inside.insideLoop.discarded
  obtain rfl := inside.scope_eq
  exact ⟨tested, v, inside⟩

theorem passes_repeat (h : Passes (check (Statement.repeatUntil body condition).tree) s v s') :
    Passes (check condition.tree) s (.named "BOOLEAN") s ∧ ∃ v, Passes (check body.tree) s v s := by
  obtain ⟨_, h⟩ := h.before
  obtain ⟨_, inside, rest⟩ := h.insideLoop.staying
  obtain ⟨type, tested, rest⟩ := rest.staying
  obtain rfl := passes_condition rest
  exact ⟨tested, inside.discarded⟩

theorem passes_control {symbol : Symbol}
    (h : Passes (checkControl (Assignment.tree ⟨.name x, value⟩)) s u s')
    (known : s.view x = some symbol) : symbol.type = .named "INTEGER" := by
  have rest := Passes.finding h
  rw [known] at rest
  exact isNamed_iff.mp (Passes.test rest)

theorem passes_for {start : Assignment} {direction : String}
    (h : Passes (check (Statement.forDo start direction limit body).tree) s v s') :
    (∃ v, Passes (check start.tree) s v s) ∧ Passes (checkControl start.tree) s () s ∧
      (∃ type, Passes (check limit.tree) s type s ∧ isWhole type = true) ∧
      ∃ v, Passes (check body.tree) s v s := by
  obtain ⟨_, started, rest⟩ := h.staying
  obtain ⟨_, control, rest⟩ := rest.staying
  obtain ⟨type, checked, rest⟩ := rest.staying
  obtain ⟨_, whole, rest⟩ := rest.staying
  obtain ⟨_, inside⟩ := rest.before
  obtain ⟨v, inside⟩ := inside.insideLoop.discarded
  obtain rfl := inside.scope_eq
  exact ⟨started.discarded, control,
    ⟨type, checked, Passes.test whole⟩, v, inside⟩

theorem passes_writeln {arguments : List Expression}
    (h : Passes (check (Statement.writeln arguments).tree) s v s') :
    ∀ e ∈ arguments, ∃ type, Passes (check e.tree) s type s := by
  obtain ⟨_, h⟩ := h.before
  cases arguments with
  | nil => simp
  | cons e rest => exact passes_expressions h

theorem passes_target {target : Variable}
    (h : Passes (checkTarget target.tree (check target.tree)) s u s') :
    match target with
    | .name x => ∃ symbol, s.view x = some symbol ∧ isReadable symbol.type = true
    | .element x index => ∃ type, Passes (check (Expression.element x index).tree) s type s ∧
        isReadable type = true := by
  cases target with
  | name x =>
    obtain ⟨symbol, known, rest⟩ := Passes.found h
    simp only [] at rest
    split at rest
    · rename_i readable
      exact ⟨symbol, known, readable⟩
    · exact rest.elim
  | element x index =>
    obtain ⟨type, checked, rest⟩ := h.staying
    exact ⟨type, checked, Passes.test rest⟩

theorem passes_targets (h : Passes (checkEachTarget (targets.map Variable.tree)) s u s') :
    ∀ target ∈ targets, Passes (checkTarget target.tree (check target.tree)) s () s := by
  induction targets with
  | nil => simp
  | cons first rest ih =>
    obtain ⟨_, checked, others⟩ := h.staying
    intro target member
    rcases List.mem_cons.mp member with rfl | member
    · exact checked
    · exact ih others target member

theorem passes_readln (h : Passes (check (Statement.readln targets).tree) s v s') :
    ∀ target ∈ targets, Passes (checkTarget target.tree (check target.tree)) s () s := by
  obtain ⟨_, h⟩ := h.before
  cases targets with
  | nil => simp
  | cons target rest => exact passes_targets h

end Statements

end PascalStack.Analysis
