import PascalStack.Proofs.Code.Visits
import PascalStack.Proofs.Syntax.Sources

/-!
# Statements with code of their own

An instruction is a statement's own if it is written while the statement is visited and no statement
inside it is. It is said which of the statements that are visited have code of their own, and which
assignments store their value.
-/

namespace PascalStack.Syntax

open Code Code.Generating

def Expression.isStored : Expression → Bool
  | .literal (.integer _) | .literal (.decimal _) | .literal (.truth _) => true
  | .name _ | .length _ | .operation .. => true
  | .literal (.verdict _) | .literal (.phrase _) | .element .. | .call .. | .negation .. => false

def Assignment.isStored : Assignment → Bool
  | ⟨.name _, value⟩ => value.isStored
  | ⟨.element .., _⟩ => false

def Variable.isRead (types : Dictionary String) : Variable → Bool
  | .name x => types.find? (.str x) == some "string" || types.find? (.str x) == some "integer"
  | .element x _ => types.find? (.str x) == some "integer"

/-- Whether a statement has code of its own. -/
def Statement.hasCode (types : Dictionary String) : Statement → Bool
  | .assign ⟨.name _, .call ..⟩ => true
  | .assign a => a.isStored
  | .conditional .. | .whileDo .. | .forDo .. | .call .. | .writeln _ => true
  | .readln targets => targets.any (Variable.isRead types)
  | .empty | .absent | .compound _ | .repeatUntil .. | .mention _ | .breakLoop | .continueLoop =>
    false

def Visit.inner (v : Visit) : List Visit := (v.statement.visits v.before).tail

def Visit.Spans (v : Visit) (place : Nat) : Prop :=
  v.before.code.length ≤ place ∧ place < v.after.code.length

/-- Code at a place is of the statement itself, not of one inside. -/
def Visit.Owns (v : Visit) (place : Nat) : Prop :=
  v.Spans place ∧ ∀ w ∈ v.inner, ¬ w.Spans place

def CellOf (g : Generator) (x : String) : Cell → Prop
  | .program slot => g.globals.find? (.str x) = some slot
  | .routine slot => g.locals.find? (.str x) = some slot

/-- What is written between two generators ends by storing into a variable, or by returning from
the function of that name. -/
def Delivers (x : String) (g g' : Generator) : Prop :=
  (∃ c cell, g'.code = g.code ++ (c ++ [.store cell]) ∧ CellOf g' x cell) ∨
    g.function = .str x ∧ ∃ c cell, g'.code = g.code ++ (c ++ [.load cell, .ret])

theorem Delivers.of_same {x : String} {g₁ g g' : Generator} (h : Delivers x g₁ g')
    (code : g₁.code = g.code) (function : g₁.function = g.function) : Delivers x g g' := by
  unfold Delivers at h ⊢
  rwa [code, function] at h

end PascalStack.Syntax

namespace PascalStack.Code

open Generating Syntax

section Cells

variable {g g' : Generator} {x : String} {cell : Cell}

theorem globalCell_ok (run : (globalCell (.str x)).run g = .ok cell g') :
    g' = g ∧ CellOf g x cell := by
  cases found : g.globals.get (.str x) with
  | error f =>
    rw [run_globalCell_error found] at run
    cases run
  | ok n =>
    rw [run_globalCell_ok found] at run
    cases run
    exact ⟨rfl, Dictionary.find?_of_get found⟩

theorem localCell_ok (run : (localCell (.str x)).run g = .ok cell g') :
    g' = g ∧ CellOf g x cell := by
  cases found : g.locals.get (.str x) with
  | error f =>
    rw [run_localCell_error found] at run
    cases run
  | ok n =>
    rw [run_localCell_ok found] at run
    cases run
    exact ⟨rfl, Dictionary.find?_of_get found⟩

theorem newGlobal_ok (run : (newGlobal (.str x)).run g = .ok cell g') : CellOf g' x cell := by
  cases run
  exact Dictionary.find?_insert_self _ _ _

theorem newLocal_ok (run : (newLocal (.str x)).run g = .ok cell g') : CellOf g' x cell := by
  cases run
  exact Dictionary.find?_insert_self _ _ _

theorem ensureGlobal_ok (run : (ensureGlobal (.str x)).run g = .ok cell g') :
    CellOf g' x cell := by
  obtain ⟨_, _, got, run⟩ := run_bind_ok run
  cases got
  obtain ⟨_, _, known, run⟩ := run_bind_ok run
  cases known
  split at run
  · obtain ⟨rfl, found⟩ := globalCell_ok run
    exact found
  · exact newGlobal_ok run

theorem ensureLocal_ok (run : (ensureLocal (.str x)).run g = .ok cell g') : CellOf g' x cell := by
  obtain ⟨_, _, known, run⟩ := run_bind_ok run
  cases known
  split at run
  · obtain ⟨rfl, found⟩ := localCell_ok run
    exact found
  · exact newLocal_ok run

theorem targetCell_ok (run : (targetCell (.str x)).run g = .ok cell g') : CellOf g' x cell := by
  obtain ⟨_, _, got, run⟩ := run_bind_ok run
  cases got
  split at run
  · exact ensureLocal_ok run
  · exact ensureGlobal_ok run

theorem sourceCell_ok (run : (sourceCell (.str x)).run g = .ok cell g') : g' = g := by
  obtain ⟨_, _, known, run⟩ := run_bind_ok run
  cases known
  split at run
  · exact (localCell_ok run).1
  · exact (globalCell_ok run).1

end Cells

def Storing (x : String) {α : Type} (m : Generating α) : Prop :=
  ∀ g a g', m.run g = .ok a g' →
    ∃ c cell, g'.code = g.code ++ (c ++ [.store cell]) ∧ CellOf g' x cell

variable {g g' : Generator} {code : List Instruction} {u : Unit} {x : String} {value : Expression}
  {operand compute : Generating Tree}

section Storing

variable {α β : Type} {x : String} {m : Generating α}

theorem Storing.after {f : α → Generating β} (first : Grows m) (second : ∀ a, Storing x (f a)) :
    Storing x (m >>= f) := by
  intro g b g' run
  obtain ⟨a, g₁, run₁, run₂⟩ := run_bind_ok run
  obtain ⟨c, written, -⟩ := first g a g₁ run₁
  obtain ⟨d, cell, written', found⟩ := second a g₁ b g' run₂
  refine ⟨c ++ d, cell, ?_, found⟩
  rw [written', written]
  simp only [List.append_assoc]

theorem cellOf_emit {cell : Cell} (h : CellOf g x cell) (run : (emit code).run g = .ok u g') :
    CellOf g' x cell := by
  rw [run_emit_eq run]
  cases cell <;> exact h

theorem storing_emit {lookup : Generating Cell} (silent : Silent lookup)
    (finds : ∀ {g cell g'}, lookup.run g = .ok cell g' → CellOf g' x cell) :
    Storing x (do
      let cell ← lookup
      emit [.store cell]) := by
  intro g u g' run
  obtain ⟨cell, g₁, found, run⟩ := run_bind_ok run
  obtain ⟨_, same, rfl⟩ := silent g cell g₁ found
  refine ⟨[], cell, ?_, cellOf_emit (finds found) run⟩
  rw [run_emit_eq run, same, List.append_nil, List.nil_append]

theorem storing_storeInto (x : String) : Storing x (storeInto (.str x)) :=
  storing_emit (stable_silent.targetCell _) targetCell_ok

theorem storing_assignTruth (x : String) (b : Bool) :
    Storing x (assignLiteral (.str x) (.bool b) (.str "BOOLEAN")) :=
  .after (silent_ofExcept _).grows fun _ => .after (writes_emit _).grows fun _ =>
    storing_emit (stable_silent.ensureGlobal _) ensureGlobal_ok

theorem storing_assignNumber (x : String) (value : Tree) :
    Storing x (assignLiteral (.str x) value (.str "NUMBER")) :=
  .after (writes_emit _).grows fun _ => storing_storeInto x

theorem storing_assignLength (x : String) (expression operand : Tree) :
    Storing x (assignLength (.str x) expression operand) := by
  have rest : Storing x (do
      emit [.strlen]
      storeInto (.str x)) := .after (writes_emit _).grows fun _ => storing_storeInto x
  unfold assignLength
  split
  · exact .after (stable_silent.globalCell _).grows fun _ => .after (writes_emit _).grows fun _ => rest
  · exact rest

end Storing

theorem assignVariable_delivers {y : String}
    (run : (assignVariable (.str x) (.str y)).run g = .ok u g') : Delivers x g g' := by
  obtain ⟨_, _, got, run⟩ := run_bind_ok run
  cases got
  split at run
  · rename_i same
    obtain ⟨cell, g₁, found, rest⟩ := run_bind_ok run
    obtain ⟨_, g₂, forgot, written⟩ := run_bind_ok rest
    cases forgot
    refine .inr ⟨Tree.same_str_right.mp same, [], cell, ?_⟩
    rw [run_emit_eq written, sourceCell_ok found]
    rfl
  · obtain ⟨target, g₁, found, rest⟩ := run_bind_ok run
    obtain ⟨cell, g₂, found', written⟩ := run_bind_ok rest
    obtain ⟨_, same, rfl⟩ := stable_silent.targetCell _ _ _ _ found
    rw [sourceCell_ok found'] at written
    refine .inl ⟨[.load cell], target, ?_, cellOf_emit (targetCell_ok found) written⟩
    rw [run_emit_eq written, same, List.append_nil]
    rfl

theorem assign_delivers (grows : Grows operand) (grows' : Grows compute)
    (stored : value.isStored = true)
    (run : (assign (.str x) value.tree operand compute).run g = .ok u g') : Delivers x g g' := by
  obtain ⟨text, g₀, shown, run⟩ := run_bind_ok run
  obtain ⟨_, g₁, printed, rest⟩ := run_bind_ok run
  obtain ⟨-, rfl⟩ := run_ofExcept_ok_iff.mp shown
  cases printed
  match value with
  | .literal (.integer _) | .literal (.decimal _) =>
    exact Delivers.of_same (.inl (storing_assignNumber _ _ _ _ _ rest)) rfl rfl
  | .literal (.truth _) => exact Delivers.of_same (.inl (storing_assignTruth _ _ _ _ _ rest)) rfl rfl
  | .name y => exact Delivers.of_same (assignVariable_delivers rest) rfl rfl
  | .length operand =>
    have storing := Storing.after grows (storing_assignLength x operand.tree)
    exact Delivers.of_same (.inl (storing _ _ _ rest)) rfl rfl
  | .operation .. =>
    have storing := Storing.after grows'.discard fun _ => storing_storeInto x
    exact Delivers.of_same (.inl (storing _ _ _ rest)) rfl rfl

theorem writes_assign_call (x : Tree) (f : String) (arguments : List Expression)
    {P : List Instruction → Prop} (h : Writes compute P) :
    Writes (assign x (Expression.call f arguments).tree operand compute) P :=
  (silent_ofExcept _).bind fun _ => (silent_line _).bind fun _ => h.discard

theorem silent_assign {x : Tree} (stored : value.isStored = false)
    (computed : ∀ f arguments, value ≠ .call f arguments) :
    Silent (assign x value.tree operand compute) := by
  refine (silent_ofExcept _).bind fun _ => (silent_line _).bind fun _ => ?_
  match value with
  | .literal (.verdict _) | .literal (.phrase _) | .element .. | .negation .. =>
    exact silent_pure ()
  | .call f arguments => exact absurd rfl (computed f arguments)

theorem writes_call (name params : Tree) :
    Writes (generate (.procedureCall name params)) fun c => ∃ d, c = d ++ [.call] := by
  rw [generate]
  refine Writes.bind (stable_grows.whenPresent _ (stable_grows.generateItems stable_grows.passArgument params))
    (fun _ => (writes_emit _).before fun _ => silent_pure _) fun c d _ equal => ?_
  exact ⟨c ++ [.address (.routine name)], by rw [equal, List.append_assoc]; rfl⟩

/-! ## Input -/

section Input

variable {g g' : Generator} {x : String} {u : Unit}

theorem typeOf_ok {type : String} (run : (typeOf (.str x)).run g = .ok type g') :
    g' = g ∧ g.types.find? (.str x) = some type := by
  obtain ⟨_, _, got, run⟩ := run_bind_ok run
  cases got
  cases found : g.types.get (.str x) with
  | error f =>
    rw [found] at run
    cases run
  | ok type =>
    rw [found] at run
    cases run
    exact ⟨rfl, Dictionary.find?_of_get found⟩

theorem readCell_ok (run : (do emit code; discard (newGlobal (.str x))).run g = .ok u g') :
    g'.types = g.types ∧ g'.code = g.code ++ code := by
  obtain ⟨_, g₁, written, run⟩ := run_bind_ok run
  cases run
  rw [run_emit_eq written]
  exact ⟨rfl, rfl⟩

theorem readArgument_ok {v : Variable} (run : (readArgument v.tree).run g = .ok u g') :
    g'.types = g.types ∧ ∃ c, g'.code = g.code ++ c ∧ (c ≠ [] ↔ v.isRead g.types = true) := by
  cases v with
  | name x =>
    obtain ⟨type, g₁, typed, rest⟩ := run_bind_ok run
    obtain ⟨rfl, found⟩ := typeOf_ok typed
    split at rest
    · obtain ⟨types, written⟩ := readCell_ok rest
      exact ⟨types, _, written, by simp_all [Variable.isRead]⟩
    · split at rest
      · obtain ⟨types, written⟩ := readCell_ok rest
        exact ⟨types, _, written, by simp_all [Variable.isRead]⟩
      · cases rest
        exact ⟨rfl, [], (List.append_nil _).symm, by simp_all [Variable.isRead]⟩
  | element x index =>
    obtain ⟨type, g₁, typed, rest⟩ := run_bind_ok run
    obtain ⟨rfl, found⟩ := typeOf_ok typed
    split at rest
    · obtain ⟨types, written⟩ := readCell_ok rest
      exact ⟨types, _, written, by simp_all [Variable.isRead]⟩
    · cases rest
      exact ⟨rfl, [], (List.append_nil _).symm, by simp_all [Variable.isRead]⟩

theorem readArguments_ok {vs : List Variable}
    (run : ((vs.map Variable.tree).forM readArgument).run g = .ok u g') :
    ∃ c, g'.code = g.code ++ c ∧ (c ≠ [] ↔ vs.any (Variable.isRead g.types) = true) := by
  induction vs generalizing g with
  | nil =>
    cases run
    exact ⟨[], (List.append_nil _).symm, by simp⟩
  | cons v rest ih =>
    obtain ⟨_, g₁, first, others⟩ := run_bind_ok run
    obtain ⟨types, c, written, nonempty⟩ := readArgument_ok first
    obtain ⟨d, written', nonempty'⟩ := ih others
    refine ⟨c ++ d, by rw [written', written, List.append_assoc], ?_⟩
    rw [types] at nonempty'
    rw [List.any_cons, Bool.or_eq_true, ← nonempty, ← nonempty', ne_eq, List.append_eq_nil_iff]
    tauto

end Input

end PascalStack.Code

namespace PascalStack.Syntax

open Code Code.Generating

variable {v : Visit} {x : String} {a : Assignment} {types : Dictionary String} {g g' : Generator}

section Owns

variable {g g' : Generator} {t : Tree}

theorem owns_leaf {c : List Instruction} (leaf : v.inner = [])
    (written : v.after.code = v.before.code ++ c) : (∃ i, v.Owns i) ↔ c ≠ [] := by
  simp only [Visit.Owns, Visit.Spans, leaf, List.not_mem_nil, false_imp_iff, implies_true, and_true,
    written, List.length_append, ne_eq, ← List.length_eq_zero_iff]
  constructor
  · rintro ⟨i, low, high⟩
    omega
  · intro nonempty
    exact ⟨v.before.code.length, le_rfl, by omega⟩

theorem owns_last (early : OverBeforeLast v.inner v.before v.after) : ∃ i, v.Owns i := by
  obtain ⟨h, last, start, written, inside⟩ := early
  refine ⟨h.code.length, ⟨start.length_le, ?_⟩, fun w member spans => ?_⟩
  · rw [written, List.length_append]
    exact Nat.lt_succ_self _
  · exact absurd spans.2 (Nat.not_lt.mpr (inside w member).ends.length_le)

theorem Delivers.nonempty (h : Delivers x g g') : ∃ c, c ≠ [] ∧ g'.code = g.code ++ c := by
  rcases h with ⟨c, cell, written, -⟩ | ⟨-, c, cell, written⟩
  all_goals exact ⟨_, by simp, written⟩

theorem not_delivers_of_nothing (same : g'.code = g.code) : ¬ Delivers x g g' := by
  rintro (⟨c, cell, written, -⟩ | ⟨-, c, cell, written⟩)
  all_goals
    rw [same] at written
    simp at written

theorem not_delivers_of_call {d : List Instruction} (ended : g'.code = g.code ++ (d ++ [.call])) :
    ¬ Delivers x g g' := by
  rintro (⟨c, cell, written, -⟩ | ⟨-, c, cell, written⟩)
  all_goals
    rw [ended, List.append_cancel_left_eq] at written
    have last := congrArg List.getLast? written
    simp at last

theorem owns_nothing (leaf : v.inner = []) (silent : Silent (generate v.statement.tree))
    (returns : ∃ t, (generate v.statement.tree).run v.before = .ok t v.after) :
    ¬ ∃ i, v.Owns i := by
  obtain ⟨t, run⟩ := returns
  obtain ⟨c, written, none⟩ := silent _ _ _ run
  rw [owns_leaf leaf written]
  exact fun nonempty => nonempty none

theorem owns_some {P : List Instruction → Prop} (leaf : v.inner = [])
    (writes : Writes (generate v.statement.tree) P) (some : ∀ c, P c → c ≠ [])
    (returns : ∃ t, (generate v.statement.tree).run v.before = .ok t v.after) : ∃ i, v.Owns i := by
  obtain ⟨t, run⟩ := returns
  obtain ⟨c, written, holds⟩ := writes _ _ _ run
  exact (owns_leaf leaf written).mpr (some c holds)

/-- What the code of an assignment is like: the value is delivered, or it is that of a call and
nothing follows the call, or there is no code. -/
inductive AssignCase (a : Assignment) (g g' : Generator) : Prop where
  | delivered (stored : a.isStored = true) (delivers : Delivers a.target.base g g')
  | called (x f : String) (arguments : List Expression) (call : a = ⟨.name x, .call f arguments⟩)
      (d : List Instruction) (written : g'.code = g.code ++ (d ++ [.call]))
  | dropped (stored : a.isStored = false) (plain : ∀ x f arguments, a ≠ ⟨.name x, .call f arguments⟩)
      (same : g'.code = g.code)

theorem assign_cases (run : (generate a.tree).run g = .ok t g') : AssignCase a g g' := by
  match a with
  | ⟨.element x index, value⟩ =>
    obtain ⟨_, same, rfl⟩ := stable_silent.warn _ _ _ _ run
    exact .dropped rfl nofun (same.trans (List.append_nil _))
  | ⟨.name x, value⟩ =>
    rw [Assignment.tree, generate, generate] at run
    obtain ⟨_, _, named, rest⟩ := run_bind_ok run
    obtain ⟨_, g₁, assigned, done⟩ := run_bind_ok rest
    cases named
    cases done
    cases stored : value.isStored with
    | true =>
      exact .delivered stored
        (assign_delivers (stable_grows.generateOperand _) (stable_grows.generate _) stored assigned)
    | false =>
      by_cases call : ∃ f arguments, value = .call f arguments
      · obtain ⟨f, arguments, rfl⟩ := call
        obtain ⟨_, written, d, rfl⟩ :=
          writes_assign_call _ f arguments (writes_call _ _) _ _ _ assigned
        exact .called x f arguments rfl d written
      · have plain : ∀ f arguments, value ≠ .call f arguments :=
          fun f arguments equal => call ⟨f, arguments, equal⟩
        obtain ⟨_, same, rfl⟩ := silent_assign stored plain _ _ _ assigned
        refine .dropped stored (fun y f arguments equal => ?_) (same.trans (List.append_nil _))
        cases equal
        exact plain f arguments rfl

theorem assign_delivers_iff (run : (generate a.tree).run g = .ok t g') :
    Delivers a.target.base g g' ↔ a.isStored = true := by
  cases assign_cases run with
  | delivered stored delivers => exact iff_of_true delivers stored
  | called x f arguments call d written =>
    subst call
    exact iff_of_false (not_delivers_of_call written) Bool.false_ne_true
  | dropped stored plain same =>
    rw [stored]
    exact iff_of_false (not_delivers_of_nothing same) Bool.false_ne_true

theorem hasCode_of_stored (stored : a.isStored = true) :
    (Statement.assign a).hasCode types = true := by
  unfold Statement.hasCode
  split <;> simp_all

theorem hasCode_of_plain (plain : ∀ x f arguments, a ≠ ⟨.name x, .call f arguments⟩) :
    (Statement.assign a).hasCode types = a.isStored := by
  unfold Statement.hasCode
  split <;> simp_all

theorem owns_assign_iff
    (returns : ∃ t, (generate a.tree).run g = .ok t (Visit.mk (.assign a) g).after) :
    (∃ i, (Visit.mk (.assign a) g).Owns i) ↔ (Statement.assign a).hasCode g.types = true := by
  obtain ⟨t, run⟩ := returns
  cases assign_cases run with
  | delivered stored delivers =>
    obtain ⟨c, nonempty, written⟩ := delivers.nonempty
    exact iff_of_true ((owns_leaf rfl written).mpr nonempty) (hasCode_of_stored stored)
  | called x f arguments call d written =>
    subst call
    exact iff_of_true ((owns_leaf rfl written).mpr (by simp)) rfl
  | dropped stored plain same =>
    have written := same.trans (List.append_nil g.code).symm
    rw [hasCode_of_plain plain, stored]
    exact iff_of_false (fun own => (owns_leaf rfl written).mp own rfl) Bool.false_ne_true

theorem owns_iff (single : ∀ items, v.statement ≠ .compound items)
    (returns : ∃ t, (generate v.statement.tree).run v.before = .ok t v.after) :
    (∃ i, v.Owns i) ↔ v.statement.hasCode v.before.types = true := by
  obtain ⟨s, g⟩ := v
  match s with
  | .empty =>
    refine iff_of_false (owns_nothing rfl (stable_silent.warn _) returns) Bool.false_ne_true
  | .absent => exact iff_of_false (owns_nothing rfl (silent_pure _) returns) Bool.false_ne_true
  | .compound items => exact absurd rfl (single items)
  | .assign a => exact owns_assign_iff returns
  | .conditional condition yes no =>
    obtain ⟨t, run⟩ := returns
    exact iff_of_true (owns_last (conditional_inner (visited yes) (visited no) run)) rfl
  | .whileDo condition body =>
    obtain ⟨t, run⟩ := returns
    exact iff_of_true (owns_last (whileDo_inner (visited body) run)) rfl
  | .forDo start direction limit body =>
    obtain ⟨t, run⟩ := returns
    exact iff_of_true (owns_last (forDo_inner (visited body) run)) rfl
  | .call f arguments =>
    exact iff_of_true (owns_some rfl (writes_call _ _) (by rintro _ ⟨d, rfl⟩; simp) returns) rfl
  | .writeln arguments =>
    have writes : Writes (generate (Statement.writeln arguments).tree)
        fun c => ∃ d, c = d ++ [.writeLine] := by
      rw [Statement.tree, generate]
      refine (silent_ofExcept _).bind fun _ => ?_
      refine Writes.bind (stable_grows.forM stable_grows.writeArgument _)
        (fun _ => (writes_emit _).before fun _ => silent_pure _) fun c d _ equal => ?_
      exact ⟨c, by rw [equal]⟩
    exact iff_of_true (owns_some rfl writes (by rintro _ ⟨d, rfl⟩; simp) returns) rfl
  | .readln targets =>
    obtain ⟨t, run⟩ := returns
    have leaf : (Visit.mk (.readln targets) g).inner = [] := by cases targets <;> rfl
    obtain ⟨_, _, listed, rest⟩ := run_bind_ok run
    cases listed
    obtain ⟨_, _, read, done⟩ := run_bind_ok rest
    obtain ⟨c, written, nonempty⟩ := readArguments_ok read
    injection done with _ same
    rw [same] at written
    exact (owns_leaf leaf written).trans nonempty
  | .mention x => exact iff_of_false (owns_nothing rfl (silent_pure _) returns) Bool.false_ne_true
  | .repeatUntil .. | .breakLoop | .continueLoop =>
    exact iff_of_false (owns_nothing rfl (stable_silent.warn _) returns) Bool.false_ne_true

end Owns

/-! ## Programs -/

def Statement.isKept (types : Dictionary String) (s : Statement) : Bool :=
  s.hasCode types &&
    match s with
    | .assign a => a.isStored
    | _ => true

/-- No statement of a program is dropped: each is visited and has code of its own, and each
assignment stores into its target or returns. -/
def Program.KeepsAll (p : Program) (g : Generator) : Prop :=
  (p.visits g).map Visit.statement = p.statements true ∧
    ∀ v ∈ p.visits g, (∃ i, v.Owns i) ∧
      ∀ a, v.statement = .assign a → Delivers a.target.base v.before v.after

theorem map_program_visits (p : Program) (g : Generator) :
    (p.visits g).map Visit.statement = p.statements false := map_block_visits p.block g

theorem visit_delivers_iff (within : v.Within g g') (assigns : v.statement = .assign a) :
    Delivers a.target.base v.before v.after ↔ a.isStored = true := by
  obtain ⟨t, run⟩ := within.returns
  rw [assigns] at run
  exact assign_delivers_iff run

theorem visit_kept_iff (within : v.Within g g') :
    ((∃ i, v.Owns i) ∧ ∀ a, v.statement = .assign a → Delivers a.target.base v.before v.after) ↔
      v.statement.isKept v.before.types = true := by
  unfold Statement.isKept
  rw [owns_iff within.single within.returns, Bool.and_eq_true]
  refine and_congr_right fun _ => ?_
  split
  · rename_i a assigns
    constructor
    · intro delivers
      exact (visit_delivers_iff within assigns).mp (delivers a assigns)
    · intro stored b assigns'
      cases assigns.symm.trans assigns'
      exact (visit_delivers_iff within assigns).mpr stored
  · rename_i other
    exact iff_of_true (fun a assigns => absurd assigns (other a)) rfl

theorem keepsAll_iff (p : Program) (run : (generateProgram p.tree).run g = .ok () g') :
    p.KeepsAll g ↔ p.statements false = p.statements true ∧
      ∀ v ∈ p.visits g, v.statement.isKept v.before.types = true := by
  rw [Program.KeepsAll, map_program_visits]
  exact and_congr_right fun _ => forall₂_congr fun v member =>
    visit_kept_iff (visited_program p run v member)

/-- Of the statements of a source text that is prepared, those outside of procedures and repeated
loops are visited, and it is told from each what code it has. -/
theorem source_keeps_statements_iff {text : String} {tree simplified : Tree} {g g' : Generator}
    (prepared : Prepared text tree simplified)
    (run : (generateProgram simplified).run g = .ok () g') :
    ∃ p : Program, p.tree = simplified ∧
      (p.visits g).map Visit.statement = p.statements false ∧
      (∀ v ∈ p.visits g, v.Within g g' ∧
        ((∃ i, v.Owns i) ↔ v.statement.hasCode v.before.types = true) ∧
        ∀ a, v.statement = .assign a →
          (Delivers a.target.base v.before v.after ↔ a.isStored = true)) ∧
      (p.KeepsAll g ↔ p.statements false = p.statements true ∧
        ∀ v ∈ p.visits g, v.statement.isKept v.before.types = true) := by
  obtain ⟨_, p, -, rfl, -⟩ := prepared.programs
  refine ⟨p, rfl, map_program_visits p g, fun v member => ?_, keepsAll_iff p run⟩
  have within := visited_program p run v member
  exact ⟨within, owns_iff within.single within.returns, fun a => visit_delivers_iff within⟩

def countsWhile : String :=
  "program p; var x: integer; begin x := 1; while x < 3 do x := x + 1; writeln(x) end."

theorem countsWhile_keeps_statements_iff :
    ∃ tree simplified g g', Prepared countsWhile tree simplified ∧
      (generateProgram simplified).run g = .ok () g' ∧
      ∃ p : Program, p.tree = simplified ∧
        (p.visits g).map Visit.statement = p.statements false ∧
        (∀ v ∈ p.visits g, v.Within g g' ∧
          ((∃ i, v.Owns i) ↔ v.statement.hasCode v.before.types = true) ∧
          ∀ a, v.statement = .assign a →
            (Delivers a.target.base v.before v.after ↔ a.isStored = true)) ∧
        (p.KeepsAll g ↔ p.statements false = p.statements true ∧
          ∀ v ∈ p.visits g, v.statement.isKept v.before.types = true) := by
  have found : ((prepare? countsWhile).any fun entry =>
      writes? "count.pas" entry.2 == some true) = true := by decide +kernel
  obtain ⟨tree, simplified, prepared, written⟩ := exists_prepared found
  obtain ⟨g, g', -, run⟩ := written_of_writes? (beq_iff_eq.mp written)
  exact ⟨tree, simplified, g, g', prepared, run, source_keeps_statements_iff prepared run⟩

def countsRepeated : String :=
  "program p; var x: integer; begin x := 1; repeat x := x + 1 until x > 3 end."

def goesOnRepeated : Tree → Bool
  | .program _ (.block _ _ (.statementPart (.statementSequence (_ :: .repeatStatement .. :: _))) _) =>
    true
  | _ => false

theorem repeated_of_goesOnRepeated {p : Program} (h : goesOnRepeated p.tree = true) :
    ∃ body condition, .repeatUntil body condition ∈ p.statements false := by
  obtain ⟨name, ⟨declarations, routines, body, extra⟩⟩ := p
  match body with
  | [] | [_] => cases h
  | first :: second :: rest =>
    cases second with
    | repeatUntil body condition =>
      refine ⟨body, condition, ?_⟩
      simp [Program.statements, Block.statements, Statement.statementsAll, Statement.statements]
    | assign a =>
      obtain ⟨target, value⟩ := a
      cases target <;> cases h
    | _ => cases h

/-- A loop tested after its body is accepted, the code of the program is written to the end, and
the loop has none. -/
theorem countsRepeated_drops_loop :
    ∃ (tree : Tree) (p : Program) (g g' : Generator), Prepared countsRepeated tree p.tree ∧
      verdict? p.tree = some true ∧ Generator.new "count.pas" = .ok g ∧
      (generateProgram p.tree).run g = .ok () g' ∧ ¬ p.KeepsAll g := by
  have found : ((prepare? countsRepeated).any fun entry => verdict? entry.2 == some true &&
      goesOnRepeated entry.2 && writes? "count.pas" entry.2 == some true) = true := by
    decide +kernel
  obtain ⟨tree, simplified, prepared, holds⟩ := exists_prepared found
  obtain ⟨_, p, -, rfl, -⟩ := prepared.programs
  simp only [Bool.and_eq_true, beq_iff_eq] at holds
  obtain ⟨⟨accepted, repeated⟩, written⟩ := holds
  obtain ⟨g, g', new, run⟩ := written_of_writes? written
  refine ⟨tree, p, g, g', prepared, accepted, new, run, fun keeps => ?_⟩
  obtain ⟨body, condition, member⟩ := repeated_of_goesOnRepeated repeated
  rw [← map_program_visits p g] at member
  obtain ⟨v, visit, statement⟩ := List.mem_map.mp member
  have kept := ((keepsAll_iff p run).mp keeps).2 v visit
  rw [statement] at kept
  cases kept

end PascalStack.Syntax
