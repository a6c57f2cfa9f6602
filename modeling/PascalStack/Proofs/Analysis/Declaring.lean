import PascalStack.Proofs.Analysis.Passing

/-!
# Declarations that pass

Declarations that are checked without an error define symbols one after the other. What is declared
inside a block or a routine is forgotten after it, so all that a routine leaves behind is its own
symbol.
-/

namespace PascalStack.Analysis

open Checking Syntax

variable {word : String} {a b : Analyzer} {τ : TypeForm} {name initialized constant value : Tree}
  {role : Role Value} {symbol : Symbol} {d : Declaration} {ds : List Declaration}
  {x : Option String} {extra : Option (List Declaration)} {ps : List Parameter}

section Types

variable {s s' : Scope} {v : Value}

theorem passes_word (h : Passes (check (TypeForm.word word).tree) s v s') :
    Text.asciiUpper word ∈ ["INTEGER", "REAL", "BOOLEAN", "STRING"] ∧
      v = .named (Text.asciiUpper word) := by
  change Passes (if ["INTEGER", "REAL", "BOOLEAN", "STRING"].contains (Text.asciiUpper word) then _
    else _) s v s' at h
  split at h
  · rename_i member
    exact ⟨List.contains_iff_mem.mp member, (passes_pure h).1⟩
  · exact h.elim

theorem passes_arrayType {first last : Expression} {element : TypeForm}
    (h : Passes (check (TypeForm.array first last element).tree) s v s') :
    (∃ v, Passes (check first.tree) s v s) ∧ (∃ v, Passes (check last.tree) s v s) ∧
      (∃ v, Passes (check element.tree) s v s) ∧
      ∃ inner dimensions, v = .tupleOf [.named "ARRAY", inner, dimensions] := by
  obtain ⟨inner, checked, rest⟩ := h.staying
  obtain ⟨bounds, range, rest⟩ := rest.staying
  obtain ⟨v₁, lower, range⟩ := range.staying
  obtain ⟨v₂, upper, -⟩ := range.staying
  exact ⟨⟨v₁, lower⟩, ⟨v₂, upper⟩, ⟨inner, checked⟩, inner, _, (passes_pure rest).1⟩

theorem plain_of_trees {values : List Value} {ts : List Tree} (h : Value.trees? values = some ts) :
    ts.map Value.plain = values := by
  induction values generalizing ts with
  | nil =>
    cases h
    rfl
  | cons value rest ih =>
    rw [Value.trees?, List.mapM_cons] at h
    obtain ⟨t, first, h⟩ := Option.bind_eq_some_iff.mp h
    obtain ⟨others, second, h⟩ := Option.bind_eq_some_iff.mp h
    cases h
    cases value with
    | plain t' =>
      cases first
      rw [List.map_cons, ih second]
    | _ => cases first

theorem tupleItems?_tupleOf (values : List Value) :
    (Value.tupleOf values).tupleItems? = some values := by
  unfold Value.tupleOf
  split
  · rename_i ts trees
    exact congrArg some (plain_of_trees trees)
  · rfl

theorem text?_tupleOf (values : List Value) : text? (Value.tupleOf values) = none := by
  unfold Value.tupleOf
  split <;> rfl

def IsType (v : Value) : Prop :=
  (∃ word, v = .named word) ∨ ∃ inner dimensions, v = .tupleOf [.named "ARRAY", inner, dimensions]

theorem named_of_word (run : (check (TypeForm.word word).tree).run a = .ok v b) :
    ∃ type, v = .named type := by
  change (namedType (.str word)).run a = _ at run
  simp only [namedType] at run
  split at run
  · cases run
    exact ⟨_, rfl⟩
  · cases run
    exact ⟨_, rfl⟩

theorem isType_of_check (run : (check τ.tree).run a = .ok v b) : IsType v := by
  cases τ with
  | word word => exact .inl (named_of_word run)
  | array first last element =>
    obtain ⟨inner, a₁, -, run⟩ := run_bind_ok run
    obtain ⟨bounds, a₂, -, run⟩ := run_bind_ok run
    cases run
    exact .inr ⟨inner, _, rfl⟩

theorem passes_type (h : Passes (check τ.tree) s v s') : IsType v := by
  obtain ⟨a, a', -, run, -⟩ := h
  exact isType_of_check run

theorem truthy_type (h : Passes (check τ.tree) s v s') : v.truthy = true ∧ v.isAbsent = false := by
  cases τ with
  | word word =>
    obtain ⟨member, rfl⟩ := passes_word h
    simp only [List.mem_cons, List.not_mem_nil, or_false] at member
    rcases member with same | same | same | same <;> rw [same] <;> exact ⟨rfl, rfl⟩
  | array first last element =>
    obtain ⟨-, -, -, inner, dimensions, rfl⟩ := passes_arrayType h
    unfold Value.tupleOf
    split
    · rename_i ts trees
      have some := plain_of_trees trees
      cases ts with
      | nil => cases some
      | cons t rest => exact ⟨rfl, rfl⟩
    · exact ⟨rfl, rfl⟩

end Types

section Variables

variable {s s' : Scope} {v type : Value} {x : String} {u : Unit}

structure IsVariable (x : String) (type : Value) (symbol : Symbol) : Prop where
  name : symbol.name = .str x
  scalar : ∀ word, type = .named word → symbol.type = type ∧ symbol.role = .variable

theorem passes_newSymbol
    (h : Passes (newSymbol name type initialized constant value role) s symbol s') :
    symbol.name = name ∧ symbol.type = type ∧ symbol.role = role ∧ s' = s := by
  obtain ⟨a, a', rfl, run, rfl, -⟩ := h
  cases run
  exact ⟨rfl, rfl, rfl, rfl⟩

theorem passes_define (h : Passes (define symbol) s u s') : s' = s.define symbol := by
  obtain ⟨_, -, rest⟩ := Passes.taking h
  obtain ⟨a, a', rfl, run, rfl, -⟩ := rest
  cases run
  rfl

theorem passes_defineNew
    (h : Passes (newSymbol name type initialized constant value role >>= define) s u s') :
    ∃ symbol, symbol.name = name ∧ symbol.type = type ∧ symbol.role = role ∧
      s' = s.define symbol := by
  obtain ⟨symbol, middle, made, defined⟩ := h.bind
  obtain ⟨name, type, role, rfl⟩ := passes_newSymbol made
  exact ⟨symbol, name, type, role, passes_define defined⟩

theorem declareAs_of_isType (typed : IsType type) (name : Tree) :
    ∃ type' role, declareAs type name =
        newSymbol name type' (.bool false) (.bool false) .none role >>= define ∧
      ∀ word, type = .named word → type' = type ∧ role = .variable := by
  rcases typed with ⟨word, rfl⟩ | ⟨inner, dimensions, rfl⟩
  · exact ⟨_, _, rfl, fun _ _ => ⟨rfl, rfl⟩⟩
  · refine ⟨.named "ARRAY", .array inner dimensions.orEmpty, ?_, fun word same => ?_⟩
    · simp only [declareAs, text?_tupleOf, tupleItems?_tupleOf]
      rfl
    · have none := text?_tupleOf [.named "ARRAY", inner, dimensions]
      rw [same] at none
      cases none

theorem passes_declareAs (typed : IsType type)
    (h : Passes (declareAs type (.str x)) s u s') :
    ∃ symbol, IsVariable x type symbol ∧ s' = s.define symbol := by
  obtain ⟨type', role, opened, scalar⟩ := declareAs_of_isType typed (.str x)
  rw [opened] at h
  obtain ⟨symbol, name, rfl, rfl, rfl⟩ := passes_defineNew h
  exact ⟨symbol, ⟨name, scalar⟩, rfl⟩

theorem passes_declareName {declared : Variable} (typed : IsType type)
    (h : Passes (declareName type declared.tree) s u s') :
    ∃ x symbol, declared = .name x ∧ IsVariable x type symbol ∧ s' = s.define symbol := by
  cases declared with
  | element x index => exact Passes.elim (m := textOf _ >>= fun _ => report _) h
  | name x =>
    obtain ⟨_, -, rest⟩ := h.staying
    obtain ⟨symbol, variable', defined⟩ := passes_declareAs typed rest
    exact ⟨x, symbol, rfl, variable', defined⟩

theorem passes_declared {declared : List Variable} (typed : IsType type)
    (h : Passes (declared.forM fun x => declareName type x.tree) s u s') :
    ∃ names symbols, declared = names.map Variable.name ∧
      List.Forall₂ (IsVariable · type ·) names symbols ∧ s' = s.defineAll symbols := by
  induction declared generalizing s with
  | nil => exact ⟨[], [], rfl, .nil, (passes_pure h).2⟩
  | cons first rest ih =>
    obtain ⟨_, middle, one, others⟩ := h.bind
    obtain ⟨x, symbol, rfl, is, rfl⟩ := passes_declareName typed one
    obtain ⟨names, symbols, rfl, all, rfl⟩ := ih others
    exact ⟨x :: names, symbol :: symbols, rfl, .cons is all, rfl⟩

theorem passes_declaration (h : Passes (check d.tree) s v s') :
    ∃ type names symbols, Passes (check d.type.tree) s type s ∧
      d.declared = names.map Variable.name ∧
      List.Forall₂ (IsVariable · type ·) names symbols ∧ s' = s.defineAll symbols := by
  rw [check_declaration] at h
  obtain ⟨type, typed, rest⟩ := h.staying
  obtain ⟨_, rest⟩ := rest.before
  obtain ⟨names, symbols, declared, all, defined⟩ := passes_declared (passes_type typed) rest
  exact ⟨type, names, symbols, typed, declared, all, defined⟩

theorem passes_section (h : Passes (check (sectionTree ds)) s v s') :
    Passes (checkAll andNothing (ds.map Declaration.tree)) s () s' := by
  obtain ⟨_, h⟩ := h.before
  cases ds with
  | nil => exact h
  | cons d rest => exact h

theorem passes_declarations_cons {rest : List Declaration}
    (h : Passes (checkAll andNothing ((d :: rest).map Declaration.tree)) s u s') :
    ∃ v middle, Passes (check d.tree) s v middle ∧
      Passes (checkAll andNothing (rest.map Declaration.tree)) middle () s' := by
  exact h.bind

end Variables

/-! ## Headings -/

section Headings

variable {s s' : Scope} {v : Value} {ps : List Parameter} {params : List Value}

def IsParameter (s : Scope) (p : Parameter) (v : Value) : Prop :=
  ∃ symbol, v = .symbol symbol ∧ Passes (check p.type.tree) s symbol.type s ∧
    symbol.name = .str p.name ∧ symbol.role = .variable

theorem passes_parameter {p : Parameter} (h : Passes (check p.tree) s v s') :
    IsParameter s p v ∧ s' = s := by
  obtain ⟨type, typed, rest⟩ := h.staying
  obtain ⟨symbol, middle, made, given⟩ := rest.bind
  obtain ⟨name, rfl, role, rfl⟩ := passes_newSymbol made
  obtain ⟨rfl, rfl⟩ := passes_pure given
  exact ⟨⟨symbol, rfl, typed, name, role⟩, rfl⟩

theorem passes_parameters (h : Passes (collectAll (ps.map Parameter.tree)) s params s') :
    List.Forall₂ (IsParameter s) ps params ∧ s' = s := by
  induction ps generalizing params s' with
  | nil =>
    obtain ⟨rfl, rfl⟩ := passes_pure h
    exact ⟨.nil, rfl⟩
  | cons p rest ih =>
    obtain ⟨v, middle, first, following⟩ := h.bind
    obtain ⟨is, rfl⟩ := passes_parameter first
    obtain ⟨vs, middle, others, given⟩ := following.bind
    obtain ⟨all, rfl⟩ := ih others
    obtain ⟨rfl, rfl⟩ := passes_pure given
    exact ⟨.cons is all, rfl⟩

theorem passes_declareRoutine {result : Value}
    (h : Passes (declareRoutine name result params) s v s') :
    ∃ symbol, v = .symbol symbol ∧ symbol.name = name ∧
      symbol.type = (if result.truthy then result else .named "PROCEDURE") ∧
      symbol.role = .routine params !result.isAbsent ∧ s' = s.define symbol := by
  obtain ⟨symbol, middle, made, rest⟩ := h.bind
  obtain ⟨name, type, role, rfl⟩ := passes_newSymbol made
  obtain ⟨_, _, defined, given⟩ := rest.bind
  obtain rfl := passes_define defined
  obtain ⟨rfl, rfl⟩ := passes_pure given
  exact ⟨symbol, rfl, name, type, role, rfl⟩

theorem passes_procedureHeading {x : String}
    (h : Passes (check (.procedureHeading (.str x) (.list (ps.map Parameter.tree)))) s v s') :
    ∃ symbol params, v = .symbol symbol ∧ symbol.name = .str x ∧
      symbol.role = .routine params false ∧ List.Forall₂ (IsParameter s) ps params ∧
      s' = s.define symbol := by
  rw [check_procedureHeading] at h
  obtain ⟨_, -, rest⟩ := h.staying
  obtain ⟨params, middle, collected, declared⟩ := rest.bind
  obtain ⟨all, rfl⟩ := passes_parameters collected
  obtain ⟨symbol, rfl, name, -, role, defined⟩ := passes_declareRoutine declared
  exact ⟨symbol, params, rfl, name, role, all, defined⟩

theorem passes_functionHeading {x : Option String} {τ : TypeForm}
    (h : Passes (check (.functionHeading (nameTree x) τ.tree (.list (ps.map Parameter.tree)))) s v
      s') :
    ∃ symbol params, v = .symbol symbol ∧ symbol.name = nameTree x ∧
      Passes (check τ.tree) s symbol.type s ∧ symbol.role = .routine params true ∧
      List.Forall₂ (IsParameter s) ps params ∧ s' = s.define symbol := by
  rw [check_functionHeading] at h
  obtain ⟨_, -, rest⟩ := h.staying
  obtain ⟨result, typed, rest⟩ := rest.staying
  obtain ⟨params, middle, found, declared⟩ := rest.bind
  obtain ⟨all, rfl⟩ := passes_parameters found
  obtain ⟨symbol, rfl, name, type, role, defined⟩ := passes_declareRoutine declared
  obtain ⟨present, given⟩ := truthy_type typed
  rw [if_pos present] at type
  rw [given] at role
  exact ⟨symbol, params, rfl, name, type ▸ typed, role, all, defined⟩

end Headings

section Blocks

variable {s s' : Scope} {v : Value} {u : Unit}

theorem passes_extra
    (h : Passes (whenPresent (extraTree extra) (discard (check (extraTree extra)))) s u s') :
    Passes (checkAll andNothing ((extra.getD []).map Declaration.tree)) s () s' := by
  cases extra with
  | none => exact h
  | some ds =>
    obtain ⟨v, h⟩ := Passes.discarded h
    exact passes_section h

theorem passes_parts {rs : List Routine} {body : List Statement}
    (h : Passes (check (Block.make ds rs body extra).tree) s v s') :
    ∃ s₁ s₂ s₃, Passes (checkAll andNothing (ds.map Declaration.tree)) s.enter () s₁ ∧
      Passes (checkAll andNothing (Routine.trees rs)) s₁ () s₂ ∧
      Passes (checkAll andNothing ((extra.getD []).map Declaration.tree)) s₂ () s₃ ∧
      (∀ item ∈ body, ∃ v, Passes (check item.tree) s₃ v s₃) ∧ s' = s₃.leave := by
  obtain ⟨_, h⟩ := h.before
  obtain ⟨last, inside, left⟩ := h.insideScope
  obtain ⟨_, s₁, first, rest⟩ := inside.bind
  obtain ⟨v₁, first⟩ := Passes.discarded first
  obtain ⟨_, s₂, second, rest⟩ := rest.bind
  obtain ⟨_, s₃, third, rest⟩ := rest.bind
  obtain ⟨v₃, rest⟩ := Passes.discarded rest
  obtain rfl := rest.scope_eq
  refine ⟨s₁, s₂, _, passes_section first, ?_, passes_extra third, ?_, left⟩
  · cases rs with
    | nil => exact second
    | cons r others => exact second
  · obtain ⟨_, rest⟩ := rest.before
    exact passes_statements rest

theorem passes_routines_cons {r : Routine} {rest : List Routine}
    (h : Passes (checkAll andNothing (Routine.trees (r :: rest))) s u s') :
    ∃ v middle, Passes (check r.tree) s v middle ∧
      Passes (checkAll andNothing (Routine.trees rest)) middle () s' := by
  exact h.bind

theorem restores_block (b : Block) (h : Passes (check b.tree) s v s') : s' = s := by
  cases b with
  | make ds rs body extra =>
    obtain ⟨s₁, s₂, s₃, first, second, third, -, rfl⟩ := passes_parts h
    have outer {ts : List Tree} {s s' : Scope} {u : Unit}
        (h : Passes (checkAll andNothing ts) s u s') : s'.outer = s.outer :=
      h.outer_eq
    refine Scope.leave_of_outer ?_
    rw [outer third, outer second, outer first]

end Blocks

section Routines

variable {s s' : Scope} {v : Value} {symbol : Symbol} {params : List Value} {block : Checking Unit}
  {u : Unit}

def symbolsOf (values : List Value) : List Symbol :=
  values.filterMap fun
    | .symbol symbol => some symbol
    | _ => none

theorem passes_defineAll (h : Passes (params.forM defineValue) s u s') :
    s' = s.defineAll (symbolsOf params) := by
  induction params generalizing s with
  | nil => exact (passes_pure h).2
  | cons value rest ih =>
    obtain ⟨_, middle, first, others⟩ := h.bind
    cases value with
    | symbol symbol =>
      obtain rfl := passes_define first
      exact ih others
    | _ =>
      obtain ⟨a, a', -, run, -⟩ := first
      cases run

theorem passes_checkProcedure (role : symbol.role = .routine params false) [Adds block]
    (h : Passes (checkProcedure (.symbol symbol) block) s u s') :
    ∃ inner, Passes block (s.enter.defineAll (symbolsOf params)) () inner ∧ s' = inner.leave := by
  obtain ⟨inner, inside, left⟩ := h.insideScope
  obtain ⟨found, given, inside⟩ := inside.taking
  rw [paramsOf, role] at given
  cases given
  obtain ⟨_, middle, defined, inside⟩ := inside.bind
  obtain rfl := passes_defineAll defined
  exact ⟨inner, inside, left⟩

theorem passes_checkFunction (role : symbol.role = .routine params true) [Adds block]
    (h : Passes (checkFunction (.symbol symbol) block) s u s') :
    ∃ result inner, result.name = symbol.name ∧ result.type = symbol.type ∧
      result.role = .variable ∧
      Passes block ((s.enter.defineAll (symbolsOf params)).define result) () inner ∧
      s' = inner.leave := by
  rw [checkFunction_symbol] at h
  obtain ⟨inner, inside, left⟩ := h.insideScope
  obtain ⟨found, known, inside⟩ := inside.taking
  rw [paramsOf, role] at known
  cases known
  obtain ⟨_, middle, defined, inside⟩ := inside.bind
  obtain rfl := passes_defineAll defined
  obtain ⟨result, middle, made, following⟩ := inside.bind
  obtain ⟨name, type, role, rfl⟩ := passes_newSymbol made
  obtain ⟨_, middle, declared, body⟩ := following.bind
  obtain rfl := passes_define declared
  obtain ⟨_, last, checked, ending⟩ := body.bind
  obtain rfl := ending.scope_eq
  exact ⟨result, _, name, type, role, checked, left⟩

theorem passes_procedure {x : String} {b : Block}
    (h : Passes (check (Routine.procedure x ps b).tree) s v s') :
    ∃ symbol params, symbol.name = .str x ∧ symbol.role = .routine params false ∧
      List.Forall₂ (IsParameter s) ps params ∧
      (∃ v, Passes (check b.tree) ((s.define symbol).enter.defineAll (symbolsOf params)) v
        ((s.define symbol).enter.defineAll (symbolsOf params))) ∧
      s' = s.define symbol := by
  obtain ⟨w, middle, heading, rest⟩ := h.bind
  obtain ⟨symbol, params, rfl, name, role, all, rfl⟩ := passes_procedureHeading heading
  obtain ⟨_, body⟩ := rest.before
  obtain ⟨inner, inside, left⟩ := passes_checkProcedure role body
  obtain ⟨v, inside⟩ := inside.discarded
  obtain rfl := restores_block b inside
  refine ⟨symbol, params, name, role, all, ⟨v, inside⟩, left.trans ?_⟩
  exact Scope.leave_of_outer (Scope.outer_defineAll _ _)

theorem passes_function {b : Block} (h : Passes (check (Routine.function x τ ps b).tree) s v s') :
    ∃ symbol params result, symbol.name = nameTree x ∧ symbol.role = .routine params true ∧
      Passes (check τ.tree) s symbol.type s ∧ List.Forall₂ (IsParameter s) ps params ∧
      result.name = nameTree x ∧ result.type = symbol.type ∧ result.role = .variable ∧
      (∃ v, Passes (check b.tree)
        (((s.define symbol).enter.defineAll (symbolsOf params)).define result) v
        (((s.define symbol).enter.defineAll (symbolsOf params)).define result)) ∧
      s' = s.define symbol := by
  obtain ⟨w, middle, heading, rest⟩ := h.bind
  obtain ⟨symbol, params, rfl, name, typed, role, all, rfl⟩ := passes_functionHeading heading
  obtain ⟨_, body⟩ := rest.before
  obtain ⟨result, inner, name', type', role', inside, left⟩ := passes_checkFunction role body
  obtain ⟨v, inside⟩ := inside.discarded
  obtain rfl := restores_block b inside
  refine ⟨symbol, params, result, name, role, typed, all, name'.trans name, type', role',
    ⟨v, inside⟩, left.trans ?_⟩
  refine Scope.leave_of_outer ?_
  rw [Scope.outer_define, Scope.outer_defineAll]

end Routines

theorem passes_program {p : Program} {s s' : Scope} {v : Value} (h : Passes (check p.tree) s v s') :
    ∃ v, Passes (check p.block.tree) s v s' := by
  obtain ⟨_, -, rest⟩ := Passes.staying (m := discard (pure Value.absent)) h
  obtain ⟨_, rest⟩ := rest.before
  exact rest.discarded

theorem passes_of_accepted {t : Tree} (accepted : verdict? t = some true) :
    ∃ v s, Passes (check t) standardScope v s := by
  obtain ⟨v, a, run, clean⟩ := checked_of_accepted accepted
  exact ⟨v, a.scope, _, a, rfl, run, rfl, clean⟩

end PascalStack.Analysis
