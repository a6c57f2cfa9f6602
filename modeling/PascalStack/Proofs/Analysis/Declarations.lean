import PascalStack.Proofs.Analysis.Statements

/-!
# Checks of declarations

Types, parameters and headings are left as they are by simplification, so both analyzers declare the
same symbols.
-/

namespace PascalStack.Analysis

open Checking Syntax

variable {α β : Type} {R : Analyzer → Analyzer → Prop}

section Types

variable [Admits R]

instance moves_namedType {name : Tree} : Moves R (namedType name) := by
  unfold namedType
  split
  · exact .ite moves_pure (moves_report .unknownType [_] rfl).ended
  · exact moves_throw

instance {name : Tree} : Repeats (namedType name) := by
  unfold namedType
  split <;> infer_instance

instance moves_boundOf {value : Tree} : Moves R (boundOf value) := by
  unfold boundOf
  split <;> infer_instance

instance {value : Tree} : Repeats (boundOf value) := by
  unfold boundOf
  split <;> infer_instance

def checkOrder (a b : Int) : Checking Value := do
  if a > b then
    let a ← textOf (.int a)
    let b ← textOf (.int b)
    report s!"Invalid array range: {a}..{b}"
    return .absent
  else return .plain (.tuple [.int a, .int b])

instance moves_checkOrder {a b : Int} : Moves R (checkOrder a b) :=
  .ite (moves_textOf.seq <| moves_textOf.seq <| (moves_report (.range _ _) [] rfl).ended) moves_pure

instance {a b : Int} : Repeats (checkOrder a b) := by
  unfold checkOrder
  infer_instance

instance moves_checkBounds {first last : Tree} {v w : Value} :
    Moves R (checkBounds first last v w) := by
  refine .ite (moves_showing.seq <| moves_showing.seq <|
    (moves_report .rangeType [_, _] rfl).ended) ?_
  split
  · exact moves_boundOf.seq <| moves_boundOf.seq moves_checkOrder
  · exact moves_pure

instance {first last : Tree} {v w : Value} : Repeats (checkBounds first last v w) := by
  unfold checkBounds
  split
  · infer_instance
  · split
    · exact ⟨.same fun a => .same fun b => Repeats.follows (m := checkOrder a b)⟩
    · infer_instance

instance moves_findHere? {name : Tree} : Moves R (findHere? name) :=
  moves_ofExcept.seq moves_get.ended

instance moves_checkNew {what : String} {name : Tree} : Moves R (checkNew what name) :=
  moves_findHere?.seq <|
    .ite (moves_textOf.seq <| moves_report (.redeclared what) [_] rfl) moves_pure

instance {what : String} {name : Tree} : Repeats (checkNew what name) := by
  unfold checkNew
  infer_instance

end Types

section Forms

variable [AdmitsValues R]

instance moves_range {first last : Expression} :
    Moves R (check (.range first.tree last.tree)) :=
  (moves_expression first).seq <| (moves_expression last).seq moves_checkBounds

instance {first last : Expression} : Repeats (check (.range first.tree last.tree)) :=
  ⟨.same fun _ => .same fun _ => Repeats.follows (m := checkBounds _ _ _ _)⟩

instance moves_type (τ : TypeForm) : Moves R (check τ.tree) := by
  induction τ with
  | word s => exact moves_namedType
  | array first last element ih => exact ih.seq moves_range.ended

instance repeats_type (τ : TypeForm) : Repeats (check τ.tree) := by
  induction τ with
  | word s => exact inferInstanceAs (Repeats (namedType _))
  | array first last element ih => exact ⟨.same fun _ => .same fun _ => Repeats.follows⟩

end Forms

section Declarations

variable [AdmitsNames R]

instance moves_newVariable {name : Tree} {type : Value} {initialized : Bool} :
    Moves R (newVariable name type initialized) := moves_newSymbol

instance {name : Tree} {type : Value} {initialized : Bool} :
    Repeats (newVariable name type initialized) := by
  unfold newVariable
  infer_instance

instance moves_declareAs {type : Value} {name : Tree} : Moves R (declareAs type name) := by
  unfold declareAs
  split
  · infer_instance
  · infer_instance
  · split
    · split
      · exact moves_newSymbol.seq moves_define
      · infer_instance
    · infer_instance
  · infer_instance

instance {type : Value} {name : Tree} : Repeats (declareAs type name) := by
  unfold declareAs newArray
  split
  · infer_instance
  · infer_instance
  · split
    · split <;> infer_instance
    · infer_instance
  · infer_instance

instance moves_declareName {type : Value} {t : Tree} : Moves R (declareName type t) := by
  unfold declareName
  split
  · infer_instance
  · exact moves_textOf.seq <| moves_report .indexedDeclaration [_] rfl
  · infer_instance

theorem follows_declareName (type : Value) {x x' : Variable} (h : x.Becomes x') :
    Trails (declareName type x.tree) (declareName type x'.tree) := by
  cases x with
  | name x =>
    obtain rfl : x' = .name x := h
    exact .same fun _ => follows_self (m := declareAs _ _)
  | element x index => exact follows_failing (m := textOf _ >>= fun _ => report _)

instance moves_each {f : α → Checking PUnit} {xs : List α} [h : ∀ x, Moves R (f x)] :
    Moves R (xs.forM f) := by
  induction xs with
  | nil => exact moves_pure
  | cons x rest ih => exact (h x).seq ih

theorem follows_each {f : α → Checking PUnit} {f' : β → Checking PUnit} {R : α → β → Prop}
    [∀ x, Adds (f x)] (h : ∀ x x', R x x' → Trails (f x) (f' x'))
    {xs : List α} {xs' : List β} (all : List.Forall₂ R xs xs') :
    Trails (xs.forM f) (xs'.forM f') := by
  induction all with
  | nil => exact follows_pure trivial
  | @cons x x' rest rest' first _ ih =>
    exact (h x x' first).bind (f := fun _ => rest.forM f) fun _ _ _ => ih

instance {f : α → Checking PUnit} {xs : List α} [∀ x, Adds (f x)] [∀ x, Repeats (f x)] :
    Repeats (xs.forM f) := by
  induction xs with
  | nil => exact inferInstanceAs (Repeats (pure _))
  | cons x rest ih => exact ⟨.same fun _ => ih.follows⟩

theorem checkAll_map (tree : α → Tree) (xs : List α) :
    checkAll andNothing (xs.map tree) =
      xs.forM fun x => check (tree x) >>= andNothing (tree x) := by
  induction xs with
  | nil => rfl
  | cons x rest ih =>
    rw [List.map_cons, checkAll, ih]
    exact (bind_assoc _ _ _).symm

theorem check_declaration (d : Declaration) : check d.tree = (do
    let v ← check d.type.tree
    d.declared.forM fun x => declareName v x.tree
    return .absent) := by
  rw [Declaration.tree, check]
  refine congrArg _ (funext fun v => ?_)
  change forM (d.declared.map Variable.tree) (declareName v) >>= _ = _
  rw [List.forM_map]
  rfl

variable [AdmitsValues R]

instance moves_declaration (d : Declaration) : Moves R (check d.tree) := by
  rw [check_declaration]
  infer_instance

theorem follows_declaration {d d' : Declaration} (h : d.Becomes d') :
    Trails (check d.tree) (check d'.tree) := by
  obtain ⟨become, type⟩ := h
  rw [check_declaration, check_declaration, type]
  exact .same fun v =>
    (follows_each (fun _ _ becomes => follows_declareName v becomes) become).done

theorem moves_declarations (ds : List Declaration) :
    Moves R (checkAll andNothing (ds.map Declaration.tree)) := by
  rw [checkAll_map]
  infer_instance

instance moves_section (ds : List Declaration) : Moves R (check (sectionTree ds)) :=
  (moves_whenPresent (moves_declarations ds)).ended

theorem follows_section {ds ds' : List Declaration} (h : List.Forall₂ Declaration.Becomes ds ds') :
    Trails (check (sectionTree ds)) (check (sectionTree ds')) := by
  have length : (ds'.map Declaration.tree).length = (ds.map Declaration.tree).length := by
    rw [List.length_map, List.length_map, h.length_eq]
  refine (follows_whenPresent length ?_).done
  change Follows (checkAll andNothing _) (checkAll andNothing _) _
  rw [checkAll_map, checkAll_map]
  exact follows_each (R := Declaration.Becomes)
    (fun _ _ becomes => (follows_declaration becomes).done) h

end Declarations

section Headings

variable [AdmitsNames R] [AdmitsValues R]

instance moves_parameter (p : Parameter) : Moves R (check p.tree) :=
  (moves_type p.type).seq moves_newVariable.ended

instance {p : Parameter} : Repeats (check p.tree) :=
  ⟨.same fun _ => .same fun _ => Repeats.follows⟩

instance moves_parameters (ps : List Parameter) : Moves R (collectAll (ps.map Parameter.tree)) := by
  induction ps with
  | nil => exact moves_pure
  | cons p rest ih =>
    exact (moves_parameter p).seq ih.ended

instance {ps : List Parameter} : Repeats (collectAll (ps.map Parameter.tree)) := by
  induction ps with
  | nil => exact inferInstanceAs (Repeats (pure _))
  | cons p rest ih => exact ⟨.same fun _ => .same fun _ => Repeats.follows⟩

def declareRoutine (name : Tree) (result : Value) (params : List Value) : Checking Value := do
  let s ← newRoutine name params result
  define s
  return .symbol s

omit [AdmitsValues R] in
instance moves_declareRoutine {name : Tree} {result : Value} {params : List Value} :
    Moves R (declareRoutine name result params) :=
  moves_newSymbol.seq moves_define.ended

instance {name : Tree} {result : Value} {params : List Value} :
    Repeats (declareRoutine name result params) := by
  unfold declareRoutine newRoutine
  infer_instance

def NamesRoutine (name : Tree) (v : Value) : Prop := ∃ s, v = .symbol s ∧ s.name = name

theorem returns_declareRoutine (name : Tree) (result : Value) (params : List Value) :
    Returns (declareRoutine name result params) (NamesRoutine name) := by
  intro a v b run
  obtain ⟨s, a₁, made, rest⟩ := run_bind_ok run
  obtain ⟨_, a₂, -, done⟩ := run_bind_ok rest
  cases made
  cases done
  exact ⟨_, rfl, rfl⟩

theorem check_procedureHeading (name : Tree) (ps : List Parameter) :
    check (.procedureHeading name (.list (ps.map Parameter.tree))) = (do
      checkNew "Procedure" name
      let params ← collectAll (ps.map Parameter.tree)
      declareRoutine name .absent params) := by
  rw [check]
  cases ps <;> rfl

theorem check_functionHeading (name : Tree) (τ : TypeForm) (ps : List Parameter) :
    check (.functionHeading name τ.tree (.list (ps.map Parameter.tree))) = (do
      checkNew "Function" name
      let result ← check τ.tree
      let params ← collectAll (ps.map Parameter.tree)
      declareRoutine name result params) := by
  rw [check]
  cases τ <;> cases ps <;> rfl

instance moves_procedureHeading (x : String) (ps : List Parameter) :
    Moves R (check (.procedureHeading (.str x) (.list (ps.map Parameter.tree)))) := by
  rw [check_procedureHeading]
  exact moves_checkNew.seq <| (moves_parameters ps).seq moves_declareRoutine

instance moves_functionHeading (x : Option String) (τ : TypeForm) (ps : List Parameter) :
    Moves R (check (.functionHeading (nameTree x) τ.tree (.list (ps.map Parameter.tree)))) := by
  rw [check_functionHeading]
  exact moves_checkNew.seq <| (moves_type τ).seq <|
    (moves_parameters ps).seq moves_declareRoutine

instance {x : String} {ps : List Parameter} :
    Repeats (check (.procedureHeading (.str x) (.list (ps.map Parameter.tree)))) := by
  rw [check_procedureHeading]
  infer_instance

instance {x : Option String} {τ : TypeForm} {ps : List Parameter} :
    Repeats (check (.functionHeading (nameTree x) τ.tree (.list (ps.map Parameter.tree)))) := by
  rw [check_functionHeading]
  infer_instance

theorem returns_functionHeading (x : Option String) (τ : TypeForm) (ps : List Parameter) :
    Returns (check (.functionHeading (nameTree x) τ.tree (.list (ps.map Parameter.tree))))
      (NamesRoutine (nameTree x)) := by
  rw [check_functionHeading]
  exact .bind fun _ => .bind fun _ => .bind fun _ => returns_declareRoutine _ _ _

end Headings

end PascalStack.Analysis
