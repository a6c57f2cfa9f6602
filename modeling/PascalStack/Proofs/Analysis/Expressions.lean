import PascalStack.Proofs.Analysis.Following
import PascalStack.Proofs.Syntax.Simplified

/-!
# Checks of expressions

Where an expression is checked without an error, so is what it becomes, but for errors that
simplification brings about, and the two types fit.
-/

namespace PascalStack.Analysis

open Checking Syntax

section Moves

variable {R : Analyzer → Analyzer → Prop} [Admits R] {index first : Checking Value}
  {each : List Value → Checking Unit}
  {standard : String → Checking Unit} {name params : Tree} {what : String}

instance moves_checkName {name : Tree} : Moves R (checkName name) := by
  refine moves_find?.bind fun found => ?_
  split
  · exact moves_pure
  · exact moves_textOf.seq <| (moves_report .noIdentifier [_] rfl).ended

theorem moves_refusal {c : Prop} [Decidable c] (v : Value) (kind : ErrorKind)
    (other : kind.isJump = false) :
    Moves R (do
      if c then
        let type ← showing v
        report (kind.about [type])) :=
  .ite (moves_showing.seq <| moves_report kind [_] other) moves_pure

theorem moves_checkIndex {what : String} (h : Moves R index) : Moves R (checkIndex what index) :=
  h.bind fun v => moves_refusal v (.index what) rfl

theorem moves_checkElement {name : Tree} (h : Moves R index) :
    Moves R (checkElement name index) := by
  refine moves_find?.bind fun found => ?_
  split
  · exact moves_textOf.seq <| (moves_report .noArray [_] rfl).ended
  · split
    · exact (moves_checkIndex h).ended
    · exact .ite (moves_checkIndex h).ended
        (moves_textOf.seq <| (moves_report .notIndexed [_] rfl).ended)

instance moves_callee? {known : List Symbol} {name : Tree} : Moves R (callee? known name) := by
  refine moves_find?.bind fun found => ?_
  split <;> exact moves_pure

theorem moves_checkArguments {title : String} {name params : Tree} {wanted : List Value}
    {each : Checking Unit} (h : Moves R each) :
    Moves R (checkArguments title name params wanted each) :=
  moves_ofExcept.seq <| .ite h.ended
    (moves_textOf.seq <| (moves_report (.arguments _ _ _) [_] rfl).ended)

theorem moves_checkCall {name params : Tree} (h : ∀ routine, Moves R (standard routine))
    (h' : ∀ wanted, Moves R (each wanted)) : Moves R (checkCall name params standard each) := by
  refine moves_callee?.bind fun found => ?_
  split
  · exact moves_textOf.seq <| (moves_report .noProcedure [_] rfl).ended
  · split
    · exact moves_ofExcept.seq <| .ite (h _).ended
        ((moves_checkArguments (h' _)).seq <| .ite moves_pure moves_pure)
    · exact moves_textOf.seq <| (moves_report .notCallable [_] rfl).ended

instance moves_checkArgument {what : String} {name : Tree} {index : Nat} {param found : Value} :
    Moves R (checkArgument what name index param found) :=
  moves_ofExcept.seq <| moves_ofExcept.seq <| .ite (moves_textOf.seq <| moves_showing.seq <|
      moves_showing.seq <| moves_report (.argument _ _) [_, _, _] rfl) moves_pure

instance moves_refuseTarget {target : Tree} : Moves R (refuseTarget target) :=
  moves_textOf.seq <| moves_report .readTarget [_] rfl

instance moves_checkOperation {operator : Tree} {left right : Value} :
    Moves R (checkOperation operator left right) := by
  refine moves_ofExcept.bind fun found => ?_
  split
  · exact moves_pure
  · exact moves_showing.seq <| moves_showing.seq <|
      moves_textOf.seq <| (moves_report .operands [_, _, _] rfl).ended

instance moves_checkUnary {operator : Tree} {operand : Value} :
    Moves R (checkUnary operator operand) := by
  refine moves_ofExcept.bind fun found => ?_
  split
  · exact moves_pure
  · exact moves_showing.seq <| moves_textOf.seq <| (moves_report .operand [_, _] rfl).ended

def checkMeasured (v : Value) : Checking Unit := do
  if !v.isNamed "STRING" then
    let type ← showing v
    report s!"Length function expects a STRING parameter, got {type}"

instance moves_checkMeasured {v : Value} : Moves R (checkMeasured v) := moves_refusal v .length rfl

theorem check_length (t : Tree) : check (.lengthFunction t) = (do
    let v ← check t
    checkMeasured v
    return .named "INTEGER") := by
  rw [check]
  simp only [checkMeasured, optional_bind, bind_assoc]

end Moves

section Values

variable {R : Analyzer → Analyzer → Prop} [AdmitsValues R]

instance moves_readArgument {t : Tree} : Moves R (readArgument t) := by
  unfold readArgument
  split
  · refine moves_find?.bind fun found => ?_
    split
    · exact moves_assign
    · exact moves_pure
  · exact moves_pure
  · exact moves_refuseTarget

instance moves_afterArgument (routine : String) (argument : Tree) (v : Value) :
    Moves R (afterArgument routine argument v) := .ite moves_readArgument moves_pure

mutual

theorem moves_expression (e : Expression) : Moves R (check e.tree) := by
  match e with
  | .literal l => exact moves_pure
  | .name x => exact moves_checkName
  | .element x index => exact moves_checkElement (moves_expression index)
  | .call f arguments =>
    exact moves_checkCall
      (fun routine => moves_expressions (moves_afterArgument routine) arguments)
      fun wanted => moves_zip _ _ _ wanted arguments
  | .length operand =>
    rw [Expression.tree, check_length]
    exact (moves_expression operand).seq moves_checkMeasured.ended
  | .negation sign operand =>
    exact (moves_expression operand).seq moves_checkUnary
  | .operation left op right =>
    exact (moves_expression left).seq <| (moves_expression right).seq <| moves_checkOperation

theorem moves_expressions {after : Tree → Value → Checking Unit} (h : ∀ t v, Moves R (after t v))
    (es : List Expression) : Moves R (checkAll after (Expression.trees es)) := by
  match es with
  | [] => exact moves_pure
  | e :: rest =>
    exact (moves_expression e).seq <| (h _ _).seq <| moves_expressions h rest

theorem moves_zip (what : String) (name : Tree) (index : Nat) (wanted : List Value)
    (es : List Expression) : Moves R (checkZip what name index wanted (Expression.trees es)) := by
  match es, wanted with
  | [], _ => exact moves_pure
  | _ :: _, [] => exact moves_pure
  | e :: rest, param :: params =>
    exact (moves_expression e).seq <| moves_checkArgument.seq <|
      moves_zip what name (index + 1) params rest

end

attribute [instance] moves_expression moves_zip

instance {after : Tree → Value → Checking Unit} [h : ∀ t v, Moves R (after t v)]
    {es : List Expression} : Moves R (checkAll after (Expression.trees es)) :=
  moves_expressions h es

end Values

/-! ## Following -/

section Follows

variable {v v' l l' r r' : Value} {index index' : Checking Value}

theorem Fits.cases (h : Fits v v') :
    v' = v ∨ (v = .named "REAL" ∧ v' = .named "INTEGER") ∨
      ∃ type ∈ literalTypes, v' = .named type := by
  cases h with
  | same => exact .inl rfl
  | @folded type type' mem =>
    rcases foldedTypes_cases mem with rfl | ⟨rfl, rfl⟩ | literal
    · exact .inl rfl
    · exact .inr (.inl ⟨rfl, rfl⟩)
    · exact .inr (.inr ⟨type', literal, rfl⟩)

theorem Fits.named {type : String} (h : Fits (.named type) v') :
    ∃ type' ∈ foldedTypes type, v' = .named type' := by
  generalize equal : Value.named type = v at h
  cases h with
  | same => exact ⟨type, mem_foldedTypes_self type, equal.symm⟩
  | @folded type₁ type' mem =>
    cases equal
    exact ⟨type', mem, rfl⟩

theorem Fits.mem {type type' : String} (h : Fits (.named type) (.named type')) :
    type' ∈ foldedTypes type := by
  obtain ⟨other, mem, equal⟩ := h.named
  cases equal
  exact mem

theorem follows_test {p : Value → Bool} {message : String → String}
    (real : p (.named "REAL") = false) (induced : ∀ type ∈ literalTypes, Induced (message type))
    (fits : Fits v v') :
    Trails
      (do
        if !p v then
          let type ← showing v
          report (message type))
      (do
        if !p v' then
          let type ← showing v'
          report (message type)) := by
  refine .unless fun holds => ?_
  rcases fits.cases with rfl | ⟨rfl, -⟩ | ⟨type, literal, rfl⟩
  · rw [holds]
    exact follows_pure trivial
  · rw [real] at holds
    cases holds
  · split
    · exact follows_showing (follows_report_end (induced type literal))
    · exact follows_pure trivial

instance {name : Tree} : Repeats (checkName name) := by
  refine ⟨follows_reading (reads_find? name) fun found => ?_⟩
  split <;> exact Repeats.follows

theorem follows_checkIndex (what : String) (h : Follows index index' Fits) :
    Trails (checkIndex what index) (checkIndex what index') :=
  h.bind fun _ _ fits =>
    follows_test rfl (fun _ literal => .index what literal) fits

theorem follows_checkElement (name : Tree) (h : Follows index index' Fits) :
    Follows (checkElement name index) (checkElement name index') Eq := by
  refine follows_reading (reads_find? name) fun found => ?_
  split
  · exact follows_failing
  · split
    · exact (follows_checkIndex _ h).bind fun _ _ _ =>
        follows_pure rfl
    · split
      · exact (follows_checkIndex _ h).bind fun _ _ _ =>
          follows_pure rfl
      · exact follows_failing

theorem follows_operation {op : String} {m' : Checking Value} {R : Value → Value → Prop}
    (h : ∀ left right type, l = .named left → r = .named right →
      (operatorTable op).lookup (left, right) = some type → Follows (pure (.named type)) m' R) :
    Follows (checkOperation (.str op) l r) m' R := by
  refine follows_taking fun found given => ?_
  split
  · obtain ⟨left, right, rfl, rfl, table⟩ := named_of_operationType given
    exact h left right _ rfl rfl table
  · exact follows_failing

theorem follows_checkOperation (op : String) (left : Fits l l') (right : Fits r r') :
    Follows (checkOperation (.str op) l r) (checkOperation (.str op) l' r') Fits := by
  refine follows_operation fun lt rt type named named' found => ?_
  subst named named'
  obtain ⟨lt', mem, rfl⟩ := left.named
  obtain ⟨rt', mem', rfl⟩ := right.named
  have table := operation_fits found mem mem'
  refine follows_knowing (u := (operatorTable op).lookup (lt', rt')) rfl ?_
  split
  · rename_i type' found'
    rw [found'] at table
    exact follows_pure (.folded table)
  · rename_i missing
    rw [missing] at table
    exact follows_showing <| follows_showing <| follows_knowing (u := op) rfl <|
      follows_report (.operands op table) (follows_pure (.folded (unknown_mem_foldedTypes type)))

theorem follows_unary {sign : String} {m' : Checking Value} {R : Value → Value → Prop}
    (h : ∀ operand type, v = .named operand →
      (unaryTable sign).lookup operand = some type → Follows (pure (.named type)) m' R) :
    Follows (checkUnary (.str sign) v) m' R := by
  refine follows_taking fun found given => ?_
  split
  · obtain ⟨operand, rfl, table⟩ := named_of_unaryType given
    exact h operand _ rfl table
  · exact follows_failing

theorem follows_checkUnary (sign : String) (fits : Fits v v') :
    Follows (checkUnary (.str sign) v) (checkUnary (.str sign) v') Fits := by
  refine follows_unary fun operand type named found => ?_
  subst named
  obtain ⟨operand', mem, rfl⟩ := fits.named
  have table := unary_fits found mem
  refine follows_knowing (u := (unaryTable sign).lookup operand') rfl ?_
  split
  · rename_i type' found'
    rw [found'] at table
    exact follows_pure (.folded table)
  · rename_i missing
    rw [missing] at table
    exact follows_showing <| follows_knowing (u := sign) rfl <|
      follows_report (.operand sign table) (follows_pure (.folded (unknown_mem_foldedTypes type)))

theorem reads_callee? (known : List Symbol) (name : Tree) :
    Reads (callee? known name) fun s => name.checkKey.map fun _ =>
      (s.find? name).or (known.find? fun s => Tree.same s.name name) := by
  have equal : callee? known name = (do
      ofExcept name.checkKey
      return ((← get).scope.find? name).or (known.find? fun s => Tree.same s.name name)) := by
    simp only [callee?, find?, bind_assoc, pure_bind]
    refine congrArg _ (funext fun _ => congrArg _ (funext fun a => ?_))
    cases a.scope.find? name <;> rfl
  rw [equal]
  exact reads_scope _ fun s => (s.find? name).or _

theorem follows_checkArgument (what f : String) (position : Nat) (param : Value)
    (fits : Fits v v') :
    Trails (checkArgument what (.str f) position param v)
      (checkArgument what (.str f) position param v') := by
  refine .same fun wanted => follows_taking fun fitting given => .unless fun fitting => ?_
  rw [fitting] at given
  rcases compatible_fits given fits with given' | ⟨given', ⟨name, rfl⟩, type, literal, rfl⟩
  · exact follows_knowing given' (follows_pure trivial)
  · exact follows_knowing given' <| follows_knowing (u := f) rfl <| follows_showing <|
      follows_showing <| follows_report_end (.argument position what f name literal)

instance {t : Tree} : Fails (refuseTarget t) := by
  unfold refuseTarget
  infer_instance

theorem follows_afterArgument (routine : String) {e e' : Expression} (h : e.Becomes e') :
    Trails (afterArgument routine e.tree v) (afterArgument routine e'.tree v') := by
  unfold afterArgument
  split
  · cases e with
    | name x =>
      obtain rfl : e' = .name x := h
      refine follows_reading (reads_find? _) fun found => ?_
      split <;> exact follows_self
    | element x index =>
      obtain ⟨index', -, rfl⟩ := h
      exact follows_pure trivial
    | _ => exact follows_failing (m := refuseTarget _)
  · exact follows_pure trivial

theorem length_of_allBecome {es es' : List Expression} (h : Expression.AllBecome es es') :
    (Expression.trees es').length = (Expression.trees es).length := by
  induction es generalizing es' with
  | nil =>
    obtain rfl : es' = [] := h
    rfl
  | cons e rest ih =>
    obtain ⟨e', rest', -, others, rfl⟩ := h
    exact congrArg (· + 1) (ih others)

theorem follows_checkArguments (title : String) (name : Tree) {trees trees' : List Tree}
    (wanted : List Value) {each each' : Checking Unit} (length : trees'.length = trees.length)
    (h : Trails each each') :
    Follows (checkArguments title name (.list trees) wanted each)
      (checkArguments title name (.list trees') wanted each') Eq := by
  have count : (Tree.list trees').length = (Tree.list trees).length := congrArg Except.ok length
  unfold checkArguments
  rw [count]
  refine follows_reading (reads_ofExcept _) fun count => ?_
  split
  · exact h.bind fun _ _ _ => follows_pure rfl
  · exact follows_failing

theorem follows_checkCall (f : String) {trees trees' : List Tree}
    {standard standard' : String → Checking Unit} {each each' : List Value → Checking Unit}
    (length : trees'.length = trees.length)
    (h : ∀ routine, Trails (standard routine) (standard' routine))
    (h' : ∀ wanted, Trails (each wanted) (each' wanted)) :
    Follows (checkCall (.str f) (.list trees) standard each)
      (checkCall (.str f) (.list trees') standard' each') Eq := by
  refine follows_reading (reads_callee? _ _) fun found => ?_
  split
  · exact follows_failing
  · split
    · refine follows_reading (reads_ofExcept _) fun small => ?_
      split
      · exact (h small).bind fun _ _ _ => follows_pure rfl
      · refine (follows_checkArguments _ _ _ length (h' _)).bind fun counted _ equal => ?_
        subst equal
        cases counted <;> exact follows_pure rfl
    · exact follows_failing

end Follows

/-! ## Reduced expressions -/

section Reduced

variable {a b r : Expression} {left right : Checking Value} {op : String}

theorem check_literal (l : Literal) :
    check (Expression.literal l).tree = pure (.named l.typeName) := rfl

theorem follows_reduces [Stays left] [Stays right] [Adds right] (h : Reduces a op b r)
    (first : Follows left (check a.tree) Fits) (second : Follows right (check b.tree) Fits) :
    Follows (do
      let l ← left
      let r ← right
      checkOperation (.str op) l r) (check r.tree) Fits := by
  -- What becomes a number whatever the operands are.
  have counted (counts : (operatorTable op).countable = true) : Follows (do
      let l ← left
      let r ← right
      checkOperation (.str op) l r) (pure (.named "NUMBER")) Fits :=
    .skip fun l => .skip fun r =>
      follows_operation fun _ _ _ _ _ found =>
        follows_pure (.folded (number_mem_of_countable counts found))
  cases h with
  | kept =>
    exact first.bind fun l _ fits => second.bind fun r _ fits' =>
      follows_checkOperation op fits fits'
  | computed computes =>
    refine first.known fun x fits => second.known fun y fits' => ?_
    refine follows_operation fun lt rt type named named' found => ?_
    subst named named'
    exact follows_pure (.folded (computed_fits found fits.mem fits'.mem computes))
  | left neutral =>
    rw [← bind_pure (check _)]
    refine first.bind fun x x' fits => second.known fun y fits' => ?_
    refine follows_operation fun lt rt type named named' found => ?_
    subst named named'
    obtain ⟨lt', mem, rfl⟩ := fits.named
    exact follows_pure (.folded (left_fits found mem fits'.mem neutral))
  | right neutral =>
    rw [← bind_pure (check _)]
    refine first.known fun x fits => second.bind fun y y' fits' => ?_
    refine follows_operation fun lt rt type named named' found => ?_
    subst named named'
    obtain ⟨rt', mem, rfl⟩ := fits'.named
    exact follows_pure (.folded (right_fits found fits.mem mem neutral))
  | cancelled _ => exact counted (by decide +kernel)
  | vanished _ => exact counted (by decide +kernel)
  | divided _ => exact counted (by decide +kernel)
  | refuted _ | granted _ =>
    exact .skip fun l => .skip fun r =>
      follows_operation fun _ _ _ _ _ found => by cases found

theorem follows_negates [Stays left] {sign : String} (h : Negates sign a r)
    (first : Follows left (check a.tree) Fits) :
    Follows (do
      let v ← left
      checkUnary (.str sign) v) (check r.tree) Fits := by
  cases h with
  | kept => exact first.bind fun v _ fits => follows_checkUnary sign fits
  | verdict _ | twice =>
    exact .skip fun v => follows_unary fun _ _ _ found => by cases found
  | number number number' =>
    refine .skip fun v => follows_unary fun operand type _ found => ?_
    rw [check_literal, number']
    refine follows_pure (.folded ?_)
    have entry := mem_of_lookup found
    simp only [unaryTable, List.mem_cons, Prod.mk.injEq, List.not_mem_nil, or_false] at entry
    rcases entry with ⟨-, rfl⟩ | ⟨-, rfl⟩ | ⟨-, rfl⟩ <;> decide

theorem number_fits_integer : "NUMBER" ∈ foldedTypes "INTEGER" := by decide

theorem follows_measures [Stays left] (h : Measures a r)
    (first : Follows left (check a.tree) Fits) :
    Follows (do
      let v ← left
      checkMeasured v
      return .named "INTEGER") (check r.tree) Fits := by
  cases h with
  | kept =>
    rw [Expression.tree, check_length]
    exact first.bind fun v _ fits => (follows_test rfl (fun _ => .measured) fits).bind fun _ _ _ =>
      follows_pure (.same _)
  | phrase unquoted =>
    exact .skip fun v => .skip fun _ => follows_pure (.folded number_fits_integer)

end Reduced

mutual

theorem follows_expression (e : Expression) {e' : Expression} (h : e.Becomes e') :
    Follows (check e.tree) (check e'.tree) Fits := by
  match e with
  | .literal l =>
    obtain rfl : e' = .literal l := h
    exact follows_pure (.same _)
  | .name x =>
    obtain rfl : e' = .name x := h
    exact (Repeats.follows (m := checkName _)).imp fun _ _ equal => equal ▸ .same _
  | .element x index =>
    obtain ⟨index', becomes, rfl⟩ := h
    exact (follows_checkElement _ (follows_expression index becomes)).imp
      fun _ _ equal => equal ▸ .same _
  | .call f arguments =>
    obtain ⟨arguments', become, rfl⟩ := h
    exact (follows_call f arguments become).imp fun _ _ equal => equal ▸ .same _
  | .length operand =>
    obtain ⟨operand', becomes, measures⟩ := h
    rw [Expression.tree, check_length]
    exact follows_measures measures (follows_expression operand becomes)
  | .negation sign operand =>
    obtain ⟨operand', becomes, negates⟩ := h
    exact follows_negates negates (follows_expression operand becomes)
  | .operation left op right =>
    obtain ⟨left', right', becomes, becomes', reduces⟩ := h
    exact follows_reduces reduces (follows_expression left becomes)
      (follows_expression right becomes')

theorem follows_call (f : String) (arguments : List Expression) {arguments' : List Expression}
    (h : Expression.AllBecome arguments arguments') :
    Follows (check (Expression.call f arguments).tree) (check (Expression.call f arguments').tree)
      Eq := by
  refine follows_checkCall f (length_of_allBecome h) (fun routine => ?_) fun wanted => ?_
  · exact follows_expressions (fun becomes _ _ => follows_afterArgument routine becomes) arguments h
  · exact follows_zip "procedure" f 1 wanted arguments h

theorem follows_expressions {after : Tree → Value → Checking Unit}
    (each : ∀ {e e' : Expression}, e.Becomes e' → ∀ v v',
      Trails (after e.tree v) (after e'.tree v'))
    [∀ t v, Adds (after t v)] (es : List Expression) {es' : List Expression}
    (h : Expression.AllBecome es es') :
    Trails (checkAll after (Expression.trees es)) (checkAll after (Expression.trees es')) := by
  match es with
  | [] =>
    obtain rfl : es' = [] := h
    exact follows_pure trivial
  | e :: rest =>
    obtain ⟨e', rest', becomes, others, rfl⟩ := h
    exact (follows_expression e becomes).bind fun v v' _ => (each becomes v v').bind fun _ _ _ =>
      follows_expressions each rest others

theorem follows_zip (what f : String) (position : Nat) (wanted : List Value)
    (es : List Expression) {es' : List Expression} (h : Expression.AllBecome es es') :
    Trails (checkZip what (.str f) position wanted (Expression.trees es))
      (checkZip what (.str f) position wanted (Expression.trees es')) := by
  match es, wanted with
  | [], _ =>
    obtain rfl : es' = [] := h
    exact follows_pure trivial
  | _ :: _, [] =>
    obtain ⟨e', rest', -, -, rfl⟩ := h
    exact follows_pure trivial
  | e :: rest, param :: params =>
    obtain ⟨e', rest', becomes, others, rfl⟩ := h
    exact (follows_expression e becomes).bind fun v v' fits =>
      (follows_checkArgument what f position param fits).bind fun _ _ _ =>
        follows_zip what f (position + 1) params rest others

end

instance {operator : Tree} {l r : Value} : Repeats (checkOperation operator l r) := by
  refine ⟨follows_reading (reads_ofExcept _) fun found => ?_⟩
  split <;> exact Repeats.follows

instance {operator : Tree} {v : Value} : Repeats (checkUnary operator v) := by
  refine ⟨follows_reading (reads_ofExcept _) fun found => ?_⟩
  split <;> exact Repeats.follows

instance {v : Value} : Repeats (checkMeasured v) := by
  unfold checkMeasured
  infer_instance

mutual

theorem becomes_refl (e : Expression) : e.Becomes e := by
  match e with
  | .literal _ | .name _ => rfl
  | .element x index => exact ⟨index, becomes_refl index, rfl⟩
  | .call f arguments => exact ⟨arguments, allBecome_refl arguments, rfl⟩
  | .length operand => exact ⟨operand, becomes_refl operand, .kept operand⟩
  | .negation sign operand => exact ⟨operand, becomes_refl operand, .kept sign operand⟩
  | .operation left op right =>
    exact ⟨left, right, becomes_refl left, becomes_refl right, .kept left op right⟩

theorem allBecome_refl (es : List Expression) : Expression.AllBecome es es := by
  match es with
  | [] => rfl
  | e :: rest => exact ⟨e, rest, becomes_refl e, allBecome_refl rest, rfl⟩

end

instance repeats_expression (e : Expression) : Repeats (check e.tree) := by
  match e with
  | .literal l => exact inferInstanceAs (Repeats (pure _))
  | .name x => exact inferInstanceAs (Repeats (checkName _))
  | .element x index =>
    exact ⟨follows_checkElement _ (follows_expression index (becomes_refl index))⟩
  | .call f arguments => exact ⟨follows_call f arguments (allBecome_refl arguments)⟩
  | .length operand =>
    have := repeats_expression operand
    rw [Expression.tree, check_length]
    infer_instance
  | .negation sign operand =>
    have := repeats_expression operand
    exact inferInstanceAs (Repeats (check operand.tree >>= checkUnary _))
  | .operation left op right =>
    have := repeats_expression left
    have := repeats_expression right
    exact inferInstanceAs (Repeats (do
      let l ← check left.tree
      let r ← check right.tree
      checkOperation _ l r))

end PascalStack.Analysis
