import PascalStack.Proofs.Analysis.Expressions

/-!
# Checks of statements

Where a statement is checked without an error, so is what it becomes, but for errors that
simplification brings about. Parts that simplification takes away are checked by the first analyzer
alone; they leave what it knows of names as it is.
-/

namespace PascalStack.Analysis

open Checking Syntax

section Moves

variable {R : Analyzer → Analyzer → Prop} [Admits R]

instance moves_calledType? {value : Tree} : Moves R (calledType? value) := by
  unfold calledType?
  split
  · refine moves_find?.bind fun found => ?_
    split
    · split <;> exact moves_pure
    · exact moves_pure
  · exact moves_pure

instance moves_checkCondition {what : String} {v : Value} : Moves R (checkCondition what v) :=
  moves_refusal v (.condition what) rfl

instance moves_checkLimit {v : Value} : Moves R (checkLimit v) := moves_refusal v .limit rfl

instance moves_checkControl {t : Tree} : Moves R (checkControl t) := by
  unfold checkControl
  split
  · refine moves_find?.bind fun found => ?_
    split
    · exact moves_refusal _ .control rfl
    · exact moves_pure
  · exact moves_pure

theorem moves_whenPresent {t : Tree} {c : Checking Unit} (h : Moves R c) :
    Moves R (whenPresent t c) :=
  .ite h moves_pure

instance {t : Tree} {c : Checking Unit} [h : Moves R c] : Moves R (whenPresent t c) :=
  moves_whenPresent h

instance moves_nothing {t : Tree} {v : Value} : Moves R (andNothing t v) := moves_pure

end Moves

section Values

variable {R : Analyzer → Analyzer → Prop} [AdmitsValues R]

def giveTo (target : Symbol) (type : Value) : Checking Unit := do
  if ← ofExcept (compatible target.type type) then assign target
  else
    let type ← showing type
    let wanted ← showing target.type
    report s!"Type mismatch in assignment: cannot assign {type} to {wanted}"

instance moves_giveTo {target : Symbol} {type : Value} : Moves R (giveTo target type) :=
  moves_ofExcept.seq <| .ite moves_assign
    (moves_showing.seq <| moves_showing.seq <| moves_report .assignment [_, _] rfl)

def giveFound (target : Symbol) (value : Tree) (found : Value) : Checking Unit :=
  if found.isAbsent then do
    let called ← calledType? value
    let type ← pure (called.getD found)
    giveTo target type
  else do
    let type ← pure found
    giveTo target type

instance moves_giveFound {target : Symbol} {value : Tree} {found : Value} :
    Moves R (giveFound target value found) :=
  .ite (moves_calledType?.seq <| moves_pure.seq moves_giveTo)
    (moves_pure.seq moves_giveTo)

theorem moves_assignVariable {name value : Tree} {value' : Checking Value} (h : Moves R value') :
    Moves R (assignVariable name value value') := by
  refine moves_find?.bind fun found => ?_
  split
  · exact moves_textOf.seq <| moves_report .noVariable [_] rfl
  · exact .ite (moves_textOf.seq <| moves_report .constant [_] rfl)
      (h.seq moves_giveFound)

theorem moves_checkTarget {target : Tree} {element : Checking Value} (h : Moves R element) :
    Moves R (checkTarget target element) := by
  unfold checkTarget
  split
  · refine moves_find?.bind fun found => ?_
    split
    · exact moves_textOf.seq <| moves_report .noVariable [_] rfl
    · exact .ite moves_assign (moves_showing.seq <| moves_report .readVariable [_] rfl)
  · exact h.bind fun v => moves_refusal v .readElement rfl
  · exact moves_refuseTarget

instance moves_variable (v : Variable) : Moves R (check v.tree) := by
  cases v with
  | name x => exact moves_checkName
  | element x index => exact moves_checkElement (moves_expression index)

instance {target : Tree} {element : Checking Value} [h : Moves R element] :
    Moves R (checkTarget target element) := moves_checkTarget h

instance moves_targets (vs : List Variable) :
    Moves R (checkEachTarget (vs.map Variable.tree)) := by
  induction vs with
  | nil => exact moves_pure
  | cons v rest ih => exact (moves_checkTarget (moves_variable v)).seq ih

instance moves_assignment (a : Assignment) : Moves R (check a.tree) := by
  obtain ⟨target, value⟩ := a
  cases target with
  | name x =>
    exact (moves_assignVariable (moves_expression value)).ended
  | element x index => exact moves_warn

end Values

section Statements

variable {R : Analyzer → Analyzer → Prop} [AdmitsJumps R]

instance moves_checkJump {what : String} : Moves R (checkJump what) :=
  moves_get.seq <| .ite moves_complain moves_pure

mutual

theorem moves_statement (s : Statement) : Moves R (check s.tree) := by
  match s with
  | .empty => exact moves_warn
  | .absent => exact moves_pure
  | .compound items => exact (moves_statements items).ended
  | .assign a => exact moves_assignment a
  | .conditional condition yes no =>
    exact (moves_expression condition).seq <| moves_checkCondition.seq <|
      (moves_statement yes).discard.seq <| (moves_whenPresent (moves_statement no).discard).ended
  | .whileDo condition body =>
    exact (moves_expression condition).seq <| moves_checkCondition.seq <|
      (moves_statement body).discard.inLoop.ended
  | .repeatUntil body condition =>
    exact ((moves_statement body).discard.seq <| (moves_expression condition).seq <|
      moves_checkCondition).inLoop.ended
  | .forDo start direction limit body =>
    exact (moves_assignment start).discard.seq <| moves_checkControl.seq <|
      (moves_expression limit).seq <| moves_checkLimit.seq <|
      (moves_statement body).discard.inLoop.ended
  | .call f arguments => exact moves_expression (.call f arguments)
  | .mention x => exact moves_checkName
  | .writeln arguments =>
    exact (moves_whenPresent (moves_expressions (fun _ _ => moves_pure) arguments)).ended
  | .readln targets =>
    exact (moves_whenPresent (moves_targets targets)).ended
  | .breakLoop => exact moves_checkJump.ended
  | .continueLoop => exact moves_checkJump.ended

theorem moves_statements (items : List Statement) :
    Moves R (checkAll andNothing (Statement.trees items)) := by
  match items with
  | [] => exact moves_pure
  | s :: rest =>
    exact (moves_statement s).seq <| moves_pure.seq <| moves_statements rest

end

attribute [instance] moves_statement moves_statements

end Statements

/-! ## Assignments -/

section Assignments

variable {v v' : Value}

theorem follows_giveTo (target : Symbol) (fits : Fits v v') :
    Trails (giveTo target v) (giveTo target v') := by
  refine follows_taking fun fitting given => ?_
  split
  · rename_i fitting
    rw [fitting] at given
    rcases compatible_fits given fits with given' | ⟨given', ⟨name, named⟩, type, literal, rfl⟩
    · exact follows_knowing given' follows_self
    · refine follows_knowing given' (follows_showing ?_)
      rw [named]
      refine follows_showing ?_
      rw [← bind_pure (report _)]
      exact follows_report (.assigned name literal) (follows_assign_pure target)
  · exact follows_failing

def Returns {α : Type} (m : Checking α) (P : α → Prop) : Prop :=
  ∀ a v a', m.run a = .ok v a' → P v

theorem Returns.bind {α β : Type} {m : Checking α} {f : α → Checking β} {P : β → Prop}
    (h : ∀ v, Returns (f v) P) : Returns (m >>= f) P := by
  intro a u a' run
  obtain ⟨v, a₁, -, run⟩ := run_bind_ok run
  exact h v a₁ u a' run

theorem returns_pure {α : Type} {v : α} {P : α → Prop} (h : P v) :
    Returns (pure v : Checking α) P := by
  intro a u a' run
  cases run
  exact h

theorem returns_checkOperation (operator : Tree) (l r : Value) :
    Returns (checkOperation operator l r) (·.isAbsent = false) := by
  refine .bind fun found => ?_
  split
  · exact returns_pure rfl
  · exact .bind fun _ => .bind fun _ => .bind fun _ => .bind fun _ => returns_pure rfl

theorem returns_checkUnary (operator : Tree) (v : Value) :
    Returns (checkUnary operator v) (·.isAbsent = false) := by
  refine .bind fun found => ?_
  split
  · exact returns_pure rfl
  · exact .bind fun _ => .bind fun _ => .bind fun _ => returns_pure rfl

theorem called_of_absent {e e' : Expression} (h : e.Becomes e') :
    Returns (check e.tree) (·.isAbsent = false) ∨ calledType? e'.tree = calledType? e.tree := by
  cases e with
  | literal l =>
    obtain rfl : e' = .literal l := h
    exact .inr rfl
  | name x =>
    obtain rfl : e' = .name x := h
    exact .inr rfl
  | element x index =>
    obtain ⟨index', -, rfl⟩ := h
    exact .inr rfl
  | call f arguments =>
    obtain ⟨arguments', -, rfl⟩ := h
    exact .inr rfl
  | length operand =>
    left
    rw [Expression.tree, check_length]
    exact .bind fun _ => .bind fun _ => returns_pure rfl
  | negation sign operand => exact .inl (.bind fun _ => returns_checkUnary _ _)
  | operation left op right =>
    exact .inl (.bind fun _ => .bind fun _ => returns_checkOperation _ _ _)

instance {t : Tree} : Repeats (calledType? t) := by
  unfold calledType?
  split
  · refine ⟨follows_reading (reads_find? _) fun found => ?_⟩
    split
    · split <;> exact Repeats.follows
    · exact Repeats.follows
  · infer_instance

theorem follows_giveFound (target : Symbol) {t t' : Tree} (fits : Fits v v')
    (called : v.isAbsent = true → calledType? t' = calledType? t) :
    Trails (giveFound target t v) (giveFound target t' v') := by
  cases absent : v.isAbsent with
  | true =>
    obtain rfl : v' = v := by
      cases fits with
      | same => rfl
      | folded => cases absent
    simp only [giveFound, absent, if_true, called absent]
    exact .same fun type => follows_giveTo target (.same _)
  | false =>
    have present : v'.isAbsent = false := by
      rcases fits.cases with rfl | ⟨-, rfl⟩ | ⟨type, -, rfl⟩
      · exact absent
      · rfl
      · rfl
    simp only [giveFound, absent, present, Bool.false_eq_true, if_false]
    exact follows_giveTo target fits

theorem follows_assignVariable (x : String) {value value' : Expression}
    (h : value.Becomes value') :
    Trails (assignVariable (.str x) value.tree (check value.tree))
      (assignVariable (.str x) value'.tree (check value'.tree)) := by
  have followed : Follows (check value.tree) (check value'.tree) fun v v' => Fits v v' ∧
      (v.isAbsent = true → calledType? value'.tree = calledType? value.tree) := by
    rcases called_of_absent h with present | called
    · refine ((follows_expression value h).returning present).imp fun v v' ⟨fits, present⟩ => ?_
      exact ⟨fits, fun absent => by rw [present] at absent; cases absent⟩
    · exact (follows_expression value h).imp fun v v' fits => ⟨fits, fun _ => called⟩
  refine follows_reading (reads_find? _) fun found => ?_
  split
  · exact follows_failing
  · split
    · exact follows_failing
    · exact followed.bind (f := giveFound _ _) fun v v' ⟨fits, called⟩ =>
        follows_giveFound _ fits called

theorem follows_warn (t t' : Tree) : Trails (warn t) (warn t') :=
  (follows_line _ _).done

theorem follows_assignment {a a' : Assignment} (h : a.Becomes a') :
    Trails (check a.tree) (check a'.tree) := by
  obtain ⟨target, value⟩ := a
  obtain ⟨target', value'⟩ := a'
  obtain ⟨same, becomes⟩ := h
  cases target with
  | name x =>
    obtain rfl : target' = .name x := same
    exact (follows_assignVariable x becomes).done
  | element x index =>
    obtain ⟨index', -, rfl⟩ := same
    exact follows_warn _ _

end Assignments

section Tests

variable {v v' : Value}

theorem follows_checkCondition (what : String) (fits : Fits v v') :
    Trails (checkCondition what v) (checkCondition what v') :=
  follows_test rfl (fun _ => .condition what) fits

theorem follows_checkLimit (fits : Fits v v') : Trails (checkLimit v) (checkLimit v') :=
  follows_test rfl (fun _ => .limit) fits

theorem follows_checkJump (what : String) : Trails (checkJump what) (checkJump what) := by
  have opened (c : Analyzer) : (checkJump what).run c =
      EStateM.run (if c.loopLevel == 0 then report s!"{what} statement must be inside a loop"
        else pure ()) c := rfl
  intro a b related v a' run clean
  rw [opened] at run
  rw [opened]
  split at run
  · exact absurd clean (Fails.errors_ne run)
  · split
    · exact follows_report_end (.jump what) a b related v a' run clean
    · exact follows_pure (R := fun _ _ => True) trivial a b related v a' run clean

theorem follows_checkControl {start start' : Assignment} (h : start.Becomes start') :
    Trails (checkControl start.tree) (checkControl start'.tree) := by
  obtain ⟨target, value⟩ := start
  obtain ⟨target', value'⟩ := start'
  obtain ⟨same, -⟩ := h
  cases target with
  | name x =>
    obtain rfl : target' = .name x := same
    refine follows_reading (reads_find? _) fun found => ?_
    split <;> exact follows_self
  | element x index =>
    obtain ⟨index', -, rfl⟩ := same
    exact follows_pure trivial

theorem follows_checkTarget {x x' : Variable} (h : x.Becomes x') :
    Trails (checkTarget x.tree (check x.tree)) (checkTarget x'.tree (check x'.tree)) := by
  cases x with
  | name x =>
    obtain rfl : x' = .name x := h
    refine follows_reading (reads_find? _) fun found => ?_
    split
    · exact follows_failing
    · exact follows_self
  | element x index =>
    obtain ⟨index', becomes, rfl⟩ := h
    refine (follows_checkElement _ (follows_expression index becomes)).bind fun v _ equal => ?_
    exact equal ▸ follows_self

theorem follows_targets {xs xs' : List Variable} (h : List.Forall₂ Variable.Becomes xs xs') :
    Trails (checkEachTarget (xs.map Variable.tree)) (checkEachTarget (xs'.map Variable.tree)) := by
  induction h with
  | nil => exact follows_pure trivial
  | @cons x x' rest rest' becomes others ih =>
    exact (follows_checkTarget becomes).bind fun _ _ _ => ih

end Tests

/-! ## Statements -/

theorem isPresent_of_becomes {s s' : Statement} (h : s.Becomes s')
    (missing : s.isPresent = false) : s'.isPresent = false := by
  cases s with
  | empty =>
    obtain rfl : s' = .empty := h
    rfl
  | absent =>
    obtain rfl : s' = .absent := h
    rfl
  | _ => cases missing

theorem follows_whenPresent {ts ts' : List Tree} {c c' : Checking Unit}
    (length : ts'.length = ts.length) (h : Trails c c') :
    Trails (whenPresent (.list ts) c) (whenPresent (.list ts') c') := by
  cases ts with
  | nil =>
    rw [List.eq_nil_of_length_eq_zero length]
    exact follows_pure trivial
  | cons t rest =>
    cases ts' with
    | nil => cases length
    | cons t' rest' => exact h

theorem follows_branch {s s' : Statement} (becomes : s.Becomes s')
    (h : Trails (check s.tree) (check s'.tree)) :
    Trails (whenPresent s.tree (discard (check s.tree)))
      (whenPresent s'.tree (discard (check s'.tree))) := by
  unfold whenPresent
  rw [truthy_tree, truthy_tree]
  cases there : s.isPresent with
  | false =>
    rw [isPresent_of_becomes becomes there]
    exact follows_pure trivial
  | true =>
    rw [if_pos rfl]
    split
    · exact h.discard
    · exact follows_nothing

def Followed (s : Statement) : Prop :=
  ∀ s', s.Becomes s' → Follows (check s.tree) (check s'.tree) fun _ _ => True

section Loops

variable {condition limit : Expression} {yes no body : Statement}

theorem followed_conditional (first : Followed yes) (second : Followed no) :
    Followed (.conditional condition yes no) := by
  rintro s' ⟨condition', becomes, rest⟩
  -- A condition that is decided is checked by the first analyzer alone.
  have decided {m' : Checking Value} (h : Trails (do
        discard (check yes.tree)
        whenPresent no.tree (discard (check no.tree))
        return Value.absent) m') :
      Trails (check (Statement.conditional condition yes no).tree) m' :=
    .skip fun v => .skip fun _ => h
  split at rest
  · exact decided (first s' rest).ignoring.leaving
  · split at rest
    · split at rest
      · rename_i there
        refine decided (.skip fun _ => ?_)
        rw [whenPresent, truthy_tree, there, if_pos rfl]
        exact (second s' rest).ignoring.leaving
      · subst rest
        exact follows_nothing
    · obtain ⟨yes', no', inner, inner', rfl⟩ := rest
      exact (follows_expression condition becomes).bind fun v v' fits =>
        (follows_checkCondition _ fits).bind fun _ _ _ =>
        (first yes' inner).discard.bind fun _ _ _ =>
        (follows_branch inner' (second no' inner')).done

theorem followed_whileDo (inside : Followed body) :
    Followed (.whileDo condition body) := by
  rintro s' ⟨condition', becomes, rest⟩
  split at rest
  · subst rest
    exact follows_nothing
  · obtain ⟨body', inner, rfl⟩ := rest
    exact (follows_expression condition becomes).bind fun v v' fits =>
      (follows_checkCondition _ fits).bind fun _ _ _ =>
      (follows_inLoop (inside body' inner).discard).done

theorem followed_repeatUntil (inside : Followed body) :
    Followed (.repeatUntil body condition) := by
  rintro s' ⟨body', condition', inner, becomes, rfl⟩
  have followed := inside body' inner
  split
  · exact (follows_lifted followed.ignoring.leaving).leaving
  · exact (follows_inLoop (followed.discard.bind fun _ _ _ =>
      (follows_expression condition becomes).bind fun v v' fits =>
      follows_checkCondition _ fits)).done

theorem followed_forDo (start : Assignment) (direction : String)
    (inside : Followed body) :
    Followed (.forDo start direction limit body) := by
  rintro s' ⟨start', limit', body', begins, becomes, inner, rfl⟩
  exact (follows_assignment begins).discard.bind fun _ _ _ =>
    (follows_checkControl begins).bind fun _ _ _ =>
    (follows_expression limit becomes).bind fun v v' fits =>
    (follows_checkLimit fits).bind fun _ _ _ =>
    (follows_inLoop (inside body' inner).discard).done

end Loops

mutual

theorem follows_statement (s : Statement) : Followed s := by
  intro s' h
  match s with
  | .empty =>
    obtain rfl : s' = .empty := h
    exact follows_warn _ _
  | .absent =>
    obtain rfl : s' = .absent := h
    exact follows_pure trivial
  | .compound items =>
    obtain ⟨items', become, rfl⟩ := h
    exact (follows_statements items become).done
  | .assign a =>
    obtain ⟨a', becomes, rfl⟩ := h
    exact follows_assignment becomes
  | .conditional condition yes no =>
    exact followed_conditional (follows_statement yes) (follows_statement no) s' h
  | .whileDo condition body => exact followed_whileDo (follows_statement body) s' h
  | .repeatUntil body condition => exact followed_repeatUntil (follows_statement body) s' h
  | .forDo start direction limit body =>
    exact followed_forDo start direction (follows_statement body) s' h
  | .call f arguments =>
    obtain ⟨arguments', become, rfl⟩ := h
    exact (follows_call f arguments become).imp fun _ _ _ => trivial
  | .mention x =>
    obtain rfl : s' = .mention x := h
    exact follows_self (m := checkName _)
  | .writeln arguments =>
    obtain ⟨arguments', become, rfl⟩ := h
    refine (follows_whenPresent (length_of_allBecome become) ?_).done
    exact follows_expressions (fun _ _ _ => follows_pure trivial) arguments become
  | .readln targets =>
    obtain ⟨targets', become, rfl⟩ := h
    have length : (targets'.map Variable.tree).length = (targets.map Variable.tree).length := by
      rw [List.length_map, List.length_map, become.length_eq]
    exact (follows_whenPresent length (follows_targets become)).done
  | .breakLoop =>
    obtain rfl : s' = .breakLoop := h
    exact (follows_checkJump _).done
  | .continueLoop =>
    obtain rfl : s' = .continueLoop := h
    exact (follows_checkJump _).done

theorem follows_statements (items : List Statement) {items' : List Statement}
    (h : Statement.AllBecome items items') :
    Trails (checkAll andNothing (Statement.trees items))
      (checkAll andNothing (Statement.trees (items'.filter Statement.isPresent))) := by
  match items with
  | [] =>
    obtain rfl : items' = [] := h
    exact follows_pure trivial
  | s :: rest =>
    obtain ⟨s', rest', becomes, others, rfl⟩ := h
    have next := follows_statements rest others
    rw [List.filter_cons]
    split
    · exact (follows_statement s s' becomes).bind fun _ _ _ => next
    · exact .skip fun _ => next

end

end PascalStack.Analysis
