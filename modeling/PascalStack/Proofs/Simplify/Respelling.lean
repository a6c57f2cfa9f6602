import PascalStack.Proofs.Syntax.Respelling
import PascalStack.Proofs.Syntax.Simplified
import PascalStack.Proofs.Tree.Spelling

/-!
# Simplification of programs with other spellings

A respelling that is not noticed commutes with simplification: what a program and the respelt
program are simplified to differ by the respelling again, and both simplifications stop with the
same fault or neither stops.
-/

namespace PascalStack.Simplify

open Syntax

variable {ρ : Respelling}

def Respelt {α : Type} (tree : α → Tree) (respell : α → α) (t t' : Tree) : Prop :=
  ∃ a, tree a = t ∧ tree (respell a) = t'

def RespeltAll {α : Type} (trees : List α → List Tree) (respellAll : List α → List α)
    (ts ts' : List Tree) : Prop :=
  ∃ as, trees as = ts ∧ trees (respellAll as) = ts'

abbrev RespeltExpression (ρ : Respelling) : Tree → Tree → Prop :=
  Respelt Expression.tree (Expression.respell ρ)

theorem isLiteral_respell (type : String) (value : Tree) (e : Expression) :
    isLiteral type value (e.respell ρ).tree = isLiteral type value e.tree := by
  cases e <;> rfl

theorem sameOperand_respell (kept : ∀ x, ρ.name x = x) (a b : Expression) :
    sameOperand (a.respell ρ).tree (b.respell ρ).tree = sameOperand a.tree b.tree := by
  cases a with
  | literal l => cases b <;> rfl
  | name x =>
    cases b with
    | name y => simp only [Expression.respell, Expression.tree, kept]
    | _ => rfl
  | _ => rfl

section Respelt

variable {α β : Type} {tree : α → Tree} {respell : α → α} {W : β → β → Prop}

theorem Respelt.ite {b : Bool} {t t' u u' : Tree} (yes : Respelt tree respell t t')
    (no : Respelt tree respell u u') :
    Respelt tree respell (if b then t else u) (if b then t' else u') := by
  cases b with
  | true => exact yes
  | false => exact no

theorem Respelt.bind {m m' : Printing Tree} {k k' : Tree → Printing β}
    (first : PrintsAlike (Respelt tree respell) m m')
    (second : ∀ a, PrintsAlike W (k (tree a)) (k' (tree (respell a)))) :
    PrintsAlike W (m >>= k) (m' >>= k') := by
  refine Alike.bind first ?_
  rintro _ _ ⟨a, rfl, rfl⟩
  exact second a

end Respelt

theorem absorb_respell (kept : ∀ x, ρ.name x = x) {op : String} (same : ρ.operator op = op)
    (a b : Expression) :
    RespeltExpression ρ (absorb a.tree op b.tree)
      (absorb (a.respell ρ).tree op (b.respell ρ).tree) := by
  have whole : RespeltExpression ρ (.binaryOp a.tree (.str op) b.tree)
      (.binaryOp (a.respell ρ).tree (.str op) (b.respell ρ).tree) :=
    ⟨.operation a op b, rfl, by rw [Expression.respell, same]; rfl⟩
  have left : RespeltExpression ρ a.tree (a.respell ρ).tree := ⟨a, rfl, rfl⟩
  have right : RespeltExpression ρ b.tree (b.respell ρ).tree := ⟨b, rfl, rfl⟩
  have zero : RespeltExpression ρ (numberLiteral (.int 0)) (numberLiteral (.int 0)) :=
    ⟨.numeral 0, rfl, rfl⟩
  have verdict (c : Bool) : RespeltExpression ρ (boolLiteral c) (boolLiteral c) :=
    ⟨.verdict c, rfl, rfl⟩
  unfold absorb
  simp only [isZero, isOne, isTruth, isLiteral_respell, sameOperand_respell kept]
  split
  · exact .ite left (.ite right whole)
  · exact .ite left (.ite zero whole)
  · exact .ite left (.ite right (.ite zero whole))
  · exact .ite left (.ite zero whole)
  · exact .ite (verdict _) (.ite (verdict _) (.ite left (.ite right whole)))
  · exact .ite (verdict _) (.ite (verdict _) (.ite left (.ite right whole)))
  · exact whole

theorem foldLiterals_unknown {op : String} (unknown : op ∉ knownOperators) (whole a b : Tree) :
    foldLiterals whole op a b = .ok none := by
  unfold foldLiterals
  split
  · rw [foldNumbers_unknown unknown, foldBools_unknown unknown, foldPhrases_unknown unknown,
      ite_self, ite_self, ite_self]
  · rfl

theorem foldBinary_unknown {op : String} (unknown : op ∉ knownOperators) (a b : Tree) :
    foldBinary a (.str op) b = .ok (.binaryOp a (.str op) b) := by
  simp only [foldBinary, foldLiterals_unknown unknown, absorb_unknown unknown]
  rfl

theorem foldBinary_absorb {a b : Expression} (op : String)
    (other : ∀ l r, ¬ (a = .literal l ∧ b = .literal r)) :
    foldBinary a.tree (.str op) b.tree = .ok (absorb a.tree op b.tree) := by
  have none : foldLiterals (.binaryOp a.tree (.str op) b.tree) op a.tree b.tree = .ok none := by
    cases a with
    | literal l =>
      cases b with
      | literal r => exact absurd ⟨rfl, rfl⟩ (other l r)
      | _ => rfl
    | _ => rfl
  simp only [foldBinary, none]
  rfl

theorem respelt_of_literals {l r : Literal} {op : String} (same : ρ.operator op = op) {t : Tree}
    (h : foldBinary l.tree (.str op) r.tree = .ok t) : RespeltExpression ρ t t := by
  obtain ⟨e, rfl, reduces⟩ := reduces_of_foldBinary (a := .literal l) (b := .literal r) h
  refine ⟨e, rfl, ?_⟩
  cases reduces with
  | kept => rw [Expression.respell, same]; rfl
  | _ => rfl

theorem foldBinary_respell (h : ρ.Unnoticed) (a : Expression) (op : String) (b : Expression) :
    SameEnd Eq (RespeltExpression ρ) (foldBinary a.tree (.str op) b.tree)
      (foldBinary (a.respell ρ).tree (.str (ρ.operator op)) (b.respell ρ).tree) := by
  rcases h.operator op with same | ⟨unknown, unknown'⟩
  · rw [same]
    by_cases literals : ∃ l r, a = .literal l ∧ b = .literal r
    · obtain ⟨l, r, rfl, rfl⟩ := literals
      change SameEnd Eq _ (foldBinary l.tree (.str op) r.tree) (foldBinary l.tree (.str op) r.tree)
      cases folded : foldBinary l.tree (.str op) r.tree with
      | error f => exact rfl
      | ok t => exact respelt_of_literals same folded
    · have other : ∀ l r, ¬ (a = .literal l ∧ b = .literal r) :=
        fun l r both => literals ⟨l, r, both⟩
      have other' : ∀ l r, ¬ (a.respell ρ = .literal l ∧ b.respell ρ = .literal r) := by
        rintro l r ⟨first, second⟩
        refine other l r ⟨?_, ?_⟩
        · cases a <;> first | exact first | cases first
        · cases b <;> first | exact second | cases second
      rw [foldBinary_absorb op other, foldBinary_absorb op other']
      exact absorb_respell h.name same a b
  · rw [foldBinary_unknown unknown, foldBinary_unknown unknown']
    exact ⟨.operation a op b, rfl, rfl⟩

theorem foldUnary_respell (sign : String) (e : Expression) :
    SameEnd Eq (RespeltExpression ρ) (foldUnary (.str sign) e.tree)
      (foldUnary (.str sign) (e.respell ρ).tree) := by
  cases e with
  | literal l =>
    change SameEnd Eq _ (foldUnary (.str sign) l.tree) (foldUnary (.str sign) l.tree)
    cases folded : foldUnary (.str sign) l.tree with
    | error f => exact rfl
    | ok t =>
      obtain ⟨e, rfl, negates⟩ := negates_of_foldUnary (e := .literal l) folded
      refine ⟨e, rfl, ?_⟩
      cases negates <;> rfl
  | negation inner e =>
    exact Respelt.ite ⟨e, rfl, rfl⟩ ⟨.negation sign (.negation inner e), rfl, rfl⟩
  | _ => exact ⟨.negation sign _, rfl, rfl⟩

theorem foldLength_respell (e : Expression) :
    SameEnd Eq (RespeltExpression ρ) (foldLength e.tree) (foldLength (e.respell ρ).tree) := by
  cases e with
  | literal l =>
    change SameEnd Eq _ (foldLength l.tree) (foldLength l.tree)
    cases folded : foldLength l.tree with
    | error f => exact rfl
    | ok t =>
      obtain ⟨e, rfl, measures⟩ := measures_of_foldLength (e := .literal l) folded
      refine ⟨e, rfl, ?_⟩
      cases measures <;> rfl
  | _ => exact ⟨.length _, rfl, rfl⟩

/-! ## Expressions -/

abbrev SimplifiedAlike {α : Type} (tree : α → Tree) (respell : α → α) (a : α) : Prop :=
  PrintsAlike (Respelt tree respell) (simplify (tree a)) (simplify (tree (respell a)))

def BeforeAlike {α : Type} (tree : α → Tree) (respell : α → α) (before : Tree → Printing Unit) :
    Prop :=
  ∀ a, PrintsAlike (fun _ _ => True) (before (tree a)) (before (tree (respell a)))

theorem beforeAlike_silent {α : Type} (tree : α → Tree) (respell : α → α) :
    BeforeAlike tree respell silent := fun _ => alike_pure trivial

theorem beforeAlike_announce (h : ρ.Modest) :
    BeforeAlike Expression.tree (Expression.respell ρ) announce :=
  fun e => (printsAlike_ofExcept (sameFault_expression h e)).bind
    fun _ _ _ => alike_modify fun _ _ _ => trivial

abbrev AllSimplifiedAlike {α : Type} (before : Tree → Printing Unit) (trees : List α → List Tree)
    (respellAll : List α → List α) (as : List α) : Prop :=
  PrintsAlike (RespeltAll trees respellAll) (simplifyAll before (trees as))
    (simplifyAll before (trees (respellAll as)))

section Lists

variable {α : Type} {tree : α → Tree} {respell : α → α} {before : Tree → Printing Unit}
  {trees : List α → List Tree} {respellAll : List α → List α} {as : List α}

theorem AllSimplifiedAlike.cons (trees_cons : ∀ a as, trees (a :: as) = tree a :: trees as)
    (respellAll_cons : ∀ a as, respellAll (a :: as) = respell a :: respellAll as)
    (first : BeforeAlike tree respell before) {a : α} (own : SimplifiedAlike tree respell a)
    (rest : AllSimplifiedAlike before trees respellAll as) :
    AllSimplifiedAlike before trees respellAll (a :: as) := by
  rw [AllSimplifiedAlike, respellAll_cons, trees_cons, trees_cons, simplifyAll, simplifyAll]
  refine (first a).bind fun _ _ _ => Respelt.bind own fun a' => rest.bind ?_
  rintro _ _ ⟨as', rfl, rfl⟩
  exact alike_pure ⟨a' :: as', trees_cons _ _, by rw [respellAll_cons, trees_cons]⟩

theorem simplify_present_respell
    (empty : (trees (respellAll as)).isEmpty = (trees as).isEmpty)
    (h : AllSimplifiedAlike before trees respellAll as) :
    PrintsAlike (Respelt (fun as => .list (trees as)) respellAll)
      (present (.list (trees as)) (simplifyItems before (.list (trees as))))
      (present (.list (trees (respellAll as)))
        (simplifyItems before (.list (trees (respellAll as))))) := by
  have truthy (zs : List Tree) : (Tree.list zs).truthy = !zs.isEmpty := rfl
  simp only [present, truthy, empty]
  refine .ite Iff.rfl (fun _ => h.bind ?_) fun _ => alike_pure ⟨as, rfl, rfl⟩
  rintro _ _ ⟨as', rfl, rfl⟩
  exact alike_pure ⟨as', rfl, rfl⟩

theorem simplify_list_respell (each : ∀ a, SimplifiedAlike tree respell a) (as : List α) :
    AllSimplifiedAlike silent (List.map tree) (List.map respell) as := by
  induction as with
  | nil => exact alike_pure ⟨[], rfl, rfl⟩
  | cons a rest ih =>
    exact .cons (fun _ _ => rfl) (fun _ _ => rfl) (beforeAlike_silent tree respell) (each a) ih

theorem simplify_presentList_respell (each : ∀ a, SimplifiedAlike tree respell a) (as : List α) :
    PrintsAlike (Respelt (fun as => .list (as.map tree)) (List.map respell))
      (present (.list (as.map tree)) (simplifyItems silent (.list (as.map tree))))
      (present (.list ((as.map respell).map tree))
        (simplifyItems silent (.list ((as.map respell).map tree)))) :=
  simplify_present_respell (by cases as <;> rfl) (simplify_list_respell each as)

end Lists

mutual

theorem simplify_expression_respell (h : ρ.Unnoticed) (e : Expression) :
    SimplifiedAlike Expression.tree (Expression.respell ρ) e := by
  match e with
  | .literal l => exact alike_pure ⟨.literal l, rfl, rfl⟩
  | .name x => exact alike_pure ⟨.name x, rfl, rfl⟩
  | .element x index =>
    exact Respelt.bind (simplify_expression_respell h index) fun i =>
      alike_pure ⟨.element x i, rfl, rfl⟩
  | .call f arguments =>
    exact Respelt.bind (simplify_present_respell (by cases arguments <;> rfl)
      (simplify_expressions_respell h (beforeAlike_silent _ _) arguments)) fun es =>
        alike_pure ⟨.call f es, rfl, rfl⟩
  | .length operand =>
    exact Respelt.bind (simplify_expression_respell h operand) fun e =>
      printsAlike_ofExcept (foldLength_respell e)
  | .negation sign operand =>
    exact Respelt.bind (simplify_expression_respell h operand) fun e =>
      printsAlike_ofExcept (foldUnary_respell sign e)
  | .operation left op right =>
    exact Respelt.bind (simplify_expression_respell h left) fun a =>
      Respelt.bind (simplify_expression_respell h right) fun b =>
        printsAlike_ofExcept (foldBinary_respell h a op b)

theorem simplify_expressions_respell (h : ρ.Unnoticed) {before : Tree → Printing Unit}
    (first : BeforeAlike Expression.tree (Expression.respell ρ) before) (es : List Expression) :
    AllSimplifiedAlike before Expression.trees (Expression.respellAll ρ) es := by
  match es with
  | [] => exact alike_pure ⟨[], rfl, rfl⟩
  | e :: rest =>
    exact .cons (fun _ _ => rfl) (fun _ _ => rfl) first (simplify_expression_respell h e)
      (simplify_expressions_respell h first rest)

end

theorem simplify_variable_respell (h : ρ.Unnoticed) (v : Variable) :
    SimplifiedAlike Variable.tree (Variable.respell ρ) v := by
  cases v with
  | name x => exact alike_pure ⟨.name x, rfl, rfl⟩
  | element x index =>
    exact Respelt.bind (simplify_expression_respell h index) fun i =>
      alike_pure ⟨.element x i, rfl, rfl⟩

theorem simplify_declaration_respell (h : ρ.Unnoticed) (d : Declaration) :
    SimplifiedAlike Declaration.tree (Declaration.respell ρ) d := by
  refine (simplify_list_respell (simplify_variable_respell h) d.declared).bind ?_
  rintro _ _ ⟨vs, rfl, rfl⟩
  rw [simplify_type, simplify_type]
  exact alike_pure ⟨⟨vs, d.type⟩, rfl, rfl⟩

theorem simplify_section_respell (h : ρ.Unnoticed) (ds : List Declaration) :
    SimplifiedAlike sectionTree (respellSection ρ) ds :=
  Respelt.bind (simplify_presentList_respell (simplify_declaration_respell h) ds) fun ds' =>
    alike_pure ⟨ds', rfl, rfl⟩

theorem simplify_assignment_respell (h : ρ.Unnoticed) (a : Assignment) :
    SimplifiedAlike Assignment.tree (Assignment.respell ρ) a := by
  obtain ⟨target, value⟩ := a
  cases target with
  | name x =>
    rw [SimplifiedAlike, Assignment.respell, Variable.respell, Assignment.tree, Assignment.tree,
      simplify, simplify]
    refine (alike_pure (V := fun t t' => .identifier (.str x) = t ∧
      .identifier (.str (ρ.name x)) = t') ⟨rfl, rfl⟩).bind ?_
    rintro _ _ ⟨rfl, rfl⟩
    exact Respelt.bind (simplify_expression_respell h value) fun e =>
      alike_pure ⟨⟨.name x, e⟩, rfl, rfl⟩
  | element x index =>
    rw [SimplifiedAlike, Assignment.respell, Variable.respell, Assignment.tree, Assignment.tree,
      simplify, simplify]
    refine (alike_pure (V := fun t t' => .str x = t ∧ .str (ρ.name x) = t') ⟨rfl, rfl⟩).bind ?_
    rintro _ _ ⟨rfl, rfl⟩
    exact Respelt.bind (simplify_expression_respell h index) fun i =>
      Respelt.bind (simplify_expression_respell h value) fun e =>
        alike_pure ⟨⟨.element x i, e⟩, rfl, rfl⟩

theorem decides_respell (b : Bool) (e : Expression) :
    decides b (e.respell ρ).tree = decides b e.tree := isLiteral_respell _ _ e

theorem filter_respellAll (ss : List Statement) :
    (Statement.respellAll ρ ss).filter Statement.isPresent =
      Statement.respellAll ρ (ss.filter Statement.isPresent) := by
  induction ss with
  | nil => rfl
  | cons s rest ih =>
    rw [Statement.respellAll, List.filter_cons, List.filter_cons, ih, ← truthy_tree, ← truthy_tree,
      Statement.truthy_respell]
    split <;> rfl

theorem simplify_body_respell {ss : List Statement}
    (own : AllSimplifiedAlike silent Statement.trees (Statement.respellAll ρ) ss) :
    SimplifiedAlike bodyTree (Statement.respellAll ρ) ss := by
  have sequence : SimplifiedAlike (fun ss => .statementSequence (Statement.trees ss))
      (Statement.respellAll ρ) ss := by
    refine own.bind ?_
    rintro _ _ ⟨ss', rfl, rfl⟩
    refine alike_pure ⟨ss'.filter Statement.isPresent, by rw [filter_trees], ?_⟩
    rw [filter_trees, filter_respellAll]
  exact Respelt.bind sequence fun ss' => alike_pure ⟨ss', rfl, rfl⟩

theorem simplify_branch_respell {s : Statement}
    (own : SimplifiedAlike Statement.tree (Statement.respell ρ) s) :
    PrintsAlike (Respelt Statement.tree (Statement.respell ρ))
      (if s.tree.truthy then simplify s.tree else pure s.tree)
      (if s.tree.truthy then simplify (s.respell ρ).tree else pure (s.respell ρ).tree) :=
  .ite Iff.rfl (fun _ => own) fun _ => alike_pure ⟨s, rfl, rfl⟩

mutual

theorem simplify_statement_respell (h : ρ.Unnoticed) (s : Statement) :
    SimplifiedAlike Statement.tree (Statement.respell ρ) s := by
  match s with
  | .empty => exact alike_pure ⟨.empty, rfl, rfl⟩
  | .absent => exact alike_pure ⟨.absent, rfl, rfl⟩
  | .compound items =>
    refine (simplify_body_respell (simplify_statements_respell h items)).imp ?_
    rintro _ _ ⟨ss, rfl, rfl⟩
    exact ⟨.compound ss, rfl, rfl⟩
  | .assign a =>
    refine (simplify_assignment_respell h a).imp ?_
    rintro _ _ ⟨a', rfl, rfl⟩
    exact ⟨.assign a', rfl, rfl⟩
  | .conditional condition yes no =>
    refine Respelt.bind (simplify_expression_respell h condition) fun c => ?_
    simp only [decides_respell, Statement.truthy_respell]
    refine .ite Iff.rfl (fun _ => simplify_statement_respell h yes) fun _ => ?_
    refine .ite Iff.rfl (fun _ => ?_) fun _ => ?_
    · exact .ite Iff.rfl (fun _ => simplify_statement_respell h no) fun _ =>
        alike_pure ⟨.absent, rfl, rfl⟩
    · refine Respelt.bind (simplify_statement_respell h yes) fun yes' => ?_
      refine (simplify_branch_respell (simplify_statement_respell h no)).joined ?_
      rintro _ _ ⟨no', rfl, rfl⟩
      exact alike_pure ⟨.conditional c yes' no', rfl, rfl⟩
  | .whileDo condition body =>
    refine Respelt.bind (simplify_expression_respell h condition) fun c => ?_
    simp only [decides_respell]
    exact .ite Iff.rfl (fun _ => alike_pure ⟨.absent, rfl, rfl⟩) fun _ =>
      Respelt.bind (simplify_statement_respell h body) fun s => alike_pure ⟨.whileDo c s, rfl, rfl⟩
  | .repeatUntil body condition =>
    refine Respelt.bind (simplify_statement_respell h body) fun s =>
      Respelt.bind (simplify_expression_respell h condition) fun c => ?_
    simp only [decides_respell]
    exact alike_pure (.ite ⟨s, rfl, rfl⟩ ⟨.repeatUntil s c, rfl, rfl⟩)
  | .forDo start direction limit body =>
    exact Respelt.bind (simplify_assignment_respell h start) fun a =>
      Respelt.bind (simplify_expression_respell h limit) fun e =>
        Respelt.bind (simplify_statement_respell h body) fun s =>
          alike_pure ⟨.forDo a direction e s, rfl, rfl⟩
  | .call f arguments =>
    exact Respelt.bind (simplify_present_respell (by cases arguments <;> rfl)
      (simplify_expressions_respell h (beforeAlike_silent _ _) arguments)) fun es =>
        alike_pure ⟨.call f es, rfl, rfl⟩
  | .mention x => exact alike_pure ⟨.mention x, rfl, rfl⟩
  | .writeln arguments =>
    exact Respelt.bind (simplify_present_respell (by cases arguments <;> rfl)
      (simplify_expressions_respell h (beforeAlike_announce h.toModest) arguments)) fun es =>
        alike_pure ⟨.writeln es, rfl, rfl⟩
  | .readln targets =>
    exact Respelt.bind (simplify_presentList_respell (simplify_variable_respell h) targets)
      fun vs => alike_pure ⟨.readln vs, rfl, rfl⟩
  | .breakLoop => exact alike_pure ⟨.breakLoop, rfl, rfl⟩
  | .continueLoop => exact alike_pure ⟨.continueLoop, rfl, rfl⟩

theorem simplify_statements_respell (h : ρ.Unnoticed) (ss : List Statement) :
    AllSimplifiedAlike silent Statement.trees (Statement.respellAll ρ) ss := by
  match ss with
  | [] => exact alike_pure ⟨[], rfl, rfl⟩
  | s :: rest =>
    exact .cons (fun _ _ => rfl) (fun _ _ => rfl) (beforeAlike_silent _ _)
      (simplify_statement_respell h s) (simplify_statements_respell h rest)

end

theorem simplify_extra_respell (h : ρ.Unnoticed) (extra : Option (List Declaration)) :
    PrintsAlike (Respelt extraTree (Option.map (respellSection ρ)))
      (if (extraTree extra).truthy then simplify (extraTree extra) else pure (extraTree extra))
      (if (extraTree extra).truthy then simplify (extraTree (extra.map (respellSection ρ)))
        else pure (extraTree (extra.map (respellSection ρ)))) := by
  cases extra with
  | none => exact alike_pure ⟨none, rfl, rfl⟩
  | some ds =>
    refine (simplify_section_respell h ds).imp ?_
    rintro _ _ ⟨ds', rfl, rfl⟩
    exact ⟨some ds', rfl, rfl⟩

mutual

theorem simplify_block_respell (h : ρ.Unnoticed) (b : Block) :
    SimplifiedAlike Block.tree (Block.respell ρ) b := by
  match b with
  | .make declarations routines body extra =>
    rw [SimplifiedAlike, Block.respell, Block.tree, Block.tree, simplify, simplify]
    refine Respelt.bind (simplify_section_respell h declarations) fun ds => ?_
    refine Respelt.bind (simplify_present_respell (by cases routines <;> rfl)
      (simplify_routines_respell h routines)) fun rs => ?_
    rw [show (extraTree (extra.map (respellSection ρ))).truthy = (extraTree extra).truthy from by
      rw [← respell_extraTree h.toModest, Tree.truthy_respell]]
    refine (simplify_extra_respell h extra).joined ?_
    rintro _ _ ⟨extra', rfl, rfl⟩
    exact Respelt.bind (simplify_body_respell (simplify_statements_respell h body)) fun ss =>
      alike_pure ⟨.make ds rs ss extra', rfl, rfl⟩

theorem simplify_routine_respell (h : ρ.Unnoticed) (r : Routine) :
    SimplifiedAlike Routine.tree (Routine.respell ρ) r := by
  match r with
  | .procedure name parameters block =>
    rw [SimplifiedAlike, Routine.respell, Routine.tree, Routine.tree, simplify, simplify,
      simplify_procedureHeading, simplify_procedureHeading, pure_bind, pure_bind]
    exact Respelt.bind (simplify_block_respell h block) fun b =>
      alike_pure ⟨.procedure name parameters b, rfl, rfl⟩
  | .function name result parameters block =>
    rw [SimplifiedAlike, Routine.respell, Routine.tree, Routine.tree, simplify, simplify,
      simplify_functionHeading, simplify_functionHeading, pure_bind, pure_bind]
    exact Respelt.bind (simplify_block_respell h block) fun b =>
      alike_pure ⟨.function name result parameters b, rfl, rfl⟩

theorem simplify_routines_respell (h : ρ.Unnoticed) (rs : List Routine) :
    AllSimplifiedAlike silent Routine.trees (Routine.respellAll ρ) rs := by
  match rs with
  | [] => exact alike_pure ⟨[], rfl, rfl⟩
  | r :: rest =>
    exact .cons (fun _ _ => rfl) (fun _ _ => rfl) (beforeAlike_silent _ _)
      (simplify_routine_respell h r) (simplify_routines_respell h rest)

end

theorem simplify_program_respell (h : ρ.Unnoticed) (p : Program) :
    SimplifiedAlike Program.tree (Program.respell ρ) p := by
  have header : simplify (.header (.str p.name)) = pure (.header (.str p.name)) := rfl
  rw [SimplifiedAlike, Program.respell, Program.tree, Program.tree, simplify, simplify, header,
    pure_bind, pure_bind]
  exact Respelt.bind (simplify_block_respell h p.block) fun b =>
    alike_pure ⟨⟨p.name, b⟩, rfl, rfl⟩

end PascalStack.Simplify
