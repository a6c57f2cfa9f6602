import PascalStack.Proofs.Syntax.Folding
import PascalStack.Simplify.Tree

/-!
# Syntax that simplification leaves as it is

An expression is settled if no rule of folding applies to it or inside it. A statement is settled if
simplification gives it back and on the way only prints the arguments of its output statements, one
after the other; so it is with blocks and routines. What is made of settled parts is settled, unless
a condition decides or a statement is empty.
-/

namespace PascalStack.Syntax

open Simplify List

/-- No rule of folding applies to an expression or to a part of it. -/
inductive Expression.Settled : Expression → Prop
  | literal (l : Literal) : Settled (.literal l)
  | name (x : String) : Settled (.name x)
  | element (x : String) {index : Expression} : index.Settled → Settled (.element x index)
  | call (f : String) {arguments : List Expression} : (∀ e ∈ arguments, e.Settled) →
      Settled (.call f arguments)
  | length {e : Expression} : e.Settled → foldLength e.tree = .ok (Expression.length e).tree →
      Settled (.length e)
  | negation {sign : String} {e : Expression} : e.Settled →
      foldUnary (.str sign) e.tree = .ok (Expression.negation sign e).tree →
      Settled (.negation sign e)
  | operation {a b : Expression} {op : String} : a.Settled → b.Settled →
      foldBinary a.tree (.str op) b.tree = .ok (Expression.operation a op b).tree →
      Settled (.operation a op b)

section Folding

variable {a b e r : Expression} {op sign : String}

theorem settled_of_foldBinary (first : a.Settled) (second : b.Settled) (reduces : Reduces a op b r)
    (folded : foldBinary a.tree (.str op) b.tree = .ok r.tree) : r.Settled := by
  cases reduces with
  | kept => exact .operation first second folded
  | left => exact first
  | right => exact second
  | computed | cancelled | vanished | divided | refuted | granted => exact .literal _

theorem settled_of_foldUnary (operand : e.Settled) (negates : Negates sign e r)
    (folded : foldUnary (.str sign) e.tree = .ok r.tree) : r.Settled := by
  cases negates with
  | kept => exact .negation operand folded
  | verdict | number => exact .literal _
  | twice =>
    cases operand with
    | negation inner _ => exact inner

theorem settled_of_foldLength (operand : e.Settled) (measures : Measures e r)
    (folded : foldLength e.tree = .ok r.tree) : r.Settled := by
  cases measures with
  | kept => exact .length operand folded
  | phrase => exact .literal _

end Folding

variable {ts : List Tree} {es : List Expression} {ds : List Declaration} {t : Tree} {a : Assignment}
  {items : List Statement} {rs : List Routine} {b : Block}

theorem simplifyAll_same {before : Tree → Printing Unit} (each : ∀ t ∈ ts, simplify t = pure t) :
    simplifyAll before ts = do forM ts before; return ts := by
  induction ts with
  | nil => rfl
  | cons t ts ih =>
    rw [forall_mem_cons] at each
    rw [simplifyAll, each.1, ih each.2, forM_cons]
    simp only [bind_assoc, pure_bind]

theorem forM_silent (ts : List Tree) : forM ts silent = pure () := by
  induction ts with
  | nil => rfl
  | cons t ts ih => rw [forM_cons, ih, silent, pure_bind]

theorem present_list (before : Tree → Printing Unit) (ts : List Tree) :
    present (.list ts) (simplifyItems before (.list ts)) =
      do return .list (← simplifyAll before ts) := by
  cases ts <;> rfl

theorem present_silent (each : ∀ t ∈ ts, simplify t = pure t) :
    present (.list ts) (simplifyItems silent (.list ts)) = pure (.list ts) := by
  rw [present_list, simplifyAll_same each, forM_silent, pure_bind, pure_bind]

theorem forall_trees {P : Tree → Prop} (each : ∀ e ∈ es, P e.tree) :
    ∀ t ∈ Expression.trees es, P t := by
  induction es with
  | nil => exact fun _ member => absurd member not_mem_nil
  | cons e es ih =>
    rw [forall_mem_cons] at each
    exact forall_mem_cons.mpr ⟨each.1, ih each.2⟩

theorem Expression.Settled.simplify_eq {e : Expression} (h : e.Settled) :
    simplify e.tree = pure e.tree := by
  induction h with
  | literal l => rfl
  | name x => rfl
  | element x _ ih => rw [Expression.tree, simplify, ih, pure_bind]
  | call f _ ih => rw [Expression.tree, simplify, present_silent (forall_trees ih), pure_bind]
  | length _ folded ih => rw [Expression.tree, simplify, ih, pure_bind, folded]; rfl
  | negation _ folded ih => rw [Expression.tree, simplify, ih, pure_bind, folded]; rfl
  | operation _ _ folded first second =>
    rw [Expression.tree, simplify, first, pure_bind, second, pure_bind, folded]
    rfl

def Variable.Settled : Variable → Prop
  | name _ => True
  | element _ index => index.Settled

theorem Variable.Settled.simplify_eq {v : Variable} (h : v.Settled) :
    simplify v.tree = pure v.tree := by
  cases v with
  | name x => rfl
  | element x index => rw [Variable.tree, simplify, Expression.Settled.simplify_eq h, pure_bind]

theorem simplify_type (τ : TypeForm) : simplify τ.tree = pure τ.tree := by
  induction τ with
  | word s => rfl
  | array first last element ih =>
    rw [TypeForm.tree, simplify, ih]
    rfl

theorem simplify_parameter (p : Parameter) : simplify p.tree = pure p.tree := by
  rw [Parameter.tree, simplify, simplify_type]
  rfl

def Declaration.Settled (d : Declaration) : Prop := ∀ v ∈ d.declared, v.Settled

theorem Declaration.Settled.simplify_eq {d : Declaration} (h : d.Settled) :
    simplify d.tree = pure d.tree := by
  have same : ∀ t ∈ d.declared.map Variable.tree, simplify t = pure t :=
    forall_mem_map.mpr fun v member => (h v member).simplify_eq
  rw [Declaration.tree, simplify, simplifyItems, simplifyAll_same same, forM_silent, simplify_type]
  rfl

theorem simplify_section_same (each : ∀ d ∈ ds, d.Settled) :
    simplify (sectionTree ds) = pure (sectionTree ds) := by
  have same : ∀ t ∈ ds.map Declaration.tree, simplify t = pure t :=
    forall_mem_map.mpr fun d member => (each d member).simplify_eq
  rw [sectionTree, simplify, present_silent same, pure_bind]

def Statement.isPresent : Statement → Bool
  | .empty | .absent => false
  | _ => true

theorem truthy_tree (s : Statement) : s.tree.truthy = s.isPresent := by
  cases s with
  | assign a =>
    obtain ⟨target, value⟩ := a
    cases target <;> rfl
  | _ => rfl

theorem filter_trees (ss : List Statement) :
    (Statement.trees ss).filter Tree.truthy = Statement.trees (ss.filter Statement.isPresent) := by
  induction ss with
  | nil => rfl
  | cons s rest ih =>
    rw [Statement.trees, filter_cons, filter_cons, ih, truthy_tree]
    split <;> rfl

mutual

def Statement.outputs : Statement → List Expression
  | .compound items => Statement.allOutputs items
  | .conditional _ yes no => yes.outputs ++ no.outputs
  | .whileDo _ body | .repeatUntil body _ | .forDo _ _ _ body => body.outputs
  | .writeln arguments => arguments
  | _ => []

def Statement.allOutputs : List Statement → List Expression
  | [] => []
  | s :: rest => s.outputs ++ Statement.allOutputs rest

end

def announceAll (es : List Expression) : Printing Unit := forM es fun e => announce e.tree

theorem announceAll_append (es es' : List Expression) :
    announceAll (es ++ es') = (do announceAll es; announceAll es') := forM_append

theorem forM_announce (es : List Expression) :
    forM (Expression.trees es) announce = announceAll es := by
  induction es with
  | nil => rfl
  | cons e es ih =>
    rw [Expression.trees, forM_cons, ih, announceAll, announceAll, forM_cons]

def Stays (t : Tree) (es : List Expression) : Prop := simplify t = do announceAll es; return t

def Statement.Settled (s : Statement) : Prop := Stays s.tree s.outputs

theorem Stays.simplify_eq (h : Stays t es) : simplify t = do announceAll es; return t := h

theorem stays_of_pure (h : simplify t = pure t) : Stays t [] := h

section Statements

variable {c e : Expression} {s yes no : Statement}

def Assignment.Settled (a : Assignment) : Prop := a.target.Settled ∧ a.value.Settled

theorem Assignment.Settled.simplify_eq (h : a.Settled) : simplify a.tree = pure a.tree := by
  obtain ⟨target, value⟩ := h
  obtain ⟨x | ⟨x, index⟩, e⟩ := a
  · have name : simplify (.identifier (.str x)) = pure (.identifier (.str x)) := rfl
    rw [Assignment.tree, simplify, name, pure_bind, value.simplify_eq, pure_bind]
  · have array : simplify (.str x) = pure (.str x) := rfl
    rw [Assignment.tree, simplify, array, pure_bind, Expression.Settled.simplify_eq target,
      pure_bind, value.simplify_eq, pure_bind]

theorem simplifyAll_settled (each : ∀ s ∈ items, s.Settled) :
    simplifyAll silent (Statement.trees items) = do
      announceAll (Statement.allOutputs items)
      return Statement.trees items := by
  induction items with
  | nil => rfl
  | cons s items ih =>
    rw [forall_mem_cons] at each
    rw [Statement.trees, simplifyAll, each.1.simplify_eq, ih each.2, Statement.allOutputs,
      announceAll_append, silent]
    simp only [bind_assoc, pure_bind]

theorem stays_body (all : ∀ s ∈ items, s.isPresent = true) (each : ∀ s ∈ items, s.Settled) :
    Stays (bodyTree items) (Statement.allOutputs items) := by
  have kept : (Statement.trees items).filter Tree.truthy = Statement.trees items := by
    rw [filter_trees, filter_eq_self.mpr all]
  rw [Stays, bodyTree, simplify, simplify, simplifyAll_settled each]
  simp only [bind_assoc, pure_bind, kept]

theorem settled_conditional (condition : c.Settled) (isTrue : c.decides true = false)
    (isFalse : c.decides false = false) (first : yes.Settled) (second : no.Settled) :
    (Statement.conditional c yes no).Settled := by
  have skipped : no.isPresent = false → no.outputs = [] := by
    cases no <;> simp [Statement.isPresent, Statement.outputs]
  rw [Statement.Settled, Stays, Statement.tree, simplify, condition.simplify_eq]
  simp only [pure_bind, decides, isTruth_tree, isTrue, isFalse, Bool.false_eq_true, if_false,
    first.simplify_eq, bind_assoc, truthy_tree, Statement.outputs, announceAll_append]
  cases there : no.isPresent with
  | false => simp [skipped there, announceAll]
  | true => simp only [if_true, second.simplify_eq, bind_assoc, pure_bind]

theorem settled_whileDo (condition : c.Settled) (undecided : c.decides false = false)
    (inside : s.Settled) : (Statement.whileDo c s).Settled := by
  rw [Statement.Settled, Stays, Statement.tree, simplify, condition.simplify_eq]
  simp only [pure_bind, decides, isTruth_tree, undecided, Bool.false_eq_true, if_false,
    inside.simplify_eq, bind_assoc, Statement.outputs]

theorem settled_repeatUntil (inside : s.Settled) (condition : c.Settled)
    (undecided : c.decides true = false) : (Statement.repeatUntil s c).Settled := by
  rw [Statement.Settled, Stays, Statement.tree, simplify, inside.simplify_eq]
  simp only [condition.simplify_eq, pure_bind, decides, isTruth_tree, undecided, Bool.false_eq_true,
    if_false, bind_assoc, Statement.outputs]

theorem settled_forDo (direction : String) (start : a.Settled) (limit : e.Settled)
    (inside : s.Settled) : (Statement.forDo a direction e s).Settled := by
  rw [Statement.Settled, Stays, Statement.tree, simplify, start.simplify_eq,
    pure_bind, limit.simplify_eq, pure_bind, inside.simplify_eq]
  simp only [pure_bind, bind_assoc, Statement.outputs]

theorem settled_call (f : String) (each : ∀ e ∈ es, e.Settled) : (Statement.call f es).Settled :=
  stays_of_pure (Expression.Settled.call f each).simplify_eq

theorem settled_writeln (each : ∀ e ∈ es, e.Settled) : (Statement.writeln es).Settled := by
  have same : ∀ t ∈ Expression.trees es, simplify t = pure t :=
    forall_trees fun e member => (each e member).simplify_eq
  rw [Statement.Settled, Stays, Statement.tree, simplify, present_list, simplifyAll_same same,
    forM_announce]
  simp only [pure_bind, bind_assoc, Statement.outputs]

theorem settled_readln {vs : List Variable} (each : ∀ v ∈ vs, v.Settled) :
    (Statement.readln vs).Settled := by
  have each' : ∀ t ∈ vs.map Variable.tree, simplify t = pure t :=
    forall_mem_map.mpr fun v member => (each v member).simplify_eq
  apply stays_of_pure
  rw [Statement.tree, simplify, present_silent each', pure_bind]

end Statements

mutual

def Block.outputs : Block → List Expression
  | .make _ routines body _ => Routine.allOutputs routines ++ Statement.allOutputs body

def Routine.outputs : Routine → List Expression
  | .procedure _ _ block | .function _ _ _ block => block.outputs

def Routine.allOutputs : List Routine → List Expression
  | [] => []
  | r :: rest => r.outputs ++ Routine.allOutputs rest

end

theorem simplifyAll_routines (each : ∀ r ∈ rs, Stays r.tree r.outputs) :
    simplifyAll silent (Routine.trees rs) = do
      announceAll (Routine.allOutputs rs)
      return Routine.trees rs := by
  induction rs with
  | nil => rfl
  | cons r rs ih =>
    rw [forall_mem_cons] at each
    rw [Routine.trees, simplifyAll, each.1.simplify_eq, ih each.2, Routine.allOutputs,
      announceAll_append, silent]
    simp only [bind_assoc, pure_bind]

theorem stays_block {ss : List Statement} {extra : Option (List Declaration)}
    (declared : ∀ d ∈ ds, d.Settled) (routines : ∀ r ∈ rs, Stays r.tree r.outputs)
    (body : Stays (bodyTree ss) (Statement.allOutputs ss))
    (same : simplify (extraTree extra) = pure (extraTree extra)) :
    Stays (Block.make ds rs ss extra).tree (Block.make ds rs ss extra).outputs := by
  rw [Stays, Block.tree, simplify, simplify_section_same declared, present_list,
    simplifyAll_routines routines, same, body.simplify_eq]
  simp only [bind_assoc, pure_bind, ite_self, Block.outputs, announceAll_append]

theorem present_parameters (ps : List Parameter) :
    present (.list (ps.map Parameter.tree)) (simplifyItems silent (.list (ps.map Parameter.tree))) =
      pure (.list (ps.map Parameter.tree)) :=
  present_silent (forall_mem_map.mpr fun p _ => simplify_parameter p)

theorem simplify_procedureHeading (x : String) (ps : List Parameter) :
    simplify (.procedureHeading (.str x) (.list (ps.map Parameter.tree))) =
      pure (.procedureHeading (.str x) (.list (ps.map Parameter.tree))) := by
  rw [simplify, present_parameters, pure_bind]

theorem simplify_functionHeading (x : Option String) (τ : TypeForm) (ps : List Parameter) :
    simplify (.functionHeading (nameTree x) τ.tree (.list (ps.map Parameter.tree))) =
      pure (.functionHeading (nameTree x) τ.tree (.list (ps.map Parameter.tree))) := by
  rw [simplify, simplify_type, present_parameters]
  simp only [pure_bind, ite_self]

theorem stays_procedure (x : String) (ps : List Parameter) (h : Stays b.tree b.outputs) :
    Stays (Routine.procedure x ps b).tree (Routine.procedure x ps b).outputs := by
  rw [Stays, Routine.tree, simplify, simplify_procedureHeading, pure_bind, h.simplify_eq]
  simp only [bind_assoc, pure_bind, Routine.outputs]

theorem stays_function (x : Option String) (τ : TypeForm) (ps : List Parameter)
    (h : Stays b.tree b.outputs) :
    Stays (Routine.function x τ ps b).tree (Routine.function x τ ps b).outputs := by
  rw [Stays, Routine.tree, simplify, simplify_functionHeading, pure_bind, h.simplify_eq]
  simp only [bind_assoc, pure_bind, Routine.outputs]

theorem stays_program (x : String) (h : Stays b.tree b.outputs) :
    Stays (Program.mk x b).tree b.outputs := by
  have header : simplify (.header (.str x)) = pure (.header (.str x)) := rfl
  rw [Stays, Program.tree, simplify, header, pure_bind, h.simplify_eq]
  simp only [bind_assoc, pure_bind]

end PascalStack.Syntax
