import PascalStack.Proofs.Syntax.Basic
import PascalStack.Proofs.Tree.Respelling

/-!
# Programs with other spellings

A program respelt, part by part. Names of programs and routines stay as they are. The tree of the
respelt program is the respelt tree.
-/

namespace PascalStack.Syntax

mutual

def Expression.respell (ρ : Respelling) : Expression → Expression
  | .literal l => .literal l
  | .name x => .name (ρ.name x)
  | .element x index => .element (ρ.name x) (index.respell ρ)
  | .call f arguments => .call f (Expression.respellAll ρ arguments)
  | .length operand => .length (operand.respell ρ)
  | .negation sign operand => .negation sign (operand.respell ρ)
  | .operation left op right =>
    .operation (left.respell ρ) (ρ.operator op) (right.respell ρ)

def Expression.respellAll (ρ : Respelling) : List Expression → List Expression
  | [] => []
  | e :: rest => e.respell ρ :: Expression.respellAll ρ rest

end

def Variable.respell (ρ : Respelling) : Variable → Variable
  | .name x => .name (ρ.name x)
  | .element x index => .element (ρ.name x) (index.respell ρ)

def TypeForm.respell (ρ : Respelling) : TypeForm → TypeForm
  | .word w => .word (ρ.word w)
  | .array first last element =>
    .array (first.respell ρ) (last.respell ρ) (element.respell ρ)

def Declaration.respell (ρ : Respelling) (d : Declaration) : Declaration :=
  ⟨d.declared.map (Variable.respell ρ), d.type.respell ρ⟩

def Parameter.respell (ρ : Respelling) (p : Parameter) : Parameter :=
  ⟨ρ.name p.name, p.type.respell ρ⟩

def Assignment.respell (ρ : Respelling) (a : Assignment) : Assignment :=
  ⟨a.target.respell ρ, a.value.respell ρ⟩

mutual

def Statement.respell (ρ : Respelling) : Statement → Statement
  | .empty => .empty
  | .absent => .absent
  | .compound items => .compound (Statement.respellAll ρ items)
  | .assign a => .assign (a.respell ρ)
  | .conditional condition yes no =>
    .conditional (condition.respell ρ) (yes.respell ρ) (no.respell ρ)
  | .whileDo condition body => .whileDo (condition.respell ρ) (body.respell ρ)
  | .repeatUntil body condition => .repeatUntil (body.respell ρ) (condition.respell ρ)
  | .forDo start direction limit body =>
    .forDo (start.respell ρ) (ρ.direction direction) (limit.respell ρ) (body.respell ρ)
  | .call f arguments => .call f (Expression.respellAll ρ arguments)
  | .mention x => .mention (ρ.name x)
  | .writeln arguments => .writeln (Expression.respellAll ρ arguments)
  | .readln targets => .readln (targets.map (Variable.respell ρ))
  | .breakLoop => .breakLoop
  | .continueLoop => .continueLoop

def Statement.respellAll (ρ : Respelling) : List Statement → List Statement
  | [] => []
  | s :: rest => s.respell ρ :: Statement.respellAll ρ rest

end

def respellSection (ρ : Respelling) (ds : List Declaration) : List Declaration :=
  ds.map (Declaration.respell ρ)

mutual

def Block.respell (ρ : Respelling) : Block → Block
  | .make declarations routines body extra =>
    .make (respellSection ρ declarations) (Routine.respellAll ρ routines)
      (Statement.respellAll ρ body) (extra.map (respellSection ρ))

def Routine.respell (ρ : Respelling) : Routine → Routine
  | .procedure name parameters block =>
    .procedure name (parameters.map (Parameter.respell ρ)) (block.respell ρ)
  | .function name result parameters block =>
    .function name (result.respell ρ) (parameters.map (Parameter.respell ρ)) (block.respell ρ)

def Routine.respellAll (ρ : Respelling) : List Routine → List Routine
  | [] => []
  | r :: rest => r.respell ρ :: Routine.respellAll ρ rest

end

def Program.respell (ρ : Respelling) (p : Program) : Program := ⟨p.name, p.block.respell ρ⟩

section Trees

variable {ρ : Respelling}

theorem respellAll_map {α : Type} {tree : α → Tree} {f : α → α}
    (each : ∀ a, (tree a).respell ρ = tree (f a)) (as : List α) :
    Tree.respellAll ρ (as.map tree) = (as.map f).map tree := by
  induction as with
  | nil => rfl
  | cons a rest ih => simp only [List.map_cons, Tree.respellAll, each, ih]

theorem Statement.truthy_respell (s : Statement) :
    (s.respell ρ).tree.truthy = s.tree.truthy := by
  cases s with
  | assign a =>
    obtain ⟨target, value⟩ := a
    cases target <;> rfl
  | _ => rfl

variable (h : ρ.Modest)

include h

set_option linter.unusedSectionVars false

theorem Literal.respell_tree (l : Literal) : l.tree.respell ρ = l.tree := by
  rw [Literal.tree, Tree.respell, h.phrase, Tree.mapText_id]
  cases l <;> rfl

mutual

theorem Expression.respell_tree (e : Expression) : e.tree.respell ρ = (e.respell ρ).tree := by
  match e with
  | .literal l => exact l.respell_tree h
  | .name x => rfl
  | .element x index =>
    simp only [Expression.tree, Expression.respell, Tree.respell, Expression.respell_tree index]
    rfl
  | .call f arguments =>
    simp only [Expression.tree, Expression.respell, Tree.respell, h.routine, Tree.mapText_id,
      Expression.respellAll_trees arguments]
  | .length operand =>
    simp only [Expression.tree, Expression.respell, Tree.respell, Expression.respell_tree operand]
  | .negation sign operand =>
    simp only [Expression.tree, Expression.respell, Tree.respell, Expression.respell_tree operand]
  | .operation left op right =>
    simp only [Expression.tree, Expression.respell, Tree.respell, Expression.respell_tree left,
      Expression.respell_tree right]
    rfl

theorem Expression.respellAll_trees (es : List Expression) :
    Tree.respellAll ρ (Expression.trees es) = Expression.trees (Expression.respellAll ρ es) := by
  match es with
  | [] => rfl
  | e :: rest =>
    simp only [Expression.trees, Expression.respellAll, Tree.respellAll, Expression.respell_tree e,
      Expression.respellAll_trees rest]

end

theorem Variable.respell_tree (v : Variable) : v.tree.respell ρ = (v.respell ρ).tree := by
  cases v with
  | name x => rfl
  | element x index =>
    simp only [Variable.tree, Variable.respell, Tree.respell, Expression.respell_tree h]
    rfl

theorem TypeForm.respell_tree (τ : TypeForm) : τ.tree.respell ρ = (τ.respell ρ).tree := by
  induction τ with
  | word w => rfl
  | array first last element ih =>
    simp only [TypeForm.tree, TypeForm.respell, Tree.respell, Expression.respell_tree h, ih]

theorem Declaration.respell_tree (d : Declaration) : d.tree.respell ρ = (d.respell ρ).tree := by
  simp only [Declaration.tree, Declaration.respell, Tree.respell, TypeForm.respell_tree h,
    respellAll_map (Variable.respell_tree h)]

theorem respell_sectionTree (ds : List Declaration) :
    (sectionTree ds).respell ρ = sectionTree (respellSection ρ ds) := by
  simp only [sectionTree, respellSection, Tree.respell, respellAll_map (Declaration.respell_tree h)]

theorem respell_extraTree (extra : Option (List Declaration)) :
    (extraTree extra).respell ρ = extraTree (extra.map (respellSection ρ)) := by
  cases extra with
  | none => rfl
  | some ds => exact respell_sectionTree h ds

theorem Parameter.respell_tree (p : Parameter) : p.tree.respell ρ = (p.respell ρ).tree := by
  simp only [Parameter.tree, Parameter.respell, Tree.respell, TypeForm.respell_tree h,
    Tree.mapText]

theorem Assignment.respell_tree (a : Assignment) : a.tree.respell ρ = (a.respell ρ).tree := by
  obtain ⟨target, value⟩ := a
  cases target with
  | name x =>
    simp only [Assignment.tree, Assignment.respell, Variable.respell, Tree.respell, Tree.mapText,
      Expression.respell_tree h]
  | element x index =>
    simp only [Assignment.tree, Assignment.respell, Variable.respell, Tree.respell, Tree.mapText,
      Expression.respell_tree h]

mutual

theorem Statement.respell_tree (s : Statement) : s.tree.respell ρ = (s.respell ρ).tree := by
  match s with
  | .empty | .absent | .mention _ | .breakLoop | .continueLoop => rfl
  | .compound items =>
    simp only [Statement.tree, Statement.respell, Tree.respell, Statement.respellAll_trees items]
  | .assign a => exact a.respell_tree h
  | .conditional condition yes no =>
    simp only [Statement.tree, Statement.respell, Tree.respell, Expression.respell_tree h,
      Statement.respell_tree yes, Statement.respell_tree no]
  | .whileDo condition body =>
    simp only [Statement.tree, Statement.respell, Tree.respell, Expression.respell_tree h,
      Statement.respell_tree body]
  | .repeatUntil body condition =>
    simp only [Statement.tree, Statement.respell, Tree.respell, Expression.respell_tree h,
      Statement.respell_tree body]
  | .forDo start direction limit body =>
    simp only [Statement.tree, Statement.respell, Tree.respell, Tree.mapText,
      Assignment.respell_tree h, Expression.respell_tree h, Statement.respell_tree body]
  | .call f arguments =>
    simp only [Statement.tree, Statement.respell, Tree.respell, h.routine, Tree.mapText_id,
      Expression.respellAll_trees h]
  | .writeln arguments =>
    simp only [Statement.tree, Statement.respell, Tree.respell, Expression.respellAll_trees h]
  | .readln targets =>
    simp only [Statement.tree, Statement.respell, Tree.respell,
      respellAll_map (Variable.respell_tree h)]

theorem Statement.respellAll_trees (ss : List Statement) :
    Tree.respellAll ρ (Statement.trees ss) = Statement.trees (Statement.respellAll ρ ss) := by
  match ss with
  | [] => rfl
  | s :: rest =>
    simp only [Statement.trees, Statement.respellAll, Tree.respellAll, Statement.respell_tree s,
      Statement.respellAll_trees rest]

end

mutual

theorem Block.respell_tree (b : Block) : b.tree.respell ρ = (b.respell ρ).tree := by
  match b with
  | .make declarations routines body extra =>
    simp only [Block.tree, Block.respell, Tree.respell, bodyTree, respell_sectionTree h,
      respell_extraTree h, Statement.respellAll_trees h, Routine.respellAll_trees routines]

theorem Routine.respell_tree (r : Routine) : r.tree.respell ρ = (r.respell ρ).tree := by
  match r with
  | .procedure name parameters block =>
    simp only [Routine.tree, Routine.respell, Tree.respell, h.routine, Tree.mapText_id,
      respellAll_map (Parameter.respell_tree h), Block.respell_tree block]
  | .function name result parameters block =>
    simp only [Routine.tree, Routine.respell, Tree.respell, h.routine, Tree.mapText_id,
      TypeForm.respell_tree h, respellAll_map (Parameter.respell_tree h), Block.respell_tree block]

theorem Routine.respellAll_trees (rs : List Routine) :
    Tree.respellAll ρ (Routine.trees rs) = Routine.trees (Routine.respellAll ρ rs) := by
  match rs with
  | [] => rfl
  | r :: rest =>
    simp only [Routine.trees, Routine.respellAll, Tree.respellAll, Routine.respell_tree r,
      Routine.respellAll_trees rest]

end

theorem Program.respell_tree (p : Program) : p.tree.respell ρ = (p.respell ρ).tree := by
  simp only [Program.tree, Program.respell, Tree.respell, h.routine, Tree.mapText_id,
    Block.respell_tree h]

theorem sameFault_expression (e : Expression) :
    SameFault e.tree.text (e.respell ρ).tree.text := by
  rw [← Expression.respell_tree h]
  exact Tree.sameFault_render false e.tree

end Trees

end PascalStack.Syntax
