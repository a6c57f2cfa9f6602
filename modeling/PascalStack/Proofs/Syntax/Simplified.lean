import PascalStack.Proofs.Syntax.Settled

/-!
# What simplification does to programs

A relation between a phrase and the phrase it becomes, part by part: expressions are folded by the
rules, statements under a condition that was decided are lifted or taken away, and the rest keeps
its shape. Whatever simplification makes of the tree of a program, if it makes something of it, is
the tree of what the program becomes, and it is settled.
-/

namespace PascalStack.Syntax

open Simplify

mutual

def Expression.Becomes : Expression → Expression → Prop
  | .literal l, r => r = .literal l
  | .name x, r => r = .name x
  | .element x index, r => ∃ index', index.Becomes index' ∧ r = .element x index'
  | .call f arguments, r =>
    ∃ arguments', Expression.AllBecome arguments arguments' ∧ r = .call f arguments'
  | .length operand, r => ∃ operand', operand.Becomes operand' ∧ Measures operand' r
  | .negation sign operand, r => ∃ operand', operand.Becomes operand' ∧ Negates sign operand' r
  | .operation left op right, r =>
    ∃ left' right', left.Becomes left' ∧ right.Becomes right' ∧ Reduces left' op right' r

def Expression.AllBecome : List Expression → List Expression → Prop
  | [], r => r = []
  | e :: rest, r => ∃ e' rest', e.Becomes e' ∧ Expression.AllBecome rest rest' ∧ r = e' :: rest'

end

def Variable.Becomes : Variable → Variable → Prop
  | name x, r => r = .name x
  | element x index, r => ∃ index', index.Becomes index' ∧ r = .element x index'

def Declaration.Becomes (d d' : Declaration) : Prop :=
  List.Forall₂ Variable.Becomes d.declared d'.declared ∧ d'.type = d.type

def Assignment.Becomes (a a' : Assignment) : Prop :=
  a.target.Becomes a'.target ∧ a.value.Becomes a'.value

mutual

def Statement.Becomes : Statement → Statement → Prop
  | .compound items, r =>
    ∃ items', Statement.AllBecome items items' ∧ r = .compound (items'.filter Statement.isPresent)
  | .assign a, r => ∃ a', a.Becomes a' ∧ r = .assign a'
  | .conditional condition yes no, r =>
    ∃ condition', condition.Becomes condition' ∧
      if condition'.decides true then yes.Becomes r
      else if condition'.decides false then
        if no.isPresent then no.Becomes r else r = .absent
      else ∃ yes' no', yes.Becomes yes' ∧ no.Becomes no' ∧ r = .conditional condition' yes' no'
  | .whileDo condition body, r =>
    ∃ condition', condition.Becomes condition' ∧
      if condition'.decides false then r = .absent
      else ∃ body', body.Becomes body' ∧ r = .whileDo condition' body'
  | .repeatUntil body condition, r =>
    ∃ body' condition', body.Becomes body' ∧ condition.Becomes condition' ∧
      r = if condition'.decides true then body' else .repeatUntil body' condition'
  | .forDo start direction limit body, r =>
    ∃ start' limit' body', start.Becomes start' ∧ limit.Becomes limit' ∧ body.Becomes body' ∧
      r = .forDo start' direction limit' body'
  | .call f arguments, r =>
    ∃ arguments', Expression.AllBecome arguments arguments' ∧ r = .call f arguments'
  | .writeln arguments, r =>
    ∃ arguments', Expression.AllBecome arguments arguments' ∧ r = .writeln arguments'
  | .readln targets, r =>
    ∃ targets', List.Forall₂ Variable.Becomes targets targets' ∧ r = .readln targets'
  | .empty, r => r = .empty
  | .absent, r => r = .absent
  | .mention x, r => r = .mention x
  | .breakLoop, r => r = .breakLoop
  | .continueLoop, r => r = .continueLoop

def Statement.AllBecome : List Statement → List Statement → Prop
  | [], r => r = []
  | s :: rest, r => ∃ s' rest', s.Becomes s' ∧ Statement.AllBecome rest rest' ∧ r = s' :: rest'

end

def BodyBecomes (items items' : List Statement) : Prop :=
  ∃ all, Statement.AllBecome items all ∧ items' = all.filter Statement.isPresent

def ExtraBecomes : Option (List Declaration) → Option (List Declaration) → Prop
  | none, r => r = none
  | some ds, r => ∃ ds', List.Forall₂ Declaration.Becomes ds ds' ∧ r = some ds'

mutual

def Block.Becomes : Block → Block → Prop
  | .make declarations routines body extra, r =>
    ∃ declarations' routines' body' extra',
      List.Forall₂ Declaration.Becomes declarations declarations' ∧
      Routine.AllBecome routines routines' ∧ BodyBecomes body body' ∧
      ExtraBecomes extra extra' ∧ r = .make declarations' routines' body' extra'

def Routine.Becomes : Routine → Routine → Prop
  | .procedure name parameters block, r =>
    ∃ block', block.Becomes block' ∧ r = .procedure name parameters block'
  | .function name result parameters block, r =>
    ∃ block', block.Becomes block' ∧ r = .function name result parameters block'

def Routine.AllBecome : List Routine → List Routine → Prop
  | [], r => r = []
  | s :: rest, r => ∃ s' rest', s.Becomes s' ∧ Routine.AllBecome rest rest' ∧ r = s' :: rest'

end

def Program.Becomes (p q : Program) : Prop := q.name = p.name ∧ p.block.Becomes q.block

section Gives

variable {α β : Type} {P : α → Prop} {Q : β → Prop}

def Gives (c : Printing α) (P : α → Prop) : Prop := ∀ out a out', c out = .ok a out' → P a

theorem gives_pure {a : α} (h : P a) : Gives (pure a) P := by
  intro out b out' given
  cases given
  exact h

variable {c : Printing α} {k : α → Printing β}

theorem Gives.bind (first : Gives c P) (second : ∀ a, P a → Gives (k a) Q) : Gives (c >>= k) Q := by
  intro out b out' given
  simp only [Bind.bind, EStateM.bind] at given
  split at given
  · rename_i a out₁ run
    exact second a (first out a out₁ run) out₁ b out' given
  · cases given

theorem gives_after (h : ∀ a, Gives (k a) Q) : Gives (c >>= k) Q :=
  Gives.bind (P := fun _ => True) (fun _ _ _ _ => trivial) fun a _ => h a

theorem Gives.imp {c : Printing α} {P' : α → Prop} (h : Gives c P) (imp : ∀ a, P a → P' a) :
    Gives c P' := fun out a out' given => imp a (h out a out' given)

theorem Gives.joined {b : Bool} {c' : Printing α} (first : Gives (if b then c else c') P)
    (second : ∀ a, P a → Gives (k a) Q) : Gives (if b then c >>= k else c' >>= k) Q := by
  cases b with
  | false => exact Gives.bind (c := c') first second
  | true => exact Gives.bind (c := c) first second

theorem gives_ofExcept {x : Except Fault α} (h : ∀ a, x = .ok a → P a) :
    Gives (ofExcept x : Printing α) P := by
  intro out a out' given
  cases x with
  | error f => cases given
  | ok b =>
    cases given
    exact h _ rfl

end Gives

def GivesTree {α : Type} (t : Tree) (tree : α → Tree) (P : α → Prop) : Prop :=
  Gives (simplify t) fun r => ∃ a, tree a = r ∧ P a

def GivesTrees {α : Type} (before : Tree → Printing Unit) (ts : List Tree)
    (trees : List α → List Tree) (P : List α → Prop) (S : α → Prop) : Prop :=
  Gives (simplifyAll before ts) fun r => ∃ as, trees as = r ∧ P as ∧ ∀ a ∈ as, S a

section Trees

variable {α β : Type} {tree : α → Tree} {trees : List α → List Tree} {before : Tree → Printing Unit}
  {P S : α → Prop} {A : List α → Prop} {Q : β → Prop}

theorem Gives.next {c : Printing Tree} {k : Tree → Printing β}
    (first : Gives c fun t => ∃ a, tree a = t ∧ P a ∧ S a)
    (second : ∀ a, P a → S a → Gives (k (tree a)) Q) : Gives (c >>= k) Q := by
  refine first.bind ?_
  rintro _ ⟨a, rfl, own, own'⟩
  exact second a own own'

theorem givesTrees_nil (nil : trees [] = []) (h : A []) : GivesTrees before [] trees A S :=
  gives_pure ⟨[], nil, h, List.forall_mem_nil _⟩

theorem GivesTrees.cons {t : Tree} {ts : List Tree}
    (trees_cons : ∀ a as, trees (a :: as) = tree a :: trees as)
    (first : GivesTree t tree fun a => P a ∧ S a) (rest : GivesTrees before ts trees A S) :
    GivesTrees before (t :: ts) trees (fun r => ∃ a as, P a ∧ A as ∧ r = a :: as) S := by
  rw [GivesTrees, simplifyAll]
  refine gives_after fun _ => first.next fun a own settled => rest.bind ?_
  rintro _ ⟨as, rfl, become, others⟩
  exact gives_pure ⟨a :: as, trees_cons a as, ⟨a, as, own, become, rfl⟩,
    List.forall_mem_cons.mpr ⟨settled, others⟩⟩

theorem GivesTrees.present {xs : List Tree} (h : GivesTrees before xs trees A S) :
    Gives (present (.list xs) (simplifyItems before (.list xs))) fun t =>
      ∃ as, .list (trees as) = t ∧ A as ∧ ∀ a ∈ as, S a := by
  rw [Simplify.present]
  split
  · refine h.bind ?_
    rintro _ ⟨as, rfl, own⟩
    exact gives_pure ⟨as, rfl, own⟩
  · rename_i absent
    cases xs with
    | nil =>
      obtain ⟨as, same, own⟩ := h "" [] "" rfl
      exact gives_pure ⟨as, by rw [same], own⟩
    | cons x xs => exact absurd rfl absent

theorem simplify_list {R : α → α → Prop} (each : ∀ a, GivesTree (tree a) tree fun r => R a r ∧ S r)
    (as : List α) : GivesTrees before (as.map tree) (List.map tree) (List.Forall₂ R as) S := by
  induction as with
  | nil => exact givesTrees_nil rfl .nil
  | cons a rest ih =>
    refine Gives.imp (GivesTrees.cons (fun _ _ => rfl) (each a) ih) ?_
    rintro _ ⟨_, rfl, ⟨a', as, becomes, become, rfl⟩, settled⟩
    exact ⟨a' :: as, rfl, .cons becomes become, settled⟩

end Trees

/-! ## Expressions -/

mutual

theorem simplify_expression (e : Expression) :
    GivesTree e.tree Expression.tree fun r => e.Becomes r ∧ r.Settled := by
  match e with
  | .literal l => exact gives_pure ⟨.literal l, rfl, rfl, .literal l⟩
  | .name x => exact gives_pure ⟨.name x, rfl, rfl, .name x⟩
  | .element x index =>
    exact (simplify_expression index).next fun i becomes settled =>
      gives_pure ⟨.element x i, rfl, ⟨i, becomes, rfl⟩, .element x settled⟩
  | .call f arguments =>
    exact (simplify_expressions silent arguments).present.next fun es become settled =>
      gives_pure ⟨.call f es, rfl, ⟨es, become, rfl⟩, .call f settled⟩
  | .length operand =>
    refine (simplify_expression operand).next fun e becomes settled =>
      gives_ofExcept fun t folded => ?_
    obtain ⟨r, rfl, measures⟩ := measures_of_foldLength folded
    exact ⟨r, rfl, ⟨e, becomes, measures⟩, settled_of_foldLength settled measures folded⟩
  | .negation sign operand =>
    refine (simplify_expression operand).next fun e becomes settled =>
      gives_ofExcept fun t folded => ?_
    obtain ⟨r, rfl, negates⟩ := negates_of_foldUnary folded
    exact ⟨r, rfl, ⟨e, becomes, negates⟩, settled_of_foldUnary settled negates folded⟩
  | .operation left op right =>
    refine (simplify_expression left).next fun a first settled =>
      (simplify_expression right).next fun b second settled' => gives_ofExcept fun t folded => ?_
    obtain ⟨r, rfl, reduces⟩ := reduces_of_foldBinary folded
    exact ⟨r, rfl, ⟨a, b, first, second, reduces⟩,
      settled_of_foldBinary settled settled' reduces folded⟩

theorem simplify_expressions (before : Tree → Printing Unit) (es : List Expression) :
    GivesTrees before (Expression.trees es) Expression.trees (Expression.AllBecome es)
      Expression.Settled := by
  match es with
  | [] => exact givesTrees_nil rfl rfl
  | e :: rest =>
    exact .cons (fun _ _ => rfl) (simplify_expression e) (simplify_expressions before rest)

end

theorem simplify_variable (v : Variable) :
    GivesTree v.tree Variable.tree fun r => v.Becomes r ∧ r.Settled := by
  cases v with
  | name x => exact gives_pure ⟨.name x, rfl, rfl, trivial⟩
  | element x index =>
    exact (simplify_expression index).next fun i becomes settled =>
      gives_pure ⟨.element x i, rfl, ⟨i, becomes, rfl⟩, settled⟩

theorem simplify_declaration (d : Declaration) :
    GivesTree d.tree Declaration.tree fun r => d.Becomes r ∧ r.Settled := by
  refine (simplify_list simplify_variable d.declared).bind ?_
  rintro _ ⟨vs, rfl, become, settled⟩
  rw [simplify_type]
  exact gives_pure ⟨⟨vs, d.type⟩, rfl, ⟨become, rfl⟩, settled⟩

theorem simplify_section (ds : List Declaration) :
    GivesTree (sectionTree ds) sectionTree fun ds' =>
      List.Forall₂ Declaration.Becomes ds ds' ∧ ∀ d ∈ ds', d.Settled :=
  (simplify_list simplify_declaration ds).present.next fun ds' become settled =>
    gives_pure ⟨ds', rfl, become, settled⟩

theorem simplify_assignment (a : Assignment) :
    GivesTree a.tree Assignment.tree fun r => a.Becomes r ∧ r.Settled := by
  obtain ⟨target, value⟩ := a
  cases target with
  | name x =>
    rw [GivesTree, Assignment.tree, simplify]
    refine (gives_pure (P := (· = .identifier (.str x))) rfl).bind ?_
    rintro _ rfl
    exact (simplify_expression value).next fun e becomes settled =>
      gives_pure ⟨⟨.name x, e⟩, rfl, ⟨rfl, becomes⟩, trivial, settled⟩
  | element x index =>
    rw [GivesTree, Assignment.tree, simplify]
    refine (gives_pure (P := (· = .str x)) rfl).bind ?_
    rintro _ rfl
    exact (simplify_expression index).next fun i first settled =>
      (simplify_expression value).next fun e second settled' =>
        gives_pure ⟨⟨.element x i, e⟩, rfl, ⟨⟨i, first, rfl⟩, second⟩, settled, settled'⟩

theorem simplify_body {ss : List Statement}
    (h : GivesTrees silent (Statement.trees ss) Statement.trees (Statement.AllBecome ss)
      Statement.Settled) :
    GivesTree (bodyTree ss) bodyTree fun ss' =>
      BodyBecomes ss ss' ∧ Stays (bodyTree ss') (Statement.allOutputs ss') := by
  have sequence : GivesTree (.statementSequence (Statement.trees ss))
      (fun ss => .statementSequence (Statement.trees ss)) fun ss' =>
        BodyBecomes ss ss' ∧ Stays (bodyTree ss') (Statement.allOutputs ss') := by
    refine h.bind ?_
    rintro _ ⟨ss', rfl, become, settled⟩
    refine gives_pure ⟨ss'.filter Statement.isPresent, by rw [filter_trees], ⟨ss', become, rfl⟩,
      stays_body (fun s member => ?_) fun s member => settled s (List.mem_filter.mp member).1⟩
    exact (List.mem_filter.mp member).2
  exact sequence.next fun ss' becomes stays => gives_pure ⟨ss', rfl, becomes, stays⟩

theorem simplify_branch {s : Statement}
    (h : GivesTree s.tree Statement.tree fun r => s.Becomes r ∧ r.Settled) :
    Gives (if s.tree.truthy then simplify s.tree else pure s.tree) fun r =>
      ∃ s', Statement.tree s' = r ∧ s.Becomes s' ∧ s'.Settled := by
  split
  · exact h
  · rename_i falsy
    rw [truthy_tree] at falsy
    refine gives_pure ⟨s, rfl, ?_⟩
    cases s <;> simp [Statement.isPresent] at falsy <;> exact ⟨rfl, rfl⟩

mutual

theorem simplify_statement (s : Statement) :
    GivesTree s.tree Statement.tree fun r => s.Becomes r ∧ r.Settled := by
  match s with
  | .empty => exact gives_pure ⟨.empty, rfl, rfl, rfl⟩
  | .absent => exact gives_pure ⟨.absent, rfl, rfl, rfl⟩
  | .compound items =>
    refine (simplify_body (simplify_statements items)).imp ?_
    rintro _ ⟨_, rfl, ⟨all, become, rfl⟩, settled⟩
    exact ⟨.compound (all.filter Statement.isPresent), rfl, ⟨all, become, rfl⟩, settled⟩
  | .assign a =>
    refine (simplify_assignment a).imp ?_
    rintro _ ⟨a', rfl, becomes, settled⟩
    exact ⟨.assign a', rfl, ⟨a', becomes, rfl⟩, stays_of_pure settled.simplify_eq⟩
  | .conditional condition yes no =>
    refine (simplify_expression condition).next fun c becomes settled => ?_
    simp only [decides, isTruth_tree, truthy_tree]
    have branches (r : Statement) : (Statement.conditional condition yes no).Becomes r ↔
        ∃ c, condition.Becomes c ∧
          if c.decides true then yes.Becomes r
          else if c.decides false then if no.isPresent then no.Becomes r else r = .absent
          else ∃ yes' no', yes.Becomes yes' ∧ no.Becomes no' ∧ r = .conditional c yes' no' :=
      Iff.rfl
    simp only [branches]
    split
    · rename_i true_
      refine (simplify_statement yes).imp ?_
      rintro _ ⟨r, rfl, lifted, own⟩
      exact ⟨r, rfl, ⟨c, becomes, by simpa [true_] using lifted⟩, own⟩
    · rename_i not_true
      split
      · rename_i false_
        split
        · rename_i there
          refine (simplify_statement no).imp ?_
          rintro _ ⟨r, rfl, lifted, own⟩
          exact ⟨r, rfl, ⟨c, becomes, by simpa [not_true, false_, there] using lifted⟩, own⟩
        · rename_i missing
          exact gives_pure ⟨.absent, rfl, ⟨c, becomes, by simp [not_true, false_]⟩, rfl⟩
      · rename_i not_false
        refine (simplify_statement yes).next fun yes' first own => ?_
        have branch := simplify_branch (simplify_statement no)
        simp only [truthy_tree] at branch
        refine branch.joined ?_
        rintro _ ⟨no', rfl, second, own'⟩
        refine gives_pure ⟨.conditional c yes' no', rfl, ⟨c, becomes, ?_⟩,
          settled_conditional settled (by simpa using not_true) (by simpa using not_false) own own'⟩
        simp only [not_true, not_false, if_false, Bool.false_eq_true]
        exact ⟨yes', no', first, second, rfl⟩
  | .whileDo condition body =>
    refine (simplify_expression condition).next fun c becomes settled => ?_
    simp only [decides, isTruth_tree]
    have loop (r : Statement) : (Statement.whileDo condition body).Becomes r ↔
        ∃ c, condition.Becomes c ∧
          if c.decides false then r = .absent
          else ∃ body', body.Becomes body' ∧ r = .whileDo c body' := Iff.rfl
    simp only [loop]
    split
    · rename_i false_
      exact gives_pure ⟨.absent, rfl, ⟨c, becomes, by simp [false_]⟩, rfl⟩
    · rename_i not_false
      exact (simplify_statement body).next fun s inside own =>
        gives_pure ⟨.whileDo c s, rfl, ⟨c, becomes, by simpa [not_false] using inside⟩,
          settled_whileDo settled (by simpa using not_false) own⟩
  | .repeatUntil body condition =>
    refine (simplify_statement body).next fun s inside own =>
      (simplify_expression condition).next fun c becomes settled => ?_
    simp only [decides, isTruth_tree]
    refine gives_pure ⟨if c.decides true then s else .repeatUntil s c, ?_,
      ⟨s, c, inside, becomes, rfl⟩, ?_⟩
    · split <;> rfl
    · split
      · exact own
      · rename_i undecided
        exact settled_repeatUntil own settled (by simpa using undecided)
  | .forDo start direction limit body =>
    exact (simplify_assignment start).next fun a first start' =>
      (simplify_expression limit).next fun e second limit' =>
        (simplify_statement body).next fun s inside own =>
          gives_pure ⟨.forDo a direction e s, rfl, ⟨a, e, s, first, second, inside, rfl⟩,
            settled_forDo direction start' limit' own⟩
  | .call f arguments =>
    exact (simplify_expressions silent arguments).present.next fun es become settled =>
      gives_pure ⟨.call f es, rfl, ⟨es, become, rfl⟩, settled_call f settled⟩
  | .mention x => exact gives_pure ⟨.mention x, rfl, rfl, rfl⟩
  | .writeln arguments =>
    exact (simplify_expressions announce arguments).present.next fun es become settled =>
      gives_pure ⟨.writeln es, rfl, ⟨es, become, rfl⟩, settled_writeln settled⟩
  | .readln targets =>
    exact (simplify_list simplify_variable targets).present.next fun vs become settled =>
      gives_pure ⟨.readln vs, rfl, ⟨vs, become, rfl⟩, settled_readln settled⟩
  | .breakLoop => exact gives_pure ⟨.breakLoop, rfl, rfl, rfl⟩
  | .continueLoop => exact gives_pure ⟨.continueLoop, rfl, rfl, rfl⟩

theorem simplify_statements (ss : List Statement) :
    GivesTrees silent (Statement.trees ss) Statement.trees (Statement.AllBecome ss)
      Statement.Settled := by
  match ss with
  | [] => exact givesTrees_nil rfl rfl
  | s :: rest => exact .cons (fun _ _ => rfl) (simplify_statement s) (simplify_statements rest)

end

theorem simplify_extra (extra : Option (List Declaration)) :
    Gives (if (extraTree extra).truthy then simplify (extraTree extra) else pure (extraTree extra))
      fun t => ∃ extra', extraTree extra' = t ∧ ExtraBecomes extra extra' ∧
        simplify (extraTree extra') = pure (extraTree extra') := by
  cases extra with
  | none => exact gives_pure ⟨none, rfl, rfl, rfl⟩
  | some ds =>
    refine (simplify_section ds).imp ?_
    rintro _ ⟨ds', rfl, become, settled⟩
    exact ⟨some ds', rfl, ⟨ds', become, rfl⟩, simplify_section_same settled⟩

mutual

theorem simplify_block (b : Block) :
    GivesTree b.tree Block.tree fun r => b.Becomes r ∧ Stays r.tree r.outputs := by
  match b with
  | .make declarations routines body extra =>
    refine (simplify_section declarations).next fun ds first declared =>
      (simplify_routines routines).present.next fun rs second settled => ?_
    refine (simplify_extra extra).joined ?_
    rintro _ ⟨extra', rfl, third, same⟩
    exact (simplify_body (simplify_statements body)).next fun ss fourth stays =>
      gives_pure ⟨.make ds rs ss extra', rfl,
        ⟨ds, rs, ss, extra', first, second, fourth, third, rfl⟩,
        stays_block declared settled stays same⟩

theorem simplify_routine (r : Routine) :
    GivesTree r.tree Routine.tree fun s => r.Becomes s ∧ Stays s.tree s.outputs := by
  match r with
  | .procedure name parameters block =>
    rw [GivesTree, Routine.tree, simplify, simplify_procedureHeading, pure_bind]
    exact (simplify_block block).next fun b becomes stays =>
      gives_pure ⟨.procedure name parameters b, rfl, ⟨b, becomes, rfl⟩,
        stays_procedure name parameters stays⟩
  | .function name result parameters block =>
    rw [GivesTree, Routine.tree, simplify, simplify_functionHeading, pure_bind]
    exact (simplify_block block).next fun b becomes stays =>
      gives_pure ⟨.function name result parameters b, rfl, ⟨b, becomes, rfl⟩,
        stays_function name result parameters stays⟩

theorem simplify_routines (rs : List Routine) :
    GivesTrees silent (Routine.trees rs) Routine.trees (Routine.AllBecome rs) fun r =>
      Stays r.tree r.outputs := by
  match rs with
  | [] => exact givesTrees_nil rfl rfl
  | r :: rest => exact .cons (fun _ _ => rfl) (simplify_routine r) (simplify_routines rest)

end

theorem simplify_program (p : Program) :
    GivesTree p.tree Program.tree fun q => p.Becomes q ∧ Stays q.tree q.block.outputs := by
  have header : simplify (.header (.str p.name)) = pure (.header (.str p.name)) := rfl
  rw [GivesTree, Program.tree, simplify, header, pure_bind]
  exact (simplify_block p.block).next fun b becomes stays =>
    gives_pure ⟨⟨p.name, b⟩, rfl, ⟨rfl, becomes⟩, stays_program p.name stays⟩

end PascalStack.Syntax
