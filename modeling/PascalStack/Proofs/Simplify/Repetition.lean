import PascalStack.Proofs.Syntax.Simplified

/-!
# Simplification of what was simplified

A program that was simplified is settled: simplifying it again changes nothing. But the arguments of
its output statements are printed on the way, and one that was folded to a whole number with too
many digits cannot be. So the second time comes to an end exactly if all of them have a text.
-/

namespace PascalStack.Syntax

open Simplify

variable {t : Tree} {text : String} {e r : Expression} {n : Int}

theorem announce_run (written : t.text = .ok text) (printed : String) :
    announce t printed = .ok () (printed ++ s!"PARAM\n:{text}\nEND\n") := by
  rw [announce, written]
  rfl

theorem announce_fault {f : Fault} (unwritten : t.text = .error f) (printed : String) :
    announce t printed = .error f printed := by
  rw [announce, unwritten]
  rfl

theorem announceAll_run (es : List Expression) (printed : String) :
    (∀ e ∈ es, ∃ text, e.tree.text = .ok text) ∧
        (∃ printed', announceAll es printed = .ok () printed') ∨
      ∃ e ∈ es, ∃ f printed', e.tree.text = .error f ∧
        announceAll es printed = .error f printed' := by
  induction es generalizing printed with
  | nil => exact .inl ⟨List.forall_mem_nil _, printed, rfl⟩
  | cons e es ih =>
    have unfold : announceAll (e :: es) = (do announce e.tree; announceAll es) := List.forM_cons
    cases text : e.tree.text with
    | error f =>
      refine .inr ⟨e, List.mem_cons_self, f, printed, text, ?_⟩
      simp only [unfold, Bind.bind, EStateM.bind, announce_fault text]
    | ok written =>
      have first (c : Printing Unit) : (do announce e.tree; c) printed =
          c (printed ++ s!"PARAM\n:{written}\nEND\n") := by
        simp only [Bind.bind, EStateM.bind, announce_run text]
      rw [unfold, first]
      rcases ih (printed ++ s!"PARAM\n:{written}\nEND\n") with ⟨all, run⟩ | ⟨e', member, fault⟩
      · exact .inl ⟨List.forall_mem_cons.mpr ⟨⟨written, text⟩, all⟩, run⟩
      · exact .inr ⟨e', List.mem_cons_of_mem _ member, fault⟩

/-- A program that was simplified is the tree of a program, and simplifying it again gives it back
if the arguments of its output statements have texts; otherwise it ends with the fault of the one
that has none. -/
theorem simplified_program_stays (p : Program) {printed printed' : String} {t : Tree}
    (given : simplify p.tree printed = .ok t printed') :
    ∃ q : Program, q.tree = t ∧ ∀ out : String,
      (∀ e ∈ q.block.outputs, ∃ text, e.tree.text = .ok text) ∧
          (∃ out', simplify t out = .ok t out') ∨
        ∃ e ∈ q.block.outputs, ∃ f out', e.tree.text = .error f ∧
          simplify t out = .error f out' := by
  obtain ⟨q, rfl, -, stays⟩ := simplify_program p printed t printed' given
  refine ⟨q, rfl, fun out => ?_⟩
  have again : simplify q.tree = do announceAll q.block.outputs; return q.tree := stays
  simp only [again, Bind.bind, EStateM.bind]
  rcases announceAll_run q.block.outputs out with ⟨all, out', run⟩ | ⟨e, member, f, out', text, run⟩
  · refine .inl ⟨all, out', ?_⟩
    rw [run]
    rfl
  · refine .inr ⟨e, member, f, out', text, ?_⟩
    rw [run]

def writesOne (e : Expression) : Program := ⟨"p", .make [] [] [.writeln [e]] none⟩

theorem simplify_writesOne (folded : simplify e.tree = pure r.tree) :
    simplify (writesOne e).tree = do announce e.tree; return (writesOne r).tree := by
  have arguments : simplify (Statement.writeln [e]).tree =
      (do announce e.tree; return (Statement.writeln [r]).tree) := by
    simp only [Statement.tree, Expression.trees, simplify, present_list, simplifyAll, folded,
      bind_assoc, pure_bind]
  have body : simplify (bodyTree [.writeln [e]]) =
      (do announce e.tree; return bodyTree [.writeln [r]]) := by
    simp only [bodyTree, Statement.trees, simplify, simplifyAll, arguments, silent, bind_assoc,
      pure_bind]
    rfl
  have declarations : simplify (sectionTree []) = pure (sectionTree []) := rfl
  have absent : simplify (extraTree none) = pure (extraTree none) := rfl
  simp only [writesOne, Program.tree, Block.tree, Routine.trees, simplify, declarations, absent, body,
    present_list, simplifyAll, ite_self, bind_assoc, pure_bind]

theorem writesOne_run (written : e.tree.text = .ok text) (folded : simplify e.tree = pure r.tree) :
    ∃ printed', simplify (writesOne e).tree "" = .ok (writesOne r).tree printed' := by
  refine ⟨"" ++ s!"PARAM\n:{text}\nEND\n", ?_⟩
  simp only [simplify_writesOne folded, Bind.bind, EStateM.bind, announce_run written]
  rfl

theorem text_numeral (short : n.natAbs < Number.tenTo Fault.digitLimit) :
    ∃ text, (Expression.numeral n).tree.render false = .ok text := by
  have number : Number.integerText n = .ok (toString n) := if_pos short
  exact ⟨_, by
    simp only [Expression.numeral, Expression.tree, Literal.tree, Literal.value, Tree.render, number]
    rfl⟩

theorem text_operation {m : Int} (op : String) (first : m.natAbs < Number.tenTo Fault.digitLimit)
    (second : n.natAbs < Number.tenTo Fault.digitLimit) :
    ∃ text, (Expression.operation (.numeral m) op (.numeral n)).tree.text = .ok text := by
  obtain ⟨text, written⟩ := text_numeral first
  obtain ⟨text', written'⟩ := text_numeral second
  exact ⟨_, by rw [Tree.text, Expression.tree, Tree.render, written, written']; rfl⟩

/-- A sum that is folded and written stays as it is the second time. -/
theorem writesSum_stays :
    let sum : Expression := .operation (.numeral 1) "+" (.numeral 2)
    ∃ t printed', simplify (writesOne sum).tree "" = .ok t printed' ∧
      ∃ q : Program, q.tree = t ∧ ∀ out : String,
        (∀ e ∈ q.block.outputs, ∃ text, e.tree.text = .ok text) ∧
            (∃ out', simplify t out = .ok t out') ∨
          ∃ e ∈ q.block.outputs, ∃ f out', e.tree.text = .error f ∧
            simplify t out = .error f out' := by
  intro sum
  obtain ⟨text, written⟩ := text_operation "+" (m := 1) (n := 2) (by decide +kernel)
    (by decide +kernel)
  have folded : simplify sum.tree = pure (Expression.numeral 3).tree := rfl
  obtain ⟨printed', given⟩ := writesOne_run written folded
  exact ⟨_, printed', given, simplified_program_stays (writesOne sum) given⟩

/-- Two whole numbers that can be written, and whose product has too many digits. The program that
writes the product can be simplified, and the program that comes out cannot. -/
theorem writesProduct_simplified_once :
    let factor : Int := Number.tenTo 2150
    let product : Expression := .operation (.numeral factor) "*" (.numeral factor)
    ∃ t printed', simplify (writesOne product).tree "" = .ok t printed' ∧
      simplify t "" = .error .integerTooLong "" := by
  intro factor product
  have short : factor.natAbs < Number.tenTo Fault.digitLimit := by decide +kernel
  have long : ¬ (factor * factor).natAbs < Number.tenTo Fault.digitLimit := by decide +kernel
  obtain ⟨text, written⟩ := text_operation "*" short short
  have folded : simplify product.tree = pure (Expression.numeral (factor * factor)).tree := rfl
  have stays : simplify (Expression.numeral (factor * factor)).tree =
    pure (Expression.numeral (factor * factor)).tree := rfl
  have unwritten : (Expression.numeral (factor * factor)).tree.text = .error .integerTooLong := by
    have number : Number.integerText (factor * factor) = .error .integerTooLong := if_neg long
    simp only [Expression.numeral, Expression.tree, Literal.tree, Literal.value, Tree.text,
      Tree.render, number]
    rfl
  obtain ⟨printed', given⟩ := writesOne_run written folded
  refine ⟨_, printed', given, ?_⟩
  simp only [simplify_writesOne stays, Bind.bind, EStateM.bind, announce_fault unwritten]

end PascalStack.Syntax
