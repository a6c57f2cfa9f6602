import PascalStack.Proofs.Pascal.Endings
import PascalStack.Proofs.Syntax.Order

/-!
# Trees of source texts can be written

Whole numbers with too many digits cannot be written, but they cannot be read either. So whatever
literals the tree of a text has, every expression in it has a text.
-/

namespace PascalStack

open Pascal

def Tree.Legible (t : Tree) : Prop := ∀ v ∈ t.inOrder, ∃ text, v.text = .ok text

namespace Syntax

theorem legible_of_parsed {line : Nat} {text : String} {tree : Tree}
    (parsed : (parse line text).tree = .ok tree) (present : tree ≠ .none) : tree.Legible := by
  obtain ⟨dropped, suffix, tokens, evaluates, -⟩ := found_of_parsed parsed present
  have arrives {t : Token} (member : t ∈ suffix) : t ∈ arriving (Delivery.ofText line text) := by
    rw [tokens]
    exact List.mem_append_right dropped member
  have met := metInAll_of_evaluates evaluates fun t member =>
    tokenStands_of_arriving (fun _ cutOff _ lexeme => Piece.spells_of_cut cutOff lexeme)
      (arrives member)
  simp only [metInAll, metIn, List.append_nil] at met
  intro v member
  rw [met] at member
  obtain ⟨t, recorded, rfl⟩ := List.mem_map.mp member
  obtain ⟨_, -, -, value⟩ := piece_of_arriving (arrives (List.mem_filter.mp recorded).1)
  exact text_of_valueOf value

mutual

theorem Expression.render_ok (e : Expression) (legible : e.tree.Legible) (quoting : Bool) :
    ∃ text, e.tree.render quoting = .ok text := by
  match e with
  | .literal l =>
    obtain ⟨text, written⟩ := legible l.value (List.mem_singleton_self _)
    rw [Tree.text] at written
    exact ⟨_, by rw [Expression.tree, Literal.tree, Tree.render, written]; rfl⟩
  | .name x => exact ⟨_, rfl⟩
  | .element x index =>
    obtain ⟨text, written⟩ := index.render_ok (List.forall_mem_cons.mp legible).2 false
    exact ⟨_, by rw [Expression.tree, Tree.render, written]; rfl⟩
  | .call f arguments =>
    obtain ⟨texts, written⟩ := Expression.renderAll_ok arguments (List.forall_mem_cons.mp legible).2
    exact ⟨_, by simp only [Expression.tree, Tree.render, written]; rfl⟩
  | .length operand | .negation _ operand =>
    obtain ⟨text, written⟩ := operand.render_ok legible false
    exact ⟨_, by rw [Expression.tree, Tree.render, written]; rfl⟩
  | .operation left op right =>
    obtain ⟨first, second⟩ := List.forall_mem_append.mp legible
    obtain ⟨text, written⟩ := left.render_ok first false
    obtain ⟨text', written'⟩ := right.render_ok (List.forall_mem_cons.mp second).2 false
    exact ⟨_, by rw [Expression.tree, Tree.render, written, written']; rfl⟩

theorem Expression.renderAll_ok (es : List Expression)
    (legible : (Tree.list (Expression.trees es)).Legible) :
    ∃ texts, Tree.renderAll (Expression.trees es) = .ok texts := by
  match es with
  | [] => exact ⟨[], rfl⟩
  | e :: rest =>
    obtain ⟨first, others⟩ := List.forall_mem_append.mp legible
    obtain ⟨text, written⟩ := e.render_ok first true
    obtain ⟨texts, written'⟩ := Expression.renderAll_ok rest others
    exact ⟨_, by rw [Expression.trees, Tree.renderAll, written, written']; rfl⟩

end

end Syntax

end PascalStack
