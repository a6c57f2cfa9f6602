import Mathlib.Logic.Equiv.Fintype
import PascalStack.Proofs.Analysis.Renaming
import PascalStack.Proofs.Syntax.Identifiers
import PascalStack.Proofs.Tree.Spelling

/-!
# Names do not matter

The names of a parsed tree are no standard routines. A change of names that keeps them apart and
makes none of them a standard routine agrees on them with a renaming of all texts, and the analysis
of a tree with other names follows the analysis of the tree.
-/

namespace PascalStack.Analysis

theorem exists_renaming {names : List String} {g : String → String}
    (apart : ∀ x ∈ names, ∀ y ∈ names, g x = g y → x = y)
    (own : ∀ x ∈ names, Text.lower x ∉ standardNames)
    (other : ∀ x ∈ names, Text.lower (g x) ∉ standardNames) :
    ∃ (σ : String → String) (ρ : Renaming), ρ.toRespelling = { name := σ, routine := σ } ∧
      ∀ x ∈ names, σ x = g x := by
  let before (x : { x // x ∈ names }) : { x // Text.lower x ∉ standardNames } := ⟨x, own x x.2⟩
  let after (x : { x // x ∈ names }) : { x // Text.lower x ∉ standardNames } :=
    ⟨g x, other x x.2⟩
  have before_injective : Function.Injective before := by
    intro x y same
    exact Subtype.ext (congrArg (fun z : { x // Text.lower x ∉ standardNames } => z.1) same)
  have after_injective : Function.Injective after := by
    intro x y same
    have equal : g x = g y :=
      congrArg (fun z : { x // Text.lower x ∉ standardNames } => z.1) same
    exact Subtype.ext (apart x x.2 y y.2 equal)
  have finite : Finite { x // x ∈ names } := (List.finite_toSet names).to_subtype
  obtain ⟨σ, agrees⟩ :=
    Equiv.Perm.exists_extending_pair before after before_injective after_injective
  refine ⟨Equiv.Perm.ofSubtype σ,
    ⟨{ name := Equiv.Perm.ofSubtype σ, routine := Equiv.Perm.ofSubtype σ }, rfl, Equiv.injective _,
      fun x standard => ?_, fun x free => ?_, fun _ => rfl, fun _ => rfl⟩,
    rfl, fun x member => ?_⟩
  · exact Equiv.Perm.ofSubtype_apply_of_not_mem σ (not_not_intro standard)
  · exact (Equiv.Perm.ofSubtype_apply_mem_iff_mem σ x).mpr free
  · rw [Equiv.Perm.ofSubtype_apply_of_mem σ (own x member)]
    exact congrArg Subtype.val (agrees ⟨x, member⟩)

theorem not_standard_of_isName {x : String} (h : Syntax.IsName x) :
    Text.lower x ∉ standardNames := by
  have words : ∀ w ∈ standardNames, ∃ entry ∈ Piece.reservedWords, entry.1 = w.toList := by decide
  intro standard
  obtain ⟨entry, reserved, word⟩ := words _ standard
  refine h.free entry reserved ?_
  rw [word, Text.lower, lowerFrom_ascii fun c member => Piece.ascii_of_inName (h.chars c member),
    String.toList_ofList]

theorem sameKind_of_alike {names : Renaming} {b b' : Analyzer}
    (alike : ErrorsAlike (following names {}) b b') :
    List.Forall₂ SameKind b.errors b'.errors := by
  obtain ⟨found, errors, reworded⟩ := alike
  rw [errors]
  exact reworded.imp fun _ _ h => h.sameKind

/-- A parsed tree and the tree with other names, which stay apart and do not become standard
routines, have the same verdict, or their analyses end with the same fault. The errors that are
found are of the same kinds. -/
theorem names_do_not_matter {line : Nat} {text : String} {tree : Tree}
    (parsed : (Pascal.parse line text).tree = .ok tree) (present : tree ≠ .none)
    {g : String → String} (apart : ∀ x ∈ tree.names, ∀ y ∈ tree.names, g x = g y → x = y)
    (other : ∀ x ∈ tree.names, Text.lower (g x) ∉ standardNames) :
    EndsAlike (fun f f' a a' => f' = f ∧ List.Forall₂ SameKind a.errors a'.errors)
      (fun verdict verdict' => verdict' = verdict)
      (fun a a' => List.Forall₂ SameKind a.errors a'.errors)
      ((analyze tree).run {}) ((analyze (tree.rename g)).run {}) := by
  have own : ∀ x ∈ tree.names, Text.lower x ∉ standardNames := fun x member =>
    not_standard_of_isName (Syntax.isName_of_parsed parsed present x member)
  obtain ⟨σ, ρ, spelling, agrees⟩ := exists_renaming apart own other
  rw [← Tree.rename_congr agrees, Tree.rename, ← spelling]
  rcases analyses_follow ρ settled_fresh tree with
    ⟨b, b', run, run', level, -⟩ | ⟨f, b, b', run, run', errors⟩
  · rw [run, run']
    exact ⟨level.errors.isEmpty_eq, sameKind_of_alike level.errors⟩
  · rw [run, run']
    exact ⟨rfl, sameKind_of_alike errors⟩

def exchange (x : String) : String := if x = "a" then "b" else if x = "b" then "a" else x

/-- A program that declares one name and uses two, with the two exchanged. -/
theorem exchanged_names_do_not_matter :
    ∃ tree, (Pascal.parse 1 "program p; var a: real; begin a := b end.").tree = .ok tree ∧
      tree ≠ .none ∧ tree.names = ["p", "a", "a", "b"] ∧
      EndsAlike (fun f f' a a' => f' = f ∧ List.Forall₂ SameKind a.errors a'.errors)
        (fun verdict verdict' => verdict' = verdict)
        (fun a a' => List.Forall₂ SameKind a.errors a'.errors)
        ((analyze tree).run {}) ((analyze (tree.rename exchange)).run {}) := by
  have found : ((Syntax.parsed? "program p; var a: real; begin a := b end.").any fun tree =>
      tree.names == ["p", "a", "a", "b"]) = true := by decide +kernel
  obtain ⟨tree, parsed, present, own⟩ := Syntax.exists_parsed found
  have names : tree.names = ["p", "a", "a", "b"] := beq_iff_eq.mp own
  refine ⟨tree, parsed, present, names, names_do_not_matter parsed present ?_ ?_⟩
  · rw [names]
    decide
  · rw [names]
    decide +kernel

end PascalStack.Analysis
