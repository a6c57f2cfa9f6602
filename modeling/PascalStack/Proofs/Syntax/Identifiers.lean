import PascalStack.Proofs.Syntax.Sources
import PascalStack.Proofs.Token.Names
import PascalStack.Proofs.Tree.Renaming

/-!
# The names in the tree of a text

The names of a tree come from tokens that are names, whatever rules have built it. So they are made
of letters, digits and underscores, and none of them has a reserved word at its front.
-/

namespace PascalStack.Syntax

open Pascal Pascal.Build List
open PascalStack.Tree (names namesAll namesAll_append spelling)

theorem namesAll_statementsOf (t : Tree) : namesAll t.statementsOf = t.names := by
  rcases statementsOf_cases t with listed | single
  · conv_rhs => rw [listed, names]
  · rw [single, namesAll, namesAll, append_nil]

theorem names_consStatement (statement t : Tree) :
    (consStatement statement t).names = statement.names ++ t.names := by
  obtain ⟨rest, built, rfl | rfl⟩ := consStatement_cases statement t
  · rw [built, names, names, namesAll]
  · rw [built, names, namesAll, namesAll, namesAll, append_nil]

theorem names_typeOf {P : String → Prop} {t : Tree} (h : ∀ x ∈ t.names, P x) :
    ∀ x ∈ (typeOf t).names, P x := by
  rw [typeOf]
  split
  · exact h
  · exact forall_mem_nil _

variable {P : String → Prop}

/-- The names in the value of a part of a rule all are of one kind, and so is the part itself if it is
a name. -/
def PartNamed (P : String → Prop) : Part → Tree → Prop
  | .token kind, value => (∀ x ∈ value.names, P x) ∧ (kind = .ident → ∀ x ∈ value.spelling, P x)
  | .phrase _, value => ∀ x ∈ value.names, P x

def KeepsNames (P : String → Prop) (rule : Rule) : Prop :=
  ∀ arguments, Forall₂ (PartNamed P) rule.parts arguments →
    ∀ value, (rule.build arguments).run.1 = .ok value → ∀ x ∈ value.names, P x

theorem keepsNames_of_mem : ∀ rule ∈ rules.toList, KeepsNames P rule := by
  simp only [rules, forall_mem_cons, not_mem_nil, false_implies, implies_true, and_true,
    true_and, KeepsNames, forall_row_nil, forall_row_cons, run_always, run_copy, run_node1, run_node2,
    run_node3, run_node4, run_leaving, run_option, Except.ok.injEq, reduceCtorEq, forall_eq', part,
    getD_cons_zero, getD_cons_succ, PartNamed, names, namesAll, namesAll_append,
    namesAll_statementsOf, consItem_eq, snocItem_eq, names_consStatement,
    append_nil, forall_mem_append, forall_const, and_imp]
  simp +contextual only [implies_true, and_self, true_and, and_true, spelling, not_mem_nil,
    false_implies]
  -- Left are the rules whose trees depend on what stands in their parts.
  refine ⟨?real, ?integer, ?boolean, ?string, ?array, ?choice⟩
  case real | integer | boolean | string | array => exact fun _ => names_typeOf
  case choice =>
    intro _ _ subject first _ _ options second _ _ value built
    rw [run_choice built]
    simp only [names, part, getD_cons_succ, getD_cons_zero, forall_mem_append]
    exact ⟨first, second⟩

theorem named_of_evaluates {parts : List Part} {tokens : List Token} {values : List Tree}
    (h : Evaluates parts tokens values)
    (named : ∀ t ∈ tokens, PartNamed P (.token t.kind) t.value) :
    Forall₂ (PartNamed P) parts values := by
  induction h with
  | nil => exact .nil
  | token t _ ih =>
    rw [forall_mem_cons] at named
    exact .cons named.1 (ih named.2)
  | phrase known _ built _ own rest =>
    rw [forall_mem_append] at named
    exact .cons (keepsNames_of_mem _ (mem_rules known) _ (own named.1) _ built) (rest named.2)

def IsName (x : String) : Prop := Piece.IsName x.toList

theorem names_of_tokenValue {kind : TokenKind} {v : Tree} (h : TokenValue kind v) : v.names = [] := by
  cases kind with
  | number =>
    rcases h with ⟨n, rfl⟩ | ⟨x, rfl⟩ <;> rfl
  | _ =>
    obtain ⟨_, rfl⟩ := h
    rfl

theorem partNamed_of_arriving {line offset : Nat} {report : String} {pieces : List Piece}
    (names : ∀ p ∈ pieces, p.kind = .lexeme .ident → Piece.IsName p.text) {t : Token}
    (member : t ∈ arriving (Delivery.ofPieces line offset report pieces)) :
    PartNamed IsName (.token t.kind) t.value := by
  obtain ⟨p, inside, kind, value⟩ := piece_of_arriving member
  refine ⟨?_, fun ident => ?_⟩
  · rw [names_of_tokenValue (tokenValue_of_valueOf value)]
    exact forall_mem_nil _
  · rw [ident] at kind value
    rw [← Except.ok.inj value]
    simp only [spelling, mem_singleton, forall_eq, IsName, String.toList_ofList]
    exact names p inside kind

theorem isName_of_parsed {line : Nat} {text : String} {tree : Tree}
    (parsed : (parse line text).tree = .ok tree) (present : tree ≠ .none) :
    ∀ x ∈ tree.names, IsName x := by
  obtain ⟨dropped, suffix, tokens, evaluates, -⟩ := found_of_parsed parsed present
  have named : ∀ t ∈ suffix, PartNamed IsName (.token t.kind) t.value := by
    intro t member
    have arrives : t ∈ arriving (Delivery.ofText line text) := by
      rw [tokens]
      exact mem_append_right dropped member
    exact partNamed_of_arriving (fun _ => Piece.isName_of_cut) arrives
  cases named_of_evaluates evaluates named with
  | cons own _ => exact own

end PascalStack.Syntax
