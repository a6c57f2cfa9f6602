import PascalStack.Proofs.Syntax.Sources

/-!
# Trees keep the order of the text

Going through a tree in order meets the names, the literals and the signs of binary operations that
the text has, in the order of the text: no rule loses, repeats or moves one of them, whatever lists
it builds at which end.
-/

namespace PascalStack

open List

namespace Tree

mutual

/-- The names, the values of literals and the signs of binary operations of a tree, from left to
right. -/
def inOrder : Tree → List Tree
  | block declarations routines body extra =>
    declarations.inOrder ++ routines.inOrder ++ extra.inOrder ++ body.inOrder
  | functionHeading none result parameters => parameters.inOrder ++ result.inOrder
  | functionHeading name result parameters => name :: parameters.inOrder ++ result.inOrder
  | binaryOp left sign right => left.inOrder ++ sign :: right.inOrder
  | unaryOp _ operand => operand.inOrder
  | forStatement start _ limit body => start.inOrder ++ limit.inOrder ++ body.inOrder
  | literal value _ => [value]
  | header name | identifier name => [name]
  | arrayId name a | procedureCall name a | functionCall name a | procedureHeading name a
  | parameter name a => name :: a.inOrder
  | arrayAssignment name a b => name :: a.inOrder ++ b.inOrder
  | list items | tuple items | statementSequence items => inOrderAll items
  | varDeclarationPart a | idList a | statementPart a | writelnStatement a | readlnStatement a
  | lengthFunction a | marked _ a => a.inOrder
  | program a b | varDeclaration a b | arrayType a b | range a b | assignment a b
  | whileStatement a b | repeatStatement a b | caseStatement a b | caseOption a b
  | procedureDeclaration a b | functionDeclaration a b => a.inOrder ++ b.inOrder
  | ifStatement a b c => a.inOrder ++ b.inOrder ++ c.inOrder
  | none | bool _ | str _ | int _ | real _ | type _ | breakStatement | continueStatement => []

def inOrderAll : List Tree → List Tree
  | [] => []
  | t :: rest => t.inOrder ++ inOrderAll rest

end

theorem inOrderAll_append (ts us : List Tree) :
    inOrderAll (ts ++ us) = inOrderAll ts ++ inOrderAll us := by
  induction ts with
  | nil => rfl
  | cons t ts ih => simp [inOrderAll, ih]

end Tree

namespace Syntax

open Pascal Pascal.Build
open PascalStack.Tree (inOrder inOrderAll inOrderAll_append)

theorem inOrderAll_statementsOf (t : Tree) : inOrderAll t.statementsOf = t.inOrder := by
  rcases statementsOf_cases t with listed | single
  · conv_rhs => rw [listed, inOrder]
  · simp [single, inOrderAll]

theorem inOrder_consStatement (statement t : Tree) :
    (consStatement statement t).inOrder = statement.inOrder ++ t.inOrder := by
  obtain ⟨rest, built, rfl | rfl⟩ := consStatement_cases statement t
  · simp [built, inOrder, inOrderAll]
  · simp [built, inOrder, inOrderAll]

/-- The kinds of the tokens that are met in a tree: names, literals and the signs of binary
operations. -/
def recorded : TokenKind → Bool
  | .ident | .number | .bool | .phrase | .plus | .minus | .times | .divide | .kwDiv | .kwMod
  | .kwAnd | .kwOr | .equals | .different | .lessThan | .lessEqual | .greaterThan
  | .greaterEqual => true
  | _ => false

def metIn : Part → Tree → List Tree
  | .token kind, value => if recorded kind then [value] else []
  | .phrase .logicSign, value | .phrase .productSign, value | .phrase .sumSign, value => [value]
  | .phrase _, value => value.inOrder

def metInAll : List Part → List Tree → List Tree
  | p :: ps, v :: vs => metIn p v ++ metInAll ps vs
  | _, _ => []

def KeepsOrder (rule : Rule) : Prop :=
  ∀ arguments, Forall₂ PartStands rule.parts arguments →
    ∀ value, (rule.build arguments).run.1 = .ok value →
      metIn (.phrase rule.makes) value = metInAll rule.parts arguments

theorem inOrder_typeOf_token {kind : TokenKind} {v : Tree}
    (word : kind ∈ [TokenKind.kwReal, .kwInteger, .kwBoolean, .kwString])
    (h : PartStands (.token kind) v) : (typeOf v).inOrder = [] := by
  simp only [mem_cons, not_mem_nil, or_false] at word
  rcases word with rfl | rfl | rfl | rfl <;>
  · obtain ⟨s, -, rfl⟩ := h
    rfl

theorem keepsOrder_of_mem : ∀ rule ∈ rules.toList, KeepsOrder rule := by
  simp only [rules, forall_mem_cons, KeepsOrder, forall_row_nil, forall_row_cons]
  simp only [not_mem_nil, false_implies, implies_true, and_true, true_and, run_always, run_copy, run_node1, run_node2,
    run_node3, run_node4, run_leaving, run_option, Except.ok.injEq, reduceCtorEq, forall_eq', part,
    getD_cons_zero, getD_cons_succ, metIn, metInAll, recorded, inOrder, inOrderAll,
    inOrderAll_append, inOrderAll_statementsOf, consItem_eq, snocItem_eq, inOrder_consStatement,
    append_nil, nil_append, if_true, if_false, Bool.false_eq_true, append_assoc,
    cons_append]
  -- Left are the rules whose trees depend on what stands in their parts.
  refine ⟨?heading, ?parameters, ?real, ?integer, ?boolean, ?string, ?array, ?choice⟩
  case heading =>
    rintro _ - _ ⟨name, -, rfl⟩ _ - result -
    simp [inOrder, inOrderAll]
  case parameters =>
    rintro _ - _ ⟨name, -, rfl⟩ _ - parameters - _ - _ - result -
    simp [inOrder]
  case real | integer | boolean | string =>
    intro v word
    exact inOrder_typeOf_token (by decide) word
  case array =>
    rintro _ ⟨first, last, element, -, rfl⟩
    rfl
  case choice =>
    rintro _ - subject - _ - options - _ - value built
    rw [run_choice built]
    simp [inOrder, part]

theorem metInAll_of_evaluates {parts : List Part} {tokens : List Token} {values : List Tree}
    (h : Evaluates parts tokens values) (plain : ∀ t ∈ tokens, TokenStands t.kind t.value) :
    metInAll parts values = (tokens.filter fun t => recorded t.kind).map (·.value) := by
  induction h with
  | nil => rfl
  | token t _ ih =>
    rw [forall_mem_cons] at plain
    rw [metInAll, metIn, ih plain.2]
    by_cases isRecorded : recorded t.kind = true <;> simp [isRecorded]
  | @phrase r rule _ _ _ arguments _ value known evaluates built _ own rest =>
    rw [forall_mem_append] at plain
    have stand := stands_of_evaluates evaluates plain.1
    have kept := keepsOrder_of_mem rule (mem_rules known) arguments stand value built
    rw [metInAll, kept, own plain.1, rest plain.2, filter_append, map_append]

/-- The tree of a text of which nothing is complained about has in order the names, literals and
signs of binary operations that the text has. -/
theorem parsed_tree_in_order (line : Nat) (text : String) (tree : Tree)
    (parsed : (parse line text).tree = .ok tree) (present : tree ≠ .none)
    (silent : ¬ Complained (Reading.ofText line text).tokens (parse line text).out) :
    tree.inOrder =
      ((Reading.ofText line text).tokens.filter fun t => recorded t.kind).map (·.value) := by
  have tokens_eq : (Reading.ofText line text).tokens = arriving (Delivery.ofText line text) :=
    tokens_ofDeliveries _ _ _
  rw [tokens_eq] at silent ⊢
  obtain ⟨dropped, suffix, split, evaluates, excuse⟩ := found_of_parsed parsed present
  have whole : dropped = [] := by
    rcases excuse with ⟨none, -⟩ | ⟨_, _, _, _, _, _, complained⟩
    · exact none
    · exact absurd complained silent
  rw [whole, nil_append] at split
  have plain : ∀ t ∈ suffix, TokenStands t.kind t.value := by
    intro t member
    rw [← split] at member
    exact tokenStands_of_arriving (fun _ cutOff _ lexeme => Piece.spells_of_cut cutOff lexeme) member
  have met := metInAll_of_evaluates evaluates plain
  rw [split, ← met]
  simp [metInAll, metIn]

/-- The tree of a function and of conditionals has their names, literals and signs in order. -/
theorem branchInBranch_in_order :
    ∃ tree, (parse 1 branchInBranch).tree = .ok tree ∧ tree ≠ .none ∧
      ¬ Complained (Reading.ofText 1 branchInBranch).tokens (parse 1 branchInBranch).out ∧
      tree.inOrder =
        ((Reading.ofText 1 branchInBranch).tokens.filter fun t => recorded t.kind).map (·.value) := by
  obtain ⟨_, _, _, _, _, _, _, _, _, _, parsed, silent⟩ := branchInBranch_parsed
  have silent : ¬ Complained (Reading.ofText 1 branchInBranch).tokens (parse 1 branchInBranch).out := by
    rw [silent]
    exact not_complained_empty _
  exact ⟨_, parsed, nofun, silent, parsed_tree_in_order 1 _ _ parsed nofun silent⟩

end Syntax

end PascalStack
