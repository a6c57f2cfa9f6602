import Mathlib.Data.List.Chain
import PascalStack.Proofs.Pascal.Endings
import PascalStack.Proofs.Syntax.Sources

/-!
# An else belongs to the nearest conditional

The rules leave open which of two nested conditionals an `else` belongs to. The table shifts the
`else` wherever a conditional without an else branch could be reduced, so no statement that is open
stands before an `else` on the stack, and no conditional with an else branch has a then branch that
is open.
-/

namespace PascalStack

open List

namespace Tree

def children : Tree → List Tree
  | list items | tuple items => items
  | marked _ t => [t]
  | t => t.parts

def Within : Tree → Tree → Prop := Relation.ReflTransGen fun s t => s ∈ t.children

/-- A statement that an `else` could go on with: a conditional without an else branch, or a
conditional or loop that ends with a statement that is open. -/
def isOpen : Tree → Bool
  | ifStatement _ _ none => true
  | ifStatement _ _ elseBranch => elseBranch.isOpen
  | whileStatement _ body | forStatement _ _ _ body => body.isOpen
  | _ => false

def Nearest (t : Tree) : Prop :=
  ∀ condition thenBranch elseBranch, Within (ifStatement condition thenBranch elseBranch) t →
    elseBranch ≠ none → thenBranch.isOpen = false

@[reducible] def isConditional : Tree → Bool
  | ifStatement .. => true
  | _ => false

variable {s t : Tree}

theorem Within.of_child {u : Tree} (child : t ∈ u.children) (h : Within s t) : Within s u :=
  h.tail child

theorem within_iff : Within s t ↔ t = s ∨ ∃ u ∈ t.children, Within s u := by
  rw [Within, Relation.ReflTransGen.cases_tail_iff]
  simp only [and_comm]

theorem nearest_iff :
    t.Nearest ↔
      (∀ condition thenBranch elseBranch, t = ifStatement condition thenBranch elseBranch →
        elseBranch ≠ none → thenBranch.isOpen = false) ∧
      ∀ u ∈ t.children, u.Nearest := by
  constructor
  · intro h
    refine ⟨fun c y n same => h c y n (within_iff.mpr (.inl same)), fun u child c y n inside => ?_⟩
    exact h c y n (within_iff.mpr (.inr ⟨u, child, inside⟩))
  · rintro ⟨own, below⟩ c y n inside
    rcases within_iff.mp inside with same | ⟨u, child, inside⟩
    · exact own c y n same
    · exact below u child c y n inside

theorem nearest_of_plain (plain : t.isConditional = false) :
    t.Nearest ↔ ∀ u ∈ t.children, u.Nearest := by
  rw [nearest_iff, and_iff_right]
  rintro c y n rfl
  cases plain

theorem nearest_ifStatement {c y n : Tree} :
    (ifStatement c y n).Nearest ↔
      (n ≠ none → y.isOpen = false) ∧ c.Nearest ∧ y.Nearest ∧ n.Nearest := by
  rw [nearest_iff]
  simp [children, parts]

theorem nearest_list {items : List Tree} :
    (list items).Nearest ↔ ∀ item ∈ items, item.Nearest :=
  nearest_of_plain rfl

end Tree

namespace Syntax

open LR Pascal Pascal.Build
open PascalStack.Tree (Within children isOpen nearest_ifStatement nearest_list nearest_of_plain
  parts)

variable {t value : Tree} {n : Phrase} {parts : List Part} {i : Nat} {p : Part} {rule : Rule}
  {stack frames : List (Frame TokenKind Phrase Tree)} {rest : List Token}

theorem nearest_statementsOf : (∀ u ∈ t.statementsOf, u.Nearest) ↔ t.Nearest := by
  rcases statementsOf_cases t with listed | single
  · conv_rhs => rw [listed, nearest_list]
  · rw [single, forall_mem_singleton]

theorem nearest_consStatement {statement : Tree} :
    (consStatement statement t).Nearest ↔ statement.Nearest ∧ t.Nearest := by
  obtain ⟨rest, built, rfl | rfl⟩ := consStatement_cases statement t
  all_goals simp (disch := rfl) [built, nearest_of_plain, children, parts]

theorem nearest_typeOf : (typeOf t).Nearest ↔ t.Nearest := by
  unfold typeOf
  split
  · rfl
  · simp (disch := rfl) [nearest_of_plain, children, parts]

theorem consStatement_closed (statement t : Tree) :
    consStatement statement t ≠ .none ∧ (consStatement statement t).isOpen = false := by
  obtain ⟨rest, built, -⟩ := consStatement_cases statement t
  rw [built]
  exact ⟨nofun, rfl⟩

def mayBeOpen : LR.Symbol TokenKind Phrase → Bool
  | .nonterminal .statement | .nonterminal .ifStatement | .nonterminal .whileStatement
  | .nonterminal .forStatement => true
  | _ => false

structure Fits (X : LR.Symbol TokenKind Phrase) (value : Tree) : Prop where
  present : value ≠ .none
  nearest : value.Nearest
  mayBeOpen : value.isOpen = true → mayBeOpen X = true

theorem fits_iff {X : LR.Symbol TokenKind Phrase} :
    Fits X value ↔
      value ≠ .none ∧ value.Nearest ∧ (value.isOpen = true → mayBeOpen X = true) :=
  ⟨fun h => ⟨h.present, h.nearest, h.mayBeOpen⟩, fun ⟨present, nearest, may⟩ => ⟨present, nearest, may⟩⟩

def dangling : List Part := [.token .kwIf, .phrase .expression, .token .kwThen, .phrase .statement]

/-- A rule builds what fits from what fits, when nothing open stands before an `else`. What it builds
is open only if its last part is, or if it is a conditional without an else branch. -/
def KeepsBranches (rule : Rule) : Prop :=
  ∀ arguments, Forall₂ (fun p v => Fits p.symbol v) rule.parts arguments →
    (∀ i, rule.parts[i + 1]? = some (.token .kwElse) → (part i arguments).isOpen = false) →
    ∀ value, (rule.build arguments).run.1 = .ok value →
      Fits (.nonterminal rule.makes) value ∧
      (value.isOpen = true → rule.parts = dangling ∨ arguments.getLast?.any isOpen = true)

theorem keeps_copy (found : parts[i]? = some p)
    (ends : mayBeOpen p.symbol = true → mayBeOpen (.nonterminal n) = true ∧ i + 1 = parts.length) :
    KeepsBranches ⟨n, parts, copy i⟩ := by
  intro arguments all _ value built
  cases built
  have fits := row_part all found
  refine ⟨⟨fits.present, fits.nearest, fun opened => (ends (fits.mayBeOpen opened)).1⟩, ?_⟩
  intro opened
  have last : i + 1 = arguments.length := (ends (fits.mayBeOpen opened)).2.trans all.length_eq
  have within : i < arguments.length := by omega
  right
  rw [getLast?_eq_getElem?, ← last, Nat.add_sub_cancel]
  simpa [part, within] using opened

theorem keeps_typeOf (found : parts[i]? = some p) (ends : mayBeOpen p.symbol = false) :
    KeepsBranches ⟨n, parts, node1 typeOf i⟩ := by
  intro arguments all _ value built
  cases built
  have fits := row_part all found
  have closed : (part i arguments).isOpen ≠ true := by
    intro opened
    rw [fits.mayBeOpen opened] at ends
    cases ends
  have present : typeOf (part i arguments) ≠ .none := by
    unfold typeOf
    split
    · exact fits.present
    · nofun
  have same : (typeOf (part i arguments)).isOpen = true → (part i arguments).isOpen = true := by
    unfold typeOf
    split
    · exact id
    · nofun
  exact ⟨⟨present, nearest_typeOf.mpr fits.nearest, fun opened => absurd (same opened) closed⟩,
    fun opened => absurd (same opened) closed⟩

theorem keeps_plain {rule : Rule}
    (h : ∀ arguments, (∀ i, (part i arguments).Nearest) →
      ∀ value, (rule.build arguments).run.1 = .ok value →
        value ≠ .none ∧ value.Nearest ∧ value.isOpen = false) : KeepsBranches rule := by
  intro arguments all _ value built
  have nearest : ∀ i, (part i arguments).Nearest := by
    intro i
    by_cases within : i < rule.parts.length
    · exact (row_part all (getElem?_eq_getElem within)).nearest
    · have beyond : arguments.length ≤ i := by
        rw [← all.length_eq]
        omega
      rw [part, getD_eq_getElem?_getD, getElem?_eq_none beyond]
      exact (nearest_of_plain rfl).mpr nofun
  obtain ⟨present, kept, closed⟩ := h arguments nearest value built
  rw [fits_iff, closed]
  exact ⟨⟨present, kept, nofun⟩, nofun⟩

theorem keeps_choice : KeepsBranches ⟨n, parts, choice⟩ := by
  apply keeps_plain
  intro arguments nearest value built
  rw [run_choice built]
  refine ⟨nofun, (nearest_of_plain rfl).mpr ?_, rfl⟩
  simp [children, Tree.parts, nearest]

theorem keeps_alternative :
    KeepsBranches ⟨.ifStatement, [.token .kwIf, .phrase .expression, .token .kwThen,
      .phrase .statement, .token .kwElse, .phrase .statement], node3 .ifStatement 1 3 5⟩ := by
  simp only [KeepsBranches, forall_row_cons, forall_row_nil]
  intro _ _ condition first _ _ thenBranch second _ _ elseBranch third closed value built
  cases built
  have ends : (Tree.ifStatement condition thenBranch elseBranch).isOpen = elseBranch.isOpen := by
    rw [isOpen]
    exact third.present
  refine ⟨⟨nofun, nearest_ifStatement.mpr ⟨fun _ => closed 3 rfl, first.nearest, second.nearest,
    third.nearest⟩, fun _ => rfl⟩, fun opened => .inr ?_⟩
  exact ends.symm.trans opened

-- The kinds of build are told apart by their names.
attribute [local irreducible] copy node1 node2 node3 node4 choice in
theorem keepsBranches_of_mem : ∀ rule ∈ rules.toList, KeepsBranches rule := by
  simp only [rules, forall_mem_cons, not_mem_nil, false_implies, implies_true, and_true]
  and_intros
  all_goals first
    | exact keeps_copy rfl (by decide)
    | apply keeps_plain
      simp +contextual (disch := rfl) only [run_always, run_node1, run_node2, run_node3, run_node4,
        run_leaving, run_option, Except.ok.injEq, reduceCtorEq, forall_eq', nearest_of_plain,
        consItem_eq, snocItem_eq, nearest_statementsOf, nearest_consStatement,
        consStatement_closed, children, parts, isOpen, forall_mem_append, forall_mem_cons, not_mem_nil, false_implies, implies_true, and_true, ne_eq,
        not_false_eq_true]
      done
    | exact keeps_typeOf rfl rfl
    | exact keeps_choice
    | exact keeps_alternative
    -- Left are the loops and the conditional without an else branch.
    | simp +contextual (disch := rfl) only [KeepsBranches, forall_row_nil, forall_row_cons,
        run_node2, run_node4, Except.ok.injEq, reduceCtorEq, forall_eq', part, getD_cons_zero,
        getD_cons_succ, fits_iff, mayBeOpen, dangling, isOpen, nearest_of_plain,
        nearest_ifStatement, children, parts, forall_mem_cons, not_mem_nil,
        getLast?_singleton, getLast?_cons_cons, Option.any_some, ne_eq, false_implies,
        implies_true, and_true, true_and, not_true_eq_false, not_false_eq_true, or_true, true_or]

/-! ## Stacks -/

theorem shift_else_of_dangling {p r : Nat} {t : Terminal TokenKind}
    (h : action p t = some (.reduce r)) (known : rule? r = some rule)
    (parts_eq : rule.parts = dangling) : ∃ q, action p (.token .kwElse) = some (.shift q) := by
  have checked := forall_actions (P := fun p _ a => (reducedBy a).all fun rule =>
    rule.parts != dangling || (move p (.token .kwElse)).isSome) (by decide +kernel) h
  simp only [reducedBy, known, Option.all_some, parts_eq, bne_self_eq_false, Bool.false_or] at checked
  obtain ⟨q, moved⟩ := Option.isSome_iff_exists.mp checked
  exact ⟨q, action_of_move moved⟩

/-- What is true of a stack with tokens ahead: the values fit, and nothing open stands before an
`else`, on the stack or ahead. -/
structure Attached (stack : List (Frame TokenKind Phrase Tree)) (rest : List Token) : Prop where
  fits : ∀ f ∈ stack, Fits f.symbol f.value
  closed : stack.IsChain fun e f =>
    e.symbol = .terminal (.token .kwElse) → f.value.isOpen = false
  ends : ∀ f ∈ stack.head?, f.value.isOpen = true → next (kindsOf rest) .finish ≠ .token .kwElse

theorem fits_of_tokenStands {kind : TokenKind} (h : TokenStands kind value) :
    Fits (.terminal (.token kind)) value ∧ value.isOpen = false := by
  have leaf : (∃ n, .int n = value) ∨ (∃ x, .real x = value) ∨ (∃ b, .bool b = value) ∨
      ∃ s, .str s = value := by
    cases kind with
    | number => exact h.elim .inl fun real => .inr (.inl real)
    | bool => exact .inr (.inr (.inl h))
    | _ =>
      obtain ⟨s, -, same⟩ := h
      exact .inr (.inr (.inr ⟨s, same⟩))
  rcases leaf with ⟨_, rfl⟩ | ⟨_, rfl⟩ | ⟨_, rfl⟩ | ⟨_, rfl⟩ <;>
    exact ⟨⟨nofun, (nearest_of_plain rfl).mpr nofun, nofun⟩, rfl⟩

theorem Attached.shift {q : Nat} {t : Token} (plain : TokenStands t.kind t.value)
    (h : Attached stack (t :: rest)) :
    Attached (⟨q, .terminal (.token t.kind), t.value⟩ :: stack) rest := by
  obtain ⟨fits, closed⟩ := fits_of_tokenStands plain
  refine ⟨forall_mem_cons.mpr ⟨fits, h.fits⟩, isChain_cons.mpr ⟨?_, h.closed⟩, ?_⟩
  · intro f top isElse
    cases opened : f.value.isOpen with
    | false => rfl
    | true => exact absurd (LR.Symbol.terminal.inj isElse) (h.ends f top opened)
  · intro f top opened
    cases top
    rw [closed] at opened
    cases opened

theorem forall₂_fits (symbols : frames.map (·.symbol) = parts.map Part.symbol)
    (fits : ∀ f ∈ frames, Fits f.symbol f.value) :
    Forall₂ (fun p v => Fits p.symbol v) parts (frames.map (·.value)) := by
  induction frames generalizing parts with
  | nil =>
    cases parts with
    | nil => exact .nil
    | cons => cases symbols
  | cons f frames ih =>
    cases parts with
    | nil => cases symbols
    | cons p parts =>
      obtain ⟨head, tail⟩ := cons.inj symbols
      rw [forall_mem_cons] at fits
      exact .cons (head ▸ fits.1) (ih tail fits.2)

theorem closed_before_else (symbols : frames.reverse.map (·.symbol) = parts.map Part.symbol)
    (closed : frames.IsChain fun e f => e.symbol = .terminal (.token .kwElse) → f.value.isOpen = false)
    (found : parts[i + 1]? = some (.token .kwElse)) :
    (part i (frames.reverse.map (·.value))).isOpen = false := by
  have chain : frames.reverse.IsChain fun f e =>
      e.symbol = .terminal (.token .kwElse) → f.value.isOpen = false :=
    isChain_reverse.mpr closed
  have symbol_at : (frames.reverse[i + 1]?).map (·.symbol) = some (.terminal (.token .kwElse)) := by
    rw [← getElem?_map, symbols, getElem?_map, found]
    rfl
  obtain ⟨e, e_at, isElse⟩ := Option.map_eq_some_iff.mp symbol_at
  obtain ⟨bound, rfl⟩ := List.getElem?_eq_some_iff.mp e_at
  have before := isChain_iff_getElem.mp chain i bound isElse
  rw [part, getD_eq_getElem?_getD, getElem?_map,
    getElem?_eq_getElem (Nat.lt_of_succ_lt bound)]
  exact before

theorem Attached.reduce {stack' : List (Frame TokenKind Phrase Tree)} (h : Attached stack rest)
    (reduced : Reduced stack (next (kindsOf rest) .finish) stack') : Attached stack' rest := by
  cases reduced with
  | @phrase r g t rule top below value known stack_eq symbols built reduces due =>
    subst stack_eq
    have row : Forall₂ (fun p v => Fits p.symbol v) rule.parts (top.reverse.map (·.value)) :=
      forall₂_fits symbols fun f member =>
        h.fits f (mem_append_left _ (mem_reverse.mp member))
    obtain ⟨fits, opens⟩ := keepsBranches_of_mem rule (mem_rules known) _ row
      (fun i => closed_before_else symbols h.closed.left_of_append) value built
    refine ⟨?_, isChain_cons.mpr ⟨nofun, h.closed.right_of_append⟩, ?_⟩
    · exact forall_mem_cons.mpr ⟨fits, fun f member => h.fits f (mem_append_right _ member)⟩
    · intro f isTop opened isElse
      cases isTop
      rcases opens opened with parts_eq | last
      · obtain ⟨q, shifts⟩ := shift_else_of_dangling reduces known parts_eq
        rw [← isElse] at shifts
        cases due _ shifts
      · cases top with
        | nil => cases last
        | cons f top =>
          rw [getLast?_map, getLast?_reverse] at last
          exact h.ends f rfl last isElse

theorem attached_invariant {tokens : List Token} (plain : ∀ t ∈ tokens, TokenStands t.kind t.value) :
    Invariant tokens Attached where
  start _ := ⟨nofun, .nil, nofun⟩
  shift member h := h.shift (plain _ member)
  reduce h reduced := h.reduce reduced

/-- In a tree that a parse returns, a conditional with an else branch has no then branch that is
open: each `else` belongs to the nearest conditional that it can belong to. -/
theorem parsed_else_nearest (line : Nat) (text : String) (tree : Tree)
    (parsed : (parse line text).tree = .ok tree) (condition thenBranch elseBranch : Tree)
    (within : Within (.ifStatement condition thenBranch elseBranch) tree)
    (present : elseBranch ≠ .none) : thenBranch.isOpen = false := by
  have plain : ∀ t ∈ arriving (Delivery.ofText line text), TokenStands t.kind t.value :=
    fun t => tokenStands_of_arriving fun _ cutOff _ lexeme => Piece.spells_of_cut cutOff lexeme
  obtain ⟨outcome, c, ending, -, parses⟩ :=
    parse_ends line (Delivery.ofText line text) (attached_invariant plain)
  have tree_eq : treeOf outcome = .ok tree := by
    rw [← parsed, parse, parseSupply, parses]
  have nearest : tree.Nearest := by
    cases ending with
    | accepted attached _ =>
      cases tree_eq
      exact (attached.fits _ mem_cons_self).nearest
    | rejected =>
      cases tree_eq
      exact (nearest_of_plain rfl).mpr nofun
    | unbuilt _ | unwritten _ _ | unread _ => cases tree_eq
  exact nearest condition thenBranch elseBranch within present

/-- The inner of two conditionals has the `else`, and its then branch is not open. -/
theorem branchInBranch_else_nearest :
    ∃ tree condition thenBranch elseBranch, (parse 1 branchInBranch).tree = .ok tree ∧
      Within (.ifStatement condition thenBranch elseBranch) tree ∧ elseBranch ≠ .none ∧
      thenBranch.isOpen = false := by
  obtain ⟨header, declarations, routines, extra, more, outer, inner, first, target, value, parsed,
    -⟩ := branchInBranch_parsed
  have within : Within (.ifStatement inner first (.assignment target value))
      (.program header (.block declarations routines (.statementPart (.statementSequence
        (.ifStatement outer (.ifStatement inner first (.assignment target value)) .none :: more)))
          extra)) := by
    refine .of_child (mem_cons_of_mem _ mem_cons_self) ?_
    refine .of_child (mem_cons_of_mem _ (mem_cons_of_mem _ mem_cons_self)) ?_
    refine .of_child mem_cons_self (.of_child mem_cons_self ?_)
    refine .of_child mem_cons_self ?_
    exact .of_child (mem_cons_of_mem _ mem_cons_self) .refl
  exact ⟨_, inner, first, _, parsed, within, nofun,
    parsed_else_nearest 1 _ _ parsed _ _ _ within nofun⟩

end Syntax

end PascalStack
