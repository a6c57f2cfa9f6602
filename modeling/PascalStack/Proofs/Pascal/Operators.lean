import Mathlib.Algebra.Ring.Int.Defs
import PascalStack.Proofs.Pascal.Builds

/-!
# Operators and their levels

An expression is operands with operators between them. Each operator has a level, and the value of
the expression is the tree that the levels stand for: operators of a higher level bind closer, and
those of one level from the left. The brackets tell the operators of an expression from those of
its operands, so there is one such tree.
-/

namespace PascalStack.Pascal

open Build List

/-! ## Levels -/

def level : TokenKind → Option Nat
  | .kwAnd | .kwOr => some 0
  | .plus | .minus | .kwDiv | .kwMod | .equals | .different | .lessThan | .lessEqual | .greaterThan
  | .greaterEqual => some 1
  | .times | .divide => some 2
  | _ => none

def documentedLevel : TokenKind → Option Nat
  | .kwDiv | .kwMod => some 2
  | k => level k

def operandOf (t : Token) : Option Tree :=
  match t.kind with
  | .ident => some (.identifier t.value)
  | .number => some (.literal t.value (.str "NUMBER"))
  | .bool => some (.literal t.value (.str "BOOLEAN"))
  | .phrase => some (.literal t.value (.str "PHRASE"))
  | _ => none

/-- A row of tokens is an expression, with a value: names, literals and expressions in parentheses,
with operators between them that have at least level `n`. -/
inductive Grouped (levels : TokenKind → Option Nat) : Nat → List Token → Tree → Prop
  | operand {n : Nat} {t : Token} {v : Tree} : operandOf t = some v → Grouped levels n [t] v
  | parens {n : Nat} (first last : Token) {row : List Token} {v : Tree} :
      first.kind = .leftParen → last.kind = .rightParen → Grouped levels 0 row v →
      Grouped levels n (first :: (row ++ [last])) v
  | operation {n m : Nat} (first : List Token) (op : Token) {rest : List Token} {v w : Tree} :
      n ≤ m → levels op.kind = some m → Grouped levels m first v →
      Grouped levels (m + 1) rest w →
      Grouped levels n (first ++ op :: rest) (.binaryOp v op.value w)

variable {n m : Nat} {row tokens : List Token} {v w : Tree} {k : TokenKind} {values : List Tree}
  {parts : List Part} {rule : Rule} {operand : Bool}

theorem Grouped.congr {levels others : TokenKind → Option Nat} (h : Grouped levels n row v)
    (agree : ∀ t ∈ row, levels t.kind = others t.kind) : Grouped others n row v := by
  induction h with
  | operand single => exact .operand single
  | parens first last opened closed _ ih =>
    exact .parens first last opened closed (ih fun t member => agree t (by simp [member]))
  | operation first op le at_level _ _ ihFirst ihRest =>
    rw [agree op (by simp)] at at_level
    exact .operation first op le at_level (ihFirst fun t member => agree t (by simp [member]))
      (ihRest fun t member => agree t (by simp [member]))

/-- A flat row: operands with operators between them, or a single operand. Literals, names and rows
in parentheses are operands. -/
inductive Flat : (single : Bool) → List Token → Prop
  | operand {t : Token} {v : Tree} : operandOf t = some v → Flat true [t]
  | parens (first last : Token) {row : List Token} :
      first.kind = .leftParen → last.kind = .rightParen → Flat false row →
      Flat true (first :: (row ++ [last]))
  | alone {row : List Token} : Flat true row → Flat false row
  | more (row : List Token) (op : Token) {rest : List Token} :
      Flat false row → (level op.kind).isSome = true → Flat true rest →
      Flat false (row ++ op :: rest)

theorem Grouped.extend {levels : TokenKind → Option Nat} (h : Grouped levels n row v) {op : Token}
    {rest : List Token} (le : n ≤ m) (operator : levels op.kind = some m)
    (operand : Grouped levels (m + 1) rest w) : ∃ u, Grouped levels n (row ++ op :: rest) u := by
  induction h with
  | operand single => exact ⟨_, .operation _ op le operator (.operand single) operand⟩
  | parens first last opened closed inside =>
    exact ⟨_, .operation _ op le operator (.parens first last opened closed inside) operand⟩
  | @operation _ m' first other _ _ _ le' at_level left right _ ih =>
    rcases Nat.lt_or_ge m' m with closer | looser
    · obtain ⟨u, extended⟩ := ih closer
      have grouped := Grouped.operation first other le' at_level left extended
      exact ⟨_, by simpa using grouped⟩
    · exact ⟨_, .operation _ op le operator (.operation first other looser at_level left right)
        operand⟩

/-- Every flat row has a tree in which its operators are grouped by their levels. -/
theorem Flat.grouped {levels : TokenKind → Option Nat} {single : Bool}
    (known : ∀ k, (level k).isSome = true → (levels k).isSome = true) (h : Flat single row) :
    ∃ v, ∀ n, (single = false → n = 0) → Grouped levels n row v := by
  induction h with
  | operand given => exact ⟨_, fun n _ => .operand given⟩
  | parens first last opened closed _ ih =>
    obtain ⟨v, grouped⟩ := ih
    exact ⟨v, fun n _ => .parens first last opened closed (grouped 0 fun _ => rfl)⟩
  | alone _ ih =>
    obtain ⟨v, grouped⟩ := ih
    exact ⟨v, fun n _ => grouped n nofun⟩
  | more _ op _ operator _ ih ihRest =>
    obtain ⟨v, grouped⟩ := ih
    obtain ⟨w, operand⟩ := ihRest
    obtain ⟨m, at_level⟩ := Option.isSome_iff_exists.mp (known op.kind operator)
    obtain ⟨u, extended⟩ :=
      (grouped 0 fun _ => rfl).extend (Nat.zero_le m) at_level (operand (m + 1) nofun)
    exact ⟨u, fun n zero => zero rfl ▸ extended⟩

def phraseAt : Nat → Phrase
  | 0 => .expression
  | 1 => .sum
  | 2 => .product
  | _ => .element

def signAt : Nat → Phrase
  | 0 => .logicSign
  | 1 => .sumSign
  | _ => .productSign

theorem level_lt (h : level k = some n) : n < 3 := by
  cases k <;> cases h <;> decide

/-! ## Derivations of some parts -/

theorem evaluates_nil_iff : Evaluates [] tokens values ↔ tokens = [] ∧ values = [] := by
  constructor
  · intro h
    cases h
    exact ⟨rfl, rfl⟩
  · rintro ⟨rfl, rfl⟩
    exact .nil

theorem evaluates_token_iff :
    Evaluates (.token k :: parts) tokens values ↔
      ∃ t rest others, t.kind = k ∧ tokens = t :: rest ∧ values = t.value :: others ∧
        Evaluates parts rest others := by
  constructor
  · intro h
    cases h with
    | token t rest => exact ⟨t, _, _, rfl, rfl, rfl, rest⟩
  · rintro ⟨t, rest, others, rfl, rfl, rfl, h⟩
    exact .token t h

theorem evaluates_phrase_iff {n : Phrase} :
    Evaluates (.phrase n :: parts) tokens values ↔
      ∃ own rest v others, tokens = own ++ rest ∧ values = v :: others ∧
        Evaluates [.phrase n] own [v] ∧ Evaluates parts rest others := by
  constructor
  · intro h
    cases h with
    | phrase known own built rest => exact ⟨_, _, _, _, rfl, rfl, .single known own built, rest⟩
  · rintro ⟨own, rest, v, others, rfl, rfl, first, h⟩
    exact first.append h

def rulesFor (n : Phrase) : List Rule := rules.toList.filter fun rule => rule.makes == n

theorem Evaluates.exists_rule {n : Phrase} (h : Evaluates [.phrase n] tokens [v]) :
    ∃ rule ∈ rulesFor n, ∃ arguments, Evaluates rule.parts tokens arguments ∧
      (rule.build arguments).run.1 = .ok v := by
  cases h with
  | phrase known own built rest =>
    cases rest
    refine ⟨_, mem_filter.mpr ⟨mem_rules known, beq_self_eq_true _⟩, _, ?_, built⟩
    simpa using own

theorem Evaluates.of_rule {arguments : List Tree} (member : rule ∈ rules.toList)
    (own : Evaluates rule.parts tokens arguments) (built : (rule.build arguments).run.1 = .ok v) :
    Evaluates [.phrase rule.makes] tokens [v] := by
  obtain ⟨i, found⟩ := mem_iff_getElem?.mp member
  exact .single (r := i + 1) (by simpa [rule?] using found) own built

theorem mem_rulesFor_phraseAt (low : n < 3) :
    rule ∈ rulesFor (phraseAt n) ↔
      rule = ⟨phraseAt n, [.phrase (phraseAt (n + 1))], copy 0⟩ ∨
      rule = ⟨phraseAt n, [.phrase (phraseAt n), .phrase (signAt n), .phrase (phraseAt (n + 1))],
        node3 .binaryOp 0 1 2⟩ := by
  rcases n with _ | _ | _ | n
  · exact (mem_pair (a := rule)).trans or_comm
  · exact mem_pair
  · exact mem_pair
  · omega

def operatorsAt : Nat → List TokenKind
  | 0 => [.kwAnd, .kwOr]
  | 1 => [.plus, .minus, .kwDiv, .kwMod, .equals, .different, .lessThan, .lessEqual, .greaterThan,
      .greaterEqual]
  | _ => [.times, .divide]

theorem mem_operatorsAt (low : n < 3) : k ∈ operatorsAt n ↔ level k = some n := by
  rcases n with _ | _ | _ | n
  · cases k <;> decide
  · cases k <;> decide
  · cases k <;> decide
  · omega

theorem rulesFor_signAt (low : n < 3) :
    rulesFor (signAt n) = (operatorsAt n).map fun k => ⟨signAt n, [.token k], copy 0⟩ := by
  rcases n with _ | _ | _ | n
  · rfl
  · rfl
  · rfl
  · omega

theorem evaluates_sign_iff (low : n < 3) {own : List Token} :
    Evaluates [.phrase (signAt n)] own [v] ↔
      ∃ op : Token, own = [op] ∧ v = op.value ∧ level op.kind = some n := by
  constructor
  · intro h
    obtain ⟨rule, member, arguments, derived, built⟩ := h.exists_rule
    rw [rulesFor_signAt low] at member
    obtain ⟨k, operator, rfl⟩ := mem_map.mp member
    obtain ⟨op, rest, others, rfl, rfl, rfl, nothing⟩ := evaluates_token_iff.mp derived
    obtain ⟨rfl, rfl⟩ := evaluates_nil_iff.mp nothing
    cases built
    exact ⟨op, rfl, rfl, (mem_operatorsAt low).mp operator⟩
  · rintro ⟨op, rfl, rfl, operator⟩
    have member : ⟨signAt n, [.token op.kind], copy 0⟩ ∈ rulesFor (signAt n) := by
      rw [rulesFor_signAt low]
      exact mem_map.mpr ⟨op.kind, (mem_operatorsAt low).mpr operator, rfl⟩
    exact .of_rule (mem_filter.mp member).1 (.ofToken op) rfl

theorem evaluates_phraseAt_iff (low : n < 3) :
    Evaluates [.phrase (phraseAt n)] row [v] ↔
      Evaluates [.phrase (phraseAt (n + 1))] row [v] ∨
      ∃ first op rest l r, row = first ++ op :: rest ∧ v = .binaryOp l op.value r ∧
        level op.kind = some n ∧ Evaluates [.phrase (phraseAt n)] first [l] ∧
        Evaluates [.phrase (phraseAt (n + 1))] rest [r] := by
  constructor
  · intro h
    obtain ⟨rule, member, arguments, derived, built⟩ := h.exists_rule
    rcases (mem_rulesFor_phraseAt low).mp member with rfl | rfl
    · left
      obtain ⟨own, _, w, _, rfl, rfl, higher, nothing⟩ := evaluates_phrase_iff.mp derived
      obtain ⟨rfl, rfl⟩ := evaluates_nil_iff.mp nothing
      cases built
      rw [append_nil]
      exact higher
    · right
      obtain ⟨first, _, l, _, rfl, rfl, before, others⟩ := evaluates_phrase_iff.mp derived
      obtain ⟨sign, _, s, _, rfl, rfl, between, last⟩ := evaluates_phrase_iff.mp others
      obtain ⟨rest, _, r, _, rfl, rfl, after, nothing⟩ := evaluates_phrase_iff.mp last
      obtain ⟨rfl, rfl⟩ := evaluates_nil_iff.mp nothing
      obtain ⟨op, rfl, rfl, operator⟩ := (evaluates_sign_iff low).mp between
      cases built
      exact ⟨first, op, rest, l, r, by simp, rfl, operator, before, after⟩
  · rintro (higher | ⟨first, op, rest, l, r, rfl, rfl, operator, before, after⟩)
    · have member := (mem_rulesFor_phraseAt low).mpr (.inl rfl)
      exact .of_rule (mem_filter.mp member).1 higher rfl
    · have member := (mem_rulesFor_phraseAt low).mpr (.inr rfl)
      have between := (evaluates_sign_iff low).mpr ⟨op, rfl, rfl, operator⟩
      exact .of_rule (mem_filter.mp member).1 (before.append (between.append after)) rfl

theorem Evaluates.lower (h : Evaluates [.phrase (phraseAt m)] row [v]) (le : n ≤ m) (high : m ≤ 3) :
    Evaluates [.phrase (phraseAt n)] row [v] := by
  induction le with
  | refl => exact h
  | step _ ih => exact ih ((evaluates_phraseAt_iff high).mpr (.inl h)) (by omega)

/-! ## Brackets -/

def brackets : TokenKind → Int
  | .leftParen | .leftBracket => 1
  | .rightParen | .rightBracket => -1
  | _ => 0

def depth (row : List Token) : Int := (row.map fun t => brackets t.kind).sum

@[simp] theorem depth_nil : depth [] = 0 := rfl

@[simp] theorem depth_cons (t : Token) (row : List Token) :
    depth (t :: row) = brackets t.kind + depth row := sum_cons

@[simp] theorem depth_append (first second : List Token) :
    depth (first ++ second) = depth first + depth second := by
  simp [depth]

theorem brackets_of_level (h : level k = some n) : brackets k = 0 := by
  cases k <;> first | rfl | cases h

def inExpression (k : TokenKind) : Bool :=
  (level k).isSome || k ∈ [.ident, .number, .bool, .phrase, .leftParen, .rightParen, .leftBracket,
    .rightBracket, .comma, .kwNot, .kwLength]

def Phrase.inExpression (n : Phrase) : Bool :=
  n ∈ [.expression, .sum, .product, .element, .lengthCall, .call, .arguments, .argument, .logicSign,
    .sumSign, .productSign]

def Phrase.isOperand (n : Phrase) : Bool := n ∈ [.element, .lengthCall, .call]

/-- Parts of expressions that close the brackets they open, and `d` before them. If they are part
of an operand, operators are in brackets. -/
def balanced (operand : Bool) : Int → List Part → Bool
  | d, [] => d == 0
  | d, .token k :: parts =>
    inExpression k && (!operand || d != 0 || (level k).isNone) && decide (0 ≤ d + brackets k) &&
      balanced operand (d + brackets k) parts
  | d, .phrase n :: parts =>
    n.inExpression && (!operand || d != 0 || n.isOperand) && balanced operand d parts

theorem balanced_of_rule {r : Nat} (known : rule? r = some rule)
    (inside : rule.makes.inExpression = true) (own : operand = true → rule.makes.isOperand = true) :
    balanced operand 0 rule.parts = true := by
  have checked := forall_rules (P := fun _ rule => !rule.makes.inExpression ||
    (balanced false 0 rule.parts && (!rule.makes.isOperand || balanced true 0 rule.parts)))
    (by decide +kernel) known
  cases operand <;> simp_all

theorem split_cases {α : Type} {first rest before after : List α} {a b : α}
    (h : first ++ a :: rest = before ++ b :: after) :
    (∃ mid, first = before ++ b :: mid ∧ after = mid ++ a :: rest) ∨
      (first = before ∧ a = b ∧ rest = after) ∨
      ∃ mid, before = first ++ a :: mid ∧ rest = mid ++ b :: after := by
  rcases append_eq_append_iff.mp h with ⟨mid, rfl, rest_eq⟩ | ⟨mid, rfl, rest_eq⟩
  · cases mid with
    | nil =>
      obtain ⟨same, tail⟩ := cons.inj rest_eq
      exact .inr (.inl ⟨by simp, same, tail⟩)
    | cons c mid =>
      obtain ⟨rfl, tail⟩ := cons.inj rest_eq
      exact .inr (.inr ⟨mid, rfl, tail⟩)
  · cases mid with
    | nil =>
      obtain ⟨same, tail⟩ := cons.inj rest_eq
      exact .inr (.inl ⟨by simp, same.symm, tail.symm⟩)
    | cons c mid =>
      obtain ⟨rfl, tail⟩ := cons.inj rest_eq
      exact .inl ⟨mid, rfl, tail⟩

theorem Evaluates.balanced (h : Evaluates parts tokens values) {d : Int} (opened : 0 ≤ d)
    (checked : balanced operand d parts = true) :
    d + depth tokens = 0 ∧ (∀ t ∈ tokens, inExpression t.kind = true) ∧
      ∀ before t after, tokens = before ++ t :: after →
        0 ≤ d + depth before ∧
          (operand = true → (level t.kind).isSome = true → 0 < d + depth before) := by
  induction h generalizing operand d with
  | nil =>
    refine ⟨by simpa [Pascal.balanced] using checked, nofun, fun before t after split => ?_⟩
    simp at split
  | token u _ ih =>
    simp only [Pascal.balanced, Bool.and_eq_true, decide_eq_true_eq] at checked
    obtain ⟨⟨⟨inside, outer⟩, still⟩, rest⟩ := checked
    obtain ⟨total, all, places⟩ := ih still rest
    refine ⟨by simp; omega, forall_mem_cons.mpr ⟨inside, all⟩, ?_⟩
    intro before t after split
    cases before with
    | nil =>
      cases split
      refine ⟨by simpa using opened, fun isOperand operator => ?_⟩
      have : d ≠ 0 := by
        rintro rfl
        simp [isOperand, Option.isSome_iff_ne_none.mp operator] at outer
      simp
      omega
    | cons c before =>
      obtain ⟨rfl, tail⟩ := cons.inj split
      simpa [Int.add_assoc] using places before t after tail
  | @phrase r rule _ own _ _ _ _ known _ _ _ ihOwn ihRest =>
    simp only [Pascal.balanced, Bool.and_eq_true] at checked
    obtain ⟨⟨inside, outer⟩, rest⟩ := checked
    obtain ⟨ownTotal, ownAll, ownPlaces⟩ := @ihOwn (operand && d == 0) 0 (Int.le_refl 0)
      (balanced_of_rule known inside (by simp; rintro rfl rfl; simpa using outer))
    obtain ⟨total, all, places⟩ := ihRest opened rest
    have ownDepth : depth own = 0 := by omega
    refine ⟨by simp [ownDepth, total], fun t member => ?_, fun before t after split => ?_⟩
    · exact (mem_append.mp member).elim (ownAll t) (all t)
    rcases append_eq_append_iff.mp split with ⟨mid, rfl, tail⟩ | ⟨mid, rfl, tail⟩
    · simpa [ownDepth] using places mid t after tail
    · cases mid with
      | nil =>
        rw [append_nil] at ownDepth
        simpa [ownDepth] using places [] t after tail.symm
      | cons c mid =>
        obtain ⟨rfl, -⟩ := cons.inj tail
        obtain ⟨low, deep⟩ := ownPlaces before t mid rfl
        refine ⟨by omega, fun isOperand operator => ?_⟩
        by_cases outermost : d = 0
        · have := deep (by simp [isOperand, outermost]) operator
          omega
        · omega

theorem Evaluates.depth_eq_zero {n : Phrase} (h : Evaluates [.phrase n] row [v])
    (inside : n.inExpression = true) : depth row = 0 := by
  have checked : Pascal.balanced false 0 [.phrase n] = true := by simp [Pascal.balanced, inside]
  have total := (h.balanced (Int.le_refl 0) checked).1
  omega

theorem phraseAt_inExpression (n : Nat) : (phraseAt n).inExpression = true := by
  unfold phraseAt
  split <;> rfl

theorem Evaluates.le_level {before after : List Token} {t : Token}
    (h : Evaluates [.phrase (phraseAt n)] row [v]) (high : n ≤ 3)
    (split : row = before ++ t :: after) (outside : depth before = 0)
    (operator : level t.kind = some m) : n ≤ m := by
  -- A rule leaves the row as it is and raises the level, or makes the row shorter.
  obtain ⟨size, bound⟩ : ∃ size, 4 * row.length + (3 - n) < size := ⟨_, Nat.lt_succ_self _⟩
  induction size generalizing n row before after v with
  | zero => omega
  | succ size ih =>
    rcases Nat.lt_or_eq_of_le high with low | rfl
    · rcases (evaluates_phraseAt_iff low).mp h with
        higher | ⟨first, op, rest, l, r, rfl, rfl, at_level, left, right⟩
      · have := ih higher low split outside (by omega)
        omega
      · have balanced := left.depth_eq_zero (phraseAt_inExpression n)
        simp only [length_append, length_cons] at bound
        rcases split_cases split with ⟨mid, rfl, rfl⟩ | ⟨rfl, rfl, rfl⟩ | ⟨mid, rfl, rfl⟩
        · exact ih left high rfl outside (by omega)
        · rw [at_level] at operator
          exact Nat.le_of_eq (Option.some_inj.mp operator)
        · rw [depth_append, depth_cons, balanced, brackets_of_level at_level] at outside
          have := ih right low rfl (by omega) (by omega)
          omega
    · have checked : Pascal.balanced true 0 [.phrase .element] = true := rfl
      obtain ⟨-, -, places⟩ := h.balanced (Int.le_refl 0) checked
      have := (places before t after split).2 rfl (by simp [operator])
      omega

theorem Evaluates.raise (h : Evaluates [.phrase (phraseAt n)] row [w]) (le : n ≤ m) (high : m ≤ 3)
    (other : Evaluates [.phrase (phraseAt m)] row [v]) :
    Evaluates [.phrase (phraseAt m)] row [w] := by
  induction le with
  | refl => exact h
  | @step m le ih =>
    have same := ih (by omega) ((evaluates_phraseAt_iff high).mpr (.inl other))
    rcases (evaluates_phraseAt_iff high).mp same with
      higher | ⟨first, op, rest, l, r, rfl, -, at_level, left, -⟩
    · exact higher
    · have balanced := left.depth_eq_zero (phraseAt_inExpression m)
      have := other.le_level high rfl balanced at_level
      omega

/-! ## Values -/

theorem call_starts (h : Evaluates [.phrase .call] row [v]) :
    ∃ (t : Token) (rest : List Token), row = t :: rest ∧ t.kind = .ident ∧
      (rest = [] → v = .identifier t.value) := by
  obtain ⟨rule, member, arguments, derived, built⟩ := h.exists_rule
  have listed : rule ∈ [_, _, _] := member
  simp only [mem_cons, not_mem_nil, or_false] at listed
  rcases listed with rfl | rfl | rfl
  all_goals
    obtain ⟨t, rest, others, ident, rfl, rfl, further⟩ := evaluates_token_iff.mp derived
    refine ⟨t, rest, rfl, ident, ?_⟩
    rintro rfl
  iterate 2
    obtain ⟨_, _, _, _, impossible, _⟩ := evaluates_token_iff.mp further
    cases impossible
  exact (Except.ok.inj built).symm

theorem element_cases (h : Evaluates [.phrase .element] row [v]) :
    (∃ t, row = [t] ∧ operandOf t = some v) ∨
    (∃ first last inner, row = first :: (inner ++ [last]) ∧
      Evaluates [.phrase .expression] inner [v]) ∨
    ∃ t rest, row = t :: rest ∧ t.kind ≠ .leftParen ∧ (rest = [] → operandOf t = none) := by
  obtain ⟨rule, member, arguments, derived, built⟩ := h.exists_rule
  have listed : rule ∈ [_, _, _, _, _, _, _, _, _] := member
  simp only [mem_cons, not_mem_nil, or_false] at listed
  rcases listed with rfl | rfl | rfl | rfl | rfl | rfl | rfl | rfl | rfl
  iterate 4
    obtain ⟨t, _, _, kind, rfl, rfl, nothing⟩ := evaluates_token_iff.mp derived
    obtain ⟨rfl, rfl⟩ := evaluates_nil_iff.mp nothing
    cases built
    exact .inl ⟨t, rfl, by simp [operandOf, kind, part]⟩
  · obtain ⟨first, _, _, _, rfl, rfl, inside⟩ := evaluates_token_iff.mp derived
    obtain ⟨inner, _, w, _, rfl, rfl, value, closing⟩ := evaluates_phrase_iff.mp inside
    obtain ⟨last, _, _, _, rfl, rfl, nothing⟩ := evaluates_token_iff.mp closing
    obtain ⟨rfl, rfl⟩ := evaluates_nil_iff.mp nothing
    cases built
    exact .inr (.inl ⟨first, last, inner, rfl, value⟩)
  · obtain ⟨t, rest, _, negation, rfl, _, _⟩ := evaluates_token_iff.mp derived
    exact .inr (.inr ⟨t, rest, rfl, by simp [negation], by simp [operandOf, negation]⟩)
  · obtain ⟨own, _, _, _, rfl, _, first, _⟩ := evaluates_phrase_iff.mp derived
    obtain ⟨rule, member, _, derived, _⟩ := first.exists_rule
    have listed : rule ∈ [_] := member
    obtain rfl := mem_singleton.mp listed
    obtain ⟨t, rest, _, length, rfl, _, _⟩ := evaluates_token_iff.mp derived
    exact .inr (.inr ⟨t, _, rfl, by simp [length], by simp [operandOf, length]⟩)
  · obtain ⟨t, _, _, ident, rfl, _, further⟩ := evaluates_token_iff.mp derived
    obtain ⟨_, _, _, _, rfl, _, _⟩ := evaluates_token_iff.mp further
    exact .inr (.inr ⟨t, _, rfl, by simp [ident], nofun⟩)
  · obtain ⟨own, _, w, _, rfl, rfl, first, nothing⟩ := evaluates_phrase_iff.mp derived
    obtain ⟨rfl, rfl⟩ := evaluates_nil_iff.mp nothing
    obtain ⟨t, rest, rfl, ident, alone⟩ := call_starts first
    cases built
    rw [append_nil]
    by_cases empty : rest = []
    · subst empty
      exact .inl ⟨t, rfl, by simp [operandOf, ident, part, alone rfl]⟩
    · exact .inr (.inr ⟨t, rest, rfl, by simp [ident], fun same => absurd same empty⟩)

theorem Evaluates.of_element (h : Evaluates [.phrase .element] row [v]) (high : n ≤ 3) :
    Evaluates [.phrase (phraseAt n)] row [v] := Evaluates.lower (m := 3) h high (Nat.le_refl 3)

theorem Grouped.evaluates (h : Grouped level n row v) (high : n ≤ 3) :
    Evaluates [.phrase (phraseAt n)] row [v] := by
  induction h with
  | @operand n t v single =>
    refine .of_element ?_ high
    have own := Evaluates.ofToken t
    rw [operandOf] at single
    generalize t.kind = k at single own
    cases k <;> cases single
    · exact .single (r := 106) rfl own rfl
    · exact .single (r := 107) rfl own rfl
    · exact .single (r := 104) rfl own rfl
    · exact .single (r := 105) rfl own rfl
  | parens first last opened closed _ ih =>
    have before : Evaluates [.token .leftParen] [first] [first.value] := opened ▸ .ofToken first
    have after : Evaluates [.token .rightParen] [last] [last.value] := closed ▸ .ofToken last
    exact .of_element (.single (r := 108) rfl
      (before.append ((ih (Nat.zero_le 3)).append after)) rfl) high
  | operation first op le operator _ _ left right =>
    have low := level_lt operator
    have operation := (evaluates_phraseAt_iff low).mpr
      (.inr ⟨first, op, _, _, _, rfl, rfl, operator, left (by omega), right (by omega)⟩)
    exact operation.lower le (by omega)

theorem Grouped.unique (h : Grouped level n row v) (high : n ≤ 3)
    (derived : Evaluates [.phrase (phraseAt n)] row [w]) : w = v := by
  induction h generalizing w with
  | operand single =>
    have own := derived.raise high (Nat.le_refl 3)
      ((Grouped.operand single).evaluates (Nat.le_refl 3))
    rcases element_cases own with ⟨_, row_eq, same⟩ | ⟨_, _, inner, row_eq, -⟩ |
      ⟨_, _, row_eq, -, other⟩
    · cases row_eq
      exact Option.some_inj.mp (same.symm.trans single)
    · simp at row_eq
    · cases row_eq
      rw [other rfl] at single
      cases single
  | parens first last opened closed inside ih =>
    have own := derived.raise high (Nat.le_refl 3)
      ((Grouped.parens first last opened closed inside).evaluates (Nat.le_refl 3))
    rcases element_cases own with ⟨_, row_eq, -⟩ | ⟨_, _, inner, row_eq, value⟩ |
      ⟨_, _, row_eq, other, -⟩
    · simp at row_eq
    · obtain ⟨-, same⟩ := cons.inj row_eq
      obtain ⟨rfl, -⟩ := append_inj' same rfl
      exact ih (Nat.zero_le 3) value
    · cases row_eq
      exact absurd opened other
  | @operation n m first op rest _ _ le operator left right ihLeft ihRight =>
    have low := level_lt operator
    have evaluated := (Grouped.operation first op (Nat.le_refl m) operator left right).evaluates
      (by omega)
    have leftDepth := (left.evaluates (by omega)).depth_eq_zero (phraseAt_inExpression m)
    -- The last operator of the level is found from either grouping.
    rcases (evaluates_phraseAt_iff low).mp (derived.raise le (by omega) evaluated) with
      higher | ⟨first', op', rest', l, r, row_eq, rfl, operator', left', right'⟩
    · have := higher.le_level low rfl leftDepth operator
      omega
    have leftDepth' := left'.depth_eq_zero (phraseAt_inExpression m)
    rcases split_cases row_eq with ⟨mid, rfl, rfl⟩ | ⟨rfl, rfl, rfl⟩ | ⟨mid, rfl, rfl⟩
    · rw [depth_append, depth_cons, leftDepth', brackets_of_level operator'] at leftDepth
      have := right'.le_level low rfl (by omega) operator
      omega
    · rw [ihLeft (by omega) left', ihRight (by omega) right']
    · rw [depth_append, depth_cons, leftDepth, brackets_of_level operator] at leftDepth'
      have := (right.evaluates low).le_level low rfl (by omega) operator'
      omega

end PascalStack.Pascal
