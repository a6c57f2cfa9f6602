import PascalStack.Proofs.Syntax.Meaning
import PascalStack.Proofs.Syntax.Simplified

/-!
# Simplified expressions keep their values

Folding carries out operations on literals as evaluation does, and the rules for neutral and
absorbing operands are laws of the operators. So what an expression becomes has the value that the
expression has, if it has one. Over whole numbers, truth values and texts nothing stops the work.
-/

namespace PascalStack.Syntax

open Simplify

theorem unquoted_eq (s : String) : unquoted (.str s) = .str (phraseText s) := by
  simp only [unquoted, phraseText, quotedBy]
  cases chars : s.toList with
  | nil => simp
  | cons q rest =>
    rcases List.eq_nil_or_concat rest with rfl | ⟨init, last, rfl⟩
    · simp
    · have final : (q :: (init ++ [last])).getLast? = some last := by
        rw [← List.cons_append, List.getLast?_concat]
      by_cases ends : last = q
      · subst ends
        by_cases double : last = Text.doubleQuote <;> by_cases single : last = Text.singleQuote <;>
          simp_all
      · have apart (c : Char) : ¬ (q = c ∧ last = c) := by
          rintro ⟨rfl, rfl⟩
          exact ends rfl
        simp [ends, apart, final]

theorem phraseText_quoted (t : String) : phraseText ("\"" ++ t ++ "\"") = t := by
  have chars : ("\"" ++ t ++ "\"").toList = Text.doubleQuote :: (t.toList ++ [Text.doubleQuote]) := by
    simp [Text.doubleQuote]
  simp [phraseText, chars]

variable {l r : Literal} {m n : Int} {a b : Datum} {o : Operator} {sign : String}

theorem Literal.tree_injective (h : l.tree = r.tree) : l = r := by
  cases l <;> cases r <;> simp_all [Literal.tree, Literal.value, Literal.typeName]
  case verdict.verdict b c => cases b <;> cases c <;> simp_all

/-- What an operation on two literals is folded to, where its value is `d`: it is left as it stands,
or it becomes a literal of that value. -/
inductive Folded (whole : Tree) (d : Option Datum) : Except Fault (Option Tree) → Prop
  | none : Folded whole d (.ok none)
  | whole : Folded whole d (.ok (some whole))
  | literal {v : Literal} (there : v.datum?.isSome = true) (value : d = v.datum?) :
      Folded whole d (.ok (some v.tree))

section Folded

variable (whole : Tree) {op : String} {o : Operator}

theorem Folded.truth (b : Bool) : Folded whole (some (.truth b)) (.ok (some (boolLiteral b))) :=
  .literal (v := .verdict b) rfl rfl

theorem Folded.exists_ok {whole : Tree} {d : Option Datum} {x : Except Fault (Option Tree)}
    (h : Folded whole d x) : ∃ result, x = .ok result := by
  cases h <;> exact ⟨_, rfl⟩

theorem same_int (m n : Int) : Tree.same (.int m) (.int n) = (compare m n == .eq) := by
  simp [Tree.same, Tree.sameAtom, Tree.number?, Number.compare?]

theorem same_str (s t : String) : Tree.same (.str s) (.str t) = (compare s t == .eq) := by
  simp [Tree.same, Tree.sameAtom, Tree.number?]

theorem folded_division {f : Tree → Tree → Except Fault Tree} {g : Int → Int → Int}
    (number : f (.int m) (.int n) = .ok (.int (g m n))) :
    Folded whole (if n = 0 then none else some (.number (g m n)))
      (division f whole (.int m) (.int n)) := by
  have zero_iff : Tree.same (.int n) (.int 0) = decide (n = 0) := by
    rw [Bool.eq_iff_iff, same_int]
    simp
  rw [division, zero_iff, number]
  by_cases zero : n = 0
  · simpa [zero] using Folded.whole
  · simp only [zero, if_false, decide_false, Bool.false_eq_true]
    exact .literal (v := .integer (g m n)) rfl rfl

theorem folded_foldNumbers (sign : Operator.ofSign? op = some o) (m n : Int) :
    Folded whole (o.apply (.number m) (.number n)) (foldNumbers whole op (.int m) (.int n)) := by
  unfold foldNumbers
  split
  · cases sign
    exact .literal (v := .integer (m + n)) rfl rfl
  · cases sign
    exact .literal (v := .integer (m - n)) rfl rfl
  · cases sign
    exact .literal (v := .integer (m * n)) rfl rfl
  · cases sign
  · cases sign
    exact folded_division whole rfl
  · cases sign
    exact folded_division whole rfl
  · cases sign
    exact same_int m n ▸ .truth whole _
  · cases sign
    exact same_int m n ▸ .truth whole _
  · cases sign
    exact .truth whole _
  · cases sign
    exact .truth whole _
  · cases sign
    exact .truth whole _
  · cases sign
    exact .truth whole _
  · exact .none

theorem folded_foldBools (sign : Operator.ofSign? op = some o) (a b : Bool) :
    Folded whole (o.apply (.truth a) (.truth b)) (.ok (foldBools op a b)) := by
  unfold foldBools
  split
  · cases sign
    exact .truth whole _
  · cases sign
    exact .truth whole _
  · cases sign
    cases a <;> cases b <;> exact .truth whole _
  · cases sign
    cases a <;> cases b <;> exact .truth whole _
  · exact .none

theorem folded_foldPhrases (sign : Operator.ofSign? op = some o) (s t : String) :
    Folded whole (o.apply (.text s) (.text t)) (foldPhrases op (.str s) (.str t)) := by
  unfold foldPhrases
  split
  · cases sign
    refine .literal (v := .phrase ("\"" ++ (s ++ t) ++ "\"")) rfl ?_
    rw [Literal.datum?, phraseText_quoted]
    rfl
  · cases sign
    exact same_str s t ▸ .truth whole _
  · cases sign
    exact same_str s t ▸ .truth whole _
  · cases sign
    exact .truth whole _
  · cases sign
    exact .truth whole _
  · cases sign
    exact .truth whole _
  · cases sign
    exact .truth whole _
  · exact .none

theorem folded_foldLiterals (sign : Operator.ofSign? op = some o) (left : l.datum? = some a)
    (right : r.datum? = some b) :
    Folded whole (o.apply a b) (foldLiterals whole op l.tree r.tree) := by
  cases l with
  | integer m =>
    cases r with
    | integer n =>
      cases left
      cases right
      exact folded_foldNumbers whole sign m n
    | decimal x => cases right
    | _ => exact .none
  | decimal x => cases left
  | truth b => cases r <;> exact .none
  | verdict b =>
    cases r with
    | verdict c =>
      cases left
      cases right
      cases b <;> cases c <;> exact folded_foldBools whole sign _ _
    | _ => exact .none
  | phrase s =>
    cases r with
    | phrase t =>
      cases left
      cases right
      have folded := folded_foldPhrases whole sign (phraseText s) (phraseText t)
      rw [← unquoted_eq, ← unquoted_eq] at folded
      exact folded
    | _ => exact .none

end Folded

theorem Literal.Computes.datum?_eq {v : Literal} {op : String} (h : l.Computes op r v)
    (sign : Operator.ofSign? op = some o) (left : l.datum? = some a) (right : r.datum? = some b) :
    v.datum?.isSome = true ∧ o.apply a b = v.datum? := by
  have folded := folded_foldLiterals (.binaryOp l.tree (.str op) r.tree) sign left right
  generalize whole_eq : Tree.binaryOp l.tree (.str op) r.tree = whole at folded
  rw [Literal.Computes, whole_eq] at h
  generalize foldLiterals whole op l.tree r.tree = result at folded h
  cases folded with
  | none => cases h
  | whole =>
    injection h with same
    injection same with same
    rw [← whole_eq] at same
    cases same
  | literal there value =>
    injection h with same
    injection same with same
    rw [← Literal.tree_injective same]
    exact ⟨there, value⟩

/-! ## The rules keep values -/

theorem Literal.Counts.datum_eq (h : l.Counts n) {d : Datum} (value : l.datum? = some d) :
    d = .number n := by
  obtain ⟨type, same⟩ := h
  cases l with
  | integer m =>
    cases value
    rw [Literal.value, same_int] at same
    simpa using same
  | decimal x => cases value
  | _ => simp [Literal.typeName] at type

section Values

variable {env : Environment} {a b e : Expression} {op : String} {d x y : Datum}

theorem eval_operation_eq_some :
    (Expression.operation a op b).eval env = some d ↔
      ∃ x y o, a.eval env = some x ∧ b.eval env = some y ∧ Operator.ofSign? op = some o ∧
        o.apply x y = some d := by
  simp [Expression.eval, Option.bind_eq_some_iff]

theorem eval_negation_eq_some :
    (Expression.negation sign a).eval env = some d ↔
      ∃ b, a.eval env = some (.truth b) ∧ isNot sign = true ∧ d = .truth !b := by
  rw [Expression.eval]
  cases a.eval env with
  | none => simp
  | some x => cases x <;> simp [Datum.truth?, @eq_comm _ d]

theorem eval_length_eq_some :
    (Expression.length a).eval env = some d ↔
      ∃ s, a.eval env = some (.text s) ∧ d = .number s.length := by
  rw [Expression.eval]
  cases a.eval env with
  | none => simp
  | some x => cases x <;> simp [Datum.text?, @eq_comm _ d]

section Applied

attribute [local simp] Operator.apply Operator.test? Datum.compare?

theorem Neutral.apply_eq (h : Neutral op l) (sign : Operator.ofSign? op = some o)
    (right : l.datum? = some y) (value : o.apply x y = some d) : x = d := by
  cases h with
  | plus counts | minus counts | times counts =>
    cases sign
    cases counts.datum_eq right
    cases x <;> simp_all
  | slash => cases sign
  | both | either =>
    cases sign
    cases right
    cases x <;> simp_all

theorem NeutralFirst.apply_eq (h : NeutralFirst op l) (sign : Operator.ofSign? op = some o)
    (left : l.datum? = some x) (value : o.apply x y = some d) : y = d := by
  cases h with
  | plus counts | times counts =>
    cases sign
    cases counts.datum_eq left
    cases y <;> simp_all
  | both | either =>
    cases sign
    cases left
    cases y <;> simp_all

theorem SameOperand.eq_of_numbers (h : SameOperand a b) (left : a.eval env = some (.number m))
    (right : b.eval env = some (.number n)) : m = n := by
  cases h with
  | literal type same =>
    rename_i l r
    cases l <;> cases left
    cases r <;> cases right
    rw [Literal.value, Literal.value, same_int] at same
    simpa using same
  | name x =>
    cases left.symm.trans right
    rfl

theorem SameOperand.apply_minus (h : SameOperand a b) (left : a.eval env = some x)
    (right : b.eval env = some y) (value : Operator.minus.apply x y = some d) : d = .number 0 := by
  cases x <;> cases y <;> simp_all
  rename_i m n
  rw [← value, h.eq_of_numbers left right, Int.sub_self]

theorem OneIs.apply_times (h : OneIs (Literal.Counts 0) a b) (left : a.eval env = some x)
    (right : b.eval env = some y) (value : Operator.times.apply x y = some d) :
    d = .number 0 := by
  cases h with
  | left counts =>
    cases counts.datum_eq left
    cases y <;> simp_all
  | right counts =>
    cases counts.datum_eq right
    cases x <;> simp_all

theorem OneIs.apply_word {word : Bool} (h : OneIs (· = .verdict word) a b)
    (left : a.eval env = some x) (right : b.eval env = some y)
    (value : (cond word Operator.either .both).apply x y = some d) : d = .truth word := by
  cases h with
  | left found =>
    subst found
    cases left
    cases word <;> cases y <;> simp_all
  | right found =>
    subst found
    cases right
    cases word <;> cases x <;> simp_all

end Applied

theorem Reduces.eval_eq (h : Reduces a op b e)
    (value : (Expression.operation a op b).eval env = some d) : e.eval env = some d := by
  obtain ⟨x, y, o, left, right, sign, applied⟩ := eval_operation_eq_some.mp value
  cases h with
  | kept => exact value
  | computed computes => exact (computes.datum?_eq sign left right).2.symm.trans applied
  | left neutral => exact neutral.apply_eq sign right applied ▸ left
  | right neutral => exact neutral.apply_eq sign left applied ▸ right
  | cancelled same =>
    cases sign
    exact same.apply_minus left right applied ▸ rfl
  | vanished zero =>
    cases sign
    exact zero.apply_times left right applied ▸ rfl
  | divided => cases sign
  | refuted one =>
    cases sign
    exact one.apply_word left right applied ▸ rfl
  | granted one =>
    cases sign
    exact one.apply_word left right applied ▸ rfl

theorem Negates.eval_eq (h : Negates sign a e)
    (value : (Expression.negation sign a).eval env = some d) : e.eval env = some d := by
  obtain ⟨b, operand, word, rfl⟩ := eval_negation_eq_some.mp value
  cases h with
  | kept => exact value
  | verdict c =>
    cases operand
    rfl
  | number => cases word
  | twice e =>
    obtain ⟨c, inner, -, opposite⟩ := eval_negation_eq_some.mp operand
    cases opposite
    rwa [Bool.not_not]

theorem Measures.eval_eq (h : Measures a e)
    (value : (Expression.length a).eval env = some d) : e.eval env = some d := by
  cases h with
  | kept => exact value
  | phrase unquote =>
    rw [unquoted_eq] at unquote
    cases unquote
    exact value

theorem eval_of_becomes (e : Expression) {e' : Expression} {d : Datum} (h : e.Becomes e')
    (value : e.eval env = some d) : e'.eval env = some d := by
  match e with
  | .literal l | .name x =>
    cases h
    exact value
  | .length operand =>
    obtain ⟨operand', becomes, measures⟩ := h
    obtain ⟨s, text, rfl⟩ := eval_length_eq_some.mp value
    exact measures.eval_eq (eval_length_eq_some.mpr ⟨s, eval_of_becomes operand becomes text, rfl⟩)
  | .negation sign operand =>
    obtain ⟨operand', becomes, negates⟩ := h
    obtain ⟨b, truth, word, rfl⟩ := eval_negation_eq_some.mp value
    exact negates.eval_eq (eval_negation_eq_some.mpr ⟨b, eval_of_becomes operand becomes truth, word, rfl⟩)
  | .operation left op right =>
    obtain ⟨left', right', first, second, reduces⟩ := h
    obtain ⟨x, y, o, a, b, applied⟩ := eval_operation_eq_some.mp value
    exact reduces.eval_eq (eval_operation_eq_some.mpr
      ⟨x, y, o, eval_of_becomes left first a, eval_of_becomes right second b, applied⟩)
  | .element .. | .call .. => cases value

end Values

/-! ## Plain expressions are simplified to plain expressions -/

section Plain

variable {a b e : Expression} {op : String}

theorem Reduces.plain (h : Reduces a op b e) (left : a.Plain)
    (sign : (Operator.ofSign? op).isSome = true) (right : b.Plain) : e.Plain := by
  cases h with
  | kept => exact ⟨left, sign, right⟩
  | left => exact left
  | right => exact right
  | computed computes =>
    obtain ⟨o, sign⟩ := Option.isSome_iff_exists.mp sign
    obtain ⟨x, first⟩ := Option.isSome_iff_exists.mp left
    obtain ⟨y, second⟩ := Option.isSome_iff_exists.mp right
    exact (computes.datum?_eq sign first second).1
  | _ => exact rfl

theorem Negates.plain (h : Negates sign a e) (operand : a.Plain) (word : isNot sign = true) :
    e.Plain := by
  cases h with
  | kept => exact ⟨word, operand⟩
  | verdict b => exact rfl
  | number => cases word
  | twice => exact operand.2

theorem Measures.plain (h : Measures a e) (operand : a.Plain) : e.Plain := by
  cases h with
  | kept => exact operand
  | phrase => exact rfl

theorem foldBinary_plain (left : a.Plain) (sign : (Operator.ofSign? op).isSome = true)
    (right : b.Plain) : ∃ t, foldBinary a.tree (.str op) b.tree = .ok t := by
  have folded : ∃ r, foldLiterals (.binaryOp a.tree (.str op) b.tree) op a.tree b.tree = .ok r := by
    cases a with
    | literal l =>
      cases b with
      | literal r =>
        obtain ⟨o, sign⟩ := Option.isSome_iff_exists.mp sign
        obtain ⟨x, first⟩ := Option.isSome_iff_exists.mp left
        obtain ⟨y, second⟩ := Option.isSome_iff_exists.mp right
        exact (folded_foldLiterals _ sign first second).exists_ok
      | _ => exact ⟨none, rfl⟩
    | _ => exact ⟨none, rfl⟩
  obtain ⟨result, folded⟩ := folded
  simp only [foldBinary, folded]
  cases result with
  | none => exact ⟨_, rfl⟩
  | some t => exact ⟨t, rfl⟩

theorem foldUnary_plain (word : isNot sign = true) : ∃ t, foldUnary (.str sign) a.tree = .ok t := by
  have other : sign ≠ "-" := by
    rintro rfl
    cases word
  cases a with
  | literal l =>
    simp only [foldUnary, Expression.tree, Literal.tree]
    split
    · exact ⟨_, rfl⟩
    · simp [Tree.isText, other]
  | _ => exact ⟨_, rfl⟩

theorem foldLength_expression : ∃ t, foldLength a.tree = .ok t := by
  cases a with
  | literal l =>
    cases l with
    | phrase s =>
      have length : foldLength (Literal.phrase s).tree =
          (do return numberLiteral (.int (← (unquoted (.str s)).length))) := rfl
      rw [Expression.tree, length, unquoted_eq]
      exact ⟨_, rfl⟩
    | _ => exact ⟨_, rfl⟩
  | _ => exact ⟨_, rfl⟩

end Plain

theorem simplify_plain (e : Expression) (plain : e.Plain) :
    ∃ e' : Expression, simplify e.tree = pure e'.tree ∧ e.Becomes e' ∧ e'.Plain := by
  match e with
  | .literal l => exact ⟨.literal l, rfl, rfl, plain⟩
  | .name x => exact ⟨.name x, rfl, rfl, trivial⟩
  | .length operand =>
    obtain ⟨operand', given, becomes, plain'⟩ := simplify_plain operand plain
    obtain ⟨t, folded⟩ := foldLength_expression (a := operand')
    obtain ⟨e', rfl, measures⟩ := measures_of_foldLength folded
    refine ⟨e', ?_, ⟨operand', becomes, measures⟩, measures.plain plain'⟩
    rw [Expression.tree, simplify, given, pure_bind, folded]
    rfl
  | .negation sign operand =>
    obtain ⟨word, plain⟩ := plain
    obtain ⟨operand', given, becomes, plain'⟩ := simplify_plain operand plain
    obtain ⟨t, folded⟩ := foldUnary_plain (a := operand') word
    obtain ⟨e', rfl, negates⟩ := negates_of_foldUnary folded
    refine ⟨e', ?_, ⟨operand', becomes, negates⟩, negates.plain plain' word⟩
    rw [Expression.tree, simplify, given, pure_bind, folded]
    rfl
  | .operation left op right =>
    obtain ⟨plain₁, sign, plain₂⟩ := plain
    obtain ⟨left', given₁, first, plain₁'⟩ := simplify_plain left plain₁
    obtain ⟨right', given₂, second, plain₂'⟩ := simplify_plain right plain₂
    obtain ⟨t, folded⟩ := foldBinary_plain plain₁' sign plain₂'
    obtain ⟨e', rfl, reduces⟩ := reduces_of_foldBinary folded
    refine ⟨e', ?_, ⟨left', right', first, second, reduces⟩, reduces.plain plain₁' sign plain₂'⟩
    rw [Expression.tree, simplify, given₁, given₂, pure_bind, pure_bind, folded]
    rfl

/-- A plain expression is simplified without a fault, to an expression that has its value wherever
it has one. -/
theorem simplified_expression_keeps_value (e : Expression) (plain : e.Plain) :
    ∃ e' : Expression, simplify e.tree = pure e'.tree ∧
      ∀ (env : Environment) (v : Datum), e.eval env = some v → e'.eval env = some v := by
  obtain ⟨e', given, becomes, -⟩ := simplify_plain e plain
  exact ⟨e', given, fun env v value => eval_of_becomes e becomes value⟩

def lengthDeniedTwice : Expression :=
  .negation "NOT" (.negation "NOT" (.operation
    (.length (.operation (.literal (.phrase "'ab'")) "+" (.literal (.phrase "\"c\"")))) ">="
    (.operation (.name "n") "-" (.name "n"))))

theorem lengthDeniedTwice_keeps_value :
    lengthDeniedTwice.Plain ∧
    ∃ e' : Expression, simplify lengthDeniedTwice.tree = pure e'.tree ∧
      ∀ (env : Environment) (v : Datum),
        lengthDeniedTwice.eval env = some v → e'.eval env = some v :=
  have plain : lengthDeniedTwice.Plain :=
    ⟨rfl, rfl, ⟨rfl, rfl, rfl⟩, rfl, trivial, rfl, trivial⟩
  ⟨plain, simplified_expression_keeps_value lengthDeniedTwice plain⟩

end PascalStack.Syntax
