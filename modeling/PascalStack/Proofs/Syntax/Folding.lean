import Mathlib.Data.List.Basic
import PascalStack.Proofs.Syntax.Basic
import PascalStack.Simplify.Folding

/-!
# What folding does to expressions

The rules by which an operation, a negation or a length whose parts are simplified becomes another
expression. Whatever folding makes of the tree of an expression is made by one of the rules, so
proofs about simplified expressions go by the rules and do not open the folding of trees.
-/

namespace PascalStack.Syntax

open Simplify

def Literal.Counts (n : Int) (l : Literal) : Prop :=
  l.typeName = "NUMBER" ∧ Tree.same l.value (.int n) = true

def Expression.numeral (n : Int) : Expression := .literal (.integer n)

def Expression.verdict (b : Bool) : Expression := .literal (.verdict b)

def Expression.decides (b : Bool) : Expression → Bool
  | .literal (.verdict c) => c == b
  | _ => false

variable {e b a : Expression} {t : Tree}

theorem Expression.decides_iff {b : Bool} : e.decides b = true ↔ e = .verdict b := by
  cases e with
  | literal l => cases l <;> simp [Expression.decides, Expression.verdict]
  | _ => simp [Expression.decides, Expression.verdict]

theorem isLiteral_tree {type : String} {value : Tree} :
    isLiteral type value e.tree = true ↔
      ∃ l : Literal, e = .literal l ∧ l.typeName = type ∧ Tree.same l.value value = true := by
  cases e with
  | literal l =>
    simp [Expression.tree, Literal.tree, isLiteral, Tree.isText]
  | _ => simp [Expression.tree, isLiteral]

theorem isLiteral_number_tree {n : Int} :
    isLiteral "NUMBER" (.int n) e.tree = true ↔ ∃ l : Literal, e = .literal l ∧ l.Counts n :=
  isLiteral_tree

theorem isTruth_tree (b : Bool) (e : Expression) : isTruth b e.tree = e.decides b := by
  rw [Bool.eq_iff_iff, isTruth, isLiteral_tree, Expression.decides_iff]
  constructor
  · rintro ⟨l, rfl, type, same⟩
    cases l with
    | verdict c =>
      cases b <;> cases c <;>
        simp_all [Literal.value, Tree.same, Tree.sameAtom, Tree.number?, Expression.verdict]
    | _ => simp [Literal.typeName] at type
  · rintro rfl
    refine ⟨.verdict b, rfl, rfl, ?_⟩
    cases b <;> decide

theorem unquoted_str (s : String) : ∃ s', unquoted (.str s) = .str s' := by
  simp only [unquoted]
  split
  · exact ⟨_, rfl⟩
  · exact ⟨s, rfl⟩

def Literal.Computes (l : Literal) (op : String) (r v : Literal) : Prop :=
  foldLiterals (.binaryOp l.tree (.str op) r.tree) op l.tree r.tree = .ok (some v.tree)

/-- A literal that changes nothing as the right operand. -/
inductive Neutral : String → Literal → Prop
  | plus {l : Literal} : l.Counts 0 → Neutral "+" l
  | minus {l : Literal} : l.Counts 0 → Neutral "-" l
  | times {l : Literal} : l.Counts 1 → Neutral "*" l
  | slash {l : Literal} : l.Counts 1 → Neutral "/" l
  | both : Neutral "AND" (.verdict true)
  | either : Neutral "OR" (.verdict false)

/-- A literal that changes nothing as the left operand. -/
inductive NeutralFirst : String → Literal → Prop
  | plus {l : Literal} : l.Counts 0 → NeutralFirst "+" l
  | times {l : Literal} : l.Counts 1 → NeutralFirst "*" l
  | both : NeutralFirst "AND" (.verdict true)
  | either : NeutralFirst "OR" (.verdict false)

inductive SameOperand : Expression → Expression → Prop
  | literal {l r : Literal} : l.typeName = r.typeName → Tree.same l.value r.value = true →
      SameOperand (.literal l) (.literal r)
  | name (x : String) : SameOperand (.name x) (.name x)

inductive OneIs (P : Literal → Prop) : Expression → Expression → Prop
  | left {l : Literal} {b : Expression} : P l → OneIs P (.literal l) b
  | right {a : Expression} {l : Literal} : P l → OneIs P a (.literal l)

/-- What an operation on simplified operands becomes. -/
inductive Reduces : Expression → String → Expression → Expression → Prop
  | kept (a : Expression) (op : String) (b : Expression) : Reduces a op b (.operation a op b)
  | computed {l r v : Literal} {op : String} : l.Computes op r v →
      Reduces (.literal l) op (.literal r) (.literal v)
  | left {a : Expression} {l : Literal} {op : String} : Neutral op l → Reduces a op (.literal l) a
  | right {l : Literal} {b : Expression} {op : String} : NeutralFirst op l →
      Reduces (.literal l) op b b
  | cancelled {a b : Expression} : SameOperand a b → Reduces a "-" b (.numeral 0)
  | vanished {a b : Expression} : OneIs (Literal.Counts 0) a b → Reduces a "*" b (.numeral 0)
  | divided {l : Literal} {b : Expression} : l.Counts 0 → Reduces (.literal l) "/" b (.numeral 0)
  | refuted {a b : Expression} : OneIs (· = .verdict false) a b →
      Reduces a "AND" b (.verdict false)
  | granted {a b : Expression} : OneIs (· = .verdict true) a b → Reduces a "OR" b (.verdict true)

/-- What a negation of a simplified operand becomes. -/
inductive Negates : String → Expression → Expression → Prop
  | kept (sign : String) (e : Expression) : Negates sign e (.negation sign e)
  | verdict (b : Bool) : Negates "NOT" (.verdict b) (.verdict !b)
  | number {l v : Literal} : l.typeName = "NUMBER" → v.typeName = "NUMBER" →
      Negates "-" (.literal l) (.literal v)
  | twice (e : Expression) : Negates "NOT" (.negation "NOT" e) e

/-- What the length of a simplified operand becomes. -/
inductive Measures : Expression → Expression → Prop
  | kept (e : Expression) : Measures e (.length e)
  | phrase {s text : String} : unquoted (.str s) = .str text →
      Measures (.literal (.phrase s)) (.numeral text.length)

def IsLiteral (t : Tree) : Prop := ∃ l : Literal, l.tree = t

theorem isLiteral_number (n : Number) : IsLiteral (numberLiteral (Tree.ofNumber n)) := by
  cases n with
  | int i => exact ⟨.integer i, rfl⟩
  | real x => exact ⟨.decimal x, rfl⟩

theorem isLiteral_bool (b : Bool) : IsLiteral (boolLiteral b) := ⟨.verdict b, rfl⟩

section Folding

variable {whole t a b : Tree} {op : String}

theorem isLiteral_of_onNumbers {name : String} {f : Number → Number → Except Fault Number}
    {r : Tree} (h : Tree.onNumbers name f a b = .ok r) : IsLiteral (numberLiteral r) := by
  rw [Tree.onNumbers] at h
  split at h
  · rename_i x y _ _
    cases result : f x y with
    | error f =>
      rw [result] at h
      cases h
    | ok n =>
      rw [result] at h
      cases h
      exact isLiteral_number n
  · cases h

theorem isLiteral_of_relation {r : Tree.Relation} (h : relation r a b = .ok (some t)) :
    IsLiteral t := by
  cases related : Tree.relate r a b with
  | error f => simp [relation, related, bind, Except.bind] at h
  | ok holds =>
    simp only [relation, related, bind, Except.bind, pure, Except.pure] at h
    cases h
    exact isLiteral_bool holds

theorem isLiteral_of_number {x : Except Fault Tree}
    (number : ∀ r, x = .ok r → IsLiteral (numberLiteral r))
    (h : (do return some (numberLiteral (← x)) : Except Fault (Option Tree)) = .ok (some t)) :
    IsLiteral t := by
  cases x with
  | error f => cases h
  | ok r =>
    cases h
    exact number r rfl

theorem isLiteral_of_division {f : Tree → Tree → Except Fault Tree}
    (number : ∀ r, f a b = .ok r → IsLiteral (numberLiteral r))
    (h : division f whole a b = .ok (some t)) : t = whole ∨ IsLiteral t := by
  rw [division] at h
  split at h
  · cases h
    exact .inl rfl
  · exact .inr (isLiteral_of_number number h)

theorem add_ofNumber (x y : Number) : Tree.add (Tree.ofNumber x) (Tree.ofNumber y) =
    Tree.onNumbers "+" Number.add (Tree.ofNumber x) (Tree.ofNumber y) := by
  cases x <;> cases y <;> rfl

theorem mul_ofNumber (x y : Number) : Tree.mul (Tree.ofNumber x) (Tree.ofNumber y) =
    Tree.onNumbers "*" Number.mul (Tree.ofNumber x) (Tree.ofNumber y) := by
  cases x <;> cases y <;> rfl

theorem floorMod_ofNumber (x y : Number) : Tree.floorMod (Tree.ofNumber x) (Tree.ofNumber y) =
    Tree.onNumbers "%" Number.floorMod (Tree.ofNumber x) (Tree.ofNumber y) := by
  cases x <;> rfl

theorem isLiteral_of_foldNumbers (x y : Number)
    (h : foldNumbers whole op (Tree.ofNumber x) (Tree.ofNumber y) = .ok (some t)) :
    t = whole ∨ IsLiteral t := by
  unfold foldNumbers at h
  split at h
  · exact .inr (isLiteral_of_number
      (fun r sum => isLiteral_of_onNumbers (add_ofNumber x y ▸ sum)) h)
  · exact .inr (isLiteral_of_number (fun r => isLiteral_of_onNumbers) h)
  · exact .inr (isLiteral_of_number
      (fun r product => isLiteral_of_onNumbers (mul_ofNumber x y ▸ product)) h)
  · exact isLiteral_of_division (fun r => isLiteral_of_onNumbers) h
  · exact isLiteral_of_division (fun r => isLiteral_of_onNumbers) h
  · exact isLiteral_of_division
      (fun r rest => isLiteral_of_onNumbers (floorMod_ofNumber x y ▸ rest)) h
  · cases h
    exact .inr (isLiteral_bool _)
  · cases h
    exact .inr (isLiteral_bool _)
  · exact .inr (isLiteral_of_relation h)
  · exact .inr (isLiteral_of_relation h)
  · exact .inr (isLiteral_of_relation h)
  · exact .inr (isLiteral_of_relation h)
  · cases h

theorem isLiteral_of_foldBools {x y : Bool} (h : foldBools op x y = some t) : IsLiteral t := by
  unfold foldBools at h
  split at h
  case h_5 => cases h
  all_goals
    cases h
    exact isLiteral_bool _

theorem isLiteral_of_foldPhrases {x y : String}
    (h : foldPhrases op (.str x) (.str y) = .ok (some t)) : IsLiteral t := by
  unfold foldPhrases at h
  split at h
  · cases h
    exact ⟨.phrase ("\"" ++ (x ++ y) ++ "\""), rfl⟩
  · cases h
    exact isLiteral_bool _
  · cases h
    exact isLiteral_bool _
  · exact isLiteral_of_relation h
  · exact isLiteral_of_relation h
  · exact isLiteral_of_relation h
  · exact isLiteral_of_relation h
  · cases h

theorem isLiteral_of_foldLiterals (l r : Literal)
    (h : foldLiterals whole op l.tree r.tree = .ok (some t)) : t = whole ∨ IsLiteral t := by
  cases l with
  | integer m =>
    cases r with
    | integer n => exact isLiteral_of_foldNumbers (.int m) (.int n) h
    | decimal y => exact isLiteral_of_foldNumbers (.int m) (.real y) h
    | _ => cases h
  | decimal x =>
    cases r with
    | integer n => exact isLiteral_of_foldNumbers (.real x) (.int n) h
    | decimal y => exact isLiteral_of_foldNumbers (.real x) (.real y) h
    | _ => cases h
  | truth b => cases r <;> cases h
  | verdict b =>
    cases r with
    | verdict c => exact .inr (isLiteral_of_foldBools (Except.ok.inj h))
    | _ => cases h
  | phrase s =>
    cases r with
    | phrase s' =>
      obtain ⟨x, first⟩ := unquoted_str s
      obtain ⟨y, second⟩ := unquoted_str s'
      have folded : foldPhrases op (unquoted (.str s)) (unquoted (.str s')) = .ok (some t) := h
      rw [first, second] at folded
      exact .inr (isLiteral_of_foldPhrases folded)
    | _ => cases h

end Folding

theorem sameOperand_of_tree (h : sameOperand a.tree b.tree = true) : SameOperand a b := by
  cases a with
  | literal l =>
    cases b with
    | literal r =>
      simp only [Expression.tree, Literal.tree, sameOperand, Bool.and_eq_true] at h
      refine .literal ?_ h.1
      simpa [Tree.same, Tree.sameAtom, Tree.number?] using h.2
    | _ => simp [Expression.tree, Literal.tree, sameOperand] at h
  | name x =>
    cases b with
    | name y =>
      have equal : x = y := by
        simpa [Expression.tree, sameOperand, Tree.same, Tree.sameAtom, Tree.number?] using h
      exact equal ▸ .name x
    | _ => simp [Expression.tree, Literal.tree, sameOperand] at h
  | _ => simp [Expression.tree, sameOperand] at h

/-! ## Neutral and absorbing operands -/

def ReducesTo (a : Expression) (op : String) (b : Expression) (t : Tree) : Prop :=
  ∃ e : Expression, e.tree = t ∧ Reduces a op b e

section Absorb

variable {a b : Expression} {op : String} {n : Int} {truth : Bool}

theorem reducesTo_kept (a : Expression) (op : String) (b : Expression) :
    ReducesTo a op b (.binaryOp a.tree (.str op) b.tree) := ⟨_, rfl, .kept a op b⟩

theorem ReducesTo.ite {c : Bool} {t' : Tree} (yes : c = true → ReducesTo a op b t)
    (no : ReducesTo a op b t') : ReducesTo a op b (if c then t else t') := by
  cases c with
  | true => exact yes rfl
  | false => exact no

theorem reducesTo_left (neutral : ∀ {l : Literal}, l.Counts n → Neutral op l)
    (h : isLiteral "NUMBER" (.int n) b.tree = true) : ReducesTo a op b a.tree := by
  obtain ⟨l, rfl, counts⟩ := isLiteral_number_tree.mp h
  exact ⟨a, rfl, .left (neutral counts)⟩

theorem reducesTo_right (neutral : ∀ {l : Literal}, l.Counts n → NeutralFirst op l)
    (h : isLiteral "NUMBER" (.int n) a.tree = true) : ReducesTo a op b b.tree := by
  obtain ⟨l, rfl, counts⟩ := isLiteral_number_tree.mp h
  exact ⟨b, rfl, .right (neutral counts)⟩

theorem eq_verdict_of_isTruth (h : isTruth truth e.tree = true) :
    e = .verdict truth := Expression.decides_iff.mp (isTruth_tree truth e ▸ h)

theorem reducesTo_leftTruth (neutral : Neutral op (.verdict truth))
    (h : isTruth truth b.tree = true) : ReducesTo a op b a.tree := by
  rw [eq_verdict_of_isTruth h]
  exact ⟨a, rfl, .left neutral⟩

theorem reducesTo_rightTruth (neutral : NeutralFirst op (.verdict truth))
    (h : isTruth truth a.tree = true) : ReducesTo a op b b.tree := by
  rw [eq_verdict_of_isTruth h]
  exact ⟨b, rfl, .right neutral⟩

theorem oneIs_zero (h : (isLiteral "NUMBER" (.int n) b.tree ||
    isLiteral "NUMBER" (.int n) a.tree) = true) : OneIs (Literal.Counts n) a b := by
  rcases Bool.or_eq_true_iff.mp h with right | left
  · obtain ⟨l, rfl, counts⟩ := isLiteral_number_tree.mp right
    exact .right counts
  · obtain ⟨l, rfl, counts⟩ := isLiteral_number_tree.mp left
    exact .left counts

theorem reducesTo_absorb (a : Expression) (op : String) (b : Expression) :
    ReducesTo a op b (absorb a.tree op b.tree) := by
  unfold absorb
  split
  · exact .ite (reducesTo_left .plus) (.ite (reducesTo_right .plus) (reducesTo_kept a _ b))
  · refine .ite (reducesTo_left .minus) (.ite (fun same => ?_) (reducesTo_kept a _ b))
    exact ⟨.numeral 0, rfl, .cancelled (sameOperand_of_tree same)⟩
  · refine .ite (reducesTo_left .times) (.ite (reducesTo_right .times) ?_)
    refine .ite (fun zero => ?_) (reducesTo_kept a _ b)
    exact ⟨.numeral 0, rfl, .vanished (oneIs_zero zero)⟩
  · refine .ite (reducesTo_left .slash) (.ite (fun zero => ?_) (reducesTo_kept a _ b))
    obtain ⟨l, rfl, counts⟩ := isLiteral_number_tree.mp (Bool.and_eq_true_iff.mp zero).1
    exact ⟨.numeral 0, rfl, .divided counts⟩
  · refine .ite (fun decided => ?_) (.ite (fun decided => ?_) (.ite (reducesTo_leftTruth .both)
      (.ite (reducesTo_rightTruth .both) (reducesTo_kept a _ b))))
    · exact ⟨.verdict false, rfl, .refuted (eq_verdict_of_isTruth decided ▸ .right rfl)⟩
    · exact ⟨.verdict false, rfl, .refuted (eq_verdict_of_isTruth decided ▸ .left rfl)⟩
  · refine .ite (fun decided => ?_) (.ite (fun decided => ?_) (.ite (reducesTo_leftTruth .either)
      (.ite (reducesTo_rightTruth .either) (reducesTo_kept a _ b))))
    · exact ⟨.verdict true, rfl, .granted (eq_verdict_of_isTruth decided ▸ .right rfl)⟩
    · exact ⟨.verdict true, rfl, .granted (eq_verdict_of_isTruth decided ▸ .left rfl)⟩
  · exact reducesTo_kept a op b

end Absorb

theorem reduces_of_foldBinary {op : String} (h : foldBinary a.tree (.str op) b.tree = .ok t) :
    ReducesTo a op b t := by
  simp only [foldBinary] at h
  cases folded : foldLiterals (.binaryOp a.tree (.str op) b.tree) op a.tree b.tree with
  | error f =>
    rw [folded] at h
    cases h
  | ok result =>
    rw [folded] at h
    cases result with
    | none =>
      cases h
      exact reducesTo_absorb a op b
    | some r =>
      cases h
      cases a with
      | literal l =>
        cases b with
        | literal l' =>
          rcases isLiteral_of_foldLiterals l l' folded with rfl | ⟨v, rfl⟩
          · exact ⟨_, rfl, .kept (.literal l) op (.literal l')⟩
          · exact ⟨.literal v, rfl, .computed folded⟩
        | _ => cases folded
      | _ => cases folded

theorem negates_of_foldUnary {sign : String} (h : foldUnary (.str sign) e.tree = .ok t) :
    ∃ e' : Expression, e'.tree = t ∧ Negates sign e e' := by
  have kept : ∃ e' : Expression, e'.tree = .unaryOp (.str sign) e.tree ∧ Negates sign e e' :=
    ⟨_, rfl, .kept sign e⟩
  cases e with
  | literal l =>
    simp only [foldUnary, Expression.tree, Literal.tree] at h
    split at h
    · rename_i cond
      simp only [Tree.isText, Bool.and_eq_true, beq_iff_eq] at cond
      obtain ⟨rfl, type⟩ := cond
      cases h
      cases l with
      | verdict b =>
        refine ⟨.verdict !b, ?_, .verdict b⟩
        cases b <;> rfl
      | _ => simp [Literal.typeName] at type
    · split at h
      · rename_i cond
        simp only [Tree.isText, Bool.and_eq_true, beq_iff_eq] at cond
        obtain ⟨rfl, type⟩ := cond
        cases l with
        | integer n =>
          cases h
          exact ⟨.literal (.integer (-n)), rfl, .number rfl rfl⟩
        | decimal x =>
          cases h
          exact ⟨.literal (.decimal (-x)), rfl, .number rfl rfl⟩
        | _ => simp [Literal.typeName] at type
      · cases h
        exact kept
  | negation inner e =>
    simp only [foldUnary, Expression.tree] at h
    cases h
    split
    · rename_i cond
      simp only [Tree.isText, Bool.and_eq_true, beq_iff_eq] at cond
      obtain ⟨rfl, rfl⟩ := cond
      exact ⟨e, rfl, .twice e⟩
    · exact kept
  | _ =>
    cases h
    exact kept

theorem measures_of_foldLength (h : foldLength e.tree = .ok t) :
    ∃ e' : Expression, e'.tree = t ∧ Measures e e' := by
  have kept : ∃ e' : Expression, e'.tree = .lengthFunction e.tree ∧ Measures e e' :=
    ⟨_, rfl, .kept e⟩
  cases e with
  | literal l =>
    cases l with
    | phrase s =>
      obtain ⟨text, unquote⟩ := unquoted_str s
      have length : foldLength (Literal.phrase s).tree =
          (do return numberLiteral (.int (← (unquoted (.str s)).length))) := rfl
      rw [Expression.tree, length, unquote] at h
      cases h
      exact ⟨.numeral text.length, rfl, .phrase unquote⟩
    | _ =>
      cases h
      exact kept
  | _ =>
    cases h
    exact kept

end PascalStack.Syntax
