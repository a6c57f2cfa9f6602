import Mathlib.Tactic.FinCases
import PascalStack.Proofs.Analysis.Expressions
import PascalStack.Proofs.Analysis.Scope
import PascalStack.Proofs.Syntax.Types

/-!
# Which well-typed expressions are accepted

Expressions over variables of four types have standard types. The analyzer does not go by them: a
numeral keeps a type of its own, which does not go with real numbers, a quoted text is not joined to
another string, and the word of a negation is not one it knows. It accepts just the well-typed
expressions in which nothing of this happens.
-/

namespace PascalStack.Syntax

/-- What is told apart among numbers: numerals, real numbers, and the rest. -/
inductive Shade where
  | numeral
  | real
  | other
  deriving DecidableEq, Repr

namespace Shade

def join : Shade → Shade → Shade
  | numeral, numeral => numeral
  | real, _ | _, real => real
  | _, _ => other

def clash : Shade → Shade → Bool
  | numeral, real | real, numeral => true
  | _, _ => false

def name : Shade → String
  | numeral => "NUMBER"
  | real => "REAL"
  | other => "INTEGER"

end Shade

/-- The shade of an expression: what is made of numerals alone, of a real variable or a quotient,
or neither. A numeral with a fraction is a numeral. -/
def Expression.shade (Γ : TypeContext) : Expression → Shade
  | literal (.integer _) | literal (.decimal _) => .numeral
  | name x => if Γ x = some .real then .real else .other
  | operation l op r =>
    if op = "/" then .real
    else if op ∈ ["+", "-", "*"] then (l.shade Γ).join (r.shade Γ)
    else .other
  | _ => .other

def Expression.isQuoted : Expression → Bool
  | literal (.phrase _) => true
  | _ => false

/-- Nothing is negated, no numeral stands beside a real number, and no quoted text is joined to
another string. -/
def Expression.Unmixed (Γ : TypeContext) : Expression → Prop
  | negation _ _ => False
  | operation l op r => l.Unmixed Γ ∧ r.Unmixed Γ ∧ (l.shade Γ).clash (r.shade Γ) = false ∧
      (op = "+" → l.isQuoted = r.isQuoted)
  | _ => True

def Expression.shownType (Γ : TypeContext) (e : Expression) : BaseType → String
  | .integer | .real => (e.shade Γ).name
  | .boolean => "BOOLEAN"
  | .string => if e.isQuoted then "PHRASE" else "STRING"

namespace HasType

variable {Γ : TypeContext} {e : Expression} {τ : BaseType}

theorem shownType_numeric (h : τ.isNumeric = true) : e.shownType Γ τ = (e.shade Γ).name := by
  cases τ <;> first | rfl | cases h

theorem shade_other (h : HasType Γ e τ) (other : τ.isNumeric = false) : e.shade Γ = .other := by
  induction h with
  | integer | decimal | quotient | whole => cases other
  | truth | phrase | negation => rfl
  | @name x τ known =>
    have differs : Γ x ≠ some .real := by
      intro real
      rw [known, Option.some_inj] at real
      subst real
      cases other
    exact if_neg differs
  | @arithmetic _ _ _ σ τ =>
    cases σ <;> cases τ <;> cases other
  | concatenation _ _ ih ih' =>
    simp [Expression.shade, ih rfl, ih' rfl, Shade.join]
  | numericRelation member | stringRelation member =>
    fin_cases member <;> simp [Expression.shade]
  | booleanRelation member | logic member =>
    fin_cases member <;> simp [Expression.shade]

theorem shade_ne_real (h : HasType Γ e τ) (integer : τ = .integer) : e.shade Γ ≠ .real := by
  induction h with
  | integer => nofun
  | @name x τ known =>
    have differs : Γ x ≠ some .real := by
      rw [known, integer]
      nofun
    rw [Expression.shade, if_neg differs]
    nofun
  | @arithmetic op l r σ τ member _ _ _ _ ih ih' =>
    have both : σ = .integer ∧ τ = .integer := by cases σ <;> cases τ <;> simp_all [BaseType.join]
    have slash : op ≠ "/" := by
      rintro rfl
      simp at member
    have left := ih both.1
    have right := ih' both.2
    rw [Expression.shade, if_neg slash, if_pos member]
    cases hl : l.shade Γ <;> cases hr : r.shade Γ <;> simp_all [Shade.join]
  | whole member =>
    fin_cases member <;> simp [Expression.shade]
  | _ => cases integer

theorem isQuoted_false (h : HasType Γ e τ) (other : τ ≠ .string) : e.isQuoted = false := by
  cases h with
  | phrase => exact absurd rfl other
  | _ => rfl

end HasType

def Expression.decideUnmixed (Γ : TypeContext) : (e : Expression) → Decidable (e.Unmixed Γ)
  | negation _ _ => instDecidableFalse
  | operation l op r =>
    have := decideUnmixed Γ l
    have := decideUnmixed Γ r
    inferInstanceAs (Decidable (l.Unmixed Γ ∧ r.Unmixed Γ ∧
      (l.shade Γ).clash (r.shade Γ) = false ∧ (op = "+" → l.isQuoted = r.isQuoted)))
  | literal _ | name _ | element _ _ | call _ _ | length _ => instDecidableTrue

instance (Γ : TypeContext) (e : Expression) : Decidable (e.Unmixed Γ) := e.decideUnmixed Γ

end PascalStack.Syntax

namespace PascalStack.Analysis

open Checking Syntax

section Tables

variable {op : String}

theorem lookup_arithmetic (member : op ∈ ["+", "-", "*"]) (a b : Shade) :
    (operatorTable op).lookup (a.name, b.name) =
      if a.clash b then none else some (a.join b).name := by
  fin_cases member <;> cases a <;> cases b <;> decide

theorem lookup_quotient (a b : Shade) :
    (operatorTable "/").lookup (a.name, b.name) =
      if a.clash b then none else some "REAL" := by
  cases a <;> cases b <;> decide

theorem lookup_whole (member : op ∈ ["div", "mod"]) {a b : Shade} (left : a ≠ .real)
    (right : b ≠ .real) : (operatorTable op).lookup (a.name, b.name) = some "INTEGER" := by
  fin_cases member <;> cases a <;> cases b <;>
    first | decide | exact absurd rfl left | exact absurd rfl right

theorem lookup_numericRelation (member : op ∈ ["=", "<>", "<", "<=", ">", ">="]) (a b : Shade) :
    (operatorTable op).lookup (a.name, b.name) =
      if a.clash b then none else some "BOOLEAN" := by
  fin_cases member <;> cases a <;> cases b <;> decide

def stringType (quoted : Bool) : String := if quoted then "PHRASE" else "STRING"

theorem lookup_concatenation (p q : Bool) :
    (operatorTable "+").lookup (stringType p, stringType q) =
      if p = q then some "STRING" else none := by
  cases p <;> cases q <;> decide

theorem lookup_stringRelation (member : op ∈ ["=", "<>", "<", "<=", ">", ">="]) (p q : Bool) :
    (operatorTable op).lookup (stringType p, stringType q) = some "BOOLEAN" := by
  fin_cases member <;> cases p <;> cases q <;> decide

theorem lookup_boolean (member : op ∈ ["=", "<>", "and", "or"]) :
    (operatorTable op).lookup ("BOOLEAN", "BOOLEAN") = some "BOOLEAN" := by
  fin_cases member <;> decide

end Tables

/-! ## Checks -/

def Declares (Γ : TypeContext) (s : Scope) : Prop :=
  ∀ x τ, Γ x = some τ → ∃ symbol, s.find? (.str x) = some symbol ∧ symbol.type = .named τ.name

/-- How the check of an expression ends, whose standard type is known: with a named type, and
without a new error just if the expression is accepted, which then has the type that is shown. -/
def Ends (Γ : TypeContext) (e : Expression) (τ : BaseType) (a : Analyzer) : Prop :=
  ∃ type a', (check e.tree).run a = .ok (.named type) a' ∧
    (a'.errors = a.errors ↔ e.Unmixed Γ) ∧ (e.Unmixed Γ → type = e.shownType Γ τ)

section Checks

variable {Γ : TypeContext} {e l r : Expression} {σ τ υ : BaseType} {op : String} {a : Analyzer}

theorem errors_eq_iff {first middle last : List String} (added : first <+: middle)
    (added' : middle <+: last) : last = first ↔ middle = first ∧ last = middle := by
  constructor
  · rintro rfl
    have same : middle = last := added'.eq_of_length_le added.length_le
    exact ⟨same, same.symm⟩
  · rintro ⟨rfl, rfl⟩
    rfl

theorem run_checkOperation (op left right : String) (a : Analyzer) :
    ∃ type a', (checkOperation (.str op) (.named left) (.named right)).run a =
        .ok (.named type) a' ∧
      (a'.errors = a.errors ↔ ((operatorTable op).lookup (left, right)).isSome = true) ∧
      ∀ found, (operatorTable op).lookup (left, right) = some found → type = found := by
  have looked : EStateM.run (ofExcept (operationType? (.str op) (.named left) (.named right)) :
      Checking (Option String)) a = .ok ((operatorTable op).lookup (left, right)) a := rfl
  cases known : (operatorTable op).lookup (left, right) with
  | some type =>
    rw [known] at looked
    exact ⟨type, a, run_seq looked rfl, by simp, by simp⟩
  | none =>
    rw [known] at looked
    exact ⟨"UNKNOWN", _, run_seq looked rfl, by simp, by simp⟩

theorem ends_operation (first : Ends Γ l σ a)
    (second : ∀ a', a'.scope = a.scope → Ends Γ r τ a')
    (table : (operatorTable op).lookup (l.shownType Γ σ, r.shownType Γ τ) =
      if (l.shade Γ).clash (r.shade Γ) = false ∧ (op = "+" → l.isQuoted = r.isQuoted)
      then some ((Expression.operation l op r).shownType Γ υ) else none) :
    Ends Γ (.operation l op r) υ a := by
  obtain ⟨left, a₁, run₁, errors₁, shown₁⟩ := first
  have keeps₁ : Keeps a a₁ := Moves.of_run run₁
  obtain ⟨right, a₂, run₂, errors₂, shown₂⟩ := second a₁ keeps₁.scope
  have keeps₂ : Keeps a₁ a₂ := Moves.of_run run₂
  obtain ⟨type, a₃, run₃, errors₃, shown₃⟩ := run_checkOperation op left right a₂
  have keeps₃ : Keeps a₂ a₃ := Moves.of_run run₃
  refine ⟨type, a₃, run_seq run₁ (run_seq run₂ run₃), ?_, ?_⟩
  · rw [errors_eq_iff (keeps₁.errors.trans keeps₂.errors) keeps₃.errors,
      errors_eq_iff keeps₁.errors keeps₂.errors, errors₁, errors₂, errors₃, and_assoc]
    refine and_congr_right fun unmixed => and_congr_right fun unmixed' => ?_
    rw [shown₁ unmixed, shown₂ unmixed', table]
    split <;> simp_all
  · rintro ⟨unmixed, unmixed', fits⟩
    apply shown₃
    rw [shown₁ unmixed, shown₂ unmixed', table, if_pos fits]

theorem ends_literal (literal : Literal) (unmixed : (Expression.literal literal).Unmixed Γ)
    (shown : literal.typeName = (Expression.literal literal).shownType Γ τ) :
    Ends Γ (.literal literal) τ a :=
  ⟨literal.typeName, a, rfl, by simp [unmixed], fun _ => shown⟩

theorem ends_name {x : String} (declared : Declares Γ a.scope) (known : Γ x = some τ) :
    Ends Γ (.name x) τ a := by
  obtain ⟨symbol, found, type⟩ := declared x τ known
  refine ⟨τ.name, a, ?_, by simp [Expression.Unmixed], fun _ => ?_⟩
  · have looked : (find? (.str x)).run a = .ok (some symbol) a := by
      rw [← found]
      rfl
    rw [← type]
    exact run_seq looked rfl
  · cases τ <;> simp [Expression.shownType, Expression.shade, Expression.isQuoted, known,
      BaseType.name, Shade.name]

theorem ends_negation (operand : Ends Γ e .boolean a) :
    Ends Γ (.negation "NOT" e) .boolean a := by
  obtain ⟨type, a₁, run, errors, -⟩ := operand
  have added : Extends a a₁ := Moves.of_run run
  obtain ⟨a₂, refused, longer⟩ : ∃ a₂, (checkUnary (.str "NOT") (.named type)).run a₁ =
      .ok (.named "UNKNOWN") a₂ ∧ ∃ message, a₂.errors = a₁.errors ++ [message] :=
    ⟨_, rfl, _, rfl⟩
  obtain ⟨message, longer⟩ := longer
  refine ⟨"UNKNOWN", a₂, run_seq run refused, ?_, False.elim⟩
  rw [errors_eq_iff added (longer ▸ List.prefix_append _ _), longer]
  simp [Expression.Unmixed]

theorem ends_boolean (member : op ∈ ["=", "<>", "and", "or"]) (left : HasType Γ l .boolean)
    (right : HasType Γ r .boolean) (first : Ends Γ l .boolean a)
    (second : ∀ a', a'.scope = a.scope → Ends Γ r .boolean a') :
    Ends Γ (.operation l op r) .boolean a := by
  refine ends_operation first second ?_
  have sum : op ≠ "+" := by
    rintro rfl
    simp at member
  rw [left.shade_other rfl, right.shade_other rfl]
  refine (lookup_boolean member).trans ?_
  simp [Shade.clash, sum, Expression.shownType]

theorem ends_of_hasType (typed : HasType Γ e τ) (declared : Declares Γ a.scope) : Ends Γ e τ a := by
  induction typed generalizing a with
  | integer n => exact ends_literal _ trivial rfl
  | decimal x => exact ends_literal _ trivial rfl
  | truth b => exact ends_literal _ trivial rfl
  | phrase s => exact ends_literal _ trivial rfl
  | name known => exact ends_name declared known
  | @arithmetic op l r σ τ member left right first second ih ih' =>
    refine ends_operation (ih declared) (fun a' same => ih' (same ▸ declared)) ?_
    have unquoted : l.isQuoted = r.isQuoted := by
      rw [left.isQuoted_false, right.isQuoted_false]
      all_goals
        rintro rfl
        contradiction
    have slash : op ≠ "/" := by
      rintro rfl
      simp at member
    have numeric : (σ.join τ).isNumeric = true := by cases σ <;> cases τ <;> rfl
    rw [HasType.shownType_numeric first, HasType.shownType_numeric second,
      HasType.shownType_numeric numeric, lookup_arithmetic member, Expression.shade, if_neg slash,
      if_pos member]
    cases (l.shade Γ).clash (r.shade Γ) <;> simp [unquoted]
  | @quotient l r σ τ left right first second ih ih' =>
    refine ends_operation (ih declared) (fun a' same => ih' (same ▸ declared)) ?_
    rw [HasType.shownType_numeric first, HasType.shownType_numeric second, lookup_quotient]
    cases (l.shade Γ).clash (r.shade Γ) <;> rfl
  | @whole op l r member left right ih ih' =>
    refine ends_operation (ih declared) (fun a' same => ih' (same ▸ declared)) ?_
    have first := left.shade_ne_real rfl
    have second := right.shade_ne_real rfl
    have apart : (l.shade Γ).clash (r.shade Γ) = false := by
      cases hl : l.shade Γ <;> cases hr : r.shade Γ <;> simp_all [Shade.clash]
    have shown : (Expression.operation l op r).shownType Γ .integer = "INTEGER" := by
      fin_cases member <;> simp [Expression.shownType, Expression.shade, Shade.name]
    rw [HasType.shownType_numeric rfl, HasType.shownType_numeric rfl, shown,
      lookup_whole member first second, apart, left.isQuoted_false nofun,
      right.isQuoted_false nofun]
    simp
  | @concatenation l r left right ih ih' =>
    refine ends_operation (ih declared) (fun a' same => ih' (same ▸ declared)) ?_
    rw [left.shade_other rfl, right.shade_other rfl]
    have shown : (Expression.operation l "+" r).shownType Γ .string = "STRING" := rfl
    rw [shown]
    refine (lookup_concatenation _ _).trans ?_
    by_cases same : l.isQuoted = r.isQuoted <;> simp [same, Shade.clash]
  | @numericRelation op l r σ τ member left right first second ih ih' =>
    refine ends_operation (ih declared) (fun a' same => ih' (same ▸ declared)) ?_
    have sum : op ≠ "+" := by
      rintro rfl
      simp at member
    rw [HasType.shownType_numeric first, HasType.shownType_numeric second,
      lookup_numericRelation member]
    cases (l.shade Γ).clash (r.shade Γ) <;> simp [sum, Expression.shownType]
  | @stringRelation op l r member left right ih ih' =>
    refine ends_operation (ih declared) (fun a' same => ih' (same ▸ declared)) ?_
    have sum : op ≠ "+" := by
      rintro rfl
      simp at member
    rw [left.shade_other rfl, right.shade_other rfl]
    refine (lookup_stringRelation member _ _).trans ?_
    simp [Shade.clash, sum, Expression.shownType]
  | @booleanRelation op l r member left right ih ih' =>
    exact ends_boolean (List.mem_append_left ["and", "or"] member) left right (ih declared)
      fun a' same => ih' (same ▸ declared)
  | @logic op l r member left right ih ih' =>
    exact ends_boolean (List.mem_append_right ["=", "<>"] member) left right (ih declared)
      fun a' same => ih' (same ▸ declared)
  | negation _ ih => exact ends_negation (ih declared)

end Checks

def scopeOf : List (String × BaseType) → Scope
  | [] => {}
  | (x, τ) :: earlier =>
    (scopeOf earlier).define ⟨0, .str x, .named τ.name, .bool false, .bool false, .none, .variable⟩

theorem declares_scopeOf (declared : List (String × BaseType)) :
    Declares (contextOf declared) (scopeOf declared) := by
  induction declared with
  | nil => exact fun x τ known => nomatch known
  | cons declaration earlier ih =>
    obtain ⟨x, τ⟩ := declaration
    intro y υ known
    change ∃ symbol, (scopeOf ((x, τ) :: earlier)).view y = some symbol ∧ _
    rw [scopeOf, Scope.view_define rfl]
    by_cases same : y = x
    · subst same
      rw [contextOf, Function.update_self, Option.some_inj] at known
      subst known
      exact ⟨_, Function.update_self .., rfl⟩
    · rw [contextOf, Function.update_of_ne same] at known
      rw [Function.update_of_ne same]
      exact ih y υ known

/-- The check of every well-typed expression over declared variables comes to an end, and it
reports nothing just if nothing in the expression is mixed. -/
theorem wellTyped_reports_nothing_iff {Γ : TypeContext} {e : Expression} {τ : BaseType}
    {a : Analyzer} (typed : HasType Γ e τ) (declared : Declares Γ a.scope) :
    ∃ type a', (check e.tree).run a = .ok (.named type) a' ∧
      (a'.errors = a.errors ↔ e.Unmixed Γ) := by
  obtain ⟨type, a', run, errors, -⟩ := ends_of_hasType typed declared
  exact ⟨type, a', run, errors⟩

def comparedQuotient : Expression :=
  .operation (.operation (.name "n") "+" (.literal (.integer 1))) "<"
    (.operation (.name "r") "/" (.name "n"))

def numberVariables : List (String × BaseType) := [("n", .integer), ("r", .real)]

theorem hasType_n : HasType (contextOf numberVariables) (.name "n") .integer := .name (by decide)

theorem hasType_r : HasType (contextOf numberVariables) (.name "r") .real := .name (by decide)

theorem hasType_comparedQuotient : HasType (contextOf numberVariables) comparedQuotient .boolean :=
  .numericRelation (by decide) (.arithmetic (by decide) hasType_n (.integer 1) rfl rfl)
    (.quotient hasType_r hasType_n rfl rfl) rfl rfl

/-- A sum with a numeral is compared with a quotient of variables, and nothing is reported. -/
theorem comparedQuotient_reports_nothing :
    HasType (contextOf numberVariables) comparedQuotient .boolean ∧
      comparedQuotient.Unmixed (contextOf numberVariables) ∧
      ∃ type a', (check comparedQuotient.tree).run { scope := scopeOf numberVariables } =
        .ok (.named type) a' ∧ a'.errors = [] := by
  have unmixed : comparedQuotient.Unmixed (contextOf numberVariables) := by decide
  obtain ⟨type, a', run, errors⟩ := wellTyped_reports_nothing_iff
    (a := { scope := scopeOf numberVariables }) hasType_comparedQuotient
    (declares_scopeOf numberVariables)
  exact ⟨hasType_comparedQuotient, unmixed, type, a', run, errors.mpr unmixed⟩

/-- The sum `r + 1` of a real number and a numeral, and the negation `not b`, are well typed and are
reported. -/
theorem mixed_expressions_reported :
    (∃ a', HasType (contextOf numberVariables)
        (.operation (.name "r") "+" (.literal (.integer 1))) .real ∧
      (check (Expression.operation (.name "r") "+" (.literal (.integer 1))).tree).run
        { scope := scopeOf numberVariables } = .ok (.named "UNKNOWN") a' ∧
      a'.errors = ["Invalid operands REAL and NUMBER for operator +"]) ∧
    ∃ a', HasType (contextOf [("b", .boolean)]) (.negation "NOT" (.name "b")) .boolean ∧
      (check (Expression.negation "NOT" (.name "b")).tree).run
        { scope := scopeOf [("b", .boolean)] } = .ok (.named "UNKNOWN") a' ∧
      a'.errors = ["Invalid operand BOOLEAN for unary operator NOT"] :=
  ⟨⟨_, .arithmetic (by decide) hasType_r (.integer 1) rfl rfl, rfl, rfl⟩,
    ⟨_, .negation (.name (by decide)), rfl, rfl⟩⟩

end PascalStack.Analysis
