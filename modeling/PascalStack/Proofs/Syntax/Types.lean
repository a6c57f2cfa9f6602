import Mathlib.Logic.Function.Basic
import PascalStack.Proofs.Syntax.Basic
import PascalStack.Text.LetterCase

/-!
# Standard types

The four types that variables are declared with, and the standard types of expressions over such
variables.
-/

namespace PascalStack.Syntax

inductive BaseType where
  | integer
  | real
  | boolean
  | string
  deriving DecidableEq, Repr

namespace BaseType

def name : BaseType → String
  | integer => "INTEGER"
  | real => "REAL"
  | boolean => "BOOLEAN"
  | string => "STRING"

def ofWord? (word : String) : Option BaseType :=
  match Text.asciiUpper word with
  | "INTEGER" => some integer
  | "REAL" => some real
  | "BOOLEAN" => some boolean
  | "STRING" => some string
  | _ => none

theorem name_of_ofWord? {word : String} {τ : BaseType} (h : ofWord? word = some τ) :
    τ.name = Text.asciiUpper word := by
  unfold ofWord? at h
  split at h
  case h_5 => cases h
  all_goals
    rename_i upper
    cases h
    exact upper.symm

def isNumeric : BaseType → Bool
  | integer | real => true
  | boolean | string => false

def join : BaseType → BaseType → BaseType
  | integer, integer => integer
  | _, _ => real

end BaseType

def TypeForm.base? : TypeForm → Option BaseType
  | word s => BaseType.ofWord? s
  | array .. => none

abbrev TypeContext := String → Option BaseType

/-- The standard type of an expression. Whole numerals are integers, other numerals are real
numbers. -/
inductive HasType (Γ : TypeContext) : Expression → BaseType → Prop
  | integer (n : Int) : HasType Γ (.literal (.integer n)) .integer
  | decimal (x : Float) : HasType Γ (.literal (.decimal x)) .real
  | truth (b : Bool) : HasType Γ (.literal (.truth b)) .boolean
  | phrase (s : String) : HasType Γ (.literal (.phrase s)) .string
  | name {x : String} {τ : BaseType} : Γ x = some τ → HasType Γ (.name x) τ
  | arithmetic {op : String} {l r : Expression} {σ τ : BaseType} : op ∈ ["+", "-", "*"] →
      HasType Γ l σ → HasType Γ r τ → σ.isNumeric = true → τ.isNumeric = true →
      HasType Γ (.operation l op r) (σ.join τ)
  | quotient {l r : Expression} {σ τ : BaseType} : HasType Γ l σ → HasType Γ r τ →
      σ.isNumeric = true → τ.isNumeric = true → HasType Γ (.operation l "/" r) .real
  | whole {op : String} {l r : Expression} : op ∈ ["div", "mod"] → HasType Γ l .integer →
      HasType Γ r .integer → HasType Γ (.operation l op r) .integer
  | concatenation {l r : Expression} : HasType Γ l .string → HasType Γ r .string →
      HasType Γ (.operation l "+" r) .string
  | numericRelation {op : String} {l r : Expression} {σ τ : BaseType} :
      op ∈ ["=", "<>", "<", "<=", ">", ">="] → HasType Γ l σ → HasType Γ r τ →
      σ.isNumeric = true → τ.isNumeric = true → HasType Γ (.operation l op r) .boolean
  | stringRelation {op : String} {l r : Expression} : op ∈ ["=", "<>", "<", "<=", ">", ">="] →
      HasType Γ l .string → HasType Γ r .string → HasType Γ (.operation l op r) .boolean
  | booleanRelation {op : String} {l r : Expression} : op ∈ ["=", "<>"] →
      HasType Γ l .boolean → HasType Γ r .boolean → HasType Γ (.operation l op r) .boolean
  | logic {op : String} {l r : Expression} : op ∈ ["and", "or"] → HasType Γ l .boolean →
      HasType Γ r .boolean → HasType Γ (.operation l op r) .boolean
  | negation {e : Expression} : HasType Γ e .boolean → HasType Γ (.negation "NOT" e) .boolean

def contextOf : List (String × BaseType) → TypeContext
  | [] => fun _ => none
  | (x, τ) :: earlier => Function.update (contextOf earlier) x (some τ)

end PascalStack.Syntax
