import Mathlib.Data.List.Forall2
import PascalStack.Analysis.Check

/-!
# Kinds of errors

The messages of an analyzer have a fixed wording around the names, types and operators that they are
about. Two messages are of one kind if they have the same wording.
-/

namespace PascalStack.Analysis

/-- The wordings of messages. -/
inductive ErrorKind
  | redeclared (what : String)
  | indexedDeclaration
  | unknownType
  | rangeType
  | range (first last : String)
  | noResult
  | noIdentifier
  | noArray
  | noVariable
  | noProcedure
  | noFunction
  | index (what : String)
  | notIndexed
  | notCallable
  | notFunction
  | constant
  | assignment
  | element
  | target
  | condition (what : String)
  | control
  | limit
  | jump (what : String)
  | option
  | readTarget
  | readVariable
  | readElement
  | argument (position : Nat) (what : String)
  | arguments (what : String) (expected count : Nat)
  | lengthArgument
  | lengthArguments (count : Nat)
  | length
  | operands
  | operand

def ErrorKind.about : ErrorKind → List String → String
  | .redeclared what, [x] => s!"{what} {x} already declared in this scope"
  | .indexedDeclaration, [x] => s!"Cannot declare array with index in declaration: {x}"
  | .unknownType, [x] => s!"Unknown type: {x}"
  | .rangeType, [x, y] => s!"Array range must be of INTEGER type, got {x} and {y}"
  | .range first last, [] => s!"Invalid array range: {first}..{last}"
  | .noResult, [x] => s!"Function {x} does not have a return value"
  | .noIdentifier, [x] => s!"Undeclared identifier: {x}"
  | .noArray, [x] => s!"Undeclared array: {x}"
  | .noVariable, [x] => s!"Undeclared variable: {x}"
  | .noProcedure, [x] => s!"Undeclared procedure: {x}"
  | .noFunction, [x] => s!"Undeclared function: {x}"
  | .index what, [x] => s!"{what} index must be an integer, got {x}"
  | .notIndexed, [x] => s!"{x} is not an array or string"
  | .notCallable, [x] => s!"{x} is not a procedure or function"
  | .notFunction, [x] => s!"{x} is not a function"
  | .constant, [x] => s!"Cannot assign to constant: {x}"
  | .assignment, [x, y] => s!"Type mismatch in assignment: cannot assign {x} to {y}"
  | .element, [x, y] =>
    s!"Type mismatch in array assignment: cannot assign {x} to element of type {y}"
  | .target, [x] => s!"Invalid assignment target: {x}"
  | .condition what, [x] => s!"Condition in {what} statement must be of boolean type, got {x}"
  | .control, [x] => s!"For loop control variable must be of integer type, got {x}"
  | .limit, [x] => s!"For loop limit must be of integer type, got {x}"
  | .jump what, [] => s!"{what} statement must be inside a loop"
  | .option, [x, y] => s!"Type mismatch in case option: expression is {x}, but case value is {y}"
  | .readTarget, [x] => s!"Invalid target for read operation: {x}"
  | .readVariable, [x] => s!"Cannot read into variable of type {x}"
  | .readElement, [x] => s!"Cannot read into array element of type {x}"
  | .argument position what, [x, y, z] =>
    s!"Type mismatch in parameter {position} of {what} {x}: expected {y}, got {z}"
  | .arguments what expected count, [x] => s!"{what} {x} expects {expected} parameters, got {count}"
  | .lengthArgument, [x] => s!"Function length expects a STRING parameter, got {x}"
  | .lengthArguments count, [] => s!"Function length expects 1 parameter, got {count}"
  | .length, [x] => s!"Length function expects a STRING parameter, got {x}"
  | .operands, [x, y, z] => s!"Invalid operands {x} and {y} for operator {z}"
  | .operand, [x, y] => s!"Invalid operand {x} for unary operator {y}"
  | _, _ => ""

def strayJump (what : String) : String := s!"{what} statement must be inside a loop"

def Plain (message : String) : Prop :=
  message ≠ strayJump "Break" ∧ message ≠ strayJump "Continue"

def ErrorKind.isJump : ErrorKind → Bool
  | .jump _ => true
  | _ => false

def Foreign (text : String) : Prop := text.toList.any (['c', 'f', 'g', 'v', 'y'].contains ·) = true

instance (text : String) : Decidable (Foreign text) := instDecidableEqBool _ _

variable {text message message' : String}

theorem Foreign.before (h : Foreign text) (rest : String) : Foreign (text ++ rest) := by
  unfold Foreign at h ⊢
  rw [String.toList_append, List.any_append, h, Bool.true_or]

theorem Foreign.after (h : Foreign text) (rest : String) : Foreign (rest ++ text) := by
  unfold Foreign at h ⊢
  rw [String.toList_append, List.any_append, h, Bool.or_true]

theorem Foreign.plain (h : Foreign text) : Plain text := by
  have missing (what : String) (none : ¬ Foreign (strayJump what)) : text ≠ strayJump what :=
    fun same => none (same ▸ h)
  exact ⟨missing _ (by decide +kernel), missing _ (by decide +kernel)⟩

theorem plain_about (kind : ErrorKind) (about : List String) (other : kind.isJump = false) :
    Plain (kind.about about) := by
  -- Each wording has a fixed part with such a letter, which is looked for from the end.
  fun_cases ErrorKind.about kind about
  case case23 => cases other
  case case35 => exact ⟨by decide +kernel, by decide +kernel⟩
  all_goals
    apply Foreign.plain
    repeat first
      | exact Foreign.after (by decide +kernel) _
      | exact Foreign.before (by decide +kernel) _
      | apply Foreign.before

def Reworded (A : String → String → Prop) (message message' : String) : Prop :=
  ∃ (kind : ErrorKind) (about about' : List String), List.Forall₂ A about about' ∧
    message = kind.about about ∧ message' = kind.about about'

/-- Messages of one kind, about any names. -/
def SameKind : String → String → Prop := Reworded fun _ _ => True

variable {A : String → String → Prop}

theorem Reworded.sameKind (h : Reworded A message message') : SameKind message message' := by
  obtain ⟨kind, about, about', alike, own, own'⟩ := h
  exact ⟨kind, about, about', alike.imp fun _ _ _ => trivial, own, own'⟩

theorem Reworded.eq (same : ∀ x x', A x x' → x' = x) (h : Reworded A message message') :
    message' = message := by
  obtain ⟨kind, about, about', alike, rfl, rfl⟩ := h
  have told : about = about' :=
    List.forall₂_eq_eq_eq ▸ alike.imp fun x x' h => (same x x' h).symm
  rw [told]

end PascalStack.Analysis
