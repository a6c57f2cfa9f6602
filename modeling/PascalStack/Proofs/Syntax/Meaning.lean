import PascalStack.Proofs.Syntax.Basic
import PascalStack.Text.Quoted

/-!
# The meaning of expressions

Expressions over whole numbers, truth values and texts have values. Evaluation is strict, and an
operation on values that it does not take has none, like a division by zero. Real numbers, elements
of arrays and calls are left without a value.
-/

namespace PascalStack.Syntax

/-- A value. -/
inductive Datum where
  | number (n : Int)
  | truth (b : Bool)
  | text (s : String)
  deriving DecidableEq, Repr

def Datum.compare? : Datum → Datum → Option Ordering
  | number a, number b => some (compare a b)
  | truth a, truth b => some (compare a b)
  | text a, text b => some (compare a b)
  | _, _ => none

inductive Operator where
  | plus
  | minus
  | times
  | quotient
  | remainder
  | equal
  | different
  | less
  | atMost
  | greater
  | atLeast
  | both
  | either
  deriving DecidableEq, Repr

namespace Operator

def capital (sign : String) : String := String.ofList (sign.toList.map Char.toUpper)

def ofSign? (sign : String) : Option Operator :=
  match capital sign with
  | "+" => some plus
  | "-" => some minus
  | "*" => some times
  | "DIV" => some quotient
  | "MOD" => some remainder
  | "=" => some equal
  | "<>" => some different
  | "<" => some less
  | "<=" => some atMost
  | ">" => some greater
  | ">=" => some atLeast
  | "AND" => some both
  | "OR" => some either
  | _ => none

def test? : Operator → Ordering → Option Bool
  | equal, o => some (o == .eq)
  | different, o => some (o != .eq)
  | less, o => some o.isLT
  | atMost, o => some o.isLE
  | greater, o => some o.isGT
  | atLeast, o => some o.isGE
  | _, _ => none

def apply : Operator → Datum → Datum → Option Datum
  | plus, .number a, .number b => some (.number (a + b))
  | plus, .text a, .text b => some (.text (a ++ b))
  | minus, .number a, .number b => some (.number (a - b))
  | times, .number a, .number b => some (.number (a * b))
  | quotient, .number a, .number b => if b = 0 then none else some (.number (a.fdiv b))
  | remainder, .number a, .number b => if b = 0 then none else some (.number (a.fmod b))
  | both, .truth a, .truth b => some (.truth (a && b))
  | either, .truth a, .truth b => some (.truth (a || b))
  | op, a, b => do return .truth (← op.test? (← a.compare? b))

end Operator

def isNot (sign : String) : Bool := Operator.capital sign == "NOT"

/-- The text between the quotes around a text. A text that is not between quotes is taken as it
is. -/
def phraseText (s : String) : String :=
  match s.toList with
  | [] => s
  | q :: rest =>
    if (q = Text.doubleQuote ∨ q = Text.singleQuote) ∧ rest.getLast? = some q then
      String.ofList rest.dropLast
    else s

def Literal.datum? : Literal → Option Datum
  | integer n => some (.number n)
  | truth b | verdict b => some (.truth b)
  | phrase s => some (.text (phraseText s))
  | decimal _ => none

abbrev Environment := String → Datum

def Datum.truth? : Datum → Option Bool
  | truth b => some b
  | _ => none

def Datum.text? : Datum → Option String
  | text s => some s
  | _ => none

/-- The value of an expression, if it has one. -/
def Expression.eval (env : Environment) : Expression → Option Datum
  | literal l => l.datum?
  | name x => some (env x)
  | length operand => do return .number (← (← operand.eval env).text?).length
  | negation sign operand => do
    let b ← (← operand.eval env).truth?
    if isNot sign then return .truth !b else none
  | operation left sign right => do
    let a ← left.eval env
    let b ← right.eval env
    (← Operator.ofSign? sign).apply a b
  | element .. | call .. => none

/-- An expression over whole numbers, truth values and texts, with names but no elements of arrays
and no calls, and with none but the operators that have a meaning. -/
def Expression.Plain : Expression → Prop
  | literal l => l.datum?.isSome = true
  | name _ => True
  | length operand => operand.Plain
  | negation sign operand => isNot sign = true ∧ operand.Plain
  | operation left sign right =>
    left.Plain ∧ (Operator.ofSign? sign).isSome = true ∧ right.Plain
  | element .. | call .. => False

end PascalStack.Syntax
