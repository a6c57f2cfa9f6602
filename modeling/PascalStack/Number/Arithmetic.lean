import PascalStack.Fault
import PascalStack.Number.Binary64

/-!
# Arithmetic on whole numbers and doubles

Whole numbers are unbounded. An operation on a whole number and a double is done on doubles, and
fails if the whole number is beyond the largest one. Division of whole numbers rounds the exact
quotient once. Quotient and remainder go toward minus infinity. Comparison is exact.
-/

namespace PascalStack

/-- A whole number or a double. -/
inductive Number where
  | int (value : Int)
  | real (value : Float)
  deriving DecidableEq, Repr

namespace Number

/-- A number as a double. -/
def toReal : Number → Except Fault Float
  | int i =>
    match ofInt? i with
    | some x => .ok x
    | none => .error .integerTooLarge
  | real x => .ok x

/-- An operation on whole numbers, or else on doubles. -/
def lift (onInt : Int → Int → Int) (onReal : Float → Float → Float) :
    Number → Number → Except Fault Number
  | int a, int b => .ok (int (onInt a b))
  | a, b => do return real (onReal (← a.toReal) (← b.toReal))

def add : Number → Number → Except Fault Number := lift (· + ·) (· + ·)

def sub : Number → Number → Except Fault Number := lift (· - ·) (· - ·)

def mul : Number → Number → Except Fault Number := lift (· * ·) (· * ·)

def neg : Number → Number
  | int i => int (-i)
  | real x => real (-x)

def truncatedRemainder (x y : Float) : Float :=
  match decode x, decode y with
  | .finite negative m e, .finite _ n f =>
    if n = 0 then notANumber
    else
      let base := min e f
      let r := (m * twoTo (e - base).toNat) % (n * twoTo (f - base).toNat)
      let (a, b) := magnitudeRatio r base
      (ofRatio? negative a b).getD notANumber
  | .finite .., .infinite _ => x
  | _, _ => notANumber

def floorReal (x : Float) : Float :=
  match decode x with
  | .finite negative m e =>
    let whole := wholePart negative m e
    let (a, b) := magnitudeRatio m e
    let floored := if negative && a % b != 0 then whole - 1 else whole
    if floored = 0 then signedZero negative else (ofInt? floored).getD x
  | _ => x

/-- The remainder of doubles, with the sign of the divisor. -/
def floorModReal (x y : Float) : Float :=
  let r := truncatedRemainder x y
  if r == 0.0 then signedZero (hasSign y)
  else if (decide (y < 0.0)) != (decide (r < 0.0)) then r + y
  else r

/-- The quotient of doubles, rounded down. -/
def floorDivReal (x y : Float) : Float :=
  let r := truncatedRemainder x y
  let q := (x - r) / y
  let q := if !(r == 0.0) && (decide (y < 0.0)) != (decide (r < 0.0)) then q - 1.0 else q
  if q == 0.0 then signedZero (hasSign (x / y))
  else
    let whole := floorReal q
    if 0.5 < q - whole then whole + 1.0 else whole

def div : Number → Number → Except Fault Number
  | int a, int b =>
    match ofRatio? (decide (a < 0) != decide (b < 0)) a.natAbs b.natAbs with
    | some x => .ok (real x)
    | none => .error .quotientTooLarge
  | a, b => do return real ((← a.toReal) / (← b.toReal))

def floorDiv : Number → Number → Except Fault Number := lift Int.fdiv floorDivReal

def floorMod : Number → Number → Except Fault Number := lift Int.fmod floorModReal

def compareIntReal (i : Int) (x : Float) : Option Ordering :=
  match decode x with
  | .nan => none
  | .infinite negative => some (if negative then .gt else .lt)
  | .finite negative m e =>
    let (a, b) := magnitudeRatio m e
    let value : Int := if negative then -(a : Int) else a
    some (compare (i * b) value)

/-- How two numbers compare. What is undefined compares to nothing. -/
def compare? : Number → Number → Option Ordering
  | int a, int b => some (compare a b)
  | int a, real y => compareIntReal a y
  | real x, int b => (compareIntReal b x).map Ordering.swap
  | real x, real y =>
    if x < y then some .lt else if x == y then some .eq else if y < x then some .gt else none

/-- A number without its fraction. -/
def truncate : Number → Except Fault Int
  | int i => .ok i
  | real x =>
    match decode x with
    | .nan => .error .undefinedInteger
    | .infinite _ => .error .infiniteInteger
    | .finite negative m e => .ok (wholePart negative m e)

end Number

end PascalStack
