import PascalStack.Number.Power

/-!
# Doubles as exact numbers

A finite double is a whole number times a power of two. Reading a double so, and rounding a
quotient of whole numbers back to the nearest double, lets the arithmetic that must be exact be
done on whole numbers.
-/

namespace PascalStack.Number

/-- What a double stands for: `mantissa * 2 ^ exponent` with a sign, or no finite number. -/
inductive Decoded where
  | nan
  | infinite (negative : Bool)
  | finite (negative : Bool) (mantissa : Nat) (exponent : Int)
  deriving DecidableEq, Repr

/-- The exact value of a double. -/
def decode (x : Float) : Decoded :=
  let bits : Nat := x.toBits.toNat
  let negative := decide (twoTo 63 ≤ bits)
  let field : Nat := bits / twoTo 52 % 2048
  let fraction : Nat := bits % twoTo 52
  if field = 2047 then
    if fraction = 0 then .infinite negative else .nan
  else if field = 0 then .finite negative fraction (-1074)
  else .finite negative (fraction + twoTo 52) ((field : Int) - 1075)

def ofSignedBits (negative : Bool) (bits : Nat) : Float :=
  Float.ofBits (UInt64.ofNat (if negative then bits + twoTo 63 else bits))

def infinity (negative : Bool) : Float := ofSignedBits negative (2047 * twoTo 52)

def notANumber : Float := ofSignedBits false (2047 * twoTo 52 + twoTo 51)

def signedZero (negative : Bool) : Float := ofSignedBits negative 0

/-- A quotient, rounded to the nearest whole number, or to the even one. -/
def roundDiv (num den : Nat) : Nat :=
  let q := num / den
  let r := num % den
  if 2 * r < den then q else if den < 2 * r then q + 1 else q + q % 2

def scaleDown (num den : Nat) (e : Int) : Nat × Nat :=
  if 0 ≤ e then (num, den * twoTo e.toNat) else (num * twoTo (-e).toNat, den)

/-- The exponent of the double that is nearest to a quotient. -/
def exponentFor (num den : Nat) : Int :=
  let e : Int := (Nat.log2 num : Int) - Nat.log2 den - 52
  let (n, d) := scaleDown num den e
  max (-1074) (if n / d < twoTo 52 then e - 1 else e)

/-- The double nearest to the quotient of two whole numbers, a half to the even mantissa. There
is none if the quotient rounds beyond the largest double. -/
def ofRatio? (negative : Bool) (num den : Nat) : Option Float :=
  if num = 0 then some (signedZero negative)
  else
    let e := exponentFor num den
    let (n, d) := scaleDown num den e
    let m := roundDiv n d
    let (m, e) := if m = twoTo 53 then (twoTo 52, e + 1) else (m, e)
    if 971 < e then none
    else if m < twoTo 52 then some (ofSignedBits negative m)
    else some (ofSignedBits negative ((e + 1075).toNat * twoTo 52 + (m - twoTo 52)))

/-- The double that is nearest to a whole number. -/
def ofInt? (i : Int) : Option Float := ofRatio? (decide (i < 0)) i.natAbs 1

/-- The double that is nearest to a decimal. -/
def ofDecimal (negative : Bool) (digits : Nat) (exponent : Int) : Float :=
  if digits = 0 then signedZero negative
  else
    let magnitude : Int := (Nat.log2 digits * 30103 / 100000 : Nat) + exponent
    if 400 < magnitude then infinity negative
    else if magnitude < -400 then signedZero negative
    else
      let rounded :=
        if 0 ≤ exponent then ofRatio? negative (digits * tenTo exponent.toNat) 1
        else ofRatio? negative digits (tenTo (-exponent).toNat)
      rounded.getD (infinity negative)

def magnitudeRatio (mantissa : Nat) (exponent : Int) : Nat × Nat :=
  if 0 ≤ exponent then (mantissa * twoTo exponent.toNat, 1) else (mantissa, twoTo (-exponent).toNat)

def wholePart (negative : Bool) (mantissa : Nat) (exponent : Int) : Int :=
  let (n, d) := magnitudeRatio mantissa exponent
  if negative then -((n / d : Nat) : Int) else ((n / d : Nat) : Int)

def hasSign (x : Float) : Bool := decide (twoTo 63 ≤ x.toBits.toNat)

end PascalStack.Number
