import PascalStack.Number.Numeral

/-!
# Numbers rounded to a number of digits

Positional, scientific and general notation of a number, rounded to so many places or digits. What
is rounded is the exact value of a double, and a half goes to the even neighbour.
-/

namespace PascalStack.Number

/-- The three notations. -/
inductive Style where
  | positional
  | scientific
  | general
  deriving DecidableEq, Repr

def pointed (kept : Bool) (whole fraction : List Char) : List Char :=
  if fraction.isEmpty && !kept then whole else whole ++ '.' :: fraction

def withoutZeros (digits : List Char) : List Char :=
  (digits.reverse.dropWhile (· == '0')).reverse

def positionalText (kept : Bool) (places num den : Nat) : List Char :=
  let digits := Nat.toDigits 10 (roundDiv (num * tenTo places) den)
  let filled := List.replicate (places + 1 - digits.length) '0' ++ digits
  let split := filled.length - places
  pointed kept (filled.take split) (filled.drop split)

def leadingDigits (places num den : Nat) : List Char × Int :=
  if num = 0 then (List.replicate (places + 1) '0', 0)
  else
    let exponent := decimalPoint num den - 1
    let last := exponent - places
    let digits :=
      if 0 ≤ last then roundDiv num (den * tenTo last.toNat)
      else roundDiv (num * tenTo (-last).toNat) den
    if digits = tenTo (places + 1) then (Nat.toDigits 10 (tenTo places), exponent + 1)
    else (Nat.toDigits 10 digits, exponent)

def scientificText (kept : Bool) (places num den : Nat) : List Char :=
  let (digits, exponent) := leadingDigits places num den
  pointed kept (digits.take 1) (digits.drop 1) ++ (exponentText exponent).toList

def generalText (kept : Bool) (size num den : Nat) : List Char :=
  let (digits, exponent) := leadingDigits (size - 1) num den
  let fractionOf (ds : List Char) : List Char := if kept then ds else withoutZeros ds
  if exponent < -4 ∨ (max 1 size : Nat) ≤ exponent then
    pointed kept (digits.take 1) (fractionOf (digits.drop 1)) ++ (exponentText exponent).toList
  else if exponent < 0 then
    pointed kept ['0'] (fractionOf (List.replicate (-exponent - 1).toNat '0' ++ digits))
  else
    let split := exponent.toNat + 1
    pointed kept (digits.take split) (fractionOf (digits.drop split))

/-- A double without its sign, in a notation of a given precision; `kept` keeps the point, and in
general notation the zeros at the end. -/
def roundedText (style : Style) (kept : Bool) (precision : Nat) (x : Float) : List Char :=
  match decode x with
  | .nan => ['n', 'a', 'n']
  | .infinite _ => ['i', 'n', 'f']
  | .finite _ mantissa exponent =>
    let (num, den) := magnitudeRatio mantissa exponent
    match style with
    | .positional => positionalText kept precision num den
    | .scientific => scientificText kept precision num den
    | .general => generalText kept precision num den

def isSigned (x : Float) : Bool :=
  match decode x with
  | .nan => false
  | .infinite negative => negative
  | .finite negative _ _ => negative

end PascalStack.Number
