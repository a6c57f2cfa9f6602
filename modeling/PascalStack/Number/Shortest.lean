import PascalStack.Number.Binary64

/-!
# The shortest decimal of a double

The decimal with the fewest digits that reads back as a given double, and of those the one
nearest to it. The numbers that read back as a double form an interval around it; for one digit,
two digits and so on the two neighbours of the double on that decimal grid are tried.
-/

namespace PascalStack.Number

/-- A positive finite double between the ends of the interval of numbers that round to it. All
three are in units of `2 ^ exponent`, and `closed` says whether the ends round to it too. -/
structure Neighbourhood where
  low : Nat
  value : Nat
  high : Nat
  exponent : Int
  closed : Bool

/-- The neighbourhood of `mantissa * 2 ^ exponent`. Below a power of two the doubles lie twice as
close. -/
def Neighbourhood.of (mantissa : Nat) (exponent : Int) : Neighbourhood where
  low := if mantissa = twoTo 52 ∧ -1074 < exponent then 4 * mantissa - 1 else 4 * mantissa - 2
  value := 4 * mantissa
  high := 4 * mantissa + 2
  exponent := exponent - 2
  closed := mantissa % 2 == 0

def unitsOver (n : Nat) (e place : Int) : Nat × Nat :=
  let (a, b) := magnitudeRatio n e
  if 0 ≤ place then (a, b * tenTo place.toNat) else (a * tenTo (-place).toNat, b)

def Neighbourhood.admits (v : Neighbourhood) (digits : Nat) (place : Int) : Bool :=
  let (l, b) := unitsOver v.low v.exponent place
  let (h, _) := unitsOver v.high v.exponent place
  if v.closed then l ≤ digits * b && digits * b ≤ h else l < digits * b && digits * b < h

def Neighbourhood.candidate? (v : Neighbourhood) (place : Int) : Option Nat :=
  let (n, d) := unitsOver v.value v.exponent place
  let below := n / d
  let fitsBelow := below ≠ 0 ∧ v.admits below place
  let fitsAbove := v.admits (below + 1) place = true
  if fitsBelow ∧ fitsAbove then some (roundDiv n d)
  else if fitsBelow then some below
  else if fitsAbove then some (below + 1)
  else none

def decimalPoint (num den : Nat) : Int :=
  let guess : Int := ((Nat.log2 num : Int) - Nat.log2 den) * 30103 / 100000 - 1
  let above (k : Int) : Bool :=
    if 0 ≤ k then num < den * tenTo k.toNat else num * tenTo (-k).toNat < den
  if above guess then guess
  else if above (guess + 1) then guess + 1
  else if above (guess + 2) then guess + 2
  else guess + 3

def dropZeros : Nat → Nat → Int → Nat × Int
  | 0, digits, place => (digits, place)
  | fuel + 1, digits, place =>
    if digits ≠ 0 ∧ digits % 10 = 0 then dropZeros fuel (digits / 10) (place + 1)
    else (digits, place)

/-- The shortest decimal of a positive `mantissa * 2 ^ exponent`, as digits and the power of ten
of the last one. Seventeen digits always read back. -/
def shortest (mantissa : Nat) (exponent : Int) : Nat × Int :=
  let v := Neighbourhood.of mantissa exponent
  let (n, d) := magnitudeRatio mantissa exponent
  let point := decimalPoint n d
  let tries := (List.range 17).findSome? fun k =>
    let place := point - (k + 1 : Nat)
    (v.candidate? place).map fun digits => (digits, place)
  let (digits, place) := tries.getD (0, 0)
  dropZeros 20 digits place

end PascalStack.Number
