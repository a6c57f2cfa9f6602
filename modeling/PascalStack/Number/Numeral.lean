import PascalStack.Fault
import PascalStack.Text.Blank
import PascalStack.Text.DecimalDigit
import PascalStack.Number.Shortest

/-!
# Numerals

How numbers are read and written. Whole numbers of more than `Fault.digitLimit` digits are
neither read nor written. A double is written with the fewest digits that read back, positionally
unless its exponent is below -4 or above 15.
-/

namespace PascalStack.Number

/-- The numeral of a whole number. -/
def integerText (i : Int) : Except Fault String :=
  if i.natAbs < tenTo Fault.digitLimit then .ok (toString i) else .error .integerTooLong

def exponentText (e : Int) : String :=
  let digits := toString e.natAbs
  (if e < 0 then "e-" else "e+") ++ (if digits.length < 2 then "0" ++ digits else digits)

/-- The digits of a double with a point or an exponent. -/
def decimalText (digits : List Char) (point : Int) : String :=
  if -4 < point ∧ point ≤ 16 then
    if point ≤ 0 then
      "0." ++ String.ofList (List.replicate (-point).toNat '0' ++ digits)
    else
      let whole := digits.take point.toNat
      let rest := digits.drop point.toNat
      let filled := whole ++ List.replicate (point.toNat - whole.length) '0'
      String.ofList filled ++ "." ++ (if rest.isEmpty then "0" else String.ofList rest)
  else
    let rest := digits.drop 1
    String.ofList (digits.take 1) ++ (if rest.isEmpty then "" else "." ++ String.ofList rest)
      ++ exponentText (point - 1)

/-- The numeral of a double. -/
def realText (x : Float) : String :=
  match decode x with
  | .nan => "nan"
  | .infinite negative => if negative then "-inf" else "inf"
  | .finite negative mantissa exponent =>
    let sign := if negative then "-" else ""
    if mantissa = 0 then sign ++ "0.0"
    else
      let (digits, place) := shortest mantissa exponent
      let shown := Nat.toDigits 10 digits
      sign ++ decimalText shown (shown.length + place)

def ofDigits (digits : List Nat) : Nat := digits.foldl (fun n d => 10 * n + d) 0

def startsWithDigit : List Char → Bool
  | [] => false
  | c :: _ => Text.isDecimalDigit c

/-- The values of the digits a text starts with, and what follows. An underscore may stand
between two digits; `inside` says whether a digit came just before. -/
def digitsFrom (inside : Bool) : List Char → List Nat × List Char
  | [] => ([], [])
  | c :: rest =>
    match Text.digitValue? c with
    | some d =>
      let (digits, after) := digitsFrom true rest
      (d :: digits, after)
    | none =>
      if inside && c == '_' && startsWithDigit rest then digitsFrom false rest
      else ([], c :: rest)

/-- The digits that characters start with, and the rest. -/
def takeDigits (cs : List Char) : List Nat × List Char := digitsFrom false cs

/-- The sign that characters start with, and the rest. -/
def takeSign : List Char → Bool × List Char
  | '-' :: rest => (true, rest)
  | '+' :: rest => (false, rest)
  | cs => (false, cs)

/-- The whole number that a text spells. -/
def readInteger (text : String) : Except Fault Int :=
  let (negative, cs) := takeSign (Text.trim Text.isSpace text.toList)
  let (digits, rest) := takeDigits cs
  if digits.isEmpty || !rest.isEmpty then .error (.malformedInteger text)
  else if Fault.digitLimit < digits.length then .error (.numeralTooLong digits.length)
  else
    let n : Int := ofDigits digits
    .ok (if negative then -n else n)

def readExponent? : List Char → Option Int
  | [] => some 0
  | c :: rest =>
    if c == 'e' || c == 'E' then
      let (negative, cs) := takeSign rest
      let (digits, after) := takeDigits cs
      if digits.isEmpty || !after.isEmpty then none
      else some (if negative then -(ofDigits digits : Int) else ofDigits digits)
    else none

/-- The value of digits around a point, which may be left out, and an exponent. There are digits on
at least one side of the point. -/
def readDecimal? (negative : Bool) (cs : List Char) : Option Float :=
  let (whole, rest) := takeDigits cs
  let (fraction, tail) := match rest with
    | '.' :: after => takeDigits after
    | _ => ([], rest)
  if whole.isEmpty && fraction.isEmpty then none
  else
    (readExponent? tail).map fun e =>
      ofDecimal negative (ofDigits (whole ++ fraction)) (e - fraction.length)

/-- Reads a double: spaces around it, a sign, and a decimal number or a word for what is not
finite. -/
def readReal? (text : String) : Option Float :=
  let (negative, cs) := takeSign (Text.trim Text.isSpace text.toList)
  let word := String.ofList (cs.map Char.toLower)
  if word == "inf" || word == "infinity" then some (infinity negative)
  else if word == "nan" then some notANumber
  else readDecimal? negative cs

end PascalStack.Number
