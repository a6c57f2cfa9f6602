import PascalStack.Number.Rounded
import PascalStack.Text.Form
import PascalStack.Tree.Numeric
import PascalStack.Tree.Text

/-!
# Forms filled in with trees

A text is filled in with values, one at each place. A group gives its items as values and any other
tree is one value. All values have to be used, except that a list may be left over whole.
-/

namespace PascalStack.Tree

open Text (Size Place FormPiece)

/-- Filling in a form takes values one by one. -/
abbrev Filling := StateT (List Tree) (Except Fault)

def flawed {α : Type} (flaw : FormFlaw) : Except Fault α := .error (.badForm flaw)

/-- Takes a value. -/
def nextValue : Filling Tree := do
  match ← get with
  | [] => flawed .valuesMissing
  | value :: rest =>
    set rest
    return value

def askedSize (limit : Nat) (flaw : FormFlaw) : Filling Int := do
  match (← nextValue).whole? with
  | some i => if -(limit : Int) ≤ i ∧ i < limit then return i else flawed flaw
  | Option.none => flawed .sizeNotWhole

/-- The width of a place; a negative one means that the value stands at the left. The least number
has no opposite, so it is no width. -/
def widthOf : Size → Filling Int
  | .absent => return 0
  | .given n => if n < Number.twoTo 63 then return n else flawed .widthTooBig
  | .asked => do
    let i ← askedSize (Number.twoTo 63) .widthBeyond
    return if i = -(Number.twoTo 63 : Int) then 0 else i

/-- The precision of a place. -/
def precisionOf : Size → Filling (Option Nat)
  | .absent => return Option.none
  | .given n => if n < Number.twoTo 31 then return some n else flawed .precisionTooBig
  | .asked => do return some (← askedSize (Number.twoTo 31) .precisionBeyond).toNat

/-- A converted value before it is laid out. Only numbers have a sign and are filled up with zeros,
and `marker` is the mark of the base of a number. -/
structure Written where
  numeric : Bool := true
  negative : Bool := false
  marker : List Char := []
  body : List Char

def writtenText (precision : Option Nat) (s : String) : Written where
  numeric := false
  body := match precision with
    | some n => s.toList.take n
    | Option.none => s.toList

def asciiText (s : String) : String :=
  String.ofList (s.toList.flatMap fun c => if c.toNat < 128 then [c] else Text.escapedChar c)

def digitsLimit : Nat := Number.twoTo 31 - 4

def writtenWhole (marker : List Char) (precision : Option Nat) (i : Int) (digits : List Char) :
    Except Fault Written :=
  let least := precision.getD 0
  if digitsLimit < least then flawed .tooManyDigits
  else
    .ok {
      negative := decide (i < 0), marker,
      body := List.replicate (least - digits.length) '0' ++ digits }

def writtenDecimal (conversion : Char) (precision : Option Nat) (value : Tree) :
    Except Fault Written := do
  match value.number? with
  | some x =>
    let i ← x.truncate
    let _ ← Number.integerText i
    writtenWhole [] precision i (Nat.toDigits 10 i.natAbs)
  | Option.none => flawed (.notNumber conversion value.kindName)

def writtenInBase (base : Nat) (conversion : Char) (marked : Bool) (precision : Option Nat)
    (value : Tree) : Except Fault Written :=
  match value.whole? with
  | some i =>
    let digits := Nat.toDigits base i.natAbs
    writtenWhole (if marked then ['0', conversion] else []) precision i
      (if conversion == 'X' then digits.map Char.toUpper else digits)
  | Option.none => flawed (.notWhole conversion value.kindName)

def writtenReal (style : Number.Style) (upper marked : Bool) (precision : Option Nat)
    (value : Tree) : Except Fault Written :=
  match value.number? with
  | some number => do
    let x ← number.toReal
    let body := Number.roundedText style marked (precision.getD 6) x
    return {
      negative := Number.isSigned x,
      body := if upper then body.map Char.toUpper else body }
  | Option.none => flawed (.notReal value.kindName)

def writtenCharacter (value : Tree) : Except Fault Written :=
  match value with
  | str s => if s.length = 1 then .ok (writtenText Option.none s) else flawed .notCharacter
  | _ =>
    match value.whole? with
    | some i =>
      if 0 ≤ i ∧ i < 0x110000 then
        .ok (writtenText Option.none (String.singleton (Char.ofNat i.toNat)))
      else flawed .noSuchCharacter
    | Option.none => flawed .notCharacter

def converted (conversion : Char) (offset : Nat) (marked : Bool) (precision : Option Nat)
    (value : Tree) : Except Fault Written :=
  match conversion with
  | 's' => do return writtenText precision (← value.text)
  | 'r' => do return writtenText precision (← value.shown)
  | 'a' => do return writtenText precision (asciiText (← value.shown))
  | 'd' | 'i' | 'u' => writtenDecimal conversion precision value
  | 'o' => writtenInBase 8 conversion marked precision value
  | 'x' | 'X' => writtenInBase 16 conversion marked precision value
  | 'e' => writtenReal .scientific false marked precision value
  | 'E' => writtenReal .scientific true marked precision value
  | 'f' => writtenReal .positional false marked precision value
  | 'F' => writtenReal .positional true marked precision value
  | 'g' => writtenReal .general false marked precision value
  | 'G' => writtenReal .general true marked precision value
  | 'c' => writtenCharacter value
  | _ => flawed (.unknownConversion conversion offset)

def Written.sign (flags : List Char) (w : Written) : List Char :=
  if !w.numeric then []
  else if w.negative then ['-']
  else if flags.contains '+' then ['+']
  else if flags.contains ' ' then [' ']
  else []

/-- A written value filled up to a width: at the left with blanks, or with zeros after the sign and
the marker, or at the right with blanks. -/
def Written.layOut (flags : List Char) (width : Int) (w : Written) : List Char :=
  let head := w.sign flags ++ w.marker
  let room := width.natAbs - (head.length + w.body.length)
  if width < 0 || flags.contains '-' then head ++ w.body ++ List.replicate room ' '
  else if w.numeric && flags.contains '0' then head ++ List.replicate room '0' ++ w.body
  else List.replicate room ' ' ++ head ++ w.body

/-- The characters of a place. -/
def fillPlace (p : Place) : Filling (List Char) := do
  let width ← widthOf p.width
  let precision ← precisionOf p.precision
  match p.conversion with
  | Option.none => flawed .placeUnclosed
  | some conversion =>
    let value ← nextValue
    let w ← converted conversion p.offset (p.flags.contains '#') precision value
    if Fault.sizeLimit ≤ width.natAbs then throw .outOfMemory
    return w.layOut p.flags width

def fillPiece (listed : Bool) : FormPiece → Filling (List Char)
  | .plain c => return [c]
  | .place p => fillPlace p
  | .named closed =>
    flawed (if !listed then .namesWanted else if closed then .nameInList else .nameUnclosed)

/-- The characters of a form. -/
def fillPieces (listed : Bool) : List FormPiece → Filling (List Char)
  | [] => return []
  | p :: rest => do return (← fillPiece listed p) ++ (← fillPieces listed rest)

def isList : Tree → Bool
  | list _ => true
  | _ => false

/-- The values that a tree gives to a form. -/
def values : Tree → List Tree
  | tuple xs => xs
  | t => [t]

/-- A form filled in with what a tree gives. -/
def fillIn (form : String) (t : Tree) : Except Fault String := do
  let (filled, left) ← (fillPieces t.isList (Text.pieces form)).run t.values
  if left.isEmpty || t.isList then return String.ofList filled
  else flawed .valuesLeft

end PascalStack.Tree
