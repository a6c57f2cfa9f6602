import PascalStack.Text.Quoted

/-!
# Faults

Why a stage of the compiler stopped. A fault is a cause; its wording is `Fault.message`.
-/

namespace PascalStack

/-- What is wrong with the first bytes of a text that is not UTF-8. -/
inductive EncodingFlaw where
  | invalidStart
  | invalidContinuation
  | unexpectedEnd
  deriving DecidableEq, Repr

/-- The wording of a flaw. -/
def EncodingFlaw.message : EncodingFlaw → String
  | .invalidStart => "invalid start byte"
  | .invalidContinuation => "invalid continuation byte"
  | .unexpectedEnd => "unexpected end of data"

/-- Why a form cannot be filled in with the values given. Texts named `kind` are the names of kinds
of values, and a `conversion` is the letter that ends a place of the form. -/
inductive FormFlaw where
  | valuesLeft
  | valuesMissing
  | namesWanted
  | nameUnclosed
  | nameInList
  | placeUnclosed
  | sizeNotWhole
  | widthBeyond
  | precisionBeyond
  | widthTooBig
  | precisionTooBig
  | tooManyDigits
  | unknownConversion (found : Char) (index : Nat)
  | notWhole (conversion : Char) (kind : String)
  | notNumber (conversion : Char) (kind : String)
  | notReal (kind : String)
  | notCharacter
  | noSuchCharacter
  deriving DecidableEq, Repr

/-- The wording of a flaw. -/
def FormFlaw.message : FormFlaw → String
  | .valuesLeft => "not all arguments converted during string formatting"
  | .valuesMissing => "not enough arguments for format string"
  | .namesWanted => "format requires a mapping"
  | .nameUnclosed => "incomplete format key"
  | .nameInList => "list indices must be integers or slices, not str"
  | .placeUnclosed => "incomplete format"
  | .sizeNotWhole => "* wants int"
  | .widthBeyond => "Python int too large to convert to C ssize_t"
  | .precisionBeyond => "Python int too large to convert to C int"
  | .widthTooBig => "width too big"
  | .precisionTooBig => "precision too big"
  | .tooManyDigits => "precision too large"
  | .unknownConversion found index =>
    let seen := if 31 ≤ found.toNat ∧ found.toNat ≤ 126 then found else '?'
    s!"unsupported format character '{seen}' (0x"
      ++ String.ofList (Nat.toDigits 16 found.toNat) ++ s!") at index {index}"
  | .notWhole conversion kind => s!"%{conversion} format: an integer is required, not {kind}"
  | .notNumber conversion kind => s!"%{conversion} format: a real number is required, not {kind}"
  | .notReal kind => s!"must be real number, not {kind}"
  | .notCharacter => "%c requires int or char"
  | .noSuchCharacter => "%c arg not in range(0x110000)"

/-- The cause for which a stage stops. Texts named `kind` are the names of kinds of values. -/
inductive Fault where
  | noAttribute (kind member : String)
  | unhashable (kind : String)
  | notSubscriptable (kind : String)
  | notIterable (kind : String)
  | noLength (kind : String)
  | tooFewParts (expected found : Nat)
  | tooManyParts (expected : Nat)
  | notUnpackable (kind : String)
  | unsupportedOperands (operator left right : String)
  | notConcatenable (kind other : String)
  | notRepeatable (kind : String)
  | countTooLarge
  | textTooLong
  | outOfMemory
  | unorderable (operator left right : String)
  | badOperand (operator kind : String)
  | badForm (flaw : FormFlaw)
  | pastEnd (kind : String)
  | missingKey (key : String)
  | limitUnset
  | integerTooLarge
  | quotientTooLarge
  | infiniteInteger
  | undefinedInteger
  | numeralTooLong (digits : Nat)
  | integerTooLong
  | malformedInteger (text : String)
  | notNumeric (kind : String)
  | nullInName
  | noSuchFile (path : String)
  | notADirectory (path : String)
  | isADirectory (path : String)
  | nameTooLong (path : String)
  | undecodable (byte first last : Nat) (flaw : EncodingFlaw)
  | semantic (message : String)
  | unbuildable
  | noRules
  | unsupportedMethod (name : String)
  | tableConflict (state : Nat)
  | emptyEntry
  deriving DecidableEq, Repr

namespace Fault

/-- Whole numbers with more digits have no text and are not read. -/
def digitLimit : Nat := 4300

def sizeLimit : Nat := 4294967296

def quoteLimit : Nat := 200

/-- The wording of a fault. -/
def message : Fault → String
  | noAttribute kind member => s!"'{kind}' object has no attribute '{member}'"
  | unhashable kind => s!"unhashable type: '{kind}'"
  | notSubscriptable kind => s!"'{kind}' object is not subscriptable"
  | notIterable kind => s!"'{kind}' object is not iterable"
  | noLength kind => s!"object of type '{kind}' has no len()"
  | tooFewParts expected found =>
    s!"not enough values to unpack (expected {expected}, got {found})"
  | tooManyParts expected => s!"too many values to unpack (expected {expected})"
  | notUnpackable kind => s!"cannot unpack non-iterable {kind} object"
  | unsupportedOperands operator left right =>
    s!"unsupported operand type(s) for {operator}: '{left}' and '{right}'"
  | notConcatenable kind other =>
    s!"can only concatenate {kind} (not \"{other}\") to {kind}"
  | notRepeatable kind => s!"can't multiply sequence by non-int of type '{kind}'"
  | countTooLarge => "cannot fit 'int' into an index-sized integer"
  | textTooLong => "repeated string is too long"
  | outOfMemory => ""
  | unorderable operator left right =>
    s!"'{operator}' not supported between instances of '{left}' and '{right}'"
  | badOperand operator kind => s!"bad operand type for unary {operator}: '{kind}'"
  | badForm flaw => flaw.message
  | pastEnd kind => s!"{kind} index out of range"
  | missingKey key => key
  | limitUnset =>
    "cannot access local variable 'limit_name' where it is not associated with a value"
  | integerTooLarge => "int too large to convert to float"
  | quotientTooLarge => "integer division result too large for a float"
  | infiniteInteger => "cannot convert float infinity to integer"
  | undefinedInteger => "cannot convert float NaN to integer"
  | numeralTooLong digits =>
    s!"Exceeds the limit ({digitLimit} digits) for integer string conversion: value has "
      ++ s!"{digits} digits; use sys.set_int_max_str_digits() to increase the limit"
  | integerTooLong =>
    s!"Exceeds the limit ({digitLimit} digits) for integer string conversion; "
      ++ "use sys.set_int_max_str_digits() to increase the limit"
  | malformedInteger text =>
    "invalid literal for int() with base 10: "
      ++ String.ofList ((Text.quoted text).toList.take quoteLimit)
  | notNumeric kind =>
    s!"int() argument must be a string, a bytes-like object or a real number, not '{kind}'"
  | nullInName => "embedded null byte"
  | noSuchFile path => "[Errno 2] No such file or directory: " ++ Text.quoted path
  | notADirectory path => "[Errno 20] Not a directory: " ++ Text.quoted path
  | isADirectory path => "[Errno 21] Is a directory: " ++ Text.quoted path
  | nameTooLong path => "[Errno 36] File name too long: " ++ Text.quoted path
  | undecodable byte first last flaw =>
    if first = last then
      "'utf-8' codec can't decode byte 0x" ++ String.ofList (Text.hexText 2 byte)
        ++ s!" in position {first}: {flaw.message}"
    else s!"'utf-8' codec can't decode bytes in position {first}-{last}: {flaw.message}"
  | semantic text => text
  | unbuildable => "Unable to build parser"
  | noRules => "list index out of range"
  | unsupportedMethod name => s!"Unsupported method {name}"
  | tableConflict state => s!"Unknown conflict in state {state}"
  | emptyEntry => "'<' not supported between instances of 'NoneType' and 'int'"

end Fault

end PascalStack
