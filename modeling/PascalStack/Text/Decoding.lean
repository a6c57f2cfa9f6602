import PascalStack.Fault

/-!
# Text from bytes

The bytes of a text file are UTF-8, and its lines may end in any of three ways. A text that is
not UTF-8 is refused at the first character that is not, with the bytes that start it.
-/

namespace PascalStack.Text

/-- A character that has started: what bytes are still owed, and in what range. -/
structure Partial where
  start : Nat
  byte : Nat
  owed : Nat
  low : Nat
  high : Nat
  code : Nat

/-- The character that a byte starts. -/
def firstByte? (start byte : Nat) : Option Partial :=
  if byte < 0xC2 then none
  else if byte < 0xE0 then some ⟨start, byte, 1, 0x80, 0xBF, byte % 32⟩
  else if byte < 0xF0 then
    let low := if byte = 0xE0 then 0xA0 else 0x80
    let high := if byte = 0xED then 0x9F else 0xBF
    some ⟨start, byte, 2, low, high, byte % 16⟩
  else if byte < 0xF5 then
    let low := if byte = 0xF0 then 0x90 else 0x80
    let high := if byte = 0xF4 then 0x8F else 0xBF
    some ⟨start, byte, 3, low, high, byte % 8⟩
  else none

/-- The characters of bytes. -/
def decodeFrom (offset : Nat) : Option Partial → List UInt8 → Except Fault (List Char)
  | none, [] => .ok []
  | some p, [] => .error (.undecodable p.byte p.start (offset - 1) .unexpectedEnd)
  | none, b :: rest =>
    if b < 0x80 then do
      return Char.ofNat b.toNat :: (← decodeFrom (offset + 1) none rest)
    else
      match firstByte? offset b.toNat with
      | some p => decodeFrom (offset + 1) (some p) rest
      | none => .error (.undecodable b.toNat offset offset .invalidStart)
  | some p, b :: rest =>
    if b.toNat < p.low || p.high < b.toNat then
      .error (.undecodable p.byte p.start (offset - 1) .invalidContinuation)
    else
      let code := p.code * 64 + b.toNat % 64
      if p.owed ≤ 1 then do
        return Char.ofNat code :: (← decodeFrom (offset + 1) none rest)
      else
        let p := { p with owed := p.owed - 1, low := 0x80, high := 0xBF, code }
        decodeFrom (offset + 1) (some p) rest

/-- Every end of a line becomes one newline. -/
def unifyNewlines : List Char → List Char
  | [] => []
  | '\r' :: '\n' :: rest => '\n' :: unifyNewlines rest
  | '\r' :: rest => '\n' :: unifyNewlines rest
  | c :: rest => c :: unifyNewlines rest

/-- The text of bytes. -/
def ofBytes (bytes : List UInt8) : Except Fault String := do
  return String.ofList (unifyNewlines (← decodeFrom 0 none bytes))

end PascalStack.Text
