import PascalStack.Token.Piece
import PascalStack.Tree.Text

/-!
# The source as a supply of tokens

A parser asks for one token at a time. Each request runs over the pieces up to the next lexeme,
reports the characters that start nothing and counts the lines. Newlines inside strings and
comments do not count.
-/

namespace PascalStack

/-- What one request brings: the reports printed, the line reached, and a token, the end of the
text, or a lexeme that has no value. -/
structure Delivery where
  report : String
  line : Nat
  token : Except Fault (Option Token)

namespace Delivery

/-- The deliveries of a list of pieces, from a line and an offset. The supply ends with the end of
the text or with a lexeme that has no value. -/
def ofPieces (line offset : Nat) (report : String) : List Piece → List Delivery
  | [] => [⟨report, line, .ok none⟩]
  | ⟨kind, text⟩ :: rest =>
    let next := offset + text.length
    match kind with
    | .blank | .comment => ofPieces line next report rest
    | .newline => ofPieces (line + text.length) next report rest
    | .illegal => ofPieces line next (report ++ Piece.illegalMessage text line) rest
    | .lexeme kind =>
      match Piece.valueOf kind text with
      | .ok value =>
        ⟨report, line, .ok (some ⟨kind, value, line, offset⟩)⟩ :: ofPieces line next "" rest
      | .error f => [⟨report, line, .error f⟩]

/-- What the lexer delivers for a text, one token at a time. -/
def ofText (line : Nat) (text : String) : List Delivery :=
  ofPieces line 0 "" (Piece.cut text.toList)

end Delivery

/-- The tokens of a text, up to a fault. -/
structure Reading where
  tokens : List Token := []
  line : Nat
  out : String := ""
  fault : Option Fault := none

namespace Reading

/-- The tokens of deliveries. What is echoed is printed after each. -/
def ofDeliveries (echo : Token → String) (line : Nat) : List Delivery → Reading
  | [] => ⟨[], line, "", none⟩
  | d :: ds =>
    match d.token with
    | .error f => ⟨[], d.line, d.report, some f⟩
    | .ok none => ⟨[], d.line, d.report, none⟩
    | .ok (some t) =>
      let r := ofDeliveries echo d.line ds
      { r with tokens := t :: r.tokens, out := d.report ++ echo t ++ r.out }

def ofText (line : Nat) (text : String) : Reading :=
  ofDeliveries (fun _ => "") line (Delivery.ofText line text)

/-- A token as listings show it. -/
def tokenParts (t : Token) : String :=
  let shown := match t.value.shown with
    | .ok text => text
    | .error f => f.message
  t.kind.name ++ "," ++ shown ++ "," ++ toString t.line ++ "," ++ toString t.offset

/-- The tokens of a text, listed. -/
def listing (label : String) (line : Nat) (text : String) : Reading :=
  ofDeliveries (fun t => label ++ "(" ++ tokenParts t ++ ")\n") line (Delivery.ofText line text)

end Reading

end PascalStack
