import PascalStack.Number.Numeral
import PascalStack.Token.Basic

/-!
# Pieces of a source text

A source text is cut into pieces: blanks, runs of newlines, comments, lexemes of tokens, and
characters that start nothing. The rules are tried in order and the first that applies wins, so a
reserved word is taken off the front of a longer word.
-/

namespace PascalStack

/-- The kinds of piece. -/
inductive PieceKind where
  | blank
  | newline
  | comment
  | lexeme (kind : TokenKind)
  | illegal
  deriving DecidableEq, Repr, Inhabited

/-- A piece of a source text. -/
structure Piece where
  kind : PieceKind
  text : List Char
  deriving DecidableEq, Repr, Inhabited

namespace Piece

/-- The reserved words, in the order in which they are tried. -/
def reservedWords : List (List Char × TokenKind) := [
  ("program".toList, .kwProgram), ("var".toList, .kwVar), ("begin".toList, .kwBegin),
  ("end".toList, .kwEnd), ("if".toList, .kwIf), ("then".toList, .kwThen),
  ("else".toList, .kwElse), ("for".toList, .kwFor), ("while".toList, .kwWhile),
  ("repeat".toList, .kwRepeat), ("to".toList, .kwTo), ("downto".toList, .kwDownto),
  ("do".toList, .kwDo), ("until".toList, .kwUntil), ("and".toList, .kwAnd),
  ("or".toList, .kwOr), ("not".toList, .kwNot), ("of".toList, .kwOf), ("case".toList, .kwCase),
  ("div".toList, .kwDiv), ("mod".toList, .kwMod), ("function".toList, .kwFunction),
  ("procedure".toList, .kwProcedure), ("writeln".toList, .kwWriteln),
  ("write".toList, .kwWrite), ("readln".toList, .kwReadln), ("read".toList, .kwRead),
  ("break".toList, .kwBreak), ("continue".toList, .kwContinue), ("real".toList, .kwReal),
  ("integer".toList, .kwInteger), ("boolean".toList, .kwBoolean), ("string".toList, .kwString),
  ("array".toList, .kwArray), ("length".toList, .kwLength), ("true".toList, .bool),
  ("false".toList, .bool)]

/-- Takes a word off the front, whatever the case of its letters. -/
def stripWord : List Char → List Char → Option (List Char × List Char)
  | [], cs => some ([], cs)
  | _ :: _, [] => none
  | w :: ws, c :: cs =>
    if c.toLower == w then (stripWord ws cs).map fun (lexeme, rest) => (c :: lexeme, rest) else none

/-- A reserved word. -/
def reserved? (cs : List Char) : Option (Piece × List Char) :=
  reservedWords.findSome? fun (word, kind) =>
    (stripWord word cs).map fun (lexeme, rest) => (⟨.lexeme kind, lexeme⟩, rest)

def startsName (c : Char) : Bool := c.isAlpha || c == '_'

def inName (c : Char) : Bool := c.isAlphanum || c == '_'

/-- A name. -/
def name? : List Char → Option (Piece × List Char)
  | [] => none
  | c :: cs =>
    if startsName c then
      some (⟨.lexeme .ident, c :: cs.takeWhile inName⟩, cs.dropWhile inName)
    else none

/-- The fraction of a numeral. A point without digits belongs to something else. -/
def fraction : List Char → List Char × List Char
  | '.' :: cs =>
    match cs.takeWhile Text.isDecimalDigit with
    | [] => ([], '.' :: cs)
    | digits => ('.' :: digits, cs.dropWhile Text.isDecimalDigit)
  | cs => ([], cs)

/-- A numeral. -/
def number? (cs : List Char) : Option (Piece × List Char) :=
  match cs.takeWhile Text.isDecimalDigit with
  | [] => none
  | digits =>
    let (point, rest) := fraction (cs.dropWhile Text.isDecimalDigit)
    some (⟨.lexeme .number, digits ++ point⟩, rest)

/-- Characters up to and with a final one. -/
def upTo (final : Char) : List Char → Option (List Char × List Char)
  | [] => none
  | c :: cs =>
    if c == final then some ([c], cs)
    else (upTo final cs).map fun (inner, rest) => (c :: inner, rest)

/-- A string. Quotes inside of it end it. -/
def phrase? : List Char → Option (Piece × List Char)
  | [] => none
  | c :: cs =>
    if c == Text.singleQuote then
      (upTo Text.singleQuote cs).map fun (inner, rest) => (⟨.lexeme .phrase, c :: inner⟩, rest)
    else none

/-- A comment in braces. -/
def braceComment? : List Char → Option (Piece × List Char)
  | '\x7b' :: cs => (upTo '\x7d' cs).map fun (inner, rest) => (⟨.comment, '\x7b' :: inner⟩, rest)
  | _ => none

/-- A comment between stars. The first star inside of it has to end it. -/
def starComment? : List Char → Option (Piece × List Char)
  | '(' :: '*' :: cs =>
    match upTo '*' cs with
    | some (inner, ')' :: rest) => some (⟨.comment, '(' :: '*' :: inner ++ [')']⟩, rest)
    | _ => none
  | _ => none

/-- A run of newlines. -/
def newlines? (cs : List Char) : Option (Piece × List Char) :=
  match cs.takeWhile (· == '\n') with
  | [] => none
  | run => some (⟨.newline, run⟩, cs.dropWhile (· == '\n'))

/-- The marks, in the order in which they are tried. -/
def marks : List (List Char × TokenKind) := [
  ("..".toList, .range), ("<=".toList, .lessEqual), (">=".toList, .greaterEqual),
  ("<>".toList, .different), (":=".toList, .assign), ("+".toList, .plus), ("-".toList, .minus),
  ("*".toList, .times), ("/".toList, .divide), ("<".toList, .lessThan),
  (">".toList, .greaterThan), ("=".toList, .equals), (";".toList, .semicolon),
  (",".toList, .comma), ("[".toList, .leftBracket), ("]".toList, .rightBracket),
  (".".toList, .dot), ("(".toList, .leftParen), (")".toList, .rightParen),
  (":".toList, .colon)]

/-- A mark. -/
def mark? (cs : List Char) : Option (Piece × List Char) :=
  marks.findSome? fun (mark, kind) =>
    (stripWord mark cs).map fun (lexeme, rest) => (⟨.lexeme kind, lexeme⟩, rest)

/-- The first rule that applies. -/
def byRule? (cs : List Char) : Option (Piece × List Char) :=
  reserved? cs <|> name? cs <|> number? cs <|> phrase? cs <|> braceComment? cs <|>
    starComment? cs <|> newlines? cs <|> mark? cs

def isSkipped (c : Char) : Bool := c == ' ' || c == '\t'

/-- The first piece, and the rest. -/
def first? : List Char → Option (Piece × List Char)
  | [] => none
  | c :: cs =>
    if isSkipped c then some (⟨.blank, [c]⟩, cs)
    else some ((byRule? (c :: cs)).getD (⟨.illegal, [c]⟩, cs))

def cutFrom : Nat → List Char → List Piece
  | 0, _ => []
  | fuel + 1, cs =>
    match first? cs with
    | none => []
    | some (piece, rest) => piece :: cutFrom fuel rest

/-- The pieces of a text. -/
def cut (cs : List Char) : List Piece := cutFrom cs.length cs

/-- The value of a token. -/
def valueOf (kind : TokenKind) (lexeme : List Char) : Except Fault Tree :=
  let text := String.ofList lexeme
  match kind with
  | .bool => .ok (.bool (lexeme.map Char.toLower == "true".toList))
  | .number =>
    if lexeme.contains '.' then .ok (.real ((Number.readReal? text).getD 0.0))
    else do return .int (← Number.readInteger text)
  | _ => .ok (.str text)

/-- What is printed about a character that starts nothing. -/
def illegalMessage (lexeme : List Char) (line : Nat) : String :=
  let text := String.ofList lexeme
  s!"Illegal character '{text}' at line {line}\n"

end Piece

end PascalStack
