import PascalStack.Tree.Basic

/-!
# Tokens

The kinds of token of the language, and a token as it is handed to the parser.
-/

namespace PascalStack

/-- The kinds of token: reserved words, marks, and the four kinds that carry a value of their
own. -/
inductive TokenKind where
  | kwProgram | kwVar | kwBegin | kwEnd | kwIf | kwThen | kwElse | kwFor | kwWhile | kwRepeat
  | kwTo | kwDo | kwDownto | kwUntil | kwAnd | kwOr | kwNot | kwOf | kwCase | kwDiv | kwMod
  | kwFunction | kwProcedure | kwWriteln | kwWrite | kwReadln | kwRead | kwBreak | kwContinue
  | kwReal | kwInteger | kwBoolean | kwString | kwArray | bool | kwLength | semicolon
  | leftParen | rightParen | dot | comma | phrase | ident | colon | assign | plus | minus
  | times | divide | number | lessEqual | greaterThan | greaterEqual | different | lessThan
  | equals | leftBracket | rightBracket | range
  deriving DecidableEq, Repr, Inhabited

namespace TokenKind

/-- The name of a kind of token. -/
def name : TokenKind → String
  | kwProgram => "PROGRAM"
  | kwVar => "VAR"
  | kwBegin => "BEGIN"
  | kwEnd => "END"
  | kwIf => "IF"
  | kwThen => "THEN"
  | kwElse => "ELSE"
  | kwFor => "FOR"
  | kwWhile => "WHILE"
  | kwRepeat => "REPEAT"
  | kwTo => "TO"
  | kwDo => "DO"
  | kwDownto => "DOWNTO"
  | kwUntil => "UNTIL"
  | kwAnd => "AND"
  | kwOr => "OR"
  | kwNot => "NOT"
  | kwOf => "OF"
  | kwCase => "CASE"
  | kwDiv => "DIV"
  | kwMod => "MOD"
  | kwFunction => "FUNCTION"
  | kwProcedure => "PROCEDURE"
  | kwWriteln => "WRITELN"
  | kwWrite => "WRITE"
  | kwReadln => "READLN"
  | kwRead => "READ"
  | kwBreak => "BREAK"
  | kwContinue => "CONTINUE"
  | kwReal => "REAL"
  | kwInteger => "INTEGER"
  | kwBoolean => "BOOLEAN"
  | kwString => "STRING"
  | kwArray => "ARRAY"
  | bool => "BOOL"
  | kwLength => "LENGTH"
  | semicolon => "SEMICOLON"
  | leftParen => "LPAREN"
  | rightParen => "RPAREN"
  | dot => "DOT"
  | comma => "COMMA"
  | phrase => "PHRASE"
  | ident => "ID"
  | colon => "COLON"
  | assign => "ASSIGN"
  | plus => "PLUS"
  | minus => "MINUS"
  | times => "TIMES"
  | divide => "DIVIDE"
  | number => "NUMBER"
  | lessEqual => "LESSEQUAL"
  | greaterThan => "GREATERTHAN"
  | greaterEqual => "GREATEREQUAL"
  | different => "DIFFERENT"
  | lessThan => "LESSTHAN"
  | equals => "EQUALS"
  | leftBracket => "LBRACKET"
  | rightBracket => "RBRACKET"
  | range => "RANGE"

/-- All kinds of token. -/
def all : List TokenKind := [
  kwProgram, kwVar, kwBegin, kwEnd, kwIf, kwThen, kwElse, kwFor, kwWhile, kwRepeat, kwTo, kwDo,
  kwDownto, kwUntil, kwAnd, kwOr, kwNot, kwOf, kwCase, kwDiv, kwMod, kwFunction, kwProcedure,
  kwWriteln, kwWrite, kwReadln, kwRead, kwBreak, kwContinue, kwReal, kwInteger, kwBoolean,
  kwString, kwArray, bool, kwLength, semicolon, leftParen, rightParen, dot, comma, phrase,
  ident, colon, assign, plus, minus, times, divide, number, lessEqual, greaterThan,
  greaterEqual, different, lessThan, equals, leftBracket, rightBracket, range]

def ofName? (name : String) : Option TokenKind := all.find? (·.name == name)

end TokenKind

/-- A token with its value and where it stands. -/
structure Token where
  kind : TokenKind
  value : Tree
  line : Nat
  offset : Nat
  deriving Inhabited, BEq

end PascalStack
