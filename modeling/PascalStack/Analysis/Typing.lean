import PascalStack.Analysis.Symbol

/-!
# Types

Types are known by their names. The tables say which type an operation gives, and what may be
assigned to what. A literal keeps the type it is written with: `NUMBER` for numerals, `PHRASE` for
strings. The names of word operators are in small letters.
-/

namespace PascalStack.Analysis

/-- The types of operands and what they give. -/
abbrev OperatorTable := List ((String × String) × String)

/-- A table in which all pairs give the same type. -/
def giving (result : String) (pairs : List (String × String)) : OperatorTable :=
  pairs.map fun pair => (pair, result)

/-- The pairs of types of numbers. -/
def numericPairs : List (String × String) := [
  ("INTEGER", "INTEGER"), ("REAL", "REAL"), ("INTEGER", "REAL"), ("REAL", "INTEGER"),
  ("INTEGER", "NUMBER"), ("NUMBER", "INTEGER"), ("NUMBER", "NUMBER")]

/-- The pairs of types of whole numbers. -/
def integerPairs : List (String × String) := [
  ("INTEGER", "INTEGER"), ("INTEGER", "NUMBER"), ("NUMBER", "INTEGER"), ("NUMBER", "NUMBER")]

/-- The pairs of types of texts. -/
def stringPairs : List (String × String) := [
  ("STRING", "STRING"), ("STRING", "PHRASE"), ("PHRASE", "STRING"), ("PHRASE", "PHRASE")]

/-- The pairs of types of characters and texts. -/
def charPairs : List (String × String) := [
  ("CHAR", "CHAR"), ("CHAR", "STRING"), ("STRING", "CHAR"), ("CHAR", "PHRASE"), ("PHRASE", "CHAR")]

/-- The table of sums, differences and products. -/
def arithmetic : OperatorTable :=
  giving "INTEGER" [("INTEGER", "INTEGER"), ("INTEGER", "NUMBER"), ("NUMBER", "INTEGER")]
    ++ giving "REAL" [("REAL", "REAL"), ("INTEGER", "REAL"), ("REAL", "INTEGER")]
    ++ giving "NUMBER" [("NUMBER", "NUMBER")]

/-- The table of the comparisons by order. -/
def ordering : OperatorTable := giving "BOOLEAN" (numericPairs ++ stringPairs)

/-- The table of the comparisons for being different. -/
def inequality : OperatorTable :=
  giving "BOOLEAN" (numericPairs ++ stringPairs ++ [("BOOLEAN", "BOOLEAN")])

/-- The table of an operator. -/
def operatorTable : String → OperatorTable
  | "+" => arithmetic ++ giving "STRING" [("STRING", "STRING"), ("PHRASE", "PHRASE")]
  | "-" | "*" => arithmetic
  | "/" => giving "REAL" numericPairs
  | "div" | "mod" => giving "INTEGER" integerPairs
  | "=" => inequality ++ giving "BOOLEAN" charPairs
  | "<>" => inequality
  | "<" | "<=" | ">" | ">=" => ordering
  | "and" | "or" => giving "BOOLEAN" [("BOOLEAN", "BOOLEAN")]
  | _ => []

/-- The table of an operator with one operand. -/
def unaryTable : String → List (String × String)
  | "not" => [("BOOLEAN", "BOOLEAN")]
  | "-" => [("INTEGER", "INTEGER"), ("REAL", "REAL"), ("NUMBER", "NUMBER")]
  | _ => []

/-- The types whose values a type accepts. -/
def assignable? : String → Option (List String)
  | "INTEGER" => some ["INTEGER", "REAL", "NUMBER"]
  | "REAL" => some ["INTEGER", "REAL", "NUMBER"]
  | "BOOLEAN" => some ["BOOLEAN", "NUMBER"]
  | "STRING" => some ["STRING", "PHRASE"]
  | "CHAR" => some ["CHAR", "STRING", "PHRASE"]
  | _ => none

/-- The name that a type is. -/
def text? : Value → Option String
  | .plain (.str s) => some s
  | _ => none

/-- The type that an operation gives, if the table of its operator has the operands. -/
def operationType? (operator : Tree) (left right : Value) : Except Fault (Option String) := do
  operator.checkKey
  checkValueKey left
  checkValueKey right
  match operator, text? left, text? right with
  | .str op, some l, some r => return (operatorTable op).lookup (l, r)
  | _, _, _ => return none

/-- The type that an operation with one operand gives. -/
def unaryType? (operator : Tree) (operand : Value) : Except Fault (Option String) := do
  operator.checkKey
  checkValueKey operand
  match operator, text? operand with
  | .str op, some t => return (unaryTable op).lookup t
  | _, _ => return none

/-- Whether a value of a type may be assigned to another. Types of arrays are no keys, so they stop
the comparison. -/
def compatible (target source : Value) : Except Fault Bool :=
  if source.isNamed "NUMBER" && target.isOneOf ["INTEGER", "REAL"] then .ok true
  else if source.isNamed "PHRASE" && target.isNamed "STRING" then .ok true
  else do
    checkValueKey target
    match text? target with
    | none => throw (.noAttribute target.kindName "startswith")
    | some name =>
      match assignable? name with
      | some sources =>
        checkValueKey source
        return source.isOneOf sources
      | none =>
        if name.startsWith "ARRAY" then
          match text? source with
          | none => throw (.noAttribute source.kindName "startswith")
          | some other => return other.startsWith "ARRAY" || name == other
        else return source.isNamed name

end PascalStack.Analysis
