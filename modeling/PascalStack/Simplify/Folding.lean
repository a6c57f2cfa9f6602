import PascalStack.Tree.Operand

/-!
# Folding of constants

Operations on two literals of the same type are carried out, and operations with a neutral or an
absorbing literal are reduced to the other operand or to a literal. Truth values of a program
fold as literals of the type `BOOL`, spelt `true` and `false`.
-/

namespace PascalStack.Simplify

open PascalStack.Tree (Relation same relate add sub mul div floorDiv floorMod neg)

/-- A literal of a number. -/
def numberLiteral (value : Tree) : Tree := .literal value (.str "NUMBER")

/-- A literal of a truth value, as folding makes it. -/
def boolLiteral (b : Bool) : Tree := .literal (.str (if b then "true" else "false")) (.str "BOOL")

/-- A literal of a text in double quotes. -/
def phraseLiteral (text : String) : Tree := .literal (.str ("\"" ++ text ++ "\"")) (.str "PHRASE")

/-- The number that a value is or spells. -/
def numberOf : Tree → Tree
  | .str s =>
    if s.toList.contains '.' then
      match Number.readReal? s with
      | some x => .real x
      | none => .str s
    else
      match Number.readInteger s with
      | .ok i => .int i
      | .error _ => .str s
  | t => t

/-- Whether characters start and end with a quote. -/
def quotedBy (quote : Char) (cs : List Char) : Bool :=
  cs.head? == some quote && cs.getLast? == some quote

/-- A text without its outer quotes. -/
def unquoted : Tree → Tree
  | .str s =>
    let cs := s.toList
    if 2 ≤ cs.length && (quotedBy Text.doubleQuote cs || quotedBy Text.singleQuote cs) then
      .str (String.ofList (cs.drop 1).dropLast)
    else .str s
  | t => t

/-- Whether two operands are the same literal or the same name. -/
def sameOperand : Tree → Tree → Bool
  | .literal v t, .literal w u => same v w && same t u
  | .identifier a, .identifier b => same a b
  | _, _ => false

/-- Whether a tree is the literal of a type and a value. -/
def isLiteral (typeName : String) (value : Tree) : Tree → Bool
  | .literal v t => t.isText typeName && same v value
  | _ => false

/-- Folds a comparison by order. -/
def relation (r : Relation) (a b : Tree) : Except Fault (Option Tree) := do
  return some (boolLiteral (← relate r a b))

/-- Folds a division, but not one by zero. -/
def division (op : Tree → Tree → Except Fault Tree) (whole a b : Tree) :
    Except Fault (Option Tree) :=
  if same b (.int 0) then .ok (some whole)
  else do return some (numberLiteral (← op a b))

/-- Folds an operation on numbers. -/
def foldNumbers (whole : Tree) (operator : String) (a b : Tree) : Except Fault (Option Tree) :=
  match operator with
  | "+" => do return some (numberLiteral (← add a b))
  | "-" => do return some (numberLiteral (← sub a b))
  | "*" => do return some (numberLiteral (← mul a b))
  | "/" => division div whole a b
  | "DIV" => division floorDiv whole a b
  | "MOD" => division floorMod whole a b
  | "=" => .ok (some (boolLiteral (same a b)))
  | "<>" => .ok (some (boolLiteral !(same a b)))
  | "<" => relation .lt a b
  | "<=" => relation .le a b
  | ">" => relation .gt a b
  | ">=" => relation .ge a b
  | _ => .ok none

/-- Folds an operation on truth values. -/
def foldBools (operator : String) (a b : Bool) : Option Tree :=
  match operator with
  | "AND" => some (boolLiteral (a && b))
  | "OR" => some (boolLiteral (a || b))
  | "=" => some (boolLiteral (a == b))
  | "<>" => some (boolLiteral (a != b))
  | _ => none

/-- Folds an operation on texts. -/
def foldPhrases (operator : String) (a b : Tree) : Except Fault (Option Tree) :=
  match operator with
  | "+" => do return some (phraseLiteral (← (← add a b).text))
  | "=" => .ok (some (boolLiteral (same a b)))
  | "<>" => .ok (some (boolLiteral !(same a b)))
  | "<" => relation .lt a b
  | "<=" => relation .le a b
  | ">" => relation .gt a b
  | ">=" => relation .ge a b
  | _ => .ok none

/-- Folds an operation on two literals of one type. -/
def foldLiterals (whole : Tree) (operator : String) : Tree → Tree → Except Fault (Option Tree)
  | .literal v t, .literal w u =>
    if t.isText "NUMBER" && u.isText "NUMBER" then
      foldNumbers whole operator (numberOf v) (numberOf w)
    else if t.isText "BOOL" && u.isText "BOOL" then
      .ok (foldBools operator (v.isText "true") (w.isText "true"))
    else if t.isText "PHRASE" && u.isText "PHRASE" then
      foldPhrases operator (unquoted v) (unquoted w)
    else .ok none
  | _, _ => .ok none

def isZero (t : Tree) : Bool := isLiteral "NUMBER" (.int 0) t

def isOne (t : Tree) : Bool := isLiteral "NUMBER" (.int 1) t

def isTruth (b : Bool) (t : Tree) : Bool :=
  isLiteral "BOOL" (.str (if b then "true" else "false")) t

/-- Takes away a neutral operand, or an operation whose result one operand decides. -/
def absorb (left : Tree) (operator : String) (right : Tree) : Tree :=
  let whole := Tree.binaryOp left (.str operator) right
  match operator with
  | "+" => if isZero right then left else if isZero left then right else whole
  | "-" =>
    if isZero right then left
    else if sameOperand left right then numberLiteral (.int 0) else whole
  | "*" =>
    if isOne right then left
    else if isOne left then right
    else if isZero right || isZero left then numberLiteral (.int 0) else whole
  | "/" =>
    if isOne right then left
    else if isZero left && !isZero right then numberLiteral (.int 0) else whole
  | "AND" =>
    if isTruth false right then boolLiteral false
    else if isTruth false left then boolLiteral false
    else if isTruth true right then left
    else if isTruth true left then right else whole
  | "OR" =>
    if isTruth true right then boolLiteral true
    else if isTruth true left then boolLiteral true
    else if isTruth false right then left
    else if isTruth false left then right else whole
  | _ => whole

/-- What an operation becomes. -/
def foldBinary (left operator right : Tree) : Except Fault Tree :=
  match operator with
  | .str op => do
    match ← foldLiterals (.binaryOp left operator right) op left right with
    | some t => return t
    | none => return absorb left op right
  | _ => .ok (.binaryOp left operator right)

/-- What an operation with one operand becomes. -/
def foldUnary (operator operand : Tree) : Except Fault Tree :=
  let whole := Tree.unaryOp operator operand
  match operand with
  | .literal v t =>
    if operator.isText "NOT" && t.isText "BOOL" then .ok (boolLiteral !(v.isText "true"))
    else if operator.isText "-" && t.isText "NUMBER" then do
      return numberLiteral (← neg (numberOf v))
    else .ok whole
  | .unaryOp inner x => .ok (if operator.isText "NOT" && inner.isText "NOT" then x else whole)
  | _ => .ok whole

/-- What a length becomes. -/
def foldLength (operand : Tree) : Except Fault Tree :=
  match operand with
  | .literal v t =>
    if t.isText "PHRASE" then do return numberLiteral (.int (← (unquoted v).length))
    else .ok (.lengthFunction operand)
  | _ => .ok (.lengthFunction operand)

end PascalStack.Simplify
