import PascalStack.Tree.Basic

/-!
# Marks on names

The places of a tree that hold names may hold any tree. A node in such a place, or a number that is
undefined, is equal to nothing but itself, so it gets a mark of its own. What has a mark keeps it.
-/

namespace PascalStack.Tree

/-- Marks are numbers, given in order. -/
abbrev Marking := StateM Nat

/-- A tree with a new mark. -/
def withMark (t : Tree) : Marking Tree := do
  let mark ← get
  set (mark + 1)
  return marked mark t

mutual

/-- Marks what stands in the place of a name, if it needs a mark. -/
def markName : Tree → Marking Tree
  | none => return none
  | bool b => return bool b
  | str s => return str s
  | int i => return int i
  | real x => if x == x then return real x else withMark (real x)
  | list xs => return list xs
  | tuple xs => do return tuple (← markNames xs)
  | marked mark t => return marked mark t
  | t => withMark t

def markNames : List Tree → Marking (List Tree)
  | [] => return []
  | x :: xs => do return (← markName x) :: (← markNames xs)

end

mutual

/-- Marks the names of a tree. -/
def mark : Tree → Marking Tree
  | list xs => do return list (← markAll xs)
  | tuple xs => do return tuple (← markAll xs)
  | program a b => do return program (← mark a) (← mark b)
  | block a b c d => do return block (← mark a) (← mark b) (← mark c) (← mark d)
  | varDeclarationPart a => do return varDeclarationPart (← mark a)
  | varDeclaration a b => do return varDeclaration (← mark a) (← mark b)
  | idList a => do return idList (← mark a)
  | arrayId name a => do return arrayId (← markName name) (← mark a)
  | type name => do return type (← markName name)
  | arrayType a b => do return arrayType (← mark a) (← mark b)
  | range a b => do return range (← mark a) (← mark b)
  | statementPart a => do return statementPart (← mark a)
  | statementSequence xs => do return statementSequence (← markAll xs)
  | assignment a b => do return assignment (← mark a) (← mark b)
  | arrayAssignment a b c => do return arrayAssignment (← mark a) (← mark b) (← mark c)
  | binaryOp a operator b => do return binaryOp (← mark a) operator (← mark b)
  | unaryOp operator a => do return unaryOp operator (← mark a)
  | ifStatement a b c => do return ifStatement (← mark a) (← mark b) (← mark c)
  | whileStatement a b => do return whileStatement (← mark a) (← mark b)
  | repeatStatement a b => do return repeatStatement (← mark a) (← mark b)
  | forStatement a direction b c => do
    return forStatement (← mark a) direction (← mark b) (← mark c)
  | procedureCall name a => do return procedureCall name (← mark a)
  | functionCall name a => do return functionCall name (← mark a)
  | writelnStatement a => do return writelnStatement (← mark a)
  | readlnStatement a => do return readlnStatement (← mark a)
  | caseStatement a b => do return caseStatement (← mark a) (← mark b)
  | caseOption a b => do return caseOption (← mark a) (← mark b)
  | literal value name => do return literal (← markName value) (← markName name)
  | identifier name => do return identifier (← markName name)
  | lengthFunction a => do return lengthFunction (← mark a)
  | procedureDeclaration a b => do return procedureDeclaration (← mark a) (← mark b)
  | procedureHeading name a => do return procedureHeading name (← mark a)
  | functionDeclaration a b => do return functionDeclaration (← mark a) (← mark b)
  | functionHeading name a b => do return functionHeading name (← mark a) (← mark b)
  | parameter name a => do return parameter (← markName name) (← mark a)
  | t => return t

def markAll : List Tree → Marking (List Tree)
  | [] => return []
  | x :: xs => do return (← mark x) :: (← markAll xs)

end

end PascalStack.Tree
