import PascalStack.Tree.Text

/-!
# Trees over several lines

The outline of a tree: one part of a node to a line, each level indented by two blanks more.
-/

namespace PascalStack.Tree

def indentation (level : Nat) : String := String.ofList (List.replicate (2 * level) ' ')

def outlineNode (level : Nat) (t : Tree) (outlines : List (Except Fault String)) :
    Except Fault String := do
  let margin := indentation level
  let texts ← outlines.mapM id
  if texts.isEmpty then return t.kindName ++ "()"
  let entries := t.partNames.zipWith (fun name text => margin ++ "  " ++ name ++ "=" ++ text) texts
  return t.kindName ++ "(\n" ++ ",\n".intercalate entries ++ "\n" ++ margin ++ ")"

def outlineItems (level : Nat) (outlines : List String) : String :=
  let margin := indentation level
  "[\n" ++ String.join (outlines.map fun text => margin ++ "  " ++ text ++ ",\n") ++ margin ++ "]"

mutual

/-- The outline of a tree at a level. -/
def outlineAt (level : Nat) : Tree → Except Fault String
  | list xs => do return outlineItems level (← outlineAll (level + 1) xs)
  | t@(program a b) =>
    outlineNode level t [outlineAt (level + 1) a, outlineAt (level + 1) b]
  | t@(header a) =>
    outlineNode level t [outlineAt (level + 1) a]
  | t@(block a b c d) =>
    outlineNode level t [outlineAt (level + 1) a, outlineAt (level + 1) b,
      outlineAt (level + 1) c, outlineAt (level + 1) d]
  | t@(varDeclarationPart a) =>
    outlineNode level t [outlineAt (level + 1) a]
  | t@(varDeclaration a b) =>
    outlineNode level t [outlineAt (level + 1) a, outlineAt (level + 1) b]
  | t@(idList a) =>
    outlineNode level t [outlineAt (level + 1) a]
  | t@(arrayId a b) =>
    outlineNode level t [outlineAt (level + 1) a, outlineAt (level + 1) b]
  | t@(type a) =>
    outlineNode level t [outlineAt (level + 1) a]
  | t@(arrayType a b) =>
    outlineNode level t [outlineAt (level + 1) a, outlineAt (level + 1) b]
  | t@(range a b) =>
    outlineNode level t [outlineAt (level + 1) a, outlineAt (level + 1) b]
  | t@(statementPart a) =>
    outlineNode level t [outlineAt (level + 1) a]
  | statementSequence xs =>
    outlineNode level (statementSequence xs)
      [do return outlineItems (level + 1) (← outlineAll (level + 2) xs)]
  | t@(assignment a b) =>
    outlineNode level t [outlineAt (level + 1) a, outlineAt (level + 1) b]
  | t@(arrayAssignment a b c) =>
    outlineNode level t [outlineAt (level + 1) a, outlineAt (level + 1) b, outlineAt (level + 1) c]
  | t@(binaryOp a b c) =>
    outlineNode level t [outlineAt (level + 1) a, outlineAt (level + 1) b, outlineAt (level + 1) c]
  | t@(unaryOp a b) =>
    outlineNode level t [outlineAt (level + 1) a, outlineAt (level + 1) b]
  | t@(ifStatement a b c) =>
    outlineNode level t [outlineAt (level + 1) a, outlineAt (level + 1) b, outlineAt (level + 1) c]
  | t@(whileStatement a b) =>
    outlineNode level t [outlineAt (level + 1) a, outlineAt (level + 1) b]
  | t@(repeatStatement a b) =>
    outlineNode level t [outlineAt (level + 1) a, outlineAt (level + 1) b]
  | t@(forStatement a b c d) =>
    outlineNode level t [outlineAt (level + 1) a, outlineAt (level + 1) b,
      outlineAt (level + 1) c, outlineAt (level + 1) d]
  | t@(procedureCall a b) =>
    outlineNode level t [outlineAt (level + 1) a, outlineAt (level + 1) b]
  | t@(functionCall a b) =>
    outlineNode level t [outlineAt (level + 1) a, outlineAt (level + 1) b]
  | t@(writelnStatement a) =>
    outlineNode level t [outlineAt (level + 1) a]
  | t@(readlnStatement a) =>
    outlineNode level t [outlineAt (level + 1) a]
  | breakStatement => outlineNode level breakStatement []
  | continueStatement => outlineNode level continueStatement []
  | t@(caseStatement a b) =>
    outlineNode level t [outlineAt (level + 1) a, outlineAt (level + 1) b]
  | t@(caseOption a b) =>
    outlineNode level t [outlineAt (level + 1) a, outlineAt (level + 1) b]
  | t@(literal a b) =>
    outlineNode level t [outlineAt (level + 1) a, outlineAt (level + 1) b]
  | t@(identifier a) =>
    outlineNode level t [outlineAt (level + 1) a]
  | t@(lengthFunction a) =>
    outlineNode level t [outlineAt (level + 1) a]
  | t@(procedureDeclaration a b) =>
    outlineNode level t [outlineAt (level + 1) a, outlineAt (level + 1) b]
  | t@(procedureHeading a b) =>
    outlineNode level t [outlineAt (level + 1) a, outlineAt (level + 1) b]
  | t@(functionDeclaration a b) =>
    outlineNode level t [outlineAt (level + 1) a, outlineAt (level + 1) b]
  | t@(functionHeading a b c) =>
    outlineNode level t [outlineAt (level + 1) a, outlineAt (level + 1) b, outlineAt (level + 1) c]
  | t@(parameter a b) =>
    outlineNode level t [outlineAt (level + 1) a, outlineAt (level + 1) b]
  | marked _ t => outlineAt level t
  | t => t.text

def outlineAll (level : Nat) : List Tree → Except Fault (List String)
  | [] => .ok []
  | x :: xs => do return (← outlineAt level x) :: (← outlineAll level xs)

end

/-- The outline of a tree. -/
def outline (t : Tree) : Except Fault String := t.outlineAt 0

end PascalStack.Tree
