import PascalStack.Number.Numeral
import PascalStack.Tree.Basic

/-!
# Trees in one line

The text of a tree, as listings and messages give it. A text stands as it is, and quoted inside a
list or group. A whole number with too many digits cannot be written.
-/

namespace PascalStack.Tree

/-- A name with arguments in brackets. -/
def form (name : String) (arguments : List (Except Fault String)) : Except Fault String := do
  return name ++ "(" ++ ", ".intercalate (← arguments.mapM id) ++ ")"

mutual

/-- The text of a tree. Texts are quoted if asked. -/
def render (quoting : Bool) : Tree → Except Fault String
  | none => .ok "None"
  | bool b => .ok (if b then "True" else "False")
  | str s => .ok (if quoting then Text.quoted s else s)
  | int i => Number.integerText i
  | real x => .ok (Number.realText x)
  | list xs => do return "[" ++ ", ".intercalate (← renderAll xs) ++ "]"
  | tuple xs => do
    match ← renderAll xs with
    | [only] => return "(" ++ only ++ ",)"
    | texts => return "(" ++ ", ".intercalate texts ++ ")"
  | program a b => form "Program" [render false a, render false b]
  | header a => do return "Header(PROGRAM " ++ (← render false a) ++ ")"
  | block a b c d =>
    form "Block" (if d.truthy then [render false a, render false b, render false d, render false c]
      else [render false a, render false b, render false c])
  | varDeclarationPart a => form "VarDeclarationPart" [render false a]
  | varDeclaration a b => form "VarDeclaration" [render false a, render false b]
  | idList a => form "IdList" [render false a]
  | arrayId a b => form "ArrayId" [render false a, render false b]
  | type a => form "Type" [render false a]
  | arrayType a b => form "ArrayType" [render false a, render false b]
  | range a b => form "Range" [render false a, render false b]
  | statementPart a => form "StatementPart" [render false a]
  | statementSequence xs => do
    return "StatementSequence([" ++ ", ".intercalate (← renderAll xs) ++ "])"
  | assignment a b => form "Assignment" [render false a, render false b]
  | arrayAssignment a b c =>
    form "ArrayAssignment" [render false a, render false b, render false c]
  | binaryOp a b c => form "BinaryOp" [render false a, render false b, render false c]
  | unaryOp a b => form "UnaryOp" [render false a, render false b]
  | ifStatement a b c =>
    form "IfStatement" (if c.truthy then [render false a, render false b, render false c]
      else [render false a, render false b])
  | whileStatement a b => form "WhileStatement" [render false a, render false b]
  | repeatStatement a b => form "RepeatStatement" [render false a, render false b]
  | forStatement a b c d =>
    form "ForStatement" [render false a, render false b, render false c, render false d]
  | procedureCall a b => form "ProcedureCall" [render false a, render false b]
  | functionCall a b => form "FunctionCall" [render false a, render false b]
  | writelnStatement a => form "WritelnStatement" [render false a]
  | readlnStatement a => form "ReadlnStatement" [render false a]
  | breakStatement => .ok "BreakStatement()"
  | continueStatement => .ok "ContinueStatement()"
  | caseStatement a b => form "CaseStatement" [render false a, render false b]
  | caseOption a b => form "CaseOption" [render false a, render false b]
  | literal a b => form "Literal" [render false a, render false b]
  | identifier a => form "Identifier" [render false a]
  | lengthFunction a => form "LengthFunction" [render false a]
  | procedureDeclaration a b => form "ProcedureDeclaration" [render false a, render false b]
  | procedureHeading a b => form "ProcedureHeading" [render false a, render false b]
  | functionDeclaration a b => form "FunctionDeclaration" [render false a, render false b]
  | functionHeading a b c =>
    form "FunctionHeading" [render false a, render false b, render false c]
  | parameter a b => form "Parameter" [render false a, render false b]
  | marked _ t => render quoting t

def renderAll : List Tree → Except Fault (List String)
  | [] => .ok []
  | x :: xs => do return (← render true x) :: (← renderAll xs)

end

/-- The text of a tree. -/
def text (t : Tree) : Except Fault String := t.render false

/-- The text of a tree, quoted if it is a text. -/
def shown (t : Tree) : Except Fault String := t.render true

end PascalStack.Tree
