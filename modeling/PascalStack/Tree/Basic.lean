/-!
# Syntax trees

A syntax tree is a plain value or a node of one of the kinds of phrase of the language. Trees are
dynamic: any part of a node may be any tree, because trees also come from outside the parser.
-/

namespace PascalStack

/-- A plain value or a node. -/
inductive Tree where
  | none
  | bool (value : Bool)
  | str (value : String)
  | int (value : Int)
  | real (value : Float)
  | list (items : List Tree)
  | tuple (items : List Tree)
  | program (header block : Tree)
  | header (programName : Tree)
  | block (varDecls routines statementPart extraVarDecls : Tree)
  | varDeclarationPart (declarations : Tree)
  | varDeclaration (ids typeName : Tree)
  | idList (ids : Tree)
  | arrayId (name index : Tree)
  | type (name : Tree)
  | arrayType (range element : Tree)
  | range (first last : Tree)
  | statementPart (sequence : Tree)
  | statementSequence (statements : List Tree)
  | assignment (target value : Tree)
  | arrayAssignment (array index value : Tree)
  | binaryOp (left operator right : Tree)
  | unaryOp (operator operand : Tree)
  | ifStatement (condition thenBranch elseBranch : Tree)
  | whileStatement (condition body : Tree)
  | repeatStatement (body condition : Tree)
  | forStatement (init direction limit body : Tree)
  | procedureCall (name params : Tree)
  | functionCall (name params : Tree)
  | writelnStatement (params : Tree)
  | readlnStatement (params : Tree)
  | breakStatement
  | continueStatement
  | caseStatement (expression options : Tree)
  | caseOption (value statement : Tree)
  | literal (value typeName : Tree)
  | identifier (name : Tree)
  | lengthFunction (expression : Tree)
  | procedureDeclaration (heading block : Tree)
  | procedureHeading (name params : Tree)
  | functionDeclaration (heading block : Tree)
  | functionHeading (name returnType params : Tree)
  | parameter (name typeName : Tree)
  /-- A tree with a mark, which tells it from trees that look alike. Nodes and undefined numbers are
  equal to nothing but themselves, so as names they need one. -/
  | marked (mark : Nat) (tree : Tree)
  deriving Inhabited, BEq

namespace Tree

/-- The name of the kind of a tree, as messages give it. -/
def kindName : Tree → String
  | none => "NoneType"
  | bool _ => "bool"
  | str _ => "str"
  | int _ => "int"
  | real _ => "float"
  | list _ => "list"
  | tuple _ => "tuple"
  | program .. => "Program"
  | header .. => "Header"
  | block .. => "Block"
  | varDeclarationPart .. => "VarDeclarationPart"
  | varDeclaration .. => "VarDeclaration"
  | idList .. => "IdList"
  | arrayId .. => "ArrayId"
  | type .. => "Type"
  | arrayType .. => "ArrayType"
  | range .. => "Range"
  | statementPart .. => "StatementPart"
  | statementSequence .. => "StatementSequence"
  | assignment .. => "Assignment"
  | arrayAssignment .. => "ArrayAssignment"
  | binaryOp .. => "BinaryOp"
  | unaryOp .. => "UnaryOp"
  | ifStatement .. => "IfStatement"
  | whileStatement .. => "WhileStatement"
  | repeatStatement .. => "RepeatStatement"
  | forStatement .. => "ForStatement"
  | procedureCall .. => "ProcedureCall"
  | functionCall .. => "FunctionCall"
  | writelnStatement .. => "WritelnStatement"
  | readlnStatement .. => "ReadlnStatement"
  | breakStatement => "BreakStatement"
  | continueStatement => "ContinueStatement"
  | caseStatement .. => "CaseStatement"
  | caseOption .. => "CaseOption"
  | literal .. => "Literal"
  | identifier .. => "Identifier"
  | lengthFunction .. => "LengthFunction"
  | procedureDeclaration .. => "ProcedureDeclaration"
  | procedureHeading .. => "ProcedureHeading"
  | functionDeclaration .. => "FunctionDeclaration"
  | functionHeading .. => "FunctionHeading"
  | parameter .. => "Parameter"
  | marked _ t => t.kindName

/-- The names of the parts of a node. -/
def partNames : Tree → List String
  | program .. => ["header", "block"]
  | header .. => ["program_name"]
  | block .. => ["var_decl_part", "proc_func_part", "statement_part", "extra_var_decl"]
  | varDeclarationPart .. => ["declarations"]
  | varDeclaration .. => ["id_list", "type_name"]
  | idList .. => ["ids"]
  | arrayId .. => ["id_name", "expression"]
  | type .. => ["type_name"]
  | arrayType .. => ["range", "element_type"]
  | range .. => ["start", "end"]
  | statementPart .. => ["statement_sequence"]
  | statementSequence .. => ["statements"]
  | assignment .. => ["target", "value"]
  | arrayAssignment .. => ["array_id", "index", "value"]
  | binaryOp .. => ["left", "operator", "right"]
  | unaryOp .. => ["operator", "operand"]
  | ifStatement .. => ["condition", "then_branch", "else_branch"]
  | whileStatement .. => ["condition", "body"]
  | repeatStatement .. => ["body", "condition"]
  | forStatement .. => ["init", "direction", "limit", "body"]
  | procedureCall .. => ["procedure_name", "params"]
  | functionCall .. => ["function_name", "params"]
  | writelnStatement .. => ["params"]
  | readlnStatement .. => ["params"]
  | caseStatement .. => ["expression", "case_list"]
  | caseOption .. => ["value", "statement"]
  | literal .. => ["value", "type_name"]
  | identifier .. => ["name"]
  | lengthFunction .. => ["expression"]
  | procedureDeclaration .. => ["heading", "block"]
  | procedureHeading .. => ["name", "params"]
  | functionDeclaration .. => ["heading", "block"]
  | functionHeading .. => ["name", "return_type", "params"]
  | parameter .. => ["name", "type_name"]
  | marked _ t => t.partNames
  | _ => []

/-- The parts of a node. -/
def parts : Tree → List Tree
  | program a b => [a, b]
  | header a => [a]
  | block a b c d => [a, b, c, d]
  | varDeclarationPart a => [a]
  | varDeclaration a b => [a, b]
  | idList a => [a]
  | arrayId a b => [a, b]
  | type a => [a]
  | arrayType a b => [a, b]
  | range a b => [a, b]
  | statementPart a => [a]
  | statementSequence xs => [list xs]
  | assignment a b => [a, b]
  | arrayAssignment a b c => [a, b, c]
  | binaryOp a b c => [a, b, c]
  | unaryOp a b => [a, b]
  | ifStatement a b c => [a, b, c]
  | whileStatement a b => [a, b]
  | repeatStatement a b => [a, b]
  | forStatement a b c d => [a, b, c, d]
  | procedureCall a b => [a, b]
  | functionCall a b => [a, b]
  | writelnStatement a => [a]
  | readlnStatement a => [a]
  | caseStatement a b => [a, b]
  | caseOption a b => [a, b]
  | literal a b => [a, b]
  | identifier a => [a]
  | lengthFunction a => [a]
  | procedureDeclaration a b => [a, b]
  | procedureHeading a b => [a, b]
  | functionDeclaration a b => [a, b]
  | functionHeading a b c => [a, b, c]
  | parameter a b => [a, b]
  | marked _ t => t.parts
  | _ => []

/-- A tree without its mark. -/
def bare : Tree → Tree
  | marked _ t => t.bare
  | t => t

/-- Whether a tree is a node. -/
def isNode : Tree → Bool
  | none | bool _ | str _ | int _ | real _ | list _ | tuple _ => false
  | marked _ t => t.isNode
  | _ => true

/-- Whether a tree counts as present and true: nothing, falsehood, zero and whatever is empty do
not. -/
def truthy : Tree → Bool
  | none => false
  | bool b => b
  | str s => !s.isEmpty
  | int i => i != 0
  | real x => !(x == 0.0)
  | list xs | tuple xs => !xs.isEmpty
  | marked _ t => t.truthy
  | _ => true

def orEmpty (t : Tree) : Tree := if t.truthy then t else list []

/-- The statements that a part stands for. -/
def statementsOf : Tree → List Tree
  | list xs => xs
  | t => [t]

/-- A node of each kind. -/
def kinds : List Tree := [
  program none none, header none, block none none none none, varDeclarationPart none,
  varDeclaration none none, idList none, arrayId none none, type none, arrayType none none,
  range none none, statementPart none, statementSequence [], assignment none none,
  arrayAssignment none none none, binaryOp none none none, unaryOp none none,
  ifStatement none none none, whileStatement none none, repeatStatement none none,
  forStatement none none none none, procedureCall none none, functionCall none none,
  writelnStatement none, readlnStatement none, breakStatement, continueStatement,
  caseStatement none none, caseOption none none, literal none none, identifier none,
  lengthFunction none, procedureDeclaration none none, procedureHeading none none,
  functionDeclaration none none, functionHeading none none none, parameter none none]

/-- The node of the same kind with other parts. Absent parameters and declarations become the
empty list. -/
def withParts : Tree → List Tree → Tree
  | program .., [a, b] => program a b
  | header .., [a] => header a
  | block .., [a, b, c, d] => block a b c d
  | varDeclarationPart .., [a] => varDeclarationPart (orEmpty a)
  | varDeclaration .., [a, b] => varDeclaration a b
  | idList .., [a] => idList a
  | arrayId .., [a, b] => arrayId a b
  | type .., [a] => type a
  | arrayType .., [a, b] => arrayType a b
  | range .., [a, b] => range a b
  | statementPart .., [a] => statementPart a
  | statementSequence _, [a] => statementSequence (statementsOf a)
  | assignment .., [a, b] => assignment a b
  | arrayAssignment .., [a, b, c] => arrayAssignment a b c
  | binaryOp .., [a, b, c] => binaryOp a b c
  | unaryOp .., [a, b] => unaryOp a b
  | ifStatement .., [a, b, c] => ifStatement a b c
  | whileStatement .., [a, b] => whileStatement a b
  | repeatStatement .., [a, b] => repeatStatement a b
  | forStatement .., [a, b, c, d] => forStatement a b c d
  | procedureCall .., [a, b] => procedureCall a (orEmpty b)
  | functionCall .., [a, b] => functionCall a (orEmpty b)
  | writelnStatement .., [a] => writelnStatement (orEmpty a)
  | readlnStatement .., [a] => readlnStatement (orEmpty a)
  | caseStatement .., [a, b] => caseStatement a b
  | caseOption .., [a, b] => caseOption a b
  | literal .., [a, b] => literal a b
  | identifier .., [a] => identifier a
  | lengthFunction .., [a] => lengthFunction a
  | procedureDeclaration .., [a, b] => procedureDeclaration a b
  | procedureHeading .., [a, b] => procedureHeading a (orEmpty b)
  | functionDeclaration .., [a, b] => functionDeclaration a b
  | functionHeading .., [a, b, c] => functionHeading a b (orEmpty c)
  | parameter .., [a, b] => parameter a b
  | t, _ => t

/-- The node of a named kind whose parts are looked up by name. A part that is not found is
absent. -/
def ofParts? (kind : String) (part? : String → Option Tree) : Option Tree :=
  (kinds.find? (·.kindName == kind)).map fun t =>
    t.withParts (t.partNames.map fun name => (part? name).getD none)

end Tree

end PascalStack
