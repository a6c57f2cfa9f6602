import PascalStack.Tree.Basic

/-!
# Programs as syntax

The programs of the language, part by part, and their trees. Trees are dynamic; the trees of
syntax are those that a program can have, as it is parsed and after it is simplified.
-/

namespace PascalStack.Syntax

inductive Literal where
  | integer (n : Int)
  | decimal (x : Float)
  | truth (b : Bool)
  | verdict (b : Bool)
  | phrase (s : String)

def Literal.value : Literal → Tree
  | integer n => .int n
  | decimal x => .real x
  | truth b => .bool b
  | verdict b => .str (if b then "true" else "false")
  | phrase s => .str s

def Literal.typeName : Literal → String
  | integer _ | decimal _ => "NUMBER"
  | truth _ => "BOOLEAN"
  | verdict _ => "BOOL"
  | phrase _ => "PHRASE"

def Literal.tree (l : Literal) : Tree := .literal l.value (.str l.typeName)

inductive Expression where
  | literal (l : Literal)
  | name (x : String)
  | element (x : String) (index : Expression)
  | call (f : String) (arguments : List Expression)
  | length (operand : Expression)
  | negation (sign : String) (operand : Expression)
  | operation (left : Expression) (operator : String) (right : Expression)

mutual

def Expression.tree : Expression → Tree
  | .literal l => l.tree
  | .name x => .identifier (.str x)
  | .element x index => .arrayId (.str x) index.tree
  | .call f arguments => .procedureCall (.str f) (.list (Expression.trees arguments))
  | .length operand => .lengthFunction operand.tree
  | .negation sign operand => .unaryOp (.str sign) operand.tree
  | .operation left operator right => .binaryOp left.tree (.str operator) right.tree

def Expression.trees : List Expression → List Tree
  | [] => []
  | e :: rest => e.tree :: Expression.trees rest

end

inductive Variable where
  | name (x : String)
  | element (x : String) (index : Expression)

def Variable.base : Variable → String
  | name x | element x _ => x

def Variable.tree : Variable → Tree
  | name x => .identifier (.str x)
  | element x index => .arrayId (.str x) index.tree

inductive TypeForm where
  | word (s : String)
  | array (first last : Expression) (element : TypeForm)

def TypeForm.tree : TypeForm → Tree
  | word s => .type (.str s)
  | array first last element => .arrayType (.range first.tree last.tree) element.tree

def TypeForm.innermost : TypeForm → String
  | word s => s
  | array _ _ element => element.innermost

structure Declaration where
  declared : List Variable
  type : TypeForm

def Declaration.tree (d : Declaration) : Tree :=
  .varDeclaration (.list (d.declared.map Variable.tree)) d.type.tree

def sectionTree (ds : List Declaration) : Tree :=
  .varDeclarationPart (.list (ds.map Declaration.tree))

def extraTree : Option (List Declaration) → Tree
  | none => .none
  | some ds => sectionTree ds

structure Parameter where
  name : String
  type : TypeForm

def Parameter.tree (p : Parameter) : Tree := .parameter (.str p.name) p.type.tree

structure Assignment where
  target : Variable
  value : Expression

def Assignment.tree : Assignment → Tree
  | ⟨.name x, value⟩ => .assignment (.identifier (.str x)) value.tree
  | ⟨.element x index, value⟩ => .arrayAssignment (.str x) index.tree value.tree

inductive Statement where
  | empty
  | absent
  | compound (items : List Statement)
  | assign (a : Assignment)
  | conditional (condition : Expression) (yes no : Statement)
  | whileDo (condition : Expression) (body : Statement)
  | repeatUntil (body : Statement) (condition : Expression)
  | forDo (start : Assignment) (direction : String) (limit : Expression) (body : Statement)
  | call (f : String) (arguments : List Expression)
  | mention (x : String)
  | writeln (arguments : List Expression)
  | readln (targets : List Variable)
  | breakLoop
  | continueLoop

mutual

def Statement.tree : Statement → Tree
  | .empty => .list []
  | .absent => .none
  | .compound items => .statementPart (.statementSequence (Statement.trees items))
  | .assign a => a.tree
  | .conditional condition yes no => .ifStatement condition.tree yes.tree no.tree
  | .whileDo condition body => .whileStatement condition.tree body.tree
  | .repeatUntil body condition => .repeatStatement body.tree condition.tree
  | .forDo start direction limit body =>
    .forStatement start.tree (.str direction) limit.tree body.tree
  | .call f arguments => .procedureCall (.str f) (.list (Expression.trees arguments))
  | .mention x => .identifier (.str x)
  | .writeln arguments => .writelnStatement (.list (Expression.trees arguments))
  | .readln targets => .readlnStatement (.list (targets.map Variable.tree))
  | .breakLoop => .breakStatement
  | .continueLoop => .continueStatement

def Statement.trees : List Statement → List Tree
  | [] => []
  | s :: rest => s.tree :: Statement.trees rest

end

def bodyTree (items : List Statement) : Tree :=
  .statementPart (.statementSequence (Statement.trees items))

mutual

/-- Declarations, routines and statements. -/
inductive Block where
  | make (declarations : List Declaration) (routines : List Routine) (body : List Statement)
      (extra : Option (List Declaration))

/-- A procedure or function. A function may have no name. -/
inductive Routine where
  | procedure (name : String) (parameters : List Parameter) (block : Block)
  | function (name : Option String) (result : TypeForm) (parameters : List Parameter)
      (block : Block)

end

def nameTree : Option String → Tree
  | none => .none
  | some x => .str x

mutual

def Block.tree : Block → Tree
  | .make declarations routines body extra =>
    .block (sectionTree declarations) (.list (Routine.trees routines)) (bodyTree body)
      (extraTree extra)

def Routine.tree : Routine → Tree
  | .procedure name parameters block =>
    .procedureDeclaration
      (.procedureHeading (.str name) (.list (parameters.map Parameter.tree))) block.tree
  | .function name result parameters block =>
    .functionDeclaration
      (.functionHeading (nameTree name) result.tree (.list (parameters.map Parameter.tree)))
      block.tree

def Routine.trees : List Routine → List Tree
  | [] => []
  | r :: rest => r.tree :: Routine.trees rest

end

theorem truthy_routines (rs : List Routine) :
    (Tree.list (Routine.trees rs)).truthy = !rs.isEmpty := by
  cases rs <;> rfl

structure Program where
  name : String
  block : Block

def Program.tree (p : Program) : Tree := .program (.header (.str p.name)) p.block.tree

end PascalStack.Syntax
