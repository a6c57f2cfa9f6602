import PascalStack.LR.Machine
import PascalStack.Token.Basic

/-!
# The grammar of the language

The kinds of phrase, and the rules that make them. A rule has the symbols of its parts and the
tree it builds from their values.
-/

namespace PascalStack.Pascal

/-- The kinds of phrase. -/
inductive Phrase where
  | program | header | block | varPart | varList | varDeclaration | idList | routines | routine
  | procedure | procedureHeading | function | functionHeading | parameters | parameter | type
  | arrayType | range | statementPart | statements | statement | caseStatement | caseOptions
  | caseOption | writeln | readln | breakStatement | continueStatement | call | arguments
  | argument | ifStatement | whileStatement | repeatStatement | forStatement | assignment
  | expression | sum | product | logicSign | productSign | sumSign | lengthCall | element
  deriving DecidableEq, Repr, Inhabited

/-- The name of a kind of phrase in the rule texts. -/
def Phrase.name : Phrase → String
  | .program => "program"
  | .header => "header"
  | .block => "block"
  | .varPart => "variable_declaration_part"
  | .varList => "variable_declaration_list"
  | .varDeclaration => "variable_declaration"
  | .idList => "id_list"
  | .routines => "procedure_or_function"
  | .routine => "proc_or_func_declaration"
  | .procedure => "procedure_declaration"
  | .procedureHeading => "procedure_heading"
  | .function => "function_declaration"
  | .functionHeading => "function_heading"
  | .parameters => "parameter_list"
  | .parameter => "parameter"
  | .type => "type"
  | .arrayType => "array_type"
  | .range => "range"
  | .statementPart => "statement_part"
  | .statements => "statement_sequence"
  | .statement => "statement"
  | .caseStatement => "case_statement"
  | .caseOptions => "case_list"
  | .caseOption => "case_option"
  | .writeln => "writeln_statement"
  | .readln => "readln_statement"
  | .breakStatement => "break_statement"
  | .continueStatement => "continue_statement"
  | .call => "procedure_or_function_call"
  | .arguments => "param_list"
  | .argument => "param"
  | .ifStatement => "if_statement"
  | .whileStatement => "while_statement"
  | .repeatStatement => "repeat_statement"
  | .forStatement => "for_statement"
  | .assignment => "assignment_statement"
  | .expression => "expression"
  | .sum => "expression_m"
  | .product => "expression_s"
  | .logicSign => "and_or"
  | .productSign => "psign"
  | .sumSign => "sign"
  | .lengthCall => "length_function"
  | .element => "element"

/-- A part of a rule: a token or a phrase. -/
inductive Part where
  | token (kind : TokenKind)
  | phrase (kind : Phrase)
  deriving DecidableEq, Repr, Inhabited

/-- What a rule makes of the values of its parts. It may print. -/
abbrev Build := List Tree → Printing Tree

/-- A rule: the phrase it makes, its parts, and the tree it builds. -/
structure Rule where
  makes : Phrase
  parts : List Part
  build : Build

namespace Build

/-- The value of a part, counted from 0. -/
def part (i : Nat) (values : List Tree) : Tree := values.getD i .none

/-- Builds a fixed tree. -/
def always (t : Tree) : Build := fun _ => pure t

/-- Builds what a part has built. -/
def copy (i : Nat) : Build := fun values => pure (part i values)

/-- Builds a node from one part. -/
def node1 (f : Tree → Tree) (i : Nat) : Build := fun values => pure (f (part i values))

def node2 (f : Tree → Tree → Tree) (i j : Nat) : Build := fun values =>
  pure (f (part i values) (part j values))

def node3 (f : Tree → Tree → Tree → Tree) (i j k : Nat) : Build := fun values =>
  pure (f (part i values) (part j values) (part k values))

def node4 (f : Tree → Tree → Tree → Tree → Tree) (i j k l : Nat) : Build := fun values =>
  pure (f (part i values) (part j values) (part k values) (part l values))

/-- Puts an item before a list. -/
def consItem (item : Tree) : Tree → Tree
  | .list items => .list (item :: items)
  | other => .list [item, other]

/-- Puts an item after a list. -/
def snocItem (items item : Tree) : Tree :=
  match items with
  | .list items => .list (items ++ [item])
  | other => .list [other, item]

/-- Puts a statement before a sequence. -/
def consStatement (statement : Tree) : Tree → Tree
  | .statementSequence statements => .statementSequence (statement :: statements)
  | other => .statementSequence [statement, other]

/-- A type as a node. -/
def typeOf (t : Tree) : Tree := if t.isNode then t else .type t

/-- Building a jump out of a loop prints that it is left. -/
def leaving : Build := fun _ => do
  Printing.line "Break statement: BREAK"
  return .breakStatement

/-- Building an option always fails: it asks the option's value for its type. -/
def option : Build := fun values => throw (.noAttribute (part 0 values).kindName "type")

/-- Building a case statement prints it. -/
def choice : Build := fun values => do
  let subject ← ofExcept (part 1 values).text
  let options ← ofExcept (part 3 values).text
  Printing.line s!"Case statement: CASE {subject} OF {options} END"
  return .caseStatement (part 1 values) (part 3 values)

end Build

open Build

/-- The rules, in the order in which they are written. Rule 1 is the first. -/
def rules : Array Rule := #[
  ⟨.program, [.phrase .header, .token .semicolon, .phrase .block, .token .dot],
    node2 .program 0 2⟩,
  ⟨.header, [.token .kwProgram, .token .ident], node1 .header 1⟩,
  ⟨.block, [.phrase .varPart, .phrase .routines, .phrase .statementPart],
    node3 (fun a b c => .block a b c .none) 0 1 2⟩,
  ⟨.block, [.phrase .varPart, .phrase .routines, .phrase .varPart, .phrase .statementPart],
    node4 (fun a b c d => .block a b d c) 0 1 2 3⟩,
  ⟨.varPart, [.token .kwVar, .phrase .varList], node1 .varDeclarationPart 1⟩,
  ⟨.varPart, [], always (.varDeclarationPart (.list []))⟩,
  ⟨.varList, [.phrase .varList, .phrase .varDeclaration], node2 snocItem 0 1⟩,
  ⟨.varList, [.phrase .varDeclaration], node1 (fun a => .list [a]) 0⟩,
  ⟨.varDeclaration, [.phrase .idList, .token .colon, .phrase .type, .token .semicolon],
    node2 .varDeclaration 0 2⟩,
  ⟨.idList, [.token .ident], node1 (fun a => .list [.identifier a]) 0⟩,
  ⟨.idList, [.token .ident, .token .leftBracket, .phrase .expression, .token .rightBracket],
    node2 (fun a b => .list [.arrayId a b]) 0 2⟩,
  ⟨.idList, [.token .ident, .token .comma, .phrase .idList],
    node2 (fun a b => consItem (.identifier a) b) 0 2⟩,
  ⟨.idList, [.token .ident, .token .leftBracket, .phrase .expression, .token .rightBracket,
      .token .comma, .phrase .idList],
    node3 (fun a b c => consItem (.arrayId a b) c) 0 2 5⟩,
  ⟨.routines, [.phrase .routine, .token .semicolon, .phrase .routines], node2 consItem 0 2⟩,
  ⟨.routines, [], always (.list [])⟩,
  ⟨.routine, [.phrase .procedure], copy 0⟩,
  ⟨.routine, [.phrase .function], copy 0⟩,
  ⟨.procedure, [.phrase .procedureHeading, .token .semicolon, .phrase .block],
    node2 .procedureDeclaration 0 2⟩,
  ⟨.procedureHeading, [.token .kwProcedure, .token .ident],
    node1 (fun a => .procedureHeading a (.list [])) 1⟩,
  ⟨.procedureHeading, [.token .kwProcedure, .token .ident, .token .leftParen,
      .phrase .parameters, .token .rightParen],
    node2 .procedureHeading 1 3⟩,
  ⟨.function, [.phrase .functionHeading, .token .semicolon, .phrase .block],
    node2 .functionDeclaration 0 2⟩,
  ⟨.functionHeading, [.token .kwFunction, .phrase .type],
    node1 (fun a => .functionHeading .none a (.list [])) 1⟩,
  ⟨.functionHeading, [.token .kwFunction, .token .ident, .token .colon, .phrase .type],
    node2 (fun a b => .functionHeading a b (.list [])) 1 3⟩,
  ⟨.functionHeading, [.token .kwFunction, .token .ident, .token .leftParen, .phrase .parameters,
      .token .rightParen, .token .colon, .phrase .type],
    node3 (fun a b c => .functionHeading a c b) 1 3 6⟩,
  ⟨.parameters, [.phrase .parameter, .token .comma, .phrase .parameters], node2 consItem 0 2⟩,
  ⟨.parameters, [.phrase .parameter], node1 (fun a => .list [a]) 0⟩,
  ⟨.parameter, [.token .ident, .token .colon, .phrase .type], node2 .parameter 0 2⟩,
  ⟨.type, [.token .kwReal], node1 typeOf 0⟩,
  ⟨.type, [.token .kwInteger], node1 typeOf 0⟩,
  ⟨.type, [.token .kwBoolean], node1 typeOf 0⟩,
  ⟨.type, [.token .kwString], node1 typeOf 0⟩,
  ⟨.type, [.phrase .arrayType], node1 typeOf 0⟩,
  ⟨.arrayType, [.token .kwArray, .token .leftBracket, .phrase .range, .token .rightBracket,
      .token .kwOf, .phrase .type],
    node2 .arrayType 2 5⟩,
  ⟨.range, [.phrase .expression, .token .range, .phrase .expression], node2 .range 0 2⟩,
  ⟨.statementPart, [.token .kwBegin, .phrase .statements, .token .kwEnd], node1 .statementPart 1⟩,
  ⟨.statements, [.phrase .statement, .token .semicolon, .phrase .statements],
    node2 consStatement 0 2⟩,
  ⟨.statements, [.phrase .statement], node1 (fun a => .statementSequence a.statementsOf) 0⟩,
  ⟨.statement, [.phrase .assignment], copy 0⟩,
  ⟨.statement, [.phrase .statementPart], copy 0⟩,
  ⟨.statement, [.phrase .ifStatement], copy 0⟩,
  ⟨.statement, [.phrase .whileStatement], copy 0⟩,
  ⟨.statement, [.phrase .repeatStatement], copy 0⟩,
  ⟨.statement, [.phrase .forStatement], copy 0⟩,
  ⟨.statement, [.phrase .call], copy 0⟩,
  ⟨.statement, [.phrase .writeln], copy 0⟩,
  ⟨.statement, [.phrase .readln], copy 0⟩,
  ⟨.statement, [.phrase .breakStatement], copy 0⟩,
  ⟨.statement, [.phrase .continueStatement], copy 0⟩,
  ⟨.statement, [.phrase .caseStatement], copy 0⟩,
  ⟨.statement, [], always (.list [])⟩,
  ⟨.caseStatement, [.token .kwCase, .phrase .expression, .token .kwOf,
      .phrase .caseOptions, .token .kwEnd],
    choice⟩,
  ⟨.caseOptions, [.phrase .caseOption, .token .semicolon, .phrase .caseOptions],
    node2 consItem 0 2⟩,
  ⟨.caseOptions, [.phrase .caseOption, .token .semicolon], node1 (fun a => .list [a]) 0⟩,
  ⟨.caseOption, [.token .number, .token .colon, .phrase .statement], option⟩,
  ⟨.caseOption, [.token .bool, .token .colon, .phrase .statement], option⟩,
  ⟨.caseOption, [.token .phrase, .token .colon, .phrase .statement], option⟩,
  ⟨.caseOption, [.token .ident, .token .colon, .phrase .statement], option⟩,
  ⟨.writeln, [.token .kwWriteln, .token .leftParen, .phrase .arguments, .token .rightParen],
    node1 .writelnStatement 2⟩,
  ⟨.writeln, [.token .kwWriteln, .token .leftParen, .token .rightParen],
    always (.writelnStatement (.list []))⟩,
  ⟨.writeln, [.token .kwWrite, .token .leftParen, .phrase .arguments, .token .rightParen],
    node1 .writelnStatement 2⟩,
  ⟨.writeln, [.token .kwWrite, .token .leftParen, .token .rightParen],
    always (.writelnStatement (.list []))⟩,
  ⟨.readln, [.token .kwReadln, .token .leftParen, .phrase .idList, .token .rightParen],
    node1 .readlnStatement 2⟩,
  ⟨.readln, [.token .kwReadln, .token .leftParen, .token .rightParen],
    always (.readlnStatement (.list []))⟩,
  ⟨.readln, [.token .kwRead, .token .leftParen, .phrase .idList, .token .rightParen],
    node1 .readlnStatement 2⟩,
  ⟨.readln, [.token .kwRead, .token .leftParen, .token .rightParen],
    always (.readlnStatement (.list []))⟩,
  ⟨.breakStatement, [.token .kwBreak], leaving⟩,
  ⟨.continueStatement, [.token .kwContinue], always .continueStatement⟩,
  ⟨.call, [.token .ident, .token .leftParen, .phrase .arguments, .token .rightParen],
    node2 .procedureCall 0 2⟩,
  ⟨.call, [.token .ident, .token .leftParen, .token .rightParen],
    node1 (fun a => .procedureCall a (.list [])) 0⟩,
  ⟨.call, [.token .ident], node1 .identifier 0⟩,
  ⟨.arguments, [.phrase .arguments, .token .comma, .phrase .argument], node2 snocItem 0 2⟩,
  ⟨.arguments, [.phrase .argument], node1 (fun a => .list [a]) 0⟩,
  ⟨.argument, [.phrase .expression], copy 0⟩,
  ⟨.ifStatement, [.token .kwIf, .phrase .expression, .token .kwThen, .phrase .statement,
      .token .kwElse, .phrase .statement],
    node3 .ifStatement 1 3 5⟩,
  ⟨.ifStatement, [.token .kwIf, .phrase .expression, .token .kwThen, .phrase .statement],
    node2 (fun a b => .ifStatement a b .none) 1 3⟩,
  ⟨.whileStatement, [.token .kwWhile, .phrase .expression, .token .kwDo, .phrase .statement],
    node2 .whileStatement 1 3⟩,
  ⟨.repeatStatement, [.token .kwRepeat, .phrase .statement, .token .kwUntil, .phrase .expression],
    node2 .repeatStatement 1 3⟩,
  ⟨.forStatement, [.token .kwFor, .phrase .assignment, .token .kwTo, .phrase .expression,
      .token .kwDo, .phrase .statement],
    node4 .forStatement 1 2 3 5⟩,
  ⟨.forStatement, [.token .kwFor, .phrase .assignment, .token .kwDownto, .phrase .expression,
      .token .kwDo, .phrase .statement],
    node4 .forStatement 1 2 3 5⟩,
  ⟨.assignment, [.token .ident, .token .assign, .phrase .expression],
    node2 (fun a b => .assignment (.identifier a) b) 0 2⟩,
  ⟨.assignment, [.token .ident, .token .assign, .phrase .call],
    node2 (fun a b => .assignment (.identifier a) b) 0 2⟩,
  ⟨.assignment, [.token .ident, .token .leftBracket, .phrase .expression, .token .rightBracket,
      .token .assign, .phrase .expression],
    node3 .arrayAssignment 0 2 5⟩,
  ⟨.expression, [.phrase .expression, .phrase .logicSign, .phrase .sum], node3 .binaryOp 0 1 2⟩,
  ⟨.expression, [.phrase .sum], copy 0⟩,
  ⟨.sum, [.phrase .product], copy 0⟩,
  ⟨.sum, [.phrase .sum, .phrase .sumSign, .phrase .product], node3 .binaryOp 0 1 2⟩,
  ⟨.product, [.phrase .element], copy 0⟩,
  ⟨.product, [.phrase .product, .phrase .productSign, .phrase .element], node3 .binaryOp 0 1 2⟩,
  ⟨.logicSign, [.token .kwAnd], copy 0⟩,
  ⟨.logicSign, [.token .kwOr], copy 0⟩,
  ⟨.productSign, [.token .times], copy 0⟩,
  ⟨.productSign, [.token .divide], copy 0⟩,
  ⟨.sumSign, [.token .plus], copy 0⟩,
  ⟨.sumSign, [.token .minus], copy 0⟩,
  ⟨.sumSign, [.token .kwDiv], copy 0⟩,
  ⟨.sumSign, [.token .kwMod], copy 0⟩,
  ⟨.sumSign, [.token .equals], copy 0⟩,
  ⟨.sumSign, [.token .different], copy 0⟩,
  ⟨.sumSign, [.token .lessThan], copy 0⟩,
  ⟨.sumSign, [.token .lessEqual], copy 0⟩,
  ⟨.sumSign, [.token .greaterThan], copy 0⟩,
  ⟨.sumSign, [.token .greaterEqual], copy 0⟩,
  ⟨.lengthCall, [.token .kwLength, .token .leftParen, .phrase .expression, .token .rightParen],
    node1 .lengthFunction 2⟩,
  ⟨.element, [.token .ident], node1 .identifier 0⟩,
  ⟨.element, [.token .number], node1 (fun a => .literal a (.str "NUMBER")) 0⟩,
  ⟨.element, [.token .bool], node1 (fun a => .literal a (.str "BOOLEAN")) 0⟩,
  ⟨.element, [.token .phrase], node1 (fun a => .literal a (.str "PHRASE")) 0⟩,
  ⟨.element, [.token .leftParen, .phrase .expression, .token .rightParen], copy 1⟩,
  ⟨.element, [.token .kwNot, .phrase .element], node1 (.unaryOp (.str "NOT")) 1⟩,
  ⟨.element, [.phrase .lengthCall], copy 0⟩,
  ⟨.element, [.token .ident, .token .leftBracket, .phrase .expression, .token .rightBracket],
    node2 .arrayId 0 2⟩,
  ⟨.element, [.phrase .call], copy 0⟩]

/-- The rule with a number. Rule 0 leads to the start symbol and builds nothing. -/
def rule? (r : Nat) : Option Rule := if r = 0 then none else rules[r - 1]?

end PascalStack.Pascal
