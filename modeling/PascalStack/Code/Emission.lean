import PascalStack.Code.Generator
import PascalStack.Text.LetterCase

/-!
# Writing the code of trees

Each phrase writes its code in order. A phrase gives the name it stands for, if it stands for one;
a literal gives its type and its value.
-/

namespace PascalStack.Code

open Generating

/-- What is left of a text or a list without its first and last item. -/
def inner : Tree → Except Fault Tree
  | .str s => .ok (.str (String.ofList (s.toList.drop 1).dropLast))
  | .list xs => .ok (.list (xs.drop 1).dropLast)
  | .tuple xs => .ok (.tuple (xs.drop 1).dropLast)
  | t => .error (.notSubscriptable t.kindName)

/-- A text with a backslash before each double quote. -/
def escaped (s : String) : String :=
  String.ofList (s.toList.flatMap fun c => if c == Text.doubleQuote then ['\\', c] else [c])

/-- The text of a literal that is written. -/
def writtenText (value : Tree) : Except Fault String := do
  match ← inner value with
  | .str s => return escaped s
  | t => throw (.noAttribute t.kindName "replace")

/-- The text of a literal that is an operand. Nothing is escaped in it. -/
def operandText (value : Tree) : Except Fault String := do (← inner value).text

/-- The whole number that a value stands for. -/
def wholeOf (t : Tree) : Except Fault Int :=
  match t with
  | .str s => Number.readInteger s
  | _ =>
    match t.number? with
    | some n => n.truncate
    | none => .error (.notNumeric t.kindName)

/-- Stores into the cell of a variable that is assigned to. -/
def storeInto (name : Tree) : Generating Unit := do
  let cell ← targetCell name
  emit [.store cell]

/-- Truth values go to a cell of the program, also in a function; other literals than these and
numbers make no code. -/
def assignLiteral (name value type : Tree) : Generating Unit := do
  if type.isText "BOOLEAN" then
    let n ← ofExcept (wholeOf value)
    emit [.push (.int n)]
    let cell ← ensureGlobal name
    emit [.store cell]
  else if type.isText "NUMBER" then
    emit [.push value]
    storeInto name

/-- The length of a variable is found in a cell of the program. -/
def assignLength (name expression operand : Tree) : Generating Unit := do
  if let .identifier _ := expression then
    let cell ← globalCell operand
    emit [.load cell]
  emit [.strlen]
  storeInto name

/-- Assigns a variable. To assign to the name of the function at hand is to return, and the
function's variables are then forgotten. -/
def assignVariable (name source : Tree) : Generating Unit := do
  if Tree.same (← get).function name then
    let cell ← sourceCell source
    modify fun g => { g with nextLocal := 0, locals := [] }
    emit [.load cell, .ret]
  else
    let target ← targetCell name
    let cell ← sourceCell source
    emit [.load cell, .store target]

/-- Assigns a value to a variable; `operand` is the string whose length is taken, and `run`
writes the code of a value that is computed. -/
def assign (name value : Tree) (operand run : Generating Tree) : Generating Unit := do
  line (← ofExcept value.text)
  match value with
  | .literal v type => assignLiteral name v type
  | .lengthFunction expression => do assignLength name expression (← operand)
  | .binaryOp .. => do
    discard run
    storeInto name
  | .identifier source => assignVariable name source
  | .procedureCall .. => discard run
  | _ => return

/-- The arguments of a call. -/
def argumentsOf : Tree → Except Fault (List Tree)
  | .none => .ok []
  | params => params.items

/-- The code that writes an argument, by what it is. -/
def writeArgument : Tree → Generating Unit
  | .literal value _ => do
    let text ← ofExcept (writtenText value)
    emit [.pushString text, .writeString]
  | .identifier name => do
    if (← typeOf name) == "integer" then
      if (← get).hasFunction then emit [.writeInteger]
      else
        let cell ← globalCell name
        emit [.load cell, .writeInteger]
  | _ => return

/-- The code that reads into a target. -/
def readArgument : Tree → Generating Unit
  | .arrayId name _ => do
    if (← typeOf name) == "integer" then
      emit [.read, .atoi]
      discard (newGlobal name)
  | .identifier name => do
    let type ← typeOf name
    if type == "string" then
      emit [.read]
      discard (newGlobal name)
    else if type == "integer" then
      emit [.read, .atoi]
      discard (newGlobal name)
  | _ => return

/-- Pushes the variable that an argument stands for. -/
def passArgument (_ : Tree) (name : Tree) : Generating Unit := do
  let cell ← globalCell name
  emit [.load cell]

/-- Pushes a variable. -/
def pushVariable (name : Tree) : Generating Unit := do
  let cell ← variableCell name
  emit [.load cell]

/-- Pushes an array, or a character of a string. -/
def pushElement (name : Tree) (index : Generating Tree) : Generating Unit := do
  let cell ← globalCell name
  emit [.load cell]
  if (← typeOf name) == "string" then
    let cell ← variableCell (← index)
    emit [.load cell, .push (.int 1), .operate .sub, .charat]

/-- Pushes the left operand of an operation. Some operands make no code. -/
def pushLeft (operand : Tree) (run index : Generating Tree) : Generating Unit :=
  match operand with
  | .identifier name => pushVariable name
  | .literal value _ => emit [.push value]
  | .arrayId name _ => pushElement name index
  | .binaryOp .. => discard run
  | _ => return

/-- Of a text only the first character is pushed. -/
def pushRightLiteral (value type : Tree) : Generating Unit := do
  if type.isText "NUMBER" then emit [.push value]
  else if type.isText "PHRASE" then
    let text ← ofExcept (operandText value)
    emit [.pushString text, .push (.int 0), .charat]

/-- Pushes the right operand of an operation. Some operands make no code. -/
def pushRight (operand : Tree) (run : Generating Tree) : Generating Unit :=
  match operand with
  | .arrayId name _ => do
    let cell ← globalCell name
    emit [.load cell]
  | .identifier name => pushVariable name
  | .literal value type => pushRightLiteral value type
  | .binaryOp .. => discard run
  | _ => return

/-- The instruction of an operator, if it has one. -/
def applyOperator (operator : Tree) : Generating Unit :=
  match Operation.ofOperator? operator with
  | some op => emit [.operate op]
  | none => return

/-! ## Control -/

/-- The instruction that pushes the limit of a loop: a literal or a variable. -/
def limitPush : Tree → Generating Instruction
  | .literal .none _ => throw .limitUnset
  | .literal value _ => return .push value
  | .identifier name => do return .load (← loopCell name)
  | _ => throw .limitUnset

/-- The code of a loop that counts. -/
def countedLoop (control direction limit : Tree) (body : Generating Unit) : Generating Unit := do
  let n ← takeLoop
  let up := direction.isText "to"
  emit [.label (.forStart n)]
  let cell ← loopCell control
  let bound ← limitPush limit
  emit [.load cell, bound, .operate (if up then .infeq else .supeq), .jumpZero (.forEnd n)]
  body
  let cell ← loopCell control
  emit [.load cell, .push (.int 1), .operate (if up then .add else .sub), .store cell]
  emit [.jump (.forStart n)]
  emit [.label (.forEnd n)]

/-- The code of a loop that tests before each round. -/
def testedLoop (condition body : Generating Unit) : Generating Unit := do
  let n ← takeLoop
  emit [.label (.whileStart n)]
  condition
  emit [.jumpZero (.whileEnd n)]
  body
  emit [.jump (.whileStart n)]
  emit [.label (.whileEnd n)]

/-- Pushes a condition. -/
def pushCondition (condition : Tree) (run : Generating Tree) : Generating Unit :=
  match condition with
  | .identifier name => pushVariable name
  | _ => discard run

/-- The code of a choice. Its number is taken after the code of the condition. -/
def conditional (condition thenBranch elseBranch : Generating Unit) : Generating Unit := do
  condition
  let n ← takeIf
  emit [.jumpZero (.elseBranch n)]
  thenBranch
  emit [.jump (.ifEnd n)]
  emit [.label (.elseBranch n)]
  elseBranch
  emit [.label (.ifEnd n)]

/-- Keeps the type of a variable, in small letters. -/
def declare (name type : Tree) : Generating Unit := do
  match type with
  | .str s =>
    ofExcept name.checkKey
    modify fun g => { g with types := Dictionary.insert g.types name (Text.lower s) }
  | _ => throw (.noAttribute type.kindName "lower")

/-- Prints that a kind of tree makes no code. -/
def warn (t : Tree) : Generating Tree := do
  let kind := t.kindName
  line s!"Warning: No visitor defined for {kind}"
  return .none

/-- Visits a part only if there is one. -/
def whenPresent (t : Tree) (c : Generating Unit) : Generating Unit := if t.truthy then c else return

/-- Nothing is to be done after an item. -/
def andNothing (_ : Tree) (_ : Tree) : Generating Unit := return

mutual

/-- Writes the code of a tree. -/
def generate : Tree → Generating Tree
  | .none => return .none
  | .program header block => do
    discard (generate header)
    discard (generate block)
    return .none
  | .header _ => return .none
  | .block vars routines body extra => do
    if routines.truthy then modify fun g => { g with hasFunction := true }
    whenPresent vars (discard (generate vars))
    whenPresent extra (discard (generate extra))
    whenPresent body (discard (generate body))
    if (← get).hasFunction then emit [.stop]
    whenPresent routines (generateItems andNothing routines)
    return .none
  | .varDeclarationPart declarations => do
    whenPresent declarations (generateItems andNothing declarations)
    return .none
  | .varDeclaration ids type => do
    generateItems (fun _ name => do declare name (← generate type)) ids
    return .none
  | .idList ids => do return .list (← collectItems ids)
  | .statementPart sequence => do
    discard (generate sequence)
    return .none
  | .statementSequence statements => do
    generateAll andNothing statements
    return .none
  | .procedureCall name params => do
    whenPresent params (generateItems passArgument params)
    emit [.address (.routine name), .call]
    return .none
  | .functionDeclaration heading block => do
    discard (generate heading)
    modify fun g => { g with inFunction := true }
    discard (generate block)
    modify fun g => { g with inFunction := false }
    return .none
  | .functionHeading name _ params => do
    modify fun g => { g with function := name }
    emit [.label (.routine name), .start]
    whenPresent params (generateItems andNothing params)
    return .none
  | .assignment target value => do
    let name ← generate target
    assign name value (generateOperand value) (generate value)
    return name
  | .writelnStatement params => do
    (← ofExcept (argumentsOf params)).forM writeArgument
    emit [.writeLine]
    return .none
  | .readlnStatement params => do
    (← ofExcept (argumentsOf params)).forM readArgument
    return .none
  | .forStatement init direction limit body => do
    let control ← generate init
    countedLoop control direction limit (discard (generate body))
    return .none
  | .whileStatement condition body => do
    testedLoop (discard (generate condition)) (discard (generate body))
    return .none
  | .ifStatement condition thenBranch elseBranch => do
    conditional (pushCondition condition (generate condition)) (discard (generate thenBranch))
      (whenPresent elseBranch (discard (generate elseBranch)))
    return .none
  | .binaryOp left operator right => do
    pushLeft left (generate left) (generateOperand left)
    pushRight right (generate right)
    applyOperator operator
    return .none
  | .identifier name => return name
  | .literal value type => return .tuple [type, value]
  | .arrayId name _ => return name
  | .arrayType _ element => generate element
  | .type name => return name
  | .parameter name _ => return name
  | .marked _ t => generate t
  | t => warn t
termination_by structural t => t

/-- Writes the code of what an operand is made of. -/
def generateOperand : Tree → Generating Tree
  | .lengthFunction expression => generate expression
  | .arrayId _ index => generate index
  | _ => return .none
termination_by structural t => t

/-- Writes the code of the items of a list, each followed by what comes after it. -/
def generateItems (after : Tree → Tree → Generating Unit) : Tree → Generating Unit
  | .list xs => generateAll after xs
  | .tuple xs => generateAll after xs
  | t => do (← ofExcept t.items).forM fun x => do after x (← warn x)
termination_by structural t => t

/-- Writes the code of trees in order. -/
def generateAll (after : Tree → Tree → Generating Unit) : List Tree → Generating Unit
  | [] => return
  | x :: xs => do
    after x (← generate x)
    generateAll after xs
termination_by structural ts => ts

/-- The names that the items of a list stand for. -/
def collectItems : Tree → Generating (List Tree)
  | .list xs => collectAll xs
  | .tuple xs => collectAll xs
  | t => do (← ofExcept t.items).mapM warn
termination_by structural t => t

/-- The names that trees stand for, in order. -/
def collectAll : List Tree → Generating (List Tree)
  | [] => return []
  | x :: xs => do
    let y ← generate x
    return y :: (← collectAll xs)
termination_by structural ts => ts

end

/-- Writes the code of a program and says so. -/
def generateProgram (t : Tree) : Generating Unit := do
  discard (generate t)
  line "Code generation completed"

end PascalStack.Code
