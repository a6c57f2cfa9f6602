import PascalStack.Analysis.Analyzer
import PascalStack.Text.LetterCase

/-!
# Checking trees

Declarations fill the scope; statements and expressions are checked against it. Checking an
expression gives its type. Errors are reported and checking goes on.
-/

namespace PascalStack.Analysis

open Checking

/-- Reports a name that the innermost table already has. -/
def checkNew (what : String) (name : Tree) : Checking Unit := do
  if (← findHere? name).isSome then
    let name ← textOf name
    report s!"{what} {name} already declared in this scope"

/-- Defines a name with a type: the name of a type, or a group that tells of an array. -/
def declareAs (type : Value) (name : Tree) : Checking Unit :=
  match text? type, type.tupleItems? with
  | some _, _ => do define (← newVariable name type false)
  | none, some [] => throw (.pastEnd "tuple")
  | none, some (kind :: rest) =>
    if kind.isNamed "ARRAY" then
      match rest with
      | element :: dimensions :: _ => do define (← newArray name element dimensions)
      | _ => throw (.pastEnd "tuple")
    else return
  | none, none => return

/-- Declares one of the names of a declaration. -/
def declareName (type : Value) : Tree → Checking Unit
  | .identifier name => do
    checkNew "Variable" name
    declareAs type name
  | .arrayId name _ => do
    let name ← textOf name
    report s!"Cannot declare array with index in declaration: {name}"
  | _ => return

/-- The type that a name stands for. The case of its letters does not matter. -/
def namedType (name : Tree) : Checking Value :=
  match name with
  | .str s =>
    let upper := Text.asciiUpper s
    if ["INTEGER", "REAL", "BOOLEAN", "STRING"].contains upper then return .named upper
    else do
      report s!"Unknown type: {s}"
      return .named "UNKNOWN"
  | _ => throw (.noAttribute name.kindName "upper")

/-- Whether a type is one of whole numbers. -/
def isWhole (type : Value) : Bool := type.isOneOf ["INTEGER", "NUMBER"]

/-- The whole number that a bound stands for; 0 if it is none. -/
def boundOf (value : Tree) : Checking Int :=
  match value.number? with
  | some n => ofExcept n.truncate
  | none => return 0

/-- The bounds of a range as a pair, absent if they are refused. -/
def checkBounds (first last : Tree) (firstType lastType : Value) : Checking Value := do
  if !isWhole firstType || !isWhole lastType then
    let firstType ← showing firstType
    let lastType ← showing lastType
    report s!"Array range must be of INTEGER type, got {firstType} and {lastType}"
    return .absent
  match first, last with
  | .literal a _, .literal b _ =>
    let a ← boundOf a
    let b ← boundOf b
    if a > b then
      let a ← textOf (.int a)
      let b ← textOf (.int b)
      report s!"Invalid array range: {a}..{b}"
      return .absent
    else return .plain (.tuple [.int a, .int b])
  | _, _ => return .plain (.tuple [.int 0, .int 0])

/-- The parameters of a routine. -/
def paramsOf : Value → Except Fault (List Value)
  | .symbol s =>
    match s.role with
    | .routine params _ => .ok params
    | _ => .error (.noAttribute s.kindName "params")
  | v => .error (.noAttribute v.kindName "params")

/-- Checks the block of a procedure with its parameters in scope. -/
def checkProcedure (routine : Value) (block : Checking Unit) : Checking Unit := inScope do
  (← ofExcept (paramsOf routine)).forM defineValue
  block

/-- Checks the block of a function with its parameters and its result in scope, and whether the
result was given. -/
def checkFunction (routine : Value) (block : Checking Unit) : Checking Unit := inScope do
  (← ofExcept (paramsOf routine)).forM defineValue
  match routine with
  | .symbol s =>
    let result ← newVariable s.name s.type false
    define result
    block
    let found := (← find? s.name).getD result
    if !(← isInitialized found) then
      let name ← textOf s.name
      report s!"Function {name} does not have a return value"
  | _ => return

/-- The type of what a name stands for. -/
def checkName (name : Tree) : Checking Value := do
  match ← find? name with
  | some s => return s.type
  | none =>
    let name ← textOf name
    report s!"Undeclared identifier: {name}"
    return .named "UNKNOWN"

/-- Reports an index that is not a whole number. -/
def checkIndex (what : String) (index : Checking Value) : Checking Unit := do
  let type ← index
  if !isWhole type then
    let type ← showing type
    report s!"{what} index must be an integer, got {type}"

/-- The type of an element of an array or of a string. -/
def checkElement (name : Tree) (index : Checking Value) : Checking Value := do
  match ← find? name with
  | none =>
    let name ← textOf name
    report s!"Undeclared array: {name}"
    return .named "UNKNOWN"
  | some s =>
    match s.role with
    | .array element _ =>
      checkIndex "Array" index
      return element
    | _ =>
      if s.type.isNamed "STRING" then
        checkIndex "String" index
        return .named "CHAR"
      else
        let name ← textOf name
        report s!"{name} is not an array or string"
        return .named "UNKNOWN"

/-- The result type of a function whose call is parsed as that of a procedure. -/
def calledType? : Tree → Checking (Option Value)
  | .procedureCall name _ => do
    match ← find? name with
    | some s =>
      match s.role with
      | .routine _ true => return some s.type
      | _ => return none
    | none => return none
  | _ => return none

/-- Checks an assignment to a variable, and that it is given a value. -/
def assignVariable (name value : Tree) (check : Checking Value) : Checking Unit := do
  match ← find? name with
  | none =>
    let name ← textOf name
    report s!"Undeclared variable: {name}"
  | some target =>
    if target.constant.truthy then
      let name ← textOf name
      report s!"Cannot assign to constant: {name}"
    else
      let found ← check
      let type ← if found.isAbsent then do pure ((← calledType? value).getD found) else pure found
      if ← ofExcept (compatible target.type type) then assign target
      else
        let type ← showing type
        let wanted ← showing target.type
        report s!"Type mismatch in assignment: cannot assign {type} to {wanted}"

/-- Checks an assignment to an element. -/
def assignElement (element value : Checking Value) : Checking Unit := do
  let element ← element
  let type ← value
  if !(← ofExcept (compatible element type)) then
    let type ← showing type
    let element ← showing element
    report s!"Type mismatch in array assignment: cannot assign {type} to element of type {element}"

/-- Checks an assignment by the kind of its target. -/
def checkAssignment (target value : Tree) (element check : Checking Value) : Checking Unit :=
  match target with
  | .identifier name => assignVariable name value check
  | .arrayId .. => assignElement element check
  | _ => do
    let target ← textOf target
    report s!"Invalid assignment target: {target}"

/-- Reports a condition that is not a truth value. -/
def checkCondition (what : String) (type : Value) : Checking Unit := do
  if !type.isNamed "BOOLEAN" then
    let type ← showing type
    report s!"Condition in {what} statement must be of boolean type, got {type}"

/-- Reports a control variable that is not an integer. -/
def checkControl : Tree → Checking Unit
  | .assignment (.identifier name) _ => do
    match ← find? name with
    | some s =>
      if !s.type.isNamed "INTEGER" then
        let type ← showing s.type
        report s!"For loop control variable must be of integer type, got {type}"
    | none => return
  | _ => return

/-- Reports a limit that is not a whole number. -/
def checkLimit (type : Value) : Checking Unit := do
  if !isWhole type then
    let type ← showing type
    report s!"For loop limit must be of integer type, got {type}"

/-- Reports a jump outside of loops. -/
def checkJump (what : String) : Checking Unit := do
  if (← get).loopLevel == 0 then report s!"{what} statement must be inside a loop"

/-- Reports an option that cannot be compared with the subject. -/
def checkCase (subject value : Value) : Checking Unit := do
  if !(← ofExcept (compatible subject value)) then
    let subject ← showing subject
    let value ← showing value
    report s!"Type mismatch in case option: expression is {subject}, but case value is {value}"

/-- Reports what cannot be read into. -/
def refuseTarget (target : Tree) : Checking Unit := do
  let target ← textOf target
  report s!"Invalid target for read operation: {target}"

/-- Whether values of a type can be read. -/
def isReadable (type : Value) : Bool := type.isOneOf ["INTEGER", "REAL", "STRING"]

/-- Checks what is read into, and that it is given a value. -/
def checkTarget (target : Tree) (element : Checking Value) : Checking Unit :=
  match target with
  | .identifier name => do
    match ← find? name with
    | none =>
      let name ← textOf name
      report s!"Undeclared variable: {name}"
    | some s =>
      if isReadable s.type then assign s
      else
        let type ← showing s.type
        report s!"Cannot read into variable of type {type}"
  | .arrayId .. => do
    let type ← element
    if !isReadable type then
      let type ← showing type
      report s!"Cannot read into array element of type {type}"
  | _ => refuseTarget target

/-! ## Calls -/

/-- The symbol that is called: one in scope, or else a predefined one. -/
def callee? (standard : List Symbol) (name : Tree) : Checking (Option Symbol) := do
  match ← find? name with
  | some s => return some s
  | none => return standard.find? fun s => Tree.same s.name name

/-- A name in small letters. -/
def lowered : Tree → Except Fault String
  | .str s => .ok (Text.lower s)
  | t => .error (.noAttribute t.kindName "lower")

/-- What a call of a read procedure does to an argument. -/
def readArgument : Tree → Checking Unit
  | .identifier name => do
    match ← find? name with
    | some s => assign s
    | none => return
  | .arrayId .. => return
  | t => refuseTarget t

/-- What a call of a predefined procedure does after an argument. -/
def afterArgument (routine : String) (argument : Tree) (_ : Value) : Checking Unit :=
  if ["readln", "read"].contains routine then readArgument argument else return

/-- The type of a parameter. -/
def paramType : Value → Except Fault Value
  | .symbol s => .ok s.type
  | v => .error (.noAttribute v.kindName "type_name")

/-- Reports an argument that a parameter does not accept. -/
def checkArgument (what : String) (name : Tree) (index : Nat) (param found : Value) :
    Checking Unit := do
  let wanted ← ofExcept (paramType param)
  if !(← ofExcept (compatible wanted found)) then
    let name ← textOf name
    let wanted ← showing wanted
    let found ← showing found
    report s!"Type mismatch in parameter {index} of {what} {name}: expected {wanted}, got {found}"

/-- Checks arguments if there are as many as parameters, and says whether there are. -/
def checkArguments (title : String) (name params : Tree) (wanted : List Value)
    (each : Checking Unit) : Checking Bool := do
  let count ← ofExcept params.length
  if wanted.length == count then
    each
    return true
  else
    let name ← textOf name
    let expected := wanted.length
    report s!"{title} {name} expects {expected} parameters, got {count}"
    return false

/-- The type of a call: absent, unless a function is called. -/
def resultType (s : Symbol) : Value :=
  match s.role with
  | .routine _ true => s.type
  | _ => .absent

/-- Checks a call as a statement. `standard` checks the arguments of a standard procedure, and
`each` checks arguments against parameters. -/
def checkCall (name params : Tree) (standard : String → Checking Unit)
    (each : List Value → Checking Unit) : Checking Value := do
  match ← callee? standardProcedures name with
  | none =>
    let name ← textOf name
    report s!"Undeclared procedure: {name}"
    return .absent
  | some s =>
    match s.role with
    | .routine wanted _ =>
      let small ← ofExcept (lowered name)
      if ["writeln", "write", "readln", "read"].contains small then
        standard small
        return resultType s
      else if ← checkArguments "Procedure" name params wanted (each wanted) then
        return resultType s
      else return .absent
    | _ =>
      let name ← textOf name
      report s!"{name} is not a procedure or function"
      return .absent

/-- Checks the argument of `length`. -/
def checkLength (params : Tree) (first : Checking Value) : Checking Unit := do
  let count ← ofExcept params.length
  if count == 1 then
    let type ← first
    if !type.isNamed "STRING" then
      let type ← showing type
      report s!"Function length expects a STRING parameter, got {type}"
  else report s!"Function length expects 1 parameter, got {count}"

/-- Checks a call that is parsed as that of a function. -/
def checkFunctionCall (name params : Tree) (first : Checking Value)
    (each : List Value → Checking Unit) : Checking Value := do
  match ← callee? standardFunctions name with
  | none =>
    let name ← textOf name
    report s!"Undeclared function: {name}"
    return .named "UNKNOWN"
  | some s =>
    match s.role with
    | .routine wanted true =>
      if (← ofExcept (lowered name)) == "length" then
        checkLength params first
        return .named "INTEGER"
      else
        discard (checkArguments "Function" name params wanted (each wanted))
        return s.type
    | _ =>
      let name ← textOf name
      report s!"{name} is not a function"
      return .named "UNKNOWN"

/-- The type of an operation, unknown if the operands are refused. -/
def checkOperation (operator : Tree) (left right : Value) : Checking Value := do
  match ← ofExcept (operationType? operator left right) with
  | some type => return .named type
  | none =>
    let left ← showing left
    let right ← showing right
    let operator ← textOf operator
    report s!"Invalid operands {left} and {right} for operator {operator}"
    return .named "UNKNOWN"

/-- The type of an operation with one operand. -/
def checkUnary (operator : Tree) (operand : Value) : Checking Value := do
  match ← ofExcept (unaryType? operator operand) with
  | some type => return .named type
  | none =>
    let operand ← showing operand
    let operator ← textOf operator
    report s!"Invalid operand {operand} for unary operator {operator}"
    return .named "UNKNOWN"

/-- Prints that a kind of tree is not checked. -/
def warn (t : Tree) : Checking Value := do
  let kind := t.kindName
  line s!"Warning: No visitor method defined for {kind}"
  return .absent

/-- Checks a part only if there is one. -/
def whenPresent (t : Tree) (c : Checking Unit) : Checking Unit := if t.truthy then c else return

/-- Nothing is to be done after an argument. -/
def andNothing (_ : Tree) (_ : Value) : Checking Unit := return

mutual

/-- Checks a tree. Gives the type of an expression, the symbol of a heading, and nothing for most
other phrases. -/
def check : Tree → Checking Value
  | .none => return .absent
  | .program header block => do
    discard (check header)
    discard (check block)
    return .absent
  | .header _ => return .absent
  | .block vars routines body extra => do
    inScope do
      whenPresent vars (discard (check vars))
      whenPresent routines (checkItems andNothing routines)
      whenPresent extra (discard (check extra))
      whenPresent body (discard (check body))
    return .absent
  | .varDeclarationPart declarations => do
    whenPresent declarations (checkItems andNothing declarations)
    return .absent
  | .varDeclaration ids type => do
    let type ← check type
    (← ofExcept ids.items).forM (declareName type)
    return .absent
  | .type name => namedType name
  | .arrayType range element => do
    let element ← check element
    let bounds ← if range.truthy then check range else pure .absent
    let dimensions := if bounds.truthy then [bounds] else []
    return .tupleOf [.named "ARRAY", element, .listOf dimensions]
  | .range first last => do
    let firstType ← check first
    let lastType ← check last
    checkBounds first last firstType lastType
  | .identifier name => checkName name
  | .arrayId name index => checkElement name (check index)
  | .procedureDeclaration heading block => do
    let routine ← check heading
    checkProcedure routine (discard (check block))
    return .absent
  | .functionDeclaration heading block => do
    let routine ← check heading
    checkFunction routine (discard (check block))
    return .absent
  | .procedureHeading name params => do
    checkNew "Procedure" name
    let params ← if params.truthy then collectItems params else pure []
    let s ← newRoutine name params .absent
    define s
    return .symbol s
  | .functionHeading name type params => do
    checkNew "Function" name
    let type ← if type.truthy then check type else pure .absent
    let params ← if params.truthy then collectItems params else pure []
    let s ← newRoutine name params type
    define s
    return .symbol s
  | .parameter name type => do
    let type ← check type
    return .symbol (← newVariable name type true)
  | .statementPart sequence => check sequence
  | .statementSequence statements => do
    checkAll andNothing statements
    return .absent
  | .assignment target value => do
    checkAssignment target value (check target) (check value)
    return .absent
  | .ifStatement condition thenBranch elseBranch => do
    checkCondition "if" (← check condition)
    discard (check thenBranch)
    whenPresent elseBranch (discard (check elseBranch))
    return .absent
  | .whileStatement condition body => do
    checkCondition "while" (← check condition)
    inLoop (discard (check body))
    return .absent
  | .repeatStatement body condition => do
    inLoop do
      discard (check body)
      checkCondition "repeat" (← check condition)
    return .absent
  | .forStatement init _ limit body => do
    discard (check init)
    checkControl init
    checkLimit (← check limit)
    inLoop (discard (check body))
    return .absent
  | .procedureCall name params =>
    checkCall name params (fun routine => checkItems (afterArgument routine) params)
      (fun wanted => checkPairs "procedure" name wanted params)
  | .functionCall name params =>
    checkFunctionCall name params (checkFirst params)
      (fun wanted => checkPairs "function" name wanted params)
  | .writelnStatement params => do
    whenPresent params (checkItems andNothing params)
    return .absent
  | .readlnStatement params => do
    whenPresent params (checkTargets params)
    return .absent
  | .breakStatement => do
    checkJump "Break"
    return .absent
  | .continueStatement => do
    checkJump "Continue"
    return .absent
  | .caseStatement expression options => do
    let subject ← check expression
    checkOptions subject options
    return .absent
  | .caseOption value statement => do
    let type ← check value
    discard (check statement)
    return type
  | .binaryOp left operator right => do
    let left ← check left
    let right ← check right
    checkOperation operator left right
  | .unaryOp operator operand => do
    let operand ← check operand
    checkUnary operator operand
  | .literal _ type => return .plain type
  | .lengthFunction expression => do
    let type ← check expression
    if !type.isNamed "STRING" then
      let type ← showing type
      report s!"Length function expects a STRING parameter, got {type}"
    return .named "INTEGER"
  | .marked _ t => check t
  | t => warn t
termination_by structural t => t

/-- Checks the items of a list, each followed by what comes after it. -/
def checkItems (after : Tree → Value → Checking Unit) : Tree → Checking Unit
  | .list xs => checkAll after xs
  | .tuple xs => checkAll after xs
  | t => do (← ofExcept t.items).forM fun x => do after x (← warn x)
termination_by structural t => t

/-- Checks trees in order. -/
def checkAll (after : Tree → Value → Checking Unit) : List Tree → Checking Unit
  | [] => return
  | x :: xs => do
    after x (← check x)
    checkAll after xs
termination_by structural ts => ts

/-- The values of the items of a list. -/
def collectItems : Tree → Checking (List Value)
  | .list xs => collectAll xs
  | .tuple xs => collectAll xs
  | t => do (← ofExcept t.items).mapM warn
termination_by structural t => t

/-- The values of trees, in order. -/
def collectAll : List Tree → Checking (List Value)
  | [] => return []
  | x :: xs => do
    let v ← check x
    return v :: (← collectAll xs)
termination_by structural ts => ts

/-- The value of the first item of a list. -/
def checkFirst : Tree → Checking Value
  | .list (x :: _) => check x
  | .tuple (x :: _) => check x
  | t => warn t
termination_by structural t => t

/-- Checks the items of a list against parameters. -/
def checkPairs (what : String) (name : Tree) (wanted : List Value) : Tree → Checking Unit
  | .list xs => checkZip what name 1 wanted xs
  | .tuple xs => checkZip what name 1 wanted xs
  | t => do
    let xs ← ofExcept t.items
    for ((param, x), i) in (wanted.zip xs).zipIdx do
      checkArgument what name (i + 1) param (← warn x)
termination_by structural t => t

/-- Checks trees against parameters, as long as there are both. -/
def checkZip (what : String) (name : Tree) (index : Nat) (wanted : List Value) :
    List Tree → Checking Unit
  | [] => return
  | x :: xs =>
    match wanted with
    | [] => return
    | param :: rest => do
      checkArgument what name index param (← check x)
      checkZip what name (index + 1) rest xs
termination_by structural ts => ts

/-- Checks the items of a list as targets of a read. -/
def checkTargets : Tree → Checking Unit
  | .list xs => checkEachTarget xs
  | .tuple xs => checkEachTarget xs
  | t => do (← ofExcept t.items).forM refuseTarget
termination_by structural t => t

/-- Checks trees as targets of a read. -/
def checkEachTarget : List Tree → Checking Unit
  | [] => return
  | x :: xs => do
    checkTarget x (check x)
    checkEachTarget xs
termination_by structural ts => ts

/-- Checks the options of a case statement. -/
def checkOptions (subject : Value) : Tree → Checking Unit
  | .list xs => checkEachOption subject xs
  | .tuple xs => checkEachOption subject xs
  | t => do
    match ← ofExcept t.items with
    | [] => return
    | x :: _ => throw (.noAttribute x.kindName "value")
termination_by structural t => t

/-- Checks options in order. What is no option stops the check. -/
def checkEachOption (subject : Value) : List Tree → Checking Unit
  | [] => return
  | .caseOption value statement :: rest => do
    checkCase subject (← check value)
    discard (check statement)
    checkEachOption subject rest
  | .assignment target value :: _ => do
    checkCase subject (← check value)
    throw (.noAttribute (Tree.assignment target value).kindName "statement")
  | .arrayAssignment array index value :: _ => do
    checkCase subject (← check value)
    throw (.noAttribute (Tree.arrayAssignment array index value).kindName "statement")
  | .literal value type :: _ => do
    checkCase subject (← check value)
    throw (.noAttribute (Tree.literal value type).kindName "statement")
  | t :: _ => throw (.noAttribute t.kindName "value")
termination_by structural ts => ts

end

/-- The scope that the analysis of a program starts in. -/
def standardScope : Scope := (standardProcedures ++ standardFunctions).foldl Scope.define {}

/-- Prints how many errors were found, and which; none is a success. -/
def summarize : Checking Bool := do
  let errors := (← get).errors
  if errors.isEmpty then
    line "No semantic errors found."
    return true
  else
    let count := errors.length
    line s!"Found {count} semantic errors:"
    errors.zipIdx.forM fun (error, i) => do
      let n := i + 1
      line s!"{n}. {error}"
    return false

/-- Checks a program in a new scope. Errors found before count. -/
def analyze (t : Tree) : Checking Bool := do
  modify fun a => { a with scope := standardScope }
  discard (check t)
  summarize

end PascalStack.Analysis
