import PascalStack.Printing
import PascalStack.Simplify.Folding

/-!
# Simplification of trees

Every expression of a tree is folded; branches that a constant condition rules out are taken away,
and statements that became nothing are dropped. The arguments of an output statement are printed
on the way.
-/

namespace PascalStack.Simplify

open PascalStack.Tree (same)

/-- Whether a condition is a literal of a truth value. -/
def decides (b : Bool) (condition : Tree) : Bool := isTruth b condition

/-- Prints an argument of an output statement. -/
def announce (argument : Tree) : Printing Unit := do
  let text ← ofExcept argument.text
  Printing.write s!"PARAM\n:{text}\nEND\n"

def silent (_ : Tree) : Printing Unit := pure ()

/-- Whether an option is for a value. -/
def isCaseFor (subject value : Tree) : Bool :=
  match value.bare with
  | .literal v _ => same v subject
  | _ => false

/-- The items of a list, or what stands for none. -/
def present (t : Tree) (items : Printing (List Tree)) : Printing Tree := do
  if t.truthy then return .list (← items) else return t

mutual

/-- What a tree becomes. -/
def simplify : Tree → Printing Tree
  | .program header block => do return .program (← simplify header) (← simplify block)
  | .block vars routines body extra => do
    let vars ← simplify vars
    let routines ← present routines (simplifyItems silent routines)
    let extra ← if extra.truthy then simplify extra else pure extra
    let body ← simplify body
    return .block vars routines body extra
  | .varDeclarationPart declarations => do
    return .varDeclarationPart (← present declarations (simplifyItems silent declarations))
  | .varDeclaration ids type => do
    let ids ← simplifyItems silent ids
    return .varDeclaration (.list ids) (← simplify type)
  | .arrayType range element => do return .arrayType (← simplify range) (← simplify element)
  | .arrayId name index => do return .arrayId name (← simplify index)
  | .procedureDeclaration heading block => do
    return .procedureDeclaration (← simplify heading) (← simplify block)
  | .functionDeclaration heading block => do
    return .functionDeclaration (← simplify heading) (← simplify block)
  | .procedureHeading name params => do
    return .procedureHeading name (← present params (simplifyItems silent params))
  | .functionHeading name type params => do
    let type ← if type.truthy then simplify type else pure type
    return .functionHeading name type (← present params (simplifyItems silent params))
  | .parameter name type => do return .parameter name (← simplify type)
  | .statementPart sequence => do return .statementPart (← simplify sequence)
  | .statementSequence statements => do
    return .statementSequence ((← simplifyAll silent statements).filter Tree.truthy)
  | .assignment target value => do return .assignment (← simplify target) (← simplify value)
  | .arrayAssignment array index value => do
    return .arrayAssignment (← simplify array) (← simplify index) (← simplify value)
  | .ifStatement condition thenBranch elseBranch => do
    let condition ← simplify condition
    if decides true condition then simplify thenBranch
    else if decides false condition then
      if elseBranch.truthy then simplify elseBranch else return .none
    else
      let thenBranch ← simplify thenBranch
      let elseBranch ← if elseBranch.truthy then simplify elseBranch else pure elseBranch
      return .ifStatement condition thenBranch elseBranch
  | .whileStatement condition body => do
    let condition ← simplify condition
    if decides false condition then return .none
    else return .whileStatement condition (← simplify body)
  | .repeatStatement body condition => do
    let body ← simplify body
    let condition ← simplify condition
    return if decides true condition then body else .repeatStatement body condition
  | .forStatement init direction limit body => do
    return .forStatement (← simplify init) direction (← simplify limit) (← simplify body)
  | .procedureCall name params => do
    return .procedureCall name (← present params (simplifyItems silent params))
  | .writelnStatement params => do
    return .writelnStatement (← present params (simplifyItems announce params))
  | .readlnStatement params => do
    return .readlnStatement (← present params (simplifyItems silent params))
  | .caseStatement expression options => do
    let expression ← simplify expression
    match expression with
    | .literal value _ =>
      match ← choose value options with
      | some t => return t
      | none => return .caseStatement expression (.list (← simplifyOptions options))
    | _ => return .caseStatement expression (.list (← simplifyOptions options))
  | .caseOption value statement => do
    return .caseOption (← simplify value) (← simplify statement)
  | .binaryOp left operator right => do
    let left ← simplify left
    let right ← simplify right
    ofExcept (foldBinary left operator right)
  | .unaryOp operator operand => do
    ofExcept (foldUnary operator (← simplify operand))
  | .lengthFunction expression => do ofExcept (foldLength (← simplify expression))
  | .marked _ t => simplify t
  | t => return t
termination_by structural t => t

/-- What the items of a list become, each announced before. -/
def simplifyItems (before : Tree → Printing Unit) : Tree → Printing (List Tree)
  | .list xs => simplifyAll before xs
  | .tuple xs => simplifyAll before xs
  | t => do
    let xs ← ofExcept t.items
    xs.forM before
    return xs

/-- What trees become, in order. -/
def simplifyAll (before : Tree → Printing Unit) : List Tree → Printing (List Tree)
  | [] => return []
  | x :: xs => do
    before x
    let y ← simplify x
    return y :: (← simplifyAll before xs)

/-- What becomes of the option that is for a value, if there is one. -/
def choose (subject : Tree) : Tree → Printing (Option Tree)
  | .list xs => chooseFrom subject xs
  | .tuple xs => chooseFrom subject xs
  | t => do
    match ← ofExcept t.items with
    | [] => return none
    | x :: _ => throw (.noAttribute x.kindName "value")

/-- Looks for the option that is for a value. -/
def chooseFrom (subject : Tree) : List Tree → Printing (Option Tree)
  | [] => return none
  | .caseOption value statement :: rest => do
    if isCaseFor subject value then return some (← simplify statement)
    else chooseFrom subject rest
  | .assignment target value :: rest =>
    if isCaseFor subject value then
      throw (.noAttribute (Tree.assignment target value).kindName "statement")
    else chooseFrom subject rest
  | .arrayAssignment array index value :: rest =>
    if isCaseFor subject value then
      throw (.noAttribute (Tree.arrayAssignment array index value).kindName "statement")
    else chooseFrom subject rest
  | .literal value type :: rest =>
    if isCaseFor subject value then
      throw (.noAttribute (Tree.literal value type).kindName "statement")
    else chooseFrom subject rest
  | t :: _ => throw (.noAttribute t.kindName "value")

/-- What the options of a case statement become. -/
def simplifyOptions : Tree → Printing (List Tree)
  | .list xs => simplifyEach xs
  | .tuple xs => simplifyEach xs
  | t => do
    match ← ofExcept t.items with
    | [] => return []
    | x :: _ => throw (.noAttribute x.kindName "value")

/-- What options become, in order. -/
def simplifyEach : List Tree → Printing (List Tree)
  | [] => return []
  | .caseOption value statement :: rest => do
    let value ← simplify value
    let statement ← simplify statement
    return .caseOption value statement :: (← simplifyEach rest)
  | .assignment target value :: _ => do
    let value ← simplify value
    throw (.noAttribute (Tree.assignment target value).kindName "statement")
  | .arrayAssignment array index value :: _ => do
    let value ← simplify value
    throw (.noAttribute (Tree.arrayAssignment array index value).kindName "statement")
  | .literal value type :: _ => do
    let value ← simplify value
    throw (.noAttribute (Tree.literal value type).kindName "statement")
  | t :: _ => throw (.noAttribute t.kindName "value")

end

end PascalStack.Simplify
