import PascalStack.Simplify.Tree

/-!
# Interrupted simplification

A tree is simplified part by part, in place. When a fault ends the work, the parts done before
stay simplified, the part at fault stays as far as it got, and the parts after it stay as they
were. A list is exchanged only as a whole: before that its items are worked on where they stand.
-/

namespace PascalStack.Simplify

def result? {α : Type} (c : Printing α) : Option α := c.run.1.toOption

/-- Work on the parts of a tree, and whether a fault has ended it. -/
abbrev Work := StateM Bool

namespace Work

/-- A part after the work: untouched once the work has ended, done, or left as far as it got. -/
def part (t : Tree) (done : Option Tree) (left : Tree) : Work Tree := do
  if ← get then return t
  match done with
  | some t => return t
  | none =>
    set true
    return left

/-- Work on one part. -/
def onTree (t left : Tree) : Work Tree := part t (result? (simplify t)) left

/-- Work on a part that may be missing. -/
def onOptional (t left : Tree) : Work Tree := if t.truthy then onTree t left else return t

/-- Work on a list of parts. -/
def onItems (before : Tree → Printing Unit) (t left : Tree) : Work Tree :=
  part t ((result? (simplifyItems before t)).map .list) left

/-- Work on a list of parts that may be empty. -/
def onPresent (before : Tree → Printing Unit) (t left : Tree) : Work Tree :=
  if t.truthy then onItems before t left else return t

/-- What is made of a node. -/
def node (w : Work Tree) : Tree := (w.run false).1

end Work

open Work

mutual

/-- The tree that stands in the place of a tree after the work on it, whether or not a fault ended
the work. -/
def interrupted : Tree → Tree
  | .program header block => node do
    return .program (← onTree header (interrupted header)) (← onTree block (interrupted block))
  | .block vars routines body extra => node do
    let vars ← onTree vars (interrupted vars)
    let routines ← onPresent silent routines (interruptedItems silent routines)
    let extra ← onOptional extra (interrupted extra)
    let body ← onTree body (interrupted body)
    return .block vars routines body extra
  | .varDeclarationPart declarations => node do
    return .varDeclarationPart
      (← onPresent silent declarations (interruptedItems silent declarations))
  | .varDeclaration ids type => node do
    let ids ← onItems silent ids (interruptedItems silent ids)
    return .varDeclaration ids (← onTree type (interrupted type))
  | .arrayType range element => node do
    return .arrayType (← onTree range (interrupted range)) (← onTree element (interrupted element))
  | .arrayId name index => node do return .arrayId name (← onTree index (interrupted index))
  | .procedureDeclaration heading block => node do
    let heading ← onTree heading (interrupted heading)
    return .procedureDeclaration heading (← onTree block (interrupted block))
  | .functionDeclaration heading block => node do
    let heading ← onTree heading (interrupted heading)
    return .functionDeclaration heading (← onTree block (interrupted block))
  | .procedureHeading name params => node do
    return .procedureHeading name (← onPresent silent params (interruptedItems silent params))
  | .functionHeading name type params => node do
    let type ← onOptional type (interrupted type)
    return .functionHeading name type (← onPresent silent params (interruptedItems silent params))
  | .parameter name type => node do return .parameter name (← onTree type (interrupted type))
  | .statementPart sequence => node do
    return .statementPart (← onTree sequence (interrupted sequence))
  | .statementSequence statements =>
    match result? (simplifyAll silent statements) with
    | some done => .statementSequence (done.filter Tree.truthy)
    | none => .statementSequence (interruptedAll silent statements)
  | .assignment target value => node do
    return .assignment (← onTree target (interrupted target)) (← onTree value (interrupted value))
  | .arrayAssignment array index value => node do
    let array ← onTree array (interrupted array)
    let index ← onTree index (interrupted index)
    return .arrayAssignment array index (← onTree value (interrupted value))
  | .ifStatement condition thenBranch elseBranch => node do
    let condition ← onTree condition (interrupted condition)
    if ← get then return .ifStatement condition thenBranch elseBranch
    else if decides true condition then
      return .ifStatement condition (interrupted thenBranch) elseBranch
    else if decides false condition then
      let elseBranch := if elseBranch.truthy then interrupted elseBranch else elseBranch
      return .ifStatement condition thenBranch elseBranch
    else
      let thenBranch ← onTree thenBranch (interrupted thenBranch)
      return .ifStatement condition thenBranch (← onOptional elseBranch (interrupted elseBranch))
  | .whileStatement condition body => node do
    let condition ← onTree condition (interrupted condition)
    if !(← get) && decides false condition then return .whileStatement condition body
    else return .whileStatement condition (← onTree body (interrupted body))
  | .repeatStatement body condition => node do
    let body ← onTree body (interrupted body)
    return .repeatStatement body (← onTree condition (interrupted condition))
  | .forStatement init direction limit body => node do
    let init ← onTree init (interrupted init)
    let limit ← onTree limit (interrupted limit)
    return .forStatement init direction limit (← onTree body (interrupted body))
  | .procedureCall name params => node do
    return .procedureCall name (← onPresent silent params (interruptedItems silent params))
  | .writelnStatement params => node do
    return .writelnStatement (← onPresent announce params (interruptedItems announce params))
  | .readlnStatement params => node do
    return .readlnStatement (← onPresent silent params (interruptedItems silent params))
  | .caseStatement expression options => node do
    let expression ← onTree expression (interrupted expression)
    if ← get then return .caseStatement expression options
    match expression with
    | .literal value _ =>
      match result? (choose value options) with
      | some none => return .caseStatement expression (interruptedOptions options)
      | _ => return .caseStatement expression (interruptedChoice value options)
    | _ => return .caseStatement expression (interruptedOptions options)
  | .caseOption value statement => node do
    let value ← onTree value (interrupted value)
    return .caseOption value (← onTree statement (interrupted statement))
  | .binaryOp left operator right => node do
    let left ← onTree left (interrupted left)
    return .binaryOp left operator (← onTree right (interrupted right))
  | .unaryOp operator operand => node do
    return .unaryOp operator (← onTree operand (interrupted operand))
  | .lengthFunction expression => node do
    return .lengthFunction (← onTree expression (interrupted expression))
  | .marked _ t => interrupted t
  | t => t
termination_by structural t => t

/-- What is made of the items of a list. -/
def interruptedItems (before : Tree → Printing Unit) : Tree → Tree
  | .list xs => .list (interruptedAll before xs)
  | .tuple xs => .tuple (interruptedAll before xs)
  | t => t

/-- What is made of trees up to the one at fault. -/
def interruptedAll (before : Tree → Printing Unit) : List Tree → List Tree
  | [] => []
  | x :: xs =>
    if (result? (before x)).isNone then x :: xs
    else if (result? (simplify x)).isNone then interrupted x :: xs
    else interrupted x :: interruptedAll before xs

/-- What is made of options when one of them is chosen. -/
def interruptedChoice (subject : Tree) : Tree → Tree
  | .list xs => .list (interruptedChosen subject xs)
  | .tuple xs => .tuple (interruptedChosen subject xs)
  | t => t

def interruptedChosen (subject : Tree) : List Tree → List Tree
  | [] => []
  | .caseOption value statement :: rest =>
    if isCaseFor subject value then .caseOption value (interrupted statement) :: rest
    else .caseOption value statement :: interruptedChosen subject rest
  | .assignment target value :: rest =>
    .assignment target value ::
      (if isCaseFor subject value then rest else interruptedChosen subject rest)
  | .arrayAssignment array index value :: rest =>
    .arrayAssignment array index value ::
      (if isCaseFor subject value then rest else interruptedChosen subject rest)
  | .literal value type :: rest =>
    .literal value type ::
      (if isCaseFor subject value then rest else interruptedChosen subject rest)
  | xs => xs

/-- What is made of options when none is chosen. -/
def interruptedOptions : Tree → Tree
  | .list xs => .list (interruptedEach xs)
  | .tuple xs => .tuple (interruptedEach xs)
  | t => t

/-- Cases after work on each, up to the first fault. What is no case has at most a value to work
on. -/
def interruptedEach : List Tree → List Tree
  | [] => []
  | .caseOption value statement :: rest =>
    let (option, stopped) := (show Work Tree from do
      let value ← onTree value (interrupted value)
      return .caseOption value (← onTree statement (interrupted statement))).run false
    option :: if stopped then rest else interruptedEach rest
  | .assignment target value :: rest =>
    node (do return .assignment target (← onTree value (interrupted value))) :: rest
  | .arrayAssignment array index value :: rest =>
    node (do return .arrayAssignment array index (← onTree value (interrupted value))) :: rest
  | .literal value type :: rest =>
    node (do return .literal (← onTree value (interrupted value)) type) :: rest
  | xs => xs

end

end PascalStack.Simplify
