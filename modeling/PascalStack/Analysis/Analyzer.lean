import PascalStack.Analysis.Scope
import PascalStack.Analysis.Typing

/-!
# The analyzer

What an analyzer knows: the scope it is in, the errors it has found, how many loops are around it,
and which symbols have been given a value. A fault leaves all of it as it was when the fault
arose.
-/

namespace PascalStack.Analysis

/-- A predefined routine, with the number it always has. -/
def standardRoutine (id : Nat) (name : String) (isFunction : Bool) (type : String) : Symbol :=
  ⟨id, .str name, .named type, .bool false, .bool false, .none, .routine [] isFunction⟩

/-- The procedures that every program knows. -/
def standardProcedures : List Symbol := [
  standardRoutine 0 "writeln" false "PROCEDURE", standardRoutine 1 "write" false "PROCEDURE",
  standardRoutine 2 "readln" false "PROCEDURE", standardRoutine 3 "read" false "PROCEDURE"]

/-- The functions that every program knows. -/
def standardFunctions : List Symbol := [standardRoutine 4 "length" true "INTEGER"]

/-- What an analyzer knows and has printed. Numbers below 5 are those of predefined symbols. -/
structure Analyzer where
  scope : Scope := {}
  errors : List String := []
  loopLevel : Nat := 0
  nextId : Nat := 5
  assigned : List Nat := []
  out : String := ""

/-- A check changes what the analyzer knows, and may stop with a fault. -/
abbrev Checking := EStateM Fault Analyzer

namespace Checking

def line (text : String) : Checking Unit := modify fun a => { a with out := a.out ++ text ++ "\n" }

/-- Keeps an error and prints it. -/
def report (message : String) : Checking Unit := do
  modify fun a => { a with errors := a.errors ++ [message] }
  line s!"Semantic Error: {message}"

def textOf (t : Tree) : Checking String := ofExcept t.text

/-- How a value is worded, with what is known of its symbols. -/
def showing (v : Value) : Checking String := do
  let a ← get
  ofExcept (valueText a.assigned.contains v)

/-- The symbol that a name stands for here, from the inside out. -/
def find? (name : Tree) : Checking (Option Symbol) := do
  ofExcept name.checkKey
  return (← get).scope.find? name

/-- The symbol that the innermost table has for a name. -/
def findHere? (name : Tree) : Checking (Option Symbol) := do
  ofExcept name.checkKey
  return (← get).scope.findHere? name

/-- Puts a symbol into the innermost table, over one of the same name. -/
def define (s : Symbol) : Checking Unit := do
  ofExcept s.name.checkKey
  modify fun a => { a with scope := a.scope.define s }

def defineValue : Value → Checking Unit
  | .symbol s => define s
  | v => throw (.noAttribute v.kindName "name")

/-- A symbol with a number that no other has. -/
def newSymbol (name : Tree) (type : Value) (initialized constant value : Tree)
    (role : Role Value) : Checking Symbol := do
  let a ← get
  set { a with nextId := a.nextId + 1 }
  return ⟨a.nextId, name, type, initialized, constant, value, role⟩

def newVariable (name : Tree) (type : Value) (initialized : Bool) : Checking Symbol :=
  newSymbol name type (.bool initialized) (.bool false) .none .variable

/-- A routine with a result is a function, and its type is that of the result. -/
def newRoutine (name : Tree) (params : List Value) (result : Value) : Checking Symbol :=
  newSymbol name (if result.truthy then result else .named "PROCEDURE") (.bool false) (.bool false)
    .none (.routine params !result.isAbsent)

def newArray (name : Tree) (element dimensions : Value) : Checking Symbol :=
  newSymbol name (.named "ARRAY") (.bool false) (.bool false) .none
    (.array element dimensions.orEmpty)

/-- Remembers that a symbol has been given a value. -/
def assign (s : Symbol) : Checking Unit := modify fun a => { a with assigned := s.id :: a.assigned }

/-- Whether a symbol was made with a value or has been given one. -/
def isInitialized (s : Symbol) : Checking Bool := do
  return s.initialized.truthy || (← get).assigned.contains s.id

def enter : Checking Unit := modify fun a => { a with scope := a.scope.enter }

def leave : Checking Unit := modify fun a => { a with scope := a.scope.leave }

/-- Checks inside a table of its own. A fault leaves the table open. -/
def inScope (c : Checking Unit) : Checking Unit := do
  enter
  c
  leave

/-- Checks inside one more loop. A fault leaves the loop open. -/
def inLoop (c : Checking Unit) : Checking Unit := do
  modify fun a => { a with loopLevel := a.loopLevel + 1 }
  c
  modify fun a => { a with loopLevel := a.loopLevel - 1 }

end Checking

end PascalStack.Analysis
