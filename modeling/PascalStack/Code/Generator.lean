import PascalStack.Code.Instruction
import PascalStack.Tree.Dictionary

/-!
# The generator

What a generator knows while it writes code: the cells given to variables of the program and of
the routine at hand, the types declared, the numbers of the next labels, and the code so far. A
fault leaves all of it as it was when the fault arose.
-/

namespace PascalStack.Code

/-- What a generator knows, and the code it has made. Code and printed text are kept apart. -/
structure Generator where
  file : String
  globals : Dictionary Nat := []
  locals : Dictionary Nat := []
  nextGlobal : Nat := 0
  nextLocal : Nat := 0
  nextLoop : Nat := 0
  nextIf : Nat := 0
  inFunction : Bool := false
  hasFunction : Bool := false
  types : Dictionary String := []
  function : Tree := .none
  code : List Instruction := []
  out : String := ""

/-- Where code is written. -/
def directory : String := "../vm/"

/-- The last part of a path. -/
def baseName (path : String) : String :=
  String.ofList (path.toList.reverse.takeWhile (· != '/')).reverse

/-- A file name without its extension. Dots at its start belong to no extension. -/
def stem (name : String) : String :=
  let dots := name.toList.takeWhile (· == '.')
  let rest := name.toList.dropWhile (· == '.')
  match rest.reverse.dropWhile (· != '.') with
  | [] => name
  | _ :: shorter => String.ofList (dots ++ shorter.reverse)

/-- The name of the code file for a source file. -/
def fileFor (path : String) : String := stem (baseName path) ++ ".vm"

def nameLimit : Nat := 255

def Generator.path (g : Generator) : String := directory ++ g.file

/-- A generator for a source file. It stops if the code file cannot have its name. -/
def Generator.new (path : String) : Except Fault Generator :=
  let file := fileFor path
  if file.toList.contains (Char.ofNat 0) then .error .nullInName
  else if file.utf8ByteSize > nameLimit then .error (.nameTooLong (directory ++ file))
  else .ok { file := file }

/-- A visit adds code to a generator, and may stop with a fault. -/
abbrev Generating := EStateM Fault Generator

namespace Generating

def line (text : String) : Generating Unit :=
  modify fun g => { g with out := g.out ++ text ++ "\n" }

/-- Adds instructions. One that has no text stops the generator before anything is added. -/
def emit (instructions : List Instruction) : Generating Unit := do
  discard (ofExcept (render instructions))
  modify fun g => { g with code := g.code ++ instructions }

/-- The cell of a variable of the program. -/
def globalCell (name : Tree) : Generating Cell := do
  return .program (← ofExcept ((← get).globals.get name))

/-- The cell of a variable of the routine at hand. -/
def localCell (name : Tree) : Generating Cell := do
  return .routine (← ofExcept ((← get).locals.get name))

def hasLocal (name : Tree) : Generating Bool := do ofExcept ((← get).locals.has name)

/-- The type that a variable was declared with. -/
def typeOf (name : Tree) : Generating String := do ofExcept ((← get).types.get name)

/-- Gives a variable the next cell of the program, also if it has one. -/
def newGlobal (name : Tree) : Generating Cell := do
  ofExcept name.checkKey
  let g ← get
  set { g with
    globals := Dictionary.insert g.globals name g.nextGlobal
    nextGlobal := g.nextGlobal + 1 }
  return .program g.nextGlobal

/-- Gives a variable the next cell of the routine at hand. A cell of the program is passed over as
well. -/
def newLocal (name : Tree) : Generating Cell := do
  ofExcept name.checkKey
  let g ← get
  set { g with
    locals := Dictionary.insert g.locals name g.nextLocal
    nextLocal := g.nextLocal + 1
    nextGlobal := g.nextGlobal + 1 }
  return .routine g.nextLocal

/-- The cell of a variable of the program, a new one if it has none. -/
def ensureGlobal (name : Tree) : Generating Cell := do
  if ← ofExcept ((← get).globals.has name) then globalCell name else newGlobal name

/-- The cell of a variable of the routine, a new one if it has none. -/
def ensureLocal (name : Tree) : Generating Cell := do
  if ← hasLocal name then localCell name else newLocal name

/-- The cell that an assignment stores into. -/
def targetCell (name : Tree) : Generating Cell := do
  if (← get).inFunction then ensureLocal name else ensureGlobal name

/-- The cell of a variable, first looked for in the function at hand. -/
def variableCell (name : Tree) : Generating Cell := do
  if (← get).inFunction then
    if ← hasLocal name then localCell name else globalCell name
  else globalCell name

/-- The cell of the variable that a function gives back. -/
def sourceCell (name : Tree) : Generating Cell := do
  if ← hasLocal name then localCell name else globalCell name

/-- The cell of a control variable or of a limit. -/
def loopCell (name : Tree) : Generating Cell := do
  if (← get).inFunction then localCell name else globalCell name

/-- The number of a loop. -/
def takeLoop : Generating Nat := do
  let g ← get
  set { g with nextLoop := g.nextLoop + 1 }
  return g.nextLoop

/-- The number of a choice. -/
def takeIf : Generating Nat := do
  let g ← get
  set { g with nextIf := g.nextIf + 1 }
  return g.nextIf

end Generating

end PascalStack.Code
