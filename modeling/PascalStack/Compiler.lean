import PascalStack.Analysis.Check
import PascalStack.Code.Emission
import PascalStack.Pascal.Parser
import PascalStack.Simplify.Tree
import PascalStack.Tree.Outline

/-!
# The compiler

The stages in order: a source text becomes a tree, the tree is simplified and checked, and code
is written for it. The commands print what they do; what was printed and written before a fault
stays.
-/

namespace PascalStack.Compiler

/-- What a command leaves behind: the text printed, and the code files by name. -/
structure Desk where
  out : String := ""
  files : List (String × String) := []

/-- A stage prints and writes files, and may stop with a fault. -/
abbrev Compiling := EStateM Fault Desk

/-- Writes a file, over one of the same name. -/
def putFile (files : List (String × String)) (name text : String) : List (String × String) :=
  match files with
  | [] => [(name, text)]
  | entry :: rest =>
    if entry.1 == name then (name, text) :: rest else entry :: putFile rest name text

/-- The text of the code that a generator has made. -/
def codeText (g : Code.Generator) : String :=
  match Code.render g.code with
  | .ok text => text
  | .error _ => ""

def line (text : String) : Compiling Unit := modify fun d => { d with out := d.out ++ text ++ "\n" }

/-- Runs a computation that prints. -/
def printing {α : Type} (c : Printing α) : Compiling α := do
  let d ← get
  match EStateM.run c d.out with
  | .ok a out => do
    set { d with out := out }
    return a
  | .error f out => do
    set { d with out := out }
    throw f

/-- The tree of a source text. -/
def parsing (source : String) : Compiling Tree := do
  let p := Pascal.parse 1 source
  modify fun d => { d with out := d.out ++ p.out }
  ofExcept p.tree

/-- What a check gives, and what the analyzer knows after it, fault or not. -/
def runAnalyzer {α : Type} (c : Analysis.Checking α) (a : Analysis.Analyzer) :
    Except Fault α × Analysis.Analyzer :=
  match EStateM.run c a with
  | .ok x a => (.ok x, a)
  | .error f a => (.error f, a)

/-- What a visit gives, and what the generator holds after it, fault or not. -/
def runGenerator {α : Type} (c : Code.Generating α) (g : Code.Generator) :
    Except Fault α × Code.Generator :=
  match EStateM.run c g with
  | .ok x g => (.ok x, g)
  | .error f g => (.error f, g)

/-- The tree of a source text, simplified if asked. -/
def preparing (source : String) (simplified : Bool) : Compiling Tree := do
  let tree ← parsing source
  if simplified then printing (Simplify.simplify tree) else return tree

/-- Analyzes a tree with a new analyzer. -/
def analyzing (t : Tree) : Compiling (Except Fault Bool × Analysis.Analyzer) := do
  let (result, a) := runAnalyzer (Analysis.analyze t) {}
  modify fun d => { d with out := d.out ++ a.out }
  return (result, a)

/-- Makes the code of a tree with a new generator and writes it, fault or not. -/
def generating (path : String) (t : Tree) : Compiling (Except Fault Unit × Code.Generator) := do
  let g ← ofExcept (Code.Generator.new path)
  let (result, g) := runGenerator (Code.generateProgram t) g
  modify fun d => ⟨d.out ++ g.out, putFile d.files g.file (codeText g)⟩
  return (result, g)

def failure : Nat := 1

def success : Nat := 0

/-- The phases after the parse. The answer is the status that the command ends with. -/
def compileTree (path : String) (tree : Tree) : Compiling Nat := do
  line (← ofExcept tree.outline)
  if !tree.truthy then
    line "Syntax analysis failed."
    return failure
  line "Syntax analysis completed successfully."
  line "\nPhase 2: AST Optimization..."
  let tree ← printing (Simplify.simplify tree)
  line "AST Optimization completed."
  line "\nOptimized AST:"
  line (← ofExcept tree.outline)
  line "\nPhase 3: Semantic Analysis..."
  if !(← ofExcept (← analyzing tree).1) then
    line "Semantic analysis failed with errors."
    return failure
  line "Semantic analysis completed successfully."
  ofExcept (← generating path tree).1
  line "\nCompilation successful!"
  return success

/-- Parses a source text and goes on with its tree. -/
def compileSource (path source : String) : Compiling Nat := do
  compileTree path (← parsing source)

/-- The command that compiles a file. -/
def compileFile (read : String → Except Fault String) : List String → Compiling Nat
  | [path] => do
    line s!"\nCompiling file: {path}\n"
    line "Phase 1: Lexical and syntax analysis..."
    compileSource path (← ofExcept (read path))
  | _ => do
    line "Usage: python main.py <filename>"
    return failure

/-- The parser as a command: the tree of a file, or nothing if the command was not given one
file. -/
def parseFile (read : String → Except Fault String) : List String → Compiling (Option Tree)
  | [path] => do
    let source ← ofExcept (read path)
    line s!"\nParsing file: {path}\n"
    let tree ← parsing source
    line "\nParsing completed successfully!"
    line "\nAST result:"
    line (← ofExcept tree.outline)
    return some tree
  | _ => do
    line "Usage: python pasSyn.py <filename>"
    return none

/-- What a command answers, and what it printed and wrote. -/
def run {α : Type} (c : Compiling α) : Except Fault α × Desk :=
  match EStateM.run c {} with
  | .ok a d => (.ok a, d)
  | .error f d => (.error f, d)

/-- Prints the tokens of a source text and counts them. -/
def listing (label source : String) : Compiling Nat := do
  let r := Reading.listing label 1 source
  modify fun d => { d with out := d.out ++ r.out }
  match r.fault with
  | some f => throw f
  | none => return r.tokens.length

/-- The command that lists the tokens of a file or of what is typed. -/
def listFile (read : String → Except Fault String) (typed : String) : List String → Compiling Unit
  | path :: _ => do discard (listing "LexToken" (← ofExcept (read path)))
  | [] => do
    line "Reading from standard input (type EOF to end):"
    discard (listing "" typed)

end PascalStack.Compiler
