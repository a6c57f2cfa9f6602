import PascalStack.Compiler
import PascalStack.Simplify.Interrupted
import PascalStack.Tree.Marking

/-!
# Sessions

A session works on one tree with one analyzer and at most one generator. Each command gives an
answer and what was printed; whatever a fault left behind stays for the commands that follow.
-/

namespace PascalStack

/-- A symbol as a command gives it, without a number. -/
inductive SymbolForm where
  | variable (name type initialized constant value : Tree)
  | routine (name : Tree) (params : List SymbolForm) (result : Tree)
  | array (name element dimensions : Tree)
  deriving Inhabited

namespace SymbolForm

open Analysis in
mutual

/-- The symbol of a form, with a new number. -/
def toSymbol : SymbolForm → Checking Symbol
  | .variable name type initialized constant value =>
    Checking.newSymbol name (.plain type) initialized constant value .variable
  | .routine name params result => do
    let params ← toSymbols params
    Checking.newRoutine name params (.plain result)
  | .array name element dimensions =>
    Checking.newArray name (.plain element) (.plain dimensions)

def toSymbols : List SymbolForm → Checking (List Value)
  | [] => return []
  | x :: xs => do
    let s ← toSymbol x
    return .symbol s :: (← toSymbols xs)

end

end SymbolForm

/-- What can be asked of a session. -/
inductive Command where
  | lex (source : String)
  | parse (source : String)
  | load (tree : Tree)
  | current
  | outline
  | text
  | simplify
  | fold (tree : Tree)
  | numberOf (tree : Tree)
  | unquoted (tree : Tree)
  | sameOperand (left right : Tree)
  | newAnalyzer
  | analyze
  | check (tree : Tree)
  | compatible (target source : Tree)
  | define (form : SymbolForm)
  | find (name : Tree) (here : Bool)
  | enterScope
  | leaveScope
  | symbolText (form : SymbolForm)
  | fail (message : String)
  | newGenerator (path : String)
  | generateProgram
  | generate (tree : Tree)

/-- What a command gives. -/
inductive Reply where
  | tokens (tokens : List Token)
  | parsed (found : Bool) (line : Nat)
  | value (v : Analysis.Value)

/-- What a session works on. The line of the lexer goes on from text to text. -/
structure Session where
  line : Nat := 1
  tree : Tree := .none
  analyzer : Analysis.Analyzer := {}
  generator : Option Code.Generator := none
  files : List (String × String) := []
  nextMark : Nat := 0

/-- What a command gives, and what it printed. -/
structure Answer where
  reply : Except Fault Reply
  out : String := ""

namespace Reply

def tree (t : Tree) : Reply := .value (.plain t)

def nothing : Reply := tree .none

end Reply

namespace Session

/-- An answer that prints nothing and changes nothing. -/
def quietly (s : Session) (reply : Except Fault Reply) : Session × Answer := (s, ⟨reply, ""⟩)

/-- Runs a check with the analyzer of the session. -/
def checking (s : Session) (c : Analysis.Checking Reply) : Session × Answer :=
  let (reply, a) := Compiler.runAnalyzer c { s.analyzer with out := "" }
  ({ s with analyzer := a }, ⟨reply, a.out⟩)

/-- An answer with a value. A symbol is worded, which may stop. -/
def giving (v : Analysis.Value) : Analysis.Checking Reply := do
  if let .symbol _ := v then discard (Analysis.Checking.showing v)
  return .value v

/-- Runs a visit with a generator, and writes its file. -/
def generating (s : Session) (g : Code.Generator) (c : Code.Generating Reply) : Session × Answer :=
  let (reply, g) := Compiler.runGenerator c { g with out := "" }
  ({ s with generator := some g, files := Compiler.putFile s.files g.file (Compiler.codeText g) },
    ⟨reply, g.out⟩)

/-- Runs a visit with the generator of the session, if there is one. -/
def withGenerator? (s : Session) (c : Code.Generating Reply) : Option (Session × Answer) :=
  s.generator.map fun g => s.generating g c

/-- The tokens of a text. -/
def lex (s : Session) (source : String) : Session × Answer :=
  let r := Reading.ofText s.line source
  let reply := match r.fault with
    | some f => .error f
    | none => .ok (.tokens r.tokens)
  ({ s with line := r.line }, ⟨reply, r.out⟩)

/-- Parses a text; its tree becomes that of the session. -/
def parse (s : Session) (source : String) : Session × Answer :=
  let p := Pascal.parse s.line source
  let s := { s with line := p.line }
  match p.tree with
  | .ok t => ({ s with tree := t }, ⟨.ok (.parsed (t != .none) p.line), p.out⟩)
  | .error f => ({ s with tree := .none }, ⟨.error f, p.out⟩)

/-- A tree whose nodes are told apart from all others of the session. -/
def mark (s : Session) (t : Tree) : Tree × Session :=
  let (t, nextMark) := t.mark.run s.nextMark
  (t, { s with nextMark })

/-- Takes a tree for that of the session. -/
def load (s : Session) (t : Tree) : Session :=
  let (t, s) := s.mark t
  { s with tree := t }

/-- Simplifies the tree of the session in place, as far as it gets. -/
def simplify (s : Session) : Session × Answer :=
  match (Simplify.simplify s.tree).run with
  | (.ok t, out) => (s.load t, ⟨.ok (.tree t), out⟩)
  | (.error f, out) => (s.load (Simplify.interrupted s.tree), ⟨.error f, out⟩)

/-- Starts a new generator. -/
def newGenerator (s : Session) (path : String) : Session × Answer :=
  match Code.Generator.new path with
  | .ok g => s.generating g (return .nothing)
  | .error f => ({ s with generator := none }, ⟨.error f, ""⟩)

/-- The answer to a command, and the session after it. A visit needs a generator. -/
def step? (s : Session) : Command → Option (Session × Answer)
  | .lex source => s.lex source
  | .parse source => s.parse source
  | .load t => (s.load t).quietly (.ok .nothing)
  | .current => s.quietly (.ok (.tree s.tree))
  | .outline => s.quietly (s.tree.outline.map fun text => .tree (.str text))
  | .text => s.quietly (s.tree.text.map fun text => .tree (.str text))
  | .simplify => s.simplify
  | .fold t =>
    let (result, out) := (Simplify.simplify t).run
    some (s, ⟨result.map .tree, out⟩)
  | .numberOf t => s.quietly (.ok (.tree (Simplify.numberOf t)))
  | .unquoted t => s.quietly (.ok (.tree (Simplify.unquoted t)))
  | .sameOperand a b => s.quietly (.ok (.tree (.bool (Simplify.sameOperand a b))))
  | .newAnalyzer => ({ s with analyzer := {} } : Session).quietly (.ok .nothing)
  | .analyze => s.checking do return .tree (.bool (← Analysis.analyze s.tree))
  | .check t => s.checking do giving (← Analysis.check t)
  | .compatible target source =>
    s.quietly ((Analysis.compatible (.plain target) (.plain source)).map fun b => .tree (.bool b))
  | .define form => s.checking do
    let symbol ← form.toSymbol
    Analysis.Checking.define symbol
    giving (.symbol symbol)
  | .find name here => s.checking do
    let found ← if here then Analysis.Checking.findHere? name else Analysis.Checking.find? name
    giving ((found.map .symbol).getD .absent)
  | .enterScope => s.checking do
    Analysis.Checking.enter
    return .nothing
  | .leaveScope =>
    match s.analyzer.scope.leave? with
    | some scope =>
      let s : Session := { s with analyzer := { s.analyzer with scope } }
      s.quietly (.ok (.tree (.bool true)))
    | none => s.quietly (.ok (.tree (.bool false)))
  | .symbolText form => s.checking do
    let symbol ← form.toSymbol
    return .tree (.str (← Analysis.Checking.showing (.symbol symbol)))
  | .fail message => s.quietly (.error (.semantic message))
  | .newGenerator path => s.newGenerator path
  | .generateProgram => s.withGenerator? do
    Code.generateProgram s.tree
    return .nothing
  | .generate t =>
    let (t, s) := s.mark t
    s.withGenerator? do return .tree (← Code.generate t)

end Session

end PascalStack
