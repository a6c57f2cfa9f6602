import PascalStack.LR.Builder

/-!
# Machines from tables

A table that was built drives the LR machine, with symbols known by their names. For a grammar
that has no meaning of its own, a parse gives the tree of its phrases.
-/

namespace PascalStack.LR

/-- The name of a terminal in a table. -/
def Terminal.symbol : Terminal String → String
  | .token kind => kind
  | .finish => Grammar.endSymbol
  | .error => Grammar.errorSymbol

def Terminal.ofKind (kind : String) : Terminal String :=
  if kind == Grammar.endSymbol then .finish
  else if kind == Grammar.errorSymbol then .error
  else .token kind

/-- The machine of a table: the meaning of its rules, what it says at an error, and the value of
the mark of an error. -/
def ParserTable.machine {α : Type} (t : ParserTable) (build : Nat → List α → Printing α)
    (complain : Option (Lookahead String α) → Printing Unit)
    (errorValue : Lookahead String α → α) : Machine String String α where
  action state terminal :=
    (t.rows[state]?).bind fun row => (row.lookup terminal.symbol).bind (·.action)
  goto state name := (t.gotos[state]?).bind fun row => row.lookup name
  settled state := (t.rows[state]?).bind ParserTable.onlyRule?
  rule r := if r = 0 then none else (t.productions[r]?).map fun p => (p.name, p.parts.length)
  build := build
  complain := complain
  errorValue := errorValue

/-- The tree of a text of a grammar without meaning. -/
inductive PhraseTree where
  | word (kind : String)
  | mark (kind : String)
  | phrase (name : String) (parts : List PhraseTree)
  deriving Inhabited

namespace PhraseTree

def wordText : PhraseTree → String
  | word kind | mark kind => kind
  | phrase name _ => name

def complain : Option (Lookahead String PhraseTree) → Printing Unit
  | some look => Printing.line ("Syntax error at " ++ look.value.wordText)
  | none => Printing.line "Syntax error at EOF"

def machine (t : ParserTable) (hasErrorRoutine : Bool) : Machine String String PhraseTree :=
  t.machine
    (fun r parts => return .phrase ((t.productions[r]?).map (·.name) |>.getD "") parts)
    (fun look => if hasErrorRoutine then complain look else return)
    (fun look => .mark look.value.wordText)

/-- Parses kinds of tokens with a table. -/
def parse (t : ParserTable) (hasErrorRoutine : Bool) (kinds : List String) :
    Except Fault (Option PhraseTree) × String :=
  let feed : List (Supply String PhraseTree) := kinds.map fun kind =>
    ⟨"", 0, .ok (some ⟨Terminal.ofKind kind, .word kind, 0⟩)⟩
  let (outcome, c) := (machine t hasErrorRoutine).parse t.productions.size 0 feed
  match outcome with
  | .accepted tree => (.ok (some tree), c.out)
  | .faulted f => (.error f, c.out)
  | .rejected | .stuck | .exhausted => (.ok none, c.out)

end PhraseTree

end PascalStack.LR
