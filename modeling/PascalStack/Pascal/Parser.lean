import PascalStack.Pascal.Table
import PascalStack.Token.Source

/-!
# Parsing

A source text becomes a tree, or nothing if no program is found in it. Reports about characters,
complaints about tokens and announcements of the rules come in the order in which the machine
asks for tokens.
-/

namespace PascalStack.Pascal

open LR

/-- Prints where a text has an error. -/
def complain {T : Type} : Option (Lookahead T Tree) → Printing Unit
  | some look => do
    let text ← ofExcept look.value.text
    let line := look.line
    Printing.line s!"Syntax error at '{text}', line {line}"
  | none => Printing.line "Syntax error at EOF"

/-- The machine that parses the language. -/
def machine : Machine TokenKind Phrase Tree where
  action := action
  goto := goto
  settled := settled
  rule r := (rule? r).map fun rule => (rule.makes, rule.parts.length)
  build r values := match rule? r with
    | some rule => rule.build values
    | none => pure .none
  complain := complain
  errorValue _ := .none

/-- A token as the machine takes it. -/
def lookahead {T : Type} (name : TokenKind → T) (t : Token) : Lookahead T Tree :=
  ⟨.token (name t.kind), t.value, t.line⟩

/-- A delivery of the lexer as the machine takes it. -/
def supply {T : Type} (name : TokenKind → T) (d : Delivery) : Supply T Tree :=
  ⟨d.report, d.line, d.token.map (·.map (lookahead name))⟩

/-- A tree or a fault, the line the lexer has reached, and what was printed. -/
structure Parse where
  tree : Except Fault Tree
  line : Nat
  out : String

/-- The tree that a run of the machine gives. A text that is no program gives none. -/
def treeOf : Outcome Tree → Except Fault Tree
  | .accepted t => .ok t
  | .faulted f => .error f
  | .rejected | .stuck | .exhausted => .ok .none

/-- Parses what is supplied. -/
def parseSupply (line : Nat) (feed : List (Supply TokenKind Tree)) : Parse :=
  let (outcome, c) := machine.parse rules.size line feed
  ⟨treeOf outcome, c.line, c.out⟩

/-- Parses a text whose first line has a number. -/
def parse (line : Nat) (text : String) : Parse :=
  parseSupply line ((Delivery.ofText line text).map (supply id))

end PascalStack.Pascal
