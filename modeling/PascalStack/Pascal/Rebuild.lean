import PascalStack.LR.TableMachine
import PascalStack.Pascal.Parser
import PascalStack.Pascal.RuleText

/-!
# Parsers built anew

A parser for the language, or for a part of it, built from the rule texts. The rules keep their
numbers, so they build the same trees.
-/

namespace PascalStack.Pascal

open LR

/-- A level of operators that group to the left. -/
def leftGroup (terms : List TokenKind) : Tree :=
  .tuple (.str Associativity.left.name :: terms.map fun k => .str k.name)

/-- The levels of the operators, as they are declared. The weakest come first. -/
def precedence : Tree := .tuple [
  leftGroup [.plus, .minus], leftGroup [.times, .divide], leftGroup [.kwDiv, .kwMod],
  leftGroup [.equals, .different, .lessEqual, .lessThan, .greaterThan, .greaterEqual],
  leftGroup [.kwOr, .kwAnd]]

/-- What a parser for a phrase of the language is built from. -/
def specification (start method : String) : Specification where
  file := "pasSyn.py"
  tokens := TokenKind.all.map (·.name)
  precedence := precedence
  rules := ruleTexts
  start := some start
  method := method

/-- The machine of a table that was built anew. -/
def rebuiltMachine (t : ParserTable) : Machine String String Tree :=
  t.machine machine.build complain fun _ => .none

/-- Parses a text with a table that was built anew. -/
def parseWith (t : ParserTable) (line : Nat) (text : String) : Parse :=
  let feed := (Delivery.ofText line text).map (supply TokenKind.name)
  let (outcome, c) := (rebuiltMachine t).parse rules.size line feed
  ⟨treeOf outcome, c.line, c.out⟩

end PascalStack.Pascal
