import PascalStack.Tree.Text

/-!
# Computations that print

A computation that may stop with a fault. What it printed before that stays printed.
-/

namespace PascalStack

/-- A computation that prints and may stop with a fault. -/
abbrev Printing := EStateM Fault String

namespace Printing

/-- Prints a text. -/
def write (text : String) : Printing Unit := modify (· ++ text)

/-- Prints a line. -/
def line (text : String) : Printing Unit := write (text ++ "\n")

/-- What a computation gives, and what it printed. -/
def run {α : Type} (c : Printing α) : Except Fault α × String :=
  match EStateM.run c "" with
  | .ok a out => (.ok a, out)
  | .error f out => (.error f, out)

end Printing

end PascalStack
