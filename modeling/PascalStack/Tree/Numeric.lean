import PascalStack.Number.Arithmetic
import PascalStack.Tree.Basic

/-!
# Trees that are numbers

A truth value counts as 0 or 1.
-/

namespace PascalStack.Tree

/-- The number that a tree is. -/
def number? : Tree → Option Number
  | bool b => some (.int (if b then 1 else 0))
  | int i => some (.int i)
  | real x => some (.real x)
  | marked _ t => t.number?
  | _ => Option.none

/-- The whole number that a tree is. -/
def whole? (t : Tree) : Option Int :=
  match t.number? with
  | some (.int i) => some i
  | _ => Option.none

/-- A number as a tree. -/
def ofNumber : Number → Tree
  | .int i => int i
  | .real x => real x

end PascalStack.Tree
