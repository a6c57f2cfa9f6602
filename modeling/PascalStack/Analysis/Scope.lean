import PascalStack.Analysis.Symbol

/-!
# Scopes

A table gives names their symbols. A scope is a table inside others; a name means what the
innermost table that has it says.
-/

namespace PascalStack.Analysis

/-- The symbols of one scope, in the order in which they came. -/
abbrev Table := Dictionary Symbol

/-- A table and the tables around it, from the inside out. -/
structure Scope where
  table : Table := []
  outer : List Table := []

namespace Scope

/-- A new innermost table. -/
def enter (s : Scope) : Scope := ⟨[], s.table :: s.outer⟩

/-- The scope around this one. -/
def leave? (s : Scope) : Option Scope :=
  match s.outer with
  | [] => none
  | t :: ts => some ⟨t, ts⟩

/-- The scope around this one. The outermost stays. -/
def leave (s : Scope) : Scope := s.leave?.getD s

/-- How many tables there are. -/
def depth (s : Scope) : Nat := s.outer.length + 1

/-- Looks a name up in the innermost table. -/
def findHere? (s : Scope) (name : Tree) : Option Symbol := Dictionary.find? s.table name

/-- Looks a name up in the tables, from the inside out. -/
def find? (s : Scope) (name : Tree) : Option Symbol :=
  (s.table :: s.outer).findSome? (Dictionary.find? · name)

/-- Puts a symbol into the innermost table. -/
def define (s : Scope) (symbol : Symbol) : Scope :=
  { s with table := Dictionary.insert s.table symbol.name symbol }

end Scope

end PascalStack.Analysis
