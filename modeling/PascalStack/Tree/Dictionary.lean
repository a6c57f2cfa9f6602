import PascalStack.Tree.Operand

/-!
# Dictionaries

A dictionary gives values to trees. Keys that are equal as values are one key, and a key keeps its
place when it gets a new value. Lists are no keys.
-/

namespace PascalStack

namespace Tree

mutual

/-- Why a tree cannot be a key. -/
def keyFlaw? : Tree → Option Fault
  | list _ => some (.unhashable "list")
  | tuple xs => keysFlaw? xs
  | _ => Option.none

def keysFlaw? : List Tree → Option Fault
  | [] => Option.none
  | x :: xs => keyFlaw? x <|> keysFlaw? xs

end

/-- Stops if a tree cannot be a key. -/
def checkKey (t : Tree) : Except Fault Unit :=
  match t.keyFlaw? with
  | some f => .error f
  | Option.none => .ok ()

end Tree

/-- Keys with their values, in the order in which the keys came. -/
abbrev Dictionary (α : Type) := List (Tree × α)

namespace Dictionary

variable {α : Type}

/-- The value of a key. -/
def find? (d : Dictionary α) (key : Tree) : Option α :=
  (List.find? (fun entry => Tree.same entry.1 key) d).map (·.2)

/-- Gives a key a value. -/
def insert (d : Dictionary α) (key : Tree) (value : α) : Dictionary α :=
  match d with
  | [] => [(key, value)]
  | entry :: rest =>
    if Tree.same entry.1 key then (entry.1, value) :: rest
    else entry :: Dictionary.insert rest key value

/-- Whether a key has a value. What is no key stops. -/
def has (d : Dictionary α) (key : Tree) : Except Fault Bool := do
  key.checkKey
  return (d.find? key).isSome

/-- The value of a key. A key without one stops. -/
def get (d : Dictionary α) (key : Tree) : Except Fault α := do
  key.checkKey
  match d.find? key with
  | some value => return value
  | none => throw (.missingKey (← key.shown))

end Dictionary

end PascalStack
