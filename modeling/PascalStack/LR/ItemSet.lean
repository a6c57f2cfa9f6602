import PascalStack.LR.Production
import Std.Data.HashMap

/-!
# Item sets

An item is a rule with a dot somewhere in its parts. The states of the parser are lists of items;
a state is known by the items that a step of the dot brought into it, in their order. States are
numbered in the order in which they are found.
-/

namespace PascalStack.LR

/-- A rule with a dot before one of its parts, or after the last. -/
structure Item where
  rule : Nat
  dot : Nat
  deriving DecidableEq, Hashable, Repr, Inhabited

/-- The states, the steps between them, and what they are known by. -/
structure Automaton where
  states : Array (Array Item) := #[]
  steps : Array (List (String × Nat)) := #[]
  known : Std.HashMap (List Item) Nat := {}

namespace Grammar

def ruleOf (g : Grammar) (i : Item) : Production :=
  (g.productions[i.rule]?).getD ⟨"", [], {}, none, {}⟩

/-- The part after the dot. -/
def next? (g : Grammar) (i : Item) : Option String := (g.ruleOf i).parts[i.dot]?

def itemText (g : Grammar) (i : Item) : String :=
  let p := g.ruleOf i
  p.name ++ " -> " ++ " ".intercalate (p.parts.take i.dot ++ "." :: p.parts.drop i.dot)

def ruleIndex (g : Grammar) : Std.HashMap String (List Nat) :=
  (List.range g.productions.size).foldl (fun index n =>
    match g.productions[n]? with
    | some p => if n == 0 then index else index.insert p.name (index.getD p.name [] ++ [n])
    | none => index) {}

def closeFrom (g : Grammar) (index : Std.HashMap String (List Nat)) :
    Nat → Nat → Array Item → Array Bool → Array Item
  | 0, _, items, _ => items
  | fuel + 1, position, items, added =>
    match items[position]? with
    | none => items
    | some i =>
      let rules := match g.next? i with
        | some s => index.getD s []
        | none => []
      let (items, added) := rules.foldl (fun (items, added) r =>
        if (added[r]?).getD true then (items, added)
        else (items.push ⟨r, 0⟩, added.setIfInBounds r true)) (items, added)
      closeFrom g index fuel (position + 1) items added

/-- All items that a state with given items has. -/
def close (g : Grammar) (index : Std.HashMap String (List Nat)) (kernel : List Item) : Array Item :=
  g.closeFrom index (kernel.length + g.productions.size + 1) 0 kernel.toArray
    (Array.replicate g.productions.size false)

def stateSymbols (g : Grammar) (state : Array Item) : List String :=
  (state.foldl (fun (seen : Array String) i =>
    (g.ruleOf i).parts.foldl (fun seen s => if seen.contains s then seen else seen.push s) seen)
    #[]).toList

/-- The items of the state that a symbol leads to. -/
def kernelAfter (g : Grammar) (state : Array Item) (s : String) : List Item :=
  state.toList.filterMap fun i => if g.next? i == some s then some ⟨i.rule, i.dot + 1⟩ else none

/-- Finds or makes the state that a symbol leads to. -/
def takeStep (g : Grammar) (index : Std.HashMap String (List Nat)) (state : Array Item)
    (found : Automaton × List (String × Nat)) (s : String) : Automaton × List (String × Nat) :=
  let (a, steps) := found
  match g.kernelAfter state s with
  | [] => (a, steps)
  | kernel =>
    match a.known[kernel]? with
    | some n => (a, steps ++ [(s, n)])
    | none =>
      let n := a.states.size
      ({ a with states := a.states.push (g.close index kernel), known := a.known.insert kernel n },
        steps ++ [(s, n)])

/-- Takes all steps from the states, new ones included. -/
def exploreFrom (g : Grammar) (index : Std.HashMap String (List Nat)) :
    Nat → Nat → Automaton → Automaton
  | 0, _, a => a
  | fuel + 1, n, a =>
    match a.states[n]? with
    | none => a
    | some state =>
      let (a, steps) := (g.stateSymbols state).foldl (g.takeStep index state) (a, [])
      exploreFrom g index fuel (n + 1) { a with steps := a.steps.push steps }

def itemCount (g : Grammar) : Nat := g.productions.foldl (fun n p => n + p.parts.length + 1) 0

/-- The states of a grammar. -/
def automaton (g : Grammar) : Automaton :=
  let index := g.ruleIndex
  g.exploreFrom index (Nat.pow (g.itemCount + 1) (g.itemCount + 1)) 0
    { states := #[g.close index [⟨0, 0⟩]] }

end Grammar

namespace Automaton

def state (a : Automaton) (n : Nat) : Array Item := (a.states[n]?).getD #[]

/-- The state that a symbol leads to. -/
def step? (a : Automaton) (n : Nat) (s : String) : Option Nat := ((a.steps[n]?).getD []).lookup s

end Automaton

end PascalStack.LR
