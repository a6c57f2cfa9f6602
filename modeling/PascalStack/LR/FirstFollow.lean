import PascalStack.LR.Production
import Std.Data.HashMap

/-!
# First and follow sets

The terminals that a phrase can start with, and those that can follow it. The members of a set
are in the order in which they are found, rule by rule, until nothing new is found.
-/

namespace PascalStack.LR

/-- For each symbol a set. -/
abbrev SymbolSets := Std.HashMap String (List String)

namespace SymbolSets

def get (sets : SymbolSets) (s : String) : List String := sets.getD s []

def add (sets : SymbolSets) (s : String) (members : List String) : SymbolSets :=
  sets.insert s (extend (get sets s) members)

def weight (sets : SymbolSets) (symbols : List String) : Nat :=
  symbols.foldl (fun n s => n + (get sets s).length) 0

end SymbolSets

namespace Grammar

def emptyMark : String := "<empty>"

def nonterminalNames (g : Grammar) : List String := g.nonterminals.map (·.1)

def ownRules (g : Grammar) : List Production := g.productions.toList.drop 1

def firstOfFrom (sets : SymbolSets) (found : List String) : List String → List String
  | [] => found ++ [emptyMark]
  | s :: rest =>
    let set := sets.get s
    let found := set.foldl
      (fun found f => if f == emptyMark || found.contains f then found else found ++ [f]) found
    if set.contains emptyMark then firstOfFrom sets found rest else found

/-- What parts can start with; the mark of emptiness if they can be empty. -/
def firstOf (sets : SymbolSets) (parts : List String) : List String := firstOfFrom sets [] parts

def growthLimit (g : Grammar) : Nat :=
  g.nonterminals.length * (g.terminals.length + g.nonterminals.length + 2) + 1

/-- Repeats a pass until nothing grows. -/
def saturate (g : Grammar) (pass : SymbolSets → SymbolSets) : Nat → SymbolSets → SymbolSets
  | 0, sets => sets
  | fuel + 1, sets =>
    let grown := pass sets
    if grown.weight g.nonterminalNames == sets.weight g.nonterminalNames then grown
    else saturate g pass fuel grown

/-- What each symbol can start with. -/
def firstSets (g : Grammar) : SymbolSets :=
  let start : SymbolSets := g.terminals.foldl (fun sets entry => sets.insert entry.1 [entry.1]) {}
  let start := start.insert endSymbol [endSymbol]
  let start := g.nonterminalNames.foldl (fun sets n => sets.insert n []) start
  let rules := g.nonterminalNames.map fun n => (n, g.ownRules.filter (·.name == n))
  let pass (sets : SymbolSets) : SymbolSets :=
    rules.foldl (fun sets entry => entry.2.foldl (fun (sets : SymbolSets) p =>
      sets.add entry.1 (firstOf sets p.parts)) sets) sets
  g.saturate pass g.growthLimit start

/-- What a place in a rule adds to the follow sets: what the rest of the rule can start with, and
if the rest can be empty, what can follow the rule. -/
def followParts (g : Grammar) (first : SymbolSets) (name : String) :
    SymbolSets → List String → SymbolSets
  | sets, [] => sets
  | sets, s :: rest =>
    let sets :=
      if g.nonterminals.has s then
        let starts := firstOf first rest
        let sets := sets.add s (starts.filter (· != emptyMark))
        if starts.contains emptyMark then sets.add s (sets.get name) else sets
      else sets
    followParts g first name sets rest

/-- What can follow each nonterminal. -/
def followSets (g : Grammar) (first : SymbolSets) : SymbolSets :=
  let start : SymbolSets := match g.firstName? with
    | some name => ({} : SymbolSets).insert name [endSymbol]
    | none => {}
  let pass (sets : SymbolSets) : SymbolSets :=
    g.ownRules.foldl (fun sets p => g.followParts first p.name sets p.parts) sets
  g.saturate pass g.growthLimit start

def nullableFrom (g : Grammar) : Nat → List String → List String
  | 0, known => known
  | fuel + 1, known =>
    let more := g.ownRules.foldl (fun known p =>
      if !known.contains p.name && p.parts.all known.contains then p.name :: known else known) known
    if more.length == known.length then known else nullableFrom g fuel more

/-- The nonterminals that can be empty. -/
def nullable (g : Grammar) : List String := g.nullableFrom (g.nonterminals.length + 1) []

end Grammar

end PascalStack.LR
