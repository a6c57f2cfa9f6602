import PascalStack.LR.LookaheadSets
import PascalStack.LR.Machine

/-!
# The table of actions

Each state gets an action for each terminal. Where a shift and a reduction meet, the stronger one
wins, and among equals the associativity decides; where two reductions meet, the rule that was
written first wins. The builder writes a report of the states as it goes.
-/

namespace PascalStack.LR

/-- How a table finds the terminals on which it reduces. -/
inductive Method where
  | lalr
  | slr
  deriving DecidableEq, Repr

namespace Method

def name : Method → String
  | lalr => "LALR"
  | slr => "SLR"

def ofName? (s : String) : Option Method := [lalr, slr].find? (·.name == s)

end Method

/-- The entry of a state for a terminal: the action, unless a conflict left none, and the item that
it comes from. -/
structure Entry where
  action : Option Action
  item : Item

abbrev Row := List (String × Entry)

def Row.set (row : Row) (s : String) (e : Entry) : Row :=
  match row with
  | [] => [(s, e)]
  | entry :: rest => if entry.1 == s then (s, e) :: rest else entry :: Row.set rest s e

structure ShiftConflict where
  state : Nat
  terminal : String
  shifted : Bool

/-- Two reductions that met, and which rule was chosen. -/
structure ReduceConflict where
  state : Nat
  chosen : Nat
  rejected : Nat

/-- A table as it is built, with its conflicts and the report. -/
structure TableDraft where
  rows : Array Row := #[]
  gotos : Array (List (String × Nat)) := #[]
  shiftConflicts : Array ShiftConflict := #[]
  reduceConflicts : Array ReduceConflict := #[]
  reduced : Array Int := #[]
  report : String := ""

/-- Drafting writes a report and may stop with a fault. -/
abbrev Drafting := EStateM Fault TableDraft

def padded (width : Nat) (s : String) : String :=
  s ++ String.ofList (List.replicate (width - s.length) ' ')

namespace Drafting

def line (text : String) : Drafting Unit :=
  modify fun d => { d with report := d.report ++ text ++ "\n" }

def count (rule : Nat) (change : Int) : Drafting Unit :=
  modify fun d => { d with reduced := d.reduced.modify rule (· + change) }

def shiftConflict (state : Nat) (terminal : String) (shifted : Bool) : Drafting Unit := do
  let outcome := if shifted then "shift" else "reduce"
  line s!"  ! shift/reduce conflict for {terminal} resolved as {outcome}"
  modify fun d => { d with shiftConflicts := d.shiftConflicts.push ⟨state, terminal, shifted⟩ }

def reduceConflict (state chosen rejected : Nat) : Drafting Unit :=
  modify fun d => { d with reduceConflicts := d.reduceConflicts.push ⟨state, chosen, rejected⟩ }

end Drafting

open Drafting

namespace Grammar

def rule (g : Grammar) (n : Nat) : Production := g.ruleOf ⟨n, 0⟩

def reduceEntry (i : Item) : Entry := ⟨some (.reduce i.rule), i⟩

/-- Settles a conflict of a reduction with a shift that is there. -/
def reduceOverShift (g : Grammar) (state : Nat) (row : Row) (s : String) (old : Entry) (i : Item) :
    Drafting Row := do
  let shift := g.precedenceOf s
  let reduce := (g.rule i.rule).precedence
  if shift.level < reduce.level
      || (shift.level == reduce.level && reduce.associativity == .left) then
    if shift.level == 0 && reduce.level == 0 then shiftConflict state s false
    count i.rule 1
    return row.set s (reduceEntry i)
  else if shift.level == reduce.level && reduce.associativity == .nonassoc then
    return row.set s { old with action := none }
  else
    if reduce.level == 0 then shiftConflict state s true
    return row

/-- Settles a conflict of two reductions. -/
def reduceOverReduce (g : Grammar) (state : Nat) (row : Row) (s : String) (old : Entry)
    (oldRule : Nat) (i : Item) : Drafting Row := do
  let newer := (g.rule oldRule).place.line > (g.rule i.rule).place.line
  if newer then
    count i.rule 1
    count oldRule (-1)
    reduceConflict state i.rule oldRule
  else reduceConflict state oldRule i.rule
  let winner := if newer then i else old.item
  let text := g.itemText winner
  line s!"  ! reduce/reduce conflict for {s} resolved using rule {winner.rule} ({text})"
  return if newer then row.set s (reduceEntry i) else row

/-- Enters a reduction. -/
def placeReduce (g : Grammar) (state : Nat) (i : Item) (row : Row) (s : String) : Drafting Row :=
  match row.lookup s with
  | some old =>
    match old.action with
    | some (.shift _) => g.reduceOverShift state row s old i
    | some (.reduce oldRule) => g.reduceOverReduce state row s old oldRule i
    | some .accept => throw (.tableConflict state)
    | none => do
      count i.rule 1
      return row.set s (reduceEntry i)
  | none => do
    count i.rule 1
    return row.set s (reduceEntry i)

/-- Enters a shift. -/
def placeShift (g : Grammar) (state target : Nat) (i : Item) (row : Row) (s : String) :
    Drafting Row := do
  let entry : Entry := ⟨some (.shift target), i⟩
  match row.lookup s with
  | none => return row.set s entry
  | some old =>
    match old.action with
    | none => return row.set s entry
    | some (.shift _) => return row
    | some .accept => throw (.tableConflict state)
    | some (.reduce _) =>
      let shift := g.precedenceOf s
      let reduce := (g.rule old.item.rule).precedence
      if shift.level > reduce.level
          || (shift.level == reduce.level && reduce.associativity == .right) then
        count old.item.rule (-1)
        if reduce.level == 0 then shiftConflict state s true
        return row.set s entry
      else if shift.level == reduce.level && reduce.associativity == .nonassoc then
        return row.set s { old with action := none }
      else
        if shift.level == 0 && reduce.level == 0 then shiftConflict state s false
        return row

structure Candidate where
  terminal : String
  item : Item
  text : String

/-- Enters what an item asks for. -/
def placeItem (g : Grammar) (a : Automaton) (reduceOn : Nat → Item → List String) (state : Nat)
    (found : Row × List Candidate) (i : Item) : Drafting (Row × List Candidate) := do
  let (row, candidates) := found
  match g.next? i with
  | none =>
    if i.rule == 0 then return (row.set endSymbol ⟨some .accept, i⟩, candidates)
    else
      let text := s!"reduce using rule {i.rule} (" ++ g.itemText i ++ ")"
      let terminals := reduceOn state i
      let row ← terminals.foldlM (g.placeReduce state i) row
      return (row, candidates ++ terminals.map fun s => ⟨s, i, text⟩)
  | some s =>
    if g.terminals.has s then
      match a.step? state s with
      | none => return found
      | some target =>
        let row ← g.placeShift state target i row s
        return (row, candidates ++ [⟨s, i, s!"shift and go to state {target}"⟩])
    else return found

def isTaken (row : Row) (c : Candidate) : Bool :=
  (row.lookup c.terminal).any fun e => e.item == c.item

/-- Reports the actions of a state, and those that lost. -/
def reportActions (row : Row) (candidates : List Candidate) : Drafting Unit := do
  let taken := candidates.filter (isTaken row)
  taken.forM fun c => line ("    " ++ padded 15 c.terminal ++ " " ++ c.text)
  line ""
  let others := candidates.filter fun c => !isTaken row c
  let (_, unused) := others.foldl (fun (seen, unused) c =>
    let key := (c.terminal, c.text)
    if seen.contains key then (seen, unused) else (key :: seen, unused ++ [c]))
    (taken.map fun c => (c.terminal, c.text), ([] : List Candidate))
  unused.forM fun c => line ("  ! " ++ padded 15 c.terminal ++ " [ " ++ c.text ++ " ]")
  if !unused.isEmpty then line ""

/-- Fills in a state. -/
def draftState (g : Grammar) (a : Automaton) (reduceOn : Nat → Item → List String) (state : Nat) :
    Drafting Unit := do
  let items := (a.state state).toList
  line ""
  line s!"state {state}"
  line ""
  items.forM fun i => do
    let text := g.itemText i
    line s!"    ({i.rule}) {text}"
  line ""
  let (row, candidates) ← items.foldlM (g.placeItem a reduceOn state) ([], [])
  reportActions row candidates
  let gotos := ((a.steps[state]?).getD []).filter fun step => g.nonterminals.has step.1
  gotos.forM fun (s, n) => line ("    " ++ padded 30 s ++ s!" shift and go to state {n}")
  modify fun d => { d with rows := d.rows.push row, gotos := d.gotos.push gotos }

/-- Fills in all states. -/
def draftTable (g : Grammar) (method : Method) : Drafting Unit := do
  line ("Parsing method: " ++ method.name)
  let a := g.automaton
  let follow := g.followSets g.firstSets
  let sets := match method with
    | .lalr => g.lookaheads a
    | .slr => {}
  let reduceOn (state : Nat) (i : Item) : List String :=
    match method with
    | .lalr => sets.getD (state, i.rule) []
    | .slr => follow.get (g.ruleOf i).name
  (List.range a.states.size).forM (g.draftState a reduceOn)

end Grammar

end PascalStack.LR
