import PascalStack.LR.FirstFollow
import PascalStack.LR.ItemSet

/-!
# Lookahead sets

The terminals on which a state may reduce by a rule. They come from the steps over nonterminals:
each such step reads some terminals directly, the steps that can follow it over nothing add
theirs, and a step at the end of a rule adds what follows the rule. The sets are found by one walk
along each of the two relations; steps that reach each other share one set.
-/

namespace PascalStack.LR

/-- A step over a nonterminal: a state and the symbol. -/
abbrev Transition := Nat × String

/-- A walk along a relation on numbered nodes. Nodes that have the same group share a set. -/
structure Walk where
  depth : Array Nat
  path : List Nat := []
  pathLength : Nat := 0
  group : Array Nat
  sets : Array (List String)

namespace Walk

def doneDepth (w : Walk) : Nat := w.depth.size + 1

def depthOf (w : Walk) (x : Nat) : Nat := (w.depth[x]?).getD w.doneDepth

def groupOf (w : Walk) (x : Nat) : Nat := (w.group[x]?).getD 0

def setOf (w : Walk) (x : Nat) : List String := (w.sets[w.groupOf x]?).getD []

/-- Adds the set of a node to that of another. -/
def absorb (w : Walk) (x y : Nat) : Walk :=
  let more := extend (w.setOf x) (w.setOf y)
  { w with
    depth := w.depth.setIfInBounds x (min (w.depthOf x) (w.depthOf y))
    sets := w.sets.setIfInBounds (w.groupOf x) more }

/-- Closes a group of nodes that reach each other. -/
def leave (w : Walk) (x : Nat) : List Nat → Walk
  | [] => w
  | y :: rest =>
    let w := { w with
      depth := w.depth.setIfInBounds y w.doneDepth
      group := w.group.setIfInBounds y (w.groupOf x)
      path := rest
      pathLength := w.pathLength - 1 }
    if y == x then w else leave w x rest

/-- Visits a node and all that it leads to. -/
def visit (relation : Nat → List Nat) (enter : Nat → Walk → Walk) : Nat → Nat → Walk → Walk
  | 0, _, w => w
  | fuel + 1, x, w =>
    let d := w.pathLength + 1
    let w := enter x { w with
      path := x :: w.path
      pathLength := d
      depth := w.depth.setIfInBounds x d }
    let w := (relation x).foldl (fun (w : Walk) y =>
      let w := if w.depthOf y == 0 then visit relation enter fuel y w else w
      w.absorb x y) w
    if w.depthOf x == d then w.leave x w.path else w

/-- Visits all nodes. -/
def all (relation : Nat → List Nat) (enter : Nat → Walk → Walk) (w : Walk) : Walk :=
  (List.range w.depth.size).foldl (fun w x =>
    if w.depthOf x == 0 then visit relation enter (w.depth.size + 1) x w else w) w

end Walk

/-- For a state and a rule, the terminals on which it is reduced. -/
abbrev Lookaheads := Std.HashMap (Nat × Nat) (List String)

namespace Grammar

/-- All steps over nonterminals. -/
def transitions (g : Grammar) (a : Automaton) : Array Transition :=
  (List.range a.states.size).foldl (fun found n =>
    (a.state n).foldl (fun (found : Array Transition × List String) i =>
      match g.next? i with
      | some s =>
        if g.nonterminals.has s && !found.2.contains s then (found.1.push (n, s), s :: found.2)
        else found
      | none => found) (found, []) |>.1) #[]

/-- The terminals that can come right after a step. -/
def readsDirectly (g : Grammar) (a : Automaton) (t : Transition) : List String :=
  let terms := ((a.step? t.1 t.2).map a.state |>.getD #[]).foldl (fun found i =>
    match g.next? i with
    | some s => if g.terminals.has s && !found.contains s then found ++ [s] else found
    | none => found) []
  if t.1 == 0 && t.2 == g.startSymbol then terms ++ [endSymbol] else terms

/-- The steps that can follow over nothing. -/
def readsOver (g : Grammar) (a : Automaton) (nullable : List String) (t : Transition) :
    List Transition :=
  match a.step? t.1 t.2 with
  | none => []
  | some n => (a.state n).toList.filterMap fun i =>
    (g.next? i).bind fun s => if nullable.contains s then some (n, s) else none

/-- The places at which the steps of an item end a phrase that the item ends with, and the state in
which the item is complete. -/
def followItem (g : Grammar) (a : Automaton) (nullable : List String)
    (isTransition : Transition → Bool) (n : Nat) : List String → List Transition × Nat
  | [] => ([], n)
  | s :: rest =>
    let here := isTransition (n, s) &&
      rest.all fun r => !g.terminals.has r && nullable.contains r
    match a.step? n s with
    | none => (if here then [(n, s)] else [], n)
    | some next =>
      let (more, last) := followItem g a nullable isTransition next rest
      (if here then (n, s) :: more else more, last)

/-- The lookahead sets of all states. -/
def lookaheads (g : Grammar) (a : Automaton) : Lookaheads :=
  let nullable := g.nullable
  let nodes := g.transitions a
  let number : Std.HashMap Transition Nat :=
    (List.range nodes.size).foldl (fun m x => m.insert (nodes.getD x (0, "")) x) {}
  let node (x : Nat) : Transition := nodes.getD x (0, "")
  let indices (ts : List Transition) : List Nat := ts.filterMap fun t => number[t]?
  let reads := Walk.all (fun x => indices (g.readsOver a nullable (node x)))
    (fun x w => { w with
      group := w.group.setIfInBounds x w.sets.size
      sets := w.sets.push (g.readsDirectly a (node x)) })
    { depth := Array.replicate nodes.size 0, group := Array.replicate nodes.size 0, sets := #[] }
  let follows := nodes.map fun t =>
    ((a.state t.1).toList.filter fun i => (g.ruleOf i).name == t.2).map fun i =>
      let (places, last) := g.followItem a nullable number.contains t.1
        ((g.ruleOf i).parts.drop i.dot)
      (i, places, last)
  let included : Array (List Nat) := (List.range nodes.size).foldl (fun included x =>
    ((follows.getD x []).flatMap fun entry => indices entry.2.1).foldl (fun included y =>
      included.modify y (· ++ [x])) included) (Array.replicate nodes.size [])
  let follow := Walk.all (fun x => included.getD x [])
    (fun x w => { w with group := w.group.setIfInBounds x (reads.groupOf x) })
    { depth := Array.replicate nodes.size 0, group := Array.replicate nodes.size 0,
      sets := reads.sets }
  (List.range nodes.size).foldl (fun found x =>
    (follows.getD x []).foldl (fun (found : Lookaheads) entry =>
      let (i, _, last) := entry
      if i.dot == 0 then
        let key := (last, i.rule)
        found.insert key (extend (found.getD key []) (follow.setOf x))
      else found) found) {}

end Grammar

end PascalStack.LR
