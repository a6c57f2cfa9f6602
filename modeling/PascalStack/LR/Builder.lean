import PascalStack.LR.TableFile

/-!
# Building a parser

From the tokens, precedences and rules of a grammar to a table. The builder keeps a log of its
notices and a report of the grammar and the states; an error ends the building, and what was
logged and reported before stays.
-/

namespace PascalStack.LR

/-- What a parser is built from. -/
structure Specification where
  file : String
  tokens : List String
  precedence : Tree := .none
  rules : List RuleText
  start : Option String := none
  hasErrorRoutine : Bool := true
  method : String := "LALR"

/-- What a builder leaves behind. -/
structure Bench where
  notices : Array Notice := #[]
  report : String := ""
  table : Option String := none

/-- Building logs and reports, and may stop with a fault. -/
abbrev Building := EStateM Fault Bench

namespace Building

def note (n : Notice) : Building Unit := do
  discard (ofExcept n.message?)
  modify fun b => { b with notices := b.notices.push n }

def line (text : String) : Building Unit :=
  modify fun b => { b with report := b.report ++ text ++ "\n" }

def warnLine (text : String) : Building Unit := line (Severity.warning.label ++ text)

def both (n : Notice) : Building Unit := do
  warnLine n.message
  note n

def notes (ns : List Notice) : Building Bool := do
  ns.forM note
  return !ns.isEmpty

def giveUp {α : Type} : Building α := throw .unbuildable

end Building

open Building

def comesFirst (a b : String) : Bool := !(decide (b < a))

def sorted (texts : List String) : List String := texts.mergeSort comesFirst

/-- What is wrong with the tokens. -/
def tokenNotices (tokens : List String) : List Notice :=
  if tokens.contains Grammar.errorSymbol then [.reservedToken]
  else (tokens.zip (tokens.drop 1)).filterMap fun (a, b) =>
    if a == b then some (.repeatedToken b) else none

def shortGroup (group : Tree) : Notice :=
  .malformedPrecedence (match group.text with
    | .ok text => text
    | .error f => f.message)

/-- The terms of a level. -/
def readGroup (level : Nat) (group : Tree) : Except Notice (List (String × String × Nat)) :=
  match group with
  | .list (.str associativity :: terms) | .tuple (.str associativity :: terms) =>
    if terms.isEmpty then .error (shortGroup group)
    else terms.mapM fun
      | .str term => .ok (term, associativity, level)
      | _ => .error .termNotText
  | .list [] | .list [_] | .tuple [] | .tuple [_] => .error (shortGroup group)
  | .list _ | .tuple _ => .error .associativityNotText
  | _ => .error .badPrecedence

def readGroups (level : Nat) : List Tree → Except Notice (List (String × String × Nat))
  | [] => .ok []
  | group :: rest => do
    let terms ← readGroup level group
    return terms ++ (← readGroups (level + 1) rest)

/-- The terms of all levels. The first level is 1. -/
def readPrecedence (t : Tree) : Except Notice (List (String × String × Nat)) :=
  if !t.truthy then .ok []
  else
    match t with
    | .list groups | .tuple groups => readGroups 1 groups
    | _ => .error .precedenceNotList

def readRule (file : String) (r : RuleText) : Building (List WrittenRule × Bool) := do
  if r.text.isEmpty then
    note (.noText ⟨file, r.line⟩ r.action)
    return ([], false)
  match r.read file with
  | .ok rules => return (rules, false)
  | .error n =>
    note n
    return ([], true)

/-- All rules, and whether some were refused. -/
def readRules (s : Specification) : Building (List WrittenRule × Bool) := do
  if s.rules.isEmpty then
    note .noRules
    return ([], true)
  let results ← s.rules.mapM (readRule s.file)
  return (results.flatMap (·.1), results.any (·.2))

def addRules (g : Grammar) (rules : List WrittenRule) : Building (Grammar × Bool) :=
  rules.foldlM (fun (g, failed) r => do
    match g.add r with
    | (g, none) => return (g, failed)
    | (g, some n) => do
      note n
      return (g, true)) (g, false)

def addPrecedence (g : Grammar) (terms : List (String × String × Nat)) : Building Grammar :=
  terms.foldlM (fun g (term, associativity, level) => do
    match g.setPrecedence term associativity level with
    | .ok g => return g
    | .error n => do
      note n
      return g) g

def startOf (s : Specification) (g : Grammar) : Building String :=
  match s.start, g.firstName? with
  | some "", none | none, none => throw .noRules
  | some "", some name | none, some name => return name
  | some name, _ => return name

/-- The grammar of a specification. -/
def buildGrammar (s : Specification) (rules : List WrittenRule)
    (terms : List (String × String × Nat)) : Building Grammar := do
  let g ← addPrecedence (Grammar.ofTokens (sorted s.tokens)) terms
  let (g, failed) ← addRules g rules
  match g.setStart (← startOf s g) with
  | .error n =>
    note n
    giveUp
  | .ok g => if failed then giveUp else return g

def reportUses (title : String) (uses : Uses) : Building Unit := do
  line ""
  line title
  line ""
  (sorted (uses.map (·.1))).forM fun s => do
    let rules := " ".intercalate (((uses.lookup s).getD []).map toString)
    line (padded 20 s ++ " : " ++ rules)

def reportUnused (unused : List String) : Building Unit := do
  if !unused.isEmpty then
    line ""
    line "Unused terminals:"
    line ""
    unused.forM fun s => do
      note (.unusedToken s)
      line ("    " ++ s)

def reportRules (g : Grammar) : Building Unit := do
  line ""
  line "Grammar"
  line ""
  g.productions.toList.zipIdx.forM fun (p, n) =>
    line ("Rule " ++ padded 5 (toString n) ++ " " ++ p.text)

/-- Reports on a grammar, and gives up if it cannot be used. -/
def checkGrammar (g : Grammar) : Building Unit := do
  let undefinedFound ← notes (g.undefinedSymbols.map fun (place, s) => .undefinedSymbol place s)
  let unused := g.unusedTerminals
  reportUnused unused
  reportRules g
  let unusedRules := g.unusedRules
  discard (notes (unusedRules.map fun p => .unusedRule p.place p.name))
  if !unused.isEmpty then note (.unusedTokens unused.length)
  if !unusedRules.isEmpty then note (.unusedRules unusedRules.length)
  reportUses "Terminals, with rules where they appear" g.terminals
  reportUses "Nonterminals, with rules where they appear" g.nonterminals
  line ""
  discard (notes (g.unreachable.map .unreachable))
  let endlessFound ← notes (g.endless.map .endless)
  let strayFound ← notes (g.strayPrecedence.map fun (term, a) => .strayPrecedence a.name term)
  if undefinedFound || endlessFound || strayFound then giveUp

/-- Reports the conflicts of a table. -/
def reportConflicts (g : Grammar) (d : TableDraft) : Building Unit := do
  let text (n : Nat) : String := (g.rule n).text
  if d.shiftConflicts.size > 0 then note (.shiftReduceConflicts d.shiftConflicts.size)
  if d.reduceConflicts.size > 0 then note (.reduceReduceConflicts d.reduceConflicts.size)
  if d.shiftConflicts.size > 0 || d.reduceConflicts.size > 0 then
    warnLine ""
    warnLine "Conflicts:"
    warnLine ""
    d.shiftConflicts.toList.forM fun c => do
      let outcome := if c.shifted then "shift" else "reduce"
      warnLine s!"shift/reduce conflict for {c.terminal} in state {c.state} resolved as {outcome}"
    let conflicts := d.reduceConflicts.toList
    let _ ← conflicts.foldlM (fun (seen : List (Nat × Nat × Nat)) c => do
      let key := (c.state, c.chosen, c.rejected)
      if seen.contains key then return seen
      let chosen : Notice := .ruleChosen c.state (text c.chosen)
      let rejected : Notice := .ruleRejected (text c.rejected) c.state
      warnLine chosen.message
      warnLine rejected.message
      note chosen
      note rejected
      return key :: seen) []
    let _ ← conflicts.foldlM (fun (seen : List Nat) c => do
      if d.reduced.getD c.rejected 0 == 0 && !seen.contains c.rejected then
        both (.neverReduced (text c.rejected))
        return c.rejected :: seen
      else return seen) []

/-- What a table depends on, as a text. -/
def Specification.signature (s : Specification) : String :=
  let precedence := match readPrecedence s.precedence with
    | .ok _ => (match s.precedence with
      | .list groups | .tuple groups => String.join (groups.map fun
        | .list terms | .tuple terms => String.join (terms.map fun
          | .str term => term
          | _ => "")
        | _ => "")
      | _ => "")
    | .error _ => ""
  s.start.getD "" ++ precedence ++ " ".intercalate (sorted s.tokens)
    ++ String.join (s.rules.map (·.text))

def tableFile : String := "gtab.py"

/-- The table of a grammar. -/
def buildTable (s : Specification) (g : Grammar) : Building ParserTable := do
  note (.generating s.method)
  let some method := Method.ofName? s.method | throw (.unsupportedMethod s.method)
  let report := (← get).report
  modify fun b => { b with report := "" }
  let start : TableDraft := { report, reduced := Array.replicate g.productions.size 0 }
  match EStateM.run (g.draftTable method) start with
  | .error f d =>
    modify fun b => { b with report := d.report }
    throw f
  | .ok _ d =>
    modify fun b => { b with report := d.report }
    reportConflicts g d
    let table : ParserTable := ⟨method, g.productions, d.rows, d.gotos⟩
    modify fun b => { b with table := some (table.text tableFile s.signature) }
    return table

def reportTitle : String := "Created by PLY version 3.11 (http://www.dabeaz.com/ply)"

/-- Builds a parser. -/
def build (s : Specification) : Building ParserTable := do
  if s.tokens.isEmpty then
    note .noTokens
    giveUp
  line reportTitle
  let tokens := tokenNotices (sorted s.tokens)
  tokens.forM note
  let precedence := readPrecedence s.precedence
  if let .error n := precedence then note n
  let (rules, failed) ← readRules s
  match precedence with
  | .error _ => giveUp
  | .ok terms =>
    if failed || tokens.contains .reservedToken then giveUp
    if !s.hasErrorRoutine then note .noErrorRoutine
    let g ← buildGrammar s rules terms
    checkGrammar g
    let table ← buildTable s g
    if table.rows.any ParserTable.isEmptied then throw .emptyEntry
    return table

end PascalStack.LR
