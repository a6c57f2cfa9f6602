import PascalStack.LR.RuleText

/-!
# Grammars

A grammar is built rule by rule. It knows which rules use a symbol, in the order in which the
symbols came, and what precedence the terminals have. Rule 0 leads to the start symbol.
-/

namespace PascalStack.LR

/-- Adds the members that are new, in their order. -/
def extend (symbols more : List String) : List String :=
  more.foldl (fun found s => if found.contains s then found else found ++ [s]) symbols

/-- Which way operators of one level group. -/
inductive Associativity where
  | left
  | right
  | nonassoc
  deriving DecidableEq, Repr

namespace Associativity

def name : Associativity → String
  | left => "left"
  | right => "right"
  | nonassoc => "nonassoc"

def ofName? (s : String) : Option Associativity := [left, right, nonassoc].find? (·.name == s)

end Associativity

/-- The strength of a terminal or of a rule. Level 0 is that of what has none. -/
structure Precedence where
  associativity : Associativity := .right
  level : Nat := 0
  deriving DecidableEq, Repr

/-- A rule of a grammar. -/
structure Production where
  name : String
  parts : List String
  precedence : Precedence := {}
  action : Option String := none
  place : Place := {}
  deriving Repr

namespace Production

/-- A rule as a text. -/
def text (p : Production) : String :=
  p.name ++ " -> " ++ (if p.parts.isEmpty then "<empty>" else " ".intercalate p.parts)

end Production

/-- Symbols with the rules that use them. -/
abbrev Uses := List (String × List Nat)

namespace Uses

/-- Whether a symbol is known. -/
def has (u : Uses) (s : String) : Bool := u.any (·.1 == s)

/-- Makes a symbol known. -/
def declare (u : Uses) (s : String) : Uses := if has u s then u else u ++ [(s, [])]

/-- Notes that a rule uses a symbol. -/
def record (u : Uses) (s : String) (rule : Nat) : Uses :=
  (declare u s).map fun entry => if entry.1 == s then (s, entry.2 ++ [rule]) else entry

end Uses

/-- A grammar as it is built. Rule 0 comes last. -/
structure Grammar where
  productions : Array Production := #[⟨"S'", [], {}, none, {}⟩]
  terminals : Uses := []
  nonterminals : Uses := []
  precedence : List (String × Precedence) := []
  usedPrecedence : List String := []

namespace Grammar

/-- The symbol of a place with an error. -/
def errorSymbol : String := "error"

/-- The symbol of the end of a text. -/
def endSymbol : String := "$end"

def precedenceMark : String := "%prec"

def ofTokens (tokens : List String) : Grammar :=
  { terminals := (tokens ++ [errorSymbol]).foldl Uses.declare [] }

/-- Gives a terminal a level, unless it has one. -/
def setPrecedence (g : Grammar) (term associativity : String) (level : Nat) :
    Except Notice Grammar :=
  if (g.precedence.lookup term).isSome then .error (.repeatedPrecedence term)
  else
    match Associativity.ofName? associativity with
    | none => .error .badAssociativity
    | some a => .ok { g with precedence := g.precedence ++ [(term, ⟨a, level⟩)] }

def precedenceOf (g : Grammar) (term : String) : Precedence := (g.precedence.lookup term).getD {}

/-- Whether a text can name a symbol. -/
def isName (s : String) : Bool :=
  !s.isEmpty && s.toList.all fun c => c.isAlphanum || c == '_' || c == '-'

def digitIn? (base : Nat) (c : Char) : Option Nat :=
  let value := if c.isDigit then c.toNat - 48 else if c.isAlpha then c.toLower.toNat - 87 else base
  if value < base then some value else none

def digitsIn (base : Nat) : Nat → List Char → List Nat × List Char
  | 0, cs => ([], cs)
  | _, [] => ([], [])
  | n + 1, c :: cs =>
    match digitIn? base c with
    | some d =>
      let (ds, rest) := digitsIn base n cs
      (d :: ds, rest)
    | none => ([], c :: cs)

def escapes : List (Char × Nat) := [
  ('\\', 92), ('n', 10), ('t', 9), ('r', 13), ('a', 7), ('b', 8), ('f', 12), ('v', 11)]

def escaped? (cs : List Char) : Option (List Char × Nat) :=
  match cs with
  | [] => none
  | c :: rest =>
    let fixed (n : Nat) : Option (List Char × Nat) :=
      let (ds, _) := digitsIn 16 n rest
      if ds.length == n then some ([Char.ofNat (ds.foldl (16 * · + ·) 0)], n + 1) else none
    if c == Text.singleQuote || c == Text.doubleQuote then some ([c], 1)
    else if c == 'x' then fixed 2
    else if c == 'u' then fixed 4
    else if c == 'U' then fixed 8
    else
      match escapes.lookup c, digitsIn 8 3 cs with
      | some n, _ => some ([Char.ofNat n], 1)
      | none, ([], _) => some (['\\', c], 1)
      | none, (ds, _) => some ([Char.ofNat (ds.foldl (8 * · + ·) 0)], ds.length)

/-- The characters of quoted texts that stand side by side. `quote` is the quote that is open, and
`skip` the number of characters that an escape has already taken. -/
def literalFrom (quote : Option Char) (skip : Nat) : List Char → Option (List Char)
  | [] => if quote.isNone then some [] else none
  | c :: rest =>
    match skip, quote with
    | n + 1, _ => literalFrom quote n rest
    | 0, none =>
      if c == Text.singleQuote || c == Text.doubleQuote then literalFrom (some c) 0 rest else none
    | 0, some q =>
      if c == q then literalFrom none 0 rest
      else if c == '\\' then do
        let (cs, n) ← escaped? rest
        return cs ++ (← literalFrom quote n rest)
      else do return c :: (← literalFrom quote 0 rest)

def isQuoted (s : String) : Bool :=
  match s.toList with
  | c :: _ => c == Text.singleQuote || c == Text.doubleQuote
  | [] => false

/-- The character that a quoted part of a rule stands for. -/
def literal? (s : String) : Option String :=
  if isQuoted s then (literalFrom none 0 s.toList).map String.ofList else none

/-! ## Adding rules -/

/-- The parts of a rule, with its literal tokens made known. -/
def readSymbols (g : Grammar) (r : WrittenRule) :
    List String → Grammar × Except Notice (List String)
  | [] => (g, .ok [])
  | s :: rest =>
    match literal? s with
    | some c =>
      if c.length > 1 then (g, .error (.longLiteral r.place s r.name))
      else
        let (g, parts) := readSymbols { g with terminals := g.terminals.declare c } r rest
        (g, parts.map (c :: ·))
    | none =>
      if isName s || s == precedenceMark then
        let (g, parts) := readSymbols g r rest
        (g, parts.map (s :: ·))
      else (g, .error (.illegalSymbol r.place s r.name))

/-- The terminal that a rule takes its precedence from. -/
def lastTerminal? (g : Grammar) (parts : List String) : Option String :=
  parts.reverse.find? fun s => g.terminals.has s

/-- The parts of a rule and its precedence: that of the term it asks for, or that of its last
terminal. -/
def takePrecedence (g : Grammar) (place : Place) (parts : List String) :
    Grammar × Except Notice (List String × Precedence) :=
  if parts.contains precedenceMark then
    match parts.reverse with
    | term :: mark :: rest =>
      if term == precedenceMark then (g, .error (.nothingAfterPrecedence place))
      else if mark != precedenceMark then (g, .error (.misplacedPrecedence place))
      else
        match g.precedence.lookup term with
        | none => (g, .error (.unknownPrecedence place term))
        | some p => ({ g with usedPrecedence := term :: g.usedPrecedence }, .ok (rest.reverse, p))
    | _ => (g, .error (.nothingAfterPrecedence place))
  else (g, .ok (parts, ((g.lastTerminal? parts).map g.precedenceOf).getD {}))

/-- A rule that is the same. -/
def twin? (g : Grammar) (name : String) (parts : List String) : Option Production :=
  (g.productions.toList.drop 1).find? fun p => p.name == name && p.parts == parts

/-- Adds a rule that has been read. -/
def push (g : Grammar) (p : Production) : Grammar :=
  let number := g.productions.size
  let g := { g with nonterminals := g.nonterminals.declare p.name }
  let g := p.parts.foldl (fun (g : Grammar) s =>
    if g.terminals.has s then { g with terminals := g.terminals.record s number }
    else { g with nonterminals := g.nonterminals.record s number }) g
  { g with productions := g.productions.push p }

/-- Adds a rule, or says why it is refused. -/
def add (g : Grammar) (r : WrittenRule) : Grammar × Option Notice :=
  if g.terminals.has r.name then (g, some (.ruleNamedAsToken r.place r.name))
  else if !isName r.name then (g, some (.illegalRuleName r.place r.name))
  else
    match g.readSymbols r r.parts with
    | (g, .error n) => (g, some n)
    | (g, .ok parts) =>
      match g.takePrecedence r.place parts with
      | (g, .error n) => (g, some n)
      | (g, .ok (parts, precedence)) =>
        match g.twin? r.name parts with
        | some p => (g, some (.repeatedRule r.place p.text p.place))
        | none => (g.push ⟨r.name, parts, precedence, some r.action, r.place⟩, none)

/-- Makes rule 0 lead to the start symbol. -/
def setStart (g : Grammar) (start : String) : Except Notice Grammar :=
  if g.nonterminals.has start then
    .ok { g with
      productions := g.productions.setIfInBounds 0 ⟨"S'", [start], {}, none, {}⟩
      nonterminals := g.nonterminals.record start 0 }
  else .error (.undefinedStart start)

def firstName? (g : Grammar) : Option String := (g.productions[1]?).map (·.name)

def startSymbol (g : Grammar) : String :=
  ((g.productions[0]?).bind fun p => p.parts.head?).getD ""

def isDefined (g : Grammar) (s : String) : Bool :=
  (g.productions.toList.drop 1).any fun p => p.name == s

/-- The symbols that no rule makes and that are no tokens. -/
def undefinedSymbols (g : Grammar) : List (Place × String) :=
  g.productions.toList.flatMap fun p =>
    (p.parts.filter fun s => !g.isDefined s && !g.terminals.has s).map fun s => (p.place, s)

/-- The tokens that no rule uses. -/
def unusedTerminals (g : Grammar) : List String :=
  (g.terminals.filter fun entry => entry.1 != errorSymbol && entry.2.isEmpty).map (·.1)

/-- A rule for each name that no rule uses. -/
def unusedRules (g : Grammar) : List Production :=
  (g.nonterminals.filter fun entry => entry.2.isEmpty).filterMap fun entry =>
    (g.productions.toList.drop 1).find? fun p => p.name == entry.1

def reachableFrom (g : Grammar) : Nat → List String → List String
  | 0, seen => seen
  | fuel + 1, seen =>
    let more := (g.productions.toList.drop 1).foldl (fun seen p =>
      if seen.contains p.name then
        p.parts.foldl (fun seen s => if seen.contains s then seen else s :: seen) seen
      else seen) seen
    if more.length == seen.length then seen else reachableFrom g fuel more

/-- The names that the start symbol does not lead to. -/
def unreachable (g : Grammar) : List String :=
  let seen := g.reachableFrom (g.terminals.length + g.nonterminals.length + 1) [g.startSymbol]
  (g.nonterminals.map (·.1)).filter fun s => !seen.contains s

/-- Adds to a list of symbols that can end those whose rules use only members, as often as the
fuel says. -/
def endingFrom (g : Grammar) : Nat → List String → List String
  | 0, known => known
  | fuel + 1, known =>
    let more := (g.productions.toList.drop 1).foldl (fun known p =>
      if !known.contains p.name && p.parts.all known.contains then p.name :: known else known) known
    if more.length == known.length then known else endingFrom g fuel more

/-- The names that are terminals and nonterminals at once: a literal token may be spelt like a
nonterminal. -/
def sharedNames (g : Grammar) : List String :=
  (g.terminals.map (·.1)).filter fun s => g.nonterminals.has s

/-- The defined nonterminals from which no text of tokens can be derived. A name that is also a
terminal counts as a nonterminal, and comes before the others. -/
def endless (g : Grammar) : List String :=
  let shared := g.sharedNames
  let known := g.endingFrom (g.nonterminals.length + 1)
    ((g.terminals.map (·.1)).filter fun s => !shared.contains s)
  let others := (g.nonterminals.map (·.1)).filter fun s => g.isDefined s && !shared.contains s
  (shared ++ others).filter fun s => !known.contains s

/-- The terms that have a level and are used nowhere. -/
def strayPrecedence (g : Grammar) : List (String × Associativity) :=
  (g.precedence.filter fun entry =>
    !g.terminals.has entry.1 && !g.usedPrecedence.contains entry.1).map
      fun entry => (entry.1, entry.2.associativity)

end Grammar

end PascalStack.LR
