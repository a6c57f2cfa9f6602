import PascalStack.LR.ActionTable

/-!
# The text of a table

A finished table as a text from which it can be read back. Entries are grouped by symbol, in the
order in which the symbols first come. Shifts are written as states, reductions as negative rules,
and acceptance as zero.
-/

namespace PascalStack.LR

open Text (quoted)

/-- A finished table. -/
structure ParserTable where
  method : Method
  productions : Array Production
  rows : Array Row
  gotos : Array (List (String × Nat))

namespace ParserTable

/-- An entry as a number. -/
def entryText (e : Entry) : String :=
  match e.action with
  | some (.shift n) => toString n
  | some (.reduce r) => "-" ++ toString r
  | some .accept => "0"
  | none => "None"

/-- The entries of each symbol, by state. -/
def bySymbol (rows : List (List (String × String))) : List (String × List (Nat × String)) :=
  rows.zipIdx.foldl (fun found (row, state) => row.foldl (fun found (s, text) =>
    if found.any (·.1 == s) then
      found.map fun entry => if entry.1 == s then (s, (state, text) :: entry.2) else entry
    else found ++ [(s, [(state, text)])]) found) []

def groupsText (rows : List (List (String × String))) : String :=
  String.join ((bySymbol rows).map fun (s, entries) =>
    let entries := entries.reverse
    quoted s ++ ":([" ++ String.join (entries.map fun e => toString e.1 ++ ",") ++ "],["
      ++ String.join (entries.map fun e => e.2 ++ ",") ++ "]),")

/-- A rule as a line. -/
def ruleText (p : Production) : String :=
  let start := "  (" ++ quoted p.text ++ "," ++ quoted p.name ++ "," ++ toString p.parts.length
  match p.action with
  | some action =>
    start ++ "," ++ quoted action ++ "," ++ quoted p.place.file ++ "," ++ toString p.place.line
      ++ "),\n"
  | none => start ++ ",None,None,None),\n"

def layoutVersion : String := "3.10"

/-- The text of a table. -/
def text (t : ParserTable) (file signature : String) : String :=
  let actions := t.rows.toList.map fun row => row.map fun (s, e) => (s, entryText e)
  let gotos := t.gotos.toList.map fun row => row.map fun (s, n) => (s, toString n)
  "\n# " ++ file ++ "\n# This file is automatically generated. Do not edit.\n"
    ++ "# pylint: disable=W,C,R\n_tabversion = " ++ quoted layoutVersion
    ++ "\n\n_lr_method = " ++ quoted t.method.name
    ++ "\n\n_lr_signature = " ++ quoted signature ++ "\n    "
    ++ "\n_lr_action_items = \x7b" ++ groupsText actions ++ "\x7d\n"
    ++ "\n_lr_action = \x7b\x7d\nfor _k, _v in _lr_action_items.items():\n"
    ++ "   for _x,_y in zip(_v[0],_v[1]):\n"
    ++ "      if not _x in _lr_action:  _lr_action[_x] = \x7b\x7d\n"
    ++ "      _lr_action[_x][_k] = _y\ndel _lr_action_items\n"
    ++ "\n_lr_goto_items = \x7b" ++ groupsText gotos ++ "\x7d\n"
    ++ "\n_lr_goto = \x7b\x7d\nfor _k, _v in _lr_goto_items.items():\n"
    ++ "   for _x, _y in zip(_v[0], _v[1]):\n"
    ++ "       if not _x in _lr_goto: _lr_goto[_x] = \x7b\x7d\n"
    ++ "       _lr_goto[_x][_k] = _y\ndel _lr_goto_items\n"
    ++ "_lr_productions = [\n" ++ String.join (t.productions.toList.map ruleText) ++ "]\n"

/-- The rule of a row that holds one reduction only. -/
def onlyRule? : Row → Option Nat
  | [(_, ⟨some (.reduce r), _⟩)] => some r
  | _ => none

/-- Whether a row has one entry, and a conflict left it without an action. -/
def isEmptied : Row → Bool
  | [(_, ⟨none, _⟩)] => true
  | _ => false

end ParserTable

end PascalStack.LR
