import PascalStack.LR.Notice

/-!
# Rules as they are written

The text of a rule names what it makes, then a colon, then its parts; further lines that start
with a bar give other parts for the same name.
-/

namespace PascalStack.LR

/-- A rule as it is written: the name of the action it belongs to, the line before its text, and
the text. -/
structure RuleText where
  action : String
  line : Nat
  text : String

/-- One rule of a text. -/
structure WrittenRule where
  action : String
  place : Place
  name : String
  parts : List String

namespace RuleText

/-- The rules of lines. A line with a bar is for the last name. -/
def readLines (file action : String) (last : Option String) (line : Nat) :
    List (List Char) → Except Notice (List WrittenRule)
  | [] => .ok []
  | text :: rest =>
    let place : Place := ⟨file, line + 1⟩
    match (Text.words text).map String.ofList with
    | [] => readLines file action last (line + 1) rest
    | "|" :: parts =>
      match last with
      | none => .error (.misplacedBar place)
      | some name => do
        return ⟨action, place, name, parts⟩ :: (← readLines file action last (line + 1) rest)
    | [_] => .error (.malformedRule place (String.ofList (Text.trim Text.isBlank text)))
    | name :: sign :: parts =>
      if sign == ":" || sign == "::=" then do
        return ⟨action, place, name, parts⟩ :: (← readLines file action (some name) (line + 1) rest)
      else .error (.missingColon place)

/-- The rules of a text. -/
def read (file : String) (r : RuleText) : Except Notice (List WrittenRule) :=
  readLines file r.action none r.line (Text.lines r.text.toList)

end RuleText

end PascalStack.LR
