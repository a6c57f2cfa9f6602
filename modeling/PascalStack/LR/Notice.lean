import PascalStack.Tree.Filling

/-!
# Notices of the table builder

What the builder has to say about a grammar. Errors keep a parser from being built; warnings do
not.
-/

namespace PascalStack.LR

/-- Where a rule is written. -/
structure Place where
  file : String := ""
  line : Nat := 0
  deriving DecidableEq, Repr

def Place.text (p : Place) : String := p.file ++ ":" ++ toString p.line

/-- How grave a notice is. -/
inductive Severity where
  | error
  | warning
  | note
  deriving DecidableEq, Repr

def Severity.label : Severity → String
  | error => "ERROR: "
  | warning => "WARNING: "
  | note => ""

/-- What the builder may have to say. -/
inductive Notice where
  | noTokens
  | reservedToken
  | repeatedToken (token : String)
  | precedenceNotList
  | badPrecedence
  | malformedPrecedence (shown : String)
  | associativityNotText
  | termNotText
  | noRules
  | noText (place : Place) (action : String)
  | misplacedBar (place : Place)
  | missingColon (place : Place)
  | malformedRule (place : Place) (text : String)
  | noErrorRoutine
  | repeatedPrecedence (term : String)
  | badAssociativity
  | ruleNamedAsToken (place : Place) (name : String)
  | illegalRuleName (place : Place) (name : String)
  | longLiteral (place : Place) (literal name : String)
  | illegalSymbol (place : Place) (symbol name : String)
  | nothingAfterPrecedence (place : Place)
  | misplacedPrecedence (place : Place)
  | unknownPrecedence (place : Place) (term : String)
  | repeatedRule (place : Place) (rule : String) (previous : Place)
  | undefinedStart (name : String)
  | undefinedSymbol (place : Place) (symbol : String)
  | unusedToken (token : String)
  | unusedRule (place : Place) (name : String)
  | unusedTokens (count : Nat)
  | unusedRules (count : Nat)
  | unreachable (symbol : String)
  | endless (symbol : String)
  | strayPrecedence (associativity term : String)
  | generating (method : String)
  | shiftReduceConflicts (count : Nat)
  | reduceReduceConflicts (count : Nat)
  | ruleChosen (state : Nat) (rule : String)
  | ruleRejected (rule : String) (state : Nat)
  | neverReduced (rule : String)
  deriving DecidableEq, Repr

namespace Notice

open Text (quoted)

/-- How bad a notice is. -/
def severity : Notice → Severity
  | repeatedToken _ | noText .. | noErrorRoutine | repeatedPrecedence _ | badAssociativity
  | unusedToken _ | unusedRule .. | unusedTokens _ | unusedRules _ | unreachable _
  | shiftReduceConflicts _ | reduceReduceConflicts _ | ruleChosen .. | ruleRejected ..
  | neverReduced _ => .warning
  | generating _ => .note
  | _ => .error

def unusedText (kind : String) (count : Nat) : String :=
  if count = 1 then s!"There is 1 unused {kind}" else s!"There are {count} unused {kind}s"

def conflictText (kind : String) (count : Nat) : String :=
  if count = 1 then s!"1 {kind} conflict" else s!"{count} {kind} conflicts"

/-- The text of a notice. -/
def wording : Notice → String
  | noTokens => "No token list is defined"
  | reservedToken => "Illegal token name 'error'. Is a reserved word"
  | repeatedToken token => "Token " ++ quoted token ++ " multiply defined"
  | precedenceNotList => "precedence must be a list or tuple"
  | badPrecedence => "Bad precedence table"
  | malformedPrecedence shown =>
    s!"Malformed precedence entry {shown}. Must be (assoc, term, ..., term)"
  | associativityNotText => "precedence associativity must be a string"
  | termNotText => "precedence items must be strings"
  | noRules => "no rules of the form p_rulename are defined"
  | noText place action =>
    place.text ++ ": No documentation string specified in function " ++ quoted action
      ++ " (ignored)"
  | misplacedBar place => place.text ++ ": Misplaced '|'"
  | missingColon place => place.text ++ ": Syntax error. Expected ':'"
  | malformedRule place text => place.text ++ ": Syntax error in rule " ++ quoted text
  | noErrorRoutine => "no p_error() function is defined"
  | repeatedPrecedence term => "Precedence already specified for terminal " ++ quoted term
  | badAssociativity => "Associativity must be one of 'left','right', or 'nonassoc'"
  | ruleNamedAsToken place name =>
    place.text ++ ": Illegal rule name " ++ quoted name ++ ". Already defined as a token"
  | illegalRuleName place name => place.text ++ ": Illegal rule name " ++ quoted name
  | longLiteral place literal name =>
    place.text ++ s!": Literal token {literal} in rule " ++ quoted name
      ++ " may only be a single character"
  | illegalSymbol place symbol name =>
    place.text ++ ": Illegal name " ++ quoted symbol ++ " in rule " ++ quoted name
  | nothingAfterPrecedence place => place.text ++ ": Syntax error. Nothing follows %prec"
  | misplacedPrecedence place =>
    place.text ++ ": Syntax error. %prec can only appear at the end of a grammar rule"
  | unknownPrecedence place term =>
    place.text ++ ": Nothing known about the precedence of " ++ quoted term
  | repeatedRule place rule previous =>
    place.text ++ s!": Duplicate rule {rule}. Previous definition at " ++ previous.text
  | undefinedStart name => s!"start symbol {name} undefined"
  | undefinedSymbol place symbol =>
    place.text ++ ": Symbol " ++ quoted symbol ++ " used, but not defined as a token or a rule"
  | unusedToken token => "Token " ++ quoted token ++ " defined, but not used"
  | unusedRule place name => place.text ++ ": Rule " ++ quoted name ++ " defined, but not used"
  | unusedTokens count => unusedText "token" count
  | unusedRules count => unusedText "rule" count
  | unreachable symbol => "Symbol " ++ quoted symbol ++ " is unreachable"
  | endless symbol => "Infinite recursion detected for symbol " ++ quoted symbol
  | strayPrecedence associativity term =>
    "Precedence rule " ++ quoted associativity ++ " defined for unknown symbol " ++ quoted term
  | generating method => s!"Generating {method} tables"
  | shiftReduceConflicts count => conflictText "shift/reduce" count
  | reduceReduceConflicts count => conflictText "reduce/reduce" count
  | ruleChosen state rule =>
    s!"reduce/reduce conflict in state {state} resolved using rule ({rule})"
  | ruleRejected rule state => s!"rejected rule ({rule}) in state {state}"
  | neverReduced rule => s!"Rule ({rule}) is never reduced"

/-- Whether the wording of a notice is itself filled in as a form. -/
def isForm : Notice → Bool
  | malformedRule .. | undefinedStart _ => true
  | _ => false

def message? (n : Notice) : Except Fault String :=
  if n.isForm then Tree.fillIn n.wording (.tuple [])
  else .ok n.wording

/-- The text of a notice as it is logged. -/
def message (n : Notice) : String :=
  match n.message? with
  | .ok text => text
  | .error _ => n.wording

def line (n : Notice) : String := n.severity.label ++ n.message ++ "\n"

end Notice

end PascalStack.LR
