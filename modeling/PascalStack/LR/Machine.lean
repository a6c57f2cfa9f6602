import PascalStack.Printing

/-!
# The LR machine

A parser with a stack, driven by a table of actions. In a state whose only action is one
reduction the machine reduces without asking for a token. On an error it unwinds the stack under
an error mark; a rule may take the mark, and otherwise the token at fault is dropped and the
machine starts again on what follows.
-/

namespace PascalStack.LR

/-- What a state does on a terminal. -/
inductive Action where
  | shift (state : Nat)
  | reduce (rule : Nat)
  | accept
  deriving DecidableEq, Repr, Inhabited

/-- What the machine looks at: a token, the end of the text, or the mark of an error. -/
inductive Terminal (T : Type) where
  | token (kind : T)
  | finish
  | error
  deriving DecidableEq, Repr, Inhabited

/-- A terminal or a nonterminal. -/
inductive Symbol (T N : Type) where
  | terminal (t : Terminal T)
  | nonterminal (n : N)
  deriving DecidableEq, Repr, Inhabited

/-- A terminal with its value and its line. -/
structure Lookahead (T α : Type) where
  terminal : Terminal T
  value : α
  line : Nat

/-- What one request for a token brings: the reports printed, the line reached, and a token, the
end of the text or a fault. -/
structure Supply (T α : Type) where
  report : String
  line : Nat
  item : Except Fault (Option (Lookahead T α))

/-- A table with the rules and what they build. -/
structure Machine (T N α : Type) where
  action : Nat → Terminal T → Option Action
  goto : Nat → N → Option Nat
  settled : Nat → Option Nat
  rule : Nat → Option (N × Nat)
  build : Nat → List α → Printing α
  complain : Option (Lookahead T α) → Printing Unit
  errorValue : Lookahead T α → α

/-- An entry of the stack: the state, and the symbol that led to it with its value. -/
structure Frame (T N α : Type) where
  state : Nat
  symbol : Symbol T N
  value : α

/-- Where a machine is. After an error it is patient for a few tokens. -/
structure Configuration (T N α : Type) where
  stack : List (Frame T N α) := []
  lookahead : Option (Lookahead T α) := none
  pending : List (Lookahead T α) := []
  feed : List (Supply T α)
  patience : Nat := 0
  line : Nat
  out : String := ""

/-- How a run ends. -/
inductive Outcome (α : Type) where
  | accepted (value : α)
  | rejected
  | faulted (fault : Fault)
  | stuck
  | exhausted
  deriving Inhabited

/-- A step leads to a configuration or ends the run. -/
inductive Step (T N α : Type) where
  | next (c : Configuration T N α)
  | done (c : Configuration T N α) (outcome : Outcome α)

variable {T N α : Type}

/-- The state that the machine is in. -/
def topState : List (Frame T N α) → Nat
  | [] => 0
  | f :: _ => f.state

/-- How many tokens have to be shifted before the next complaint. -/
def errorPatience : Nat := 3

namespace Machine

/-- Replaces the parts of a rule on the stack by the phrase it makes. -/
def reduce (m : Machine T N α) (r : Nat) (c : Configuration T N α) : Step T N α :=
  match m.rule r with
  | none => .done c .stuck
  | some (n, size) =>
    let top := c.stack.take size
    if top.length < size then .done c .stuck
    else
      let arguments := top.reverse.map (·.value)
      let below := c.stack.drop size
      match m.build r arguments c.out with
      | .error f out => .done { c with out := out } (.faulted f)
      | .ok value out =>
        match m.goto (topState below) n with
        | none => .done { c with out := out } .stuck
        | some state =>
          .next { c with stack := ⟨state, .nonterminal n, value⟩ :: below, out := out }

/-- The lookahead, asked for if there is none. -/
def fetch [Inhabited α] (c : Configuration T N α) :
    Except Fault (Lookahead T α) × Configuration T N α :=
  match c.lookahead with
  | some look => (.ok look, c)
  | none =>
    match c.pending with
    | look :: rest => (.ok look, { c with lookahead := some look, pending := rest })
    | [] =>
      match c.feed with
      | [] =>
        let look := ⟨.finish, default, c.line⟩
        (.ok look, { c with lookahead := some look })
      | s :: feed =>
        let c := { c with feed := feed, line := s.line, out := c.out ++ s.report }
        match s.item with
        | .error f => (.error f, c)
        | .ok item =>
          let look := item.getD ⟨.finish, default, s.line⟩
          (.ok look, { c with lookahead := some look })

/-- What a complaint is about. The end of the text is nothing. -/
def culprit (look : Lookahead T α) : Option (Lookahead T α) :=
  match look.terminal with
  | .finish => none
  | _ => some look

/-- What follows an error once the complaint is made: at the bottom of the stack the token is
dropped; at the end of the text the machine gives up; otherwise the error mark is put before the
token, and under the mark the stack is unwound. -/
def unwind (m : Machine T N α) (look : Lookahead T α) (c : Configuration T N α) : Step T N α :=
  match c.stack, look.terminal with
  | _, .finish => .done c .rejected
  | [], _ => .next { c with lookahead := none, pending := [] }
  | _ :: rest, .error => .next { c with stack := rest }
  | ⟨_, .terminal .error, _⟩ :: _, .token _ => .next { c with lookahead := none }
  | _ :: _, .token _ =>
    .next { c with
      pending := look :: c.pending
      lookahead := some ⟨.error, m.errorValue look, look.line⟩ }

/-- Deals with a token that has no action. Complaints are not repeated until some tokens have
been shifted. -/
def recover (m : Machine T N α) (look : Lookahead T α) (c : Configuration T N α) : Step T N α :=
  if c.patience = 0 then
    match m.complain (culprit look) c.out with
    | .error f out => .done { c with out := out } (.faulted f)
    | .ok _ out => unwind m look { c with out := out, patience := errorPatience }
  else unwind m look { c with patience := errorPatience }

/-- One step. -/
def step [Inhabited α] (m : Machine T N α) (c : Configuration T N α) : Step T N α :=
  match m.settled (topState c.stack) with
  | some r => m.reduce r c
  | none =>
    match fetch c with
    | (.error f, c) => .done c (.faulted f)
    | (.ok look, c) =>
      match m.action (topState c.stack) look.terminal with
      | some (.shift state) =>
        .next { c with
          stack := ⟨state, .terminal look.terminal, look.value⟩ :: c.stack
          lookahead := none
          patience := c.patience - 1 }
      | some (.reduce r) => m.reduce r c
      | some .accept =>
        match c.stack with
        | [] => .done c .rejected
        | f :: _ => .done c (.accepted f.value)
      | none => m.recover look c

/-- Steps until the run ends, or the fuel does. -/
def run [Inhabited α] (m : Machine T N α) : Nat → Configuration T N α →
    Outcome α × Configuration T N α
  | 0, c => (.exhausted, c)
  | fuel + 1, c =>
    match m.step c with
    | .next c => run m fuel c
    | .done c outcome => (outcome, c)

/-- Parses what is supplied, from a line. The fuel bounds the steps of a table with `size` rules:
between two tokens every frame of the stack is reduced through every rule at most once. -/
def parse [Inhabited α] (m : Machine T N α) (size line : Nat) (feed : List (Supply T α)) :
    Outcome α × Configuration T N α :=
  let tokens := feed.length + 2
  let rules := size + 2
  m.run (tokens * tokens * (rules * rules)) { feed := feed, line := line }

end Machine

end PascalStack.LR
