import Mathlib.Logic.Function.Basic
import Mathlib.Tactic.ByContra
import PascalStack.Code.Instruction

/-!
# The stack machine

What the machine does with the text of code. A text is assembled line by line into operations, with
labels kept as the names they are written with; a jump leads to the first line that marks its name.
The cells of the variables are apart from the operand stack. How whole numbers are divided is left
open: `Division` gives it, and a division that has no answer makes the machine fail.
-/

namespace PascalStack.StackMachine

open Code (Operation Instruction)

/-- How whole numbers are divided. There may be no answer. -/
structure Division where
  quotient : Int → Int → Option Int
  remainder : Int → Int → Option Int

/-- What the operand stack holds. -/
inductive Value where
  | number (n : Int)
  | text (s : String)
  deriving DecidableEq, Repr

/-- An operation of the machine. -/
inductive Op where
  | label (name : String)
  | pushNumber (n : Int)
  | pushText (s : String)
  | load (slot : Nat)
  | store (slot : Nat)
  | operate (op : Operation)
  | jump (name : String)
  | jumpZero (name : String)
  | writeText
  | writeNumber
  | writeLine
  deriving DecidableEq, Repr

def quotedRest : List Char → Option (List Char)
  | [] => none
  | ['"'] => some []
  | '"' :: _ => none
  | '\\' :: c :: rest => (quotedRest rest).map (c :: ·)
  | c :: rest => (quotedRest rest).map (c :: ·)

def quotedText : List Char → Option String
  | '"' :: rest => (quotedRest rest).map String.ofList
  | _ => none

def plainOps : List (String × Op) := [
  ("add", .operate .add), ("sub", .operate .sub), ("mul", .operate .mul), ("div", .operate .div),
  ("mod", .operate .mod), ("equal", .operate .equal), ("sup", .operate .sup),
  ("inf", .operate .inf), ("infeq", .operate .infeq), ("supeq", .operate .supeq),
  ("and", .operate .and), ("or", .operate .or), ("writes", .writeText), ("writei", .writeNumber),
  ("writeln", .writeLine)]

def operandOp (word : String) (operand : List Char) : Option Op :=
  match word with
  | "pushi" => (String.ofList operand).toInt?.map .pushNumber
  | "pushs" => (quotedText operand).map .pushText
  | "pushg" => (String.ofList operand).toNat?.map .load
  | "storeg" => (String.ofList operand).toNat?.map .store
  | "jump" => some (.jump (String.ofList operand))
  | "jz" => some (.jumpZero (String.ofList operand))
  | _ => none

def wordOp (line : List Char) : Option Op :=
  match plainOps.lookup (String.ofList line) with
  | some op => some op
  | none => if line.getLast? = some ':' then some (.label (String.ofList line.dropLast)) else none

def decode (line : List Char) : Option Op :=
  match line.dropWhile (· ≠ ' ') with
  | [] => wordOp line
  | _ :: operand => operandOp (String.ofList (line.takeWhile (· ≠ ' '))) operand

/-- The lines of a text, each of which ends with a line feed. `line` is the part of the first line
that has been read, in reverse. -/
def linesFrom (line : List Char) : List Char → Option (List (List Char))
  | [] => if line.isEmpty then some [] else none
  | '\n' :: rest => (linesFrom [] rest).map (line.reverse :: ·)
  | c :: rest => linesFrom (c :: line) rest

def assemble (text : String) : Option (List Op) := do
  (← linesFrom [] text.toList).mapM decode

/-- A configuration of the machine. -/
structure Config where
  pc : Nat
  stack : List Value
  cells : Nat → Int
  out : String

/-- What one step gives. A machine that is stuck has met an operation that cannot be done. -/
inductive Step where
  | next (c : Config)
  | halted
  | failed
  | stuck

def truth (p : Prop) [Decidable p] : Int := if p then 1 else 0

def calculate (d : Division) : Operation → Int → Int → Option Int
  | .add, a, b => some (a + b)
  | .sub, a, b => some (a - b)
  | .mul, a, b => some (a * b)
  | .div, a, b => d.quotient a b
  | .mod, a, b => d.remainder a b
  | .equal, a, b => some (truth (a = b))
  | .sup, a, b => some (truth (a > b))
  | .inf, a, b => some (truth (a < b))
  | .infeq, a, b => some (truth (a ≤ b))
  | .supeq, a, b => some (truth (a ≥ b))
  | .and, a, b => some (truth (a ≠ 0 ∧ b ≠ 0))
  | .or, a, b => some (truth (a ≠ 0 ∨ b ≠ 0))

def place? (code : List Op) (name : String) : Option Nat := code.findIdx? (· = .label name)

def goTo (code : List Op) (name : String) (c : Config) : Step :=
  match place? code name with
  | some pc => .next { c with pc := pc }
  | none => .stuck

def perform (d : Division) (code : List Op) (c : Config) : Op → Step
  | .label _ => .next { c with pc := c.pc + 1 }
  | .pushNumber n => .next { c with pc := c.pc + 1, stack := .number n :: c.stack }
  | .pushText s => .next { c with pc := c.pc + 1, stack := .text s :: c.stack }
  | .load slot => .next { c with pc := c.pc + 1, stack := .number (c.cells slot) :: c.stack }
  | .store slot =>
    match c.stack with
    | .number n :: rest =>
      .next { c with pc := c.pc + 1, stack := rest, cells := Function.update c.cells slot n }
    | _ => .stuck
  | .operate op =>
    match c.stack with
    | .number b :: .number a :: rest =>
      match calculate d op a b with
      | some n => .next { c with pc := c.pc + 1, stack := .number n :: rest }
      | none => .failed
    | _ => .stuck
  | .jump name => goTo code name c
  | .jumpZero name =>
    match c.stack with
    | .number n :: rest =>
      if n = 0 then goTo code name { c with stack := rest }
      else .next { c with pc := c.pc + 1, stack := rest }
    | _ => .stuck
  | .writeText =>
    match c.stack with
    | .text s :: rest => .next { c with pc := c.pc + 1, stack := rest, out := c.out ++ s }
    | _ => .stuck
  | .writeNumber =>
    match c.stack with
    | .number n :: rest =>
      .next { c with pc := c.pc + 1, stack := rest, out := c.out ++ toString n }
    | _ => .stuck
  | .writeLine => .next { c with pc := c.pc + 1, out := c.out ++ "\n" }

def step (d : Division) (code : List Op) (c : Config) : Step :=
  match code[c.pc]? with
  | none => .halted
  | some op => perform d code c op

inductive Reaches (d : Division) (code : List Op) : Config → Nat → Config → Prop where
  | refl (c : Config) : Reaches d code c 0 c
  | head {c c' c'' : Config} {n : Nat} : step d code c = .next c' → Reaches d code c' n c'' →
      Reaches d code c (n + 1) c''

def start (cells : Nat → Int) : Config := ⟨0, [], cells, ""⟩

variable {d : Division} {code : List Op} {c c' c'' : Config} {m n : Nat}

theorem Reaches.one (h : step d code c = .next c') : Reaches d code c 1 c' :=
  .head h (.refl c')

theorem Reaches.trans (h : Reaches d code c m c') (h' : Reaches d code c' n c'') :
    Reaches d code c (m + n) c'' := by
  induction h with
  | refl => simpa using h'
  | head first _ ih =>
    have rest := Reaches.head first (ih h')
    rwa [Nat.add_right_comm] at rest

theorem Reaches.unique (h : Reaches d code c n c') (h' : Reaches d code c n c'') : c' = c'' := by
  induction h with
  | refl => cases h'; rfl
  | head first _ ih =>
    cases h' with
    | head first' rest =>
      rw [first] at first'
      cases first'
      exact ih rest

theorem Reaches.split (h : Reaches d code c (m + n) c'') :
    ∃ c', Reaches d code c m c' ∧ Reaches d code c' n c'' := by
  induction m generalizing c with
  | zero => exact ⟨c, .refl c, by simpa using h⟩
  | succ m ih =>
    rw [Nat.add_right_comm] at h
    cases h with
    | head first rest =>
      obtain ⟨c', before, after⟩ := ih rest
      exact ⟨c', .head first before, after⟩

theorem Reaches.le_of_stop (h : Reaches d code c n c')
    (stop : ∀ next, step d code c' ≠ .next next) (h' : Reaches d code c m c'') : m ≤ n := by
  by_contra longer
  obtain ⟨k, rfl⟩ : ∃ k, m = n + (k + 1) := ⟨m - n - 1, by omega⟩
  obtain ⟨mid, before, after⟩ := h'.split
  cases before.unique h
  cases after with
  | head first _ => exact stop _ first

theorem out_of_step (h : step d code c = .next c') : c.out.toList <+: c'.out.toList := by
  unfold step at h
  split at h
  · cases h
  · rename_i op _
    cases op <;> simp only [perform, goTo] at h <;> (repeat' split at h) <;>
      first
      | cases h
        simp
      | cases h

theorem Reaches.out_le (h : Reaches d code c n c') : c.out.toList <+: c'.out.toList := by
  induction h with
  | refl => exact List.prefix_rfl
  | head first _ ih => exact (out_of_step first).trans ih

end PascalStack.StackMachine
