import PascalStack.Tree.Text

/-!
# Instructions

The instructions of the stack machine and their text. Code is a list of instructions; its text has
one instruction on a line.
-/

namespace PascalStack.Code

/-- A place in the code that jumps and calls lead to. -/
inductive Label where
  | forStart (n : Nat)
  | forEnd (n : Nat)
  | whileStart (n : Nat)
  | whileEnd (n : Nat)
  | elseBranch (n : Nat)
  | ifEnd (n : Nat)
  | routine (name : Tree)
  deriving BEq

/-- The spelling of a label. Routines have their own names. -/
def Label.text : Label → Except Fault String
  | forStart n => .ok s!"FOR{n}"
  | forEnd n => .ok s!"OUT{n}"
  | whileStart n => .ok s!"WHILE{n}"
  | whileEnd n => .ok s!"ENDWHILE{n}"
  | elseBranch n => .ok s!"ELSE{n}"
  | ifEnd n => .ok s!"ENDIF{n}"
  | routine name => name.text

/-- Where a variable lives: in a cell of the program or of the routine that runs. -/
inductive Cell where
  | program (slot : Nat)
  | routine (slot : Nat)
  deriving DecidableEq, Repr

/-- An operation on the two topmost values of the stack. -/
inductive Operation where
  | add
  | sub
  | mul
  | div
  | mod
  | equal
  | sup
  | inf
  | infeq
  | supeq
  | and
  | or
  deriving DecidableEq, Repr

namespace Operation

/-- The name of an operation. -/
def text : Operation → String
  | add => "add"
  | sub => "sub"
  | mul => "mul"
  | div => "div"
  | mod => "mod"
  | equal => "equal"
  | sup => "sup"
  | inf => "inf"
  | infeq => "infeq"
  | supeq => "supeq"
  | and => "and"
  | or => "or"

/-- The operation of an operator. `/` and the word operators have none. -/
def ofOperator? : Tree → Option Operation
  | .str "+" => some add
  | .str "-" => some sub
  | .str "*" => some mul
  | .str "div" => some div
  | .str "mod" => some mod
  | .str "=" => some equal
  | .str ">" => some sup
  | .str "<" => some inf
  | .str "<=" => some infeq
  | .str ">=" => some supeq
  | .str "and" => some and
  | .str "or" => some or
  | _ => none

end Operation

/-- What the stack machine can do. -/
inductive Instruction where
  | label (l : Label)
  | push (value : Tree)
  | pushString (text : String)
  | load (cell : Cell)
  | store (cell : Cell)
  | address (l : Label)
  | call
  | start
  | stop
  | ret
  | jump (l : Label)
  | jumpZero (l : Label)
  | operate (op : Operation)
  | read
  | atoi
  | strlen
  | charat
  | writeString
  | writeInteger
  | writeLine
  deriving BEq

namespace Instruction

def text : Instruction → Except Fault String
  | label l => do return (← l.text) ++ ":"
  | push value => do return "pushi " ++ (← value.text)
  | pushString s => .ok ("pushs \"" ++ s ++ "\"")
  | load (.program n) => .ok s!"pushg {n}"
  | load (.routine n) => .ok s!"pushl {n}"
  | store (.program n) => .ok s!"storeg {n}"
  | store (.routine n) => .ok s!"storel {n}"
  | address l => do return "pusha " ++ (← l.text)
  | call => .ok "call"
  | start => .ok "start"
  | stop => .ok "stop"
  | ret => .ok "return"
  | jump l => do return "jump " ++ (← l.text)
  | jumpZero l => do return "jz " ++ (← l.text)
  | operate op => .ok op.text
  | read => .ok "read"
  | atoi => .ok "atoi"
  | strlen => .ok "strlen"
  | charat => .ok "charat"
  | writeString => .ok "writes"
  | writeInteger => .ok "writei"
  | writeLine => .ok "writeln"

end Instruction

/-- The text of code, one instruction on a line. -/
def render : List Instruction → Except Fault String
  | [] => .ok ""
  | i :: is => do
    let line ← i.text
    return line ++ "\n" ++ (← render is)

end PascalStack.Code
