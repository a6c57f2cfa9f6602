import PascalStack.Proofs.StackMachine
import PascalStack.Text.LetterCase

/-!
# Programs of control flow

Programs over whole numbers and truth values without routines: assignments, conditionals, loops
tested before their body, counted loops and output. A program is syntax with a tree, and has a
meaning of its own: truth values are 1 and 0, and a counted loop is a tested loop that changes its
control variable. The meaning of a program bounds the rounds of each loop by a fuel, so a program
that runs forever is one that is unfinished with every fuel.
-/

namespace PascalStack.ControlFlow

open StackMachine (Division truth)

inductive Operator where
  | plus
  | minus
  | times
  | quotient
  | remainder
  | equal
  | less
  | greater
  | atMost
  | atLeast
  | both
  | either
  deriving DecidableEq, Repr

def Operator.sign : Operator → String
  | plus => "+"
  | minus => "-"
  | times => "*"
  | quotient => "div"
  | remainder => "mod"
  | equal => "="
  | less => "<"
  | greater => ">"
  | atMost => "<="
  | atLeast => ">="
  | both => "and"
  | either => "or"

/-- A variable, a number or an operation. -/
inductive Term where
  | name (x : String)
  | number (n : Int)
  | operation (left : Term) (op : Operator) (right : Term)

/-- What is assigned. -/
inductive Source where
  | truth (b : Bool)
  | term (t : Term)

inductive Condition where
  | name (x : String)
  | operation (left : Term) (op : Operator) (right : Term)

inductive Limit where
  | name (x : String)
  | number (n : Int)

inductive Direction where
  | upward
  | downward

structure Quotation where
  quote : Char
  text : String
  plain : ∀ c ∈ text.toList, c ≠ '"' ∧ c ≠ '\\' ∧ c ≠ '\n'

/-- An argument of an output statement. -/
inductive Item where
  | quotation (q : Quotation)
  | name (x : String)

inductive Statement where
  | empty
  | compound (body : Statement)
  | sequence (items : List Statement)
  | assign (target : String) (source : Source)
  | ifThen (condition : Condition) (yes : Statement)
  | ifElse (condition : Condition) (yes no : Statement)
  | whileDo (left : Term) (op : Operator) (right : Term) (body : Statement)
  | forDo (control : String) (first : Source) (direction : Direction) (limit : Limit)
      (body : Statement)
  | writeln (items : List Item)

structure Declaration where
  names : List String
  typeName : String

def Condition.term : Condition → Term
  | name x => .name x
  | operation l op r => .operation l op r

def Limit.term : Limit → Term
  | name x => .name x
  | number n => .number n

def Direction.word : Direction → String
  | upward => "to"
  | downward => "downto"

def Direction.relation : Direction → Operator
  | upward => .atMost
  | downward => .atLeast

def Direction.change : Direction → Operator
  | upward => .plus
  | downward => .minus

def nameTree (x : String) : Tree := .identifier (.str x)

def numberTree (n : Int) : Tree := .literal (.int n) (.str "NUMBER")

def Term.tree : Term → Tree
  | name x => nameTree x
  | number n => numberTree n
  | operation l op r => .binaryOp l.tree (.str op.sign) r.tree

def Source.tree : Source → Tree
  | truth b => .literal (.bool b) (.str "BOOLEAN")
  | term t => t.tree

def Item.tree : Item → Tree
  | quotation q =>
    .literal (.str (String.ofList (q.quote :: q.text.toList ++ [q.quote]))) (.str "PHRASE")
  | name x => nameTree x

mutual

def Statement.tree : Statement → Tree
  | .empty => .list []
  | .compound body => .statementPart body.tree
  | .sequence items => .statementSequence (Statement.trees items)
  | .assign x v => .assignment (nameTree x) v.tree
  | .ifThen c yes => .ifStatement c.term.tree yes.tree .none
  | .ifElse c yes no => .ifStatement c.term.tree yes.tree no.tree
  | .whileDo l op r body => .whileStatement (Term.operation l op r).tree body.tree
  | .forDo x v dir limit body =>
    .forStatement (.assignment (nameTree x) v.tree) (.str dir.word) limit.term.tree body.tree
  | .writeln items => .writelnStatement (.list (items.map Item.tree))

def Statement.trees : List Statement → List Tree
  | [] => []
  | s :: rest => s.tree :: Statement.trees rest

end

def Declaration.tree (d : Declaration) : Tree :=
  .varDeclaration (.list (d.names.map nameTree)) (.type (.str d.typeName))

def sectionTree (ds : List Declaration) : Tree :=
  .varDeclarationPart (.list (ds.map Declaration.tree))

def Term.numbers : Term → List Int
  | name _ => []
  | number n => [n]
  | operation a _ b => a.numbers ++ b.numbers

def Item.written : Item → List String
  | quotation _ => []
  | name x => [x]

mutual

def Statement.written : Statement → List String
  | .empty => []
  | .compound body => body.written
  | .sequence items => Statement.writtenAll items
  | .assign .. => []
  | .ifThen _ yes => yes.written
  | .ifElse _ yes no => yes.written ++ no.written
  | .whileDo _ _ _ body => body.written
  | .forDo _ _ _ _ body => body.written
  | .writeln items => items.flatMap Item.written

def Statement.writtenAll : List Statement → List String
  | [] => []
  | s :: rest => s.written ++ Statement.writtenAll rest

end

def declaredType (ds : List Declaration) (x : String) : Option String :=
  ds.foldl (fun known d => if x ∈ d.names then some (Text.lower d.typeName) else known) none

structure Program where
  name : String
  declarations : List Declaration
  extra : Option (List Declaration)
  body : Statement
  simple : ∀ d ∈ declarations ++ extra.getD [],
    Text.lower d.typeName = "integer" ∨ Text.lower d.typeName = "boolean"
  writes : ∀ x ∈ body.written, declaredType (declarations ++ extra.getD []) x = some "integer"

def Program.tree (p : Program) : Tree :=
  .program (.header (.str p.name))
    (.block (sectionTree p.declarations) (.list []) p.body.tree
      (match p.extra with
        | none => .none
        | some ds => sectionTree ds))

/-- The values of the variables, and what has been written. -/
structure State where
  store : String → Int
  out : String

/-- How running a statement ends. `unfinished` says that a loop has used up its rounds. -/
inductive Result where
  | finished (s : State)
  | failed (s : State)
  | unfinished (s : State)

def Result.andThen : Result → (State → Result) → Result
  | finished s, f => f s
  | failed s, _ => failed s
  | unfinished s, _ => unfinished s

def Operator.apply (d : Division) : Operator → Int → Int → Option Int
  | plus, a, b => some (a + b)
  | minus, a, b => some (a - b)
  | times, a, b => some (a * b)
  | quotient, a, b => d.quotient a b
  | remainder, a, b => d.remainder a b
  | equal, a, b => some (truth (a = b))
  | less, a, b => some (truth (a < b))
  | greater, a, b => some (truth (b < a))
  | atMost, a, b => some (truth (a ≤ b))
  | atLeast, a, b => some (truth (b ≤ a))
  | both, a, b => some (truth (a ≠ 0 ∧ b ≠ 0))
  | either, a, b => some (truth (a ≠ 0 ∨ b ≠ 0))

def Term.eval (d : Division) (store : String → Int) : Term → Option Int
  | name x => some (store x)
  | number n => some n
  | operation l op r => do op.apply d (← l.eval d store) (← r.eval d store)

def Source.eval (d : Division) (store : String → Int) : Source → Option Int
  | truth b => some (StackMachine.truth (b = true))
  | term t => t.eval d store

def Item.text (store : String → Int) : Item → String
  | quotation q => q.text
  | name x => toString (store x)

def assignTo (d : Division) (x : String) (v : Source) (s : State) : Result :=
  match v.eval d s.store with
  | some n => .finished { s with store := Function.update s.store x n }
  | none => .failed s

def branch (d : Division) (t : Term) (yes no : State → Result) (s : State) : Result :=
  match t.eval d s.store with
  | some n => if n ≠ 0 then yes s else no s
  | none => .failed s

def loop (d : Division) (t : Term) (body : State → Result) : Nat → State → Result
  | 0, s => .unfinished s
  | fuel + 1, s => branch d t (fun s => (body s).andThen (loop d t body fuel)) .finished s

def Direction.advance (dir : Direction) (x : String) : Source :=
  .term (.operation (.name x) dir.change (.number 1))

mutual

def Statement.run (d : Division) (fuel : Nat) : Statement → State → Result
  | .empty, s => .finished s
  | .compound body, s => body.run d fuel s
  | .sequence items, s => Statement.runAll d fuel items s
  | .assign x v, s => assignTo d x v s
  | .ifThen c yes, s => branch d c.term (fun s => yes.run d fuel s) .finished s
  | .ifElse c yes no, s =>
    branch d c.term (fun s => yes.run d fuel s) (fun s => no.run d fuel s) s
  | .whileDo l op r body, s => loop d (.operation l op r) (fun s => body.run d fuel s) fuel s
  | .forDo x v dir limit body, s =>
    (assignTo d x v s).andThen
      (loop d (.operation (.name x) dir.relation limit.term)
        (fun s => (body.run d fuel s).andThen (assignTo d x (dir.advance x))) fuel)
  | .writeln items, s =>
    .finished { s with out := s.out ++ String.join (items.map (Item.text s.store)) ++ "\n" }

def Statement.runAll (d : Division) (fuel : Nat) : List Statement → State → Result
  | [], s => .finished s
  | item :: rest, s => (item.run d fuel s).andThen (fun s => Statement.runAll d fuel rest s)

end

end PascalStack.ControlFlow
