import PascalStack.Proofs.ControlFlow.Language
import PascalStack.Proofs.Tree.Dictionary

/-!
# The code of programs of control flow

The code of a program of control flow, said without the state of the generator: the code of a
statement depends only on the names that have cells, in the order in which they got them, and on the
numbers of the next labels. There may be no code.
-/

namespace PascalStack.ControlFlow

open Code

/-- The names that have cells, in order, and the numbers of the next labels. -/
structure Layout where
  names : List String := []
  loops : Nat := 0
  ifs : Nat := 0

namespace Layout

def cell (l : Layout) (x : String) : Cell := .program (l.names.idxOf x)

def give (l : Layout) (x : String) : Layout :=
  if x ∈ l.names then l else { l with names := l.names ++ [x] }

def cells (l : Layout) : Dictionary Nat := l.names.zipIdx.map fun entry => (.str entry.1, entry.2)

end Layout

structure Writable (n : Int) : Prop where
  short : n.natAbs < Number.tenTo Fault.digitLimit

instance Writable.decidable (n : Int) : Decidable (Writable n) :=
  decidable_of_iff (n.natAbs < Number.tenTo Fault.digitLimit) ⟨.mk, Writable.short⟩

abbrev Lowering := Layout → Option (List Instruction × Layout)

namespace Lowering

def andThen (a b : Lowering) : Lowering := fun l =>
  (a l).bind fun first => (b first.2).map fun second => (first.1 ++ second.1, second.2)

def write (code : List Instruction) : Lowering := fun l => some (code, l)

def load (x : String) : Lowering := fun l =>
  if x ∈ l.names then some ([.load (l.cell x)], l) else none

def store (x : String) : Lowering := fun l => some ([.store ((l.give x).cell x)], l.give x)

def push (n : Int) : Lowering := fun l => if Writable n then some ([.push (.int n)], l) else none

def withLoop (f : Nat → Lowering) : Lowering := fun l => f l.loops { l with loops := l.loops + 1 }

def withIf (f : Nat → Lowering) : Lowering := fun l => f l.ifs { l with ifs := l.ifs + 1 }

def conditional (test yes no : Lowering) : Lowering :=
  test.andThen <| withIf fun n =>
    (write [.jumpZero (.elseBranch n)]).andThen <| yes.andThen <|
    (write [.jump (.ifEnd n)]).andThen <| (write [.label (.elseBranch n)]).andThen <|
    no.andThen <| write [.label (.ifEnd n)]

def repeating (start stop : Nat → Label) (test body : Lowering) : Lowering := withLoop fun n =>
  (write [.label (start n)]).andThen <| test.andThen <| (write [.jumpZero (stop n)]).andThen <|
  body.andThen <| (write [.jump (start n)]).andThen <| write [.label (stop n)]

end Lowering

open Lowering

def Operator.operation : Operator → Operation
  | plus => .add
  | minus => .sub
  | times => .mul
  | quotient => .div
  | remainder => .mod
  | equal => .equal
  | less => .inf
  | greater => .sup
  | atMost => .infeq
  | atLeast => .supeq
  | both => .and
  | either => .or

def Term.lower : Term → Lowering
  | name x => load x
  | number n => push n
  | operation a op b => a.lower.andThen (b.lower.andThen (write [.operate op.operation]))

def assignLowering (x : String) : Source → Lowering
  | .truth b => (push (StackMachine.truth (b = true))).andThen (store x)
  | .term (.name y) => fun l => ((load y).andThen (store x)) (l.give x)
  | .term t => t.lower.andThen (store x)

def Item.lower : Item → Lowering
  | quotation q => write [.pushString q.text, .writeString]
  | name x => (load x).andThen (write [.writeInteger])

def itemsLowering : List Item → Lowering
  | [] => write []
  | item :: rest => item.lower.andThen (itemsLowering rest)

mutual

def Statement.lower : Statement → Lowering
  | .empty => write []
  | .compound body => body.lower
  | .sequence items => Statement.lowerAll items
  | .assign x v => assignLowering x v
  | .ifThen c yes => conditional c.term.lower yes.lower (write [])
  | .ifElse c yes no => conditional c.term.lower yes.lower no.lower
  | .whileDo l op r body =>
    repeating .whileStart .whileEnd (Term.operation l op r).lower body.lower
  | .forDo x v dir limit body =>
    (assignLowering x v).andThen <|
      repeating .forStart .forEnd (Term.operation (.name x) dir.relation limit.term).lower
        (body.lower.andThen (assignLowering x (dir.advance x)))
  | .writeln items => (itemsLowering items).andThen (write [.writeLine])

def Statement.lowerAll : List Statement → Lowering
  | [] => write []
  | s :: rest => s.lower.andThen (Statement.lowerAll rest)

end

section Cells

variable {l : Layout} {x y : String}

theorem Layout.find_cells (l : Layout) (x : String) :
    l.cells.find? (.str x) = if x ∈ l.names then some (l.names.idxOf x) else none := by
  have shifted : ∀ (names : List String) (n : Nat),
      Dictionary.find? ((names.zipIdx n).map fun entry => (Tree.str entry.1, entry.2)) (.str x) =
        if x ∈ names then some (names.idxOf x + n) else none := by
    intro names
    induction names with
    | nil => intro n; simp [Dictionary.find?]
    | cons first rest ih =>
      intro n
      have found := ih (n + 1)
      simp only [Dictionary.find?] at found
      simp only [Dictionary.find?, List.zipIdx_cons, List.map_cons, List.find?_cons, Tree.same_str]
      by_cases equal : first = x
      · subst first
        simp
      · have differ : (first == x) = false := by simpa using equal
        simp only [differ, found, List.mem_cons, List.idxOf_cons]
        simp [Ne.symm equal]
        grind
  simpa [Layout.cells] using shifted l.names 0

theorem Layout.insert_cells (absent : x ∉ l.names) :
    Dictionary.insert l.cells (.str x) l.names.length =
      ({ l with names := l.names ++ [x] } : Layout).cells := by
  have shifted : ∀ (names : List String) (n : Nat), x ∉ names →
      Dictionary.insert ((names.zipIdx n).map fun entry => (Tree.str entry.1, entry.2)) (.str x)
        (n + names.length) =
      ((names ++ [x]).zipIdx n).map fun entry => (Tree.str entry.1, entry.2) := by
    intro names
    induction names with
    | nil => intro n _; simp [Dictionary.insert]
    | cons first rest ih =>
      intro n absent
      simp only [List.mem_cons, not_or] at absent
      have differ : (first == x) = false := by simpa using Ne.symm absent.1
      have later := ih (n + 1) absent.2
      simp only [List.zipIdx_cons, List.map_cons, Dictionary.insert, Tree.same_str, differ,
        List.cons_append, List.length_cons]
      rw [show n + (rest.length + 1) = n + 1 + rest.length by omega, later]
      simp
  simpa [Layout.cells] using shifted l.names 0 absent

theorem Layout.mem_give (l : Layout) (x : String) : x ∈ (l.give x).names := by
  unfold give
  split
  · assumption
  · simp

theorem Layout.give_give (l : Layout) (x : String) : (l.give x).give x = l.give x := by
  rw [give, if_pos (l.mem_give x)]

end Cells

theorem write_nil_andThen (a : Lowering) : (write []).andThen a = a := by
  funext l
  simp only [andThen, write, Option.bind_some]
  cases a l <;> simp

theorem andThen_write_nil (a : Lowering) : a.andThen (write []) = a := by
  funext l
  simp only [andThen, write]
  cases a l <;> simp

theorem Lowering.andThen_eq_some {a b : Lowering} {l l'' : Layout} {code : List Instruction} :
    (a.andThen b) l = some (code, l'') ↔ ∃ first l' second, a l = some (first, l') ∧
      b l' = some (second, l'') ∧ code = first ++ second := by
  simp only [andThen, Option.bind_eq_some_iff, Option.map_eq_some_iff, Prod.exists, Prod.mk.injEq]
  constructor
  · rintro ⟨first, l', one, second, _, two, rfl, rfl⟩
    exact ⟨first, l', second, one, two, rfl⟩
  · rintro ⟨first, l', second, one, two, rfl⟩
    exact ⟨first, l', one, second, l'', two, rfl, rfl⟩

theorem writable_zero : Writable 0 := ⟨by decide +kernel⟩

theorem writable_one : Writable 1 := ⟨by decide +kernel⟩

theorem integerText_writable {n : Int} (writable : Writable n) :
    Number.integerText n = .ok (toString n) := by
  rw [Number.integerText, if_pos writable.short]

theorem integerText_not_writable {n : Int} (long : ¬ Writable n) :
    Number.integerText n = .error .integerTooLong := by
  rw [Number.integerText, if_neg fun short => long ⟨short⟩]

theorem text_push_writable {n : Int} (writable : Writable n) :
    Instruction.text (.push (.int n)) = .ok ("pushi " ++ toString n) := by
  simp only [Instruction.text, Tree.text, Tree.render, integerText_writable writable]
  rfl

theorem text_push_long {n : Int} (long : ¬ Writable n) :
    Instruction.text (.push (.int n)) = .error .integerTooLong := by
  simp only [Instruction.text, Tree.text, Tree.render, integerText_not_writable long]
  rfl

end PascalStack.ControlFlow
