import PascalStack.Tree.Filling

/-!
# Trees as operands

Equality, order and arithmetic on plain values. A truth value counts as 0 or 1, whole and real
numbers mix, texts and lists join and repeat, and everything else has no meaning as an operand.
Two nodes are never equal, unless they are one and have the same mark.
-/

namespace PascalStack.Tree

/-- Whether two trees are the same number, or the same text, or both absent. -/
def sameAtom (a b : Tree) : Bool :=
  match a.number?, b.number? with
  | some x, some y => x.compare? y == some .eq
  | _, _ =>
    match a, b with
    | none, none => true
    | str s, str t => s == t
    | _, _ => false

mutual

/-- Whether two trees are equal as values. -/
def same : Tree → Tree → Bool
  | list xs, list ys => sameAll xs ys
  | tuple xs, tuple ys => sameAll xs ys
  | marked m _, marked n _ => m == n
  | a, b => sameAtom a b

def sameAll : List Tree → List Tree → Bool
  | [], [] => true
  | x :: xs, y :: ys => same x y && sameAll xs ys
  | _, _ => false

end

/-- Whether a tree is a text. -/
def isText (s : String) : Tree → Bool
  | str t => t == s
  | _ => false

/-- The comparisons by order. -/
inductive Relation where
  | lt
  | le
  | gt
  | ge
  deriving DecidableEq, Repr

namespace Relation

def sign : Relation → String
  | lt => "<"
  | le => "<="
  | gt => ">"
  | ge => ">="

def holds : Relation → Ordering → Bool
  | lt, o => o.isLT
  | le, o => o.isLE
  | gt, o => o.isGT
  | ge, o => o.isGE

end Relation

/-- A relation between two plain values that are no lists. Values of different kinds have no
order, and a number that is none stands in no relation. -/
def relateAtoms (r : Relation) (a b : Tree) : Except Fault Bool :=
  match a.number?, b.number? with
  | some x, some y => .ok ((x.compare? y).any r.holds)
  | _, _ =>
    match a, b with
    | str s, str t => .ok (r.holds (compare s t))
    | _, _ => .error (.unorderable r.sign a.kindName b.kindName)

mutual

/-- Whether a comparison holds. Lists are compared at their first difference. -/
def relate (r : Relation) : Tree → Tree → Except Fault Bool
  | list xs, list ys => relateAll r xs ys
  | tuple xs, tuple ys => relateAll r xs ys
  | a, b => relateAtoms r a b

def relateAll (r : Relation) : List Tree → List Tree → Except Fault Bool
  | [], [] => .ok (r.holds .eq)
  | [], _ :: _ => .ok (r.holds .lt)
  | _ :: _, [] => .ok (r.holds .gt)
  | x :: xs, y :: ys => if same x y then relateAll r xs ys else relate r x y

end

/-- Applies an operation to two numbers. -/
def onNumbers (operator : String) (op : Number → Number → Except Fault Number) (a b : Tree) :
    Except Fault Tree :=
  match a.number?, b.number? with
  | some x, some y => (op x y).map ofNumber
  | _, _ => .error (.unsupportedOperands operator a.kindName b.kindName)

/-- Adds numbers, or joins texts or lists. -/
def add (a b : Tree) : Except Fault Tree :=
  match a, b with
  | str s, str t => .ok (str (s ++ t))
  | list xs, list ys => .ok (list (xs ++ ys))
  | tuple xs, tuple ys => .ok (tuple (xs ++ ys))
  | str _, _ | list _, _ | tuple _, _ => .error (.notConcatenable a.kindName b.kindName)
  | _, _ => onNumbers "+" Number.add a b

def sub (a b : Tree) : Except Fault Tree := onNumbers "-" Number.sub a b

def isSequence : Tree → Bool
  | str _ | list _ | tuple _ => true
  | _ => false

def repeated (n : Int) : Tree → Tree
  | str s => str (String.join (List.replicate n.toNat s))
  | list xs => list (List.replicate n.toNat xs).flatten
  | tuple xs => tuple (List.replicate n.toNat xs).flatten
  | t => t

/-- How many items a text or a list has. -/
def length (t : Tree) : Except Fault Nat :=
  match t with
  | str s => .ok s.length
  | list xs | tuple xs => .ok xs.length
  | _ => .error (.noLength t.kindName)

def isStr : Tree → Bool
  | str _ => true
  | _ => false

/-- A text or list repeated a number of times that another tree gives. The count has to be that of
some length, and the result has to fit in memory. -/
def repeatBy (sequence count : Tree) : Except Fault Tree :=
  match count.whole? with
  | some n =>
    let limit := Number.twoTo 63
    if n < -limit ∨ limit ≤ n then .error .countTooLarge
    else do
      let size := (← sequence.length) * n.toNat
      if size = 0 then return repeated 0 sequence
      else if limit ≤ size ∧ sequence.isStr then .error .textTooLong
      else if Fault.sizeLimit ≤ size then .error .outOfMemory
      else return repeated n sequence
  | Option.none => .error (.notRepeatable count.kindName)

/-- Multiplies numbers, or repeats a text or a list. -/
def mul (a b : Tree) : Except Fault Tree :=
  if a.isSequence then repeatBy a b
  else if b.isSequence then repeatBy b a
  else onNumbers "*" Number.mul a b

def div (a b : Tree) : Except Fault Tree := onNumbers "/" Number.div a b

def floorDiv (a b : Tree) : Except Fault Tree := onNumbers "//" Number.floorDiv a b

/-- A remainder, or a text filled in as a form. -/
def floorMod (a b : Tree) : Except Fault Tree :=
  match a with
  | str s => do return str (← fillIn s b)
  | _ => onNumbers "%" Number.floorMod a b

def neg (t : Tree) : Except Fault Tree :=
  match t.number? with
  | some x => .ok (ofNumber x.neg)
  | Option.none => .error (.badOperand "-" t.kindName)

/-- The items of a text or a list. -/
def items (t : Tree) : Except Fault (List Tree) :=
  match t with
  | list xs | tuple xs => .ok xs
  | str s => .ok (s.toList.map fun c => str (String.singleton c))
  | _ => .error (.notIterable t.kindName)

end PascalStack.Tree
