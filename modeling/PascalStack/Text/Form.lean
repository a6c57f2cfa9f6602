/-!
# Texts as forms

In a form a percent sign starts a place for a value, and two of them stand for one. A place has
flags, a width, a precision after a point and a letter for the conversion, as in `%-8.3f`. A width
or precision may be a star, which stands for a value of its own.

Every text is a form: `pieces` cuts it into pieces, and a place that is not well formed is a piece
too. What is wrong with it shows when the form is filled in.
-/

namespace PascalStack.Text

/-- A width or precision. -/
inductive Size where
  | absent
  | given (n : Nat)
  | asked
  deriving DecidableEq, Repr

/-- A place for a value. Without a `conversion` the text ends inside the place; `offset` is where in
the text the conversion stands. -/
structure Place where
  flags : List Char
  width : Size
  precision : Size
  conversion : Option Char
  offset : Nat
  deriving DecidableEq, Repr

/-- A character that stands for itself, or a place. -/
inductive FormPiece where
  | plain (c : Char)
  | place (p : Place)
  /-- A place for a value with a name, which may lack its closing bracket. Nothing after it counts,
  because no value has a name. -/
  | named (closed : Bool)
  deriving DecidableEq, Repr

def isFlag (c : Char) : Bool := ['-', '+', ' ', '#', '0'].contains c

def numberOfDigits (digits : List Char) : Nat :=
  digits.foldl (fun n c => 10 * n + (c.toNat - '0'.toNat)) 0

def takeSize (cs : List Char) : Size × List Char :=
  match cs with
  | '*' :: rest => (.asked, rest)
  | _ =>
    let digits := cs.takeWhile Char.isDigit
    (if digits.isEmpty then .absent else .given (numberOfDigits digits),
      cs.dropWhile Char.isDigit)

/-- The precision that a text starts with, and what follows. A point alone is a precision of
zero. -/
def takePrecision (cs : List Char) : Size × List Char :=
  match cs with
  | '.' :: rest =>
    match takeSize rest with
    | (.absent, after) => (.given 0, after)
    | found => found
  | _ => (.absent, cs)

def dropLength : List Char → List Char
  | 'h' :: rest | 'l' :: rest | 'L' :: rest => rest
  | cs => cs

/-- The place that a text starts with after its percent sign, and what follows. The form has
`size` characters. -/
def takePlace (size : Nat) (cs : List Char) : Place × List Char :=
  let flags := cs.takeWhile isFlag
  let (width, afterWidth) := takeSize (cs.dropWhile isFlag)
  let (precision, afterPrecision) := takePrecision afterWidth
  let rest := dropLength afterPrecision
  (⟨flags, width, precision, rest.head?, size - rest.length⟩, rest.tail)

def closes : Nat → List Char → Bool
  | 0, _ => true
  | _ + 1, [] => false
  | depth + 1, ')' :: rest => closes depth rest
  | depth + 1, '(' :: rest => closes (depth + 2) rest
  | depth + 1, _ :: rest => closes (depth + 1) rest

theorem length_dropWhile_le (p : Char → Bool) (cs : List Char) :
    (cs.dropWhile p).length ≤ cs.length :=
  (List.dropWhile_suffix p).length_le

theorem length_takeSize_le (cs : List Char) : (takeSize cs).2.length ≤ cs.length := by
  unfold takeSize
  split
  · simp
  · exact length_dropWhile_le ..

theorem length_takePrecision_le (cs : List Char) : (takePrecision cs).2.length ≤ cs.length := by
  unfold takePrecision
  split
  · next rest =>
    have h := length_takeSize_le rest
    split
    · next after found => rw [found] at h; simp at h ⊢; omega
    · simp; omega
  · simp

theorem length_dropLength_le (cs : List Char) : (dropLength cs).length ≤ cs.length := by
  unfold dropLength
  split <;> simp

theorem length_takePlace_le (size : Nat) (cs : List Char) :
    (takePlace size cs).2.length ≤ cs.length := by
  have h₁ := length_dropWhile_le isFlag cs
  have h₂ := length_takeSize_le (cs.dropWhile isFlag)
  have h₃ := length_takePrecision_le (takeSize (cs.dropWhile isFlag)).2
  have h₄ := length_dropLength_le (takePrecision (takeSize (cs.dropWhile isFlag)).2).2
  simp only [takePlace, List.length_tail]
  omega

def piecesFrom (size : Nat) (cs : List Char) : List FormPiece :=
  match cs with
  | [] => []
  | '%' :: '%' :: rest => .plain '%' :: piecesFrom size rest
  | '%' :: '(' :: rest => [.named (closes 1 rest)]
  | '%' :: rest =>
    have := length_takePlace_le size rest
    .place (takePlace size rest).1 :: piecesFrom size (takePlace size rest).2
  | c :: rest => .plain c :: piecesFrom size rest
termination_by cs.length

/-- The pieces of a form. -/
def pieces (form : String) : List FormPiece := piecesFrom form.length form.toList

end PascalStack.Text
