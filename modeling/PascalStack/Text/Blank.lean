/-!
# Blank characters

The characters that separate words, those of them that a numeral may carry around it, and the ones
that end a line.
-/

namespace PascalStack.Text

def blanks : List Nat := [
  9, 10, 11, 12, 13, 28, 29, 30, 31, 32, 133, 160, 5760, 8192, 8193, 8194, 8195, 8196, 8197,
  8198, 8199, 8200, 8201, 8202, 8232, 8233, 8239, 8287, 12288]

/-- Whether a character separates words. -/
def isBlank (c : Char) : Bool := blanks.contains c.toNat

/-- Whether a character may stand around a numeral. -/
def isSpace (c : Char) : Bool := isBlank c && !(28 ≤ c.toNat && c.toNat ≤ 31)

/-- Characters without those to be dropped at both ends. -/
def trim (drop : Char → Bool) (cs : List Char) : List Char :=
  ((cs.dropWhile drop).reverse.dropWhile drop).reverse

/-- The words of a text. -/
def words (cs : List Char) : List (List Char) :=
  let step (c : Char) (acc : List Char × List (List Char)) : List Char × List (List Char) :=
    if isBlank c then ([], if acc.1.isEmpty then acc.2 else acc.1 :: acc.2) else (c :: acc.1, acc.2)
  let (last, rest) := cs.foldr step ([], [])
  if last.isEmpty then rest else last :: rest

def lineEnds : List Nat := [10, 11, 12, 13, 28, 29, 30, 133, 8232, 8233]

def linesFrom : List Char → List Char → List (List Char)
  | [], acc => if acc.isEmpty then [] else [acc.reverse]
  | '\r' :: '\n' :: rest, acc => acc.reverse :: linesFrom rest []
  | c :: rest, acc =>
    if lineEnds.contains c.toNat then acc.reverse :: linesFrom rest []
    else linesFrom rest (c :: acc)

/-- The lines of a text, without the characters that end them. A carriage return and a line feed
together end one line, and a text that ends with a line end has no empty last line. -/
def lines (cs : List Char) : List (List Char) := linesFrom cs []

end PascalStack.Text
