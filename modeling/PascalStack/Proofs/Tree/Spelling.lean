import PascalStack.Analysis.Typing
import PascalStack.Code.Instruction
import PascalStack.Proofs.Token.Recasing
import PascalStack.Proofs.Tree.Respelling
import PascalStack.Simplify.Folding
import PascalStack.Text.LetterCase

/-!
# Spellings that make no difference

Operators are compared with the spellings that the phases know, the direction of a counted loop
with one word, and the words of types without regard to case. A respelling that respects these
comparisons is not noticed. The plainest of them gives the same spelling to all words that are
treated alike.
-/

namespace PascalStack

def knownOperators : List String :=
  ["+", "-", "*", "/", "=", "<>", "<", "<=", ">", ">=", "DIV", "MOD", "AND", "OR", "div", "mod",
    "and", "or"]

structure Respelling.Unnoticed (ρ : Respelling) : Prop extends ρ.Modest where
  name : ∀ x, ρ.name x = x
  operator : ∀ op, ρ.operator op = op ∨ op ∉ knownOperators ∧ ρ.operator op ∉ knownOperators
  direction : ∀ d, ρ.direction d = "to" ↔ d = "to"
  small : ∀ w, Text.lower (ρ.word w) = Text.lower w
  capital : ∀ w, Text.asciiUpper (ρ.word w) = Text.asciiUpper w

section Unknown

variable {op : String} (unknown : op ∉ knownOperators)

include unknown

theorem ofOperator?_unknown : Code.Operation.ofOperator? (.str op) = none := by
  unfold Code.Operation.ofOperator?
  split <;> first | rfl | (rename_i same; cases same; exact absurd (by decide) unknown)

theorem operatorTable_unknown : Analysis.operatorTable op = [] := by
  unfold Analysis.operatorTable
  split <;> first | rfl | exact absurd (by decide) unknown

theorem foldNumbers_unknown (whole a b : Tree) :
    Simplify.foldNumbers whole op a b = .ok none := by
  unfold Simplify.foldNumbers
  split <;> first | rfl | exact absurd (by decide) unknown

theorem foldBools_unknown (a b : Bool) : Simplify.foldBools op a b = none := by
  unfold Simplify.foldBools
  split <;> first | rfl | exact absurd (by decide) unknown

theorem foldPhrases_unknown (a b : Tree) : Simplify.foldPhrases op a b = .ok none := by
  unfold Simplify.foldPhrases
  split <;> first | rfl | exact absurd (by decide) unknown

theorem absorb_unknown (left right : Tree) :
    Simplify.absorb left op right = .binaryOp left (.str op) right := by
  unfold Simplify.absorb
  split <;> first | rfl | exact absurd (by decide) unknown

end Unknown

variable {c : Char} {cs : List Char} {w : String}

theorem lowerChar_ascii (h : c.toNat < 128) : Text.lowerChar c = [c.toLower] := by
  have all : ∀ n < 128, Text.lowerChar (Char.ofNat n) = [(Char.ofNat n).toLower] := by
    decide +kernel
  have own := all c.toNat h
  rwa [Char.ofNat_toNat] at own

theorem lowerFrom_ascii (h : ∀ c ∈ cs, c.toNat < 128) (before : List Char) :
    Text.lowerFrom before cs = Piece.small cs := by
  induction cs generalizing before with
  | nil => rfl
  | cons c cs ih =>
    rw [List.forall_mem_cons] at h
    have plain : (c == Text.capitalSigma) = false := by
      refine beq_eq_false_iff_ne.mpr fun same => ?_
      rw [same] at h
      exact absurd h.1 (by decide)
    rw [Text.lowerFrom, plain, Bool.false_and, Bool.false_and, if_neg Bool.false_ne_true,
      lowerChar_ascii h.1, ih h.2]
    rfl

theorem upperChar_ascii (h : c.toNat < 128) : Text.asciiCapitals.lookup c.toNat = none := by
  have all : ∀ n < 128, Text.asciiCapitals.lookup n = none := by decide +kernel
  exact all c.toNat h

theorem asciiUpper_ascii (h : ∀ c ∈ cs, c.toNat < 128) :
    Text.asciiUpper (String.ofList cs) = String.ofList (cs.map Char.toUpper) := by
  rw [Text.asciiUpper, String.toList_ofList]
  congr 1
  induction cs with
  | nil => rfl
  | cons c cs ih =>
    rw [List.forall_mem_cons] at h
    rw [List.flatMap_cons, ih h.2, upperChar_ascii h.1]
    rfl

def typeWords : List (List Char) :=
  ["integer".toList, "real".toList, "boolean".toList, "string".toList]

/-- The plainest respelling that is not noticed. An operator in small letters or in capitals stays
as it is and any other one is left out; a direction is one of two words; the word of a known type is
put in small letters. -/
def Respelling.plain : Respelling where
  operator op := if Piece.inSmall op.toList || Piece.inCapitals op.toList then op else ""
  direction d := if d = "to" then "to" else "downto"
  word w :=
    if typeWords.contains (Piece.small w.toList) then String.ofList (Piece.small w.toList) else w

theorem ascii_of_typeWord (known : Piece.small cs ∈ typeWords) : ∀ c ∈ cs, c.toNat < 128 := by
  have letters : (typeWords.all fun word => word.all Char.isAlpha) = true := by decide
  intro c member
  have letter := List.all_eq_true.mp (List.all_eq_true.mp letters _ known) _
    (List.mem_map_of_mem member)
  rw [Char.isAlpha_toLower_eq_isAlpha] at letter
  have := Piece.toNat_of_letter letter
  omega

theorem small_small (cs : List Char) : Piece.small (Piece.small cs) = Piece.small cs := by
  rw [Piece.small, Piece.small, List.map_map]
  exact List.map_congr_left fun c _ => Char.toLower_toLower_eq_toLower c

theorem capital_small (cs : List Char) :
    (Piece.small cs).map Char.toUpper = cs.map Char.toUpper := by
  rw [Piece.small, List.map_map]
  exact List.map_congr_left fun c _ => Char.toUpper_toLower_eq_toUpper c

theorem lower_word (known : Piece.small w.toList ∈ typeWords) :
    Text.lower (String.ofList (Piece.small w.toList)) = Text.lower w := by
  rw [Text.lower, Text.lower, String.toList_ofList, lowerFrom_ascii (ascii_of_typeWord known),
    lowerFrom_ascii (ascii_of_typeWord ((small_small _).symm ▸ known)), small_small]

theorem asciiUpper_word (known : Piece.small w.toList ∈ typeWords) :
    Text.asciiUpper (String.ofList (Piece.small w.toList)) = Text.asciiUpper w := by
  rw [asciiUpper_ascii (ascii_of_typeWord ((small_small _).symm ▸ known)), capital_small,
    ← asciiUpper_ascii (ascii_of_typeWord known), String.ofList_toList]

theorem unnoticed_plain : Respelling.plain.Unnoticed where
  routine := rfl
  phrase := rfl
  name _ := rfl
  operator op := by
    by_cases kept : (Piece.inSmall op.toList || Piece.inCapitals op.toList) = true
    · exact .inl (if_pos kept)
    · have known : ∀ op ∈ knownOperators,
          (Piece.inSmall op.toList || Piece.inCapitals op.toList) = true := by decide
      refine .inr ⟨fun member => kept (known op member), ?_⟩
      rw [show Respelling.plain.operator op = "" from if_neg kept]
      decide
  direction d := by
    by_cases up : d = "to"
    · exact iff_of_true (if_pos up) up
    · refine iff_of_false ?_ up
      rw [show Respelling.plain.direction d = "downto" from if_neg up]
      decide
  small w := by
    simp only [Respelling.plain, List.contains_iff_mem]
    split
    · next known => exact lower_word known
    · rfl
  capital w := by
    simp only [Respelling.plain, List.contains_iff_mem]
    split
    · next known => exact asciiUpper_word known
    · rfl

theorem plain_operator_eq {ds : List Char} (letters : Piece.small ds = Piece.small cs)
    (small : Piece.inSmall ds = Piece.inSmall cs)
    (capital : Piece.inCapitals ds = Piece.inCapitals cs) :
    Respelling.plain.operator (String.ofList ds) =
      Respelling.plain.operator (String.ofList cs) := by
  simp only [Respelling.plain, String.toList_ofList, small, capital, Bool.or_eq_true]
  split
  · next kept =>
    congr 1
    rcases kept with kept | kept
    · have own : Piece.small ds = ds := beq_iff_eq.mp (small.trans kept)
      rw [← own, letters]
      exact beq_iff_eq.mp kept
    · have own : ds.map Char.toUpper = ds := beq_iff_eq.mp (capital.trans kept)
      rw [← own, ← capital_small, letters, capital_small]
      exact beq_iff_eq.mp kept
  · rfl

end PascalStack
