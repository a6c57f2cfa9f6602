import PascalStack.Proofs.Token.Layout

/-!
# How names and numerals are written

A name is made of letters, digits and underscores and has no reserved word at its front, since the
reserved words are taken off first. A numeral has no letter in it.
-/

namespace PascalStack.Piece

variable {cs : List Char} {p : Piece} {c : Char}

theorem isName_of_cut (cutOff : p ∈ cut cs) (lexeme : p.kind = .lexeme .ident) : IsName p.text :=
  ((written_of_cut cutOff).lexeme lexeme).1

theorem ascii_of_inName (h : inName c = true) : c.toNat < 128 := by
  simp only [inName, Char.isAlphanum, Bool.or_eq_true, beq_iff_eq] at h
  rcases h with (letter | digit) | rfl
  · have range := toNat_of_letter letter
    omega
  · simp only [Char.isDigit, ge_iff_le, Bool.and_eq_true, decide_eq_true_eq,
      UInt32.le_iff_toNat_le] at digit
    have bound : c.val.toNat ≤ 57 := digit.2
    exact Nat.lt_of_le_of_lt bound (by decide)
  · decide

theorem small_of_no_letter (h : ∀ c ∈ cs, c.isAlpha = false) : small cs = cs := by
  rw [small]
  conv_rhs => rw [← List.map_id cs]
  exact List.map_congr_left fun c member => toLower_of_not_letter (h c member)

theorem not_letter_of_digit (h : Text.isDecimalDigit c = true) : c.isAlpha = false := by
  cases letter : c.isAlpha with
  | false => rfl
  | true =>
    have apart : ∀ base ∈ Text.digitZeros, base = 48 ∨ 123 ≤ base := by decide
    have range := toNat_of_letter letter
    obtain ⟨d, value⟩ := Option.isSome_iff_exists.mp h
    obtain ⟨base, known, found⟩ := List.exists_of_findSome?_eq_some value
    have := apart base known
    rw [if_neg (by omega)] at found
    cases found

theorem no_letter_of_cut (cutOff : p ∈ cut cs) (lexeme : p.kind = .lexeme .number) :
    ∀ c ∈ p.text, c.isAlpha = false := by
  obtain ⟨whole, point, -, digits, form, text⟩ := (written_of_cut cutOff).lexeme lexeme
  rw [text]
  intro c member
  rcases List.mem_append.mp member with digit | fraction
  · exact not_letter_of_digit (digits c digit)
  · rcases form with rfl | ⟨digits, -, all, rfl⟩
    · cases fraction
    · rcases List.mem_cons.mp fraction with rfl | digit
      · rfl
      · exact not_letter_of_digit (all c digit)

end PascalStack.Piece
