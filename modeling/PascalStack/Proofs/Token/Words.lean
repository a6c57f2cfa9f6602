import PascalStack.Proofs.Token.Positions

/-!
# How words are split

The reserved words are tried in an order in which none comes before a longer one that it starts. So
a word is cut after the longest reserved word at its front, whatever comes next, and what comes next
is read as if it stood alone. Only a word with no reserved word at its front is a name.
-/

namespace PascalStack

open List

variable {cs rest : List Char} {first : Piece × List Char} {c : Char} {line : Nat}

namespace Piece

def IsPlainWord (text : List Char) : Prop :=
  ∃ c tail, text = c :: tail ∧ startsName c = true ∧ ∀ d ∈ tail, inName d = true

theorem IsPlainWord.chars {text : List Char} (h : IsPlainWord text) :
    ∀ c ∈ text, inName c = true := by
  obtain ⟨c, tail, rfl, starts, chars⟩ := h
  exact forall_mem_cons.mpr ⟨inName_of_startsName starts, chars⟩

/-- The longest reserved word that a text starts with. -/
structure LongestWord (entry : List Char × TokenKind) (text : List Char) : Prop where
  known : entry ∈ reservedWords
  front : entry.1 <+: small text
  longest : ∀ other ∈ reservedWords, other.1 <+: small text → other.1.length ≤ entry.1.length

theorem longer_words_first : reservedWords.Pairwise fun a b => ¬ a.1 <+: b.1 := by decide +kernel

theorem findWord_longest (h : findWord reservedWords cs = some first) :
    ∃ entry, LongestWord entry cs ∧
      first = (⟨.lexeme entry.2, cs.take entry.1.length⟩, cs.drop entry.1.length) := by
  obtain ⟨before, entry, later, split, found, missing⟩ := findSome?_eq_some_iff.mp h
  obtain ⟨parts, stripped, rfl⟩ := Option.map_eq_some_iff.mp found
  obtain ⟨text, word⟩ := stripWord_eq_some stripped
  have front : entry.1 <+: small cs := by
    rw [← text, small_append, word]
    exact prefix_append _ _
  refine ⟨entry, ⟨by simp [split], front, ?_⟩, ?_⟩
  · intro other member alsoFront
    have ordered := longer_words_first
    rw [split, pairwise_append, pairwise_cons] at ordered
    rw [split, mem_append, mem_cons] at member
    rcases member with earlier | rfl | follows
    · have none := Option.map_eq_none_iff.mp (missing other earlier)
      exact absurd none (stripWord_of_isPrefix alsoFront)
    · exact le_rfl
    · rcases prefix_or_prefix_of_prefix alsoFront front with shorter | longer
      · exact shorter.length_le
      · exact absurd longer (ordered.2.1.1 other follows)
  · have length : entry.1.length = parts.1.length := by rw [← word, length_small]
    rw [← text, length, take_left, drop_left]

theorem findWord_none_iff {words : List (List Char × TokenKind)} :
    findWord words cs = none ↔ ∀ entry ∈ words, ¬ entry.1 <+: small cs := by
  constructor
  · exact fun none entry member front => findWord_ne_none member front none
  · intro free
    refine findSome?_eq_none_iff.mpr fun entry member => Option.map_eq_none_iff.mpr ?_
    cases stripped : stripWord entry.1 cs with
    | none => rfl
    | some parts =>
      obtain ⟨text, word⟩ := stripWord_eq_some stripped
      refine absurd ?_ (free entry member)
      rw [← text, small_append, word]
      exact prefix_append _ _

theorem not_skipped_of_inName (h : inName c = true) : ¬ isSkipped c = true := by
  intro skipped
  simp only [isSkipped, Bool.or_eq_true, beq_iff_eq] at skipped
  rcases skipped with rfl | rfl
  · exact absurd h (by decide)
  · exact absurd h (by decide)

theorem first?_of_word (word : IsPlainWord cs) (found : findWord reservedWords cs = some first) :
    first? cs = some first := by
  obtain ⟨c, tail, rfl, starts, -⟩ := word
  rw [first?, if_neg (not_skipped_of_inName (inName_of_startsName starts)), byRule?,
    show reserved? (c :: tail) = some first from found]
  rfl

theorem first?_of_name (word : IsPlainWord cs) (free : findWord reservedWords cs = none) :
    first? cs = some (⟨.lexeme .ident, cs⟩, []) := by
  obtain ⟨c, tail, rfl, starts, chars⟩ := word
  have taken : tail.takeWhile inName = tail := takeWhile_eq_self_iff.mpr chars
  have dropped : tail.dropWhile inName = [] := dropWhile_eq_nil_iff.mpr chars
  rw [first?, if_neg (not_skipped_of_inName (inName_of_startsName starts)), byRule?,
    show reserved? (c :: tail) = none from free, name?, if_pos starts, taken, dropped]
  rfl

theorem isDecimalDigit_of_isDigit (h : c.isDigit = true) : Text.isDecimalDigit c = true := by
  simp only [Char.isDigit, ge_iff_le, Bool.and_eq_true, decide_eq_true_eq,
    UInt32.le_iff_toNat_le] at h
  have range : 48 ≤ c.toNat ∧ c.toNat < 48 + 10 := ⟨h.1, Nat.lt_succ_of_le h.2⟩
  rw [Text.isDecimalDigit, Text.digitValue?, Text.digitZeros, findSome?_cons, if_pos range]
  rfl

theorem lexeme_of_inName {p : Piece} (h : inName c = true)
    (found : first? (c :: cs) = some (p, rest)) : ∃ kind, p.kind = .lexeme kind := by
  have starts := starts_first found
  have written : p.WellWritten := starts.written
  obtain ⟨d, ds, text : p.text = d :: ds⟩ := exists_cons_of_ne_nil starts.nonempty
  obtain rfl : d = c := by
    have whole : p.text ++ rest = c :: cs := starts.text
    rw [text] at whole
    exact (cons.inj whole).1
  rw [WellWritten, text] at written
  split at written
  · rcases written with blank | tab
    · cases blank
      cases h
    · cases tab
      cases h
  · cases written.2 d mem_cons_self
    cases h
  · rcases written with ⟨inner, -, comment⟩ | ⟨inner, -, comment⟩
    · cases comment
      cases h
    · cases comment
      cases h
  · next kind same => exact ⟨kind, same⟩
  · next illegal =>
    have nothing := starts.nothing illegal
    simp only [byRule?, Option.orElse_eq_none] at nothing
    obtain ⟨-, noName, noNumber, -⟩ := nothing
    simp only [inName, Char.isAlphanum, Bool.or_eq_true] at h
    rcases h with (letter | digit) | line
    · rw [name?, if_pos (by rw [startsName, letter, Bool.true_or])] at noName
      cases noName
    · rw [number?, takeWhile_cons_of_pos (isDecimalDigit_of_isDigit digit)] at noNumber
      cases noNumber
    · rw [name?, if_pos (by rw [startsName, line, Bool.or_true])] at noName
      cases noName

end Piece

def Token.shifted (n : Nat) (t : Token) : Token := { t with offset := t.offset + n }

theorem reading_shifted (n start start' : Nat) (ps : List Piece) (line offset : Nat)
    (report : String) :
    let r := Reading.ofDeliveries (fun _ => "") start' (Delivery.ofPieces line offset report ps)
    Reading.ofDeliveries (fun _ => "") start (Delivery.ofPieces line (offset + n) report ps) =
      { r with tokens := r.tokens.map (Token.shifted n) } := by
  induction ps generalizing start start' line offset report with
  | nil => rfl
  | cons p ps ih =>
    obtain ⟨kind, text⟩ := p
    have further : offset + n + text.length = offset + text.length + n := Nat.add_right_comm ..
    cases kind with
    | blank | comment | newline | illegal =>
      rw [Delivery.ofPieces, Delivery.ofPieces, further]
      exact ih ..
    | lexeme kind =>
      rw [Delivery.ofPieces, Delivery.ofPieces, further]
      cases Piece.valueOf kind text with
      | error f => rfl
      | ok value =>
        rw [Reading.ofDeliveries, Reading.ofDeliveries, ih line line]
        rfl

theorem reading_of_first {kind : TokenKind} {text : List Char} {value : Tree}
    (found : Piece.first? cs = some (⟨.lexeme kind, text⟩, rest))
    (valued : Piece.valueOf kind text = .ok value) :
    let s := Reading.ofText line (String.ofList rest)
    Reading.ofText line (String.ofList cs) =
      ⟨⟨kind, value, line, 0⟩ :: s.tokens.map (Token.shifted text.length), s.line, s.out,
        s.fault⟩ := by
  simp only [Reading.ofText, Delivery.ofText, String.toList_ofList]
  rw [Piece.cut_of_first found, Delivery.ofPieces, valued, Reading.ofDeliveries,
    reading_shifted text.length line line]
  simp

theorem reading_of_rest (chars : ∀ c ∈ cs, Piece.inName c = true)
    (none : (Reading.ofText line (String.ofList cs)).tokens = [])
    (sound : (Reading.ofText line (String.ofList cs)).fault = .none) : cs = [] := by
  cases cs with
  | nil => rfl
  | cons c cs =>
    obtain ⟨⟨⟨pieceKind, text⟩, rest⟩, found⟩ := Piece.exists_first (cons_ne_nil c cs)
    obtain ⟨kind, rfl : pieceKind = _⟩ :=
      Piece.lexeme_of_inName (chars c mem_cons_self) found
    cases valued : Piece.valueOf kind text with
    | ok value =>
      rw [reading_of_first found valued] at none
      cases none
    | error f =>
      rw [Reading.ofText, Delivery.ofText, String.toList_ofList, Piece.cut_of_first found,
        Delivery.ofPieces, valued] at sound
      cases sound

open Piece

/-- A word that stands alone is one token exactly if it is a reserved word, in either case, or has
none at its front, and then it is a name. A word with reserved words at its front gives the longest
of them, and then what the rest of the word gives. -/
theorem word_split_at_longest (line : Nat) (w : String) (word : IsPlainWord w.toList) :
    let r := Reading.ofText line w
    (r.tokens.length = 1 ∧ r.fault = none ↔
      (∃ entry ∈ reservedWords, entry.1 = small w.toList) ∨
        ∀ entry ∈ reservedWords, ¬ entry.1 <+: small w.toList) ∧
    ((∀ entry ∈ reservedWords, ¬ entry.1 <+: small w.toList) →
      r = ⟨[⟨.ident, .str w, line, 0⟩], line, "", none⟩) ∧
    ((∃ entry ∈ reservedWords, entry.1 <+: small w.toList) →
      ∃ entry value, LongestWord entry w.toList ∧
        valueOf entry.2 (w.toList.take entry.1.length) = .ok value ∧
        let s := Reading.ofText line (String.ofList (w.toList.drop entry.1.length))
        r = ⟨⟨entry.2, value, line, 0⟩ :: s.tokens.map (Token.shifted entry.1.length), s.line,
          s.out, s.fault⟩) := by
  obtain ⟨cs, rfl⟩ : ∃ cs, w = String.ofList cs := ⟨w.toList, String.ofList_toList.symm⟩
  rw [String.toList_ofList] at word ⊢
  intro r
  have asName (free : ∀ entry ∈ reservedWords, ¬ entry.1 <+: small cs) :
      r = ⟨[⟨.ident, .str (String.ofList cs), line, 0⟩], line, "", none⟩ :=
    reading_of_first (first?_of_name word (findWord_none_iff.mpr free)) rfl
  have asWord (some : ∃ entry ∈ reservedWords, entry.1 <+: small cs) :
      ∃ entry value, LongestWord entry cs ∧
        valueOf entry.2 (cs.take entry.1.length) = .ok value ∧
        let s := Reading.ofText line (String.ofList (cs.drop entry.1.length))
        r = ⟨⟨entry.2, value, line, 0⟩ :: s.tokens.map (Token.shifted entry.1.length), s.line,
          s.out, s.fault⟩ := by
    have notNumber : ∀ entry ∈ reservedWords, entry.2 ≠ .number := by decide
    obtain ⟨entry, member, front⟩ := some
    obtain ⟨first, found⟩ := Option.ne_none_iff_exists'.mp (findWord_ne_none member front)
    obtain ⟨entry, longest, rfl⟩ := findWord_longest found
    obtain ⟨value, valued⟩ := @exists_value _ (cs.take entry.1.length)
      fun number => absurd number (notNumber entry longest.known)
    have length : (cs.take entry.1.length).length = entry.1.length := by
      have short := longest.front.length_le
      rw [length_small] at short
      rw [length_take, Nat.min_eq_left short]
    have reading := @reading_of_first _ _ line _ _ _ (first?_of_word word found) valued
    rw [length] at reading
    exact ⟨entry, value, longest, valued, reading⟩
  refine ⟨⟨?_, ?_⟩, asName, asWord⟩
  · rintro ⟨single, sound⟩
    by_cases some : ∃ entry ∈ reservedWords, entry.1 <+: small cs
    · obtain ⟨entry, value, longest, -, reading⟩ := asWord some
      rw [reading] at single sound
      have chars : ∀ c ∈ cs.drop entry.1.length, inName c = true :=
        fun c member => word.chars c (mem_of_mem_drop member)
      have nothing := reading_of_rest chars (by simpa using single) sound
      refine .inl ⟨entry, longest.known, longest.front.eq_of_length ?_⟩
      have short := longest.front.length_le
      have long := drop_eq_nil_iff.mp nothing
      rw [length_small] at short ⊢
      omega
    · refine .inr fun entry member front => some ⟨entry, member, front⟩
  · rintro (⟨same, member, equal⟩ | free)
    · obtain ⟨entry, value, longest, -, reading⟩ :=
        asWord ⟨same, member, equal ▸ prefix_rfl⟩
      have long := longest.longest same member (equal ▸ prefix_rfl)
      rw [equal, length_small] at long
      rw [reading, drop_eq_nil_of_le long]
      exact ⟨rfl, rfl⟩
    · rw [asName free]
      exact ⟨rfl, rfl⟩

/-- A word with two reserved words at its front, of which the longer one is taken. -/
theorem downtown_split_at_longest :
    IsPlainWord "downtown".toList ∧
      ¬ ((Reading.ofText 1 "downtown").tokens.length = 1 ∧
        (Reading.ofText 1 "downtown").fault = none) ∧
      ∃ entry value, LongestWord entry "downtown".toList ∧
        (Reading.ofText 1 "downtown").tokens.head? = some ⟨entry.2, value, 1, 0⟩ := by
  have word : IsPlainWord "downtown".toList :=
    ⟨'d', "owntown".toList, rfl, by decide, by simp [inName]⟩
  obtain ⟨single, -, split⟩ := word_split_at_longest 1 "downtown" word
  obtain ⟨entry, value, longest, -, reading⟩ :=
    split ⟨("do".toList, .kwDo), by decide, by decide⟩
  refine ⟨word, fun one => ?_, entry, value, longest, ?_⟩
  · exact absurd (single.mp one) (by decide +kernel)
  · rw [reading]
    rfl

end PascalStack
