import PascalStack.Proofs.Token.Recasing

/-!
# Every character of a text is accounted for

The pieces of a text make it up, each has the form of its kind, and a character stands alone only
where no form begins. What is read off the text are its lexemes, as tokens, and a message for each
character that stands alone, in the order of the pieces. A token or a message tells the offset of
its piece, and the line that the runs of newlines before it lead to: newlines inside comments and
strings are not counted.
-/

namespace PascalStack

open List

variable {kind : TokenKind} {text rest cs : List Char} {p : Piece} {ps before after : List Piece}

namespace Piece

section Nothing

variable {cs : List Char}

theorem findWord_ne_none {words : List (List Char × TokenKind)} {entry : List Char × TokenKind}
    (member : entry ∈ words) (front : entry.1 <+: small cs) : findWord words cs ≠ none := by
  intro none
  have missing := findSome?_eq_none_iff.mp none entry member
  exact stripWord_of_isPrefix front (Option.map_eq_none_iff.mp missing)

theorem not_isLexeme_of_byRule (nothing : byRule? cs = none) (lexeme : IsLexeme kind text) :
    ¬ text <+: cs := by
  rintro ⟨rest, rfl⟩
  simp only [byRule?, Option.orElse_eq_none] at nothing
  obtain ⟨noWord, noName, noNumber, noPhrase, -, -, -, noMark⟩ := nothing
  have noEntry (entry : List Char × TokenKind) (known : entry ∈ reservedWords ++ marks)
      (same : small text = entry.1) : False := by
    have front : entry.1 <+: small (text ++ rest) := by
      rw [← same, small_append]
      exact prefix_append _ _
    rcases mem_append.mp known with word | mark
    · exact findWord_ne_none word front noWord
    · exact findWord_ne_none mark front noMark
  cases kind with
  | ident =>
    obtain ⟨-, c, top, starts⟩ := lexeme
    obtain ⟨tail, rfl⟩ := head?_eq_some_iff.mp top
    rw [cons_append, name?, if_pos starts] at noName
    cases noName
  | number =>
    obtain ⟨whole, point, some, digits, -, rfl⟩ := lexeme
    obtain ⟨d, ds, rfl⟩ := exists_cons_of_ne_nil some
    rw [append_assoc, cons_append, number?,
      takeWhile_cons_of_pos (digits d mem_cons_self)] at noNumber
    cases noNumber
  | phrase =>
    obtain ⟨inner, missing, rfl⟩ := lexeme
    rw [cons_append, cons_append, append_assoc, phrase?,
      if_pos (beq_self_eq_true _), singleton_append, upTo_inner missing] at noPhrase
    cases noPhrase
  | _ => exact noEntry _ lexeme rfl

theorem not_isComment_of_byRule (nothing : byRule? cs = none) (comment : IsComment text) :
    ¬ text <+: cs := by
  rintro ⟨rest, rfl⟩
  simp only [byRule?, Option.orElse_eq_none] at nothing
  obtain ⟨-, -, -, -, noBrace, noStar, -, -⟩ := nothing
  rcases comment with ⟨inner, missing, rfl⟩ | ⟨inner, missing, rfl⟩
  · rw [cons_append, cons_append, append_assoc, braceComment?,
      singleton_append, upTo_inner missing] at noBrace
    cases noBrace
  · simp only [cons_append, append_assoc, nil_append, starComment?,
      upTo_inner missing] at noStar
    cases noStar

theorem not_written_of_illegal {q : Piece} (found : first? cs = some (p, rest))
    (illegal : p.kind = .illegal) (other : q.kind ≠ .illegal) (written : q.WellWritten) :
    ¬ q.text <+: cs := by
  have nothing := (starts_first found).nothing illegal
  have visible : ∀ c ∈ cs.head?, isSkipped c = false := by
    rintro c top
    obtain ⟨tail, rfl⟩ := head?_eq_some_iff.mp top
    by_contra skipped
    rw [first?, if_pos (by simpa using skipped)] at found
    cases found
    cases illegal
  rw [WellWritten] at written
  split at written
  · rintro ⟨tail, rfl⟩
    rcases written with blank | tab
    · rw [blank] at visible
      exact absurd (visible _ rfl) (by decide)
    · rw [tab] at visible
      exact absurd (visible _ rfl) (by decide)
  · rintro ⟨tail, rfl⟩
    obtain ⟨some, all⟩ := written
    obtain ⟨c, run, text⟩ := exists_cons_of_ne_nil some
    rw [text] at all nothing
    rw [all c mem_cons_self] at nothing
    simp only [byRule?, Option.orElse_eq_none] at nothing
    cases nothing.2.2.2.2.2.2.1
  · exact not_isComment_of_byRule nothing written
  · exact not_isLexeme_of_byRule nothing written
  · next same => exact absurd same other

end Nothing

def lineBreaks (ps : List Piece) : Nat :=
  ((ps.filter (·.kind == .newline)).flatMap Piece.text).length

def isEnclosed (p : Piece) : Bool := p.kind == .comment || p.kind == .lexeme .phrase

theorem lineBreaks_append (ps qs : List Piece) :
    lineBreaks (ps ++ qs) = lineBreaks ps + lineBreaks qs := by
  simp [lineBreaks]

theorem lineBreaks_singleton (p : Piece) :
    lineBreaks [p] = if p.kind = .newline then p.text.length else 0 := by
  by_cases newline : p.kind = .newline <;> simp [lineBreaks, newline]

theorem no_newline_of_first (found : first? cs = some (p, rest)) (newline : p.kind ≠ .newline)
    (enclosed : p.isEnclosed = false) : '\n' ∉ p.text := by
  have starts := starts_first found
  have written : p.WellWritten := starts.written
  have entries : ∀ entry ∈ reservedWords ++ marks, '\n' ∉ entry.1 := by decide
  intro member
  rw [WellWritten] at written
  split at written
  · rcases written with blank | tab
    · simp [blank] at member
    · simp [tab] at member
  · next same => exact newline same
  · next same => simp [isEnclosed, same] at enclosed
  · next kind same =>
    cases kind with
    | ident => exact absurd (written.1.chars _ member) (by decide)
    | number =>
      obtain ⟨whole, point, -, digits, form, text⟩ := written
      rw [text] at member
      rcases mem_append.mp member with digit | fraction
      · exact absurd (digits _ digit) (by decide)
      · rcases form with rfl | ⟨digits, -, all, rfl⟩
        · cases fraction
        · rcases mem_cons.mp fraction with point | digit
          · cases point
          · exact absurd (all _ digit) (by decide)
    | phrase => simp [isEnclosed, same] at enclosed
    | _ => exact entries _ written (mem_map_of_mem (f := Char.toLower) member)
  · next same =>
    -- A newline begins a run of newlines, so it does not stand alone.
    obtain ⟨c, text⟩ := written
    obtain rfl : '\n' = c := by simpa [text] using member
    refine not_written_of_illegal (q := ⟨.newline, ['\n']⟩) found same (by simp) ⟨by simp, by simp⟩ ?_
    rw [← starts.text, ← text]
    exact prefix_append _ _

theorem newline_of_last (found : first? cs = some (p, rest)) (last : p.text.getLast? = some '\n') :
    p.kind = .newline := by
  by_contra newline
  cases enclosed : p.isEnclosed with
  | false => exact no_newline_of_first found newline enclosed (mem_of_getLast? last)
  | true =>
    have written : p.WellWritten := (starts_first found).written
    simp only [isEnclosed, Bool.or_eq_true, beq_iff_eq] at enclosed
    rw [WellWritten] at written
    rcases enclosed with comment | phrase
    · rw [comment] at written
      rcases written with ⟨inner, -, text⟩ | ⟨inner, -, text⟩
      · rw [text, getLast?_append] at last
        cases last
      · rw [text, getLast?_append] at last
        cases last
    · rw [phrase] at written
      obtain ⟨inner, -, text⟩ := written
      rw [text, getLast?_append] at last
      cases last

theorem count_newlines (cutOff : ps ⊆ cut cs) :
    (ps.flatMap Piece.text).count '\n' =
      lineBreaks ps + ((ps.filter isEnclosed).flatMap Piece.text).count '\n' := by
  induction ps with
  | nil => rfl
  | cons p ps ih =>
    obtain ⟨own, later⟩ := cons_subset.mp cutOff
    obtain ⟨left, rest, found⟩ := exists_first_of_cut own
    rw [flatMap_cons, count_append, ih later, ← singleton_append,
      lineBreaks_append, lineBreaks_singleton]
    by_cases newline : p.kind = .newline
    · have all : ∀ c ∈ p.text, '\n' = c := by
        have written := written_of_cut own
        rw [WellWritten, newline] at written
        exact fun c member => (written.2 c member).symm
      have apart : p.isEnclosed = false := by simp [isEnclosed, newline]
      rw [if_pos newline, count_eq_length.mpr all, singleton_append,
        filter_cons_of_neg (by simp [apart])]
      omega
    · rw [if_neg newline, singleton_append]
      cases enclosed : p.isEnclosed with
      | true =>
        rw [filter_cons_of_pos enclosed, flatMap_cons, count_append]
        omega
      | false =>
        rw [filter_cons_of_neg (by simp [enclosed]),
          count_eq_zero.mpr (no_newline_of_first found newline enclosed)]
        omega

/-! ## The pieces in their places -/

/-- A piece of a text where it stands. It is not empty and has the form of its kind, newlines run as
far as they go on both sides, no other form begins where a character stands alone, and the newlines
before it that are counted are all but those inside comments and strings. -/
structure InPlace (before : List Piece) (p : Piece) (after : List Piece) : Prop where
  nonempty : p.text ≠ []
  written : p.WellWritten
  maximal : p.kind = .newline → (before.flatMap Piece.text).getLast? ≠ some '\n' ∧
    (after.flatMap Piece.text).head? ≠ some '\n'
  nothing : p.kind = .illegal → ∀ q : Piece, q.WellWritten → q.kind ≠ .illegal →
    ¬ q.text <+: p.text ++ after.flatMap Piece.text
  counted : (before.flatMap Piece.text).count '\n' =
    lineBreaks before + ((before.filter isEnclosed).flatMap Piece.text).count '\n'

theorem first_of_cut_eq (h : cut cs = before ++ p :: after) :
    first? (p.text ++ after.flatMap Piece.text) = some (p, after.flatMap Piece.text) := by
  induction cs using cut_induction generalizing before with
  | nil => cases before <;> cases h
  | cons cs q rest found ih =>
    rw [cut_of_first found] at h
    cases before with
    | nil =>
      obtain ⟨rfl, rfl⟩ := cons.inj h
      rw [cut_text, (starts_first found).text]
      exact found
    | cons _ before => exact ih (cons.inj h).2

theorem inPlace_of_cut (h : cut cs = before ++ p :: after) : InPlace before p after := by
  have found := first_of_cut_eq h
  have starts := starts_first found
  refine ⟨starts.nonempty, starts.written, fun newline => ⟨?_, ?_⟩,
    fun illegal q written other => not_written_of_illegal found illegal other written,
    @count_newlines cs _ (by simp [h])⟩
  · -- A piece before it that ends with a newline is a run of newlines that goes on.
    intro last
    rcases eq_nil_or_concat before with rfl | ⟨earlier, q, rfl⟩
    · cases last
    · have previous : first? (q.text ++ (p :: after).flatMap Piece.text) = some (q, _) :=
        @first_of_cut_eq cs _ earlier _ (by simpa using h)
      have some := (starts_first previous).nonempty
      have ends : q.text.getLast? = Option.some '\n' := by
        rw [concat_eq_append, flatMap_append, flatMap_singleton,
          getLast?_append_of_ne_nil _ some] at last
        exact last
      obtain ⟨c, run, text : p.text = c :: run⟩ := exists_cons_of_ne_nil starts.nonempty
      have written : p.WellWritten := starts.written
      rw [WellWritten, newline] at written
      refine (starts_first previous).stops (newline_of_last previous ends) c ?_
        (written.2 c (by simp [text]))
      simp [text]
  · exact fun next => starts.stops newline _ next rfl

def placed (ps : List Piece) : List (List Piece × Piece) := ps.inits.zip ps

def tokenAt (line : Nat) (place : List Piece × Piece) : Option Token :=
  match place.2.kind with
  | .lexeme kind => (valueOf kind place.2.text).toOption.map fun value =>
      ⟨kind, value, line + lineBreaks place.1, (place.1.flatMap Piece.text).length⟩
  | _ => none

/-- What is printed for a piece: the message about a character that stands alone, the echo of a
token. -/
def printedAt (echo : Token → String) (line : Nat) (place : List Piece × Piece) : String :=
  if place.2.kind = .illegal then illegalMessage place.2.text (line + lineBreaks place.1)
  else (tokenAt line place).elim "" echo

theorem exists_value (valued : kind = .number → (valueOf .number text).isOk = true) :
    ∃ value, valueOf kind text = .ok value := by
  cases kind with
  | number =>
    have ok := valued rfl
    cases value : valueOf .number text with
    | ok v => exact ⟨v, rfl⟩
    | error f =>
      rw [value] at ok
      cases ok
  | _ => exact ⟨_, rfl⟩

end Piece

open Piece

/-- What is read off pieces in their places, after a report: their tokens, what is printed for them,
and the line they lead to. -/
structure Reading.Tells (echo : Token → String) (line : Nat) (report : String)
    (places : List (List Piece × Piece)) (last : Nat) (r : Reading) : Prop where
  tokens : r.tokens = places.filterMap (tokenAt line)
  out : r.out = report ++ String.join (places.map (printedAt echo line))
  line : r.line = last
  fault : r.fault = none

theorem tells_of_pieces (echo : Token → String) (line : Nat)
    (valued : ∀ p ∈ ps, p.kind = .lexeme .number → (valueOf .number p.text).isOk = true)
    (start : Nat) (before : List Piece) (report : String) :
    (Reading.ofDeliveries echo start (Delivery.ofPieces (line + lineBreaks before)
      (before.flatMap Piece.text).length report ps)).Tells echo line report
        ((placed ps).map (Prod.map (before ++ ·) id)) (line + lineBreaks (before ++ ps)) := by
  induction ps generalizing start before report with
  | nil =>
    rw [append_nil]
    exact ⟨rfl, (String.append_empty).symm, rfl, rfl⟩
  | cons p ps ih =>
    rw [forall_mem_cons] at valued
    obtain ⟨own, later⟩ := valued
    have places : (placed (p :: ps)).map (Prod.map (before ++ ·) id) =
        (before, p) :: (placed ps).map (Prod.map ((before ++ [p]) ++ ·) id) := by
      simp [placed, zip_map_left, Prod.map]
    have offset : ((before ++ [p]).flatMap Piece.text).length =
        (before.flatMap Piece.text).length + p.text.length := by
      simp
    have lines : line + lineBreaks (before ++ [p]) =
        line + lineBreaks before + if p.kind = .newline then p.text.length else 0 := by
      rw [lineBreaks_append, lineBreaks_singleton, Nat.add_assoc]
    have next (start : Nat) (report : String) := ih later start (before ++ [p]) report
    rw [append_assoc, singleton_append, offset, lines] at next
    rw [places]
    obtain ⟨kind, text⟩ := p
    cases kind with
    | blank | comment | newline =>
      obtain ⟨tokens, out, line, fault⟩ := next start report
      exact ⟨tokens, out.trans (by simp [printedAt, tokenAt]), line, fault⟩
    | illegal =>
      obtain ⟨tokens, out, line, fault⟩ :=
        next start (report ++ illegalMessage text (line + lineBreaks before))
      exact ⟨tokens, out.trans (by simp [printedAt, String.append_assoc]), line, fault⟩
    | lexeme kind =>
      obtain ⟨value, ok⟩ := exists_value fun number => own (congrArg PieceKind.lexeme number)
      let t : Token := ⟨kind, value, line + lineBreaks before, (before.flatMap Piece.text).length⟩
      have token : tokenAt line (before, ⟨.lexeme kind, text⟩) = some t := by
        simp only [tokenAt, ok]
        rfl
      have printed : printedAt echo line (before, ⟨.lexeme kind, text⟩) = echo t := by
        rw [printedAt, if_neg nofun, token]
        rfl
      obtain ⟨tokens, out, last, fault⟩ := next (line + lineBreaks before) ""
      rw [Delivery.ofPieces, ok, Reading.ofDeliveries]
      refine ⟨?_, ?_, last, fault⟩
      · rw [filterMap_cons_some token]
        exact congrArg (t :: ·) tokens
      · rw [map_cons, String.join_cons, printed, ← String.append_assoc]
        exact congrArg (report ++ echo t ++ ·) (out.trans String.empty_append)

/-- The pieces of a text make it up, each in its place. If every number among them has a value,
reading ends without a fault: the tokens are the lexemes and the messages are those about the
characters that stand alone, in the order of the pieces, and each has the line and the offset to
which the pieces before it lead. -/
theorem reading_accounts_for_text (echo : Token → String) (line : Nat) (text : String)
    (valued : ∀ p ∈ cut text.toList, p.kind = .lexeme .number →
      (valueOf .number p.text).isOk = true) :
    let ps := cut text.toList
    let r := Reading.ofDeliveries echo line (Delivery.ofText line text)
    ps.flatMap Piece.text = text.toList ∧
      (∀ before p after, ps = before ++ p :: after → InPlace before p after) ∧
      r.tokens = (placed ps).filterMap (tokenAt line) ∧
      r.out = String.join ((placed ps).map (printedAt echo line)) ∧
      r.line = line + lineBreaks ps ∧ r.fault = none := by
  intro ps r
  have tells := tells_of_pieces echo line valued line [] ""
  rw [show (placed ps).map (Prod.map ([] ++ ·) id) = placed ps from map_id _] at tells
  obtain ⟨tokens, out, last, fault⟩ := tells
  refine ⟨cut_text _, fun _ _ _ => inPlace_of_cut, tokens, ?_, last, fault⟩
  exact out.trans String.empty_append

/-- A comment and a string that run over two lines, a character that starts nothing, and a number
after an empty line. -/
theorem comment_string_and_number_in_place :
    let text := "(*\n*)'\n'?\n\n 12"
    let r := Reading.ofText 5 text
    (∀ p ∈ cut text.toList, p.kind = .lexeme .number → (valueOf .number p.text).isOk = true) ∧
      r.tokens.map (fun t => (t.kind, t.line, t.offset)) = [(.phrase, 5, 5), (.number, 7, 12)] ∧
      r.out = illegalMessage ['?'] 5 ∧ r.line = 7 ∧ r.fault = none := by
  intro text r
  have valued : ∀ p ∈ cut text.toList, p.kind = .lexeme .number →
      (valueOf .number p.text).isOk = true := by decide +kernel
  obtain ⟨-, -, tokens, out, last, fault⟩ := reading_accounts_for_text (fun _ => "") 5 text valued
  refine ⟨valued, ?_, out.trans ?_, last.trans ?_, fault⟩
  · rw [show r.tokens = _ from tokens]
    decide +kernel
  · decide +kernel
  · decide +kernel

end PascalStack
