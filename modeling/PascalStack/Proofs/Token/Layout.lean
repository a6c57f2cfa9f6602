import PascalStack.Proofs.Token.Recasing

/-!
# Texts that differ in what stands between their lexemes

A lexeme is cut off a text whatever follows it in the text, as long as this is spacing or a comment,
or begins as it did: no rule that comes before the one that took it would take more. So the lexemes
of a text, with spacing between them, are cut into the same lexemes again.
-/

namespace PascalStack

open List

namespace Piece

def isSpacing (c : Char) : Bool := isSkipped c || c == '\n'

def Spaced (cs : List Char) : Prop := ∀ c ∈ cs.head?, isSpacing c = true

variable {c : Char} {cs word rest w : List Char} {test : Char → Bool}
  {words : List (List Char × TokenKind)} {kind : TokenKind} {p : Piece}

theorem spacing_cases (h : isSpacing c = true) : c = ' ' ∨ c = '\t' ∨ c = '\n' := by
  simpa [isSpacing, isSkipped, or_assoc] using h

/-- Spacing, and what comments begin with. -/
def breakers : List Char := [' ', '\t', '\n', '\x7b', '(']

def Breaks (cs : List Char) : Prop := ∀ c ∈ cs.head?, c ∈ breakers

theorem Spaced.breaks (h : Spaced cs) : Breaks cs := by
  intro c top
  rcases spacing_cases (h c top) with rfl | rfl | rfl <;> decide

section Rules

/- A lexeme `l` is taken off a text in which `r` and `t` follow. What is shown is that it is taken
off as well if `d` stands in the place of `t`. -/

variable {l r t d : List Char} {p : Piece}

theorem Breaks.stops (breaks : Breaks d) (none : breakers.all (!test ·) = true) :
    ∀ c ∈ d.head?, test c = false := by
  intro c top
  simpa using all_eq_true.mp none c (breaks c top)

theorem run_stops {run : List Char} (stops : ∀ c ∈ d.head?, test c = false)
    (h : (run ++ (r ++ t)).takeWhile test = run) :
    (run ++ (r ++ d)).takeWhile test = run ∧ (run ++ (r ++ d)).dropWhile test = r ++ d := by
  have all : ∀ c ∈ run, test c = true := by
    intro c member
    rw [← h] at member
    exact mem_takeWhile_imp member
  rw [takeWhile_append_of_pos all, append_right_eq_self] at h
  rw [takeWhile_append_of_pos all, dropWhile_append_of_pos all, append_right_eq_self]
  cases r with
  | cons c r =>
    rw [cons_append, takeWhile_cons] at h
    split at h
    · cases h
    · next other => simp [other]
  | nil =>
    cases d with
    | nil => simp
    | cons c d => simp [stops c rfl]

theorem stripWord_append {parts : List Char × List Char} (h : stripWord word cs = some parts)
    (more : List Char) : stripWord word (cs ++ more) = some (parts.1, parts.2 ++ more) := by
  fun_induction stripWord word cs generalizing parts with
  | case1 cs =>
    cases h
    rfl
  | case2 => cases h
  | case3 w ws c cs letter ih =>
    obtain ⟨tail, found, rfl⟩ := Option.map_eq_some_iff.mp h
    rw [cons_append, stripWord, if_pos letter, ih found]
    rfl
  | case4 => cases h

theorem stripWord_breaks (free : ∀ w ∈ word, w ∉ breakers) (breaks : Breaks d)
    (h : stripWord word cs = none) : stripWord word (cs ++ d) = none := by
  fun_induction stripWord word cs with
  | case1 => cases h
  | case2 w ws =>
    cases d with
    | nil => rfl
    | cons c d =>
      rw [nil_append, stripWord, if_neg]
      intro letter
      have small : (breakers.all fun c => c.toLower == c) = true := rfl
      have own := beq_iff_eq.mp (all_eq_true.mp small c (breaks c rfl))
      have same : c = w := own.symm.trans (beq_iff_eq.mp letter)
      exact free w mem_cons_self (same ▸ breaks c rfl)
  | case3 w ws c cs letter ih =>
    rw [cons_append, stripWord, if_pos letter,
      ih (fun w member => free w (mem_cons_of_mem _ member)) (Option.map_eq_none_iff.mp h)]
    rfl
  | case4 w ws c cs other => rw [cons_append, stripWord, if_neg other]

theorem stripWord_self (cs more : List Char) :
    stripWord (small cs) (cs ++ more) = some (cs, more) := by
  induction cs with
  | nil => rfl
  | cons c cs ih =>
    rw [small_cons, cons_append, stripWord, if_pos (beq_self_eq_true _), ih]
    rfl

theorem words_free : ∀ entry ∈ reservedWords ++ marks, ∀ w ∈ entry.1.tail, w ∉ breakers := by
  have checked : ((reservedWords ++ marks).all fun entry =>
      entry.1.tail.all fun w => !breakers.contains w) = true := by decide +kernel
  intro entry known w member
  have each := all_eq_true.mp (all_eq_true.mp checked entry known) w member
  simpa using each

theorem findWord_none_breaks (known : words ⊆ reservedWords ++ marks) (breaks : Breaks d)
    (some : cs ≠ []) (h : findWord words (cs ++ t) = none) : findWord words (cs ++ d) = none := by
  rw [findWord, findSome?_eq_none_iff] at h ⊢
  intro entry member
  have missing : stripWord entry.1 cs = none := by
    cases found : stripWord entry.1 cs with
    | none => rfl
    | some parts =>
      have more := h entry member
      rw [stripWord_append found] at more
      cases more
  -- The first letter of the word is compared with one of the text: a bracket is a mark itself.
  have free := words_free entry (known member)
  obtain ⟨c, cs, rfl⟩ := exists_cons_of_ne_nil some
  refine Option.map_eq_none_iff.mpr ?_
  cases word : entry.1 with
  | nil =>
    rw [word] at missing
    cases missing
  | cons w ws =>
    rw [word] at missing free
    rw [stripWord] at missing
    rw [cons_append, stripWord]
    split at missing
    · have none : stripWord ws (cs ++ d) = none :=
        stripWord_breaks free breaks (Option.map_eq_none_iff.mp missing)
      rw [none, Option.map_none, ite_self]
    · next other => exact if_neg other

theorem findWord_breaks {words : List (List Char × TokenKind)}
    (known : words ⊆ reservedWords ++ marks) (breaks : Breaks d) (nonempty : l ≠ [])
    (h : findWord words (l ++ (r ++ t)) = some (p, r ++ t)) (text : p.text = l) :
    findWord words (l ++ (r ++ d)) = some (p, r ++ d) := by
  obtain ⟨before, entry, later, rfl, found, missing⟩ := findSome?_eq_some_iff.mp h
  obtain ⟨parts, stripped, same⟩ := Option.map_eq_some_iff.mp found
  obtain ⟨rfl, rest⟩ := Prod.mk.inj same
  rw [← append_assoc] at missing
  have none_before : findWord before (l ++ r ++ d) = none :=
    findWord_none_breaks (fun entry member => known (mem_append_left _ member)) breaks
      (by simp [nonempty]) (findSome?_eq_none_iff.mpr missing)
  rw [append_assoc] at none_before
  have word : entry.1 = small l := by
    rw [← text]
    exact (stripWord_eq_some stripped).2.symm
  refine findSome?_eq_some_iff.mpr ⟨before, entry, later, rfl, ?_,
    findSome?_eq_none_iff.mp none_before⟩
  rw [word, stripWord_self, ← text]
  rfl

theorem name?_none (more : List Char) (h : name? (c :: cs) = none) : name? (c :: more) = none := by
  rw [name?] at h ⊢
  split at h
  · cases h
  · next other => exact if_neg other

theorem name?_breaks (breaks : Breaks d) (h : name? (l ++ (r ++ t)) = some (p, r ++ t))
    (text : p.text = l) : name? (l ++ (r ++ d)) = some (p, r ++ d) := by
  obtain ⟨c, tail, _, starts, -, -, same⟩ := name?_eq_some h
  cases same
  rw [← text, cons_append, name?, if_pos starts] at h ⊢
  obtain ⟨taken, dropped⟩ := run_stops (breaks.stops rfl)
    (cons.inj (Piece.mk.inj (Prod.mk.inj (Option.some.inj h)).1).2).2
  rw [taken, dropped]

theorem number?_none (more : List Char) (h : number? (c :: cs) = none) :
    number? (c :: more) = none := by
  have other : Text.isDecimalDigit c = false := by
    cases digit : Text.isDecimalDigit c with
    | false => rfl
    | true =>
      rw [number?, takeWhile_cons_of_pos digit] at h
      cases h
  rw [number?, takeWhile_cons_of_neg (by simp [other])]

theorem fraction_breaks {point : List Char} (breaks : Breaks d)
    (h : fraction (point ++ (r ++ t)) = (point, r ++ t)) :
    fraction (point ++ (r ++ d)) = (point, r ++ d) := by
  cases point with
  | cons c digits =>
    by_cases mark : c = '.'
    · subst mark
      rw [cons_append, fraction_point] at h ⊢
      split at h
      · cases h
      · next some =>
        have taken := (cons.inj (Prod.mk.inj h).1).2
        obtain ⟨again, dropped⟩ := run_stops (breaks.stops rfl) taken
        rw [again, dropped, if_neg (taken ▸ some)]
    · rw [cons_append, fraction_other _ mark] at h
      cases h
  | nil =>
    cases r with
    | cons c r =>
      by_cases mark : c = '.'
      · subst mark
        rw [nil_append, cons_append, fraction_point] at h ⊢
        split at h
        · next none =>
          have none' : (r ++ d).takeWhile Text.isDecimalDigit = [] :=
            (@run_stops _ r t d [] (breaks.stops rfl) none).1
          rw [if_pos none']
        · cases h
      · exact fraction_other _ mark
    | nil =>
      cases d with
      | nil => rfl
      | cons c d =>
        refine fraction_other _ ?_
        rintro rfl
        exact absurd (breaks '.' rfl) (by decide)

theorem number?_breaks (breaks : Breaks d) (h : number? (l ++ (r ++ t)) = some (p, r ++ t))
    (text : p.text = l) : number? (l ++ (r ++ d)) = some (p, r ++ d) := by
  obtain ⟨whole, point, taken, split, same⟩ : ∃ whole point,
      (l ++ (r ++ t)).takeWhile Text.isDecimalDigit = whole ∧
      fraction ((l ++ (r ++ t)).dropWhile Text.isDecimalDigit) = (point, r ++ t) ∧
      whole ≠ [] ∧ p = ⟨.lexeme .number, whole ++ point⟩ := by
    rw [number?] at h
    split at h
    · cases h
    · next some =>
      obtain ⟨rfl, rest⟩ := Prod.mk.inj (Option.some.inj h)
      exact ⟨_, _, rfl, Prod.ext rfl rest, some, rfl⟩
  obtain ⟨some, rfl⟩ := same
  obtain rfl : whole ++ point = l := text
  have assoc (more : List Char) :
      whole ++ point ++ (r ++ more) = whole ++ (point ++ r ++ more) := by
    simp only [append_assoc]
  rw [assoc] at taken split ⊢
  have dropped :
      (whole ++ (point ++ r ++ t)).dropWhile Text.isDecimalDigit = point ++ (r ++ t) := by
    have whole_text := takeWhile_append_dropWhile (p := Text.isDecimalDigit)
      (l := whole ++ (point ++ r ++ t))
    rw [taken, append_cancel_left_eq] at whole_text
    rw [whole_text, append_assoc]
  rw [dropped] at split
  obtain ⟨taken', dropped'⟩ := run_stops (breaks.stops rfl) taken
  obtain ⟨c, cs, rfl⟩ := exists_cons_of_ne_nil some
  rw [number?, taken', dropped', append_assoc, fraction_breaks breaks split]

theorem phrase?_anywhere (after : List Char) (h : phrase? (l ++ rest) = some (p, rest))
    (text : p.text = l) : phrase? (l ++ after) = some (p, after) := by
  obtain ⟨inner, _, missing, -, same⟩ := phrase?_eq_some h
  cases same
  have whole : l ++ after = Text.singleQuote :: (inner ++ Text.singleQuote :: after) := by
    simp [← text]
  rw [whole, phrase?, if_pos (beq_self_eq_true _), upTo_inner missing]
  rfl

def standsApart : List Char → Bool
  | [] => false
  | c :: cs => !c.isAlpha && c != Text.singleQuote && c != '\x7b' && c != '\n' &&
    (c != '(' || cs.isEmpty)

structure Bare (cs : List Char) : Prop where
  phrase : phrase? cs = none
  brace : braceComment? cs = none
  star : starComment? cs = none
  newlines : newlines? cs = none

theorem bare_of_mark {after : List Char} (unopened : l = ['('] → after.head? ≠ some '*')
    (h : findWord marks (l ++ rest) = some (p, rest)) (text : p.text = l) : Bare (l ++ after) := by
  have checked : ∀ entry ∈ marks, standsApart entry.1 = true := by decide
  obtain ⟨kind, lexeme, _, member, -, same⟩ := findWord_eq_some h
  cases same
  obtain rfl : lexeme = l := text
  have apart := checked _ member
  cases lexeme with
  | nil => cases apart
  | cons c l =>
    simp only [small_cons, standsApart, Bool.and_eq_true, Bool.not_eq_true', bne_iff_ne,
      Char.isAlpha_toLower_eq_isAlpha] at apart
    obtain ⟨⟨⟨⟨letter, quote⟩, brace⟩, line⟩, bracket⟩ := apart
    rw [toLower_of_not_letter letter] at quote brace line bracket
    refine ⟨?_, ?_, ?_, ?_⟩
    · rw [cons_append, phrase?, if_neg fun same => quote (beq_iff_eq.mp same)]
    · rw [cons_append, braceComment?]
      exact fun _ same => brace (cons.inj same).1
    · rw [cons_append, starComment?]
      intro _ same
      obtain ⟨rfl, tail⟩ := cons.inj same
      obtain rfl : l = [] := by simpa [small] using bracket
      rw [nil_append] at tail
      exact unopened rfl (congrArg head? tail)
    · rw [cons_append, newlines?, takeWhile_cons_of_neg (by simpa using line)]

theorem byRule?_breaks (breaks : Breaks d) (unopened : l = ['('] → (r ++ d).head? ≠ some '*')
    (h : byRule? (l ++ (r ++ t)) = some (p, r ++ t)) (text : p.text = l) (nonempty : l ≠ [])
    (lexeme : p.kind = .lexeme kind) : byRule? (l ++ (r ++ d)) = some (p, r ++ d) := by
  have orElse {x y : Option (Piece × List Char)} (found : (x <|> y) = some (p, r ++ t)) :
      x = some (p, r ++ t) ∨ x = none ∧ y = some (p, r ++ t) := by
    cases x with
    | none => exact .inr ⟨rfl, found⟩
    | some _ => exact .inl found
  have nextTo {x y : Option (Piece × List Char)} (missing : x = none)
      (found : y = some (p, r ++ d)) : (x <|> y) = some (p, r ++ d) := by
    rw [missing, found]
    rfl
  have here {x y : Option (Piece × List Char)} (found : x = some (p, r ++ d)) :
      (x <|> y) = some (p, r ++ d) := by
    rw [found]
    rfl
  have words : reservedWords ⊆ reservedWords ++ marks := subset_append_left _ _
  obtain ⟨c, l', rfl⟩ := exists_cons_of_ne_nil nonempty
  rcases orElse h with word | ⟨noWord, h⟩
  · exact here (findWord_breaks words breaks nonempty word text)
  have noWord : findWord reservedWords (c :: l' ++ (r ++ d)) = none := by
    rw [← append_assoc] at noWord ⊢
    exact findWord_none_breaks words breaks (cons_ne_nil _ _) noWord
  refine nextTo noWord ?_
  rcases orElse h with name | ⟨noName, h⟩
  · exact here (name?_breaks breaks name text)
  refine nextTo (name?_none _ noName) ?_
  rcases orElse h with number | ⟨noNumber, h⟩
  · exact here (number?_breaks breaks number text)
  refine nextTo (number?_none _ noNumber) ?_
  rcases orElse h with phrase | ⟨-, h⟩
  · exact here (phrase?_anywhere _ phrase text)
  rcases orElse h with comment | ⟨-, h⟩
  · obtain ⟨_, _, -, -, same⟩ := braceComment?_eq_some comment
    cases same
    cases lexeme
  rcases orElse h with comment | ⟨-, h⟩
  · obtain ⟨_, _, -, -, same⟩ := starComment?_eq_some comment
    cases same
    cases lexeme
  rcases orElse h with newlines | ⟨-, mark⟩
  · obtain ⟨_, _, -, -, -, -, same⟩ := newlines?_eq_some newlines
    cases same
    cases lexeme
  obtain ⟨noPhrase, noBrace, noStar, noNewlines⟩ := bare_of_mark unopened mark text
  refine nextTo noPhrase (nextTo noBrace (nextTo noStar (nextTo noNewlines ?_)))
  exact findWord_breaks (subset_append_right _ _) breaks nonempty mark text

theorem first?_breaks (breaks : Breaks d) (unopened : p.text = ['('] → (r ++ d).head? ≠ some '*')
    (h : first? cs = some (p, r ++ t)) (lexeme : p.kind = .lexeme kind) :
    first? (p.text ++ (r ++ d)) = some (p, r ++ d) := by
  obtain ⟨text, nonempty, -⟩ := starts_first h
  obtain ⟨c, l, text_eq⟩ := exists_cons_of_ne_nil nonempty
  simp only at text
  rw [← text, text_eq, cons_append, first?] at h
  split at h
  · obtain ⟨rfl, -⟩ := Prod.mk.inj (Option.some.inj h)
    cases lexeme
  · next visible =>
    have found : byRule? (c :: l ++ (r ++ t)) = some (p, r ++ t) := by
      cases taken : byRule? (c :: l ++ (r ++ t)) with
      | none =>
        rw [cons_append] at taken
        rw [taken] at h
        obtain ⟨rfl, -⟩ := Prod.mk.inj (Option.some.inj h)
        cases lexeme
      | some first =>
        rw [cons_append] at taken
        rw [taken] at h
        exact h
    rw [text_eq, cons_append, first?, if_neg visible, ← cons_append,
      byRule?_breaks breaks (text_eq ▸ unopened) found text_eq (cons_ne_nil _ _) lexeme]
    rfl

end Rules

/-! ## Cutting -/

def isLexeme (p : Piece) : Bool :=
  match p.kind with
  | .lexeme _ => true
  | _ => false

def isVisible (p : Piece) : Bool :=
  match p.kind with
  | .lexeme _ | .illegal => true
  | _ => false

def visible (cs : List Char) : List Piece := (cut cs).filter isVisible

theorem visible_of_hidden (h : first? cs = some (p, rest)) (hidden : p.isVisible = false) :
    visible cs = visible rest := by
  rw [visible, cut_of_first h, filter_cons_of_neg (by simp [hidden])]
  rfl

theorem visible_of_lexeme (h : first? cs = some (p, rest)) (lexeme : p.isLexeme = true) :
    visible cs = p :: visible rest := by
  have shown : p.isVisible = true := by
    revert lexeme
    rw [isLexeme, isVisible]
    cases p.kind <;> simp
  rw [visible, cut_of_first h, filter_cons_of_pos shown]
  rfl

theorem first?_newline (cs : List Char) :
    first? ('\n' :: cs) =
      some (⟨.newline, '\n' :: cs.takeWhile (· == '\n')⟩, cs.dropWhile (· == '\n')) := by
  rfl

theorem visible_dropWhile (cs : List Char) : visible (cs.dropWhile (· == '\n')) = visible cs := by
  cases cs with
  | nil => rfl
  | cons c cs =>
    by_cases newline : c = '\n'
    · rw [newline, dropWhile_cons_of_pos (by decide)]
      exact (visible_of_hidden (first?_newline cs) rfl).symm
    · rw [dropWhile_cons_of_neg (by simpa using newline)]

theorem visible_spacing (spacing : ∀ c ∈ w, isSpacing c = true) (cs : List Char) :
    visible (w ++ cs) = visible cs := by
  induction w with
  | nil => rfl
  | cons c w ih =>
    rw [forall_mem_cons] at spacing
    rw [← ih spacing.2, cons_append]
    rcases spacing_cases spacing.1 with rfl | rfl | rfl
    · exact visible_of_hidden (p := ⟨.blank, [' ']⟩) rfl rfl
    · exact visible_of_hidden (p := ⟨.blank, ['\t']⟩) rfl rfl
    · rw [visible_of_hidden (first?_newline _) rfl, visible_dropWhile]

/-- A text in which some texts stand in order, with spacing between each two. -/
inductive LaidOut : List (List Char) → List Char → Prop
  | nil : LaidOut [] []
  | single (l : List Char) : LaidOut [l] l
  | cons (l : List Char) {w next cs : List Char} {ls : List (List Char)} :
      w ≠ [] → (∀ c ∈ w, isSpacing c = true) → LaidOut (next :: ls) cs →
      LaidOut (l :: next :: ls) (l ++ w ++ cs)

def Stable (p : Piece) : Prop :=
  ∀ after, Spaced after → first? (p.text ++ after) = some (p, after)

theorem spaced_of_spacing (some : w ≠ []) (spacing : ∀ c ∈ w, isSpacing c = true) (cs : List Char) :
    Spaced (w ++ cs) := by
  obtain ⟨c, w, rfl⟩ := exists_cons_of_ne_nil some
  rintro _ ⟨⟩
  exact spacing c mem_cons_self

theorem visible_of_laidOut {ps : List Piece} (stable : ∀ p ∈ ps, p.isLexeme = true ∧ Stable p)
    (laid : LaidOut (ps.map Piece.text) cs) : visible cs = ps := by
  induction ps generalizing cs with
  | nil =>
    cases laid
    rfl
  | cons p ps ih =>
    rw [forall_mem_cons] at stable
    obtain ⟨⟨lexeme, own⟩, later⟩ := stable
    cases ps with
    | nil =>
      cases laid
      have first := own [] nofun
      rw [append_nil] at first
      exact visible_of_lexeme first lexeme
    | cons q qs =>
      cases laid with
      | @cons _ w _ cs _ some spacing laid =>
        have first := own (w ++ cs) (spaced_of_spacing some spacing cs)
        rw [append_assoc, visible_of_lexeme first lexeme, visible_spacing spacing, ih later laid]

def lexemes (cs : List Char) : List Piece := (cut cs).filter isLexeme

theorem stable_of_mem_lexemes (member : p ∈ lexemes cs) : p.isLexeme = true ∧ Stable p := by
  obtain ⟨cutOff, lexeme⟩ := mem_filter.mp member
  refine ⟨lexeme, fun after spaced => ?_⟩
  obtain ⟨left, rest, found⟩ := exists_first_of_cut cutOff
  cases kind_eq : p.kind with
  | lexeme kind =>
    have other : after.head? ≠ some '*' := fun star => absurd (spaced '*' star) (by decide)
    exact first?_breaks (r := []) spaced.breaks (fun _ => other) found kind_eq
  | blank | newline | comment | illegal =>
    rw [isLexeme, kind_eq] at lexeme
    cases lexeme

section LaidOut

variable {cs ds : List Char}

theorem visible_eq_lexemes (laid : LaidOut ((lexemes cs).map Piece.text) ds) :
    visible ds = lexemes cs :=
  visible_of_laidOut (fun _ => stable_of_mem_lexemes) laid

theorem lexemes_of_laidOut (laid : LaidOut ((lexemes cs).map Piece.text) ds) :
    lexemes ds = lexemes cs := by
  have both (p : Piece) : (p.isLexeme && p.isVisible) = p.isLexeme := by
    rw [isLexeme, isVisible]
    cases p.kind <;> rfl
  have again : (lexemes cs).filter isLexeme = lexemes cs :=
    filter_eq_self.mpr fun p member => (stable_of_mem_lexemes member).1
  rw [← again, ← visible_eq_lexemes laid, visible, filter_filter]
  simp only [both, lexemes]

theorem legal_of_laidOut (laid : LaidOut ((lexemes cs).map Piece.text) ds) :
    ∀ p ∈ cut ds, p.kind ≠ .illegal := by
  intro p member illegal
  have shown : p ∈ visible ds := mem_filter.mpr ⟨member, by rw [isVisible, illegal]⟩
  rw [visible_eq_lexemes laid] at shown
  have lexeme := (stable_of_mem_lexemes shown).1
  rw [isLexeme, illegal] at lexeme
  cases lexeme

end LaidOut

end Piece

end PascalStack
