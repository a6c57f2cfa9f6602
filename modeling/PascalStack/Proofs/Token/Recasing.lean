import Mathlib
import PascalStack.Proofs.Token.Lexemes

-- The whole library is imported for the casing lemmas of `Char`: no smaller module of it has them.

/-!
# Texts that differ in the case of letters

A source text is cut into pieces without regard to the case of its letters: the pieces of a text
in small letters are the pieces of the text, in small letters. So a text in which letters of some
pieces have changed case is cut into just the changed pieces.
-/

namespace PascalStack

open List

namespace Piece

def Caseless (test : Char → Bool) : Prop := ∀ c, test c.toLower = test c

variable {c x : Char} {test : Char → Bool} {cs : List Char} {p : Piece} {ps : List Piece}

theorem toLower_of_not_letter (h : c.isAlpha = false) : c.toLower = c :=
  Char.toLower_eq_of_not_isUpper fun upper => by
    rw [Char.isAlpha, upper, Bool.true_or] at h
    contradiction

theorem caseless_of_letters (b : Bool) (h : ∀ c : Char, c.isAlpha = true → test c = b) :
    Caseless test := by
  intro c
  by_cases letter : c.isAlpha = true
  · rw [h c letter, h _ ((Char.isAlpha_toLower_eq_isAlpha c).trans letter)]
  · rw [toLower_of_not_letter (Bool.eq_false_of_not_eq_true letter)]

theorem toNat_of_letter (h : c.isAlpha = true) :
    64 < c.toNat ∧ c.toNat < 91 ∨ 96 < c.toNat ∧ c.toNat < 123 := by
  simp only [Char.isAlpha, Char.isUpper, Char.isLower, ge_iff_le, Bool.or_eq_true,
    decide_eq_true_eq, Bool.and_eq_true, UInt32.le_iff_toNat_le] at h
  rcases h with ⟨least, most⟩ | ⟨least, most⟩
  · exact .inl ⟨least, Nat.lt_succ_of_le most⟩
  · exact .inr ⟨least, Nat.lt_succ_of_le most⟩

theorem toLower_beq (mark : x.isAlpha = false) (c : Char) : (c.toLower == x) = (c == x) := by
  have caseless : Caseless (· == x) := by
    refine caseless_of_letters false fun d letter => beq_eq_false_iff_ne.mpr fun same => ?_
    rw [same, mark] at letter
    contradiction
  exact caseless c

theorem toLower_eq_iff (mark : x.isAlpha = false) : c.toLower = x ↔ c = x := by
  rw [← beq_iff_eq, toLower_beq mark, beq_iff_eq]

theorem caseless_startsName : Caseless startsName :=
  caseless_of_letters true fun c letter => by rw [startsName, letter, Bool.true_or]

theorem caseless_inName : Caseless inName :=
  caseless_of_letters true fun c letter => by
    rw [inName, Char.isAlphanum, letter, Bool.true_or, Bool.true_or]

theorem caseless_isSkipped : Caseless isSkipped := fun c => by
  rw [isSkipped, isSkipped, toLower_beq (by decide), toLower_beq (by decide)]

theorem caseless_isDecimalDigit : Caseless Text.isDecimalDigit :=
  caseless_of_letters false fun c letter => by
    have apart : ∀ base ∈ Text.digitZeros, base = 48 ∨ 123 ≤ base := by decide
    have range := toNat_of_letter letter
    rw [Text.isDecimalDigit, Text.digitValue?, Option.isSome_eq_false_iff,
      Option.isNone_iff_eq_none, findSome?_eq_none_iff]
    intro base known
    have := apart base known
    exact if_neg (by omega)

theorem takeWhile_small (h : Caseless test) (cs : List Char) :
    (small cs).takeWhile test = small (cs.takeWhile test) := by
  rw [small, takeWhile_map, show test ∘ Char.toLower = test from funext h]
  rfl

theorem dropWhile_small (h : Caseless test) (cs : List Char) :
    (small cs).dropWhile test = small (cs.dropWhile test) := by
  rw [small, dropWhile_map, show test ∘ Char.toLower = test from funext h]
  rfl

def smallParts (parts : List Char × List Char) : List Char × List Char :=
  (small parts.1, small parts.2)

def smallFirst (first : Piece × List Char) : Piece × List Char :=
  (⟨first.1.kind, small first.1.text⟩, small first.2)

theorem stripWord_small (word cs : List Char) :
    stripWord word (small cs) = (stripWord word cs).map smallParts := by
  fun_induction stripWord word cs with
  | case1 cs => rfl
  | case2 w ws => rfl
  | case3 w ws c cs match_ ih =>
    rw [small_cons, stripWord, Char.toLower_toLower_eq_toLower, if_pos match_, ih, Option.map_map,
      Option.map_map]
    rfl
  | case4 w ws c cs other =>
    rw [small_cons, stripWord, Char.toLower_toLower_eq_toLower, if_neg other]
    rfl

theorem findWord_small (words : List (List Char × TokenKind)) (cs : List Char) :
    findWord words (small cs) = (findWord words cs).map smallFirst := by
  rw [findWord, findWord, map_findSome?]
  refine congrArg (findSome? · words) (funext fun entry => ?_)
  simp only [Function.comp, stripWord_small, Option.map_map]
  rfl

theorem upTo_small {final : Char} (mark : final.isAlpha = false) (cs : List Char) :
    upTo final (small cs) = (upTo final cs).map smallParts := by
  fun_induction upTo final cs with
  | case1 => rfl
  | case2 c cs found => 
    rw [small_cons, upTo, toLower_beq mark, if_pos found]
    rfl
  | case3 c cs other ih =>
    rw [small_cons, upTo, toLower_beq mark, if_neg other, ih, Option.map_map, Option.map_map]
    rfl

theorem name?_small (cs : List Char) : name? (small cs) = (name? cs).map smallFirst := by
  cases cs with
  | nil => rfl
  | cons c cs =>
    rw [small_cons, name?, name?, caseless_startsName, takeWhile_small caseless_inName,
      dropWhile_small caseless_inName]
    split <;> rfl

theorem fraction_point (cs : List Char) :
    fraction ('.' :: cs) =
      if cs.takeWhile Text.isDecimalDigit = [] then ([], '.' :: cs)
      else ('.' :: cs.takeWhile Text.isDecimalDigit, cs.dropWhile Text.isDecimalDigit) := by
  rw [fraction]
  cases cs.takeWhile Text.isDecimalDigit <;> rfl

theorem fraction_other (cs : List Char) (other : c ≠ '.') : fraction (c :: cs) = ([], c :: cs) := by
  rw [fraction]
  intro cs same
  exact other (head_eq_of_cons_eq same)

theorem fraction_small (cs : List Char) : fraction (small cs) = smallParts (fraction cs) := by
  cases cs with
  | nil => rfl
  | cons c cs =>
    rw [small_cons]
    by_cases point : c = '.'
    · subst point
      rw [show Char.toLower '.' = '.' from rfl, fraction_point, fraction_point,
        takeWhile_small caseless_isDecimalDigit, dropWhile_small caseless_isDecimalDigit]
      cases cs.takeWhile Text.isDecimalDigit <;> rfl
    · rw [fraction_other _ point, fraction_other _ fun same => point ((toLower_eq_iff rfl).mp same)]
      rfl

theorem number?_small (cs : List Char) : number? (small cs) = (number? cs).map smallFirst := by
  rw [number?, number?, takeWhile_small caseless_isDecimalDigit,
    dropWhile_small caseless_isDecimalDigit, fraction_small]
  cases cs.takeWhile Text.isDecimalDigit with
  | nil => rfl
  | cons d ds =>
    refine congrArg some (Prod.ext (congrArg (Piece.mk _) ?_) rfl)
    exact (small_append (d :: ds) _).symm

theorem phrase?_small (cs : List Char) : phrase? (small cs) = (phrase? cs).map smallFirst := by
  cases cs with
  | nil => rfl
  | cons c cs =>
    rw [small_cons, phrase?, phrase?, toLower_beq (by decide), upTo_small (by decide)]
    split
    · rw [Option.map_map, Option.map_map]
      rfl
    · rfl

theorem newlines?_small (cs : List Char) :
    newlines? (small cs) = (newlines? cs).map smallFirst := by
  have caseless : Caseless (· == '\n') := toLower_beq rfl
  rw [newlines?, newlines?, takeWhile_small caseless, dropWhile_small caseless]
  cases cs.takeWhile (· == '\n') <;> rfl

theorem braceComment?_small (cs : List Char) :
    braceComment? (small cs) = (braceComment? cs).map smallFirst := by
  fun_cases braceComment? cs with
  | case1 cs =>
    rw [small_cons, show Char.toLower '\x7b' = '\x7b' from rfl, braceComment?,
      upTo_small rfl, Option.map_map, Option.map_map]
    rfl
  | case2 cs other =>
    rw [braceComment?]
    · rfl
    · cases cs with
      | nil => exact fun ds same => cons_ne_nil _ _ same.symm
      | cons c cs =>
        intro ds same
        have brace : c = '\x7b' := (toLower_eq_iff rfl).mp (head_eq_of_cons_eq same)
        exact other cs (brace ▸ rfl)

theorem small_eq_cons (mark : x.isAlpha = false) {ds : List Char} (h : small cs = x :: ds) :
    ∃ es, cs = x :: es ∧ ds = small es := by
  cases cs with
  | nil => cases h
  | cons c cs =>
    rw [small_cons, cons.injEq, toLower_eq_iff mark] at h
    exact ⟨cs, by rw [h.1], h.2.symm⟩

theorem starComment?_small (cs : List Char) :
    starComment? (small cs) = (starComment? cs).map smallFirst := by
  fun_cases starComment? cs with
  | case1 cs inner rest found =>
    rw [small_cons, small_cons, show Char.toLower '(' = '(' from rfl,
      show Char.toLower '*' = '*' from rfl, starComment?, upTo_small rfl, found]
    refine congrArg some (Prod.ext (congrArg (Piece.mk _) ?_) rfl)
    exact (small_append ('(' :: '*' :: inner) [')']).symm
  | case2 cs other =>
    rw [small_cons, small_cons, show Char.toLower '(' = '(' from rfl,
      show Char.toLower '*' = '*' from rfl, starComment?, upTo_small rfl]
    cases found : upTo '*' cs with
    | none => rfl
    | some parts =>
      rw [Option.map_some, smallParts]
      split
      · next inner rest same => 
        obtain ⟨es, rests, -⟩ := small_eq_cons rfl (Prod.mk.inj (Option.some.inj same)).2
        exact (other parts.1 es (by rw [found, ← rests])).elim
      · rfl
  | case3 cs other =>
    rw [starComment?]
    · rfl
    · intro ds same
      obtain ⟨es, rfl, tail⟩ := small_eq_cons rfl same
      obtain ⟨fs, rfl, -⟩ := small_eq_cons rfl tail.symm
      exact other fs rfl

/-! ## Cutting -/

def lowered (p : Piece) : Piece := ⟨p.kind, small p.text⟩

theorem byRule?_small (cs : List Char) : byRule? (small cs) = (byRule? cs).map smallFirst := by
  have orElse (x y : Option (Piece × List Char)) :
      (x.map smallFirst <|> y.map smallFirst) = (x <|> y).map smallFirst := by
    cases x <;> rfl
  have words : reserved? (small cs) = (reserved? cs).map smallFirst := findWord_small _ cs
  have marks : mark? (small cs) = (mark? cs).map smallFirst := findWord_small _ cs
  rw [byRule?, byRule?, words, marks, name?_small, number?_small, phrase?_small,
    braceComment?_small, starComment?_small, newlines?_small]
  simp only [orElse]

theorem first?_small (cs : List Char) : first? (small cs) = (first? cs).map smallFirst := by
  cases cs with
  | nil => rfl
  | cons c cs =>
    rw [small_cons, first?, first?, caseless_isSkipped, ← small_cons, byRule?_small]
    split
    · rfl
    · cases byRule? (c :: cs) <;> rfl

theorem cutFrom_small (fuel : Nat) (cs : List Char) :
    cutFrom fuel (small cs) = (cutFrom fuel cs).map lowered := by
  induction fuel generalizing cs with
  | zero => rfl
  | succ fuel ih =>
    rw [cutFrom, cutFrom, first?_small]
    cases first? cs with
    | none => rfl
    | some first => exact congrArg₂ cons rfl (ih first.2)

theorem cut_small (cs : List Char) :
    cut (small cs) = (cut cs).map lowered := by
  rw [cut, length_small, cutFrom_small]
  rfl

def isReserved (kind : TokenKind) : Bool := (reservedWords.map Prod.snd).contains kind

theorem word_of_cut (cutOff : p ∈ cut cs) {kind : TokenKind} (lexeme : p.kind = .lexeme kind)
    (reserved : isReserved kind = true) : (small p.text, kind) ∈ reservedWords := by
  have others : ∀ entry ∈ marks, isReserved entry.2 = false := by decide
  have spelt := spells_of_cut cutOff lexeme
  have known : (small p.text, kind) ∈ reservedWords ++ marks := by
    cases kind with
    | ident | number | phrase => cases reserved
    | _ => exact spelt
  rcases mem_append.mp known with word | mark
  · exact word
  · rw [others _ mark] at reserved
    cases reserved

theorem small_flatMap_text (ps : List Piece) :
    small (ps.flatMap Piece.text) = (ps.map lowered).flatMap Piece.text := by
  induction ps with
  | nil => rfl
  | cons p ps ih =>
    rw [flatMap_cons, small_append, ih]
    rfl

theorem eq_of_lowered {qs : List Piece} (letters : ps.map lowered = qs.map lowered)
    (text : ps.flatMap Piece.text = qs.flatMap Piece.text) : ps = qs := by
  induction ps generalizing qs with
  | nil => exact (map_eq_nil_iff.mp letters.symm).symm
  | cons p ps ih =>
    cases qs with
    | nil => cases letters
    | cons q qs =>
      obtain ⟨head, tail⟩ := cons.inj letters
      obtain ⟨kind, letters⟩ := Piece.mk.inj head
      obtain ⟨first, rest⟩ := append_inj text (length_eq_of_small letters)
      obtain ⟨_, _⟩ := p
      obtain ⟨_, _⟩ := q
      cases kind
      cases first
      rw [ih tail rest]

theorem cut_of_lowered (letters : ps.map lowered = (cut cs).map lowered) :
    cut (ps.flatMap Piece.text) = ps := by
  have same : small (ps.flatMap Piece.text) = small cs := by
    rw [small_flatMap_text, letters, ← small_flatMap_text, cut_text]
  refine eq_of_lowered ?_ (cut_text _)
  rw [← cut_small, same, cut_small, letters]

def isWord (p : Piece) : Bool :=
  match p.kind with
  | .lexeme kind => isReserved kind
  | _ => false

def Recases (p q : Piece) : Prop := q = p ∨ p.isWord = true ∧ q.lowered = p.lowered

instance (p q : Piece) : Decidable (Recases p q) := inferInstanceAs (Decidable (_ ∨ _))

theorem Recases.lowered_eq {q : Piece} (h : Recases p q) : q.lowered = p.lowered := by
  rcases h with rfl | ⟨-, letters⟩
  · rfl
  · exact letters

def inSmall (cs : List Char) : Bool := cs.map Char.toLower == cs

def inCapitals (cs : List Char) : Bool := cs.map Char.toUpper == cs

/-- A direction or an operator that is in small letters stays in small letters, and no other one
comes to be; an operator that is in capitals stays in capitals, and no other one comes to be. -/
def SameManner (p q : Piece) : Prop :=
  ∀ kind ∈ [TokenKind.kwTo, .kwDiv, .kwMod, .kwAnd, .kwOr], p.kind = .lexeme kind →
    inSmall q.text = inSmall p.text ∧
      (kind ≠ .kwTo → inCapitals q.text = inCapitals p.text)

instance (p q : Piece) : Decidable (SameManner p q) := decidableBAll _ _

end Piece

/-- The second text is the first with the case of letters changed inside reserved words and nowhere
else. -/
def Recased (s s' : String) : Prop :=
  ∃ pieces, Forall₂ Piece.Recases (Piece.cut s.toList) pieces ∧
    s'.toList = pieces.flatMap Piece.text

/-- No direction and no operator that is a word comes to be in small letters or ceases to be, and no
operator that is a word comes to be in capitals or ceases to be. -/
def SameManner (s s' : String) : Prop :=
  Forall₂ Piece.SameManner (Piece.cut s.toList) (Piece.cut s'.toList)

instance (s s' : String) : Decidable (SameManner s s') :=
  inferInstanceAs (Decidable (Forall₂ _ _ _))

theorem recased_iff {s s' : String} :
    Recased s s' ↔ Forall₂ Piece.Recases (Piece.cut s.toList) (Piece.cut s'.toList) := by
  constructor
  · rintro ⟨pieces, each, text⟩
    have letters : pieces.map Piece.lowered = (Piece.cut s.toList).map Piece.lowered := by
      refine (forall₂_eq_eq_eq.le _ _ ?_).symm
      rw [forall₂_map_left_iff, forall₂_map_right_iff]
      exact each.imp fun _ _ recases => recases.lowered_eq.symm
    rw [text, Piece.cut_of_lowered letters]
    exact each
  · exact fun each => ⟨_, each, (Piece.cut_text _).symm⟩

instance (s s' : String) : Decidable (Recased s s') := decidable_of_iff _ recased_iff.symm

end PascalStack
