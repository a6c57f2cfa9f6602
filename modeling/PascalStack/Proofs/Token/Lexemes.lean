import Mathlib.Data.List.TakeWhile
import PascalStack.Token.Source

/-!
# How pieces are written

Each rule takes a piece of its own form off the front of a text: a reserved word spells its word in
either case, a mark is written as it is, a name has no reserved word at its front, since the
reserved words are taken off first, and a string or a comment ends where its last character first
comes. What a rule takes off is stated once for each rule, and the first piece of a text and the
pieces of a text follow from it.
-/

namespace PascalStack.Piece

open List

def small (cs : List Char) : List Char := cs.map Char.toLower

@[simp] theorem small_nil : small [] = [] := rfl

@[simp] theorem small_cons (c : Char) (cs : List Char) :
    small (c :: cs) = c.toLower :: small cs := rfl

@[simp] theorem small_append (cs ds : List Char) : small (cs ++ ds) = small cs ++ small ds :=
  map_append

@[simp] theorem length_small (cs : List Char) : (small cs).length = cs.length := length_map _

theorem length_eq_of_small {cs ds : List Char} (h : small cs = small ds) :
    cs.length = ds.length := by
  rw [← length_small, h, length_small]

variable {word cs : List Char} {parts : List Char × List Char} {kind : TokenKind}
  {words : List (List Char × TokenKind)} {final : Char} {p : Piece}

theorem stripWord_eq_some (h : stripWord word cs = some parts) :
    parts.1 ++ parts.2 = cs ∧ small parts.1 = word := by
  fun_induction stripWord word cs generalizing parts with
  | case1 cs =>
    cases h
    exact ⟨rfl, rfl⟩
  | case2 => cases h
  | case3 w ws c cs letter ih =>
    obtain ⟨tail, found, rfl⟩ := Option.map_eq_some_iff.mp h
    obtain ⟨text, word⟩ := ih found
    exact ⟨congrArg (c :: ·) text, congrArg₂ cons (beq_iff_eq.mp letter) word⟩
  | case4 => cases h

theorem stripWord_of_isPrefix (h : word <+: small cs) : stripWord word cs ≠ none := by
  fun_induction stripWord word cs with
  | case1 => simp
  | case2 => simp at h
  | case3 w ws c cs _ ih =>
    rw [small_cons, cons_prefix_cons] at h
    simpa using ih h.2
  | case4 w ws c cs other =>
    rw [small_cons, cons_prefix_cons] at h
    exact absurd (beq_iff_eq.mpr h.1.symm) other

def IsQuoted (text : List Char) : Prop :=
  ∃ inner, Text.singleQuote ∉ inner ∧ text = Text.singleQuote :: inner ++ [Text.singleQuote]

def Spells : TokenKind → List Char → Prop
  | .ident, _ | .number, _ => True
  | .phrase, text => IsQuoted text
  | kind, text => (small text, kind) ∈ reservedWords ++ marks

structure IsName (text : List Char) : Prop where
  chars : ∀ c ∈ text, inName c = true
  free : ∀ entry ∈ reservedWords, ¬ entry.1 <+: small text

def IsNumeral (text : List Char) : Prop :=
  ∃ whole point, whole ≠ [] ∧ (∀ d ∈ whole, Text.isDecimalDigit d = true) ∧
    (point = [] ∨ ∃ digits, digits ≠ [] ∧ (∀ d ∈ digits, Text.isDecimalDigit d = true) ∧
      point = '.' :: digits) ∧ text = whole ++ point

/-- A text between braces without a closing one inside, or between starred brackets without a star
inside. -/
def IsComment (text : List Char) : Prop :=
  (∃ inner, '\x7d' ∉ inner ∧ text = '\x7b' :: inner ++ ['\x7d']) ∨
    ∃ inner, '*' ∉ inner ∧ text = '(' :: '*' :: inner ++ ['*', ')']

def IsLexeme : TokenKind → List Char → Prop
  | .ident, text => IsName text ∧ ∃ c ∈ text.head?, startsName c = true
  | .number, text => IsNumeral text
  | kind, text => Spells kind text

def WellWritten (p : Piece) : Prop :=
  match p.kind with
  | .blank => p.text = [' '] ∨ p.text = ['\t']
  | .newline => p.text ≠ [] ∧ ∀ c ∈ p.text, c = '\n'
  | .comment => IsComment p.text
  | .lexeme kind => IsLexeme kind p.text
  | .illegal => ∃ c, p.text = [c]

theorem WellWritten.lexeme {p : Piece} (h : p.WellWritten) {kind : TokenKind}
    (lexeme : p.kind = .lexeme kind) : IsLexeme kind p.text := by
  rw [WellWritten, lexeme] at h
  exact h

theorem IsLexeme.spells {text : List Char} (h : IsLexeme kind text) : Spells kind text := by
  cases kind with
  | ident | number => trivial
  | _ => exact h

section Rules

variable {cs : List Char} {first : Piece × List Char}

def findWord (words : List (List Char × TokenKind)) (cs : List Char) : Option (Piece × List Char) :=
  words.findSome? fun entry =>
    (stripWord entry.1 cs).map fun parts => (⟨.lexeme entry.2, parts.1⟩, parts.2)

theorem findWord_eq_some (h : findWord words cs = some first) :
    ∃ kind lexeme rest, (small lexeme, kind) ∈ words ∧ lexeme ++ rest = cs ∧
      (⟨.lexeme kind, lexeme⟩, rest) = first := by
  obtain ⟨entry, member, found⟩ := exists_of_findSome?_eq_some h
  obtain ⟨parts, stripped, rfl⟩ := Option.map_eq_some_iff.mp found
  obtain ⟨text, word⟩ := stripWord_eq_some stripped
  exact ⟨entry.2, parts.1, parts.2, by rwa [word], text, rfl⟩

theorem upTo_eq_some (h : upTo final cs = some parts) :
    ∃ inner, final ∉ inner ∧ parts.1 = inner ++ [final] ∧ inner ++ final :: parts.2 = cs := by
  fun_induction upTo final cs generalizing parts with
  | case1 => cases h
  | case2 c cs same =>
    cases h
    obtain rfl := beq_iff_eq.mp same
    exact ⟨[], not_mem_nil, rfl, rfl⟩
  | case3 c cs other ih =>
    obtain ⟨tail, found, rfl⟩ := Option.map_eq_some_iff.mp h
    obtain ⟨inner, missing, text, whole⟩ := ih found
    refine ⟨c :: inner, ?_, congrArg (c :: ·) text, congrArg (c :: ·) whole⟩
    rw [mem_cons, not_or]
    exact ⟨fun same => other (beq_iff_eq.mpr same.symm), missing⟩

theorem upTo_inner {inner : List Char} (missing : final ∉ inner) (more : List Char) :
    upTo final (inner ++ final :: more) = some (inner ++ [final], more) := by
  induction inner with
  | nil => rw [nil_append, upTo, if_pos (beq_self_eq_true _), nil_append]
  | cons c inner ih =>
    rw [mem_cons, not_or] at missing
    have other : ¬ (c == final) = true := fun same => missing.1 (beq_iff_eq.mp same).symm
    rw [cons_append, upTo, if_neg other, ih missing.2]
    rfl

theorem name?_eq_some (h : name? cs = some first) :
    ∃ c tail rest, startsName c = true ∧ (∀ d ∈ tail, inName d = true) ∧
      c :: (tail ++ rest) = cs ∧ (⟨.lexeme .ident, c :: tail⟩, rest) = first := by
  cases cs with
  | nil => cases h
  | cons c cs =>
    rw [name?] at h
    split at h
    · next starts =>
      cases h
      exact ⟨c, _, _, starts, fun d => mem_takeWhile_imp,
        congrArg (c :: ·) takeWhile_append_dropWhile, rfl⟩
    · cases h

theorem fraction_cases (cs : List Char) :
    (fraction cs).1 = [] ∨ ∃ digits, digits ≠ [] ∧ (∀ d ∈ digits, Text.isDecimalDigit d = true) ∧
      (fraction cs).1 = '.' :: digits := by
  fun_cases fraction cs with
  | case1 => exact .inl rfl
  | case2 cs some => exact .inr ⟨_, some, fun d => mem_takeWhile_imp, rfl⟩
  | case3 => exact .inl rfl

theorem fraction_text (cs : List Char) : (fraction cs).1 ++ (fraction cs).2 = cs := by
  fun_cases fraction cs with
  | case1 => rfl
  | case2 cs => exact congrArg ('.' :: ·) takeWhile_append_dropWhile
  | case3 => rfl

theorem number?_eq_some (h : number? cs = some first) :
    ∃ whole point rest, whole ≠ [] ∧ (∀ d ∈ whole, Text.isDecimalDigit d = true) ∧
      (point = [] ∨ ∃ digits, digits ≠ [] ∧ (∀ d ∈ digits, Text.isDecimalDigit d = true) ∧
        point = '.' :: digits) ∧
      whole ++ (point ++ rest) = cs ∧ (⟨.lexeme .number, whole ++ point⟩, rest) = first := by
  have text := fraction_text (cs.dropWhile Text.isDecimalDigit)
  have form := fraction_cases (cs.dropWhile Text.isDecimalDigit)
  rw [number?] at h
  generalize fraction (cs.dropWhile Text.isDecimalDigit) = tail at h text form
  split at h
  · cases h
  · next some =>
    cases h
    refine ⟨_, tail.1, tail.2, some, fun d => mem_takeWhile_imp, form, ?_, rfl⟩
    rw [text, takeWhile_append_dropWhile]

theorem phrase?_eq_some (h : phrase? cs = some first) :
    ∃ inner rest, Text.singleQuote ∉ inner ∧
      Text.singleQuote :: (inner ++ Text.singleQuote :: rest) = cs ∧
      (⟨.lexeme .phrase, Text.singleQuote :: inner ++ [Text.singleQuote]⟩, rest) = first := by
  cases cs with
  | nil => cases h
  | cons c cs =>
    rw [phrase?] at h
    split at h
    · next quote =>
      obtain ⟨⟨_, rest⟩, found, rfl⟩ := Option.map_eq_some_iff.mp h
      obtain rfl : c = Text.singleQuote := beq_iff_eq.mp quote
      obtain ⟨inner, missing, rfl, rfl⟩ := upTo_eq_some found
      exact ⟨inner, rest, missing, rfl, rfl⟩
    · cases h

theorem braceComment?_eq_some (h : braceComment? cs = some first) :
    ∃ text rest, IsComment text ∧ text ++ rest = cs ∧ (⟨.comment, text⟩, rest) = first := by
  rw [braceComment?.eq_def] at h
  split at h
  · obtain ⟨⟨_, rest⟩, found, rfl⟩ := Option.map_eq_some_iff.mp h
    obtain ⟨inner, missing, rfl, rfl⟩ := upTo_eq_some found
    exact ⟨_, rest, .inl ⟨inner, missing, rfl⟩, by simp, rfl⟩
  · cases h

theorem starComment?_eq_some (h : starComment? cs = some first) :
    ∃ text rest, IsComment text ∧ text ++ rest = cs ∧ (⟨.comment, text⟩, rest) = first := by
  rw [starComment?.eq_def] at h
  split at h
  · split at h
    · next rest found =>
      cases h
      obtain ⟨inner, missing, rfl, rfl⟩ := upTo_eq_some found
      exact ⟨_, rest, .inr ⟨inner, missing, rfl⟩, by simp, by simp⟩
    · cases h
  · cases h

theorem newlines?_eq_some (h : newlines? cs = some first) :
    ∃ run rest, run ≠ [] ∧ (∀ c ∈ run, c = '\n') ∧ (∀ c ∈ rest.head?, c ≠ '\n') ∧
      run ++ rest = cs ∧ (⟨.newline, run⟩, rest) = first := by
  rw [newlines?] at h
  split at h
  · cases h
  · next some =>
    cases h
    refine ⟨_, _, some, fun c member => ?_, ?_, takeWhile_append_dropWhile, rfl⟩
    · simpa using mem_takeWhile_imp member
    intro c top
    have stops := head?_dropWhile_not (· == '\n') cs
    rw [Option.mem_def.mp top] at stops
    simpa using stops

/-! ## The first piece -/

/-- A first piece that is not empty and has the form of its kind, and what follows it in the text.
Newlines are taken as far as they go, and a character is illegal where no rule takes anything. -/
structure Starts (cs : List Char) (first : Piece × List Char) : Prop where
  text : first.1.text ++ first.2 = cs
  nonempty : first.1.text ≠ []
  written : first.1.WellWritten
  stops : first.1.kind = .newline → ∀ c ∈ first.2.head?, c ≠ '\n'
  nothing : first.1.kind = .illegal → byRule? cs = none

theorem starts_of_findWord (known : ∀ entry ∈ words, entry ∈ reservedWords ++ marks)
    (h : findWord words cs = some first) : Starts cs first := by
  have ownKind : ∀ entry ∈ reservedWords ++ marks,
      entry.1 ≠ [] ∧ entry.2 ≠ .ident ∧ entry.2 ≠ .number ∧ entry.2 ≠ .phrase := by decide
  obtain ⟨kind, lexeme, rest, member, whole, rfl⟩ := findWord_eq_some h
  obtain ⟨some, ident, number, phrase⟩ := ownKind _ (known _ member)
  refine ⟨whole, fun empty => some (congrArg small empty), ?_, nofun, nofun⟩
  have spelt := known _ member
  cases kind with
  | ident | number | phrase => contradiction
  | _ => exact spelt

theorem inName_of_startsName {c : Char} (h : startsName c = true) : inName c = true := by
  simp only [startsName, inName, Char.isAlphanum, Bool.or_eq_true] at h ⊢
  exact h.imp_left .inl

theorem starts_name (free : findWord reservedWords cs = none) (h : name? cs = some first) :
    Starts cs first := by
  obtain ⟨c, tail, rest, starts, chars, whole, rfl⟩ := name?_eq_some h
  refine ⟨whole, cons_ne_nil _ _, ⟨⟨?_, ?_⟩, c, rfl, starts⟩, nofun, nofun⟩
  · exact forall_mem_cons.mpr ⟨inName_of_startsName starts, chars⟩
  · intro entry member front
    have atFront : entry.1 <+: small cs := by
      rw [← whole, ← cons_append, small_append]
      exact front.trans (prefix_append _ _)
    have none := findSome?_eq_none_iff.mp free entry member
    exact stripWord_of_isPrefix atFront (Option.map_eq_none_iff.mp none)

theorem starts_comment
    (h : ∃ text rest, IsComment text ∧ text ++ rest = cs ∧ (⟨.comment, text⟩, rest) = first) :
    Starts cs first := by
  obtain ⟨text, rest, written, whole, rfl⟩ := h
  refine ⟨whole, ?_, written, nofun, nofun⟩
  rcases written with ⟨inner, -, rfl⟩ | ⟨inner, -, rfl⟩ <;> exact cons_ne_nil _ _

theorem starts_byRule (h : byRule? cs = some first) : Starts cs first := by
  have orElse {x y : Option (Piece × List Char)} (found : (x <|> y) = some first) :
      x = some first ∨ x = none ∧ y = some first := by
    cases x with
    | none => exact .inr ⟨rfl, found⟩
    | some _ => exact .inl found
  rcases orElse h with word | ⟨free, h⟩
  · exact starts_of_findWord (fun _ => mem_append_left _) word
  rcases orElse h with name | ⟨-, h⟩
  · exact starts_name free name
  rcases orElse h with number | ⟨-, h⟩
  · obtain ⟨whole, point, rest, some, digits, fraction, text, rfl⟩ := number?_eq_some number
    refine ⟨(append_assoc _ _ _).trans text, by simp [some], ?_, nofun, nofun⟩
    exact ⟨whole, point, some, digits, fraction, rfl⟩
  rcases orElse h with phrase | ⟨-, h⟩
  · obtain ⟨inner, rest, missing, text, rfl⟩ := phrase?_eq_some phrase
    refine ⟨by simp [← text], cons_ne_nil _ _, ?_, nofun, nofun⟩
    exact ⟨inner, missing, rfl⟩
  rcases orElse h with comment | ⟨-, h⟩
  · exact starts_comment (braceComment?_eq_some comment)
  rcases orElse h with comment | ⟨-, h⟩
  · exact starts_comment (starComment?_eq_some comment)
  rcases orElse h with newlines | ⟨-, mark⟩
  · obtain ⟨run, rest, some, all, stops, text, rfl⟩ := newlines?_eq_some newlines
    exact ⟨text, some, ⟨some, all⟩, fun _ => stops, nofun⟩
  · exact starts_of_findWord (fun _ => mem_append_right _) mark

theorem starts_first (h : first? cs = some first) : Starts cs first := by
  cases cs with
  | nil => cases h
  | cons c cs =>
    rw [first?] at h
    split at h
    · next skipped =>
      cases h
      refine ⟨rfl, cons_ne_nil _ _, ?_, nofun, nofun⟩
      simpa [WellWritten, isSkipped] using skipped
    · cases found : byRule? (c :: cs) with
      | none =>
        rw [found] at h
        cases h
        exact ⟨rfl, cons_ne_nil _ _, ⟨c, rfl⟩, nofun, fun _ => found⟩
      | some taken =>
        rw [found] at h
        cases h
        exact starts_byRule found

theorem length_lt_of_first (h : first? cs = some first) : first.2.length < cs.length := by
  have starts := starts_first h
  have some := length_pos_iff.mpr starts.nonempty
  have all := congrArg length starts.text
  rw [length_append] at all
  omega

end Rules

theorem exists_first_of_cut (cutOff : p ∈ cut cs) : ∃ left rest, first? left = some (p, rest) := by
  rw [cut] at cutOff
  generalize cs.length = fuel at cutOff
  induction fuel generalizing cs with
  | zero => cases cutOff
  | succ fuel ih =>
    rw [cutFrom] at cutOff
    cases found : first? cs with
    | none =>
      rw [found] at cutOff
      cases cutOff
    | some first =>
      rw [found] at cutOff
      rcases mem_cons.mp cutOff with rfl | later
      · exact ⟨cs, first.2, found⟩
      · exact ih later

theorem cutFrom_fuel {fuel fuel' : Nat} (enough : cs.length ≤ fuel) (enough' : cs.length ≤ fuel') :
    cutFrom fuel cs = cutFrom fuel' cs := by
  induction fuel generalizing fuel' cs with
  | zero =>
    obtain rfl := length_eq_zero_iff.mp (Nat.le_zero.mp enough)
    cases fuel' <;> rfl
  | succ fuel ih =>
    cases found : first? cs with
    | none =>
      cases fuel' with
      | zero => rw [cutFrom, cutFrom, found]
      | succ fuel' => rw [cutFrom, cutFrom, found]
    | some first =>
      have shorter := length_lt_of_first found
      cases fuel' with
      | zero => omega
      | succ fuel' =>
        rw [cutFrom, cutFrom, found]
        exact congrArg (first.1 :: ·) (ih (by omega) (by omega))

theorem cut_of_first {rest : List Char} (h : first? cs = some (p, rest)) :
    cut cs = p :: cut rest := by
  have shorter : rest.length < cs.length := length_lt_of_first h
  rw [cut, cutFrom_fuel (Nat.le_refl _) (Nat.le_succ _), cutFrom, h]
  exact congrArg (p :: ·) (cutFrom_fuel (Nat.le_of_lt shorter) (Nat.le_refl _))

theorem exists_first (nonempty : cs ≠ []) : ∃ first, first? cs = some first := by
  obtain ⟨c, cs, rfl⟩ := exists_cons_of_ne_nil nonempty
  rw [first?]
  split <;> exact ⟨_, rfl⟩

theorem cut_induction {motive : List Char → Prop} (nil : motive [])
    (cons : ∀ cs p rest, first? cs = some (p, rest) → motive rest → motive cs) (cs : List Char) :
    motive cs := by
  induction h : cs.length using Nat.strong_induction_on generalizing cs with
  | _ n ih =>
    by_cases empty : cs = []
    · exact empty ▸ nil
    · obtain ⟨⟨p, rest⟩, found⟩ := exists_first empty
      exact cons cs p rest found (ih _ (h ▸ length_lt_of_first found) rest rfl)

theorem cut_text (cs : List Char) : (cut cs).flatMap Piece.text = cs := by
  induction cs using cut_induction with
  | nil => rfl
  | cons cs p rest found ih =>
    rw [cut_of_first found, flatMap_cons, ih]
    exact (starts_first found).text

theorem written_of_cut (cutOff : p ∈ cut cs) : p.WellWritten := by
  obtain ⟨left, rest, found⟩ := exists_first_of_cut cutOff
  exact (starts_first found).written

theorem spells_of_cut (cutOff : p ∈ cut cs) (lexeme : p.kind = .lexeme kind) : Spells kind p.text :=
  ((written_of_cut cutOff).lexeme lexeme).spells

end PascalStack.Piece
