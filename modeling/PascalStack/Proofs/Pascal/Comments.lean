import PascalStack.Proofs.Pascal.Layout
import PascalStack.Proofs.Token.Positions

/-!
# Comments do not matter

A comment that is put where a piece of a text ends is cut off as a piece of its own, and the pieces
before and after it stay as they are, so that the tokens are the same. This holds of every comment
in braces, but of one in starred brackets only if no star is inside: at the first star that no
bracket follows it is no comment, and its opening is read as a bracket and a star.
-/

namespace PascalStack

open List

namespace Piece

theorem first?_opening {c : Char} (opens : c = '\x7b' ∨ c = '(') (cs : List Char) :
    first? (c :: cs) = some ((braceComment? (c :: cs) <|> starComment? (c :: cs) <|>
      newlines? (c :: cs) <|> mark? (c :: cs)).getD (⟨.illegal, [c]⟩, cs)) := by
  rcases opens with rfl | rfl <;> rfl

theorem first?_star (cs : List Char) :
    first? ('*' :: cs) = some (⟨.lexeme .times, ['*']⟩, cs) := by
  rfl

theorem first?_comment {text : List Char} (comment : IsComment text) (more : List Char) :
    first? (text ++ more) = some (⟨.comment, text⟩, more) := by
  rcases comment with ⟨inner, missing, rfl⟩ | ⟨inner, missing, rfl⟩
  · rw [cons_append, cons_append, append_assoc, singleton_append,
      first?_opening (.inl rfl), braceComment?, upTo_inner missing]
    rfl
  · have whole : '(' :: '*' :: inner ++ ['*', ')'] ++ more =
        '(' :: '*' :: (inner ++ '*' :: ')' :: more) := by simp
    rw [whole, first?_opening (.inr rfl), starComment?, upTo_inner missing]
    simp [braceComment?]

theorem first?_newlines {run after : List Char} (some : run ≠ []) (all : ∀ c ∈ run, c = '\n')
    (stops : ∀ c ∈ after.head?, c ≠ '\n') :
    first? (run ++ after) = Option.some (⟨.newline, run⟩, after) := by
  obtain ⟨c, run, rfl⟩ := exists_cons_of_ne_nil some
  rw [forall_mem_cons] at all
  obtain ⟨rfl, all⟩ := all
  have tests : ∀ c ∈ run, (c == '\n') = true := fun c member => beq_iff_eq.mpr (all c member)
  rw [cons_append, first?_newline, takeWhile_append_of_pos tests,
    dropWhile_append_of_pos tests]
  cases after with
  | nil => simp
  | cons c after => simp [stops c rfl]

/-- The opening of a comment with a star inside that closes nothing is a bracket and a star. -/
theorem cut_unclosed {inner : List Char} (star : '*' ∈ inner) (unclosed : ¬ ['*', ')'] <:+: inner)
    (more : List Char) :
    cut ('(' :: '*' :: inner ++ ['*', ')'] ++ more) =
      ⟨.lexeme .leftParen, ['(']⟩ :: ⟨.lexeme .times, ['*']⟩ ::
        cut (inner ++ ['*', ')'] ++ more) := by
  obtain ⟨front, back, rfl, missing⟩ := eq_append_cons_of_mem star
  have open_bracket (tail : List Char) : back ++ ['*', ')'] ++ more ≠ ')' :: tail := by
    intro same
    cases back with
    | nil => cases same
    | cons c back =>
      obtain rfl : c = ')' := (cons.inj same).1
      exact unclosed ⟨front, back, by simp⟩
  have none :
      starComment? ('(' :: '*' :: (front ++ '*' :: (back ++ ['*', ')'] ++ more))) = none := by
    rw [starComment?, upTo_inner missing]
    split
    · next same => exact absurd (Prod.mk.inj (Option.some.inj same)).2 (open_bracket _)
    · rfl
  have whole : front ++ '*' :: back ++ ['*', ')'] ++ more =
      front ++ '*' :: (back ++ ['*', ')'] ++ more) := by simp
  have first := first?_opening (.inr rfl) ('*' :: (front ++ '*' :: (back ++ ['*', ')'] ++ more)))
  rw [none] at first
  simp only [cons_append, whole]
  rw [cut_of_first first, cut_of_first (first?_star _)]

section Insertion

variable {cs r t d : List Char} {p : Piece}

/-- A piece stays the first one if what comes later is exchanged for a text that opens a comment. -/
theorem first?_before (opens : ∀ c ∈ d.head?, c = '\x7b' ∨ c = '(')
    (h : first? cs = some (p, r ++ t)) (legal : p.kind ≠ .illegal)
    (unopened : p.text = ['('] → r.head? ≠ some '*') :
    first? (p.text ++ (r ++ d)) = some (p, r ++ d) := by
  have starts := starts_first h
  have written : p.WellWritten := starts.written
  obtain ⟨kind, text⟩ := p
  rw [WellWritten] at written
  cases kind with
  | illegal => exact absurd rfl legal
  | blank =>
    rcases written with rfl | rfl <;> rfl
  | comment => exact first?_comment written _
  | newline =>
    refine first?_newlines written.1 written.2 fun c top => ?_
    cases r with
    | cons _ _ => exact starts.stops rfl c top
    | nil => rcases opens c top with rfl | rfl <;> decide
  | lexeme kind =>
    have breaks : Breaks d := by
      intro c top
      rcases opens c top with rfl | rfl <;> decide
    refine first?_breaks breaks (fun bracket => ?_) h rfl
    cases r with
    | cons c r => exact unopened bracket
    | nil =>
      intro star
      rcases opens '*' star with other | other <;> cases other

theorem cut_suffix {before after : List Piece} (h : cut cs = before ++ after) :
    cut (after.flatMap Piece.text) = after := by
  induction cs using cut_induction generalizing before with
  | nil =>
    obtain ⟨rfl, rfl⟩ := append_eq_nil_iff.mp h.symm
    rfl
  | cons cs q rest found ih =>
    cases before with
    | nil =>
      rw [nil_append] at h
      rw [← h, cut_text]
    | cons _ before =>
      rw [cut_of_first found] at h
      exact ih (cons.inj h).2

theorem star_of_head {p : Piece} (h : first? cs = Option.some (p, r))
    (top : p.text.head? = some '*') : p.text = ['*'] := by
  obtain ⟨tail, text⟩ := head?_eq_some_iff.mp top
  have whole := (starts_first h).text
  simp only [text, cons_append] at whole
  rw [← whole, first?_star] at h
  exact congrArg Piece.text (Prod.mk.inj (Option.some.inj h)).1.symm

theorem cut_insert {before after : List Piece} (h : cut cs = before ++ after)
    (legal : ∀ p ∈ before, p.kind ≠ .illegal) (closed : ¬ [['('], ['*']] <:+: before.map Piece.text)
    (opens : ∀ c ∈ d.head?, c = '\x7b' ∨ c = '(') :
    cut (before.flatMap Piece.text ++ d) = before ++ cut d := by
  induction before generalizing cs with
  | nil => rfl
  | cons p before ih =>
    have first : first? (p.text ++ (before ++ after).flatMap Piece.text) = some (p, _) :=
      @first_of_cut_eq cs _ [] _ h
    rw [flatMap_append] at first
    have later : cut ((before ++ after).flatMap Piece.text) = before ++ after :=
      @cut_suffix cs [p] _ h
    rw [forall_mem_cons] at legal
    have unopened : p.text = ['('] → (before.flatMap Piece.text).head? ≠ some '*' := by
      intro bracket star
      cases before with
      | nil => cases star
      | cons q before =>
        have next := @first_of_cut_eq _ _ [] _ later
        rw [flatMap_cons, head?_append_of_ne_nil _ (starts_first next).nonempty] at star
        refine closed ⟨[], before.map Piece.text, ?_⟩
        simp [bracket, star_of_head next star]
    rw [flatMap_cons, append_assoc,
      cut_of_first (first?_before opens first legal.1 unopened),
      ih later legal.2 fun inside => closed (inside.trans (suffix_cons _ _).isInfix)]
    rfl

end Insertion

end Piece

open Piece

namespace Pascal

theorem lexemes_insert {cs text : List Char} {before after : List Piece}
    (split : cut cs = before ++ after) (legal : ∀ p ∈ before, p.kind ≠ .illegal)
    (closed : ¬ [['('], ['*']] <:+: before.map Piece.text) (comment : IsComment text) :
    lexemes (before.flatMap Piece.text ++ text ++ after.flatMap Piece.text) = lexemes cs := by
  have opens (more : List Char) : ∀ c ∈ (text ++ more).head?, c = '\x7b' ∨ c = '(' := by
    rcases comment with ⟨inner, -, rfl⟩ | ⟨inner, -, rfl⟩
    · rintro c ⟨⟩
      exact .inl rfl
    · rintro c ⟨⟩
      exact .inr rfl
  have later : cut (after.flatMap Piece.text) = after := cut_suffix split
  rw [lexemes, append_assoc, cut_insert split legal closed (opens _),
    cut_of_first (first?_comment comment _), later, lexemes, split, filter_append,
    filter_append, filter_cons_of_neg (by simp [isLexeme])]

theorem tokens_of_same_lexemes (line : Nat) {s s' : String}
    (same : lexemes s'.toList = lexemes s.toList) :
    (Reading.ofText line s').tokens.map (fun t => (t.kind, t.value)) =
        (Reading.ofText line s).tokens.map (fun t => (t.kind, t.value)) ∧
      (Reading.ofText line s').fault = (Reading.ofText line s).fault := by
  have first := tokens_of_lexemes line s
  have second := tokens_of_lexemes line s'
  rw [same] at second
  exact ⟨second.1.trans first.1.symm, second.2.trans first.2.symm⟩

/-- A comment in braces, and one in starred brackets without a star inside, may be put where any
piece of a text ends, if before it no character is illegal and no bracket is followed by a star: the
tokens have the same kinds and values. A star inside that closes nothing ends the comment before it
has begun, and the tokens of its opening and of all that is inside are read. -/
theorem comments_are_transparent (line : Nat) {s : String} {before after : List Piece}
    (split : cut s.toList = before ++ after) (legal : ∀ p ∈ before, p.kind ≠ .illegal)
    (closed : ¬ [['('], ['*']] <:+: before.map Piece.text) (c : List Char) :
    let tokens (text : String) := (Reading.ofText line text).tokens.map fun t => (t.kind, t.value)
    let fault (text : String) := (Reading.ofText line text).fault
    let insert (text : List Char) :=
      String.ofList (before.flatMap Piece.text ++ text ++ after.flatMap Piece.text)
    let braced := insert ('\x7b' :: c ++ ['\x7d'])
    let starred := insert ('(' :: '*' :: c ++ ['*', ')'])
    ('\x7d' ∉ c → tokens braced = tokens s ∧ fault braced = fault s) ∧
      ('*' ∉ c → tokens starred = tokens s ∧ fault starred = fault s) ∧
      ('*' ∈ c → ¬ ['*', ')'] <:+: c →
        cut starred.toList = before ++ ⟨.lexeme .leftParen, ['(']⟩ :: ⟨.lexeme .times, ['*']⟩ ::
          cut (c ++ ['*', ')'] ++ after.flatMap Piece.text)) := by
  intro tokens fault insert braced starred
  have transparent {text : List Char} (comment : IsComment text) :
      tokens (insert text) = tokens s ∧ fault (insert text) = fault s := by
    refine tokens_of_same_lexemes line ?_
    rw [String.toList_ofList]
    exact lexemes_insert split legal closed comment
  refine ⟨fun free => transparent (.inl ⟨c, free, rfl⟩),
    fun free => transparent (.inr ⟨c, free, rfl⟩), fun star unclosed => ?_⟩
  rw [String.toList_ofList, append_assoc, cut_insert split legal closed,
    cut_unclosed star unclosed]
  rintro _ ⟨⟩
  exact .inr rfl

/-- A number and a range, with a comment in starred brackets between them that has a brace, a quote
and a newline inside. -/
theorem comment_between_number_and_range :
    let before : List Piece := [⟨.lexeme .number, ['1']⟩, ⟨.comment, "(**)".toList⟩]
    let after : List Piece := [⟨.lexeme .range, "..".toList⟩, ⟨.lexeme .ident, ['x']⟩]
    cut "1(**)..x".toList = before ++ after ∧ (∀ p ∈ before, p.kind ≠ .illegal) ∧
      ¬ [['('], ['*']] <:+: before.map Piece.text ∧
      (Reading.ofText 1 "1(**)(*\x7b'\n*)..x").tokens.map (fun t => (t.kind, t.value)) =
        (Reading.ofText 1 "1(**)..x").tokens.map fun t => (t.kind, t.value) := by
  intro before after
  have split : cut "1(**)..x".toList = before ++ after := by decide
  have legal : ∀ p ∈ before, p.kind ≠ .illegal := by decide
  have closed : ¬ [['('], ['*']] <:+: before.map Piece.text := by decide
  obtain ⟨-, starred, -⟩ := comments_are_transparent 1 split legal closed "\x7b'\n".toList
  exact ⟨split, legal, closed, (starred (by decide)).1⟩

/-- The stars of a comment that is drawn with them are tokens, and so is the word inside. -/
theorem stars_inside_make_tokens :
    cut "x:=1".toList = [⟨.lexeme .ident, ['x']⟩] ++ cut ":=1".toList ∧
      ¬ ['*', ')'] <:+: "* one *".toList ∧
      (Reading.ofText 1 "x(** one **):=1").tokens.map (fun t => t.kind) =
        [.ident, .leftParen, .times, .times, .ident, .times, .times, .rightParen, .assign,
          .number] ∧
      (Reading.ofText 1 "x:=1").tokens.map (fun t => t.kind) = [.ident, .assign, .number] := by
  refine ⟨by decide, by decide, by decide +kernel, by decide +kernel⟩

end Pascal

end PascalStack
