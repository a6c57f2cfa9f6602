import PascalStack.Proofs.Code.Primitives
import PascalStack.Proofs.ControlFlow.Assembly
import PascalStack.Simplify.Folding

/-!
# Texts in the code

The text of a literal stands in the code between double quotes, where a backslash stands before a
character that is taken as it is. A text that is written has a backslash put before each double
quote, but not before a backslash, and a text that is compared is put down as it is. So a line of
code gives the text back exactly if the text has no backslash and, where it is compared, no double
quote.
-/

namespace PascalStack.Code

open Generating StackMachine Simplify List
open ControlFlow (Assembles assembles_pushString_iff quotedRest_plain text_push_writable
  writable_zero)

/-- In quotes a text takes a character for each of its own, another one for each double quote and
each backslash, and one that closes it. -/
theorem length_of_quotedRest {cs text : List Char} (h : quotedRest cs = some text) :
    text.length + text.count '"' + text.count '\\' < cs.length := by
  fun_induction quotedRest cs generalizing text with
  | case1 => cases h
  | case2 =>
    cases h
    decide
  | case3 => cases h
  | case4 c rest ih =>
    obtain ⟨tail, found, rfl⟩ := Option.map_eq_some_iff.mp h
    have later := ih found
    simp only [length_cons, count_cons]
    by_cases quote : c = '"'
    · simp only [quote, beq_self_eq_true, if_true, show ('"' == '\\') = false from rfl,
        Bool.false_eq_true, if_false]
      omega
    · simp only [beq_eq_false_iff_ne.mpr quote, Bool.false_eq_true, if_false]
      split <;> omega
  | case5 c rest _ quote slash ih =>
    obtain ⟨tail, found, rfl⟩ := Option.map_eq_some_iff.mp h
    have later := ih found
    have other : c ≠ '\\' := by
      rintro rfl
      cases rest with
      | nil => cases found
      | cons d rest => exact slash d rest rfl rfl
    rw [length_cons, count_cons_of_ne quote, count_cons_of_ne other,
      length_cons]
    omega

theorem toList_escaped (s : String) : (escaped s).toList =
    s.toList.flatMap fun c => if c == Text.doubleQuote then ['\\', c] else [c] := by
  rw [escaped, String.toList_ofList]

theorem length_escaped (s : String) :
    (escaped s).toList.length = s.toList.length + s.toList.count '"' := by
  rw [toList_escaped]
  induction s.toList with
  | nil => rfl
  | cons c rest ih =>
    rw [flatMap_cons, length_append, ih, length_cons, count_cons]
    by_cases quote : c = '"'
    · subst quote
      change 2 + _ = _ + 1 + (_ + 1)
      omega
    · have other : (c == Text.doubleQuote) = false := beq_eq_false_iff_ne.mpr quote
      simp only [other, beq_eq_false_iff_ne.mpr quote, Bool.false_eq_true, if_false,
        length_singleton]
      omega

theorem quotedRest_escaped {s : String} (free : '\\' ∉ s.toList) :
    quotedRest ((escaped s).toList ++ ['"']) = some s.toList := by
  rw [toList_escaped]
  generalize s.toList = cs at free ⊢
  induction cs with
  | nil => rfl
  | cons c rest ih =>
    rw [mem_cons, not_or] at free
    rw [flatMap_cons, append_assoc]
    by_cases quote : c = '"'
    · subst quote
      change (quotedRest (rest.flatMap _ ++ ['"'])).map ('"' :: ·) = _
      rw [ih free.2]
      rfl
    · have slash : c ≠ '\\' := fun same => free.1 same.symm
      rw [if_neg (by simpa [Text.doubleQuote] using quote), singleton_append, quotedRest,
        ih free.2]
      · rfl
      all_goals simp_all

theorem assembles_escaped_iff {text : String} (oneLine : '\n' ∉ text.toList) :
    Assembles (.pushString (escaped text)) (.pushText text) ↔ '\\' ∉ text.toList := by
  have oneLine' : '\n' ∉ (escaped text).toList := by
    rw [toList_escaped, mem_flatMap]
    rintro ⟨c, member, here⟩
    obtain rfl : '\n' = c := by
      split at here
      · simpa using here
      · simpa using here
    exact oneLine member
  rw [assembles_pushString_iff oneLine']
  refine ⟨fun found => ?_, quotedRest_escaped⟩
  -- What is escaped accounts for the double quotes, so nothing is left for a backslash.
  have length := length_of_quotedRest found
  rw [length_append, length_escaped, length_singleton] at length
  exact count_eq_zero.mp (by omega)

theorem assembles_plain_iff {text : String} (oneLine : '\n' ∉ text.toList) :
    Assembles (.pushString text) (.pushText text) ↔
      '\\' ∉ text.toList ∧ '"' ∉ text.toList := by
  rw [assembles_pushString_iff oneLine]
  constructor
  · intro found
    have length := length_of_quotedRest found
    rw [length_append, length_singleton] at length
    exact ⟨count_eq_zero.mp (by omega), count_eq_zero.mp (by omega)⟩
  · rintro ⟨slash, quote⟩
    refine quotedRest_plain fun c member => ⟨?_, ?_⟩
    · rintro rfl
      exact quote member
    · rintro rfl
      exact slash member

/-- The literal of a text between two quotes. -/
def phrase (quote : Char) (text : String) : Tree :=
  .literal (.str (String.ofList (quote :: text.toList ++ [quote]))) (.str "PHRASE")

section Runs

variable (quote : Char) (text : String) (g : Generator)

theorem inner_phrase : inner (.str (String.ofList (quote :: text.toList ++ [quote]))) =
    .ok (.str text) := by
  simp [inner]

theorem run_writePhrase : (writeArgument (phrase quote text)).run g =
    .ok () { g with code := g.code ++ [.pushString (escaped text), .writeString] } := by
  have written : writtenText (.str (String.ofList (quote :: text.toList ++ [quote]))) =
      .ok (escaped text) := by
    rw [writtenText, inner_phrase]
    rfl
  rw [phrase, writeArgument, written]
  exact run_seq rfl (run_emit_ok rfl g)

theorem run_pushPhrase (run : Generating Tree) : (pushRight (phrase quote text) run).run g =
    .ok () { g with code := g.code ++ [.pushString text, .push (.int 0), .charat] } := by
  have pushed :
      operandText (.str (String.ofList (quote :: text.toList ++ [quote]))) = .ok text := by
    rw [operandText, inner_phrase]
    rfl
  change (do
    let text ← ofExcept (operandText (.str (String.ofList (quote :: text.toList ++ [quote]))))
    emit [.pushString text, .push (.int 0), .charat] : Generating Unit).run g = _
  have rendered : ∃ s, render [.pushString text, .push (.int 0), .charat] = .ok s := by
    simp only [render, text_push_writable writable_zero]
    exact ⟨_, rfl⟩
  rw [pushed]
  exact run_seq rfl (run_emit_ok rendered.choose_spec g)

end Runs

theorem run_writePhrases (texts : List (Char × String)) (g : Generator) :
    ((texts.map fun t => phrase t.1 t.2).forM writeArgument).run g = .ok () { g with
      code := g.code ++ texts.flatMap fun t => [.pushString (escaped t.2), .writeString] } := by
  induction texts generalizing g with
  | nil => simp [pure, EStateM.pure, EStateM.run]
  | cons t rest ih =>
    refine run_seq (run_writePhrase t.1 t.2 g) ?_
    rw [ih, flatMap_cons, append_assoc]

theorem run_writePhrase_among (quote : Char) (text : String) {before : List Tree}
    (after : List Tree) {g g₁ : Generator} (run : (before.forM writeArgument).run g = .ok () g₁) :
    ((before ++ phrase quote text :: after).forM writeArgument).run g =
      (after.forM writeArgument).run
        { g₁ with code := g₁.code ++ [.pushString (escaped text), .writeString] } := by
  refine (congrArg (EStateM.run · g) forM_append).trans ?_
  exact run_seq run
    (run_seq (f := fun _ => after.forM writeArgument) (run_writePhrase quote text g₁) rfl)

def IsQuote (c : Char) : Prop := c = Text.singleQuote ∨ c = Text.doubleQuote

theorem unquoted_phrase {quote : Char} (known : IsQuote quote) (text : String) :
    unquoted (.str (String.ofList (quote :: text.toList ++ [quote]))) = .str text := by
  have last : (quote :: (text.toList ++ [quote])).getLast? = some quote := by
    rw [← cons_append, getLast?_concat]
  simp only [unquoted, String.toList_ofList, quotedBy, cons_append, head?_cons, last]
  rcases known with rfl | rfl <;> simp

theorem foldBinary_phrases {quote quote' : Char} (known : IsQuote quote) (known' : IsQuote quote')
    (text text' : String) :
    foldBinary (phrase quote text) (.str "+") (phrase quote' text') =
      .ok (phrase Text.doubleQuote (text ++ text')) := by
  change (foldPhrases "+" (unquoted (.str (String.ofList (quote :: text.toList ++ [quote]))))
    (unquoted (.str (String.ofList (quote' :: text'.toList ++ [quote'])))) >>= _) = _
  rw [unquoted_phrase known, unquoted_phrase known']
  change Except.ok (phraseLiteral (text ++ text')) = _
  have chars : "\"" ++ (text ++ text') ++ "\"" =
      String.ofList (Text.doubleQuote :: (text ++ text').toList ++ [Text.doubleQuote]) := by
    apply String.toList_injective
    simp [Text.doubleQuote]
  rw [phraseLiteral, chars, phrase]

/-- Texts of literals without newlines, with whatever quotes, that are written, among any arguments,
or stand on the right of a comparison. The line of code that pushes a text gives just this text
exactly if the text has no backslash and, in a comparison, no double quote. The literal that two of
them are folded to is the one of both texts. -/
theorem string_operands_survive (quote : Char) {text : String} (oneLine : '\n' ∉ text.toList) :
    (∀ (texts : List (Char × String)) (g : Generator),
      (generate (.writelnStatement (.list (texts.map fun t => phrase t.1 t.2)))).run g =
        .ok .none { g with code := g.code ++ (texts.flatMap fun t =>
          [.pushString (escaped t.2), .writeString]) ++ [.writeLine] }) ∧
    (∀ (before after : List Tree) (g g₁ : Generator), (before.forM writeArgument).run g = .ok () g₁ →
      (generate (.writelnStatement (.list (before ++ phrase quote text :: after)))).run g =
        (do
          after.forM writeArgument
          emit [.writeLine]
          return .none : Generating Tree).run
            { g₁ with code := g₁.code ++ [.pushString (escaped text), .writeString] }) ∧
    (Assembles (.pushString (escaped text)) (.pushText text) ↔ '\\' ∉ text.toList) ∧
    (∀ left operator g g₁,
      (pushLeft left (generate left) (generateOperand left)).run g = .ok () g₁ →
      (generate (.binaryOp left operator (phrase quote text))).run g =
        .ok .none { g₁ with code := g₁.code ++ [.pushString text, .push (.int 0), .charat] ++
          ((Operation.ofOperator? operator).map .operate).toList }) ∧
    (Assembles (.pushString text) (.pushText text) ↔ '\\' ∉ text.toList ∧ '"' ∉ text.toList) ∧
    ∀ other first second, IsQuote first → IsQuote second →
      foldBinary (phrase first text) (.str "+") (phrase second other) =
        .ok (phrase Text.doubleQuote (text ++ other)) := by
  refine ⟨fun texts g => ?_, fun before after g g₁ run => ?_, assembles_escaped_iff oneLine,
    fun left operator g g₁ pushed => ?_, assembles_plain_iff oneLine,
    fun other first second known known' => foldBinary_phrases known known' text other⟩
  · have written := run_writePhrases texts g
    exact run_seq rfl (run_seq written (run_seq (run_emit_ok rfl _) rfl))
  · refine run_seq rfl ?_
    rw [EStateM.run_bind, run_writePhrase_among quote text after run, ← EStateM.run_bind]
  · refine run_seq pushed (run_seq (run_pushPhrase quote text g₁ _) (run_seq (a := ()) ?_ rfl))
    rw [applyOperator]
    cases Operation.ofOperator? operator with
    | none => simp [pure, EStateM.pure, EStateM.run]
    | some op => exact run_emit_ok rfl _

/-- A text with a double quote survives where it is written, but not where it is compared. -/
theorem quote_survives_writing :
    '\n' ∉ "say \"hi\"".toList ∧
      Assembles (.pushString (escaped "say \"hi\"")) (.pushText "say \"hi\"") ∧
      ¬ Assembles (.pushString "say \"hi\"") (.pushText "say \"hi\"") := by
  have oneLine : '\n' ∉ "say \"hi\"".toList := by decide
  obtain ⟨-, -, written, -, compared, -⟩ := string_operands_survive Text.singleQuote oneLine
  exact ⟨oneLine, written.mpr (by decide), fun survives => (compared.mp survives).2 (by decide)⟩

/-- A backslash at the end of a text takes the closing quote for itself, and a double quote ends a
text that is compared: neither line can be read. -/
theorem backslash_and_quote_lost :
    let g : Generator := { file := "prog.vm" }
    (writeArgument (phrase Text.singleQuote "a\\")).run g =
        .ok () { g with code := [.pushString "a\\", .writeString] } ∧
      Instruction.text (.pushString "a\\") = .ok "pushs \"a\\\"" ∧
      decode "pushs \"a\\\"".toList = none ∧
      (pushRight (phrase Text.singleQuote "\"") (pure .none)).run g =
        .ok () { g with code := [.pushString "\"", .push (.int 0), .charat] } ∧
      Instruction.text (.pushString "\"") = .ok "pushs \"\"\"" ∧
      decode "pushs \"\"\"".toList = none := by
  intro g
  have same : escaped "a\\" = "a\\" := by decide
  refine ⟨?_, rfl, by decide, run_pushPhrase _ _ g _, rfl, by decide⟩
  rw [run_writePhrase, same]
  rfl

end PascalStack.Code
