import Mathlib.Tactic.Linarith
import PascalStack.Proofs.Pascal.Output
import PascalStack.Proofs.Pascal.Step

/-!
# The parser accepts exactly the sentences

A run on a sentence without a choice ends with a tree. On any other tokens the first complaint is
about the first token that no sentence goes on with, or about the end of the text if there is no
such token.
-/

namespace PascalStack.Pascal

open LR

/-- How a run ends or comes to its first error, from a configuration that has read `read` and has
`rest` ahead. -/
inductive RunCase (fault : Option Fault) (c : Config) (ds : List Delivery)
    (read rest : List Token) : Outcome Tree × Config → Prop
  | accepted {value : Tree} {c' : Config} {ds' : List Delivery} :
      Advances c ds c' ds' → Evaluates [.phrase .program] (read ++ rest) [value] →
      RunCase fault c ds read rest (.accepted value, c')
  | unbuilt {kind : String} {c' : Config} :
      .kwCase ∈ kindsOf (read ++ rest) →
      RunCase fault c ds read rest (.faulted (.noAttribute kind "type"), c')
  | unread {f : Fault} {c' : Config} :
      fault = some f → RunCase fault c ds read rest (.faulted f, c')
  | error {fuel : Nat} {look : Lookahead TokenKind Tree} {c' : Config} {ds' : List Delivery}
      {before after : List Token} :
      read ++ rest = before ++ after → Advances c ds c' ds' → Holds c'.stack before →
      Looks look after →
      (∀ kinds, next kinds .finish = next (kindsOf after) .finish →
        ¬ Accepts [0] (kindsOf before ++ kinds)) →
      RunCase fault c ds read rest (resume fuel (machine.recover look c'))

variable {fault : Option Fault} {c : Config} {ds : List Delivery} {read rest : List Token}

/-- What the table accepts after the tokens read, it accepts from the states of the stack, as far
as one token ahead is concerned. -/
def Guided (c : Config) (read rest : List Token) : Prop :=
  ∀ kinds, next kinds .finish = next (kindsOf rest) .finish →
    Accepts [0] (kindsOf read ++ kinds) → Accepts (statesOf c.stack) kinds

variable {c' : Config} {ds' : List Delivery} {fuel : Nat} {look : Lookahead TokenKind Tree}
  {message : String}

theorem RunCase.of_advances {read' rest' : List Token} {result : Outcome Tree × Config}
    (first : Advances c ds c' ds') (tokens_eq : read' ++ rest' = read ++ rest)
    (h : RunCase fault c' ds' read' rest' result) : RunCase fault c ds read rest result := by
  cases h with
  | accepted advances evaluates => exact .accepted (first.trans advances) (tokens_eq ▸ evaluates)
  | unbuilt choice => exact .unbuilt (tokens_eq ▸ choice)
  | unread spoilt => exact .unread spoilt
  | error split advances holds looks refused =>
    exact .error (tokens_eq.symm.trans split) (first.trans advances) holds looks refused

theorem Proceeds.run_cases (h : Proceeds fault c ds read rest) (guided : Guided c read rest)
    (enough : weight c.stack rest < fuel) : RunCase fault c ds read rest (machine.run fuel c) := by
  induction fuel generalizing c ds read rest with
  | zero => omega
  | succ fuel ih =>
    have step := h.step_cases
    rw [run_succ]
    generalize machine.step c = s at step
    cases step with
    | @shift t rest' c' ds' _ rest_eq advances proceeds _ less accepts =>
      subst rest_eq
      refine RunCase.of_advances advances (by simp) (ih proceeds ?_ (by omega))
      intro kinds _ accepted
      apply accepts
      apply guided (t.kind :: kinds) rfl
      simpa using accepted
    | @reduce c' ds' advances proceeds _ less accepts =>
      refine RunCase.of_advances advances rfl (ih proceeds ?_ (by omega))
      intro kinds next_eq accepted
      exact accepts kinds next_eq (guided kinds next_eq accepted)
    | accept rest_eq advances _ evaluates =>
      subst rest_eq
      exact .accepted advances (by simpa using evaluates)
    | unbuilt choice => exact .unbuilt (by simp [choice])
    | unread spoilt => exact .unread spoilt
    | @error look c' ds' _ advances proceeds _ _ looks _ stuck =>
      refine .error rfl advances proceeds.holds looks fun kinds next_eq accepted => ?_
      obtain ⟨a, found⟩ := (guided kinds next_eq accepted).exists_action
      rw [headD_statesOf, next_eq, ← looks.terminal_eq, stuck] at found
      cases found

def syntaxError (text : String) (line : Nat) : String :=
  s!"Syntax error at '{text}', line {line}" ++ "\n"

def finishError : String := "Syntax error at EOF\n"

/-- A message is printed, and before it nothing but what the deliveries taken so far report, and
that loops are left. -/
def FirstSays (ds : List Delivery) (out message : String) : Prop :=
  ∃ taken before after, taken <+: ds ∧ Announced taken before ∧ out = before ++ message ++ after

/-- The first complaint of a parse is about a token. If the value of the token has no text, the
parse stops there. -/
def Blames (ds : List Delivery) (result : Parse) (t : Token) : Prop :=
  match t.value.text with
  | .ok text => FirstSays ds result.out (syntaxError text t.line)
  | .error f => result.tree = .error f

theorem recover_complains {c : Config} (due : c.patience = 0)
    (complaint : ∀ out, complain (Machine.culprit look) out = .ok () (out ++ message)) :
    Extends (c.out ++ message) (resume fuel (machine.recover look c)).2.out := by
  have complained : Extends (c.out ++ message) (leaves (machine.recover look c)).out := by
    unfold Machine.recover
    have complain_eq : machine.complain (Machine.culprit look) c.out = .ok () (c.out ++ message) :=
      complaint c.out
    rw [if_pos due, complain_eq]
    exact ⟨"", by rw [unwind_out, String.append_empty]⟩
  exact complained.trans (resume_extends fuel _)

theorem recover_stops {c : Config} {f : Fault} (due : c.patience = 0)
    (failed : ∀ out, complain (Machine.culprit look) out = .error f out) :
    resume fuel (machine.recover look c) = (.faulted f, c) := by
  unfold Machine.recover
  have complain_eq : machine.complain (Machine.culprit look) c.out = .error f c.out := failed c.out
  rw [if_pos due, complain_eq]
  rfl

theorem Advances.firstSays {c : Config} {ds : List Delivery} {out : String}
    (advances : Advances c ds c' ds') (silent : c.out = "")
    (complained : Extends (c'.out ++ message) out) : FirstSays ds out message := by
  obtain ⟨taken, text, rfl, out_eq, announced⟩ := advances.said
  obtain ⟨after, rfl⟩ := complained
  rw [silent, String.empty_append] at out_eq
  rw [out_eq]
  exact ⟨taken, text, after, List.prefix_append taken ds', announced, rfl⟩

theorem length_arriving_le (ds : List Delivery) : (arriving ds).length ≤ ds.length := by
  induction ds with
  | nil => exact Nat.le_refl 0
  | cons d ds ih =>
    rw [arriving]
    split
    · simpa using ih
    · exact Nat.zero_le _

def start (line : Nat) (ds : List Delivery) : Config := { feed := ds.map (supply id), line := line }

theorem proceeds_start (line : Nat) (ds : List Delivery) :
    Proceeds (spoiled ds) (start line ds) ds [] (arriving ds) :=
  ⟨.nil, rfl, rfl, .fresh ds⟩

def parseOf (ending : Outcome Tree × Config) : Parse :=
  ⟨treeOf ending.1, ending.2.line, ending.2.out⟩

theorem enough_fuel (ds : List Delivery) :
    9 * (arriving ds).length <
      (ds.length + 2) * (ds.length + 2) * ((rules.size + 2) * (rules.size + 2)) := by
  have bound := length_arriving_le ds
  have size : rules.size = 112 := rfl
  rw [size]
  nlinarith

theorem parseSupply_cases (line : Nat) (ds : List Delivery) :
    ∃ result, RunCase (spoiled ds) (start line ds) ds [] (arriving ds) result ∧
      parseSupply line (ds.map (supply id)) = parseOf result := by
  refine ⟨machine.parse rules.size line (ds.map (supply id)), ?_, rfl⟩
  refine (proceeds_start line ds).run_cases (fun kinds _ accepted => accepted) ?_
  have enough := enough_fuel ds
  simpa only [start, weight, topHeight, List.length_nil, List.length_map, Nat.add_zero] using enough

section Endings

variable {line : Nat} {ds : List Delivery} {tokens : List Token} {ending : Outcome Tree × Config}

theorem RunCase.of_sentence (h : RunCase none (start line ds) ds [] tokens ending)
    (sentence : Sentence (kindsOf tokens)) :
    (.kwCase ∉ kindsOf tokens ∧ ∃ tree taken, (parseOf ending).tree = .ok tree ∧ tree ≠ .none ∧
      taken <+: ds ∧ Announced taken (parseOf ending).out) ∨
    .kwCase ∈ kindsOf tokens ∧
      ∃ kind, (parseOf ending).tree = .error (.noAttribute kind "type") := by
  cases h with
  | @accepted value c' ds' advances evaluates =>
    left
    obtain ⟨taken, text, ds_eq, out_eq, announced⟩ := advances.said
    have out_eq : c'.out = text := by rw [out_eq]; exact String.empty_append
    refine ⟨evaluates.no_case (by simp), value, taken, rfl, evaluates.program_ne_none, ?_, ?_⟩
    · exact ds_eq ▸ List.prefix_append taken ds'
    · rw [← out_eq] at announced
      exact announced
  | unbuilt choice => exact .inr ⟨choice, _, rfl⟩
  | unread spoilt => cases spoilt
  | error split advances holds looks refused =>
    exfalso
    refine refused _ rfl ?_
    rw [← kindsOf_append, ← split]
    exact sentence.accepts

theorem RunCase.of_other (h : RunCase none (start line ds) ds [] tokens ending)
    (noCase : .kwCase ∉ kindsOf tokens) (other : ¬ Sentence (kindsOf tokens)) :
    (∃ read t rest, tokens = read ++ t :: rest ∧ Opening (kindsOf read) ∧
      ¬ Opening (kindsOf (read ++ [t])) ∧ Blames ds (parseOf ending) t) ∨
    Opening (kindsOf tokens) ∧ FirstSays ds (parseOf ending).out finishError := by
  cases h with
  | accepted advances evaluates => exact absurd evaluates.yields other
  | unbuilt choice => exact absurd choice noCase
  | unread spoilt => cases spoilt
  | @error fuel look c' ds' before after split advances holds looks refused =>
    rw [List.nil_append] at split
    have due : c'.patience = 0 := Nat.le_zero.mp advances.patience
    cases looks with
    | finish value line' =>
      right
      rw [split, List.append_nil]
      refine ⟨holds.opening, advances.firstSays rfl ?_⟩
      exact recover_complains due fun out => rfl
    | token t rest =>
      left
      refine ⟨before, t, rest, split, holds.opening, ?_, ?_⟩
      · rintro ⟨more, sentence⟩
        refine refused (t.kind :: more) rfl ?_
        simpa using sentence.accepts
      · unfold Blames
        split
        case h_1 text found =>
          refine advances.firstSays rfl (recover_complains due fun out => ?_)
          simp only [Machine.culprit, lookahead, complain, found]
          rfl
        case h_2 f found =>
          rw [parseOf, recover_stops due fun out => by
            simp only [Machine.culprit, lookahead, complain, found]; rfl]
          rfl

end Endings

/-- For tokens without a choice: a sentence is parsed to a tree, without a complaint; of other
tokens the first complaint is about the first one that no sentence goes on with, or about the end
of the text if they start a sentence. A sentence with a choice cannot be built. -/
theorem parses_exactly_the_sentences (line : Nat) (ds : List Delivery)
    (sound : (Reading.ofDeliveries (fun _ => "") line ds).fault = none) :
    let tokens := (Reading.ofDeliveries (fun _ => "") line ds).tokens
    let result := parseSupply line (ds.map (supply id))
    (.kwCase ∉ kindsOf tokens → Sentence (kindsOf tokens) →
      ∃ tree taken, result.tree = .ok tree ∧ tree ≠ .none ∧ taken <+: ds ∧
        Announced taken result.out) ∧
    (.kwCase ∉ kindsOf tokens → ¬ Sentence (kindsOf tokens) →
      (∃ read t rest, tokens = read ++ t :: rest ∧ Opening (kindsOf read) ∧
        ¬ Opening (kindsOf (read ++ [t])) ∧ Blames ds result t) ∨
      Opening (kindsOf tokens) ∧ FirstSays ds result.out finishError) ∧
    (.kwCase ∈ kindsOf tokens → Sentence (kindsOf tokens) →
      ∃ kind, result.tree = .error (.noAttribute kind "type")) := by
  rw [fault_ofDeliveries] at sound
  rw [tokens_ofDeliveries]
  obtain ⟨ending, run, result_eq⟩ := parseSupply_cases line ds
  rw [sound] at run
  rw [result_eq]
  refine ⟨fun noCase sentence => ?_, fun noCase other => run.of_other noCase other,
    fun choice sentence => ?_⟩
  · rcases run.of_sentence sentence with ⟨_, parsed⟩ | ⟨choice, _⟩
    · exact parsed
    · exact absurd choice noCase
  · rcases run.of_sentence sentence with ⟨noCase, _⟩ | ⟨_, failed⟩
    · exact absurd choice noCase
    · exact failed

def deliveries (kinds : List TokenKind) : List Delivery :=
  kinds.map fun k => ⟨"", 1, .ok (some ⟨k, .str k.name, 1, 0⟩)⟩

def elseAfterTwoIfs : List TokenKind :=
  [.kwProgram, .ident, .semicolon, .kwBegin, .kwIf, .bool, .kwThen, .kwIf, .bool, .kwThen, .kwElse,
    .kwEnd, .dot]

theorem elseAfterTwoIfs_sentence : Sentence elseAfterTwoIfs := by
  have header : Yields [.phrase .header] [.kwProgram, .ident] :=
    .single (r := 2) rfl (.token _ (.token _ .nil))
  have condition : Yields [.phrase .expression] [.bool] :=
    .single (r := 84) rfl (.single (r := 85) rfl (.single (r := 87) rfl
      (.single (r := 106) rfl (.token _ .nil))))
  have nothing : Yields [.phrase .statement] [] := .single (r := 50) rfl .nil
  have inner : Yields [.phrase .statement] [.kwIf, .bool, .kwThen, .kwElse] :=
    .single (r := 40) rfl (.single (r := 74) rfl
      (.token _ (condition.append (.token _ (nothing.append (.token _ nothing))))))
  have outer : Yields [.phrase .statements]
      [.kwIf, .bool, .kwThen, .kwIf, .bool, .kwThen, .kwElse] :=
    .single (r := 37) rfl (.single (r := 40) rfl (.single (r := 75) rfl
      (.token _ (condition.append (.token _ inner)))))
  have body : Yields [.phrase .statementPart]
      [.kwBegin, .kwIf, .bool, .kwThen, .kwIf, .bool, .kwThen, .kwElse, .kwEnd] :=
    .single (r := 35) rfl (.token _ (outer.append (.token _ .nil)))
  have block := Yields.single (r := 3) rfl
    (.phrase (r := 6) rfl .nil (.phrase (r := 15) rfl .nil body))
  exact .single (r := 1) rfl (header.append (.token _ (block.append (.token _ .nil))))

def secondElse : List TokenKind :=
  [.kwProgram, .ident, .semicolon, .kwBegin, .kwIf, .bool, .kwThen, .kwElse, .kwElse, .kwEnd, .dot]

def isNothing : Except Fault Tree → Bool
  | .ok .none => true
  | _ => false

theorem eq_none_of_isNothing {result : Except Fault Tree} {tree : Tree} (parsed : result = .ok tree)
    (h : isNothing result = true) : tree = .none := by
  subst parsed
  unfold isNothing at h
  split at h
  · rename_i same
    cases same
    rfl
  · cases h

/-- An `else` after two conditions is parsed, and one after an `else` is blamed. -/
theorem inner_else_parsed_second_blamed :
    let parsing kinds := parseSupply 1 ((deliveries kinds).map (supply id))
    let tokens := (Reading.ofDeliveries (fun _ => "") 1 (deliveries secondElse)).tokens
    (∃ tree taken, (parsing elseAfterTwoIfs).tree = .ok tree ∧ tree ≠ .none ∧
      taken <+: deliveries elseAfterTwoIfs ∧ Announced taken (parsing elseAfterTwoIfs).out) ∧
    ((∃ read t rest, tokens = read ++ t :: rest ∧ Opening (kindsOf read) ∧
        ¬ Opening (kindsOf (read ++ [t])) ∧
        Blames (deliveries secondElse) (parsing secondElse) t) ∨
      Opening (kindsOf tokens) ∧
        FirstSays (deliveries secondElse) (parsing secondElse).out finishError) := by
  intro parsing tokens
  have first := parses_exactly_the_sentences 1 (deliveries elseAfterTwoIfs) rfl
  have second := parses_exactly_the_sentences 1 (deliveries secondElse) rfl
  have failed : isNothing (parsing secondElse).tree = true := by decide +kernel
  have other : ¬ Sentence (kindsOf tokens) := by
    intro sentence
    obtain ⟨tree, _, parsed, present, -⟩ := second.1 (by decide) sentence
    exact present (eq_none_of_isNothing parsed failed)
  exact ⟨first.1 (by decide) elseAfterTwoIfs_sentence, second.2.1 (by decide) other⟩

end PascalStack.Pascal
