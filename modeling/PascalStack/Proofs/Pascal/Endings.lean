import PascalStack.Proofs.Number.Numeral
import PascalStack.Proofs.Pascal.Recovery

/-!
# How runs end

Each step of a run lowers a bound on the steps that are left, also while the stack is unwound after
an error, so every run stops. What is true of every stack that is read, a run keeps to its end. It
ends with a tree, without one, or with a fault of a case, of the text of a value or of a delivery,
and the table is never left without a state to go to.
-/

namespace PascalStack.Pascal

open LR

structure Invariant (all : List Token)
    (P : List (Frame TokenKind Phrase Tree) → List Token → Prop) : Prop where
  start (rest : List Token) : P [] rest
  shift {q : Nat} {t : Token} {stack : List (Frame TokenKind Phrase Tree)} {rest : List Token} :
    t ∈ all → P stack (t :: rest) → P (⟨q, .terminal (.token t.kind), t.value⟩ :: stack) rest
  reduce {stack stack' : List (Frame TokenKind Phrase Tree)} {rest : List Token} :
    P stack rest → Reduced stack (next (kindsOf rest) .finish) stack' → P stack' rest

variable {fault : Option Fault} {all : List Token}
  {P : List (Frame TokenKind Phrase Tree) → List Token → Prop}

/-- A run that reads, or unwinds after an error, with at most `left` steps before its last. -/
inductive Underway (fault : Option Fault) (all : List Token)
    (P : List (Frame TokenKind Phrase Tree) → List Token → Prop) (left : Nat) : Config → Prop
  | reading {c : Config} {ds : List Delivery} {read rest : List Token} :
      Proceeds fault c ds read rest → read ++ rest <:+ all → P c.stack rest →
      weight c.stack rest ≤ left → Underway fault all P left c
  | unwinding {c : Config} {ds : List Delivery} :
      Unwinds c ds → spoiled ds = fault → arriving ds <:+ all →
      9 * (arriving ds).length + c.stack.length < left → Underway fault all P left c

inductive Ending (fault : Option Fault) (all : List Token)
    (P : List (Frame TokenKind Phrase Tree) → List Token → Prop) : Outcome Tree → Prop
  | accepted {frame : Frame TokenKind Phrase Tree} :
      P [frame] [] → frame.value ≠ .none → Ending fault all P (.accepted frame.value)
  | rejected : Ending fault all P .rejected
  | unbuilt {kind : String} :
      .kwCase ∈ kindsOf all → Ending fault all P (.faulted (.noAttribute kind "type"))
  | unwritten {t : Token} {f : Fault} :
      t ∈ all → t.value.text = .error f → Ending fault all P (.faulted f)
  | unread {f : Fault} : fault = some f → Ending fault all P (.faulted f)

inductive Progress (fault : Option Fault) (all : List Token)
    (P : List (Frame TokenKind Phrase Tree) → List Token → Prop) (left : Nat) :
    Step TokenKind Phrase Tree → Prop
  | next {c : Config} {less : Nat} :
      less < left → Underway fault all P less c → Progress fault all P left (.next c)
  | done {c : Config} {outcome : Outcome Tree} :
      Ending fault all P outcome → Progress fault all P left (.done c outcome)

variable {c : Config} {ds : List Delivery} {left : Nat}

theorem Recovers.underway {height : Nat} (inv : Invariant all P) (h : Recovers ds height c)
    (fault_eq : spoiled ds = fault) (within : arriving ds <:+ all) :
    Underway fault all P (9 * (arriving ds).length + height) c := by
  cases h with
  | unwinding unwinds less => exact .unwinding unwinds fault_eq within (by omega)
  | anew proceeds empty =>
    rw [fault_eq] at proceeds
    refine .reading proceeds within ?_ ?_
    · rw [empty]
      exact inv.start _
    · rw [empty]
      simp only [weight, topHeight, List.length_nil]
      omega

theorem Proceeds.recover_progress {t : Token} {read rest : List Token} (inv : Invariant all P)
    (h : Proceeds fault c ds read (t :: rest)) (within : read ++ t :: rest <:+ all)
    (look : c.lookahead = some (lookahead id t)) (unsettled : settled (topState c.stack) = none)
    (less : weight c.stack (t :: rest) ≤ left) :
    Progress fault all P left (machine.recover (lookahead id t) c) := by
  obtain ⟨fault_eq, rest_eq⟩ := h.ahead.of_token look
  have later : rest <:+ all :=
    ((List.suffix_cons t rest).trans (List.suffix_append read (t :: rest))).trans within
  rcases recover_eq_unwind c t with ⟨c', f, unwritten, stops⟩ | ⟨out, recover_eq, -, -⟩
  · rw [stops]
    exact .done (.unwritten (within.subset (by simp)) unwritten)
  · have marked : Proceeds fault { c with out := out, patience := errorPatience } ds read (t :: rest) :=
      ⟨h.holds, h.feed, h.pending, h.ahead⟩
    obtain ⟨c', unwind_eq, -, recovers⟩ := marked.unwind_cases look unsettled (Nat.succ_ne_zero 2)
    rw [recover_eq, unwind_eq]
    refine .next ?_ (recovers.underway inv fault_eq.symm (rest_eq ▸ later))
    simp only [weight, List.length_cons] at less
    change 9 * (arriving ds).length + (c.stack.length + 1) < left
    rw [← rest_eq]
    omega

theorem Underway.step {c : Config} {left : Nat} (inv : Invariant all P)
    (h : Underway fault all P left c) : Progress fault all P left (machine.step c) := by
  cases h with
  | unwinding unwinds fault_eq within less =>
    obtain ⟨c', step_eq, -, recovers⟩ := unwinds.step_cases
    rw [step_eq]
    exact .next less (recovers.underway inv fault_eq within)
  | @reading ds read rest proceeds within kept less =>
    have step := proceeds.step_cases
    generalize machine.step c = s at step
    cases step with
    | @shift t rest' c' ds' q rest_eq _ proceeds' stack_eq falls _ =>
      subst rest_eq
      refine .next (Nat.lt_of_lt_of_le falls less) (.reading proceeds' ?_ ?_ (Nat.le_refl _))
      · rwa [← List.append_cons]
      · rw [stack_eq]
        exact inv.shift (within.subset (by simp)) kept
    | reduce _ proceeds' reduced falls _ =>
      exact .next (Nat.lt_of_lt_of_le falls less)
        (.reading proceeds' within (inv.reduce kept reduced) (Nat.le_refl _))
    | accept rest_eq _ stack_eq evaluates =>
      rw [stack_eq, rest_eq] at kept
      exact .done (.accepted kept evaluates.program_ne_none)
    | unbuilt choice =>
      obtain ⟨t, member, kind_eq⟩ := List.mem_map.mp choice
      exact .done (.unbuilt (List.mem_map.mpr ⟨t, within.subset (by simp [member]), kind_eq⟩))
    | unread spoilt => exact .done (.unread spoilt)
    | @error look c' ds' _ _ proceeds' look_eq same looks unsettled _ =>
      rw [← same] at less unsettled
      cases looks with
      | finish value line =>
        obtain ⟨c'', recover_eq⟩ := recover_finish value line c'
        rw [recover_eq]
        exact .done .rejected
      | token t rest' => exact proceeds'.recover_progress inv within look_eq unsettled less

theorem Underway.run (inv : Invariant all P) (h : Underway fault all P left c) :
    ∃ outcome c', Ending fault all P outcome ∧
      ∀ fuel, left < fuel → machine.run fuel c = (outcome, c') := by
  induction left using Nat.strong_induction_on generalizing c with
  | _ left ih =>
    have step := h.step inv
    generalize step_eq : machine.step c = s at step
    cases step with
    | @next c₁ less falls underway =>
      obtain ⟨outcome, c', ending, runs⟩ := ih less falls underway
      refine ⟨outcome, c', ending, fun fuel enough => ?_⟩
      obtain ⟨fuel, rfl⟩ := Nat.exists_eq_succ_of_ne_zero (Nat.ne_zero_of_lt enough)
      rw [run_succ, step_eq]
      exact runs fuel (by omega)
    | @done c' outcome ending =>
      refine ⟨outcome, c', ending, fun fuel enough => ?_⟩
      obtain ⟨fuel, rfl⟩ := Nat.exists_eq_succ_of_ne_zero (Nat.ne_zero_of_lt enough)
      rw [run_succ, step_eq]
      rfl

theorem Underway.of_reaches {c' : Config} (inv : Invariant all P) (h : Underway fault all P left c)
    (reached : Reaches c c') : ∃ left', Underway fault all P left' c' := by
  induction reached with
  | refl => exact ⟨left, h⟩
  | tail _ step_eq ih =>
    obtain ⟨left', underway⟩ := ih
    have step := underway.step inv
    rw [step_eq] at step
    cases step with
    | next _ underway' => exact ⟨_, underway'⟩

theorem underway_start (inv : Invariant all P) (line : Nat) (ds : List Delivery)
    (arrive : arriving ds <:+ all) :
    Underway (spoiled ds) all P (9 * (arriving ds).length) (start line ds) :=
  .reading (proceeds_start line ds) arrive (inv.start _) (Nat.le_refl _)

theorem parse_ends (line : Nat) (ds : List Delivery) (inv : Invariant (arriving ds) P) :
    ∃ outcome c', Ending (spoiled ds) (arriving ds) P outcome ∧
      (∀ fuel, 9 * (arriving ds).length < fuel →
        machine.run fuel (start line ds) = (outcome, c')) ∧
      machine.parse rules.size line (ds.map (supply id)) = (outcome, c') := by
  obtain ⟨outcome, c', ending, runs⟩ :=
    (underway_start inv line ds (List.suffix_refl _)).run inv
  refine ⟨outcome, c', ending, runs, ?_⟩
  have enough := enough_fuel ds
  rw [Machine.parse, List.length_map]
  exact runs _ enough

theorem text_of_valueOf {kind : TokenKind} {lexeme : List Char} {value : Tree}
    (h : Piece.valueOf kind lexeme = .ok value) : ∃ text, value.text = .ok text := by
  cases kind with
  | number =>
    simp only [Piece.valueOf] at h
    split at h
    · cases h
      exact ⟨_, rfl⟩
    · cases read : Number.readInteger (String.ofList lexeme) with
      | error f =>
        rw [read] at h
        cases h
      | ok n =>
        rw [read] at h
        cases h
        exact ⟨_, Number.integerText_of_readInteger read⟩
  | _ =>
    cases h
    exact ⟨_, rfl⟩

/-- On any tokens of the language the machine stops, after at most nine steps for each token and one
more: it accepts a tree, rejects, or fails at a case of a choice. At no step, in reading or after
any number of errors, does it take more from the stack than is there or miss a state to go to. -/
theorem parser_stops_unstuck (line : Nat) (ds : List Delivery)
    (sound : (Reading.ofDeliveries (fun _ => "") line ds).fault = none)
    (valued : ∀ t ∈ (Reading.ofDeliveries (fun _ => "") line ds).tokens,
      ∃ lexeme, Piece.valueOf t.kind lexeme = .ok t.value) :
    let tokens := (Reading.ofDeliveries (fun _ => "") line ds).tokens
    (∃ outcome c,
      (∀ fuel, 9 * tokens.length < fuel → machine.run fuel (start line ds) = (outcome, c)) ∧
      machine.parse rules.size line (ds.map (supply id)) = (outcome, c) ∧
      ((∃ tree, outcome = .accepted tree ∧ tree ≠ .none) ∨ outcome = .rejected ∨
        .kwCase ∈ kindsOf tokens ∧ ∃ kind, outcome = .faulted (.noAttribute kind "type"))) ∧
    ∀ c, Reaches (start line ds) c → ∀ c', machine.step c ≠ .done c' .stuck := by
  rw [fault_ofDeliveries] at sound
  rw [tokens_ofDeliveries] at valued ⊢
  intro tokens
  have inv : Invariant tokens fun _ _ => True :=
    ⟨fun _ => trivial, fun _ _ => trivial, fun _ _ => trivial⟩
  refine ⟨?_, fun c reached c' stuck => ?_⟩
  · obtain ⟨outcome, c, ending, runs, parses⟩ := parse_ends line ds inv
    refine ⟨outcome, c, runs, parses, ?_⟩
    cases ending with
    | accepted _ present => exact .inl ⟨_, rfl, present⟩
    | rejected => exact .inr (.inl rfl)
    | unbuilt choice => exact .inr (.inr ⟨choice, _, rfl⟩)
    | unwritten member unwritten =>
      obtain ⟨lexeme, value_eq⟩ := valued _ member
      obtain ⟨text, text_eq⟩ := text_of_valueOf value_eq
      rw [unwritten] at text_eq
      cases text_eq
    | unread spoilt =>
      rw [sound] at spoilt
      cases spoilt
  · obtain ⟨left, underway⟩ :=
      (underway_start inv line ds (List.suffix_refl _)).of_reaches inv reached
    have step := underway.step inv
    rw [stuck] at step
    cases step with
    | done ending => cases ending

/-- Words that start no program are dropped, and the machine stops in a program that is broken
off. -/
theorem parser_stops_on_broken_program :
    let delivered (k : TokenKind) : Delivery := ⟨"", 1, .ok (some ⟨k, .str k.name, 1, 0⟩)⟩
    let ds := [.kwElse, .kwEnd, .kwProgram, .ident, .semicolon, .kwBegin, .kwElse].map delivered
    (Reading.ofDeliveries (fun _ => "") 1 ds).fault = none ∧
      (∃ outcome c, machine.run 64 (start 1 ds) = (outcome, c) ∧
        machine.parse rules.size 1 (ds.map (supply id)) = (outcome, c) ∧
        ((∃ tree, outcome = .accepted tree ∧ tree ≠ .none) ∨ outcome = .rejected)) ∧
      ∀ c, Reaches (start 1 ds) c → ∀ c', machine.step c ≠ .done c' .stuck := by
  intro delivered ds
  have sound : (Reading.ofDeliveries (fun _ => "") 1 ds).fault = none := rfl
  have valued : ∀ t ∈ (Reading.ofDeliveries (fun _ => "") 1 ds).tokens,
      ∃ lexeme, Piece.valueOf t.kind lexeme = .ok t.value := by
    intro t member
    refine ⟨t.kind.name.toList, ?_⟩
    simp only [ds, delivered, List.map_cons, List.map_nil, Reading.ofDeliveries,
      List.mem_cons, List.not_mem_nil, or_false] at member
    rcases member with rfl | rfl | rfl | rfl | rfl | rfl | rfl <;>
      simp [Piece.valueOf, String.ofList_toList]
  obtain ⟨⟨outcome, c, runs, parses, ends⟩, unstuck⟩ := parser_stops_unstuck 1 ds sound valued
  refine ⟨sound, ⟨outcome, c, runs 64 (by decide), parses, ?_⟩, unstuck⟩
  rcases ends with accepted | rejected | ⟨choice, -⟩
  · exact .inl accepted
  · exact .inr rejected
  · exact absurd choice (by decide)

end PascalStack.Pascal
