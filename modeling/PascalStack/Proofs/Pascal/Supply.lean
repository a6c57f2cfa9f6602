import PascalStack.Pascal.Parser
import PascalStack.Proofs.Pascal.Acceptance
import PascalStack.Proofs.Pascal.Builds
import PascalStack.Proofs.Pascal.Stack

/-!
# What a run has still to read

The tokens that deliveries bring, what is printed while they are taken, and the part of a
configuration that holds what is still to be read.
-/

namespace PascalStack.Pascal

open LR

abbrev Config := Configuration TokenKind Phrase Tree

def arriving : List Delivery → List Token
  | [] => []
  | d :: ds =>
    match d.token with
    | .ok (some t) => t :: arriving ds
    | _ => []

def spoiled : List Delivery → Option Fault
  | [] => none
  | d :: ds =>
    match d.token with
    | .ok (some _) => spoiled ds
    | .ok none => none
    | .error f => some f

theorem tokens_ofDeliveries (echo : Token → String) (line : Nat) (ds : List Delivery) :
    (Reading.ofDeliveries echo line ds).tokens = arriving ds := by
  induction ds generalizing line with
  | nil => rfl
  | cons d ds ih =>
    rw [Reading.ofDeliveries, arriving]
    split <;> simp_all

theorem fault_ofDeliveries (echo : Token → String) (line : Nat) (ds : List Delivery) :
    (Reading.ofDeliveries echo line ds).fault = spoiled ds := by
  induction ds generalizing line with
  | nil => rfl
  | cons d ds ih =>
    rw [Reading.ofDeliveries, spoiled]
    split <;> simp_all

/-- A text printed while deliveries are taken, with nothing in it but their reports and
announcements that a loop is left. -/
inductive Announced : List Delivery → String → Prop
  | nil : Announced [] ""
  | report (d : Delivery) {ds : List Delivery} {text : String} :
      Announced ds text → Announced (d :: ds) (d.report ++ text)
  | leave {ds : List Delivery} {text : String} :
      Announced ds text → Announced ds (leavingLine ++ text)

theorem Announced.append {ds later : List Delivery} {text more : String}
    (first : Announced ds text) (second : Announced later more) :
    Announced (ds ++ later) (text ++ more) := by
  induction first with
  | nil => simpa using second
  | report d _ ih =>
    rw [String.append_assoc]
    exact ih.report d
  | leave _ ih =>
    rw [String.append_assoc]
    exact ih.leave

theorem announced_report (d : Delivery) : Announced [d] d.report := by
  simpa using Announced.nil.report d

theorem announced_leave : Announced [] leavingLine := by
  simpa using Announced.nil.leave

/-- What is ahead of a configuration with a given lookahead: tokens, and then the end of the text
or a fault. -/
inductive Ahead : Option Fault → Option (Lookahead TokenKind Tree) → List Delivery → List Token → Prop
  | fresh (ds : List Delivery) : Ahead (spoiled ds) none ds (arriving ds)
  | token (t : Token) (ds : List Delivery) :
      Ahead (spoiled ds) (some (lookahead id t)) ds (t :: arriving ds)
  | finish (value : Tree) (line : Nat) (ds : List Delivery) :
      Ahead none (some ⟨.finish, value, line⟩) ds []

inductive Looks : Lookahead TokenKind Tree → List Token → Prop
  | token (t : Token) (rest : List Token) : Looks (lookahead id t) (t :: rest)
  | finish (value : Tree) (line : Nat) : Looks ⟨.finish, value, line⟩ []

theorem Looks.terminal_eq {look : Lookahead TokenKind Tree} {rest : List Token}
    (h : Looks look rest) : look.terminal = next (kindsOf rest) .finish := by
  cases h <;> rfl

/-- From one configuration to a later one: deliveries are taken, nothing is printed but what they
report and that loops are left, and no complaint becomes due later. -/
structure Advances (c : Config) (ds : List Delivery) (c' : Config) (ds' : List Delivery) : Prop where
  patience : c'.patience ≤ c.patience
  said : ∃ taken text, ds = taken ++ ds' ∧ c'.out = c.out ++ text ∧ Announced taken text

theorem Advances.refl (c : Config) (ds : List Delivery) : Advances c ds c ds :=
  ⟨Nat.le_refl _, [], "", rfl, by simp, .nil⟩

theorem Advances.trans {c₁ c₂ c₃ : Config} {ds₁ ds₂ ds₃ : List Delivery}
    (first : Advances c₁ ds₁ c₂ ds₂) (second : Advances c₂ ds₂ c₃ ds₃) :
    Advances c₁ ds₁ c₃ ds₃ := by
  refine ⟨Nat.le_trans second.patience first.patience, ?_⟩
  obtain ⟨taken, text, rfl, out_eq, announced⟩ := first.said
  obtain ⟨taken', text', rfl, out_eq', announced'⟩ := second.said
  refine ⟨taken ++ taken', text ++ text', by simp, ?_, announced.append announced'⟩
  rw [out_eq', out_eq, String.append_assoc]

/-- A configuration without an error: its stack holds the tokens read since the start, and the
rest is ahead. -/
structure Proceeds (fault : Option Fault) (c : Config) (ds : List Delivery)
    (read rest : List Token) : Prop where
  holds : Holds c.stack read
  feed : c.feed = ds.map (supply id)
  pending : c.pending = []
  ahead : Ahead fault c.lookahead ds rest

variable {fault : Option Fault} {c : Config} {ds : List Delivery} {read rest : List Token}

inductive Fetches (fault : Option Fault) (c : Config) (ds : List Delivery)
    (read rest : List Token) : Except Fault (Lookahead TokenKind Tree) × Config → Prop
  | fault {f : Fault} {c' : Config} : fault = some f → Fetches fault c ds read rest (.error f, c')
  | look {look : Lookahead TokenKind Tree} {c' : Config} {ds' : List Delivery} :
      Advances c ds c' ds' → Proceeds fault c' ds' read rest → c'.lookahead = some look →
      Looks look rest → c'.stack = c.stack → Fetches fault c ds read rest (.ok look, c')

theorem Proceeds.fetches (h : Proceeds fault c ds read rest) :
    Fetches fault c ds read rest (Machine.fetch c) := by
  obtain ⟨holds, feed, pending, ahead⟩ := h
  unfold Machine.fetch
  cases c with
  | mk stack look waiting supplies patience line out =>
  subst feed pending
  cases ahead with
  | token t ds => exact .look (.refl _ _) ⟨holds, rfl, rfl, .token t ds⟩ rfl (.token t _) rfl
  | finish value line ds =>
    exact .look (.refl _ _) ⟨holds, rfl, rfl, .finish value line ds⟩ rfl (.finish value line) rfl
  | fresh ds =>
    cases ds with
    | nil =>
      exact .look ⟨Nat.le_refl _, [], "", rfl, by simp, .nil⟩ ⟨holds, rfl, rfl, .finish _ _ []⟩ rfl
        (.finish _ _) rfl
    | cons d ds =>
      obtain ⟨report, reached, item⟩ := d
      have said {c' : Config} (out_eq : c'.out = out ++ report) (same : c'.patience = patience) :
          Advances ⟨stack, none, [], (⟨report, reached, item⟩ :: ds).map (supply id), patience, line,
            out⟩ (⟨report, reached, item⟩ :: ds) c' ds :=
        ⟨Nat.le_of_eq same, [_], report, rfl, out_eq, announced_report ⟨report, reached, item⟩⟩
      match item with
      | .error f => exact .fault rfl
      | .ok none => exact .look (said rfl rfl) ⟨holds, rfl, rfl, .finish _ _ ds⟩ rfl (.finish _ _) rfl
      | .ok (some t) => exact .look (said rfl rfl) ⟨holds, rfl, rfl, .token t ds⟩ rfl (.token t _) rfl

end PascalStack.Pascal
