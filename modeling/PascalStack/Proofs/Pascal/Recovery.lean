import Mathlib.Logic.Relation
import PascalStack.Proofs.Pascal.Exactness

/-!
# What a parse is a tree of

After an error the stack is unwound to its bottom, the token at fault is dropped, and the machine
starts again on what follows. So a tree that is returned is the value of a program that is a suffix
of the tokens, which starts after the last token at fault.
-/

namespace PascalStack.Pascal

open LR

def Reaches : Config → Config → Prop :=
  Relation.ReflTransGen fun c c' => machine.step c = .next c'

/-- A configuration is in error at a token: it looks at the token, has no action on it, and has
`later` to read after it. -/
structure InError (c : Config) (t : Token) (later : List Token) : Prop where
  unsettled : settled (topState c.stack) = none
  stuck : action (topState c.stack) (.token t.kind) = none
  ahead : ∃ c' ds, Machine.fetch c = (.ok (lookahead id t), c') ∧ c'.pending = [] ∧
    c'.feed = ds.map (supply id) ∧ arriving ds = later

def Complained (tokens : List Token) (out : String) : Prop :=
  ∃ t ∈ tokens, ∃ text before after, t.value.text = .ok text ∧
    out = before ++ syntaxError text t.line ++ after

variable {tokens read rest dropped later : List Token} {before after : String}
  {f : Frame TokenKind Phrase Tree} {stack : List (Frame TokenKind Phrase Tree)}
  {fault : Option Fault} {t : Token} {c' : Config} {ds' : List Delivery} {tree : Tree}

theorem Complained.extends (h : Complained tokens before) (more : Extends before after) :
    Complained tokens after := by
  obtain ⟨t, member, text, first, last, text_eq, rfl⟩ := h
  obtain ⟨rest, rfl⟩ := more
  exact ⟨t, member, text, first, last ++ rest, text_eq, by simp only [String.append_assoc]⟩

theorem syntaxError_ne_nil (text : String) (line : Nat) : (syntaxError text line).toList ≠ [] := by
  unfold syntaxError
  rw [String.toList_append]
  exact List.append_ne_nil_of_right_ne_nil _ (by decide)

theorem not_complained_empty (tokens : List Token) : ¬ Complained tokens "" := by
  rintro ⟨t, _, text, before, after, _, out_eq⟩
  have empty : (before ++ syntaxError text t.line ++ after).toList = [] := by rw [← out_eq]; rfl
  rw [String.toList_append, String.toList_append] at empty
  obtain ⟨first, -⟩ := List.append_eq_nil_iff.mp empty
  exact syntaxError_ne_nil text t.line (List.append_eq_nil_iff.mp first).2

def Dropped (origin : Config) (tokens dropped later : List Token) (out : String) : Prop :=
  ∃ earlier t c, dropped = earlier ++ [t] ∧ Reaches origin c ∧ InError c t later ∧
    Complained tokens out

structure Unwinds (c : Config) (ds : List Delivery) : Prop where
  holds : ∃ read, Holds c.stack read
  unsettled : settled (topState c.stack) = none
  feed : c.feed = ds.map (supply id)
  mark : ∃ value line, c.lookahead = some ⟨.error, value, line⟩
  patience : c.patience ≠ 0

theorem Holds.unsettled_below (h : Holds (f :: stack) read) : settled (topState stack) = none := by
  cases h with
  | push _ moved _ =>
    cases found : settled (topState stack) with
    | none => rfl
    | some r =>
      rw [move_of_settled found] at moved
      cases moved

theorem Holds.pop (h : Holds (f :: stack) read) : ∃ before, Holds stack before := by
  cases h with
  | push rest _ _ => exact ⟨_, rest⟩

/-- What follows an error: less than `height` frames are left to unwind, or there are none and the
machine reads on. -/
inductive Recovers (ds : List Delivery) (height : Nat) (c : Config) : Prop
  | unwinding : Unwinds c ds → c.stack.length < height → Recovers ds height c
  | anew : Proceeds (spoiled ds) c ds [] (arriving ds) → c.stack = [] → Recovers ds height c

theorem Unwinds.step_cases {c : Config} {ds : List Delivery} (h : Unwinds c ds) :
    ∃ c', machine.step c = .next c' ∧ c'.out = c.out ∧ Recovers ds c.stack.length c' := by
  obtain ⟨⟨read, holds⟩, unsettled, feed, ⟨value, line, mark⟩, patience⟩ := h
  obtain ⟨stack, look, pending, supplies, left, reached, out⟩ := c
  subst feed mark
  have settled_eq : machine.settled (topState stack) = none := unsettled
  have action_eq : machine.action (topState stack) .error = none := action_error _
  unfold Machine.step
  simp only [settled_eq, Machine.fetch, action_eq]
  unfold Machine.recover
  rw [if_neg patience]
  cases stack with
  | nil => exact ⟨_, rfl, rfl, .anew ⟨.nil, rfl, rfl, .fresh ds⟩ rfl⟩
  | cons f below =>
    exact ⟨_, rfl, rfl, .unwinding ⟨holds.pop, holds.unsettled_below, rfl, ⟨value, line, rfl⟩,
      Nat.succ_ne_zero 2⟩ (Nat.lt_succ_self _)⟩

theorem recover_eq_unwind (c : Config) (t : Token) :
    (∃ c' f, t.value.text = .error f ∧
        machine.recover (lookahead id t) c = .done c' (.faulted f)) ∨
      ∃ out, machine.recover (lookahead id t) c =
          machine.unwind (lookahead id t) { c with out := out, patience := errorPatience } ∧
        Extends c.out out ∧ (c.patience = 0 →
          ∃ text, t.value.text = .ok text ∧ out = c.out ++ syntaxError text t.line) := by
  unfold Machine.recover
  by_cases due : c.patience = 0
  · rw [if_pos due]
    cases found : t.value.text with
    | error f =>
      have complain_eq : machine.complain (Machine.culprit (lookahead id t)) c.out =
          .error f c.out := by
        simp only [machine, Machine.culprit, lookahead, complain, found]
        rfl
      rw [complain_eq]
      exact .inl ⟨_, f, rfl, rfl⟩
    | ok text =>
      have complain_eq : machine.complain (Machine.culprit (lookahead id t)) c.out =
          .ok () (c.out ++ syntaxError text t.line) := by
        simp only [machine, Machine.culprit, lookahead, complain, found]
        rfl
      rw [complain_eq]
      exact .inr ⟨_, rfl, ⟨_, rfl⟩, fun _ => ⟨text, rfl, rfl⟩⟩
  · rw [if_neg due]
    exact .inr ⟨c.out, rfl, .refl _, fun h => absurd h due⟩

theorem Proceeds.unwind_cases {c : Config} {ds : List Delivery}
    (h : Proceeds fault c ds read (t :: rest)) (look : c.lookahead = some (lookahead id t))
    (unsettled : settled (topState c.stack) = none) (waits : c.patience ≠ 0) :
    ∃ c', machine.unwind (lookahead id t) c = .next c' ∧ c'.out = c.out ∧
      Recovers ds (c.stack.length + 1) c' := by
  obtain ⟨holds, feed, pending, ahead⟩ := h
  obtain ⟨stack, look, waiting, supplies, left, reached, out⟩ := c
  subst feed pending
  cases holds with
  | nil => exact ⟨_, rfl, rfl, .anew ⟨.nil, rfl, rfl, .fresh ds⟩ rfl⟩
  | @push stack read tokens X q value rest moved derived =>
    have all : Holds (⟨q, X.symbol, value⟩ :: stack) (read ++ tokens) := .push rest moved derived
    cases X with
    | token k =>
      exact ⟨_, rfl, rfl, .unwinding ⟨⟨_, all⟩, unsettled, rfl, ⟨_, _, rfl⟩, waits⟩
        (Nat.lt_succ_self _)⟩
    | phrase n =>
      exact ⟨_, rfl, rfl, .unwinding ⟨⟨_, all⟩, unsettled, rfl, ⟨_, _, rfl⟩, waits⟩
        (Nat.lt_succ_self _)⟩

theorem Dropped.extends {origin : Config} (h : Dropped origin tokens dropped later before)
    (more : Extends before after) : Dropped origin tokens dropped later after := by
  obtain ⟨earlier, t, c, dropped_eq, reached, error, complained⟩ := h
  exact ⟨earlier, t, c, dropped_eq, reached, error, complained.extends more⟩

/-- No error so far: nothing was printed but reports and that loops are left, and a complaint
would be made at once. -/
structure Faultless (all : List Delivery) (c : Config) (ds : List Delivery) : Prop where
  patience : c.patience = 0
  said : ∃ taken, all = taken ++ ds ∧ Announced taken c.out

theorem Advances.extends {c : Config} {ds : List Delivery} (h : Advances c ds c' ds') :
    Extends c.out c'.out := by
  obtain ⟨_, text, _, out_eq, _⟩ := h.said
  exact ⟨text, out_eq⟩

theorem Faultless.advance {all ds : List Delivery} {c : Config} (h : Faultless all c ds)
    (advances : Advances c ds c' ds') : Faultless all c' ds' := by
  have patience := advances.patience
  obtain ⟨taken, rfl, announced⟩ := h.said
  obtain ⟨more, text, rfl, out_eq, announced'⟩ := advances.said
  refine ⟨by rw [h.patience] at patience; omega, taken ++ more, by simp, ?_⟩
  rw [out_eq]
  exact announced.append announced'

def Excused (origin : Config) (all : List Delivery) (c : Config) (ds : List Delivery)
    (dropped later : List Token) : Prop :=
  dropped = [] ∧ Faultless all c ds ∨ Dropped origin (arriving all) dropped later c.out

theorem Excused.advance {origin c : Config} {all ds : List Delivery}
    (h : Excused origin all c ds dropped later) (advances : Advances c ds c' ds') :
    Excused origin all c' ds' dropped later := by
  rcases h with ⟨none, faultless⟩ | excuse
  · exact .inl ⟨none, faultless.advance advances⟩
  · exact .inr (excuse.extends advances.extends)

/-- A run reads on, or unwinds after an error. What it reads is a suffix of the tokens. -/
inductive Stage (origin : Config) (all : List Delivery) : Config → Prop
  | reading {fault : Option Fault} {c : Config} {ds : List Delivery}
      {dropped read rest : List Token} :
      Proceeds fault c ds read rest → arriving all = dropped ++ (read ++ rest) →
      Excused origin all c ds dropped (read ++ rest) → Stage origin all c
  | unwinding {c : Config} {ds : List Delivery} {dropped : List Token} :
      Unwinds c ds → arriving all = dropped ++ arriving ds →
      Dropped origin (arriving all) dropped (arriving ds) c.out → Stage origin all c

/-- A tree is the value of a suffix of the tokens, and the tokens before it were dropped for a
reason. -/
def Found (origin : Config) (all : List Delivery) (tree : Tree) (out : String) : Prop :=
  ∃ dropped suffix, arriving all = dropped ++ suffix ∧
    Evaluates [.phrase .program] suffix [tree] ∧
    (dropped = [] ∧ (∃ taken, taken <+: all ∧ Announced taken out) ∨
      Dropped origin (arriving all) dropped suffix out)

variable {origin c : Config} {all ds : List Delivery}

theorem Stage.of_dropped {out : String} {height : Nat}
    (tokens_eq : arriving all = dropped ++ arriving ds)
    (excuse : Dropped origin (arriving all) dropped (arriving ds) out) (same : c'.out = out)
    (h : Recovers ds height c') : Stage origin all c' := by
  subst same
  cases h with
  | unwinding unwinds _ => exact .unwinding unwinds tokens_eq excuse
  | anew proceeds _ => exact .reading proceeds tokens_eq (.inr excuse)

theorem Stage.of_error (reached : Reaches origin c)
    (tokens_eq : arriving all = dropped ++ (read ++ t :: rest))
    (excused : Excused origin all c' ds' dropped (read ++ t :: rest))
    (fetched : Machine.fetch c = (.ok (lookahead id t), c'))
    (h : Proceeds fault c' ds' read (t :: rest)) (look : c'.lookahead = some (lookahead id t))
    (same : c'.stack = c.stack) (unsettled : settled (topState c.stack) = none)
    (stuck : action (topState c.stack) (.token t.kind) = none) :
    (∃ c'' f, machine.recover (lookahead id t) c' = .done c'' (.faulted f)) ∨
      ∃ c'', machine.recover (lookahead id t) c' = .next c'' ∧ Stage origin all c'' := by
  rcases recover_eq_unwind c' t with ⟨c'', f, _, stops⟩ | ⟨out, recover_eq, more, printed⟩
  · exact .inl ⟨c'', f, stops⟩
  right
  obtain ⟨fault_eq, rest_eq⟩ := h.ahead.of_token look
  rw [rest_eq] at tokens_eq
  have marked : Proceeds fault { c' with out := out, patience := errorPatience } ds' read (t :: rest) :=
    ⟨h.holds, h.feed, h.pending, h.ahead⟩
  obtain ⟨c'', unwind_eq, out_eq, next⟩ :=
    marked.unwind_cases look (by rw [same]; exact unsettled) (Nat.succ_ne_zero 2)
  have complained : Complained (arriving all) out := by
    rcases excused with ⟨_, faultless⟩ | ⟨_, _, _, _, _, _, complained⟩
    · obtain ⟨text, text_eq, rfl⟩ := printed faultless.patience
      exact ⟨t, by simp [tokens_eq], text, c'.out, "", text_eq, by simp⟩
    · exact complained.extends more
  have error : InError c t (arriving ds') :=
    ⟨unsettled, stuck, c', ds', fetched, h.pending, h.feed, rfl⟩
  have split : arriving all = dropped ++ read ++ [t] ++ arriving ds' := by
    rw [tokens_eq]
    simp
  exact ⟨c'', recover_eq.trans unwind_eq, .of_dropped split
    ⟨dropped ++ read, t, c, rfl, reached, error, complained⟩ out_eq next⟩

theorem recover_finish (value : Tree) (line : Nat) (c : Config) :
    ∃ c', machine.recover ⟨.finish, value, line⟩ c = .done c' .rejected := by
  have unwind_eq (c : Config) : machine.unwind ⟨.finish, value, line⟩ c = .done c .rejected := by
    simp only [Machine.unwind]
  have complain_eq : machine.complain (Machine.culprit ⟨.finish, value, line⟩) c.out =
      .ok () (c.out ++ finishError) := rfl
  unfold Machine.recover
  rw [complain_eq]
  split
  · exact ⟨_, unwind_eq _⟩
  · exact ⟨_, unwind_eq _⟩

theorem Stage.step_cases (reached : Reaches origin c) (h : Stage origin all c) :
    (∃ c', machine.step c = .next c' ∧ Stage origin all c') ∨
      (∃ c' tree, machine.step c = .done c' (.accepted tree) ∧ Found origin all tree c'.out) ∨
      ∃ c' outcome, machine.step c = .done c' outcome ∧ ∀ tree, outcome ≠ .accepted tree := by
  cases h with
  | unwinding unwinds tokens_eq excuse =>
    obtain ⟨c', step_eq, out_eq, next⟩ := unwinds.step_cases
    exact .inl ⟨c', step_eq, .of_dropped tokens_eq excuse out_eq next⟩
  | @reading fault _ ds dropped read rest proceeds tokens_eq excused =>
    have step := proceeds.step_cases
    generalize machine.step c = s at step
    cases step with
    | @shift t rest' c' ds' _ rest_eq advances proceeds' _ _ _ =>
      subst rest_eq
      rw [List.append_cons] at tokens_eq excused
      exact .inl ⟨c', rfl, .reading proceeds' tokens_eq (excused.advance advances)⟩
    | @reduce c' ds' advances proceeds' _ _ _ =>
      exact .inl ⟨c', rfl, .reading proceeds' tokens_eq (excused.advance advances)⟩
    | @accept frame c' ds' rest_eq advances _ evaluates =>
      subst rest_eq
      rw [List.append_nil] at tokens_eq excused
      refine .inr (.inl ⟨c', frame.value, rfl, dropped, read, tokens_eq, evaluates, ?_⟩)
      rcases excused.advance advances with ⟨none, faultless⟩ | excuse
      · obtain ⟨taken, all_eq, announced⟩ := faultless.said
        exact .inl ⟨none, taken, all_eq ▸ List.prefix_append taken ds', announced⟩
      · exact .inr excuse
    | unbuilt _ => exact .inr (.inr ⟨_, _, rfl, by simp⟩)
    | unread _ => exact .inr (.inr ⟨_, _, rfl, by simp⟩)
    | @error look c' ds' fetched advances proceeds' look_eq same looks unsettled stuck =>
      cases looks with
      | finish value line =>
        obtain ⟨c'', recover_eq⟩ := recover_finish value line c'
        exact .inr (.inr ⟨c'', _, recover_eq, by simp⟩)
      | token t rest' =>
        rcases Stage.of_error reached tokens_eq (excused.advance advances) fetched proceeds' look_eq
          same unsettled stuck with ⟨c'', f, recover_eq⟩ | ⟨c'', recover_eq, stage⟩
        · exact .inr (.inr ⟨c'', _, recover_eq, by simp⟩)
        · exact .inl ⟨c'', recover_eq, stage⟩

theorem Stage.run_found {fuel : Nat} (reached : Reaches origin c) (h : Stage origin all c)
    (accepted : machine.run fuel c = (.accepted tree, c')) : Found origin all tree c'.out := by
  induction fuel generalizing c with
  | zero => cases accepted
  | succ fuel ih =>
    rw [run_succ] at accepted
    rcases h.step_cases reached with ⟨c₁, step_eq, stage⟩ | ⟨c₁, tree₁, step_eq, found⟩ |
      ⟨c₁, outcome, step_eq, others⟩
    · rw [step_eq] at accepted
      exact ih (reached.tail step_eq) stage accepted
    · rw [step_eq] at accepted
      cases accepted
      exact found
    · rw [step_eq] at accepted
      cases accepted
      exact absurd rfl (others tree)

theorem found_of_parsed {line : Nat} {text : String} (parsed : (parse line text).tree = .ok tree)
    (present : tree ≠ .none) :
    Found (start line (Delivery.ofText line text)) (Delivery.ofText line text) tree
      (parse line text).out := by
  have stage : Stage (start line (Delivery.ofText line text)) (Delivery.ofText line text)
      (start line (Delivery.ofText line text)) :=
    .reading (proceeds_start _ _) rfl (.inl ⟨rfl, rfl, [], rfl, .nil⟩)
  cases ending : machine.parse rules.size line ((Delivery.ofText line text).map (supply id)) with
  | mk outcome c' =>
  have parse_eq : parse line text = parseOf (outcome, c') := by
    rw [← ending]
    rfl
  have accepted : outcome = .accepted tree := by
    rw [parse_eq] at parsed
    cases outcome with
    | accepted value => exact congrArg _ (Except.ok.inj parsed)
    | faulted f => cases parsed
    | rejected | stuck | exhausted => exact absurd (Except.ok.inj parsed).symm present
  subst accepted
  have out_eq : (parse line text).out = c'.out := congrArg Parse.out parse_eq
  rw [out_eq]
  exact stage.run_found .refl ending

/-- A tree that a parse returns is the value of a program that is a suffix of the tokens. Either
the suffix is all of them and no complaint was printed, or a complaint was printed and the suffix
starts right after a token at which the run was in error. -/
theorem parsed_tree_is_value_of_suffix (line : Nat) (text : String) (tree : Tree)
    (parsed : (parse line text).tree = .ok tree) (present : tree ≠ .none) :
    let tokens := (Reading.ofText line text).tokens
    let out := (parse line text).out
    ∃ dropped suffix, tokens = dropped ++ suffix ∧ Evaluates [.phrase .program] suffix [tree] ∧
      (dropped = [] ∧
          (∃ taken, taken <+: Delivery.ofText line text ∧ Announced taken out) ∨
        Complained tokens out ∧ ∃ earlier t c, dropped = earlier ++ [t] ∧
          Reaches (start line (Delivery.ofText line text)) c ∧ InError c t suffix) := by
  intro tokens out
  have tokens_eq : tokens = arriving (Delivery.ofText line text) := tokens_ofDeliveries _ _ _
  obtain ⟨dropped, suffix, split, evaluates, excuse⟩ := found_of_parsed parsed present
  rw [tokens_eq]
  refine ⟨dropped, suffix, split, evaluates, ?_⟩
  rcases excuse with whole | ⟨earlier, t, c, dropped_eq, reached, error, complained⟩
  · exact .inl whole
  · exact .inr ⟨complained, earlier, t, c, dropped_eq, reached, error⟩

def givesTree : Except Fault Tree → Bool
  | .error _ | .ok .none => false
  | .ok _ => true

/-- A program after a stray name is parsed. -/
theorem program_after_stray_name_is_parsed :
    ∃ tree, (parse 1 "x program p; begin end.").tree = .ok tree ∧ tree ≠ .none ∧
      ∃ dropped suffix, (Reading.ofText 1 "x program p; begin end.").tokens = dropped ++ suffix ∧
        Evaluates [.phrase .program] suffix [tree] := by
  have answered : givesTree (parse 1 "x program p; begin end.").tree = true := by decide +kernel
  cases parsed : (parse 1 "x program p; begin end.").tree with
  | error f =>
    rw [parsed] at answered
    cases answered
  | ok tree =>
    have present : tree ≠ .none := by
      rintro rfl
      rw [parsed] at answered
      cases answered
    obtain ⟨dropped, suffix, split, evaluates, _⟩ :=
      parsed_tree_is_value_of_suffix 1 _ tree parsed present
    exact ⟨tree, rfl, present, dropped, suffix, split, evaluates⟩

end PascalStack.Pascal
