import PascalStack.Proofs.Pascal.Likeness

/-!
# Runs side by side

Two runs of the machine on tokens of the same kinds, with values that are alike, take the same
steps, wherever the tokens stand and whatever is reported between them. So both end with trees that
are alike, or neither has a tree.
-/

namespace PascalStack.Pascal

open LR List

variable {L : Likeness}

inductive StacksAlike (L : Likeness) : List (Frame TokenKind Phrase Tree) →
    List (Frame TokenKind Phrase Tree) → Prop
  | nil : StacksAlike L [] []
  | push {stack stack' : List (Frame TokenKind Phrase Tree)} {X : Part} {q : Nat} {v v' : Tree} :
      StacksAlike L stack stack' → move (topState stack) X = some q → L.part X v v' →
      StacksAlike L (⟨q, X.symbol, v⟩ :: stack) (⟨q, X.symbol, v'⟩ :: stack')

variable {stack stack' : List (Frame TokenKind Phrase Tree)}

theorem StacksAlike.topState_eq (h : StacksAlike L stack stack') :
    topState stack' = topState stack := by
  cases h <;> rfl

variable {r : Nat} {look look' : Lookahead TokenKind Tree}

theorem StacksAlike.parts_on_top {d : Nat} {rule : Rule} (h : StacksAlike L stack stack')
    (known : rule? r = some rule) (item : hasItem (topState stack) r d = true) :
    ∃ top top' below below', stack = top ++ below ∧ stack' = top' ++ below' ∧ top.length = d ∧
      top'.length = d ∧ StacksAlike L below below' ∧
      PartsAlike L (rule.parts.take d) (top.reverse.map (·.value))
        (top'.reverse.map (·.value)) := by
  induction d generalizing stack stack' with
  | zero => exact ⟨[], [], stack, stack', rfl, rfl, rfl, rfl, h, .nil⟩
  | succ d ih =>
    cases h with
    | nil => rw [show topState [] = 0 from rfl, items_start] at item; cases item
    | @push stack stack' X q v v' rest moved alike =>
      obtain ⟨at_d, item⟩ := hasItem_of_move moved item
      obtain ⟨top, top', below, below', rfl, rfl, size, size', under, parts⟩ := ih rest item
      rw [partAt, known, Option.bind_some] at at_d
      refine ⟨⟨q, X.symbol, v⟩ :: top, ⟨q, X.symbol, v'⟩ :: top', below, below', rfl, rfl,
        by rw [length_cons, size], by rw [length_cons, size'], under, ?_⟩
      rw [take_add_one, at_d, reverse_cons, map_append, reverse_cons,
        map_append]
      exact parts.concat alike

theorem StacksAlike.accepted (h : StacksAlike L stack stack') (final : topState stack = 1) :
    ∃ frame below frame' below', stack = frame :: below ∧ stack' = frame' :: below' ∧
      L.phrase .program frame.value frame'.value := by
  cases h with
  | nil => cases final
  | @push stack stack' X q v v' rest moved alike =>
    have q_eq : q = 1 := final
    rcases (exists_item_of_move moved).2 with ⟨-, rfl, -⟩ | ⟨inside, -⟩
    · exact ⟨_, _, _, _, rfl, rfl, alike⟩
    · exact absurd q_eq inside

inductive LooksAlike (L : Likeness) : Lookahead TokenKind Tree → Lookahead TokenKind Tree → Prop
  | token {k : TokenKind} {v v' : Tree} {line line' : Nat} :
      L.token k v v' → LooksAlike L ⟨.token k, v, line⟩ ⟨.token k, v', line'⟩
  | finish {v : Tree} {line line' : Nat} : LooksAlike L ⟨.finish, v, line⟩ ⟨.finish, v, line'⟩
  | error {line line' : Nat} : LooksAlike L ⟨.error, .none, line⟩ ⟨.error, .none, line'⟩

theorem LooksAlike.terminal_eq (h : LooksAlike L look look') : look'.terminal = look.terminal := by
  cases h <;> rfl

def SuppliesAlike (L : Likeness) (s s' : Supply TokenKind Tree) : Prop :=
  SameEnd Eq (Option.Rel (LooksAlike L)) s.item s'.item

/-- Two configurations that are at the same place of a run. -/
structure Level (L : Likeness) (c c' : Config) : Prop where
  stack : StacksAlike L c.stack c'.stack
  lookahead : Option.Rel (LooksAlike L) c.lookahead c'.lookahead
  pending : Forall₂ (LooksAlike L) c.pending c'.pending
  feed : Forall₂ (SuppliesAlike L) c.feed c'.feed
  patience : c'.patience = c.patience

inductive OutcomesAlike (L : Likeness) : Outcome Tree → Outcome Tree → Prop
  | accepted {v v' : Tree} : L.phrase .program v v' →
      OutcomesAlike L (.accepted v) (.accepted v')
  | rejected : OutcomesAlike L .rejected .rejected
  | faulted (f : Fault) : OutcomesAlike L (.faulted f) (.faulted f)
  | stuck : OutcomesAlike L .stuck .stuck
  | exhausted : OutcomesAlike L .exhausted .exhausted

inductive StepsAlike (L : Likeness) :
    Step TokenKind Phrase Tree → Step TokenKind Phrase Tree → Prop
  | next {c c' : Config} : Level L c c' → StepsAlike L (.next c) (.next c')
  | done {c c' : Config} {o o' : Outcome Tree} : OutcomesAlike L o o' →
      StepsAlike L (.done c o) (.done c' o')

variable {c c' : Config}

/-- What two machines get when they ask for a token. -/
inductive FetchesAlike (L : Likeness) : Except Fault (Lookahead TokenKind Tree) × Config →
    Except Fault (Lookahead TokenKind Tree) × Config → Prop
  | look {look look' : Lookahead TokenKind Tree} {c c' : Config} : LooksAlike L look look' →
      Level L c c' → FetchesAlike L (.ok look, c) (.ok look', c')
  | fault {f : Fault} {c c' : Config} : FetchesAlike L (.error f, c) (.error f, c')

theorem Level.fetch (h : Level L c c') : FetchesAlike L (Machine.fetch c) (Machine.fetch c') := by
  obtain ⟨stack, ahead, pending, feed, patience, line, out⟩ := c
  obtain ⟨stack', ahead', pending', feed', _, line', out'⟩ := c'
  obtain ⟨frames, looks, handed, supplies, rfl⟩ := h
  cases looks with
  | some looks => exact .look looks ⟨frames, .some looks, handed, supplies, rfl⟩
  | none =>
    cases handed with
    | cons looks rest => exact .look looks ⟨frames, .some looks, rest, supplies, rfl⟩
    | nil =>
      cases supplies with
      | nil => exact .look .finish ⟨frames, .some .finish, .nil, .nil, rfl⟩
      | @cons s s' feed feed' head rest =>
        obtain ⟨report, line, item⟩ := s
        obtain ⟨report', line', item'⟩ := s'
        cases item with
        | error f =>
          cases item' with
          | error f' =>
            cases head
            exact .fault
          | ok _ => exact head.elim
        | ok item =>
          cases item' with
          | error _ => exact head.elim
          | ok item' =>
            cases head with
            | none => exact .look .finish ⟨frames, .some .finish, .nil, rest, rfl⟩
            | some looks => exact .look looks ⟨frames, .some looks, .nil, rest, rfl⟩

theorem Level.unwind (h : Level L c c') (looks : LooksAlike L look look') :
    StepsAlike L (machine.unwind look c) (machine.unwind look' c') := by
  obtain ⟨stack, ahead, pending, feed, patience, line, out⟩ := c
  obtain ⟨stack', ahead', pending', feed', _, line', out'⟩ := c'
  obtain ⟨frames, aheads, handed, supplies, rfl⟩ := h
  cases looks with
  | finish => cases frames <;> exact .done .rejected
  | error =>
    cases frames with
    | nil => exact .next ⟨.nil, .none, .nil, supplies, rfl⟩
    | push rest _ _ => exact .next ⟨rest, aheads, handed, supplies, rfl⟩
  | token alike =>
    cases frames with
    | nil => exact .next ⟨.nil, .none, .nil, supplies, rfl⟩
    | @push _ _ X _ _ _ rest moved part =>
      cases X <;>
        exact .next ⟨.push rest moved part, .some .error, .cons (.token alike) handed, supplies,
          rfl⟩

section Kept

variable (kept : L.Kept)

include kept

theorem Level.reduce {t : Terminal TokenKind} (h : Level L c c')
    (reduces : action (topState c.stack) t = some (.reduce r)) :
    StepsAlike L (machine.reduce r c) (machine.reduce r c') := by
  obtain ⟨rule, known, item⟩ := hasItem_of_reduce reduces
  obtain ⟨top, top', below, below', stack_eq, stack_eq', size, size', under, parts⟩ :=
    h.stack.parts_on_top known item
  rw [take_length] at parts
  have shape_eq : machine.rule r = some (rule.makes, rule.parts.length) := shape_of_rule known
  have build_eq (values : List Tree) : machine.build r values = rule.build values := by
    simp only [machine, known]
  have goto_eq (p : Nat) : machine.goto p rule.makes = goto p rule.makes := rfl
  rw [Machine.reduce, Machine.reduce, shape_eq]
  simp only [stack_eq, stack_eq', take_left' size, take_left' size',
    drop_left' size, drop_left' size', size, size', Nat.lt_irrefl, if_false, build_eq,
    goto_eq, under.topState_eq]
  rcases (kept.rule rule (mem_rules known) _ _ parts c.out c'.out trivial).cases with
    ⟨v, out, v', out', run, run', alike, -⟩ | ⟨f, out, _, out', run, run', rfl⟩
  · simp only [EStateM.run] at run run'
    rw [run, run']
    cases follows : goto (topState below) rule.makes with
    | none => exact .done .stuck
    | some q =>
      exact .next ⟨.push (X := .phrase rule.makes) under ((move_phrase _ _).trans follows) alike,
        h.lookahead, h.pending, h.feed, h.patience⟩
  · simp only [EStateM.run] at run run'
    rw [run, run']
    exact .done (.faulted f)

theorem LooksAlike.complain (h : LooksAlike L look look') :
    PrintsAlike (fun _ _ => True) (Pascal.complain (Machine.culprit look))
      (Pascal.complain (Machine.culprit look')) := by
  cases h with
  | token alike =>
    exact (printsAlike_ofExcept (kept.text _ _ _ alike)).bind fun _ _ _ => printsAlike_line _ _
  | finish => exact printsAlike_line _ _
  | error =>
    exact (printsAlike_ofExcept (SameFault.refl _)).bind fun _ _ _ => printsAlike_line _ _

theorem Level.recover (h : Level L c c') (looks : LooksAlike L look look') :
    StepsAlike L (machine.recover look c) (machine.recover look' c') := by
  rw [Machine.recover, Machine.recover, h.patience]
  split
  · rcases (looks.complain kept c.out c'.out trivial).cases with
      ⟨_, out, _, out', run, run', -, -⟩ | ⟨f, out, _, out', run, run', rfl⟩
    · have said : machine.complain (Machine.culprit look) c.out = .ok _ out := run
      have said' : machine.complain (Machine.culprit look') c'.out = .ok _ out' := run'
      rw [said, said']
      exact Level.unwind ⟨h.stack, h.lookahead, h.pending, h.feed, rfl⟩ looks
    · have said : machine.complain (Machine.culprit look) c.out = .error f out := run
      have said' : machine.complain (Machine.culprit look') c'.out = .error f out' := run'
      rw [said, said']
      exact .done (.faulted f)
  · exact Level.unwind ⟨h.stack, h.lookahead, h.pending, h.feed, rfl⟩ looks

theorem Level.step (h : Level L c c') : StepsAlike L (machine.step c) (machine.step c') := by
  unfold Machine.step
  rw [h.stack.topState_eq]
  have settled_eq (p : Nat) : machine.settled p = settled p := rfl
  have action_eq (p : Nat) (t : Terminal TokenKind) : machine.action p t = action p t := rfl
  simp only [settled_eq, action_eq]
  cases at_rest : settled (topState c.stack) with
  | some r =>
    obtain ⟨⟨t, reduces⟩, -⟩ := action_of_settled at_rest
    exact h.reduce kept reduces
  | none =>
    have fetches := h.fetch
    revert fetches
    generalize Machine.fetch c = fetched
    generalize Machine.fetch c' = fetched'
    intro fetches
    cases fetches with
    | fault => exact .done (.faulted _)
    | @look look look' c c' looks level =>
      simp only [level.stack.topState_eq, looks.terminal_eq]
      cases found : action (topState c.stack) look.terminal with
      | none => exact level.recover kept looks
      | some a =>
        cases a with
        | shift q =>
          obtain ⟨k, terminal⟩ := token_of_shift found
          cases looks with
          | token alike =>
            exact .next ⟨.push (X := .token _) level.stack (move_of_action found) alike, .none,
              level.pending, level.feed, congrArg (· - 1) level.patience⟩
          | finish => cases terminal
          | error => cases terminal
        | reduce r => exact level.reduce kept found
        | accept =>
          obtain ⟨frame, below, frame', below', stack_eq, stack_eq', same⟩ :=
            level.stack.accepted (state_of_accept found).1
          simp only [stack_eq, stack_eq']
          exact .done (.accepted same)

theorem Level.run (fuel : Nat) (h : Level L c c') :
    OutcomesAlike L (machine.run fuel c).1 (machine.run fuel c').1 := by
  induction fuel generalizing c c' with
  | zero => exact .exhausted
  | succ fuel ih =>
    rw [Machine.run, Machine.run]
    have steps := h.step kept
    revert steps
    generalize machine.step c = step
    generalize machine.step c' = step'
    intro steps
    cases steps with
    | next level => exact ih level
    | done outcomes => exact outcomes

theorem OutcomesAlike.trees {o o' : Outcome Tree} (h : OutcomesAlike L o o') :
    SameEnd Eq (L.phrase .program) (treeOf o) (treeOf o') := by
  cases h with
  | accepted same => exact same
  | faulted f => exact rfl
  | rejected | stuck | exhausted => exact kept.absent

theorem parseSupply_alike {line line' : Nat} {feed feed' : List (Supply TokenKind Tree)}
    (h : Forall₂ (SuppliesAlike L) feed feed') :
    SameEnd Eq (L.phrase .program) (parseSupply line feed).tree
      (parseSupply line' feed').tree := by
  have start : Level L { feed := feed, line := line } { feed := feed', line := line' } :=
    ⟨.nil, .none, .nil, h, rfl⟩
  rw [parseSupply, parseSupply, Machine.parse, Machine.parse, h.length_eq]
  exact (start.run kept _).trees kept

end Kept

section Deliveries

variable {R : Token → Token → Prop} {ds ds' : List Delivery}

def DeliversAlike (R : Token → Token → Prop) (d d' : Delivery) : Prop :=
  SameEnd Eq (Option.Rel R) d.token d'.token

theorem arriving_alike (h : Forall₂ (DeliversAlike R) ds ds') :
    Forall₂ R (arriving ds) (arriving ds') ∧ spoiled ds' = spoiled ds := by
  induction h with
  | nil => exact ⟨.nil, rfl⟩
  | @cons d d' ds ds' same _ ih =>
    obtain ⟨report, line, token⟩ := d
    obtain ⟨report', line', token'⟩ := d'
    rw [DeliversAlike] at same
    simp only [arriving, spoiled]
    cases token with
    | error f =>
      cases token' with
      | error f' => exact ⟨.nil, congrArg some same.symm⟩
      | ok => exact same.elim
    | ok item =>
      cases token' with
      | error => exact same.elim
      | ok item' =>
        cases same with
        | none => exact ⟨.nil, rfl⟩
        | some tokens => exact ⟨.cons tokens ih.1, ih.2⟩

theorem deliveries_of_values {V : TokenKind → Tree → Tree → Prop} {ps qs : List Piece}
    (tokens : ∀ k v v' line offset, V k v v' → R ⟨k, v, line, offset⟩ ⟨k, v', line, offset⟩)
    (h : Forall₂ (fun p q => q.kind = p.kind ∧ q.text.length = p.text.length ∧
      ∀ k, p.kind = .lexeme k → SameEnd Eq (V k) (Piece.valueOf k p.text) (Piece.valueOf k q.text))
      ps qs) (line offset : Nat) (report report' : String) :
    Forall₂ (DeliversAlike R) (Delivery.ofPieces line offset report ps)
      (Delivery.ofPieces line offset report' qs) := by
  induction h generalizing line offset report report' with
  | nil => exact .cons .none .nil
  | @cons p q ps qs head _ ih =>
    obtain ⟨kind, text⟩ := p
    obtain ⟨kind', text'⟩ := q
    obtain ⟨rfl, length, values⟩ := head
    cases kind' with
    | blank | comment | newline | illegal =>
      rw [Delivery.ofPieces, Delivery.ofPieces, length]
      exact ih _ _ _ _
    | lexeme k =>
      rw [Delivery.ofPieces, Delivery.ofPieces, length]
      replace values := values k rfl
      revert values
      cases Piece.valueOf k text with
      | error f =>
        cases Piece.valueOf k text' with
        | error f' => exact fun same => .cons same .nil
        | ok v' => exact False.elim
      | ok v =>
        cases Piece.valueOf k text' with
        | error f' => exact False.elim
        | ok v' => exact fun value => .cons (.some (tokens k v v' _ _ value)) (ih _ _ _ _)

theorem supplies_alike (tokens : ∀ t t', R t t' → t'.kind = t.kind ∧ L.token t.kind t.value t'.value)
    (h : Forall₂ (DeliversAlike R) ds ds') :
    Forall₂ (SuppliesAlike L) (ds.map (supply id)) (ds'.map (supply id)) := by
  refine forall₂_map_left_iff.mpr (forall₂_map_right_iff.mpr (h.imp ?_))
  intro d d' same
  obtain ⟨report, line, token⟩ := d
  obtain ⟨report', line', token'⟩ := d'
  rw [DeliversAlike] at same
  cases token with
  | error f =>
    cases token' with
    | error f' => exact same
    | ok => exact same.elim
  | ok item =>
    cases token' with
    | error => exact same.elim
    | ok item' =>
      cases same with
      | none => exact .none
      | @some t t' related =>
        obtain ⟨kind, value⟩ := tokens t t' related
        obtain ⟨k, v, line, offset⟩ := t
        obtain ⟨k', v', line', offset'⟩ := t'
        cases kind
        exact .some (.token value)

end Deliveries

end PascalStack.Pascal
