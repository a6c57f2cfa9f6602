import PascalStack.Proofs.Pascal.Automaton
import PascalStack.Proofs.Pascal.Preferred

/-!
# The table accepts every sentence

A run of the table by states alone, without values. Where a phrase can be followed by a terminal,
the table reduces by each of its rules before that terminal, except for the reductions that a
conflict discarded. A preferred derivation needs none of those, so it guides the table through the
whole sentence.
-/

namespace PascalStack.Pascal

open LR

def shape (r : Nat) : Option (Phrase × Nat) :=
  (rule? r).map fun rule => (rule.makes, rule.parts.length)

variable {r q p g : Nat} {rule : Rule} {n : Phrase} {parts : List Part} {final : List Nat}
  {after : Terminal TokenKind}

theorem shape_of_rule (known : rule? r = some rule) :
    shape r = some (rule.makes, rule.parts.length) := by
  rw [shape, known]
  rfl

/-- The rows that the table accepts from a stack of states. The top comes first; the first state
of the table is at the bottom. -/
inductive Accepts : List Nat → List TokenKind → Prop
  | accept {states : List Nat} :
      action (states.headD 0) .finish = some .accept → Accepts states []
  | shift {states : List Nat} {k : TokenKind} {kinds : List TokenKind} {q : Nat} :
      action (states.headD 0) (.token k) = some (.shift q) → Accepts (q :: states) kinds →
      Accepts states (k :: kinds)
  | reduce {states below : List Nat} {kinds : List TokenKind} {r size g : Nat} {n : Phrase} :
      action (states.headD 0) (next kinds .finish) = some (.reduce r) →
      shape r = some (n, size) → states.drop size = below → goto (below.headD 0) n = some g →
      Accepts (g :: below) kinds → Accepts states kinds

variable {states : List Nat} {kinds : List TokenKind}

theorem Accepts.exists_action (h : Accepts states kinds) :
    ∃ a, action (states.headD 0) (next kinds .finish) = some a := by
  cases h with
  | accept found => exact ⟨_, found⟩
  | shift found _ => exact ⟨_, found⟩
  | reduce found _ _ _ _ => exact ⟨_, found⟩

theorem Accepts.of_shift {k : TokenKind} (h : Accepts states (k :: kinds))
    (shifts : action (states.headD 0) (.token k) = some (.shift q)) :
    Accepts (q :: states) kinds := by
  cases h with
  | shift found rest =>
    rw [shifts] at found
    cases found
    exact rest
  | reduce found _ _ _ _ =>
    rw [next_cons, shifts] at found
    cases found

theorem Accepts.of_reduce {size : Nat} (h : Accepts states kinds)
    (reduces : action (states.headD 0) (next kinds .finish) = some (.reduce r))
    (known : shape r = some (n, size)) :
    ∃ g, goto ((states.drop size).headD 0) n = some g ∧
      Accepts (g :: states.drop size) kinds := by
  cases h with
  | accept found =>
    rw [next_nil, found] at reduces
    cases reduces
  | shift found _ =>
    rw [next_cons, found] at reduces
    cases reduces
  | reduce found known' below_eq follows rest =>
    rw [reduces] at found
    cases found
    rw [known] at known'
    cases known'
    subst below_eq
    exact ⟨_, follows, rest⟩

def walk : List Nat → List Part → Option (List Nat)
  | states, [] => some states
  | states, X :: parts => (move (states.headD 0) X).bind fun q => walk (q :: states) parts

def reach : Nat → List Part → Option Nat
  | p, [] => some p
  | p, X :: parts => (move p X).bind fun q => reach q parts

theorem walk_of_reach (h : reach (states.headD 0) parts = some q) :
    ∃ final, walk states parts = some final ∧ final.headD 0 = q := by
  induction parts generalizing states with
  | nil => exact ⟨states, rfl, Option.some_inj.mp h⟩
  | cons X parts ih =>
    obtain ⟨p, moved, rest⟩ := Option.bind_eq_some_iff.mp h
    have reached : reach ((p :: states).headD 0) parts = some q := rest
    obtain ⟨final, walked, top⟩ := ih reached
    exact ⟨final, Option.bind_eq_some_iff.mpr ⟨p, moved, walked⟩, top⟩

theorem drop_of_walk (h : walk states parts = some final) : final.drop parts.length = states := by
  induction parts generalizing states with
  | nil => cases h; rfl
  | cons X parts ih =>
    obtain ⟨q, _, rest⟩ := Option.bind_eq_some_iff.mp h
    calc final.drop (parts.length + 1) = (final.drop parts.length).drop 1 := by rw [List.drop_drop]
      _ = states := by rw [ih rest]; rfl

def rulesOf (n : Phrase) : List (Rule × Nat) := numberedRules.filter fun entry => entry.1.makes == n

theorem mem_rulesOf (known : rule? r = some rule) : (rule, r) ∈ rulesOf rule.makes :=
  List.mem_filter.mpr ⟨mem_numberedRules.mpr known, by simp⟩

/-- The reductions that a conflict discarded: absent declarations before a `var` and after the
routines, and a conditional before an `else`. -/
def discarded (p r : Nat) (t : Terminal TokenKind) : Bool :=
  r == 6 && (p == 10 || t == .token .kwVar) || r == 75 && t == .token .kwElse

/-- The rules for an element that a conflict discarded: a name by itself, and a call that is all of
the value of an assignment. -/
def overruled (p r : Nat) : Bool := r == 104 || r == 112 && p == 92

theorem reduces_before_follower {p g r : Nat} {rule : Rule} (known : rule? r = some rule)
    (follows : goto p rule.makes = some g) :
    ∃ q, reach p rule.parts = some q ∧ (overruled p r = false →
      ∀ t a, action g t = some a → discarded p r t = false → action q t = some (.reduce r)) := by
  have checked := forall_gotos (P := fun p n g => (rulesOf n).all fun entry =>
    (reach p entry.1.parts).any fun q =>
      overruled p entry.2 || (actionRows.getD g []).all fun following =>
        action q following.1 == some (.reduce entry.2) || discarded p entry.2 following.1)
    (by decide +kernel) follows
  have ofRule := List.all_eq_true.mp checked _ (mem_rulesOf known)
  obtain ⟨q, reached, ofState⟩ := (Option.any_eq_true _ _).mp ofRule
  refine ⟨q, reached, fun kept t a found retained => ?_⟩
  rw [kept, Bool.false_or] at ofState
  unfold action at found
  have reduces := List.all_eq_true.mp ofState _ (mem_of_lookup found)
  simpa [retained] using reduces

theorem Accepts.expand (known : rule? r = some rule) (walked : walk states rule.parts = some final)
    (reduces : action (final.headD 0) (next kinds .finish) = some (.reduce r))
    (follows : goto (states.headD 0) rule.makes = some g) (h : Accepts (g :: states) kinds) :
    Accepts final kinds :=
  .reduce reduces (shape_of_rule known) (drop_of_walk walked) follows h

theorem Accepts.of_unit (h : Accepts (q :: states) kinds)
    (reduces : action q (next kinds .finish) = some (.reduce r)) (known : shape r = some (n, 1))
    (follows : goto (states.headD 0) n = some g) : Accepts (g :: states) kinds := by
  obtain ⟨g', follows', rest⟩ := h.of_reduce reduces known
  rw [List.drop_one, List.tail_cons, follows] at follows'
  cases follows'
  exact rest

theorem Accepts.unit (reduces : action q (next kinds .finish) = some (.reduce r))
    (known : shape r = some (n, 1)) (follows : goto (states.headD 0) n = some g)
    (h : Accepts (g :: states) kinds) : Accepts (q :: states) kinds :=
  .reduce reduces known rfl follows h

theorem call_in_assignment {t : Terminal TokenKind} {a : Action} (h : action 80 t = some a) :
    action 138 t = some (.reduce 112) ∨
      (action 80 t = some (.reduce 87) ∧ action 79 t = some (.reduce 85) ∧
        action 78 t = some (.reduce 84)) ∧
      (action 137 t = none ∨
        action 137 t = some (.reduce 80) ∧ action 138 t = some (.reduce 81)) := by
  have checked := forall_actions (P := fun p t _ => p != 80 ||
    (action 138 t == some (.reduce 112) ||
      (action 80 t == some (.reduce 87) && (action 79 t == some (.reduce 85) &&
        action 78 t == some (.reduce 84))) &&
      (action 137 t == none ||
        action 137 t == some (.reduce 80) && action 138 t == some (.reduce 81))))
    (by decide +kernel) h
  simpa using checked

theorem Accepts.call_of_assigned (top : states.headD 0 = 92) (h : Accepts (80 :: states) kinds) :
    Accepts (138 :: states) kinds := by
  obtain ⟨a, found⟩ := h.exists_action
  rcases call_in_assignment found with toElement | ⟨⟨toProduct, toSum, toExpression⟩, whole⟩
  · exact .unit toElement rfl (by rw [top]; decide +kernel) h
  · have product : Accepts (79 :: states) kinds := h.of_unit toProduct rfl (by rw [top]; decide +kernel)
    have sum : Accepts (78 :: states) kinds := product.of_unit toSum rfl (by rw [top]; decide +kernel)
    have expression : Accepts (137 :: states) kinds :=
      sum.of_unit toExpression rfl (by rw [top]; decide +kernel)
    rcases whole with stops | ⟨fromExpression, fromCall⟩
    · obtain ⟨a, found⟩ := expression.exists_action
      rw [List.headD_cons, stops] at found
      cases found
    · obtain ⟨g, follows, rest⟩ := expression.of_reduce fromExpression rfl
      exact .reduce fromCall rfl rfl follows rest

theorem Accepts.call_of_element (follows : goto (states.headD 0) .element = some g)
    (h : Accepts (g :: states) kinds) :
    ∃ q, goto (states.headD 0) .call = some q ∧ Accepts (q :: states) kinds := by
  obtain ⟨q, reached, reduces⟩ := reduces_before_follower (r := 112) rfl follows
  have entered : goto (states.headD 0) .call = some q := by
    obtain ⟨q', moved, final⟩ := Option.bind_eq_some_iff.mp reached
    cases final
    rwa [move_phrase] at moved
  refine ⟨q, entered, ?_⟩
  by_cases top : states.headD 0 = 92
  · rw [top] at follows entered
    have element : goto 92 .element = some 80 := by decide +kernel
    have call : goto 92 .call = some 138 := by decide +kernel
    rw [element] at follows
    rw [call] at entered
    cases follows
    cases entered
    exact h.call_of_assigned top
  · obtain ⟨a, found⟩ := h.exists_action
    have kept : overruled (states.headD 0) 112 = false := by
      simpa only [overruled, Nat.reduceBEq, Bool.false_or, Bool.true_and, beq_eq_false_iff_ne]
    exact .unit (reduces kept _ a found rfl) rfl follows h

theorem Accepts.name_of_call (follows : goto (states.headD 0) .call = some q)
    (h : Accepts (q :: states) kinds) :
    ∃ s, move (states.headD 0) (.token .ident) = some s ∧ Accepts (s :: states) kinds := by
  obtain ⟨s, reached, reduces⟩ := reduces_before_follower (r := 70) rfl follows
  obtain ⟨s', moved, final⟩ := Option.bind_eq_some_iff.mp reached
  cases final
  obtain ⟨a, found⟩ := h.exists_action
  exact ⟨s, moved, .unit (reduces rfl _ a found rfl) rfl follows h⟩

theorem Accepts.parts_of_phrase (known : rule? r = some rule)
    (follows : goto (states.headD 0) rule.makes = some g) (h : Accepts (g :: states) kinds)
    (kept : discarded (states.headD 0) r (next kinds .finish) = false) :
    ∃ final, walk states rule.parts = some final ∧ Accepts final kinds := by
  by_cases name : r = 104
  · subst name
    obtain rfl : rules[103] = rule := Option.some_inj.mp known
    obtain ⟨q, called, afterCall⟩ := h.call_of_element follows
    obtain ⟨s, moved, afterName⟩ := afterCall.name_of_call called
    exact ⟨s :: states, Option.bind_eq_some_iff.mpr ⟨s, moved, rfl⟩, afterName⟩
  by_cases call : r = 112
  · subst call
    obtain rfl : rules[111] = rule := Option.some_inj.mp known
    obtain ⟨q, called, afterCall⟩ := h.call_of_element follows
    rw [← move_phrase] at called
    exact ⟨q :: states, Option.bind_eq_some_iff.mpr ⟨q, called, rfl⟩, afterCall⟩
  obtain ⟨q, reached, reduces⟩ := reduces_before_follower known follows
  obtain ⟨final, walked, rfl⟩ := walk_of_reach reached
  obtain ⟨a, found⟩ := h.exists_action
  have ruled : overruled (states.headD 0) r = false := by simp [overruled, name, call]
  exact ⟨final, walked, .expand known walked (reduces ruled _ a found kept) follows h⟩

theorem not_discarded (known : rule? r = some rule) (kept : Kept r parts after)
    (follows : goto p rule.makes = some g) (walked : walk (g :: states) parts = some final) :
    discarded p r after = false := by
  simp only [discarded, Bool.or_eq_false_iff, Bool.and_eq_false_iff, beq_eq_false_iff_ne]
  constructor
  · by_cases absent : r = 6
    · right
      obtain ⟨routines, noVar⟩ := kept.1 absent
      refine ⟨?_, noVar⟩
      rintro rfl
      subst absent
      obtain rfl : rules[5] = rule := Option.some_inj.mp known
      have declared : goto 10 .varPart = some 22 := by decide +kernel
      obtain rfl : 22 = g := Option.some_inj.mp (declared.symm.trans follows)
      obtain ⟨others, rfl⟩ := List.head?_eq_some_iff.mp routines
      obtain ⟨q, moved, _⟩ := Option.bind_eq_some_iff.mp walked
      have none : move 22 (.phrase .routines) = none := by decide +kernel
      rw [List.headD_cons, none] at moved
      cases moved
    · exact .inl absent
  · by_cases conditional : r = 75
    · exact .inr (kept.2 conditional)
    · exact .inl conditional

theorem Preferred.accepts {rest : List TokenKind} (h : Preferred parts kinds after)
    (walked : walk states parts = some final) (follows : next rest .finish = after)
    (accepted : Accepts final rest) : Accepts states (kinds ++ rest) := by
  induction h generalizing states rest final with
  | nil =>
    cases walked
    exact accepted
  | token k _ ih =>
    obtain ⟨q, moved, walked⟩ := Option.bind_eq_some_iff.mp walked
    exact .shift (action_of_move moved) (ih walked follows accepted)
  | @phrase r rule parts own kinds after known kept derived _ ownAccepts restAccepts =>
    obtain ⟨g, moved, walked⟩ := Option.bind_eq_some_iff.mp walked
    rw [move_phrase] at moved
    have afterPhrase := restAccepts walked follows accepted
    have next_eq : next (kinds ++ rest) .finish = next kinds after := by
      rw [next_append, follows]
    have retained := not_discarded known kept moved walked
    rw [← next_eq] at retained
    obtain ⟨inner, walkedParts, afterParts⟩ :=
      afterPhrase.parts_of_phrase known moved retained
    rw [List.append_assoc]
    exact ownAccepts walkedParts next_eq afterParts

theorem Sentence.accepts (h : Sentence kinds) : Accepts [0] kinds := by
  have final : Accepts [1, 0] [] := .accept (by decide +kernel)
  have walked : walk [0] [.phrase .program] = some [1, 0] := by decide +kernel
  simpa using h.preferred.accepts walked rfl final

end PascalStack.Pascal
