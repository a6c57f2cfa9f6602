import PascalStack.Proofs.Runs

/-!
# Two computations side by side

Two computations that start from related states end alike if both give values, which are related,
or both stop with faults. Computations made of parts that end alike end alike.
-/

namespace PascalStack

variable {ε σ α α' β β' γ γ' : Type}

def EndsAlike (E : ε → ε → σ → σ → Prop) (V : α → α' → Prop) (B : σ → σ → Prop) :
    EStateM.Result ε σ α → EStateM.Result ε σ α' → Prop
  | .ok a s, .ok a' s' => V a a' ∧ B s s'
  | .error f s, .error f' s' => E f f' s s'
  | .ok .., .error .. | .error .., .ok .. => False

/-- From states related by `A`, two computations give values related by `V` and leave states related
by `B`, or stop with faults related by `E`. -/
def Alike (E : ε → ε → σ → σ → Prop) (A : σ → σ → Prop) (V : α → α' → Prop) (B : σ → σ → Prop)
    (m : EStateM ε σ α) (m' : EStateM ε σ α') : Prop :=
  ∀ s s', A s s' → EndsAlike E V B (m.run s) (m'.run s')

/-- Related values, or related faults. -/
def SameEnd (F : ε → ε → Prop) (V : α → α' → Prop) : Except ε α → Except ε α' → Prop
  | .ok a, .ok a' => V a a'
  | .error f, .error f' => F f f'
  | .ok _, .error _ | .error _, .ok _ => False

variable {F : ε → ε → Prop} {V : α → α' → Prop} {x : Except ε α} {x' : Except ε α'}
  {k : α → EStateM ε σ β} {k' : α' → EStateM ε σ β'} {n : EStateM ε σ α} {n' : EStateM ε σ α'}

theorem SameEnd.imp {W : α → α' → Prop} (h : SameEnd F V x x') (weaker : ∀ a a', V a a' → W a a') :
    SameEnd F W x x' := by
  cases x with
  | ok a =>
    cases x' with
    | ok a' => exact weaker a a' h
    | error f' => exact h
  | error f =>
    cases x' with
    | ok a' => exact h
    | error f' => exact h

theorem SameEnd.remember (h : SameEnd F V x x') :
    SameEnd F (fun a a' => x = .ok a ∧ x' = .ok a' ∧ V a a') x x' := by
  cases x with
  | ok a =>
    cases x' with
    | ok a' => exact ⟨rfl, rfl, h⟩
    | error f' => exact h
  | error f =>
    cases x' with
    | ok a' => exact h
    | error f' => exact h

section Rules

variable {E : ε → ε → σ → σ → Prop} {A B C : σ → σ → Prop} {V W : α → α' → Prop}
  {U : β → β' → Prop} {m : EStateM ε σ α} {m' : EStateM ε σ α'}

theorem EndsAlike.cases {r : EStateM.Result ε σ α} {r' : EStateM.Result ε σ α'}
    (h : EndsAlike E V B r r') :
    (∃ a s a' s', r = .ok a s ∧ r' = .ok a' s' ∧ V a a' ∧ B s s') ∨
      ∃ f s f' s', r = .error f s ∧ r' = .error f' s' ∧ E f f' s s' := by
  cases r with
  | ok a s =>
    cases r' with
    | ok a' s' => exact .inl ⟨a, s, a', s', rfl, rfl, h⟩
    | error f' s' => exact h.elim
  | error f s =>
    cases r' with
    | ok a' s' => exact h.elim
    | error f' s' => exact .inr ⟨f, s, f', s', rfl, rfl, h⟩

theorem alike_pure {a : α} {a' : α'} (h : V a a') : Alike E A V A (pure a) (pure a') :=
  fun _ _ related => ⟨h, related⟩

theorem Alike.bind (first : Alike E A V B m m')
    (second : ∀ a a', V a a' → Alike E B U C (k a) (k' a')) :
    Alike E A U C (m >>= k) (m' >>= k') := by
  intro s s' related
  rw [EStateM.run_bind, EStateM.run_bind]
  rcases (first s s' related).cases with
    ⟨a, t, a', t', run, run', value, state⟩ | ⟨f, t, f', t', run, run', fault⟩
  · rw [run, run']
    exact second a a' value t t' state
  · rw [run, run']
    exact fault

theorem Alike.imp (h : Alike E A V B m m') (weaker : ∀ a a', V a a' → W a a') :
    Alike E A W B m m' := by
  intro s s' related
  rcases (h s s' related).cases with
    ⟨a, t, a', t', run, run', value, state⟩ | ⟨f, t, f', t', run, run', fault⟩
  · rw [run, run']
    exact ⟨weaker a a' value, state⟩
  · rw [run, run']
    exact fault

theorem Alike.weaken {A' B' : σ → σ → Prop} (h : Alike E A V B m m')
    (before : ∀ s s', A' s s' → A s s') (after : ∀ s s', B s s' → B' s s') :
    Alike E A' V B' m m' := by
  intro s s' related
  rcases (h s s' (before s s' related)).cases with
    ⟨a, t, a', t', run, run', value, state⟩ | ⟨f, t, f', t', run, run', fault⟩
  · rw [run, run']
    exact ⟨value, after t t' state⟩
  · rw [run, run']
    exact fault

theorem alike_throw {f f' : ε} (h : ∀ s s', A s s' → E f f' s s') :
    Alike E A V B (throw f : EStateM ε σ α) (throw f' : EStateM ε σ α') :=
  fun s s' related => h s s' related

theorem alike_modify {f f' : σ → σ} (h : ∀ s s', A s s' → B (f s) (f' s')) :
    Alike E A (fun _ _ => True) B (modify f : EStateM ε σ Unit) (modify f' : EStateM ε σ Unit) :=
  fun s s' related => ⟨trivial, h s s' related⟩

theorem alike_get {k : σ → EStateM ε σ α} {k' : σ → EStateM ε σ α'}
    (h : ∀ s s', A s s' → EndsAlike E V B ((k s).run s) ((k' s').run s')) :
    Alike E A V B (get >>= k) (get >>= k') := h

theorem alike_ofExcept (h : SameEnd F V x x') (fails : ∀ f f' s s', F f f' → A s s' → E f f' s s') :
    Alike E A V A (ofExcept x : EStateM ε σ α) (ofExcept x' : EStateM ε σ α') := by
  intro s s' related
  cases x with
  | ok a =>
    cases x' with
    | ok a' => exact ⟨h, related⟩
    | error f' => exact h
  | error f =>
    cases x' with
    | ok a' => exact h
    | error f' => exact fails f f' s s' h related

theorem Alike.ite {c c' : Prop} [Decidable c] [Decidable c'] (same : c ↔ c')
    (yes : c → Alike E A V B m m') (no : ¬ c → Alike E A V B n n') :
    Alike E A V B (if c then m else n) (if c' then m' else n') := by
  by_cases h : c
  · rw [if_pos h, if_pos (same.mp h)]
    exact yes h
  · rw [if_neg h, if_neg fun h' => h (same.mpr h')]
    exact no h

theorem Alike.joined {b : Bool} (first : Alike E A V B (if b then m else n) (if b then m' else n'))
    (second : ∀ a a', V a a' → Alike E B U C (k a) (k' a')) :
    Alike E A U C (if b then m >>= k else n >>= k) (if b then m' >>= k' else n' >>= k') := by
  cases b with
  | false => exact Alike.bind first second
  | true => exact Alike.bind first second

theorem Alike.discard (h : Alike E A V B m m') :
    Alike E A (fun _ _ => True) B (discard m) (discard m') := by
  intro s s' related
  rcases (h s s' related).cases with
    ⟨a, t, a', t', run, run', value, state⟩ | ⟨f, t, f', t', run, run', fault⟩
  · rw [run_discard_of_ok run, run_discard_of_ok run']
    exact ⟨trivial, state⟩
  · rw [run_discard_of_error run, run_discard_of_error run']
    exact fault

end Rules

end PascalStack
