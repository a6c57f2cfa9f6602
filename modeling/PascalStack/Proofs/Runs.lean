import PascalStack.Fault

/-!
# Runs without a fault

A run of a composed computation that ends without a fault is made of such runs of its parts.
-/

namespace PascalStack

variable {ε σ α β : Type} {m : EStateM ε σ α} {f : α → EStateM ε σ β} {s s₁ s' : σ} {a : α} {b : β}

theorem run_bind_ok (run : (m >>= f).run s = .ok b s') :
    ∃ a s₁, m.run s = .ok a s₁ ∧ (f a).run s₁ = .ok b s' := by
  rw [EStateM.run_bind] at run
  cases first : m.run s with
  | error f s₁ =>
    rw [first] at run
    cases run
  | ok a s₁ =>
    rw [first] at run
    exact ⟨a, s₁, rfl, run⟩

theorem run_seq {r : EStateM.Result ε σ β} (first : m.run s = .ok a s₁)
    (second : (f a).run s₁ = r) : (m >>= f).run s = r := by
  rw [EStateM.run_bind, first]
  exact second

theorem run_discard_of_ok (run : m.run s = .ok a s') : (discard m).run s = .ok () s' := by
  simp only [Functor.discard, Functor.mapConst, Function.comp, EStateM.map, EStateM.run] at run ⊢
  rw [run]

theorem run_discard_of_error {e : ε} (run : m.run s = .error e s') :
    (discard m).run s = .error e s' := by
  simp only [Functor.discard, Functor.mapConst, Function.comp, EStateM.map, EStateM.run] at run ⊢
  rw [run]

theorem run_discard_ok {u : PUnit} (run : (discard m).run s = .ok u s') :
    ∃ a, m.run s = .ok a s' := by
  simp only [Functor.discard, Functor.mapConst, Function.comp, EStateM.map, EStateM.run] at run ⊢
  cases first : m s with
  | error f s₁ =>
    rw [first] at run
    cases run
  | ok a s₁ =>
    rw [first] at run
    cases run
    exact ⟨a, rfl⟩

theorem run_ofExcept_ok_iff {x : Except ε α} :
    (ofExcept x : EStateM ε σ α).run s = .ok a s' ↔ x = .ok a ∧ s' = s := by
  cases x with
  | error f => exact iff_of_false nofun nofun
  | ok b =>
    constructor
    · intro run
      cases run
      exact ⟨rfl, rfl⟩
    · rintro ⟨equal, rfl⟩
      cases equal
      rfl

theorem optional_bind {b : Bool} {m : EStateM ε σ PUnit} {next : PUnit → EStateM ε σ β} :
    ((if b then m else pure ()) >>= next) = if b then m >>= next else next () := by
  cases b <;> rfl

end PascalStack
