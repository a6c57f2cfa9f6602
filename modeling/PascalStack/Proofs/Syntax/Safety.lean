import PascalStack.Proofs.Runs
import PascalStack.Proofs.Syntax.Execution

/-!
# Runs that keep integers whole

A machine is sound if the variables declared as integers hold whole numbers, and integers were given
nothing else and limits of counted loops found to be nothing else. A part of a run is safe if it
keeps machines sound, also where it stops.
-/

namespace PascalStack.Syntax

namespace Scalar

variable {a b v : Scalar} {sign : String}

theorem isWhole_of_whole? {n : Int} (h : v.whole? = some n) : v.IsWhole := by
  cases v with
  | number q =>
    rw [whole?] at h
    split at h
    · rename_i whole
      exact ⟨q.num, congrArg number (Rat.ext rfl whole)⟩
    · cases h
  | _ => cases h

theorem IsWhole.text? (h : v.IsWhole) : v.text? = none := by
  obtain ⟨n, rfl⟩ := h
  rfl

theorem isWhole_of_divide {f : Int → Int → Int} (h : divide f a b = some v) : v.IsWhole := by
  obtain ⟨m, -, h⟩ := Option.bind_eq_some_iff.mp h
  obtain ⟨n, -, h⟩ := Option.bind_eq_some_iff.mp h
  split at h
  · cases h
  · exact ⟨f m n, (Option.some.inj h).symm⟩

theorem IsWhole.apply (member : sign ∈ ["+", "-", "*"]) (left : a.IsWhole) (right : b.IsWhole)
    (h : a.apply sign b = some v) : v.IsWhole := by
  obtain ⟨m, rfl⟩ := left
  obtain ⟨n, rfl⟩ := right
  simp only [List.mem_cons, List.not_mem_nil, or_false] at member
  rcases member with rfl | rfl | rfl
  · exact ⟨m + n, (Option.some.inj h).symm.trans (congrArg number (Rat.intCast_add m n).symm)⟩
  · exact ⟨m - n, (Option.some.inj h).symm.trans (congrArg number (Rat.intCast_sub m n).symm)⟩
  · exact ⟨m * n, (Option.some.inj h).symm.trans (congrArg number (Rat.intCast_mul m n).symm)⟩

theorem isWhole_of_apply (member : sign ∈ ["div", "mod"]) (h : a.apply sign b = some v) :
    v.IsWhole := by
  simp only [List.mem_cons, List.not_mem_nil, or_false] at member
  rcases member with rfl | rfl <;> exact isWhole_of_divide h

theorem IsWhole.negate (h : a.IsWhole) (negated : a.negate "-" = some v) : v.IsWhole := by
  obtain ⟨n, rfl⟩ := h
  exact ⟨-n, (Option.some.inj negated).symm.trans (congrArg number (Rat.intCast_neg n).symm)⟩

end Scalar

def Happening.Sound : Happening → Prop
  | gave _ τ v => τ = .integer → v.IsWhole
  | limited v => v.IsWhole
  | wrote _ => True

structure Machine.Sound (σ : Machine) : Prop where
  cells : ∀ l v, σ.cells l = some v → l.type = .integer → v.IsWhole
  events : ∀ e ∈ σ.events, e.Sound

def Safe {α : Type} (m : Exec α) (P : α → Prop) : Prop :=
  ∀ σ : Machine, σ.Sound →
    match m.run σ with
    | .ok v σ' => σ'.Sound ∧ P v
    | .error _ σ' => σ'.Sound

/-- The same of a run whose value does not matter. -/
abbrev Steady {α : Type} (m : Exec α) : Prop := Safe m fun _ => True

section Rules

open Exec

variable {α β : Type} {m : Exec α} {f : α → Exec β} {P P' : α → Prop} {Q : β → Prop}

theorem safe_pure {v : α} (h : P v) : Safe (pure v) P := fun _ sound => ⟨sound, h⟩

theorem safe_throw (stop : Stop) : Safe (throw stop) P := fun _ sound => sound

theorem Safe.bind (first : Safe m P) (rest : ∀ v, P v → Safe (f v) Q) :
    Safe (m >>= f) Q := by
  intro σ sound
  have ended := first σ sound
  rw [EStateM.run_bind]
  cases run : m.run σ with
  | ok v σ' =>
    rw [run] at ended
    exact rest v ended.2 σ' ended.1
  | error stop σ' =>
    rw [run] at ended
    exact ended

theorem Safe.weaken (h : Safe m P) (weaker : ∀ v, P v → P' v) : Safe m P' := by
  intro σ sound
  have ended := h σ sound
  cases run : m.run σ with
  | ok v σ' =>
    rw [run] at ended
    exact ⟨ended.1, weaker v ended.2⟩
  | error stop σ' =>
    rw [run] at ended
    exact ended

theorem Safe.discard (h : Safe m P) : Steady (discard m) := by
  intro σ sound
  have ended := h σ sound
  cases run : m.run σ with
  | ok v σ' =>
    rw [run] at ended
    rw [run_discard_of_ok run]
    exact ⟨ended.1, trivial⟩
  | error stop σ' =>
    rw [run] at ended
    rw [run_discard_of_error run]
    exact ended

theorem Safe.ite {p : Prop} [Decidable p] {m' : Exec α} (yes : Safe m P) (no : Safe m' P) :
    Safe (if p then m else m') P := by
  split
  · exact yes
  · exact no

theorem safe_demand {x : Option α} (h : ∀ v, x = some v → P v) : Safe (demand x) P := by
  cases x with
  | none => exact safe_throw _
  | some v => exact safe_pure (h v rfl)

theorem safe_record {e : Happening} (h : e.Sound) : Steady (record e) := by
  intro σ sound
  refine ⟨⟨sound.cells, ?_⟩, trivial⟩
  intro e' member
  rcases List.mem_append.mp member with earlier | last
  · exact sound.events e' earlier
  · exact List.mem_singleton.mp last ▸ h

theorem safe_allocate (τ : BaseType) : Safe (allocate τ) fun l => l.type = τ :=
  fun _ sound => ⟨⟨sound.cells, sound.events⟩, rfl⟩

theorem safe_fetch (l : Location) : Safe (fetch l) fun v => l.type = .integer → v.IsWhole := by
  intro σ sound
  simp only [fetch, EStateM.run_bind, EStateM.run_get]
  cases found : σ.cells l with
  | none => exact sound
  | some v => exact ⟨sound, sound.cells l v found⟩

theorem safe_give {x : String} {l : Location} {v : Scalar} (h : l.type = .integer → v.IsWhole) :
    Steady (give x l v) := by
  intro σ sound
  refine ⟨⟨?_, ?_⟩, trivial⟩
  · intro l' v' found integer
    change Function.update σ.cells l (some v) l' = some v' at found
    by_cases same : l' = l
    · subst same
      rw [Function.update_self, Option.some_inj] at found
      exact found ▸ h integer
    · rw [Function.update_of_ne same] at found
      exact sound.cells l' v' found integer
  · intro e member
    rcases List.mem_append.mp member with earlier | last
    · exact sound.events e earlier
    · rw [List.mem_singleton.mp last]
      exact h

theorem safe_receive (τ : BaseType) : Safe (receive τ) fun v => τ = .integer → v.IsWhole := by
  have read (v : Scalar) (rest : List Scalar) : Safe
      ((modify fun m => { m with input := rest }) >>= fun _ =>
        if τ.admits v then pure v else throw .stuck) fun v => τ = .integer → v.IsWhole := by
    refine Safe.bind (P := fun _ => True) (fun _ sound => ⟨⟨sound.cells, sound.events⟩, trivial⟩)
      fun _ _ => ?_
    split
    · rename_i admitted
      refine safe_pure ?_
      rintro rfl
      obtain ⟨n, whole⟩ := Option.isSome_iff_exists.mp admitted
      exact Scalar.isWhole_of_whole? whole
    · exact safe_throw _
  intro σ sound
  cases input : σ.input with
  | nil =>
    simp only [receive, EStateM.run_bind, EStateM.run_get, input]
    exact sound
  | cons v rest =>
    simp only [receive, EStateM.run_bind, EStateM.run_get, input]
    exact read v rest σ sound

theorem safe_each {f : α → Exec PUnit} {xs : List α}
    (h : ∀ x ∈ xs, Steady (f x)) : Steady (xs.forM f) := by
  induction xs with
  | nil => exact safe_pure trivial
  | cons x rest ih =>
    rw [List.forall_mem_cons] at h
    exact h.1.bind fun _ _ => ih h.2

theorem safe_rounds {round : Exec Bool} (h : Steady round) (fuel : Nat) :
    Steady (rounds fuel round) := by
  induction fuel with
  | zero => exact safe_throw _
  | succ fuel ih => exact h.bind fun _ _ => Safe.ite ih (safe_pure trivial)

end Rules

section Loops

open Exec

variable {test : Exec Bool} {body : Exec Outcome}

theorem safe_whileLoop (fuel : Nat) (tested : Steady test) (inside : Steady body) :
    Steady (whileLoop fuel test body) := by
  apply safe_rounds
  exact tested.bind fun _ _ => Safe.ite (inside.bind fun _ _ => safe_pure trivial)
    (safe_pure trivial)

theorem safe_repeatLoop (fuel : Nat) (tested : Steady test) (inside : Steady body) :
    Steady (repeatLoop fuel body test) := by
  apply safe_rounds
  exact inside.bind fun _ _ => Safe.ite (safe_pure trivial)
    (tested.bind fun _ _ => safe_pure trivial)

theorem safe_countedLoop {limit : Exec Rat} {x : String} {l : Location} (fuel : Nat) (step : Int)
    (integer : l.type = .integer) (limited : Steady limit) (inside : Steady body) :
    Steady (countedLoop fuel x l step limit body) := by
  apply safe_rounds
  refine limited.bind fun n _ => (safe_fetch l).bind fun v _ => ?_
  refine Safe.bind (safe_demand fun _ _ => trivial) fun i _ => ?_
  refine Safe.ite (safe_pure trivial) (inside.bind fun o _ => Safe.ite (safe_pure trivial) ?_)
  refine (safe_fetch l).bind fun w whole => ?_
  obtain ⟨k, rfl⟩ := whole integer
  refine Safe.bind (P := fun j : Rat => j = k) (safe_demand fun j same => ?_) fun j same => ?_
  · exact (Option.some.inj same).symm
  · refine (safe_give fun _ => ⟨k + step, ?_⟩).bind fun _ _ => safe_pure trivial
    rw [same, Rat.intCast_add]

end Loops

end PascalStack.Syntax
