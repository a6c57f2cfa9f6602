import PascalStack.Proofs.Code.Traversal
import PascalStack.Proofs.Syntax.Basic

/-!
# What computations write

The generator only adds to the code: what was written stays where it is. Most of its steps write
nothing.
-/

namespace PascalStack.Code

open Generating Syntax

variable {α β : Type}

variable {g g' : Generator} {f : α → Generating β}

theorem run_emit_eq {code : List Instruction} {u : Unit} (run : (emit code).run g = .ok u g') :
    g' = { g with code := g.code ++ code } := by
  cases rendered : render code with
  | error f =>
    rw [run_emit_error rendered] at run
    cases run
  | ok text =>
    rw [run_emit_ok rendered] at run
    cases run
    rfl

def Writes (m : Generating α) (P : List Instruction → Prop) : Prop :=
  ∀ g a g', m.run g = .ok a g' → ∃ c, g'.code = g.code ++ c ∧ P c

abbrev Silent (m : Generating α) : Prop := Writes m (· = [])

abbrev Grows (m : Generating α) : Prop := Writes m fun _ => True

section Rules

variable {m m' : Generating α} {P Q R : List Instruction → Prop}

theorem Writes.imp (h : Writes m P) (weaker : ∀ c, P c → Q c) : Writes m Q := by
  intro g a g' run
  obtain ⟨c, written, holds⟩ := h g a g' run
  exact ⟨c, written, weaker c holds⟩

theorem Writes.bind (first : Writes m P) (second : ∀ a, Writes (f a) Q)
    (join : ∀ c d, P c → Q d → R (c ++ d)) : Writes (m >>= f) R := by
  intro g b g' run
  obtain ⟨a, g₁, run₁, run₂⟩ := run_bind_ok run
  obtain ⟨c, written, holds⟩ := first g a g₁ run₁
  obtain ⟨d, written', holds'⟩ := second a g₁ b g' run₂
  refine ⟨c ++ d, ?_, join c d holds holds'⟩
  rw [written', written, List.append_assoc]

theorem Silent.bind (first : Silent m) (second : ∀ a, Writes (f a) Q) : Writes (m >>= f) Q := by
  refine Writes.bind first second fun c d none holds => ?_
  rw [none]
  exact holds

theorem Writes.before (first : Writes m P) (second : ∀ a, Silent (f a)) : Writes (m >>= f) P := by
  refine Writes.bind first second fun c d holds none => ?_
  rwa [none, List.append_nil]

theorem Writes.grows (h : Writes m P) : Grows m := h.imp fun _ _ => trivial

theorem Grows.stays (h : Grows m) {a : α} (run : m.run g = .ok a g') : g.code <+: g'.code := by
  obtain ⟨c, written, -⟩ := h g a g' run
  exact ⟨c, written.symm⟩

theorem Grows.bind (first : Grows m) (second : ∀ a, Grows (f a)) : Grows (m >>= f) :=
  Writes.bind first second fun _ _ _ _ => trivial

theorem Writes.discard (h : Writes m P) : Writes (discard m) P := by
  intro g u g' run
  obtain ⟨a, run⟩ := run_discard_ok run
  exact h g a g' run

theorem Grows.discard (h : Grows m) : Grows (discard m) := Writes.discard h

theorem Writes.ite {c : Prop} [Decidable c] (yes : Writes m P) (no : Writes m' P) :
    Writes (if c then m else m') P := by
  split
  · exact yes
  · exact no

theorem silent_pure (a : α) : Silent (pure a : Generating α) := by
  intro g b g' run
  cases run
  exact ⟨[], (List.append_nil _).symm, rfl⟩

theorem silent_ofExcept (x : Except Fault α) : Silent (ofExcept x : Generating α) := by
  intro g a g' run
  cases x with
  | error f => cases run
  | ok b =>
    cases run
    exact ⟨[], (List.append_nil _).symm, rfl⟩

theorem silent_get : Silent (get : Generating Generator) := by
  intro g a g' run
  cases run
  exact ⟨[], (List.append_nil _).symm, rfl⟩

theorem silent_modify {f : Generator → Generator} (same : ∀ g, (f g).code = g.code) :
    Silent (modify f : Generating Unit) := by
  intro g a g' run
  cases run
  exact ⟨[], by rw [same, List.append_nil], rfl⟩

theorem writes_throw (f : Fault) : Writes (throw f : Generating α) P := by
  intro g a g' run
  cases run

theorem silent_line (text : String) : Silent (line text) := silent_modify fun _ => rfl

theorem writes_emit (code : List Instruction) : Writes (emit code) (· = code) := by
  intro g u g' run
  rw [run_emit_eq run]
  exact ⟨code, rfl, rfl⟩

end Rules

theorem silent_newGlobal (name : Tree) : Silent (newGlobal name) := by
  refine (silent_ofExcept _).bind fun _ g a g' run => ?_
  cases run
  exact ⟨[], (List.append_nil _).symm, rfl⟩

theorem silent_newLocal (name : Tree) : Silent (newLocal name) := by
  refine (silent_ofExcept _).bind fun _ g a g' run => ?_
  cases run
  exact ⟨[], (List.append_nil _).symm, rfl⟩

theorem stable_silent : Stable Silent where
  done := silent_pure
  next := Silent.bind
  fails := writes_throw
  reads := silent_get
  notes same := silent_modify fun g => (same g).code
  opensGlobal := silent_newGlobal
  opensLocal := silent_newLocal
  forgets := silent_modify fun _ => rfl

theorem silent_takeLoop : Silent takeLoop := by
  intro g a g' run
  cases run
  exact ⟨[], (List.append_nil _).symm, rfl⟩

theorem silent_takeIf : Silent takeIf := by
  intro g a g' run
  cases run
  exact ⟨[], (List.append_nil _).symm, rfl⟩

theorem stable_grows : StableControl Grows :=
  StableWriting.control
    { done a := (silent_pure a).grows
      next := Grows.bind
      fails := writes_throw
      reads := silent_get.grows
      notes same := (stable_silent.notes same).grows
      opensGlobal name := (silent_newGlobal name).grows
      opensLocal name := (silent_newLocal name).grows
      forgets := stable_silent.forgets.grows
      writes code := (writes_emit code).grows
      takesLoop := silent_takeLoop.grows
      takesIf := silent_takeIf.grows }

end PascalStack.Code
