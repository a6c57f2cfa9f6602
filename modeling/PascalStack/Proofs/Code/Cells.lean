import Mathlib.Logic.Relation
import Mathlib.Order.Nat
import PascalStack.Proofs.Code.Visits

/-!
# Variables have cells of their own

Cells are given out in many places: for assignments, results, truth values and what is read, in the
program and in functions, whose cells are forgotten when they return. Whatever trees the generator
has visited, and whether or not the visits ended with a fault, no two variables have the same cell.
-/

namespace PascalStack.Code

open Generating

/-- No two variables have the same cell, and `next` is above all cells. -/
structure Apart (d : Dictionary Nat) (next : Nat) : Prop where
  distinct : (d.map Prod.snd).Nodup
  below : ∀ n ∈ d.map Prod.snd, n < next

variable {key : Tree} {n : Nat} {g g' : Generator} {path : String}

section Apart

variable {d : Dictionary Nat} {next : Nat}

theorem apart_nil (next : Nat) : Apart [] next := ⟨List.nodup_nil, by simp⟩

theorem cells_insert {v : Nat} (member : v ∈ (d.insert key n).map Prod.snd) :
    v = n ∨ v ∈ d.map Prod.snd := by
  induction d with
  | nil => simpa [Dictionary.insert] using member
  | cons entry rest ih =>
    rw [Dictionary.insert] at member
    split at member
    · rcases List.mem_cons.mp member with rfl | member
      · exact .inl rfl
      · exact .inr (List.mem_cons_of_mem _ member)
    · rcases List.mem_cons.mp member with rfl | member
      · exact .inr List.mem_cons_self
      · exact (ih member).imp id (List.mem_cons_of_mem _)

theorem nodup_insert (distinct : (d.map Prod.snd).Nodup) (new : n ∉ d.map Prod.snd) :
    ((d.insert key n).map Prod.snd).Nodup := by
  induction d with
  | nil => simp [Dictionary.insert]
  | cons entry rest ih =>
    rw [List.map_cons, List.nodup_cons] at distinct
    rw [List.map_cons, List.mem_cons, not_or] at new
    rw [Dictionary.insert]
    split
    · exact List.nodup_cons.mpr ⟨new.2, distinct.2⟩
    · refine List.nodup_cons.mpr ⟨fun member => ?_, ih distinct.2 new.2⟩
      rcases cells_insert member with equal | member
      · exact new.1 equal.symm
      · exact distinct.1 member

theorem Apart.insert (h : Apart d next) (key : Tree) : Apart (d.insert key next) (next + 1) := by
  have new : next ∉ d.map Prod.snd := fun member => (h.below next member).false
  refine ⟨nodup_insert h.distinct new, fun v member => ?_⟩
  rcases cells_insert member with rfl | member
  · exact Nat.lt_succ_self v
  · exact (h.below v member).trans (Nat.lt_succ_self next)

theorem Apart.mono {later : Nat} (h : Apart d next) (above : next ≤ later) : Apart d later :=
  ⟨h.distinct, fun v member => (h.below v member).trans_le above⟩

end Apart

/-- The variables of the program, and those of the routine at hand, have cells of their own. -/
structure Separate (g : Generator) : Prop where
  globals : Apart g.globals g.nextGlobal
  locals : Apart g.locals g.nextLocal

/-- From one generator to a later one: variables that had cells of their own still have them, and
numbers that are given out never fall. -/
structure Onward (g g' : Generator) : Prop where
  separate : Separate g → Separate g'
  nextGlobal : g.nextGlobal ≤ g'.nextGlobal
  nextLoop : g.nextLoop ≤ g'.nextLoop
  nextIf : g.nextIf ≤ g'.nextIf

section Onward

variable {g g' g'' : Generator}

theorem Onward.refl (g : Generator) : Onward g g := ⟨id, le_rfl, le_rfl, le_rfl⟩

theorem Onward.trans (first : Onward g g') (second : Onward g' g'') : Onward g g'' :=
  ⟨second.separate ∘ first.separate, first.nextGlobal.trans second.nextGlobal,
    first.nextLoop.trans second.nextLoop, first.nextIf.trans second.nextIf⟩

theorem onward_notes (notes : Notes g g') : Onward g g' := by
  refine ⟨fun h => ⟨?_, ?_⟩, notes.nextGlobal.ge, notes.nextLoop.ge, notes.nextIf.ge⟩
  · rw [notes.globals, notes.nextGlobal]
    exact h.globals
  · rw [notes.locals, notes.nextLocal]
    exact h.locals

theorem onward_checked {key : Except Fault Unit} {m : Generating Cell} (h : Onward g (after m g)) :
    Onward g (after (do ofExcept key; m) g) := by
  cases key with
  | error f => exact .refl g
  | ok _ => exact h

theorem onward_newGlobal (name : Tree) (g : Generator) : Onward g (after (newGlobal name) g) :=
  onward_checked ⟨fun h => ⟨h.globals.insert name, h.locals⟩, Nat.le_succ _, le_rfl, le_rfl⟩

theorem onward_newLocal (name : Tree) (g : Generator) : Onward g (after (newLocal name) g) :=
  onward_checked ⟨fun h => ⟨h.globals.mono (Nat.le_succ _), h.locals.insert name⟩, Nat.le_succ _,
    le_rfl, le_rfl⟩

end Onward

theorem after_bind {α β : Type} (m : Generating α) (f : α → Generating β) (g : Generator) :
    after (m >>= f) g = match m.run g with
      | .ok a g' => after (f a) g'
      | .error _ g' => g' := by
  simp only [after, EStateM.run_bind]
  cases m.run g <;> rfl

theorem stable_onward : StableWriting fun m => ∀ g, Onward g (after m g) where
  done _ g := .refl g
  next {α β m f} first second g := by
    have start := first g
    rw [after_bind]
    cases run : m.run g with
    | ok a g' =>
      rw [after, run] at start
      exact start.trans (second a g')
    | error fault g' =>
      rw [after, run] at start
      exact start
  fails _ g := .refl g
  reads g := .refl g
  notes same g := onward_notes (same g)
  opensGlobal := onward_newGlobal
  opensLocal := onward_newLocal
  forgets g := ⟨fun h => ⟨h.globals, apart_nil 0⟩, le_rfl, le_rfl, le_rfl⟩
  writes code g := by
    cases rendered : render code with
    | error f =>
      have stopped : after (emit code) g = g := by rw [after, run_emit_error rendered]
      rw [stopped]
      exact .refl g
    | ok text =>
      rw [after_eq (run_emit_ok rendered g)]
      exact ⟨fun h => ⟨h.globals, h.locals⟩, le_rfl, le_rfl, le_rfl⟩
  takesLoop _ := ⟨fun h => ⟨h.globals, h.locals⟩, le_rfl, Nat.le_succ _, le_rfl⟩
  takesIf _ := ⟨fun h => ⟨h.globals, h.locals⟩, le_rfl, le_rfl, Nat.le_succ _⟩

/-- A visit of a tree, or of the tree of a program, leads from one generator to another. It may end
with a fault. -/
def Visited (g g' : Generator) : Prop :=
  ∃ t, g' = after (generate t) g ∨ g' = after (generateProgram t) g

theorem Visited.onward (h : Visited g g') : Onward g g' := by
  obtain ⟨t, rfl | rfl⟩ := h
  · exact stable_onward.control.generate t g
  · exact stable_onward.control.generateProgram t g

theorem onward_visits (h : Relation.ReflTransGen Visited g g') : Onward g g' := by
  induction h with
  | refl => exact .refl g
  | tail _ visited ih => exact ih.trans visited.onward

theorem separate_new (new : Generator.new path = .ok g) : Separate g := by
  obtain ⟨file, rfl⟩ := eq_of_new new
  exact ⟨apart_nil 0, apart_nil 0⟩

/-- After any visits of a new generator, no two variables of the program have the same cell, no two
variables of the routine at hand have the same cell, and all cells are below the next one. Later
visits never lower the number of the next cell of the program, loop or conditional. -/
theorem variables_have_own_cells {path : String} {g g' g'' : Generator}
    (new : Generator.new path = .ok g) (reached : Relation.ReflTransGen Visited g g')
    (later : Relation.ReflTransGen Visited g' g'') :
    Apart g'.globals g'.nextGlobal ∧ Apart g'.locals g'.nextLocal ∧
      g'.nextGlobal ≤ g''.nextGlobal ∧ g'.nextLoop ≤ g''.nextLoop ∧ g'.nextIf ≤ g''.nextIf := by
  have separate := (onward_visits reached).separate (separate_new new)
  have onward := onward_visits later
  exact ⟨separate.globals, separate.locals, onward.nextGlobal, onward.nextLoop, onward.nextIf⟩

def storesThenFails : Tree := .statementSequence [
  .assignment (.identifier (.str "x")) (.literal (.int 1) (.str "NUMBER")),
  .assignment (.identifier (.str "y")) (.literal (.int 2) (.str "NUMBER")),
  .assignment (.identifier (.str "x")) (.identifier (.str "z"))]

/-- A visit that ends with a fault leaves two variables with cells of their own. -/
theorem storesThenFails_have_own_cells :
    ∃ g g', Generator.new "p.pas" = .ok g ∧ Relation.ReflTransGen Visited g g' ∧
      (g'.globals.map Prod.snd = [0, 1] ∧ g'.nextGlobal = 2) ∧
      Apart g'.globals g'.nextGlobal ∧ Apart g'.locals g'.nextLocal ∧
      ∃ g'', Relation.ReflTransGen Visited g' g'' ∧ g'.nextGlobal ≤ g''.nextGlobal ∧
        g'.nextLoop ≤ g''.nextLoop ∧ g'.nextIf ≤ g''.nextIf := by
  have new : Generator.new "p.pas" = .ok { file := "p.vm" } := rfl
  have visited (g : Generator) : Visited g (after (generate storesThenFails) g) :=
    ⟨storesThenFails, .inl rfl⟩
  have reached := Relation.ReflTransGen.single (visited { file := "p.vm" })
  have later := Relation.ReflTransGen.single
    (visited (after (generate storesThenFails) { file := "p.vm" }))
  obtain ⟨globals, locals, numbers⟩ := variables_have_own_cells new reached later
  exact ⟨_, _, new, reached, by decide +kernel, globals, locals, _, later, numbers⟩

end PascalStack.Code
