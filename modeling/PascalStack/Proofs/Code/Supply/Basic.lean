import PascalStack.Proofs.Code.Primitives
import PascalStack.Proofs.Syntax.Demands
import PascalStack.Proofs.Tree.Dictionary

/-!
# The generator serves what is supplied

A computation of the generator goes through if its events are supplied, and stops with a fault if
they are not.
-/

namespace PascalStack.Code

open Generating Syntax

structure Knows (k : Known) (g : Generator) : Prop where
  globals : g.globals.Keyed k.globals
  locals : g.locals.Keyed k.locals
  types : ∀ x, g.types.find? (.str x) = k.type? x

structure At (s : Site) (g : Generator) : Prop where
  inside : g.inFunction = s.inside
  routines : g.hasFunction = s.routines
  function : g.function = nameTree s.function

theorem At.modify {s : Site} {g g' : Generator} (h : At s g)
    (same : g'.inFunction = g.inFunction ∧ g'.hasFunction = g.hasFunction ∧
      g'.function = g.function) : At s g' :=
  ⟨same.1.trans h.inside, same.2.1.trans h.routines, same.2.2.trans h.function⟩

/-- A computation that starts where `A` holds serves events: if they are supplied it gives a value
with `P`, knows what is known after them and ends where `B` holds, and otherwise it stops with a
fault. -/
def Serves {α : Type} (A : Generator → Prop) (m : Generating α) (es : List Event) (P : α → Prop)
    (B : Generator → Prop) : Prop :=
  ∀ k g, Knows k g → A g →
    (SuppliedFrom k es → ∃ a g', m.run g = .ok a g' ∧ P a ∧ Knows (k.afterAll es) g' ∧ B g') ∧
    (¬ SuppliedFrom k es → ∃ f g', m.run g = .error f g')

def ServesAt {α : Type} (s : Site) (m : Generating α) (es : List Event) (P : α → Prop) : Prop :=
  Serves (At s) m es P (At s)

section Rules

variable {α β : Type} {A B C : Generator → Prop} {P P' : α → Prop} {Q : β → Prop}
  {m : Generating α} {es es' : List Event} {s : Site}

theorem serves_pure {a : α} (h : P a) : Serves A (pure a) [] P A := by
  intro k g knows holds
  refine ⟨fun _ => ⟨a, g, rfl, h, knows, holds⟩, fun unsupplied => ?_⟩
  exact absurd (suppliedFrom_nil k) unsupplied

theorem Serves.bind {f : α → Generating β} (first : Serves A m es P B)
    (second : ∀ a, P a → Serves B (f a) es' Q C) : Serves A (m >>= f) (es ++ es') Q C := by
  intro k g knows holds
  rw [suppliedFrom_append, afterAll_append, EStateM.run_bind]
  by_cases supplied : SuppliedFrom k es
  · obtain ⟨a, g', run, given, knows', holds'⟩ := (first k g knows holds).1 supplied
    have rest := second a given (k.afterAll es) g' knows' holds'
    rw [run]
    exact ⟨fun both => rest.1 both.2, fun missing => rest.2 fun later => missing ⟨supplied, later⟩⟩
  · obtain ⟨fault, g', run⟩ := (first k g knows holds).2 supplied
    rw [run]
    exact ⟨fun both => absurd both.1 supplied, fun _ => ⟨fault, g', rfl⟩⟩

theorem Serves.discard (h : Serves A m es P B) : Serves A (discard m) es (fun _ => True) B := by
  intro k g knows holds
  rw [run_discard]
  refine ⟨fun supplied => ?_, fun unsupplied => ?_⟩
  · obtain ⟨a, g', run, _, knows', holds'⟩ := (h k g knows holds).1 supplied
    exact ⟨(), g', by rw [run], trivial, knows', holds'⟩
  · obtain ⟨f, g', run⟩ := (h k g knows holds).2 unsupplied
    exact ⟨f, g', by rw [run]⟩

theorem Serves.imp (h : Serves A m es P B) (weaker : ∀ a, P a → P' a) : Serves A m es P' B := by
  intro k g knows holds
  refine ⟨fun supplied => ?_, (h k g knows holds).2⟩
  obtain ⟨a, g', run, given, rest⟩ := (h k g knows holds).1 supplied
  exact ⟨a, g', run, weaker a given, rest⟩

theorem Serves.weaken {A' B' : Generator → Prop} (h : Serves A m es P B) (before : ∀ g, A' g → A g)
    (after : ∀ g, B g → B' g) : Serves A' m es P B' := by
  intro k g knows holds
  refine ⟨fun supplied => ?_, (h k g knows (before g holds)).2⟩
  obtain ⟨a, g', run, given, knows', holds'⟩ := (h k g knows (before g holds)).1 supplied
  exact ⟨a, g', run, given, knows', after g' holds'⟩

theorem serves_fails (h : ∀ k g, Knows k g → A g → ∃ f g', m.run g = .error f g') :
    Serves A m [.fails] P B := by
  intro k g knows holds
  exact ⟨fun supplied => absurd (suppliedFrom_cons.mp supplied).1 id, fun _ => h k g knows holds⟩

theorem serves_event {e : Event}
    (met : ∀ k g, Knows k g → A g → e.Met k →
      ∃ a g', m.run g = .ok a g' ∧ P a ∧ Knows (k.after e) g' ∧ B g')
    (unmet : ∀ k g, Knows k g → A g → ¬ e.Met k → ∃ f g', m.run g = .error f g') :
    Serves A m [e] P B := by
  intro k g knows holds
  simp only [suppliedFrom_cons, suppliedFrom_nil, and_true, afterAll_cons, afterAll_nil]
  exact ⟨met k g knows holds, unmet k g knows holds⟩

theorem Serves.ite {c : Prop} [Decidable c] {n : Generating α} (yes : Serves A m es P B)
    (no : Serves A n es' P B) :
    Serves A (if c then m else n) (if c then es else es') P B := by
  by_cases holds : c
  · rwa [if_pos holds, if_pos holds]
  · rwa [if_neg holds, if_neg holds]

theorem Serves.of_run (h : Serves A m es P B) {m' : Generating α}
    (same : ∀ k g, Knows k g → A g → m'.run g = m.run g) : Serves A m' es P B := by
  intro k g knows holds
  rw [same k g knows holds]
  exact h k g knows holds

end Rules

section Writing

variable {s : Site} {code : List Instruction}

theorem text_bit (b : Bool) : ∃ text, (Tree.int (if b then 1 else 0)).text = .ok text := by
  have written : (Tree.int (if b then 1 else 0)).text.isOk = true := by
    cases b <;> decide +kernel
  cases shown : (Tree.int (if b then 1 else 0)).text with
  | ok text => exact ⟨text, rfl⟩
  | error f =>
    rw [shown] at written
    cases written

def plainOperand : Tree → Bool
  | .int 0 | .int 1 | .real _ => true
  | _ => false

theorem text_of_plainOperand {t : Tree} (plain : plainOperand t = true) :
    ∃ text, t.text = .ok text := by
  unfold plainOperand at plain
  split at plain
  · exact text_bit false
  · exact text_bit true
  · exact ⟨_, rfl⟩
  · cases plain

def Label.isPlain : Label → Bool
  | .routine (.str _) | .routine .none => true
  | .routine _ => false
  | _ => true

/-- Whether an instruction can be written whatever its operands are. -/
def Instruction.isPlain : Instruction → Bool
  | .label l | .address l | .jump l | .jumpZero l => l.isPlain
  | .push t => plainOperand t
  | _ => true

theorem Label.text_of_isPlain {l : Label} (plain : l.isPlain = true) :
    ∃ text, l.text = .ok text := by
  cases l with
  | routine name => cases name <;> first | exact ⟨_, rfl⟩ | cases plain
  | _ => exact ⟨_, rfl⟩

theorem Instruction.text_of_isPlain {i : Instruction} (plain : i.isPlain = true) :
    ∃ text, i.text = .ok text := by
  cases i with
  | label l | address l | jump l | jumpZero l =>
    obtain ⟨text, written⟩ := Label.text_of_isPlain plain
    exact ⟨_, by simp only [Instruction.text, written]; rfl⟩
  | push t =>
    obtain ⟨text, written⟩ := text_of_plainOperand plain
    exact ⟨_, by simp only [Instruction.text, written]; rfl⟩
  | load cell | store cell => cases cell <;> exact ⟨_, rfl⟩
  | _ => exact ⟨_, rfl⟩

theorem rendered_of_isPlain (plain : code.all Instruction.isPlain = true) :
    ∃ text, render code = .ok text := by
  induction code with
  | nil => exact ⟨_, rfl⟩
  | cons i rest ih =>
    obtain ⟨first, later⟩ := Bool.and_eq_true_iff.mp plain
    obtain ⟨line, written⟩ := Instruction.text_of_isPlain first
    obtain ⟨text, rendered⟩ := ih later
    exact ⟨_, by simp only [render, written, rendered]; rfl⟩

theorem serves_modify {A B : Generator → Prop} {f : Generator → Generator}
    (moves : ∀ g, A g → B (f g))
    (same : ∀ g, (f g).globals = g.globals ∧ (f g).locals = g.locals ∧ (f g).types = g.types) :
    Serves A (modify f) [] (fun _ => True) B := by
  intro k g knows holds
  obtain ⟨globals, locals, types⟩ := same g
  refine ⟨fun _ => ⟨(), f g, rfl, trivial, ?_, moves g holds⟩, fun unsupplied => ?_⟩
  · exact ⟨globals ▸ knows.globals, locals ▸ knows.locals, types ▸ knows.types⟩
  · exact absurd (suppliedFrom_nil k) unsupplied

theorem serves_write {A : Generator → Prop} (stable : ∀ g code, A g → A { g with code := code })
    (plain : code.all Instruction.isPlain = true) : Serves A (emit code) [] (fun _ => True) A := by
  obtain ⟨text, rendered⟩ := rendered_of_isPlain plain
  refine (serves_modify (f := fun g => { g with code := g.code ++ code }) (fun g => stable g _)
    fun _ => ⟨rfl, rfl, rfl⟩).of_run fun k g _ _ => ?_
  rw [run_emit_ok rendered]
  rfl

theorem serves_emit_tree {t : Tree}
    (ok : ∀ text, t.text = .ok text → ∃ text', render code = .ok text')
    (error : ∀ f, t.text = .error f → ∃ f', render code = .error f') :
    ServesAt s (emit code) [.writes t] (fun _ => True) := by
  refine serves_event (fun k g knows site met => ?_) fun k g knows site unmet => ?_
  · cases written : t.text with
    | error f =>
      rw [Event.Met, written] at met
      cases met
    | ok text =>
      obtain ⟨text', rendered⟩ := ok text written
      refine ⟨(), _, run_emit_ok rendered g, trivial, ?_, ?_⟩
      · exact ⟨knows.globals, knows.locals, knows.types⟩
      · exact site.modify ⟨rfl, rfl, rfl⟩
  · cases written : t.text with
    | error f =>
      obtain ⟨f', rendered⟩ := error f written
      exact ⟨f', g, run_emit_error rendered g⟩
    | ok text =>
      rw [Event.Met, written] at unmet
      exact absurd rfl unmet

theorem serves_listing (t : Tree) :
    ServesAt s (do line (← ofExcept t.text)) [.writes t] (fun _ => True) := by
  refine serves_event (fun k g knows site met => ?_) fun k g knows site unmet => ?_
  · cases written : t.text with
    | error f =>
      rw [Event.Met, written] at met
      cases met
    | ok text =>
      refine ⟨(), _, run_line text g, trivial, ?_, ?_⟩
      · exact ⟨knows.globals, knows.locals, knows.types⟩
      · exact site.modify ⟨rfl, rfl, rfl⟩
  · cases written : t.text with
    | error f => exact ⟨f, g, rfl⟩
    | ok text =>
      rw [Event.Met, written] at unmet
      exact absurd rfl unmet

end Writing

section Cells

variable {s : Site} {x : String} {k : Known} {g : Generator} {v : Tree}

theorem run_hasLocal (knows : Knows k g) (x : String) :
    (hasLocal (.str x)).run g = .ok (decide (x ∈ k.locals)) g := by
  simp only [hasLocal, EStateM.run_bind, EStateM.run_get, knows.locals.has_str, run_ofExcept_ok]

theorem serves_globalCell (x : String) :
    ServesAt s (globalCell (.str x)) [.uses .program x] (fun _ => True) := by
  refine serves_event (fun k g knows site met => ?_) fun k g knows site unmet => ?_
  · obtain ⟨n, found⟩ := knows.globals.get_ok met
    exact ⟨_, g, run_globalCell_ok found, trivial, knows, site⟩
  · obtain ⟨f, missing⟩ := knows.globals.get_error_str unmet
    exact ⟨f, g, run_globalCell_error missing⟩

theorem serves_localCell (x : String) :
    ServesAt s (localCell (.str x)) [.uses .routine x] (fun _ => True) := by
  refine serves_event (fun k g knows site met => ?_) fun k g knows site unmet => ?_
  · obtain ⟨n, found⟩ := knows.locals.get_ok met
    exact ⟨_, g, run_localCell_ok found, trivial, knows, site⟩
  · obtain ⟨f, missing⟩ := knows.locals.get_error_str unmet
    exact ⟨f, g, run_localCell_error missing⟩

theorem serves_sourceCell (x : String) :
    ServesAt s (sourceCell (.str x)) [.uses .nearest x] (fun _ => True) := by
  intro k g knows site
  simp only [sourceCell, EStateM.run_bind, run_hasLocal knows]
  by_cases own : x ∈ k.locals
  · have cell := serves_localCell x k g knows site
    simp only [suppliedFrom_cons, suppliedFrom_nil, Event.Met, Known.Has, and_true] at cell ⊢
    simpa [own, Known.after] using cell
  · have cell := serves_globalCell x k g knows site
    simp only [suppliedFrom_cons, suppliedFrom_nil, Event.Met, Known.Has, and_true] at cell ⊢
    simpa [own, Known.after] using cell

theorem serves_newGlobal (x : String) :
    ServesAt s (newGlobal (.str x)) [.stores false x] (fun _ => True) := by
  refine serves_event (fun k g knows site _ => ?_) fun k g knows site unmet => absurd trivial unmet
  refine ⟨_, _, rfl, trivial, ?_, ?_⟩
  · exact ⟨knows.globals.insert x _, knows.locals, knows.types⟩
  · exact site.modify ⟨rfl, rfl, rfl⟩

theorem serves_ensure (own : Bool) (x : String) :
    ServesAt s (if own then ensureLocal (.str x) else ensureGlobal (.str x)) [.stores own x]
      fun _ => True := by
  refine serves_event (fun k g knows site _ => ?_) fun k g knows site unmet => absurd trivial unmet
  have ⟨globals, locals, types⟩ := knows
  cases own with
  | false =>
    simp only [Bool.false_eq_true, if_false, ensureGlobal, EStateM.run_bind, EStateM.run_get,
      globals.has_str, run_ofExcept_ok]
    by_cases known : x ∈ k.globals
    · obtain ⟨n, found⟩ := globals.get_ok known
      simp only [known, decide_true, if_true, run_globalCell_ok found]
      exact ⟨_, g, rfl, trivial, ⟨globals.of_mem known, locals, types⟩, site⟩
    · simp only [known, decide_false, Bool.false_eq_true, if_false]
      exact ⟨_, _, rfl, trivial, ⟨globals.insert x _, locals, types⟩, site.modify ⟨rfl, rfl, rfl⟩⟩
  | true =>
    simp only [if_true, ensureLocal, EStateM.run_bind, run_hasLocal knows]
    by_cases known : x ∈ k.locals
    · obtain ⟨n, found⟩ := locals.get_ok known
      simp only [known, decide_true, if_true, run_localCell_ok found]
      exact ⟨_, g, rfl, trivial, ⟨globals, locals.of_mem known, types⟩, site⟩
    · simp only [known, decide_false, Bool.false_eq_true, if_false]
      exact ⟨_, _, rfl, trivial, ⟨globals, locals.insert x _, types⟩, site.modify ⟨rfl, rfl, rfl⟩⟩

theorem globalCell_error (knows : Knows k g) (none : ∀ x, v ≠ .str x) :
    ∃ f, (globalCell v).run g = .error f g := by
  obtain ⟨f, missing⟩ := knows.globals.get_error fun x _ => none x
  exact ⟨f, run_globalCell_error missing⟩

theorem localCell_error (knows : Knows k g) (none : ∀ x, v ≠ .str x) :
    ∃ f, (localCell v).run g = .error f g := by
  obtain ⟨f, missing⟩ := knows.locals.get_error fun x _ => none x
  exact ⟨f, run_localCell_error missing⟩

theorem sourceCell_error (knows : Knows k g) (none : ∀ x, v ≠ .str x) :
    ∃ f, (sourceCell v).run g = .error f g := by
  obtain ⟨f, missing⟩ := globalCell_error knows none
  simp only [sourceCell, hasLocal, EStateM.run_bind, EStateM.run_get]
  rcases knows.locals.has_eq_false fun x _ => none x with ⟨f', flawed⟩ | absent
  · exact ⟨f', by simp [flawed, run_ofExcept_error]⟩
  · exact ⟨f, by simp [absent, run_ofExcept_ok, missing]⟩

end Cells

end PascalStack.Code
