import PascalStack.Proofs.Analysis.Messages
import PascalStack.Proofs.Analysis.Typing
import PascalStack.Proofs.Runs

/-!
# Checks that follow one another

Two analyzers that are at the same place of a program, one of it as it is written and one of what it
is simplified to. As long as the first reports nothing, the second knows the same names, and what it
reports is brought about by simplification. Proofs go by the rules of this module and do not open
the primitives of checks.
-/

namespace PascalStack.Analysis

open Checking List

variable {α β γ δ : Type}

/-- An error that simplification can bring about: the type of a literal stands where another type
stood, a jump is set free from its loop, or what gives a function its value is taken away. -/
inductive Induced : String → Prop
  | operands {left right : String} (op : String) :
      left ∈ literalTypes ∨ right ∈ literalTypes →
      Induced s!"Invalid operands {left} and {right} for operator {op}"
  | operand {type : String} (sign : String) : type ∈ literalTypes →
      Induced s!"Invalid operand {type} for unary operator {sign}"
  | assigned {type : String} (wanted : String) : type ∈ literalTypes →
      Induced s!"Type mismatch in assignment: cannot assign {type} to {wanted}"
  | argument {type : String} (index : Nat) (what name wanted : String) : type ∈ literalTypes →
      Induced
        s!"Type mismatch in parameter {index} of {what} {name}: expected {wanted}, got {type}"
  | condition {type : String} (what : String) : type ∈ literalTypes →
      Induced s!"Condition in {what} statement must be of boolean type, got {type}"
  | limit {type : String} : type ∈ literalTypes →
      Induced s!"For loop limit must be of integer type, got {type}"
  | index {type : String} (what : String) : type ∈ literalTypes →
      Induced s!"{what} index must be an integer, got {type}"
  | measured {type : String} : type ∈ literalTypes →
      Induced s!"Length function expects a STRING parameter, got {type}"
  | jump (what : String) : Induced s!"{what} statement must be inside a loop"
  | result (name : String) : Induced s!"Function {name} does not have a return value"

/-- Where a check ends, the analyzer it leaves is related to the one it started from. -/
class Moves (R : Analyzer → Analyzer → Prop) (m : Checking α) : Prop where
  of_run {a b : Analyzer} {v : α} : m.run a = .ok v b → R a b

/-- A relation that the steps of a check respect as long as no name is declared or given a value. Of
messages it allows those that are about no jump. -/
class Admits (R : Analyzer → Analyzer → Prop) : Prop where
  refl (a : Analyzer) : R a a
  trans {a b c : Analyzer} : R a b → R b c → R a c
  print (a : Analyzer) (out : String) : R a { a with out := out }
  report (a : Analyzer) {message : String} :
    Plain message → R a { a with errors := a.errors ++ [message] }
  loop {a b : Analyzer} : R { a with loopLevel := a.loopLevel + 1 } b →
    R a { b with loopLevel := b.loopLevel - 1 }

/-- A relation that also allows that symbols are given values. -/
class AdmitsValues (R : Analyzer → Analyzer → Prop) : Prop extends Admits R where
  assign (a : Analyzer) (id : Nat) : R a { a with assigned := id :: a.assigned }

/-- A relation that also allows the messages about jumps. -/
class AdmitsJumps (R : Analyzer → Analyzer → Prop) : Prop extends AdmitsValues R where
  complain (a : Analyzer) (message : String) : R a { a with errors := a.errors ++ [message] }

/-- A relation that the steps of declarations respect. -/
class AdmitsNames (R : Analyzer → Analyzer → Prop) : Prop extends Admits R where
  number (a : Analyzer) : R a { a with nextId := a.nextId + 1 }
  define (a : Analyzer) (s : Symbol) : R a { a with scope := a.scope.define s }
  scope {a b : Analyzer} : R { a with scope := a.scope.enter } b →
    R a { b with scope := b.scope.leave }

def Extends (a a' : Analyzer) : Prop := a.errors <+: a'.errors

/-- What statements and expressions leave as it is. -/
structure Keeps (a a' : Analyzer) : Prop where
  scope : a'.scope = a.scope
  nextId : a'.nextId = a.nextId
  loopLevel : a'.loopLevel = a.loopLevel
  assigned : a.assigned ⊆ a'.assigned
  errors : a.errors <+: a'.errors

abbrev Adds (m : Checking α) : Prop := Moves Extends m

abbrev Stays (m : Checking α) : Prop := Moves Keeps m

theorem Keeps.refl (a : Analyzer) : Keeps a a :=
  ⟨rfl, rfl, rfl, Subset.refl _, prefix_rfl⟩

variable {a b : Analyzer} {c : Prop} {u : Unit} {m m' : Checking Unit} {v' : β} {message : String}

theorem Keeps.trans {c : Analyzer} (first : Keeps a b) (second : Keeps b c) : Keeps a c :=
  ⟨second.scope.trans first.scope, second.nextId.trans first.nextId,
    second.loopLevel.trans first.loopLevel, Subset.trans first.assigned second.assigned,
    first.errors.trans second.errors⟩

theorem Keeps.reporting (a : Analyzer) (message : String) :
    Keeps a { a with errors := a.errors ++ [message] } :=
  ⟨rfl, rfl, rfl, Subset.refl _, prefix_append _ _⟩

instance : AdmitsJumps Keeps where
  refl := Keeps.refl
  trans := Keeps.trans
  print _ _ := ⟨rfl, rfl, rfl, Subset.refl _, prefix_rfl⟩
  report a message _ := Keeps.reporting a message
  assign _ _ := ⟨rfl, rfl, rfl, subset_cons_self _ _, prefix_rfl⟩
  loop keeps := ⟨keeps.scope, keeps.nextId, congrArg (· - 1) keeps.loopLevel, keeps.assigned,
    keeps.errors⟩
  complain := Keeps.reporting

instance : AdmitsJumps Extends where
  refl _ := prefix_rfl
  trans := IsPrefix.trans
  print _ _ := prefix_rfl
  report _ _ _ := prefix_append _ _
  assign _ _ := prefix_rfl
  loop := id
  complain _ _ := prefix_append _ _

instance : AdmitsNames Extends where
  number _ := prefix_rfl
  define _ _ := prefix_rfl
  scope := id

section Moves

variable {R : Analyzer → Analyzer → Prop} [Admits R] {m m' : Checking α} {f : α → Checking β}

theorem Moves.bind (first : Moves R m) (second : ∀ v, Moves R (f v)) : Moves R (m >>= f) where
  of_run run := by
    obtain ⟨u, a₁, run₁, run₂⟩ := run_bind_ok run
    exact Admits.trans (first.of_run run₁) ((second u).of_run run₂)

theorem Moves.seq (first : Moves R m) (second : ∀ {v}, Moves R (f v)) : Moves R (m >>= f) :=
  first.bind fun _ => second

instance [Moves R m] [∀ v, Moves R (f v)] : Moves R (m >>= f) := .bind ‹_› ‹_›

omit [Admits R] in
theorem Moves.discard (h : Moves R m) : Moves R (discard m) where
  of_run run := by
    obtain ⟨u, run⟩ := run_discard_ok run
    exact h.of_run run

instance [h : Moves R m] : Moves R (discard m) := h.discard

omit [Admits R] in
theorem Moves.ite [Decidable c] (yes : Moves R m) (no : Moves R m') :
    Moves R (if c then m else m') := by
  split
  · exact yes
  · exact no

instance [Decidable c] [yes : Moves R m] [no : Moves R m'] : Moves R (if c then m else m') :=
  .ite yes no

instance moves_pure {v : α} : Moves R (pure v : Checking α) where
  of_run run := by
    cases run
    exact Admits.refl _

omit [Admits R] in
instance moves_throw {f : Fault} : Moves R (throw f : Checking α) where
  of_run run := by cases run

theorem Moves.ended (h : Moves R m) {g : α → β} : Moves R (m >>= fun v => pure (g v)) :=
  h.seq moves_pure

instance moves_ofExcept {x : Except Fault α} : Moves R (ofExcept x : Checking α) where
  of_run run := by
    obtain ⟨-, rfl⟩ := run_ofExcept_ok_iff.mp run
    exact Admits.refl _

theorem moves_get : Moves R (get : Checking Analyzer) where
  of_run run := by
    cases run
    exact Admits.refl _

theorem moves_line {text : String} : Moves R (line text) where
  of_run run := by
    cases run
    exact Admits.print _ _

theorem moves_report (kind : ErrorKind) (about : List String) (other : kind.isJump = false) :
    Moves R (report (kind.about about)) where
  of_run run := by
    cases run
    exact Admits.trans (Admits.report _ (plain_about kind about other)) (Admits.print _ _)

instance moves_textOf {t : Tree} : Moves R (textOf t) := moves_ofExcept

theorem run_showing (v : Value) (a : Analyzer) : (showing v).run a =
    (ofExcept (valueText a.assigned.contains v) : Checking String).run a := by
  rw [showing, EStateM.run_bind, EStateM.run_get]

instance moves_showing {v : Value} : Moves R (showing v) := moves_get.seq moves_ofExcept

instance moves_find? {name : Tree} : Moves R (find? name) := moves_ofExcept.seq moves_get.ended

instance moves_warn {t : Tree} : Moves R (warn t) := moves_line.ended

theorem run_inLoop_ok {m : Checking Unit} (run : (inLoop m).run a = .ok u b) :
    ∃ c, m.run { a with loopLevel := a.loopLevel + 1 } = .ok () c ∧
      b = { c with loopLevel := c.loopLevel - 1 } := by
  obtain ⟨_, _, entered, rest⟩ := run_bind_ok run
  obtain ⟨_, c, inside, left⟩ := run_bind_ok rest
  cases entered
  cases left
  exact ⟨c, inside, rfl⟩

theorem Moves.inLoop {m : Checking Unit} (h : Moves R m) : Moves R (inLoop m) where
  of_run run := by
    obtain ⟨c, inside, rfl⟩ := run_inLoop_ok run
    exact Admits.loop (h.of_run inside)

instance {m : Checking Unit} [h : Moves R m] : Moves R (inLoop m) := h.inLoop

end Moves

section AdmitsNames

variable {R : Analyzer → Analyzer → Prop}

instance moves_assign [AdmitsValues R] {s : Symbol} : Moves R (assign s) where
  of_run run := by
    cases run
    exact AdmitsValues.assign _ _

instance moves_complain [AdmitsJumps R] {message : String} : Moves R (report message) where
  of_run run := by
    cases run
    exact Admits.trans (AdmitsJumps.complain _ message) (Admits.print _ _)

variable [AdmitsNames R]

omit [AdmitsNames R] in
theorem run_define_ok {s : Symbol} (run : (define s).run a = .ok u b) :
    b = { a with scope := a.scope.define s } := by
  obtain ⟨_, a₁, key, rest⟩ := run_bind_ok run
  obtain ⟨-, rfl⟩ := run_ofExcept_ok_iff.mp key
  cases rest
  rfl

instance moves_define {s : Symbol} : Moves R (define s) where
  of_run run := by
    rw [run_define_ok run]
    exact AdmitsNames.define _ s

instance moves_newSymbol {name : Tree} {type : Value} {initialized constant value : Tree}
    {role : Role Value} : Moves R (newSymbol name type initialized constant value role) where
  of_run run := by
    cases run
    exact AdmitsNames.number _

theorem run_inScope_ok (run : (inScope m).run a = .ok u b) :
    ∃ c, m.run { a with scope := a.scope.enter } = .ok () c ∧
      b = { c with scope := c.scope.leave } := by
  obtain ⟨_, _, entered, rest⟩ := run_bind_ok run
  obtain ⟨_, c, inside, left⟩ := run_bind_ok rest
  cases entered
  cases left
  exact ⟨c, inside, rfl⟩

theorem Moves.inScope {m : Checking Unit} (h : Moves R m) : Moves R (inScope m) where
  of_run run := by
    obtain ⟨c, inside, rfl⟩ := run_inScope_ok run
    exact AdmitsNames.scope (h.of_run inside)

end AdmitsNames

/-! ## Following -/

/-- Two analyzers at the same place: the first has found no errors, and the second only such as
simplification brings about. -/
structure Related (a b : Analyzer) : Prop where
  clean : a.errors = []
  scope : b.scope = a.scope
  nextId : b.nextId = a.nextId
  loopLevel : b.loopLevel ≤ a.loopLevel
  assigned : b.assigned ⊆ a.assigned
  induced : ∀ e ∈ b.errors, Induced e

/-- Where a check finds no errors, another ends without a fault, gives a related value and leaves
related analyzers. -/
def Follows (m : Checking α) (m' : Checking β) (R : α → β → Prop) : Prop :=
  ∀ a b, Related a b → ∀ v a', m.run a = .ok v a' → a'.errors = [] →
    ∃ v' b', m'.run b = .ok v' b' ∧ R v v' ∧ Related a' b'

/-- The same of two checks whose values do not matter. -/
abbrev Trails (m : Checking α) (m' : Checking β) : Prop := Follows m m' fun _ _ => True

class Fails (m : Checking α) : Prop where
  errors_ne {a b : Analyzer} {v : α} : m.run a = .ok v b → b.errors ≠ []

/-- Where a check finds no errors, related analyzers make it give the same value. -/
class Repeats (m : Checking α) : Prop where
  follows : Follows m m Eq

section Follows

variable {m : Checking α} {m' : Checking β} {f : α → Checking γ} {f' : β → Checking δ}
  {R R' : α → β → Prop} {S : γ → δ → Prop}

theorem Follows.imp (h : Follows m m' R) (weaker : ∀ v v', R v v' → R' v v') : Follows m m' R' := by
  intro a b related v a' run clean
  obtain ⟨v', b', run', fits, related'⟩ := h a b related v a' run clean
  exact ⟨v', b', run', weaker v v' fits, related'⟩

theorem follows_pure {v : α} (h : R v v') : Follows (pure v) (pure v') R := by
  intro a b related u a' run clean
  cases run
  exact ⟨v', b, rfl, h, related⟩

theorem clean_of_adds {m : Checking α} [Adds m] (run : m.run a = .ok v b) (clean : b.errors = []) :
    a.errors = [] :=
  prefix_nil.mp (clean ▸ Moves.of_run (R := Extends) run)

theorem Follows.bind [∀ v, Adds (f v)] (first : Follows m m' R)
    (second : ∀ v v', R v v' → Follows (f v) (f' v') S) : Follows (m >>= f) (m' >>= f') S := by
  intro a b related u a' run clean
  obtain ⟨v, a₁, run₁, run₂⟩ := run_bind_ok run
  have clean₁ := clean_of_adds run₂ clean
  obtain ⟨v', b₁, run₁', fits, related₁⟩ := first a b related v a₁ run₁ clean₁
  obtain ⟨u', b', run₂', fits', related'⟩ := second v v' fits a₁ b₁ related₁ u a' run₂ clean
  exact ⟨u', b', run_seq run₁' run₂', fits', related'⟩

theorem Follows.done {u : γ} {u' : δ} (h : Follows m m' R) :
    Trails (do
      let _ ← m
      return u) (do
      let _ ← m'
      return u') :=
  h.bind fun _ _ _ => follows_pure trivial

theorem Follows.known [∀ v, Adds (f v)] {m' : Checking δ} (first : Follows m (pure v') R)
    (second : ∀ v, R v v' → Follows (f v) m' S) : Follows (m >>= f) m' S := by
  rw [← pure_bind v' fun _ => m']
  refine Follows.bind (R := fun v w => R v w ∧ w = v') ?_ ?_
  · intro a b related v a' run clean
    obtain ⟨w, b', run', fits, related'⟩ := first a b related v a' run clean
    cases run'
    exact ⟨v', b, rfl, ⟨fits, rfl⟩, related'⟩
  · rintro v w ⟨fits, rfl⟩
    exact second v fits

theorem Follows.skip [Stays m] [∀ v, Adds (f v)] {m' : Checking δ}
    (second : ∀ v, Follows (f v) m' S) : Follows (m >>= f) m' S := by
  intro a b related u a' run clean
  obtain ⟨v, a₁, run₁, run₂⟩ := run_bind_ok run
  have clean₁ := clean_of_adds run₂ clean
  have keeps : Keeps a a₁ := Moves.of_run run₁
  refine second v a₁ b ⟨clean₁, ?_, ?_, ?_, ?_, related.induced⟩ u a' run₂ clean
  · rw [related.scope, keeps.scope]
  · rw [related.nextId, keeps.nextId]
  · rw [keeps.loopLevel]
    exact related.loopLevel
  · exact Subset.trans related.assigned keeps.assigned

theorem follows_nothing [Stays m] {u : β} : Trails m (pure u) := by
  rw [← bind_pure m]
  exact .skip fun _ => follows_pure trivial

theorem Follows.leaving [∀ v, Stays (f v)] [∀ v, Adds (f v)] (h : Follows m m' R) :
    Trails (m >>= f) m' := by
  rw [← bind_pure m']
  exact h.bind fun _ _ _ => follows_nothing

theorem Follows.ignoring (h : Follows m m' R) : Trails (discard m) m' := by
  intro a b related u a' run clean
  obtain ⟨v, run⟩ := run_discard_ok run
  obtain ⟨v', b', run', -, related'⟩ := h a b related v a' run clean
  exact ⟨v', b', run', trivial, related'⟩

theorem Follows.discard (h : Follows m m' R) : Trails (discard m) (discard m') := by
  intro a b related u a' run clean
  obtain ⟨v', b', run', -, related'⟩ := h.ignoring a b related u a' run clean
  exact ⟨(), b', run_discard_of_ok run', trivial, related'⟩

theorem Follows.returning {P : α → Prop} (h : Follows m m' R)
    (returns : ∀ a v a', m.run a = .ok v a' → P v) : Follows m m' fun v v' => R v v' ∧ P v := by
  intro a b related v a' run clean
  obtain ⟨v', b', run', fits, related'⟩ := h a b related v a' run clean
  exact ⟨v', b', run', ⟨fits, returns a v a' run⟩, related'⟩

instance [Fails m] [∀ v, Adds (f v)] : Fails (m >>= f) where
  errors_ne run clean := by
    obtain ⟨v, a₁, run₁, run₂⟩ := run_bind_ok run
    exact Fails.errors_ne run₁ (clean_of_adds run₂ clean)

instance [∀ v, Fails (f v)] : Fails (m >>= f) where
  errors_ne run := by
    obtain ⟨v, a₁, -, run₂⟩ := run_bind_ok run
    exact Fails.errors_ne run₂

instance : Fails (report message) where
  errors_ne run := by
    cases run
    simp

instance {f : Fault} : Fails (throw f : Checking α) where
  errors_ne run := by cases run

theorem follows_failing [Fails m] : Follows m m' R :=
  fun _ _ _ _ _ run clean => absurd clean (Fails.errors_ne run)

theorem Follows.unless {refuse : Checking Unit} [Fails refuse] {c : Bool} {R : Unit → β → Prop}
    (h : c = true → Follows (pure ()) m' R) :
    Follows (if !c then refuse else pure ()) m' R := by
  cases c with
  | true => exact h rfl
  | false => exact follows_failing (m := refuse)

theorem follows_report {f' : Unit → Checking β} (induced : Induced message)
    (rest : Follows m (f' ()) R) : Follows m (report message >>= f') R := by
  intro a b related v a' run clean
  let b₁ : Analyzer := { b with
    errors := b.errors ++ [message]
    out := b.out ++ s!"Semantic Error: {message}" ++ "\n" }
  have reported : (report message).run b = .ok () b₁ := rfl
  have related₁ : Related a b₁ := by
    refine { related with induced := ?_ }
    intro e member
    rcases mem_append.mp member with old | new
    · exact related.induced e old
    · rw [mem_singleton.mp new]
      exact induced
  obtain ⟨v', b', run', fits, related'⟩ := rest a b₁ related₁ v a' run clean
  exact ⟨v', b', run_seq reported run', fits, related'⟩

theorem follows_report_end (induced : Induced message) : Trails (pure ()) (report message) := by
  rw [← bind_pure (report message)]
  exact follows_report induced (follows_pure trivial)

theorem Follows.same {m : Checking α} {f' : α → Checking δ} [Repeats m] [∀ v, Adds (f v)]
    (rest : ∀ v, Follows (f v) (f' v) S) : Follows (m >>= f) (m >>= f') S :=
  Repeats.follows.bind fun v _ equal => equal ▸ rest v

instance [Repeats m] [∀ v, Repeats (f v)] [∀ v, Adds (f v)] : Repeats (m >>= f) :=
  ⟨.same fun _ => Repeats.follows⟩

instance {v : α} : Repeats (pure v : Checking α) := ⟨follows_pure rfl⟩

instance (priority := low) [Fails m] : Repeats m := ⟨follows_failing⟩

instance {m m' : Checking α} [Decidable c] [Repeats m] [Repeats m'] :
    Repeats (if c then m else m') := by
  split <;> infer_instance

theorem follows_self [Repeats m] : Trails m m := Repeats.follows.imp fun _ _ _ => trivial

end Follows

/-! ## Primitives -/

section Primitives

variable {R : α → β → Prop}

def Reads {γ : Type} (m : Checking γ) (look : Scope → Except Fault γ) : Prop :=
  ∀ a v a', m.run a = .ok v a' ↔ look a.scope = .ok v ∧ a' = a

theorem reads_ofExcept {γ : Type} (x : Except Fault γ) : Reads (ofExcept x) fun _ => x :=
  fun _ _ _ => run_ofExcept_ok_iff

theorem reads_scope {γ : Type} (x : Except Fault Unit) (look : Scope → γ) :
    Reads (do ofExcept x; return look (← get).scope) fun s => x.map fun _ => look s := by
  intro a v a'
  cases x with
  | error f => exact iff_of_false nofun nofun
  | ok u =>
    constructor
    · intro run
      cases run
      exact ⟨rfl, rfl⟩
    · rintro ⟨found, rfl⟩
      cases found
      rfl

theorem reads_find? (name : Tree) :
    Reads (find? name) fun s => name.checkKey.map fun _ => s.find? name :=
  reads_scope _ fun s => s.find? name

theorem reads_findHere? (name : Tree) :
    Reads (findHere? name) fun s => name.checkKey.map fun _ => s.findHere? name :=
  reads_scope _ fun s => s.findHere? name

section Reads

variable {γ : Type} {m : Checking γ} {look : Scope → Except Fault γ}

theorem follows_reading {f : γ → Checking α} {f' : γ → Checking β} (reads : Reads m look)
    (rest : ∀ v, Follows (f v) (f' v) R) : Follows (m >>= f) (m >>= f') R := by
  intro a b related u a' run clean
  obtain ⟨v, a₁, looked, run₁⟩ := run_bind_ok run
  obtain ⟨found, rfl⟩ := (reads _ _ _).mp looked
  obtain ⟨u', b', run', fits, related'⟩ := rest v _ b related u a' run₁ clean
  exact ⟨u', b', run_seq ((reads b v b).mpr ⟨related.scope ▸ found, rfl⟩) run', fits, related'⟩

theorem Reads.repeats (reads : Reads m look) : Repeats m := by
  rw [← bind_pure m]
  exact ⟨follows_reading reads fun _ => Repeats.follows⟩

end Reads

instance {x : Except Fault α} : Repeats (ofExcept x : Checking α) := (reads_ofExcept x).repeats

instance {t : Tree} : Repeats (textOf t) := (reads_ofExcept _).repeats

instance {name : Tree} : Repeats (find? name) := (reads_find? name).repeats

instance {name : Tree} : Repeats (findHere? name) := (reads_findHere? name).repeats

theorem follows_taking {γ : Type} {f : γ → Checking α} {m' : Checking β} {x : Except Fault γ}
    (rest : ∀ v, x = .ok v → Follows (f v) m' R) : Follows (ofExcept x >>= f) m' R := by
  intro a b related v a' run clean
  obtain ⟨u, a₁, given, run₁⟩ := run_bind_ok run
  obtain ⟨given', rfl⟩ := run_ofExcept_ok_iff.mp given
  exact rest u given' _ b related v a' run₁ clean

theorem follows_knowing {γ : Type} {m : Checking α} {f' : γ → Checking β} {x : Except Fault γ}
    {u : γ} (given : x = .ok u) (rest : Follows m (f' u) R) :
    Follows m (ofExcept x >>= f') R := by
  intro a b related v a' run clean
  obtain ⟨v', b', run', fits, related'⟩ := rest a b related v a' run clean
  exact ⟨v', b', run_seq (run_ofExcept_ok_iff.mpr ⟨given, rfl⟩) run', fits, related'⟩

theorem follows_showing {m : Checking α} {f' : String → Checking β} {type : String}
    (rest : Follows m (f' type) R) : Follows m (showing (.named type) >>= f') R := by
  intro a b related v a' run clean
  obtain ⟨v', b', run', fits, related'⟩ := rest a b related v a' run clean
  have shown : (showing (.named type)).run b = .ok type b := rfl
  exact ⟨v', b', run_seq shown run', fits, related'⟩

theorem follows_line (text text' : String) : Trails (line text) (line text') := by
  intro a b related v a' run clean
  cases run
  exact ⟨(), _, rfl, trivial, { related with }⟩

instance {s : Symbol} : Repeats (assign s) where
  follows a b related v a' run clean := by
    cases run
    exact ⟨(), _, rfl, rfl, { related with assigned := cons_subset_cons _ related.assigned }⟩

theorem follows_assign_pure (s : Symbol) : Trails (assign s) (pure ()) := by
  intro a b related v a' run clean
  cases run
  exact ⟨(), b, rfl, trivial,
    { related with assigned := Subset.trans related.assigned (subset_cons_self _ _) }⟩

instance {s : Symbol} : Repeats (define s) where
  follows a b related v a' run clean := by
    obtain rfl := run_define_ok run
    obtain ⟨_, a₁, checked, -⟩ := run_bind_ok run
    obtain ⟨given, rfl⟩ := run_ofExcept_ok_iff.mp checked
    exact ⟨(), _, run_seq (run_ofExcept_ok_iff.mpr ⟨given, rfl⟩) rfl, rfl,
      { related with scope := congrArg (·.define s) related.scope }⟩

instance {name : Tree} {type : Value} {initialized constant value : Tree} {role : Role Value} :
    Repeats (newSymbol name type initialized constant value role) where
  follows a b related v a' run clean := by
    cases run
    refine ⟨_, _, rfl, ?_, { related with nextId := congrArg (· + 1) related.nextId }⟩
    rw [related.nextId]

theorem follows_inScope (h : Trails m m') : Trails (inScope m) (inScope m') := by
  intro a b related v a' run clean
  obtain ⟨a₂, inside, rfl⟩ := run_inScope_ok run
  have related₁ : Related { a with scope := a.scope.enter } { b with scope := b.scope.enter } :=
    { related with scope := congrArg Scope.enter related.scope }
  obtain ⟨_, b₂, inside', -, related₂⟩ := h _ _ related₁ _ a₂ inside clean
  refine ⟨(), { b₂ with scope := b₂.scope.leave }, ?_, trivial,
    { related₂ with scope := congrArg Scope.leave related₂.scope }⟩
  have entered' : enter.run b = .ok () { b with scope := b.scope.enter } := rfl
  exact run_seq entered' (run_seq inside' rfl)

theorem follows_inLoop (h : Trails m m') : Trails (inLoop m) (inLoop m') := by
  intro a b related v a' run clean
  obtain ⟨a₂, inside, rfl⟩ := run_inLoop_ok run
  have related₁ : Related { a with loopLevel := a.loopLevel + 1 }
      { b with loopLevel := b.loopLevel + 1 } :=
    { related with loopLevel := Nat.succ_le_succ related.loopLevel }
  obtain ⟨_, b₂, inside', -, related₂⟩ := h _ _ related₁ _ a₂ inside clean
  refine ⟨(), { b₂ with loopLevel := b₂.loopLevel - 1 }, ?_, trivial,
    { related₂ with loopLevel := Nat.sub_le_sub_right related₂.loopLevel 1 }⟩
  have entered' : (modify fun b => { b with loopLevel := b.loopLevel + 1 } : Checking Unit).run b =
      .ok () { b with loopLevel := b.loopLevel + 1 } := rfl
  exact run_seq entered' (run_seq inside' rfl)

theorem follows_lifted {m' : Checking β} [Stays m] [Stays m'] (h : Trails m m') :
    Trails (inLoop m) m' := by
  intro a b related v a' run clean
  obtain ⟨a₂, inside, rfl⟩ := run_inLoop_ok run
  have related₁ : Related { a with loopLevel := a.loopLevel + 1 } b :=
    { related with loopLevel := Nat.le_succ_of_le related.loopLevel }
  obtain ⟨v', b₂, inside', -, related₂⟩ := h _ _ related₁ _ a₂ inside clean
  refine ⟨v', b₂, inside', trivial, { related₂ with loopLevel := ?_ }⟩
  -- Each analyzer comes back to the loops it was in.
  have level : a₂.loopLevel = a.loopLevel + 1 := (Moves.of_run (R := Keeps) inside).loopLevel
  have level' : b₂.loopLevel = b.loopLevel := (Moves.of_run (R := Keeps) inside').loopLevel
  have fewer := related.loopLevel
  change b₂.loopLevel ≤ a₂.loopLevel - 1
  omega

end Primitives

end PascalStack.Analysis
