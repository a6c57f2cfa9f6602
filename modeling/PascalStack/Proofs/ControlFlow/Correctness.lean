import PascalStack.Proofs.ControlFlow.Generation
import PascalStack.Proofs.ControlFlow.Readiness
import PascalStack.Proofs.ControlFlow.Simulation

/-!
# Programs of control flow run as they are meant

The text that the generator writes for a program of control flow is code of the stack machine that
behaves as the program does: it ends with the same output and the same values, or fails after the
same output, or runs forever and writes the same. The generator writes such a text exactly if the
program is ready.
-/

namespace PascalStack

/-- What can be seen of a run: how it ends, what it writes, and the values of the variables at its
end. Of a run without an end one sees the texts that it gets to. -/
inductive Behaviour where
  | finishes (out : String) (store : String → Int)
  | fails (out : String)
  | runsOn (texts : Set (List Char))

def StackMachine.Behaves (d : StackMachine.Division) (code : List StackMachine.Op)
    (read : (Nat → Int) → String → Int) (cells : Nat → Int) : Behaviour → Prop
  | .finishes out store => ∃ n c, Reaches d code (start cells) n c ∧ step d code c = .halted ∧
      c.stack = [] ∧ c.out = out ∧ read c.cells = store
  | .fails out => ∃ n c, Reaches d code (start cells) n c ∧ step d code c = .failed ∧ c.out = out
  | .runsOn texts => (∀ n, ∃ c, Reaches d code (start cells) n c) ∧
      texts = { t | ∃ n c, Reaches d code (start cells) n c ∧ t <+: c.out.toList }

namespace ControlFlow

open Code
open StackMachine (Division Op Config Reaches step start assemble)

def Statement.Behaves (d : Division) (s : Statement) (store : String → Int) : Behaviour → Prop
  | .finishes out store' => ∃ fuel, s.run d fuel ⟨store, ""⟩ = .finished ⟨store', out⟩
  | .fails out => ∃ fuel store', s.run d fuel ⟨store, ""⟩ = .failed ⟨store', out⟩
  | .runsOn texts => (∀ fuel, ∃ last, s.run d fuel ⟨store, ""⟩ = .unfinished last) ∧
      texts = { t | ∃ fuel last, s.run d fuel ⟨store, ""⟩ = .unfinished last ∧
        t <+: last.out.toList }

theorem Statement.exists_behaves (d : Division) (s : Statement) (store : String → Int) :
    ∃ b, s.Behaves d store b := by
  by_cases forever : ∀ fuel, ∃ last, s.run d fuel ⟨store, ""⟩ = .unfinished last
  · exact ⟨.runsOn _, forever, rfl⟩
  · push Not at forever
    obtain ⟨fuel, ends⟩ := forever
    cases result : s.run d fuel ⟨store, ""⟩ with
    | finished last => exact ⟨.finishes last.out last.store, fuel, result⟩
    | failed last => exact ⟨.fails last.out, fuel, last.store, result⟩
    | unfinished last => exact absurd result (ends last)

def Stops (d : Division) (ops : List Op) (c : Config) : Prop := ∀ next, step d ops c ≠ .next next

section Machine

variable {d : Division} {ops : List Op} {c c' c'' : Config} {m n : Nat}

theorem stop_unique (run : Reaches d ops c n c') (stops : Stops d ops c')
    (run' : Reaches d ops c m c'') (stops' : Stops d ops c'') : c' = c'' := by
  have same : n = m := le_antisymm (run'.le_of_stop stops' run) (run.le_of_stop stops run')
  subst same
  exact run.unique run'

theorem stops_of_halted (halted : step d ops c = .halted) : Stops d ops c := by
  intro next
  simp [halted]

theorem stops_of_failed (failed : step d ops c = .failed) : Stops d ops c := by
  intro next
  simp [failed]

end Machine

def Setting.Carries (σ : Setting) (s : Statement) (cells : Nat → Int) : Prop :=
  ∀ fuel, σ.Follows fuel (start cells) σ.ops.length
    (s.run σ.division fuel ⟨σ.shows cells, ""⟩)

section Behaviours

variable {σ : Setting} {s : Statement} {cells : Nat → Int}

theorem Setting.Carries.cases (carries : σ.Carries s cells) (fuel : Nat) :
    (∃ last n c, s.run σ.division fuel ⟨σ.shows cells, ""⟩ = .finished last ∧
      σ.Reaches (start cells) n c ∧ step σ.division σ.ops c = .halted ∧ c.stack = [] ∧
      c.out = last.out ∧ σ.shows c.cells = last.store) ∨
    (∃ last n c, s.run σ.division fuel ⟨σ.shows cells, ""⟩ = .failed last ∧
      σ.Reaches (start cells) n c ∧ step σ.division σ.ops c = .failed ∧ c.out = last.out) ∨
    (∃ last n c, s.run σ.division fuel ⟨σ.shows cells, ""⟩ = .unfinished last ∧
      σ.Reaches (start cells) n c ∧ fuel ≤ n ∧ c.out = last.out) := by
  have follows := carries fuel
  cases result : s.run σ.division fuel ⟨σ.shows cells, ""⟩ with
  | finished last =>
    rw [result] at follows
    obtain ⟨n, cells', run, shown⟩ := follows
    refine .inl ⟨last, n, _, rfl, run, ?_, rfl, rfl, shown.symm⟩
    simp [step]
  | failed last =>
    rw [result] at follows
    obtain ⟨n, c, run, stop, wrote⟩ := follows
    exact .inr (.inl ⟨last, n, c, rfl, run, stop, wrote⟩)
  | unfinished last =>
    rw [result] at follows
    obtain ⟨n, c, run, long, wrote⟩ := follows
    exact .inr (.inr ⟨last, n, c, rfl, run, long, wrote⟩)

theorem Setting.Carries.not_unfinished (carries : σ.Carries s cells) {n : Nat} {c : Config}
    (run : σ.Reaches (start cells) n c) (stops : Stops σ.division σ.ops c) {last : State} :
    s.run σ.division (n + 1) ⟨σ.shows cells, ""⟩ ≠ .unfinished last := by
  intro result
  have follows := carries (n + 1)
  rw [result] at follows
  obtain ⟨m, c', run', long, _⟩ := follows
  have short := run.le_of_stop stops run'
  omega

theorem Setting.Carries.forever_iff (carries : σ.Carries s cells) :
    (∀ fuel, ∃ last, s.run σ.division fuel ⟨σ.shows cells, ""⟩ = .unfinished last) ↔
      ∀ n, ∃ c, σ.Reaches (start cells) n c := by
  constructor
  · intro forever n
    obtain ⟨last, result⟩ := forever n
    have follows := carries n
    rw [result] at follows
    obtain ⟨m, c, run, long, _⟩ := follows
    obtain ⟨k, rfl⟩ := Nat.exists_eq_add_of_le long
    obtain ⟨c', first, _⟩ := run.split
    exact ⟨c', first⟩
  · intro forever fuel
    have stopless : ∀ {n c}, σ.Reaches (start cells) n c → ¬ Stops σ.division σ.ops c := by
      intro n c run stops
      obtain ⟨c', longer⟩ := forever (n + 1)
      have short := run.le_of_stop stops longer
      omega
    rcases carries.cases fuel with ⟨_, _, _, _, run, halted, _⟩ | ⟨_, _, _, _, run, failed, _⟩ |
      ⟨last, _, _, result, _⟩
    · exact absurd (stops_of_halted halted) (stopless run)
    · exact absurd (stops_of_failed failed) (stopless run)
    · exact ⟨last, result⟩

theorem Setting.Carries.texts_eq (carries : σ.Carries s cells)
    (forever : ∀ fuel, ∃ last, s.run σ.division fuel ⟨σ.shows cells, ""⟩ = .unfinished last) :
    { t : List Char | ∃ fuel last, s.run σ.division fuel ⟨σ.shows cells, ""⟩ = .unfinished last ∧
        t <+: last.out.toList } =
      { t | ∃ n c, σ.Reaches (start cells) n c ∧ t <+: c.out.toList } := by
  ext t
  constructor
  · rintro ⟨fuel, last, result, within⟩
    have follows := carries fuel
    rw [result] at follows
    obtain ⟨n, c, run, _, wrote⟩ := follows
    exact ⟨n, c, run, wrote ▸ within⟩
  · rintro ⟨n, c, run, within⟩
    obtain ⟨last, result⟩ := forever n
    have follows := carries n
    rw [result] at follows
    obtain ⟨m, c', run', long, wrote⟩ := follows
    -- The run of the statement has come at least as far as `c`.
    obtain ⟨k, rfl⟩ := Nat.exists_eq_add_of_le long
    obtain ⟨mid, first, rest⟩ := run'.split
    cases first.unique run
    exact ⟨n, last, result, within.trans (wrote ▸ rest.out_le)⟩

theorem Setting.Carries.behaves_iff (carries : σ.Carries s cells) (b : Behaviour) :
    s.Behaves σ.division (σ.shows cells) b ↔
      StackMachine.Behaves σ.division σ.ops σ.shows cells b := by
  cases b with
  | finishes out store =>
    constructor
    · rintro ⟨fuel, result⟩
      have follows := carries fuel
      rw [result] at follows
      obtain ⟨n, cells', run, shown⟩ := follows
      exact ⟨n, _, run, by simp [step], rfl, rfl, shown.symm⟩
    · rintro ⟨n, c, run, halted, _, rfl, rfl⟩
      have stops := stops_of_halted halted
      rcases carries.cases (n + 1) with ⟨last, _, c', result, run', halted', _, wrote, shown⟩ |
        ⟨_, _, c', _, run', failed, _⟩ | ⟨_, _, _, result, _⟩
      · cases stop_unique run stops run' (stops_of_halted halted')
        exact ⟨n + 1, by rw [result, wrote, shown]⟩
      · cases stop_unique run stops run' (stops_of_failed failed)
        rw [halted] at failed
        cases failed
      · exact absurd result (carries.not_unfinished run stops)
  | fails out =>
    constructor
    · rintro ⟨fuel, store', result⟩
      have follows := carries fuel
      rw [result] at follows
      exact follows
    · rintro ⟨n, c, run, failed, rfl⟩
      have stops := stops_of_failed failed
      rcases carries.cases (n + 1) with ⟨_, _, c', _, run', halted, _⟩ |
        ⟨last, _, c', result, run', failed', wrote⟩ | ⟨_, _, _, result, _⟩
      · cases stop_unique run stops run' (stops_of_halted halted)
        rw [failed] at halted
        cases halted
      · cases stop_unique run stops run' (stops_of_failed failed')
        exact ⟨n + 1, last.store, by rw [result, wrote]⟩
      · exact absurd result (carries.not_unfinished run stops)
  | runsOn texts =>
    constructor
    · rintro ⟨forever, rfl⟩
      exact ⟨carries.forever_iff.mp forever, carries.texts_eq forever⟩
    · rintro ⟨forever, rfl⟩
      have unfinished := carries.forever_iff.mpr forever
      exact ⟨unfinished, (carries.texts_eq unfinished).symm⟩

end Behaviours

/-- The values of the variables, read from the cells that the generator gave them; those without a
cell have the values of `base`. -/
def cellValues (globals : Dictionary Nat) (base : String → Int) (cells : Nat → Int)
    (x : String) : Int :=
  match globals.find? (.str x) with
  | some n => cells n
  | none => base x

theorem cellValues_cells (l : Layout) (base : String → Int) :
    cellValues l.cells base = view l.names base := by
  funext cells x
  rw [cellValues, Layout.find_cells, view]
  by_cases member : x ∈ l.names <;> simp [member]

theorem installed_of_means {code : List Instruction} {ops : List Op}
    (each : List.Forall₂ Means code ops) (unique : (marked code).Nodup) : Installed ops 0 code := by
  have fetch : ∀ (k : Nat) i, code[k]? = some i → ∃ op, Means i op ∧ ops[k]? = some op := by
    intro k i fetched
    obtain ⟨bound, rfl⟩ := List.getElem?_eq_some_iff.mp fetched
    have bound' : k < ops.length := each.length_eq ▸ bound
    exact ⟨ops[k], each.get bound bound', List.getElem?_eq_getElem bound'⟩
  constructor
  · simpa using fetch
  · intro k lb here
    obtain ⟨_, ⟨⟩, _⟩ := fetch k _ here
    rw [Nat.zero_add]
    exact place_of_mark each unique ‹_› here

theorem carries_of_lower {s : Statement} {l : Layout} {code : List Instruction} {ops : List Op}
    (lowered : s.lower {} = some (code, l)) (each : List.Forall₂ Means code ops)
    (unique : (marked code).Nodup) (d : Division) (base : String → Int) (cells : Nat → Int) :
    Setting.Carries ⟨d, ops, l.names, base⟩ s cells := by
  intro fuel
  have run : Setting.Follows ⟨d, ops, l.names, base⟩ fuel _ _ _ :=
    Statement.realizes s _ _ _ 0 lowered List.prefix_rfl (installed_of_means each unique) [] cells
      ⟨_, ""⟩ rfl
  rw [Nat.zero_add, each.length_eq] at run
  exact run

theorem nodup_of_generated {t : Tree} {file : String} {g : Generator}
    (run : (generateProgram t).run { file := file } = .ok () g) : (marked g.code).Nodup := by
  obtain ⟨code, wrote, stretch⟩ := stableControl_resolves.generateProgram t _ _ _ run
  rw [wrote]
  exact stretch.nodup

/-- For a program of control flow the generator writes code, unless the program is not ready. The text of
the code is code of the stack machine, and on every machine, from any values of the variables, it
behaves as the program does. -/
theorem generated_code_behaves (p : Program) (file : String) :
    match (generateProgram p.tree).run { file := file } with
    | .ok _ g => p.body.Ready ∧ ∃ text ops, render g.code = .ok text ∧ assemble text = some ops ∧
        ∀ (d : Division) (base : String → Int) (cells : Nat → Int),
          (∃ b, p.body.Behaves d (cellValues g.globals base cells) b) ∧
          ∀ b, p.body.Behaves d (cellValues g.globals base cells) b ↔
            StackMachine.Behaves d ops (cellValues g.globals base) cells b
    | .error _ _ => ¬ p.body.Ready := by
  have run := run_program p file
  cases lowered : p.body.lower {} with
  | none =>
    simp only [lowered] at run
    obtain ⟨f, g, run⟩ := run
    simp only [run]
    intro ready
    obtain ⟨result, found⟩ := p.body.ready_iff.mp ready
    rw [lowered] at found
    cases found
  | some result =>
    obtain ⟨code, l⟩ := result
    simp only [lowered] at run
    obtain ⟨g, run, wrote, given⟩ := run
    simp only [run]
    obtain ⟨ops, each⟩ := exists_operations (p.body.tidy _ _ _ lowered).means
    obtain ⟨text, rendered, assembled⟩ := assemble_render each
    have unique : (marked code).Nodup := wrote ▸ nodup_of_generated run
    refine ⟨p.body.ready_iff.mpr ⟨_, lowered⟩, text, ops, wrote ▸ rendered, assembled, ?_⟩
    intro d base cells
    rw [given, cellValues_cells]
    refine ⟨Statement.exists_behaves d p.body _, fun b => ?_⟩
    exact (carries_of_lower lowered each unique d base cells).behaves_iff b

end ControlFlow

end PascalStack
