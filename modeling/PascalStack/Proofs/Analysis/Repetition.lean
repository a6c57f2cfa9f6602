import PascalStack.Proofs.Analysis.Renaming

/-!
# Analyses one after another

An analyzer that has analyzed other trees follows a fresh one, with the symbols it makes numbered
from where it is and the errors it knows in front. So earlier analyses are not felt in later ones,
although the symbols of the standard routines are shared between them.
-/

namespace PascalStack.Analysis

/-- An analyzer after any number of analyses that ended without a fault. -/
inductive Reached : Analyzer → Prop
  | fresh : Reached {}
  | after {a b : Analyzer} {t : Tree} {accepted : Bool} :
      Reached a → (analyze t).run a = .ok accepted b → Reached b

section Repetition

variable {a b c : Analyzer} {t : Tree} {accepted : Bool}

theorem Settled.after (h : Settled a) (run : (analyze t).run a = .ok accepted b) : Settled b := by
  have follows := analyses_follow Renaming.same h t
  rw [show Renaming.same.toRespelling = {} from rfl, Tree.respell_default, run] at follows
  rcases follows with ⟨c, b', -, same, level, loops⟩ | ⟨f, c, b', -, same, -⟩
  · cases same
    refine ⟨level.loops.trans loops, ?_, level.known⟩
    rw [level.next]
    exact level.least.trans (Nat.le_add_right _ _)
  · cases same

theorem Reached.settled (h : Reached a) : Settled a := by
  induction h with
  | fresh => exact settled_fresh
  | after _ run ih => exact ih.after run

theorem errors_of_same (alike : ErrorsAlike (following Renaming.same a) b c) :
    c.errors = a.errors ++ b.errors := by
  obtain ⟨found, errors, reworded⟩ := alike
  have same : b.errors = found := by
    apply List.forall₂_eq_eq_eq ▸ reworded.imp ?_
    intro message message' h
    exact (h.eq fun x x' told => told rfl).symm
  rw [errors, same]
  rfl

end Repetition

/-- An analyzer that has been used before analyzes whatever a fresh one analyzes. It comes to know
the errors that the fresh one finds, after those it knew, it is in no loop, and it accepts just if
no errors are known. -/
theorem analysis_after_analyses {a fresh : Analyzer} (reached : Reached a) {t : Tree}
    {accepted : Bool} (alone : (analyze t).run {} = .ok accepted fresh) :
    ∃ verdict b, (analyze t).run a = .ok verdict b ∧ b.errors = a.errors ++ fresh.errors ∧
      b.loopLevel = 0 ∧ (verdict = true ↔ a.errors ++ fresh.errors = []) := by
  have follows := analyses_follow Renaming.same reached.settled t
  rw [show Renaming.same.toRespelling = {} from rfl, Tree.respell_default, alone] at follows
  rcases follows with ⟨c, b, same, run, level, loops⟩ | ⟨f, c, b, same, -, -⟩
  · cases same
    have errors : b.errors = a.errors ++ fresh.errors := errors_of_same level.errors
    refine ⟨b.errors.isEmpty, b, run, errors, level.loops.trans loops, ?_⟩
    rw [List.isEmpty_iff, errors]
  · cases same

def readsStandard : Tree :=
  .program (.header (.str "p")) (.block .none .none (.statementPart (.statementSequence
    [.readlnStatement (.list [.identifier (.str "length")]),
      .assignment (.identifier (.str "x")) (.literal (.int 1) (.str "NUMBER"))])) .none)

theorem run_of_verdict {t : Tree} {accepted : Bool} (h : Syntax.verdict? t = some accepted) :
    ∃ a, (analyze t).run {} = .ok accepted a := by
  unfold Syntax.verdict? at h
  split at h
  · next run =>
    cases h
    exact ⟨_, run⟩
  · cases h

/-- The standard routine that was read into is not felt. -/
theorem readsStandard_twice :
    ∃ a, Reached a ∧ (analyze readsStandard).run {} = .ok false a ∧
      ∃ verdict b, (analyze readsStandard).run a = .ok verdict b ∧
        b.errors = a.errors ++ a.errors ∧ b.loopLevel = 0 ∧
        (verdict = true ↔ a.errors ++ a.errors = []) := by
  have verdict : Syntax.verdict? readsStandard = some false := by decide +kernel
  obtain ⟨a, run⟩ := run_of_verdict verdict
  have reached : Reached a := .after .fresh run
  exact ⟨a, reached, run, analysis_after_analyses reached run⟩

end PascalStack.Analysis
