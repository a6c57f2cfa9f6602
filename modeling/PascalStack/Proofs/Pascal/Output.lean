import PascalStack.Proofs.Pascal.Supply

/-!
# What a run prints

The text printed only grows: each step adds to it, whatever it does.
-/

namespace PascalStack.Pascal

open LR

def resume (fuel : Nat) : Step TokenKind Phrase Tree → Outcome Tree × Config
  | .next c => machine.run fuel c
  | .done c outcome => (outcome, c)

theorem run_succ (fuel : Nat) (c : Config) :
    machine.run (fuel + 1) c = resume fuel (machine.step c) := by
  rw [Machine.run]
  cases machine.step c <;> rfl

def leaves : Step TokenKind Phrase Tree → Config
  | .next c => c
  | .done c _ => c

def Extends (before after : String) : Prop := ∃ text, after = before ++ text

theorem Extends.refl (text : String) : Extends text text := ⟨"", by simp⟩

theorem Extends.trans {first second third : String} (h : Extends first second)
    (h' : Extends second third) : Extends first third := by
  obtain ⟨text, rfl⟩ := h
  obtain ⟨more, rfl⟩ := h'
  exact ⟨text ++ more, by rw [String.append_assoc]⟩

theorem complain_result (look : Option (Lookahead TokenKind Tree)) :
    (∃ said, ∀ out, complain look out = .ok () (out ++ said)) ∨
      ∃ f, ∀ out, complain look out = .error f out := by
  cases look with
  | none => exact .inl ⟨_, fun out => rfl⟩
  | some look =>
    cases text : look.value.text with
    | error f => exact .inr ⟨f, fun out => by simp only [complain, text]; rfl⟩
    | ok said => exact .inl ⟨_, fun out => by simp only [complain, text]; rfl⟩

theorem reduce_extends (r : Nat) (c : Config) : Extends c.out (leaves (machine.reduce r c)).out := by
  unfold Machine.reduce
  split
  · exact .refl _
  case h_2 n size found =>
    obtain ⟨rule, known, _⟩ := Option.map_eq_some_iff.mp found
    dsimp only
    split
    · exact .refl _
    · have build_eq (values : List Tree) (out : String) :
          machine.build r values out = rule.build values out := by
        simp only [machine, known]
      rw [build_eq]
      rcases build_result known ((c.stack.take size).reverse.map (·.value)) with
        ⟨value, said, result⟩ | ⟨f, result⟩
      · rw [result]
        dsimp only
        split <;> exact ⟨said, rfl⟩
      · rw [result]
        exact .refl _

theorem fetch_extends (c : Config) : Extends c.out (Machine.fetch c).2.out := by
  unfold Machine.fetch
  split
  · exact .refl _
  · split
    · exact .refl _
    · split
      · exact .refl _
      case h_2 s feed _ =>
        dsimp only
        split <;> exact ⟨s.report, rfl⟩

theorem unwind_out (look : Lookahead TokenKind Tree) (c : Config) :
    (leaves (machine.unwind look c)).out = c.out := by
  unfold Machine.unwind
  split <;> rfl

theorem recover_extends (look : Lookahead TokenKind Tree) (c : Config) :
    Extends c.out (leaves (machine.recover look c)).out := by
  unfold Machine.recover
  split
  · have complain_eq (out : String) :
        machine.complain (Machine.culprit look) out = complain (Machine.culprit look) out := rfl
    rw [complain_eq]
    rcases complain_result (Machine.culprit look) with ⟨said, result⟩ | ⟨f, result⟩
    · rw [result]
      exact ⟨said, unwind_out _ _⟩
    · rw [result]
      exact .refl _
  · exact ⟨"", by rw [unwind_out, String.append_empty]⟩

theorem step_extends (c : Config) : Extends c.out (leaves (machine.step c)).out := by
  unfold Machine.step
  split
  · exact reduce_extends _ c
  · have fetched := fetch_extends c
    generalize Machine.fetch c = result at fetched
    obtain ⟨look | look, c'⟩ := result
    · exact fetched
    · refine fetched.trans ?_
      dsimp only
      split
      · exact .refl _
      · exact reduce_extends _ c'
      · split <;> exact .refl _
      · exact recover_extends _ c'

theorem run_extends (fuel : Nat) (c : Config) : Extends c.out (machine.run fuel c).2.out := by
  induction fuel generalizing c with
  | zero => exact .refl _
  | succ fuel ih =>
    have first := step_extends c
    rw [run_succ]
    cases step : machine.step c with
    | next c' =>
      rw [step] at first
      exact first.trans (ih c')
    | done c' outcome =>
      rw [step] at first
      exact first

theorem resume_extends (fuel : Nat) (s : Step TokenKind Phrase Tree) :
    Extends (leaves s).out (resume fuel s).2.out := by
  cases s with
  | next c => exact run_extends fuel c
  | done c outcome => exact .refl _

end PascalStack.Pascal
