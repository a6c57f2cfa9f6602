import PascalStack.Proofs.Analysis.Balance
import PascalStack.Proofs.Syntax.Sources

/-!
# Checks of programs

A source text that is accepted as it is written is checked to the end after it is simplified, and
whatever errors are found then are brought about by simplification. It does not hold the other way
round: what is in error may be taken away.
-/

namespace PascalStack.Analysis

open Checking Syntax

variable {shown : String} {R : Analyzer → Analyzer → Prop} {t : Tree}

section Routines

variable {block block' : Checking Unit} [Adds block]

instance {v : Value} : Repeats (defineValue v) := by
  unfold defineValue
  split <;> infer_instance

theorem follows_checkProcedure (routine : Value) (h : Trails block block') :
    Trails (checkProcedure routine block) (checkProcedure routine block') :=
  follows_inScope <| .same fun _ => .same fun _ => h

theorem follows_checkGiven {name : Tree} (text : name.text = .ok shown) (result : Symbol) :
    Trails (checkGiven name result) (checkGiven name result) := by
  let refuse : Checking Unit := do
    let name ← textOf name
    report s!"Function {name} does not have a return value"
  have refused : Trails (pure ()) refuse :=
    follows_knowing text (follows_report_end (.result shown))
  have opened (c : Analyzer) : (checkGiven name result).run c =
      EStateM.run (if !(result.initialized.truthy || c.assigned.contains result.id) then refuse
        else pure ()) c := rfl
  intro a b related v a' run clean
  rw [opened] at run
  rw [opened]
  split at run
  · exact absurd clean (Fails.errors_ne run)
  · split
    · exact refused a b related v a' run clean
    · exact follows_pure (R := fun _ _ => True) trivial a b related v a' run clean

theorem follows_checkFunction {s : Symbol} (text : s.name.text = .ok shown)
    (h : Trails block block') :
    Trails (checkFunction (.symbol s) block) (checkFunction (.symbol s) block') := by
  rw [checkFunction_symbol, checkFunction_symbol]
  exact follows_inScope <| .same fun _ => .same fun _ => .same fun _ => .same fun _ =>
    h.bind fun _ _ _ => .same fun _ => follows_checkGiven text _

theorem exists_text_name (x : Option String) : ∃ shown, (nameTree x).text = .ok shown := by
  cases x with
  | none => exact ⟨_, rfl⟩
  | some x => exact ⟨x, rfl⟩

end Routines

theorem length_of_allRoutines {rs rs' : List Routine} (h : Routine.AllBecome rs rs') :
    (Routine.trees rs').length = (Routine.trees rs).length := by
  induction rs generalizing rs' with
  | nil =>
    obtain rfl : rs' = [] := h
    rfl
  | cons r rest ih =>
    obtain ⟨r', rest', -, others, rfl⟩ := h
    exact congrArg (· + 1) (ih others)

instance moves_extra [AdmitsNames R] [AdmitsValues R] (extra : Option (List Declaration)) :
    Moves R (whenPresent (extraTree extra) (discard (check (extraTree extra)))) := by
  cases extra with
  | none => exact moves_pure
  | some ds => exact (moves_section ds).discard

theorem follows_extra {extra extra' : Option (List Declaration)} (h : ExtraBecomes extra extra') :
    Trails (whenPresent (extraTree extra) (discard (check (extraTree extra))))
      (whenPresent (extraTree extra') (discard (check (extraTree extra')))) := by
  cases extra with
  | none =>
    obtain rfl : extra' = none := h
    exact follows_pure trivial
  | some ds =>
    obtain ⟨ds', become, rfl⟩ := h
    exact (follows_section become).discard

instance moves_body [AdmitsJumps R] (items : List Statement) : Moves R (check (bodyTree items)) :=
  (moves_statements items).ended

theorem follows_body {items items' : List Statement} (h : BodyBecomes items items') :
    Trails (check (bodyTree items)) (check (bodyTree items')) := by
  obtain ⟨all, become, rfl⟩ := h
  exact (follows_statements items become).done

mutual

theorem follows_block (b : Block) {b' : Block} (h : b.Becomes b') :
    Trails (check b.tree) (check b'.tree) := by
  match b with
  | .make declarations routines body extra =>
    obtain ⟨declarations', routines', body', extra', first, second, third, fourth, rfl⟩ := h
    refine (follows_inScope ?_).done
    exact (follows_section first).discard.bind fun _ _ _ =>
      (follows_whenPresent (length_of_allRoutines second) (follows_routines routines second)).bind
        fun _ _ _ =>
      (follows_extra fourth).bind fun _ _ _ => (follows_body third).discard

theorem follows_routine (r : Routine) {r' : Routine} (h : r.Becomes r') :
    Trails (check r.tree) (check r'.tree) := by
  match r with
  | .procedure name parameters block =>
    obtain ⟨block', becomes, rfl⟩ := h
    exact .same fun v => (follows_checkProcedure v (follows_block block becomes).discard).done
  | .function name result parameters block =>
    obtain ⟨block', becomes, rfl⟩ := h
    refine (Repeats.follows.returning (returns_functionHeading name result parameters)).bind ?_
    rintro _ _ ⟨rfl, s, rfl, named⟩
    obtain ⟨shown, text⟩ := exists_text_name name
    exact (follows_checkFunction (named ▸ text) (follows_block block becomes).discard).done

theorem follows_routines (rs : List Routine) {rs' : List Routine} (h : Routine.AllBecome rs rs') :
    Trails (checkAll andNothing (Routine.trees rs)) (checkAll andNothing (Routine.trees rs')) := by
  match rs with
  | [] =>
    obtain rfl : rs' = [] := h
    exact follows_pure trivial
  | r :: rest =>
    obtain ⟨r', rest', becomes, others, rfl⟩ := h
    exact (follows_routine r becomes).bind fun _ _ _ => follows_routines rest others

end

theorem follows_program {p q : Program} (h : p.Becomes q) :
    Trails (check p.tree) (check q.tree) := by
  obtain ⟨-, becomes⟩ := h
  exact (follows_block p.block becomes).discard.done

theorem run_lines {α : Type} (text : α → String) (xs : List α) (a : Analyzer) :
    ∃ out, (xs.forM fun x => line (text x)).run a = .ok () { a with out := out } := by
  induction xs generalizing a with
  | nil => exact ⟨a.out, rfl⟩
  | cons x rest ih => exact ih { a with out := a.out ++ text x ++ "\n" }

theorem run_summarize (a : Analyzer) :
    ∃ out, summarize.run a = .ok a.errors.isEmpty { a with out := out } := by
  have opened : summarize.run a = EStateM.run (if a.errors.isEmpty then do
      line "No semantic errors found."
      return true
    else do
      line s!"Found {a.errors.length} semantic errors:"
      a.errors.zipIdx.forM fun entry => line s!"{entry.2 + 1}. {entry.1}"
      return false) a := rfl
  rw [opened]
  cases a.errors.isEmpty with
  | true => exact ⟨_, rfl⟩
  | false =>
    obtain ⟨out, printed⟩ := run_lines (fun entry : String × Nat =>
      s!"{entry.2 + 1}. {entry.1}") a.errors.zipIdx
        { a with out := a.out ++ s!"Found {a.errors.length} semantic errors:" ++ "\n" }
    have counted : (line s!"Found {a.errors.length} semantic errors:").run a = .ok () _ := rfl
    exact ⟨out, run_seq counted (run_seq printed rfl)⟩

theorem run_analyze_ok {v : Value} {a : Analyzer}
    (checked : (check t).run { scope := standardScope } = .ok v a) :
    ∃ a', (analyze t).run {} = .ok a.errors.isEmpty a' ∧ a'.errors = a.errors := by
  obtain ⟨out, summary⟩ := run_summarize a
  exact ⟨_, run_seq rfl (run_seq (run_discard_of_ok checked) summary), rfl⟩

theorem checked_of_analyzed {verdict : Bool} {a' : Analyzer}
    (run : (analyze t).run {} = .ok verdict a') :
    ∃ v a, (check t).run { scope := standardScope } = .ok v a ∧ a'.errors = a.errors ∧
      verdict = a.errors.isEmpty := by
  obtain ⟨_, a₁, entered, rest⟩ := run_bind_ok run
  obtain ⟨_, a, checked, summary⟩ := run_bind_ok rest
  cases entered
  obtain ⟨v, checked⟩ := run_discard_ok checked
  obtain ⟨out, summary'⟩ := run_summarize a
  rw [summary'] at summary
  injection summary with told same
  exact ⟨v, a, checked, by rw [← same], told.symm⟩

theorem checked_of_accepted (h : verdict? t = some true) :
    ∃ v a, (check t).run { scope := standardScope } = .ok v a ∧ a.errors = [] := by
  unfold verdict? at h
  split at h
  · rename_i accepted a' run
    cases h
    obtain ⟨v, a, checked, -, empty⟩ := checked_of_analyzed run
    exact ⟨v, a, checked, List.isEmpty_iff.mp empty.symm⟩
  · cases h

/-- A source text that is accepted as it is written is analyzed to the end after it is simplified.
Whatever errors are found then are brought about by simplification, and it is accepted if none
are. -/
theorem accepted_source_reports_only_induced {text : String} {tree simplified : Tree}
    (prepared : Prepared text tree simplified) (accepted : verdict? tree = some true) :
    ∃ verdict b, (analyze simplified).run {} = .ok verdict b ∧ (∀ e ∈ b.errors, Induced e) ∧
      (verdict = true ↔ b.errors = []) := by
  obtain ⟨p, q, rfl, rfl, becomes⟩ := prepared.programs
  obtain ⟨v, a, checked, clean⟩ := checked_of_accepted accepted
  have start : Related { scope := standardScope } { scope := standardScope } :=
    ⟨rfl, rfl, rfl, Nat.le_refl _, List.Subset.refl _, nofun⟩
  obtain ⟨v', b, checked', -, related⟩ := follows_program becomes _ _ start v a checked clean
  obtain ⟨b', analyzed, errors⟩ := run_analyze_ok checked'
  refine ⟨_, b', analyzed, ?_, ?_⟩
  · rw [errors]
    exact related.induced
  · rw [errors]
    exact List.isEmpty_iff

def foldedTruth : String :=
  "program p; var b: boolean; x: integer; begin x := 2 + 3; b := 1 = 1; " ++
    "if 2 < 1 then x := 3; while x < 9 do x := x + 1 end."

theorem foldedTruth_reports_only_induced :
    ∃ tree simplified, Prepared foldedTruth tree simplified ∧ verdict? tree = some true ∧
      verdict? simplified = some false ∧
      ∃ verdict b, (analyze simplified).run {} = .ok verdict b ∧ (∀ e ∈ b.errors, Induced e) ∧
        (verdict = true ↔ b.errors = []) := by
  have verdicts : ∃ tree simplified, Prepared foldedTruth tree simplified ∧
      verdict? tree = some true ∧ verdict? simplified = some false :=
    exists_verdicts (by decide +kernel)
  obtain ⟨tree, simplified, prepared, accepted, refused⟩ := verdicts
  exact ⟨tree, simplified, prepared, accepted, refused,
    accepted_source_reports_only_induced prepared accepted⟩

def assignsTruth : String := "program p; var b: boolean; begin b := 1 = 1 end."

/-- The truth that a comparison is folded to has a tag that no variable accepts. -/
theorem assignsTruth_refused_when_simplified :
    ∃ tree simplified, Prepared assignsTruth tree simplified ∧ verdict? tree = some true ∧
      verdict? simplified = some false := exists_verdicts (by decide +kernel)

/-- What is in error is taken away with its branch. -/
example : ∃ tree simplified,
    Prepared "program p; begin if 1 = 2 then y := 1 end." tree simplified ∧
      verdict? tree = some false ∧ verdict? simplified = some true :=
  exists_verdicts (by decide +kernel)

end PascalStack.Analysis
