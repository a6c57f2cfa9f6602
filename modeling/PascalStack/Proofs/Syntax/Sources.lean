import PascalStack.Analysis.Check
import PascalStack.Proofs.Syntax.Parsed
import PascalStack.Proofs.Syntax.Simplified

/-!
# Source texts and their trees

A source text that is prepared has a tree, and a simplified tree that the analysis and the generator
go on with. Both are trees of programs, and the second program is what the first becomes.
-/

namespace PascalStack.Syntax

open Simplify

def parsed? (text : String) : Option Tree :=
  match (Pascal.parse 1 text).tree with
  | .error _ | .ok .none => none
  | .ok tree => some tree

variable {text : String} {tree simplified : Tree}

theorem exists_parsed {holds : Tree → Bool} (h : (parsed? text).any holds = true) :
    ∃ tree, (Pascal.parse 1 text).tree = .ok tree ∧ tree ≠ .none ∧ holds tree = true := by
  obtain ⟨tree, found, holds⟩ := (Option.any_eq_true _ _).mp h
  unfold parsed? at found
  split at found
  · cases found
  · cases found
  · rename_i present parsed
    cases found
    exact ⟨tree, parsed, present, holds⟩

/-- A tree that a parse returns is that of a program as it is written. -/
theorem parsed_tree_wellFormed {line : Nat} {text : String} {tree : Tree}
    (parsed : (Pascal.parse line text).tree = .ok tree) (present : tree ≠ .none) :
    ∃ p : Program, p.WellFormed ∧ p.tree = tree := by
  obtain ⟨tokens, evaluates, plain⟩ := evaluates_of_parsed parsed present
  obtain _ | ⟨stands, _⟩ := stands_of_evaluates evaluates plain
  exact stands

def strayThenProgram : String :=
  "x PROGRAM p; VAR a: ARRAY[1..9] OF Real; " ++
    "begin FOR a[1] := 1 DOWNTO 3 do writeln('ok', NOT true); end."

theorem strayThenProgram_wellFormed :
    ∃ tree, (Pascal.parse 1 strayThenProgram).tree = .ok tree ∧ tree ≠ .none ∧
      ∃ p : Program, p.WellFormed ∧ p.tree = tree := by
  have found : ((parsed? strayThenProgram).any fun _ => true) = true := by decide +kernel
  obtain ⟨tree, parsed, present, -⟩ := exists_parsed found
  exact ⟨tree, parsed, present, parsed_tree_wellFormed parsed present⟩

def branchInBranch : String :=
  "program p; function f(a: real): real; begin end; " ++
    "begin if a then if b then x := 1 else y := 2 * z; end."

/-- Whether a parse prints nothing and finds a program that starts with a conditional in the then
branch of a conditional, with the `else` in the inner one. -/
def hasInnerElse : Pascal.Parse → Bool
  | ⟨.ok (.program _ (.block _ _ (.statementPart (.statementSequence
      (.ifStatement _ (.ifStatement _ _ (.assignment ..)) .none :: _))) _)), _, out⟩ => out == ""
  | _ => false

theorem branchInBranch_parsed :
    ∃ header declarations routines extra more outer inner target value right,
      (Pascal.parse 1 branchInBranch).tree =
          .ok (.program header (.block declarations routines (.statementPart (.statementSequence
            (.ifStatement outer (.ifStatement inner target (.assignment value right)) .none ::
              more))) extra)) ∧
        (Pascal.parse 1 branchInBranch).out = "" := by
  have found : hasInnerElse (Pascal.parse 1 branchInBranch) = true := by decide +kernel
  generalize Pascal.parse 1 branchInBranch = p at found ⊢
  unfold hasInnerElse at found
  split at found
  · exact ⟨_, _, _, _, _, _, _, _, _, _, rfl, beq_iff_eq.mp found⟩
  · cases found

/-- A text with its tree and what simplification makes of it. -/
structure Prepared (text : String) (tree simplified : Tree) : Prop where
  parsed : (Pascal.parse 1 text).tree = .ok tree
  present : tree ≠ .none
  simplified : ∃ printed printed', simplify tree printed = .ok simplified printed'

theorem Prepared.programs (h : Prepared text tree simplified) :
    ∃ p q : Program, p.tree = tree ∧ q.tree = simplified ∧ p.Becomes q := by
  obtain ⟨p, rfl⟩ := exists_program_of_parsed h.parsed h.present
  obtain ⟨printed, printed', given⟩ := h.simplified
  obtain ⟨q, rfl, becomes, -⟩ := simplify_program p printed simplified printed' given
  exact ⟨p, q, rfl, rfl, becomes⟩

def prepare? (text : String) : Option (Tree × Tree) :=
  match (Pascal.parse 1 text).tree with
  | .error _ | .ok .none => none
  | .ok tree =>
    match simplify tree "" with
    | .ok simplified _ => some (tree, simplified)
    | .error .. => none

theorem prepared_of_prepare? (h : prepare? text = some (tree, simplified)) :
    Prepared text tree simplified := by
  unfold prepare? at h
  split at h
  · cases h
  · cases h
  · rename_i present parsed
    split at h
    · rename_i printed' given
      cases h
      exact ⟨parsed, present, "", printed', given⟩
    · cases h

theorem exists_prepared {holds : Tree × Tree → Bool} (h : (prepare? text).any holds = true) :
    ∃ tree simplified, Prepared text tree simplified ∧ holds (tree, simplified) = true := by
  obtain ⟨⟨tree, simplified⟩, found, holds⟩ := (Option.any_eq_true _ _).mp h
  exact ⟨tree, simplified, prepared_of_prepare? found, holds⟩

/-- What the analysis of a tree says, by an analyzer that knows nothing; nothing, if a fault ends
it. -/
def verdict? (t : Tree) : Option Bool :=
  match (Analysis.analyze t).run {} with
  | .ok accepted _ => some accepted
  | .error .. => none

theorem exists_verdicts {text : String} {written simple : Bool}
    (h : ((prepare? text).any fun (tree, simplified) =>
      verdict? tree == some written && verdict? simplified == some simple) = true) :
    ∃ tree simplified, Prepared text tree simplified ∧ verdict? tree = some written ∧
      verdict? simplified = some simple := by
  obtain ⟨tree, simplified, prepared, verdicts⟩ := exists_prepared h
  simp only [Bool.and_eq_true, beq_iff_eq] at verdicts
  exact ⟨tree, simplified, prepared, verdicts⟩

end PascalStack.Syntax
