import PascalStack.Proofs.Code.Pairing.Programs
import PascalStack.Proofs.Syntax.Sources

/-!
# The code of supplied programs

A program is served where its events are supplied: the generator writes all of its code, and
otherwise it stops with a fault.
-/

namespace PascalStack.Code

open Generating Syntax

variable {x y : String}

theorem suits_outer : Suits x y .outer {} :=
  ⟨Respelling.modest_default, fun _ => rfl, fun _ => rfl, fun _ => Iff.rfl, fun _ => rfl⟩

theorem spares_outer (f : String) : Spares {} f := fun _ => Iff.rfl

theorem knows_start (file : String) : Knows {} { file := file } :=
  ⟨Dictionary.keyed_nil, Dictionary.keyed_nil, fun _ => rfl⟩

theorem serves_program (p : Program) :
    Serves (Before ⟨p.block.hasRoutines, false, none⟩ p.block) (generateProgram p.tree) p.events
      (fun _ => True) fun g => g.hasFunction = p.block.hasRoutines := by
  have block := coupled_block (suits_outer : Suits "" "" .outer {}) p.block
    ⟨p.block.hasRoutines, false, none⟩ nofun fun f _ => spares_outer f
  have whole := (coupled_program p (p.respell {}) block).serves
  rw [map_snd_events] at whole
  exact whole.imp fun _ _ => trivial

theorem generateProgram_iff_supplied (p : Program) {path : String} {g : Generator}
    (new : Generator.new path = .ok g) :
    (∃ g', (generateProgram p.tree).run g = .ok () g') ↔ Supplied p.events := by
  obtain ⟨file, rfl⟩ := eq_of_new new
  have before : Before ⟨p.block.hasRoutines, false, none⟩ p.block { file := file } :=
    ⟨rfl, Bool.false_or _, rfl⟩
  have served := serves_program p {} { file := file } (knows_start file) before
  constructor
  · rintro ⟨g', run⟩
    by_contra unsupplied
    obtain ⟨f, g'', stopped⟩ := served.2 unsupplied
    cases run.symm.trans stopped
  · intro supplied
    obtain ⟨_, g', run, -⟩ := served.1 supplied
    exact ⟨g', run⟩

/-- The code of a source text that is prepared is written to its end just if its simplified program
is supplied, whatever the analysis says of it. -/
theorem source_code_complete_iff_supplied {text path : String} {tree simplified : Tree}
    {g : Generator} (prepared : Prepared text tree simplified)
    (new : Generator.new path = .ok g) :
    ∃ p : Program, p.tree = simplified ∧
      ((∃ g', (generateProgram simplified).run g = .ok () g') ↔ Supplied p.events) := by
  obtain ⟨_, p, -, rfl, -⟩ := prepared.programs
  exact ⟨p, rfl, generateProgram_iff_supplied p new⟩

def loopToVariable : String :=
  "program p; var i, n: integer; begin n := 3; for i := 1 to n do writeln(i) end."

theorem exists_new_loop : ∃ g, Generator.new "loop.pas" = .ok g := by
  have fits : (Generator.new "loop.pas").isOk = true := by decide +kernel
  cases new : Generator.new "loop.pas" with
  | ok g => exact ⟨g, rfl⟩
  | error f =>
    rw [new] at fits
    cases fits

theorem loopToVariable_code_complete_iff :
    ∃ tree simplified g, Prepared loopToVariable tree simplified ∧
      Generator.new "loop.pas" = .ok g ∧ ∃ p : Program, p.tree = simplified ∧
        ((∃ g', (generateProgram simplified).run g = .ok () g') ↔ Supplied p.events) := by
  have found : (prepare? loopToVariable).isSome = true := by decide +kernel
  obtain ⟨⟨tree, simplified⟩, found⟩ := Option.isSome_iff_exists.mp found
  obtain ⟨g, new⟩ := exists_new_loop
  have prepared := prepared_of_prepare? found
  exact ⟨tree, simplified, g, prepared, new, source_code_complete_iff_supplied prepared new⟩

def loopToSum : String :=
  "program p; var i, n: integer; begin n := 3; for i := 1 to n + 1 do writeln(i) end."

/-- A loop that counts to a sum is accepted, and its code is not written to the end. -/
theorem loopToSum_accepted_without_code :
    ∃ tree simplified g f g', Prepared loopToSum tree simplified ∧
      verdict? simplified = some true ∧ Generator.new "loop.pas" = .ok g ∧
      (generateProgram simplified).run g = .error f g' := by
  have found : ((prepare? loopToSum).any fun entry =>
      verdict? entry.2 == some true && writes? "loop.pas" entry.2 == some false) = true := by
    decide +kernel
  obtain ⟨tree, simplified, prepared, holds⟩ := exists_prepared found
  obtain ⟨accepted, stopped⟩ := Bool.and_eq_true_iff.mp holds
  obtain ⟨g, f, g', new, run⟩ := stopped_of_writes? (beq_iff_eq.mp stopped)
  exact ⟨tree, simplified, g, f, g', prepared, beq_iff_eq.mp accepted, new, run⟩

end PascalStack.Code
