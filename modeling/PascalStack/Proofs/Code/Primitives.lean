import PascalStack.Code.Emission
import PascalStack.Proofs.Runs

/-!
# How the primitives of the generator run

One equation for each primitive: what it gives and the generator after it, or its fault. Proofs
about the code of trees go through these and do not open the primitives.
-/

namespace PascalStack.Code.Generating

variable {α β : Type} {g : Generator} {name : Tree} {code : List Instruction} {text : String}
  {f : Fault}

theorem run_discard (m : Generating α) (g : Generator) :
    (discard m).run g = match m.run g with
      | .ok _ g' => .ok () g'
      | .error f g' => .error f g' := by
  simp only [Functor.discard, Functor.mapConst, Function.comp, EStateM.map, EStateM.run]
  cases m g <;> rfl

theorem discard_eq (m : Generating α) : discard m = m >>= fun _ => pure () := by
  funext g
  simp only [Functor.discard, Functor.mapConst, Function.comp, bind, EStateM.bind, EStateM.map]
  cases m g <;> rfl

theorem run_ofExcept_ok (a : α) (g : Generator) :
    (ofExcept (.ok a : Except Fault α) : Generating α).run g = .ok a g := rfl

theorem run_ofExcept_error (f : Fault) (g : Generator) :
    (ofExcept (.error f : Except Fault α) : Generating α).run g = .error f g := rfl

theorem run_line (text : String) (g : Generator) :
    (line text).run g = .ok () { g with out := g.out ++ text ++ "\n" } := rfl

theorem run_emit_ok (rendered : render code = .ok text) (g : Generator) :
    (emit code).run g = .ok () { g with code := g.code ++ code } := by
  simp only [emit, rendered]
  rfl

theorem run_emit_error (rendered : render code = .error f) (g : Generator) :
    (emit code).run g = .error f g := by
  simp only [emit, rendered]
  rfl

theorem run_globalCell_ok {n : Nat} (found : g.globals.get name = .ok n) :
    (globalCell name).run g = .ok (.program n) g := by
  simp only [globalCell, EStateM.run_bind, EStateM.run_get, found, run_ofExcept_ok]
  rfl

theorem run_globalCell_error (missing : g.globals.get name = .error f) :
    (globalCell name).run g = .error f g := by
  simp only [globalCell, EStateM.run_bind, EStateM.run_get, missing, run_ofExcept_error]

theorem run_localCell_ok {n : Nat} (found : g.locals.get name = .ok n) :
    (localCell name).run g = .ok (.routine n) g := by
  simp only [localCell, EStateM.run_bind, EStateM.run_get, found, run_ofExcept_ok]
  rfl

theorem run_localCell_error (missing : g.locals.get name = .error f) :
    (localCell name).run g = .error f g := by
  simp only [localCell, EStateM.run_bind, EStateM.run_get, missing, run_ofExcept_error]

end PascalStack.Code.Generating

namespace PascalStack.Code

theorem generateAll_append (after : Tree → Tree → Generating Unit) (ts ts' : List Tree) :
    generateAll after (ts ++ ts') = (do
      generateAll after ts
      generateAll after ts') := by
  induction ts with
  | nil => rw [List.nil_append, generateAll, pure_bind]
  | cons t rest ih => simp only [List.cons_append, generateAll, ih, bind_assoc]

theorem eq_of_new {path : String} {g : Generator} (new : Generator.new path = .ok g) :
    ∃ file, g = { file := file } := by
  simp only [Generator.new] at new
  split at new
  · cases new
  · split at new
    · cases new
    · exact ⟨_, (Except.ok.inj new).symm⟩

end PascalStack.Code
