import PascalStack.Compiler
import PascalStack.Proofs.Code.Supply.Programs

/-!
# Renaming in a routine

A routine stands somewhere in a program, and a name is replaced in it. The code stays the same if
neither the routine nor the code around it finds under that name a cell or a type that the other
one gave it. Parameters have no cells of their own, so the code of a function that only reads its
parameter is about the cell that the program gave to a variable of the same name.
-/

namespace PascalStack.Syntax

mutual

/-- A block with a gap in the place of one of its routines, at any depth. -/
inductive Place where
  | make (declarations : List Declaration) (before : List Routine) (gap : Gap)
      (after : List Routine) (body : List Statement) (extra : Option (List Declaration))

inductive Gap where
  | here
  | procedure (name : String) (parameters : List Parameter) (place : Place)
  | function (name : Option String) (result : TypeForm) (parameters : List Parameter)
      (place : Place)

end

mutual

def Place.fill (r : Routine) : Place → Block
  | .make declarations before gap after body extra =>
    .make declarations (before ++ gap.fill r :: after) body extra

def Gap.fill (r : Routine) : Gap → Routine
  | .here => r
  | .procedure name parameters place => .procedure name parameters (place.fill r)
  | .function name result parameters place => .function name result parameters (place.fill r)

end

mutual

def Place.events (r : Routine) (s : Site) : Place → List (Side × Event)
  | .make declarations before gap after body extra =>
    Side.outer.events (sectionEvents declarations ++ (sectionEvents (extra.getD []) ++
        Statement.eventsAll s body)) ++
      (Side.outer.events (Routine.eventsAll before) ++
        (gap.events r ++ Side.outer.events (Routine.eventsAll after)))

def Gap.events (r : Routine) : Gap → List (Side × Event)
  | .here => Side.inner.events r.events
  | .procedure .. => []
  | .function name _ _ place => place.events r ⟨true, true, name⟩

end

theorem eventsAll_append (rs rs' : List Routine) :
    Routine.eventsAll (rs ++ rs') = Routine.eventsAll rs ++ Routine.eventsAll rs' := by
  induction rs with
  | nil => rfl
  | cons r rest ih => simp only [List.cons_append, Routine.eventsAll, ih, List.append_assoc]

mutual

theorem Place.map_snd_events (r : Routine) (s : Site) (place : Place) :
    (place.events r s).map Prod.snd = (place.fill r).events s := by
  match place with
  | .make declarations before gap after body extra =>
    simp only [Place.events, Place.fill, Block.events, List.map_append, Syntax.map_snd_events,
      Gap.map_snd_events r gap, eventsAll_append, Routine.eventsAll, List.append_assoc]

theorem Gap.map_snd_events (r : Routine) (gap : Gap) :
    (gap.events r).map Prod.snd = (gap.fill r).events := by
  match gap with
  | .here => exact Syntax.map_snd_events _ _
  | .procedure name parameters place => rfl
  | .function name result parameters place => exact Place.map_snd_events r _ place

end

structure Setting where
  name : String
  place : Place

def Setting.program (c : Setting) (r : Routine) : Program := ⟨c.name, c.place.fill r⟩

def Setting.events (c : Setting) (r : Routine) : List (Side × Event) :=
  c.place.events r ⟨(c.place.fill r).hasRoutines, false, none⟩

def replacing (x y : String) : Respelling := { name := Side.inner.name x y }

def Routine.rename (x y : String) (r : Routine) : Routine := r.respell (replacing x y)

end PascalStack.Syntax

namespace PascalStack.Code

open Generating Syntax

variable {x y : String}

theorem suits_replacing : Suits x y .inner (replacing x y) :=
  ⟨⟨rfl, rfl⟩, fun _ => rfl, fun _ => rfl, fun _ => Iff.rfl, fun _ => rfl⟩

theorem spares_replacing {f : String} (old : f ≠ x) (new : f ≠ y) : Spares (replacing x y) f := by
  intro z
  by_cases named : z = x
  · subst named
    simp only [replacing, Side.name, if_true]
    exact ⟨fun equal => absurd equal.symm new, fun equal => absurd equal.symm old⟩
  · rw [suits_replacing.name, Side.name_of_ne _ named]

theorem coupled_unchanged (rs : List Routine) :
    Joint x y InRoutines (generateAll andNothing (Routine.trees rs))
      (generateAll andNothing (Routine.trees rs)) (Side.outer.events (Routine.eventsAll rs))
      InRoutines := by
  have same : Routine.trees (Routine.respellAll {} rs) = Routine.trees rs := by
    rw [← Routine.respellAll_trees Respelling.modest_default, Tree.respellAll_default]
  have coupled := coupled_routines (x := x) (y := y) suits_outer rs fun f _ => spares_outer f
  rwa [same] at coupled

theorem trees_append (rs rs' : List Routine) :
    Routine.trees (rs ++ rs') = Routine.trees rs ++ Routine.trees rs' := by
  induction rs with
  | nil => rfl
  | cons r rest ih => simp only [List.cons_append, Routine.trees, ih]

mutual

theorem coupled_place {r : Routine} (apart : ∀ f ∈ r.functions, f ≠ x ∧ f ≠ y) (place : Place)
    (s : Site) :
    Joint x y (Before s (place.fill r)) (generate (place.fill r).tree)
      (generate (place.fill (r.rename x y)).tree) (place.events r s)
      fun g => g.hasFunction = s.routines := by
  match place with
  | .make declarations before gap after body extra =>
    have inside : Joint x y InRoutines
        (generateAll andNothing (Routine.trees (before ++ gap.fill r :: after)))
        (generateAll andNothing (Routine.trees (before ++ gap.fill (r.rename x y) :: after)))
        (Side.outer.events (Routine.eventsAll before) ++
          (gap.events r ++ Side.outer.events (Routine.eventsAll after))) InRoutines := by
      simp only [trees_append, generateAll_append, Routine.trees, generateAll]
      exact Coupled.bind (coupled_unchanged before) fun _ _ _ =>
        Coupled.bind (coupled_gap apart gap) fun _ _ _ => coupled_unchanged after
    have empty : (before ++ gap.fill (r.rename x y) :: after).isEmpty =
        (before ++ gap.fill r :: after).isEmpty := by
      cases before <;> rfl
    have whole := coupled_make (s := s) suits_outer (fun f _ => spares_outer f) declarations body
      extra empty (by simp) inside
    have same : (Block.make (respellSection {} declarations)
        (before ++ gap.fill (r.rename x y) :: after) (Statement.respellAll {} body)
        (extra.map (respellSection {}))).tree =
        (Block.make declarations (before ++ gap.fill (r.rename x y) :: after) body extra).tree := by
      have modest := Respelling.modest_default
      simp only [Block.tree, ← respell_sectionTree modest, ← respell_extraTree modest, bodyTree,
        ← Statement.respellAll_trees modest, Tree.respell_default, Tree.respellAll_default]
    rw [same] at whole
    exact whole

theorem coupled_gap {r : Routine} (apart : ∀ f ∈ r.functions, f ≠ x ∧ f ≠ y) (gap : Gap) :
    Joint x y InRoutines (generate (gap.fill r).tree) (generate (gap.fill (r.rename x y)).tree)
      (gap.events r) InRoutines := by
  match gap with
  | .here =>
    exact coupled_routine suits_replacing r fun f member =>
      spares_replacing (apart f member).1 (apart f member).2
  | .procedure name parameters place => exact coupled_procedure _ _ _ _ _ _
  | .function name result parameters place =>
    exact coupled_function (coupled_place apart place ⟨true, true, name⟩)

end

/-- The code of a program stays the same when a name is replaced in one of its routines by a name
that is new to the code, if the routine has no function of either name, and if no code inside or
outside of the routine meets under the old name what comes from the other side. -/
theorem renamed_routine_same_code (c : Setting) (r : Routine) {path : String} {g g' : Generator}
    (apart : ∀ f ∈ r.functions, f ≠ x ∧ f ≠ y) (clear : ClearFrom x {} (c.events r))
    (fresh : ∀ e ∈ (c.program r).events, y ∉ e.names) (new : Generator.new path = .ok g)
    (run : (generateProgram (c.program r).tree).run g = .ok () g') :
    ∃ h', (generateProgram (c.program (r.rename x y)).tree).run g = .ok () h' ∧
      h'.path = g'.path ∧ Compiler.codeText h' = Compiler.codeText g' := by
  obtain ⟨file, rfl⟩ := eq_of_new new
  have undisturbed : Undisturbed x y {} (c.events r) := by
    refine .inr ⟨clear, fun e member => fresh e.2 ?_⟩
    rw [Program.events, Setting.program, ← Place.map_snd_events]
    exact List.mem_map_of_mem member
  have paired := (coupled_program (c.program r) (c.program (r.rename x y))
    (coupled_place apart c.place _)).paired
  have start : Before ⟨(c.program r).block.hasRoutines, false, none⟩ (c.program r).block
      { file := file } := ⟨rfl, Bool.false_or _, rfl⟩
  have ends := paired {} undisturbed { file := file } { file := file } ⟨start, together_start file⟩
  rw [run] at ends
  rcases ends.cases with ⟨_, _, _, h', same, run', -, -, t⟩ | ⟨_, _, _, _, same, _⟩
  · cases same
    refine ⟨h', run', ?_⟩
    cases t
    exact ⟨rfl, rfl⟩
  · cases same

def callsFunction : Setting where
  name := "p"
  place := .make [⟨[.name "n"], .word "integer"⟩] [] .here []
    [.assign ⟨.name "n", .literal (.integer 3)⟩, .assign ⟨.name "n", .call "f" [.name "n"]⟩] none

def givesTwo : Routine :=
  .function (some "f") (.word "integer") [⟨"n", .word "integer"⟩]
    (.make [] [] [.assign ⟨.name "n", .literal (.integer 2)⟩, .assign ⟨.name "f", .name "n"⟩] none)

theorem givesTwo_renamed_same_code :
    ∃ g g', Generator.new "loop.pas" = .ok g ∧
      (generateProgram (callsFunction.program givesTwo).tree).run g = .ok () g' ∧
      ∃ h', (generateProgram (callsFunction.program (givesTwo.rename "n" "m")).tree).run g =
          .ok () h' ∧
        h'.path = g'.path ∧ Compiler.codeText h' = Compiler.codeText g' := by
  obtain ⟨g, new⟩ := exists_new_loop
  have supplied : Supplied (callsFunction.program givesTwo).events := by decide +kernel
  obtain ⟨g', run⟩ := (generateProgram_iff_supplied _ new).mpr supplied
  refine ⟨g, g', new, run, ?_⟩
  exact renamed_routine_same_code callsFunction givesTwo (by decide +kernel) (by decide +kernel)
    (by decide +kernel) new run

def addsOne : Routine :=
  .function (some "f") (.word "integer") [⟨"n", .word "integer"⟩]
    (.make [] [] [.assign ⟨.name "f", .operation (.name "n") "+" (.literal (.integer 1))⟩] none)

/-- A function that reads its parameter reads the variable of the program with the name of the
parameter. Both the program and the one with another name for the parameter are accepted, and only
the first one has code. -/
theorem addsOne_renamed_without_code :
    verdict? (callsFunction.program addsOne).tree = some true ∧
      verdict? (callsFunction.program (addsOne.rename "n" "m")).tree = some true ∧
      ∃ g g' f h', Generator.new "loop.pas" = .ok g ∧
        (generateProgram (callsFunction.program addsOne).tree).run g = .ok () g' ∧
        (generateProgram (callsFunction.program (addsOne.rename "n" "m")).tree).run g =
          .error f h' := by
  refine ⟨by decide +kernel, by decide +kernel, ?_⟩
  obtain ⟨g, new⟩ := exists_new_loop
  have supplied : Supplied (callsFunction.program addsOne).events := by decide +kernel
  have missing : ¬ Supplied (callsFunction.program (addsOne.rename "n" "m")).events := by
    decide +kernel
  obtain ⟨g', run⟩ := (generateProgram_iff_supplied _ new).mpr supplied
  cases renamed : (generateProgram (callsFunction.program (addsOne.rename "n" "m")).tree).run g with
  | ok _ h' => exact absurd ((generateProgram_iff_supplied _ new).mp ⟨h', renamed⟩) missing
  | error f h' => exact ⟨g, g', f, h', new, run, renamed⟩

end PascalStack.Code
