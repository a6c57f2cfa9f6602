import PascalStack.Compiler
import PascalStack.Proofs.Code.OwnCode
import PascalStack.Proofs.Code.Supply.Programs

/-!
# How the code of functions ends

The code of a function goes from its label to the `stop` that closes its block. If the last thing a
function does is to give its result the value of a variable, the code before that `stop` loads the
variable and returns. A value that is no variable is stored instead, and the function runs into the
`stop`.
-/

namespace PascalStack.Syntax

open Code Code.Generating

structure FunctionVisit where
  name : Option String
  result : TypeForm
  parameters : List Parameter
  block : Block
  before : Generator

mutual

def Block.functionVisits : Block → Generator → List FunctionVisit
  | .make declarations routines body extra, g =>
    Routine.functionVisitsAll routines (Code.after (do
      openBlock declarations routines extra
      discard (generate (bodyTree body))
      closeBody) g)

def Routine.functionVisits : Routine → Generator → List FunctionVisit
  | .procedure .., _ => []
  | .function name result parameters block, g =>
    ⟨name, result, parameters, block, g⟩ ::
      block.functionVisits (Code.after (openFunction name result parameters) g)

def Routine.functionVisitsAll : List Routine → Generator → List FunctionVisit
  | [], _ => []
  | r :: rest, g =>
    r.functionVisits g ++ Routine.functionVisitsAll rest (Code.after (generate r.tree) g)

end

def Block.body : Block → List Statement
  | .make _ _ body _ => body

def Block.open : Block → Generating Unit
  | .make declarations routines body extra => do
    openBlock declarations routines extra
    discard (generate (bodyTree body))

def FunctionVisit.code (v : FunctionVisit) : Generating Unit := do
  openFunction v.name v.result v.parameters
  v.block.open

def FunctionVisit.closing (v : FunctionVisit) : Generator := Code.after v.code v.before

def FunctionVisit.reaching (v : FunctionVisit) (items : List Statement) : Generator :=
  match v.block with
  | .make declarations routines _ extra => Code.after (do
      openFunction v.name v.result v.parameters
      openBlock declarations routines extra
      generateAll andNothing (Statement.trees items)) v.before

/-- A visit in a run that ends with `g'`: the code of the function is written up to its `stop`, which
is written next. -/
structure FunctionVisit.Within (v : FunctionVisit) (g' : Generator) : Prop where
  known : ∃ k, Knows k v.before
  routines : InRoutines v.before
  returns : v.code.run v.before = .ok () v.closing
  stops : v.closing.code ++ [.stop] <+: g'.code

theorem FunctionVisit.Within.widen {v : FunctionVisit} {g h : Generator} (within : v.Within g)
    (later : g.code <+: h.code) : v.Within h :=
  ⟨within.known, within.routines, within.returns, within.stops.trans later⟩

end PascalStack.Syntax

namespace PascalStack.Code

open Generating Syntax

variable {s : Site} {g g' : Generator}

variable {y path f : String} {u : Unit} {rest : List Statement}

theorem Coupled.ends {α β : Type} {x : String} {A B : Generator → Prop} {m : Generating α}
    {m' : Generating β} {es : List (Side × Event)} {V : α → β → Prop} {a : α}
    (h : Coupled x y A m m' es V B) (known : ∃ k, Knows k g) (holds : A g)
    (run : m.run g = .ok a g') : (∃ k, Knows k g') ∧ B g' := by
  obtain ⟨k, knows⟩ := known
  by_cases supplied : SuppliedFrom k (es.map Prod.snd)
  · obtain ⟨a', h', run', -, knows', holds'⟩ := (h.serves k g knows holds).1 supplied
    cases run.symm.trans run'
    exact ⟨⟨_, knows'⟩, holds'⟩
  · obtain ⟨f, h', run'⟩ := (h.serves k g knows holds).2 supplied
    cases run.symm.trans run'

-- Where the generator is does not depend on names, so each computation is coupled with itself.
theorem suits_same : Suits "" "" .outer {} := suits_outer

theorem opens_function (name : Option String) (result : TypeForm) (parameters : List Parameter)
    (b : Block) :
    Joint "" "" InRoutines (openFunction name result parameters)
      (openFunction name result parameters) [] (Before ⟨true, true, name⟩ b) :=
  coupled_openFunction name result result parameters parameters b

theorem run_closeBody (site : At s g) (run : closeBody.run g = .ok u g')
    (routines : s.routines = true) : g'.code = g.code ++ [.stop] := by
  simp only [closeBody, EStateM.run_bind, EStateM.run_get, site.routines, routines, if_true] at run
  exact congrArg Generator.code (run_emit_eq run)

mutual

theorem within_block (b : Block) {s : Site} {g g' : Generator} {t : Tree}
    (known : ∃ k, Knows k g) (before : Before s b g) (run : (generate b.tree).run g = .ok t g') :
    (∀ v ∈ b.functionVisits g, v.Within g') ∧
      (s.routines = true → (after b.open g).code ++ [.stop] <+: g'.code ∧
        b.open.run g = .ok () (after b.open g)) := by
  match b with
  | .make declarations routines body extra =>
    rw [generate_block] at run
    obtain ⟨_, g₁, opened, run⟩ := run_bind_ok run
    obtain ⟨_, g₂, inBody, run⟩ := run_bind_ok run
    obtain ⟨_, g₃, closed, run⟩ := run_bind_ok run
    obtain ⟨_, _, inRoutines, done⟩ := run_bind_ok run
    cases done
    obtain ⟨known₁, site₁⟩ := (coupled_openBlock suits_same declarations body extra rfl).ends known
      before opened
    obtain ⟨known₂, site₂⟩ := (coupled_statement suits_same (fun f _ => spares_outer f)
      (.compound body)).discard.ends
      known₁ site₁ inBody
    obtain ⟨known₃, site₃⟩ := (coupled_closeBody (x := "") (y := "")).ends known₂ site₂ closed
    have whole : (Block.make declarations routines body extra).open.run g = .ok () g₂ :=
      run_seq opened inBody
    have later : g₃.code <+: g'.code :=
      (stable_grows.generateAll stable_grows.andNothing _).stays inRoutines
    constructor
    · intro v member
      rw [Block.functionVisits, after_eq (run_seq opened (run_seq inBody closed))] at member
      cases routines with
      | nil => cases member
      | cons r rest =>
        have has : InRoutines g₃ := by
          rw [InRoutines, site₃.routines, ← before.routines]
          exact Bool.or_true _
        exact within_routines (r :: rest) known₃ has inRoutines v member
    · intro has
      rw [after_eq whole]
      exact ⟨run_closeBody site₂ closed has ▸ later, whole⟩

theorem within_routine (r : Routine) {g g' : Generator} {t : Tree} (known : ∃ k, Knows k g)
    (has : InRoutines g) (run : (generate r.tree).run g = .ok t g') :
    ∀ v ∈ r.functionVisits g, v.Within g' := by
  match r with
  | .procedure .. =>
    intro v member
    cases member
  | .function name result parameters block =>
    rw [Routine.tree, generate] at run
    obtain ⟨_, g₁, heading, run⟩ := run_bind_ok run
    obtain ⟨_, g₂, entered, run⟩ := run_bind_ok run
    obtain ⟨_, g₃, inside, run⟩ := run_bind_ok run
    obtain ⟨_, inside⟩ := run_discard_ok inside
    have opened : (openFunction name result parameters).run g = .ok () g₂ := run_seq heading entered
    obtain ⟨known₂, before⟩ := (opens_function name result parameters block).ends known has opened
    obtain ⟨within, stops⟩ := within_block block known₂ before inside
    obtain ⟨stops, written⟩ := stops rfl
    cases run
    have whole : (FunctionVisit.mk name result parameters block g).code.run g =
        .ok () (after block.open g₂) := run_seq opened written
    intro v member
    rw [Routine.functionVisits, after_eq opened] at member
    rcases List.mem_cons.mp member with rfl | member
    · have closing : FunctionVisit.closing ⟨name, result, parameters, block, g⟩ =
          after block.open g₂ := after_eq whole
      exact ⟨known, has, closing ▸ whole, closing ▸ stops⟩
    · exact (within v member).widen List.prefix_rfl

theorem within_routines (rs : List Routine) {g g' : Generator} (known : ∃ k, Knows k g)
    (has : InRoutines g)
    (run : (generateAll andNothing (Routine.trees rs)).run g = .ok () g') :
    ∀ v ∈ Routine.functionVisitsAll rs g, v.Within g' := by
  match rs with
  | [] =>
    intro v member
    cases member
  | r :: rest =>
    rw [Routine.trees, generateAll] at run
    obtain ⟨_, g₁, first, run⟩ := run_bind_ok run
    obtain ⟨_, _, nothing, run⟩ := run_bind_ok run
    cases nothing
    obtain ⟨known₁, has₁⟩ := (coupled_routine suits_same r fun f _ => spares_outer f).ends known has
      first
    intro v member
    rw [Routine.functionVisitsAll, List.mem_append, after_eq first] at member
    rcases member with member | member
    · exact (within_routine r known has first v member).widen
        ((stable_grows.generateAll stable_grows.andNothing _).stays run)
    · exact within_routines rest known₁ has₁ run v member

end

theorem within_program (p : Program) (new : Generator.new path = .ok g)
    (run : (generateProgram p.tree).run g = .ok () g') :
    ∀ v ∈ p.block.functionVisits g, v.Within g' := by
  obtain ⟨file, rfl⟩ := eq_of_new new
  obtain ⟨_, g₁, inBlock, same⟩ := run_program_ok run
  have before : Before ⟨p.block.hasRoutines, false, none⟩ p.block { file := file } :=
    ⟨rfl, Bool.false_or _, rfl⟩
  intro v member
  exact ((within_block p.block ⟨_, knows_start file⟩ before inBlock).1 v member).widen
    (same ▸ List.prefix_rfl)

/-! ## The end of a function -/

theorem silent_absent (none : ∀ s ∈ rest, s.isPresent = false) :
    Silent (generateAll andNothing (Statement.trees rest)) := by
  induction rest with
  | nil => exact silent_pure _
  | cons s rest ih =>
    rw [List.forall_mem_cons] at none
    have nothing : Silent (generate s.tree) := by
      cases s with
      | empty => exact stable_silent.warn _
      | absent => exact silent_pure _
      | _ => cases none.1
    exact nothing.bind fun _ => (silent_pure _).bind fun _ => ih none.2

theorem run_openFunction {name : Option String} {result : TypeForm} {parameters : List Parameter}
    (run : (openFunction name result parameters).run g = .ok u g') :
    g'.code = g.code ++ [.label (.routine (nameTree name)), .start] := by
  have parameters' : whenPresent (.list (parameters.map Parameter.tree))
      (generateItems andNothing (.list (parameters.map Parameter.tree))) = pure () := by
    rw [whenPresent, generateItems, generate_parameters, ite_self]
  rw [openFunction, generate, parameters'] at run
  obtain ⟨_, g₁, heading, entered⟩ := run_bind_ok run
  obtain ⟨_, heading⟩ := run_discard_ok heading
  obtain ⟨_, g₂, named, heading⟩ := run_bind_ok heading
  obtain ⟨_, g₃, marked, heading⟩ := run_bind_ok heading
  obtain ⟨_, g₄, nothing, heading⟩ := run_bind_ok heading
  cases named
  cases nothing
  cases heading
  cases entered
  exact congrArg Generator.code (run_emit_eq marked)

theorem sourceCell_of_printed {out : String} {cell : Cell}
    (found : (sourceCell (.str y)).run { g with out := out } = .ok cell { g with out := out }) :
    (sourceCell (.str y)).run g = .ok cell g := by
  simp only [sourceCell, hasLocal, localCell, globalCell, EStateM.run_bind, EStateM.run_get]
    at found ⊢
  cases has : g.locals.has (.str y) with
  | error f =>
    rw [has] at found
    cases found
  | ok own =>
    rw [has] at found
    cases own with
    | true =>
      simp only [run_ofExcept_ok, if_true, EStateM.run_bind, EStateM.run_get] at found ⊢
      cases got : g.locals.get (.str y) <;> rw [got] at found <;> cases found
      rfl
    | false =>
      simp only [run_ofExcept_ok, Bool.false_eq_true, if_false, EStateM.run_bind,
        EStateM.run_get] at found ⊢
      cases got : g.globals.get (.str y) <;> rw [got] at found <;> cases found
      rfl

theorem statement_trees_append (items rest : List Statement) :
    Statement.trees (items ++ rest) = Statement.trees items ++ Statement.trees rest := by
  induction items with
  | nil => rfl
  | cons s items ih => simp only [List.cons_append, Statement.trees, ih]

theorem run_giveResult {t : Tree} (site : At s g) (named : s.function = some f)
    (run : (generate (Statement.assign ⟨.name f, .name y⟩).tree).run g = .ok t g') :
    ∃ cell, (sourceCell (.str y)).run g = .ok cell g ∧ g'.code = g.code ++ [.load cell, .ret] := by
  have same : Tree.same g.function (.str f) = true := by
    rw [same_function site f, named]
    exact decide_eq_true rfl
  obtain ⟨_, _, target, run⟩ := run_bind_ok run
  cases target
  obtain ⟨_, _, written, done⟩ := run_bind_ok run
  cases done
  obtain ⟨text, _, told, written⟩ := run_bind_ok written
  cases told
  obtain ⟨_, g₁, listed, written⟩ := run_bind_ok written
  cases listed
  obtain ⟨_, _, got, written⟩ := run_bind_ok written
  cases got
  rw [if_pos same] at written
  obtain ⟨cell, g₂, found, written⟩ := run_bind_ok written
  obtain ⟨_, g₃, forgot, written⟩ := run_bind_ok written
  cases forgot
  have stays := sourceCell_ok found
  subst stays
  exact ⟨cell, sourceCell_of_printed found, congrArg Generator.code (run_emit_eq written)⟩

/-- If a function ends by giving its result the value of a variable, its code, from its label to the
`stop` that closes its block, ends by loading the variable and returning. -/
theorem function_returns_variable (p : Program) {path : String} (new : Generator.new path = .ok g)
    (run : (generateProgram p.tree).run g = .ok () g') {v : FunctionVisit} {f y : String}
    {items rest : List Statement} (member : v ∈ p.block.functionVisits g) (named : v.name = some f)
    (last : v.block.body = items ++ .assign ⟨.name f, .name y⟩ :: rest)
    (none : ∀ s ∈ rest, s.isPresent = false) :
    ∃ code cell, (v.reaching items).code =
        v.before.code ++ [.label (.routine (.str f)), .start] ++ code ∧
      (sourceCell (.str y)).run (v.reaching items) = .ok cell (v.reaching items) ∧
      (v.reaching items).code ++ [.load cell, .ret, .stop] <+: g'.code := by
  obtain ⟨name, result, parameters, ⟨declarations, routines, body, extra⟩, before⟩ := v
  obtain rfl : name = some f := named
  obtain rfl : body = items ++ .assign ⟨.name f, .name y⟩ :: rest := last
  obtain ⟨known, has, returns, stops⟩ := within_program p new run _ member
  obtain ⟨_, g₁, heading, opened⟩ := run_bind_ok returns
  obtain ⟨_, g₂, opened, written⟩ := run_bind_ok opened
  obtain ⟨known₁, inside⟩ := (opens_function _ _ _ _).ends known has heading
  obtain ⟨known₂, site⟩ := (coupled_openBlock suits_same declarations
    (items ++ .assign ⟨.name f, .name y⟩ :: rest) extra rfl).ends known₁ inside opened
  obtain ⟨_, written⟩ := run_discard_ok written
  obtain ⟨_, _, written, done⟩ := run_bind_ok written
  obtain ⟨_, written⟩ := run_discard_ok written
  obtain ⟨_, _, written, done'⟩ := run_bind_ok written
  rw [statement_trees_append, generateAll_append] at written
  obtain ⟨_, g₃, first, written⟩ := run_bind_ok written
  obtain ⟨_, g₄, given, written⟩ := run_bind_ok written
  obtain ⟨_, g₅, nothing, written⟩ := run_bind_ok written
  cases nothing
  cases done
  cases done'
  obtain ⟨-, site₃⟩ := (coupled_statements suits_same (fun f _ => spares_outer f) items).ends
    known₂ site first
  obtain ⟨cell, found, code₄⟩ := run_giveResult site₃ rfl given
  obtain ⟨_, code₅, rfl⟩ := silent_absent none _ _ _ written
  obtain ⟨code, grown, -⟩ := (grows_openBlock _ _ _).bind
    (fun _ => stable_grows.generateAll stable_grows.andNothing (Statement.trees items)) _ _ _
    (run_seq opened first)
  have reached : FunctionVisit.reaching ⟨some f, result, parameters, .make declarations routines
      (items ++ .assign ⟨.name f, .name y⟩ :: rest) extra, before⟩ items = g₃ :=
    after_eq (run_seq heading (run_seq opened first))
  rw [reached]
  refine ⟨code, cell, ?_, found, ?_⟩
  · rw [grown, run_openFunction heading]
    rfl
  · rw [code₅, code₄] at stops
    simpa using stops

def withFunction (body : List Statement) : Program where
  name := "p"
  block := .make []
    [.function (some "f") (.word "integer") [⟨"n", .word "integer"⟩] (.make [] [] body none)] [] none

theorem withVariable_returns :
    ∃ (g g' : Generator) (v : FunctionVisit), Generator.new "loop.pas" = .ok g ∧
      (generateProgram (withFunction [.assign ⟨.name "n", .literal (.integer 2)⟩,
        .assign ⟨.name "f", .name "n"⟩, .empty]).tree).run g = .ok () g' ∧
      ∃ code cell, (v.reaching [.assign ⟨.name "n", .literal (.integer 2)⟩]).code =
          v.before.code ++ [.label (.routine (.str "f")), .start] ++ code ∧
        (sourceCell (.str "n")).run (v.reaching [.assign ⟨.name "n", .literal (.integer 2)⟩]) =
          .ok cell (v.reaching [.assign ⟨.name "n", .literal (.integer 2)⟩]) ∧
        (v.reaching [.assign ⟨.name "n", .literal (.integer 2)⟩]).code ++
          [.load cell, .ret, .stop] <+: g'.code := by
  obtain ⟨g, new⟩ := exists_new_loop
  have supplied : Supplied (withFunction [.assign ⟨.name "n", .literal (.integer 2)⟩,
      .assign ⟨.name "f", .name "n"⟩, .empty]).events := by decide +kernel
  obtain ⟨g', run⟩ := (generateProgram_iff_supplied _ new).mpr supplied
  have nothing : ∀ s ∈ [Statement.empty], s.isPresent = false := by decide
  exact ⟨g, g', _, new, run, function_returns_variable _ new run
    (List.mem_append_left _ List.mem_cons_self) rfl rfl nothing⟩

def withNumber : String :=
  "program p; function f(n: integer): integer; begin f := 1 end; begin end."

/-- The code that is made for a tree; nothing, if a fault ends the making. -/
def codeOf? (t : Tree) : Option String :=
  match Generator.new "loop.pas" with
  | .error _ => none
  | .ok g =>
    match (generateProgram t).run g with
    | .ok _ g' => some (Compiler.codeText g')
    | .error .. => none

theorem exists_code {t : Tree} {text : String} (h : codeOf? t = some text) :
    ∃ g g', Generator.new "loop.pas" = .ok g ∧ (generateProgram t).run g = .ok () g' ∧
      Compiler.codeText g' = text := by
  unfold codeOf? at h
  split at h
  · cases h
  · rename_i g new
    split at h
    · rename_i g' run
      exact ⟨g, g', new, run, Option.some.inj h⟩
    · cases h

/-- The program is accepted, and its function stores the number and stops. -/
theorem withNumber_stops :
    ∃ tree, (Pascal.parse 1 withNumber).tree = .ok tree ∧ tree ≠ .none ∧
      verdict? tree = some true ∧
      ∃ g g', Generator.new "loop.pas" = .ok g ∧ (generateProgram tree).run g = .ok () g' ∧
        Compiler.codeText g' = "stop\nf:\nstart\npushi 1\nstorel 0\nstop\n" := by
  have found : ((parsed? withNumber).any fun tree => verdict? tree == some true &&
      codeOf? tree == some "stop\nf:\nstart\npushi 1\nstorel 0\nstop\n") = true := by
    decide +kernel
  obtain ⟨tree, parsed, present, holds⟩ := exists_parsed found
  simp only [Bool.and_eq_true, beq_iff_eq] at holds
  exact ⟨tree, parsed, present, holds.1, exists_code holds.2⟩

end PascalStack.Code
