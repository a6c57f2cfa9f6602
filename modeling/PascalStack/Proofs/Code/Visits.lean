import PascalStack.Proofs.Code.Writing

/-!
# The statements that the generator visits

The statements of a program, and those that the generator comes to, each with the generator as it is
then. What a visit writes is a stretch of the code of the whole program, and the visits inside it
write stretches of that stretch.
-/

namespace PascalStack.Code

open Generating Syntax

variable {α β : Type}

def after (m : Generating α) (g : Generator) : Generator :=
  match m.run g with
  | .ok _ g' | .error _ g' => g'

theorem after_eq {m : Generating α} {g g' : Generator} {a : α} (run : m.run g = .ok a g') :
    after m g = g' := by
  rw [after, run]

def openBranch (condition : Generating Unit) : Generating Nat := do
  condition
  let n ← takeIf
  emit [.jumpZero (.elseBranch n)]
  return n

def nextBranch (n : Nat) : Generating Unit := do
  emit [.jump (.ifEnd n)]
  emit [.label (.elseBranch n)]

theorem conditional_eq (condition yes no : Generating Unit) :
    conditional condition yes no = (do
      let n ← openBranch condition
      yes
      nextBranch n
      no
      emit [.label (.ifEnd n)]) := by
  simp only [conditional, openBranch, nextBranch, bind_assoc, pure_bind]

def openTested (condition : Generating Unit) : Generating Nat := do
  let n ← takeLoop
  emit [.label (.whileStart n)]
  condition
  emit [.jumpZero (.whileEnd n)]
  return n

theorem testedLoop_eq (condition body : Generating Unit) :
    testedLoop condition body = (do
      let n ← openTested condition
      body
      emit [.jump (.whileStart n)]
      emit [.label (.whileEnd n)]) := by
  simp only [testedLoop, openTested, bind_assoc, pure_bind]

def openCounted (control direction limit : Tree) : Generating Nat := do
  let n ← takeLoop
  emit [.label (.forStart n)]
  let cell ← loopCell control
  let bound ← limitPush limit
  emit [.load cell, bound, .operate (if direction.isText "to" then .infeq else .supeq),
    .jumpZero (.forEnd n)]
  return n

def countOn (control direction : Tree) (n : Nat) : Generating Unit := do
  let cell ← loopCell control
  emit [.load cell, .push (.int 1), .operate (if direction.isText "to" then .add else .sub),
    .store cell]
  emit [.jump (.forStart n)]

theorem countedLoop_eq (control direction limit : Tree) (body : Generating Unit) :
    countedLoop control direction limit body = (do
      let n ← openCounted control direction limit
      body
      countOn control direction n
      emit [.label (.forEnd n)]) := by
  simp only [countedLoop, openCounted, countOn, bind_assoc, pure_bind]

def openBlock (declarations : List Declaration) (routines : List Routine)
    (extra : Option (List Declaration)) : Generating Unit := do
  if !routines.isEmpty then modify fun g => { g with hasFunction := true }
  discard (generate (sectionTree declarations))
  whenPresent (extraTree extra) (discard (generate (extraTree extra)))

def closeBody : Generating Unit := do
  if (← get).hasFunction then emit [.stop]

def openFunction (name : Option String) (result : TypeForm) (parameters : List Parameter) :
    Generating Unit := do
  discard (generate (.functionHeading (nameTree name) result.tree
    (.list (parameters.map Parameter.tree))))
  modify fun g => { g with inFunction := true }

section Grows

variable {condition : Generating Unit}

theorem grows_openBranch (h : Grows condition) : Grows (openBranch condition) :=
  h.bind fun _ => silent_takeIf.bind fun _ => (writes_emit _).grows.bind fun _ =>
    (silent_pure _).grows

theorem grows_nextBranch (n : Nat) : Grows (nextBranch n) :=
  (writes_emit _).grows.bind fun _ => (writes_emit _).grows

theorem grows_openTested (h : Grows condition) : Grows (openTested condition) :=
  silent_takeLoop.bind fun _ => (writes_emit _).grows.bind fun _ => h.bind fun _ =>
    (writes_emit _).grows.bind fun _ => (silent_pure _).grows

theorem grows_openCounted (control direction limit : Tree) :
    Grows (openCounted control direction limit) :=
  silent_takeLoop.bind fun _ => (writes_emit _).grows.bind fun _ =>
    (stable_silent.loopCell control).bind fun _ => (stable_silent.limitPush limit).bind fun _ =>
    (writes_emit _).grows.bind fun _ => (silent_pure _).grows

theorem grows_countOn (control direction : Tree) (n : Nat) : Grows (countOn control direction n) :=
  (stable_silent.loopCell control).bind fun _ => (writes_emit _).grows.bind fun _ => (writes_emit _).grows

end Grows

/-- Whether the generator for a file writes the code of a tree; nothing, if there is no generator. -/
def writes? (path : String) (t : Tree) : Option Bool :=
  match Generator.new path with
  | .error _ => none
  | .ok g =>
    match (generateProgram t).run g with
    | .ok .. => some true
    | .error .. => some false

variable {path : String} {t : Tree}

theorem written_of_writes? (h : writes? path t = some true) :
    ∃ g g', Generator.new path = .ok g ∧ (generateProgram t).run g = .ok () g' := by
  unfold writes? at h
  split at h
  · cases h
  · rename_i g new
    split at h
    · rename_i g' run
      exact ⟨g, g', new, run⟩
    · cases h

theorem stopped_of_writes? (h : writes? path t = some false) :
    ∃ g f g', Generator.new path = .ok g ∧ (generateProgram t).run g = .error f g' := by
  unfold writes? at h
  split at h
  · cases h
  · rename_i g new
    split at h
    · cases h
    · rename_i f g' run
      exact ⟨g, f, g', new, run⟩

end PascalStack.Code

namespace PascalStack.Syntax

open Code Code.Generating

/-! ## Statements of a program -/

mutual

/-- The statements in a statement, but for those that do nothing and those that only hold others
together. If not `all`, those that are repeated are left out. -/
def Statement.statements (all : Bool) : Statement → List Statement
  | .empty | .absent | .readln [] => []
  | .compound items => Statement.statementsAll all items
  | .conditional condition yes no =>
    .conditional condition yes no :: (yes.statements all ++ no.statements all)
  | .whileDo condition body => .whileDo condition body :: body.statements all
  | .repeatUntil body condition =>
    .repeatUntil body condition :: if all then body.statements all else []
  | .forDo start direction limit body =>
    .forDo start direction limit body :: .assign start :: body.statements all
  | s => [s]

def Statement.statementsAll (all : Bool) : List Statement → List Statement
  | [] => []
  | s :: rest => s.statements all ++ Statement.statementsAll all rest

end

mutual

/-- The statements of a block, those of its body first. If not `all`, those of procedures are left
out too. -/
def Block.statements (all : Bool) : Block → List Statement
  | .make _ routines body _ => Statement.statementsAll all body ++ Routine.statementsAll all routines

def Routine.statements (all : Bool) : Routine → List Statement
  | .procedure _ _ block => if all then block.statements all else []
  | .function _ _ _ block => block.statements all

def Routine.statementsAll (all : Bool) : List Routine → List Statement
  | [] => []
  | r :: rest => r.statements all ++ Routine.statementsAll all rest

end

def Program.statements (all : Bool) (p : Program) : List Statement := p.block.statements all

/-- A statement and the generator that comes to it. -/
structure Visit where
  statement : Statement
  before : Generator

def Visit.after (v : Visit) : Generator := Code.after (generate v.statement.tree) v.before

mutual

def Statement.visits : Statement → Generator → List Visit
  | .empty, _ | .absent, _ | .readln [], _ => []
  | .compound items, g => Statement.visitsAll items g
  | .conditional condition yes no, g =>
    ⟨.conditional condition yes no, g⟩ ::
      (yes.visits (Code.after (openBranch (pushCondition condition.tree (generate condition.tree))) g) ++
        no.visits (Code.after (do
          let n ← openBranch (pushCondition condition.tree (generate condition.tree))
          discard (generate yes.tree)
          nextBranch n) g))
  | .whileDo condition body, g =>
    ⟨.whileDo condition body, g⟩ ::
      body.visits (Code.after (openTested (discard (generate condition.tree))) g)
  | .forDo start direction limit body, g =>
    ⟨.forDo start direction limit body, g⟩ :: ⟨.assign start, g⟩ ::
      body.visits (Code.after (do
        let control ← generate start.tree
        openCounted control (.str direction) limit.tree) g)
  | s, g => [⟨s, g⟩]

def Statement.visitsAll : List Statement → Generator → List Visit
  | [], _ => []
  | s :: rest, g => s.visits g ++ Statement.visitsAll rest (Code.after (generate s.tree) g)

end

mutual

def Block.visits : Block → Generator → List Visit
  | .make declarations routines body extra, g =>
    Statement.visitsAll body (Code.after (openBlock declarations routines extra) g) ++
      Routine.visitsAll routines (Code.after (do
        openBlock declarations routines extra
        discard (generate (bodyTree body))
        closeBody) g)

def Routine.visits : Routine → Generator → List Visit
  | .procedure .., _ => []
  | .function name result parameters block, g =>
    block.visits (Code.after (openFunction name result parameters) g)

def Routine.visitsAll : List Routine → Generator → List Visit
  | [], _ => []
  | r :: rest, g => r.visits g ++ Routine.visitsAll rest (Code.after (generate r.tree) g)

end

def Program.visits (p : Program) (g : Generator) : List Visit := p.block.visits g

mutual

theorem map_visits (s : Statement) (g : Generator) :
    (s.visits g).map Visit.statement = s.statements false := by
  match s with
  | .empty | .absent | .readln [] => rfl
  | .compound items => exact map_visitsAll items g
  | .conditional condition yes no =>
    simp [Statement.visits, Statement.statements, map_visits yes, map_visits no]
  | .whileDo condition body => simp [Statement.visits, Statement.statements, map_visits body]
  | .forDo start direction limit body =>
    simp [Statement.visits, Statement.statements, map_visits body]
  | .repeatUntil body condition => rfl
  | .assign a | .call f arguments | .mention x | .writeln arguments | .breakLoop | .continueLoop =>
    rfl
  | .readln (target :: rest) => rfl

theorem map_visitsAll (items : List Statement) (g : Generator) :
    (Statement.visitsAll items g).map Visit.statement = Statement.statementsAll false items := by
  match items with
  | [] => rfl
  | s :: rest =>
    simp [Statement.visitsAll, Statement.statementsAll, map_visits s, map_visitsAll rest]

end

mutual

theorem map_block_visits (b : Block) (g : Generator) :
    (b.visits g).map Visit.statement = b.statements false := by
  match b with
  | .make declarations routines body extra =>
    simp [Block.visits, Block.statements, map_visitsAll, map_routines_visits routines]

theorem map_routine_visits (r : Routine) (g : Generator) :
    (r.visits g).map Visit.statement = r.statements false := by
  match r with
  | .procedure .. => rfl
  | .function name result parameters block =>
    simp [Routine.visits, Routine.statements, map_block_visits block]

theorem map_routines_visits (rs : List Routine) (g : Generator) :
    (Routine.visitsAll rs g).map Visit.statement = Routine.statementsAll false rs := by
  match rs with
  | [] => rfl
  | r :: rest =>
    simp [Routine.visitsAll, Routine.statementsAll, map_routine_visits r, map_routines_visits rest]

end

/-! ## Visits within a run -/

/-- A visit in a run from `g` to `g'`: the code of its statement is written to the end, and is a
stretch of what the run writes. Statements that only hold others together are passed by. -/
structure Visit.Within (v : Visit) (g g' : Generator) : Prop where
  single : ∀ items, v.statement ≠ .compound items
  returns : ∃ t, (generate v.statement.tree).run v.before = .ok t v.after
  starts : g.code <+: v.before.code
  ends : v.after.code <+: g'.code

section Within

variable {g g' : Generator} {t : Tree}

theorem Visit.Within.widen {v : Visit} {h h' : Generator} (within : v.Within g g')
    (start : h.code <+: g.code) (finish : g'.code <+: h'.code) : v.Within h h' :=
  ⟨within.single, within.returns, start.trans within.starts, within.ends.trans finish⟩

variable {s body : Statement} {condition : Expression}

theorem within_self (single : ∀ items, s ≠ .compound items)
    (run : (generate s.tree).run g = .ok t g') : (Visit.mk s g).Within g g' := by
  have left : (Visit.mk s g).after = g' := after_eq run
  exact ⟨single, ⟨t, left ▸ run⟩, List.prefix_rfl, left ▸ List.prefix_rfl⟩

def Statement.Visited (s : Statement) : Prop :=
  ∀ {g t g'}, (generate s.tree).run g = .ok t g' → ∀ v ∈ s.visits g, v.Within g g'

def OverBeforeLast (vs : List Visit) (g g' : Generator) : Prop :=
  ∃ (h : Generator) (last : Instruction), g.code <+: h.code ∧ g'.code = h.code ++ [last] ∧
    ∀ v ∈ vs, v.Within g h

theorem OverBeforeLast.within {vs : List Visit} (early : OverBeforeLast vs g g') :
    ∀ v ∈ vs, v.Within g g' := by
  obtain ⟨h, last, -, written, within⟩ := early
  intro v member
  exact (within v member).widen List.prefix_rfl (written ▸ List.prefix_append _ _)

theorem visited_branch (visited : s.Visited)
    (run : (whenPresent s.tree (discard (generate s.tree))).run g = .ok () g') :
    ∀ v ∈ s.visits g, v.Within g g' := by
  unfold whenPresent at run
  split at run
  · obtain ⟨t, run⟩ := run_discard_ok run
    exact visited run
  · rename_i missing
    intro v member
    cases s
    case empty | absent => cases member
    case assign a =>
      obtain ⟨target, value⟩ := a
      cases target <;> exact absurd rfl missing
    all_goals exact absurd rfl missing

theorem conditional_inner {yes no : Statement} (first : yes.Visited) (second : no.Visited)
    (run : (generate (Statement.conditional condition yes no).tree).run g = .ok t g') :
    OverBeforeLast ((Statement.conditional condition yes no).visits g).tail g g' := by
  rw [Statement.tree, generate, conditional_eq] at run
  obtain ⟨_, _, run, done⟩ := run_bind_ok run
  cases done
  obtain ⟨n, g₁, opened, run⟩ := run_bind_ok run
  obtain ⟨_, g₂, run₁, run⟩ := run_bind_ok run
  obtain ⟨_, g₃, between, run⟩ := run_bind_ok run
  obtain ⟨_, g₄, run₂, closed⟩ := run_bind_ok run
  obtain ⟨_, run₁'⟩ := run_discard_ok run₁
  have start₁ := (grows_openBranch (stable_grows.pushCondition _ (stable_grows.generate _))).stays opened
  have start₂ := (start₁.trans ((stable_grows.generate _).stays run₁')).trans
    ((grows_nextBranch n).stays between)
  have finish := (stable_grows.whenPresent _ (stable_grows.generate _).discard).stays run₂
  refine ⟨g₄, _, start₂.trans finish, congrArg Generator.code (run_emit_eq closed),
    fun v member => ?_⟩
  simp only [Statement.visits, List.tail_cons, List.mem_append] at member
  rw [after_eq opened, after_eq (run_seq opened (run_seq run₁ between))] at member
  rcases member with member | member
  · exact (first run₁' v member).widen start₁ (((grows_nextBranch n).stays between).trans finish)
  · exact (visited_branch second run₂ v member).widen start₂ List.prefix_rfl

theorem whileDo_inner (visited : body.Visited)
    (run : (generate (Statement.whileDo condition body).tree).run g = .ok t g') :
    OverBeforeLast ((Statement.whileDo condition body).visits g).tail g g' := by
  rw [Statement.tree, generate, testedLoop_eq] at run
  obtain ⟨_, _, run, done⟩ := run_bind_ok run
  cases done
  obtain ⟨n, g₁, opened, run⟩ := run_bind_ok run
  obtain ⟨_, g₂, round, run⟩ := run_bind_ok run
  obtain ⟨_, g₃, again, closed⟩ := run_bind_ok run
  obtain ⟨_, round⟩ := run_discard_ok round
  have start := (grows_openTested (stable_grows.generate _).discard).stays opened
  have finish := (writes_emit _).grows.stays again
  refine ⟨g₃, _, (start.trans ((stable_grows.generate _).stays round)).trans finish,
    congrArg Generator.code (run_emit_eq closed), fun v member => ?_⟩
  simp only [Statement.visits, List.tail_cons] at member
  rw [after_eq opened] at member
  exact (visited round v member).widen start finish

theorem forDo_inner {start : Assignment} {direction : String} {limit : Expression}
    (visited : body.Visited)
    (run : (generate (Statement.forDo start direction limit body).tree).run g = .ok t g') :
    OverBeforeLast ((Statement.forDo start direction limit body).visits g).tail g g' := by
  rw [Statement.tree, generate] at run
  obtain ⟨control, g₁, first, run⟩ := run_bind_ok run
  obtain ⟨_, _, run, done⟩ := run_bind_ok run
  cases done
  rw [countedLoop_eq] at run
  obtain ⟨n, g₂, opened, run⟩ := run_bind_ok run
  obtain ⟨_, g₃, round, run⟩ := run_bind_ok run
  obtain ⟨_, g₄, again, closed⟩ := run_bind_ok run
  obtain ⟨_, round⟩ := run_discard_ok round
  have start₁ := (stable_grows.generate _).stays first
  have start₂ := (grows_openCounted _ _ _).stays opened
  have finish := (grows_countOn _ _ _).stays again
  have start₃ := (start₁.trans start₂).trans ((stable_grows.generate _).stays round)
  refine ⟨g₄, _, start₃.trans finish, congrArg Generator.code (run_emit_eq closed),
    fun v member => ?_⟩
  simp only [Statement.visits, List.tail_cons, List.mem_cons] at member
  rw [after_eq (run_seq first opened)] at member
  rcases member with rfl | member
  · exact (within_self (s := .assign start) (by simp) first).widen List.prefix_rfl
      ((start₂.trans ((stable_grows.generate _).stays round)).trans finish)
  · exact (visited round v member).widen (start₁.trans start₂) finish

end Within

mutual

theorem visited (s : Statement) : s.Visited := by
  intro g t g' run
  match s with
  | .empty | .absent | .readln [] =>
    intro v member
    cases member
  | .compound items =>
    rw [Statement.tree, generate, generate] at run
    obtain ⟨_, _, run, done⟩ := run_bind_ok run
    cases done
    obtain ⟨_, run⟩ := run_discard_ok run
    obtain ⟨_, _, run, done⟩ := run_bind_ok run
    cases done
    exact visited_all items run
  | .conditional condition yes no =>
    have inner := (conditional_inner (visited yes) (visited no) run).within
    rintro v (_ | ⟨_, member⟩)
    · exact within_self nofun run
    · exact inner v member
  | .whileDo condition body =>
    have inner := (whileDo_inner (visited body) run).within
    rintro v (_ | ⟨_, member⟩)
    · exact within_self nofun run
    · exact inner v member
  | .forDo start direction limit body =>
    have inner := (forDo_inner (visited body) run).within
    rintro v (_ | ⟨_, member⟩)
    · exact within_self nofun run
    · exact inner v member
  | .repeatUntil .. | .assign _ | .call .. | .mention _ | .writeln _ | .breakLoop | .continueLoop
  | .readln (_ :: _) =>
    rintro v (_ | ⟨_, member⟩)
    · exact within_self nofun run
    · cases member

theorem visited_all (items : List Statement) {g g' : Generator}
    (run : (generateAll andNothing (Statement.trees items)).run g = .ok () g') :
    ∀ v ∈ Statement.visitsAll items g, v.Within g g' := by
  match items with
  | [] =>
    intro v member
    cases member
  | s :: rest =>
    rw [Statement.trees, generateAll] at run
    obtain ⟨_, g₁, first, run⟩ := run_bind_ok run
    obtain ⟨_, _, nothing, run⟩ := run_bind_ok run
    cases nothing
    intro v member
    rw [Statement.visitsAll, List.mem_append, after_eq first] at member
    rcases member with member | member
    · exact (visited s first v member).widen List.prefix_rfl
        ((stable_grows.generateAll stable_grows.andNothing _).stays run)
    · exact (visited_all rest run v member).widen ((stable_grows.generate _).stays first) List.prefix_rfl

end

theorem generate_block (declarations : List Declaration) (routines : List Routine)
    (body : List Statement) (extra : Option (List Declaration)) :
    generate (Block.make declarations routines body extra).tree = (do
      openBlock declarations routines extra
      discard (generate (bodyTree body))
      closeBody
      generateAll andNothing (Routine.trees routines)
      return .none) := by
  have items : whenPresent (.list (Routine.trees routines))
      (generateItems andNothing (.list (Routine.trees routines))) =
      generateAll andNothing (Routine.trees routines) := by
    cases routines <;> rfl
  rw [Block.tree, generate, items, truthy_routines]
  simp only [openBlock, closeBody, bind_assoc, optional_bind]
  cases routines.isEmpty
  · simp only [Bool.not_false, if_true, bind_assoc]
    rfl
  · simp only [Bool.not_true, Bool.false_eq_true, if_false, bind_assoc]
    rfl

theorem grows_openBlock (declarations : List Declaration) (routines : List Routine)
    (extra : Option (List Declaration)) : Grows (openBlock declarations routines extra) := by
  unfold openBlock
  refine stable_grows.optional (silent_modify fun _ => by rfl).grows ?_
  exact (stable_grows.generate _).discard.bind fun _ => stable_grows.whenPresent _ (stable_grows.generate _).discard

theorem grows_closeBody : Grows closeBody :=
  silent_get.bind fun _ => .ite (writes_emit _).grows (silent_pure _).grows

mutual

theorem visited_block (b : Block) {g g' : Generator} {t : Tree}
    (run : (generate b.tree).run g = .ok t g') : ∀ v ∈ b.visits g, v.Within g g' := by
  match b with
  | .make declarations routines body extra =>
    rw [generate_block] at run
    obtain ⟨_, g₁, opened, run⟩ := run_bind_ok run
    obtain ⟨_, g₂, inBody, run⟩ := run_bind_ok run
    obtain ⟨_, g₃, closed, run⟩ := run_bind_ok run
    obtain ⟨_, _, inRoutines, done⟩ := run_bind_ok run
    cases done
    have start := (grows_openBlock _ _ _).stays opened
    have next := grows_closeBody.stays closed
    obtain ⟨_, inBody'⟩ := run_discard_ok inBody
    intro v member
    rw [Block.visits, List.mem_append, after_eq opened,
      after_eq (run_seq opened (run_seq inBody closed))] at member
    rcases member with member | member
    · exact (visited (.compound body) inBody' v member).widen start
        (next.trans ((stable_grows.generateAll stable_grows.andNothing _).stays inRoutines))
    · exact (visited_routines routines inRoutines v member).widen
        ((start.trans ((stable_grows.generate _).stays inBody')).trans next) List.prefix_rfl

theorem visited_routine (r : Routine) {g g' : Generator} {t : Tree}
    (run : (generate r.tree).run g = .ok t g') : ∀ v ∈ r.visits g, v.Within g g' := by
  match r with
  | .procedure .. =>
    intro v member
    cases member
  | .function name result parameters block =>
    rw [Routine.tree, generate] at run
    obtain ⟨_, g₁, heading, run⟩ := run_bind_ok run
    obtain ⟨_, g₂, entered, run⟩ := run_bind_ok run
    obtain ⟨_, g₃, inside, run⟩ := run_bind_ok run
    cases run
    obtain ⟨_, inside⟩ := run_discard_ok inside
    have opened : (openFunction name result parameters).run g = .ok _ g₂ :=
      run_seq heading entered
    have start := (stable_grows.generate _).discard.stays heading
    cases entered
    intro v member
    rw [Routine.visits, after_eq opened] at member
    exact (visited_block block inside v member).widen start List.prefix_rfl

theorem visited_routines (rs : List Routine) {g g' : Generator}
    (run : (generateAll andNothing (Routine.trees rs)).run g = .ok () g') :
    ∀ v ∈ Routine.visitsAll rs g, v.Within g g' := by
  match rs with
  | [] =>
    intro v member
    cases member
  | r :: rest =>
    rw [Routine.trees, generateAll] at run
    obtain ⟨_, g₁, first, run⟩ := run_bind_ok run
    obtain ⟨_, _, nothing, run⟩ := run_bind_ok run
    cases nothing
    intro v member
    rw [Routine.visitsAll, List.mem_append, after_eq first] at member
    rcases member with member | member
    · exact (visited_routine r first v member).widen List.prefix_rfl
        ((stable_grows.generateAll stable_grows.andNothing _).stays run)
    · exact (visited_routines rest run v member).widen ((stable_grows.generate _).stays first)
        List.prefix_rfl

end

theorem run_program_ok {p : Program} {g g' : Generator}
    (run : (generateProgram p.tree).run g = .ok () g') :
    ∃ t g₁, (generate p.block.tree).run g = .ok t g₁ ∧ g'.code = g₁.code := by
  rw [generateProgram, Program.tree, generate] at run
  obtain ⟨_, g₁, written, printed⟩ := run_bind_ok run
  obtain ⟨_, written⟩ := run_discard_ok written
  obtain ⟨_, g₂, header, rest⟩ := run_bind_ok written
  obtain ⟨_, g₃, inBlock, done⟩ := run_bind_ok rest
  obtain ⟨t, inBlock⟩ := run_discard_ok inBlock
  cases header
  cases done
  cases printed
  exact ⟨t, _, inBlock, rfl⟩

theorem visited_program (p : Program) {g g' : Generator}
    (run : (generateProgram p.tree).run g = .ok () g') : ∀ v ∈ p.visits g, v.Within g g' := by
  obtain ⟨_, g₁, inBlock, same⟩ := run_program_ok run
  exact fun v member =>
    (visited_block p.block inBlock v member).widen List.prefix_rfl (same ▸ List.prefix_rfl)

end PascalStack.Syntax
