import PascalStack.Proofs.Code.Primitives

/-!
# What the code of every tree inherits from its steps

The code of a tree is written by a few primitives that follow one another. A property of computations
that the primitives have, and that is kept when computations follow one another, holds of the code of
every tree. Loops and conditionals write labels and jumps that belong together, so a property may
treat each of them as one step.
-/

namespace PascalStack.Code

open Generating

structure Notes (g g' : Generator) : Prop where
  globals : g'.globals = g.globals
  locals : g'.locals = g.locals
  nextGlobal : g'.nextGlobal = g.nextGlobal
  nextLocal : g'.nextLocal = g.nextLocal
  nextLoop : g'.nextLoop = g.nextLoop
  nextIf : g'.nextIf = g.nextIf
  code : g'.code = g.code

def forget (g : Generator) : Generator := { g with nextLocal := 0, locals := [] }

def Instruction.isStraight : Instruction → Bool
  | .label (.routine _) => true
  | .label _ | .jump _ | .jumpZero _ => false
  | _ => true

/-- A property of computations that the steps have which write no code, and that is kept when
computations follow one another. -/
structure Stable (P : {α : Type} → Generating α → Prop) : Prop where
  done {α : Type} (a : α) : P (pure a)
  next {α β : Type} {m : Generating α} {f : α → Generating β} :
    P m → (∀ a, P (f a)) → P (m >>= f)
  fails {α : Type} (f : Fault) : P (throw f : Generating α)
  reads : P (get : Generating Generator)
  notes {f : Generator → Generator} : (∀ g, Notes g (f g)) → P (modify f : Generating Unit)
  opensGlobal (name : Tree) : P (newGlobal name)
  opensLocal (name : Tree) : P (newLocal name)
  forgets : P (modify forget : Generating Unit)

/-- A stable property that straight code has, and that loops and conditionals inherit from their
parts. -/
structure StableControl (P : {α : Type} → Generating α → Prop) : Prop extends Stable P where
  writes {code : List Instruction} : code.all Instruction.isStraight = true → P (emit code)
  counts {body : Generating Unit} (control direction limit : Tree) :
    P body → P (countedLoop control direction limit body)
  tests {condition body : Generating Unit} :
    P condition → P body → P (testedLoop condition body)
  branches {condition yes no : Generating Unit} :
    P condition → P yes → P no → P (conditional condition yes no)

structure StableWriting (P : {α : Type} → Generating α → Prop) : Prop extends Stable P where
  writes (code : List Instruction) : P (emit code)
  takesLoop : P takeLoop
  takesIf : P takeIf

variable {P : {α : Type} → Generating α → Prop} {α : Type}

namespace Stable

theorem discard {m : Generating α} (h : Stable P) (step : P m) : P (discard m) := by
  rw [discard_eq]
  exact h.next step fun _ => h.done ()

theorem ofExcept (h : Stable P) (x : Except Fault α) : P (ofExcept x : Generating α) := by
  cases x with
  | error f => exact h.fails f
  | ok a => exact h.done a

theorem ite {c : Prop} [Decidable c] {m m' : Generating α} (yes : P m) (no : P m') :
    P (if c then m else m') := by
  split
  · exact yes
  · exact no

theorem optional {c : Prop} [Decidable c] {m : Generating Unit} {k : Unit → Generating α}
    (h : Stable P) (first : P m) (rest : P (k ())) : P (if c then m >>= k else k ()) :=
  ite (h.next first fun _ => rest) rest

theorem line (h : Stable P) (text : String) : P (line text) :=
  h.notes fun _ => ⟨rfl, rfl, rfl, rfl, rfl, rfl, rfl⟩

theorem globalCell (h : Stable P) (name : Tree) : P (globalCell name) :=
  h.next h.reads fun _ => h.next (h.ofExcept _) fun _ => h.done _

theorem localCell (h : Stable P) (name : Tree) : P (localCell name) :=
  h.next h.reads fun _ => h.next (h.ofExcept _) fun _ => h.done _

theorem hasLocal (h : Stable P) (name : Tree) : P (hasLocal name) :=
  h.next h.reads fun _ => h.ofExcept _

theorem typeOf (h : Stable P) (name : Tree) : P (typeOf name) :=
  h.next h.reads fun _ => h.ofExcept _

theorem ensureGlobal (h : Stable P) (name : Tree) : P (ensureGlobal name) :=
  h.next h.reads fun _ => h.next (h.ofExcept _) fun _ =>
    ite (h.globalCell name) (h.opensGlobal name)

theorem ensureLocal (h : Stable P) (name : Tree) : P (ensureLocal name) :=
  h.next (h.hasLocal name) fun _ => ite (h.localCell name) (h.opensLocal name)

theorem targetCell (h : Stable P) (name : Tree) : P (targetCell name) :=
  h.next h.reads fun _ => ite (h.ensureLocal name) (h.ensureGlobal name)

theorem sourceCell (h : Stable P) (name : Tree) : P (sourceCell name) :=
  h.next (h.hasLocal name) fun _ => ite (h.localCell name) (h.globalCell name)

theorem variableCell (h : Stable P) (name : Tree) : P (variableCell name) :=
  h.next h.reads fun _ => ite (h.sourceCell name) (h.globalCell name)

theorem loopCell (h : Stable P) (name : Tree) : P (loopCell name) :=
  h.next h.reads fun _ => ite (h.localCell name) (h.globalCell name)

theorem limitPush (h : Stable P) (limit : Tree) : P (limitPush limit) := by
  unfold Code.limitPush
  split
  · exact h.fails _
  · exact h.done _
  · exact h.next (h.loopCell _) fun _ => h.done _
  · exact h.fails _

theorem warn (h : Stable P) (t : Tree) : P (warn t) := h.next (h.line _) fun _ => h.done _

theorem declare (h : Stable P) (name type : Tree) : P (declare name type) := by
  unfold Code.declare
  split
  · exact h.next (h.ofExcept _) fun _ => h.notes fun _ => ⟨rfl, rfl, rfl, rfl, rfl, rfl, rfl⟩
  · exact h.fails _

theorem whenPresent {c : Generating Unit} (h : Stable P) (t : Tree) (step : P c) :
    P (whenPresent t c) := ite step (h.done ())

theorem forM {f : Tree → Generating Unit} (h : Stable P) (each : ∀ t, P (f t)) (ts : List Tree) :
    P (ts.forM f) := by
  induction ts with
  | nil => exact h.done ()
  | cons t rest ih => exact h.next (each t) fun _ => ih

theorem mapM_warn (h : Stable P) (ts : List Tree) : P (ts.mapM Code.warn) := by
  induction ts with
  | nil => exact h.done _
  | cons t rest ih =>
    rw [List.mapM_cons]
    exact h.next (h.warn t) fun _ => h.next ih fun _ => h.done _

end Stable

/-! ## Control -/

theorem StableWriting.control (h : StableWriting P) : StableControl P where
  toStable := h.toStable
  writes _ := h.writes _
  counts control _ limit body :=
    h.next h.takesLoop fun _ => h.next (h.writes _) fun _ => h.next (h.loopCell control) fun _ =>
      h.next (h.limitPush limit) fun _ => h.next (h.writes _) fun _ => h.next body fun _ =>
      h.next (h.loopCell control) fun _ => h.next (h.writes _) fun _ =>
      h.next (h.writes _) fun _ => h.writes _
  tests condition body :=
    h.next h.takesLoop fun _ => h.next (h.writes _) fun _ => h.next condition fun _ =>
      h.next (h.writes _) fun _ => h.next body fun _ => h.next (h.writes _) fun _ => h.writes _
  branches condition yes no :=
    h.next condition fun _ => h.next h.takesIf fun _ => h.next (h.writes _) fun _ =>
      h.next yes fun _ => h.next (h.writes _) fun _ => h.next (h.writes _) fun _ =>
      h.next no fun _ => h.writes _

namespace StableControl

theorem storeInto (h : StableControl P) (name : Tree) : P (storeInto name) :=
  h.next (h.targetCell name) fun _ => h.writes rfl

theorem assignLiteral (h : StableControl P) (name value type : Tree) :
    P (assignLiteral name value type) :=
  Stable.ite
    (h.next (h.ofExcept _) fun _ => h.next (h.writes rfl) fun _ =>
      h.next (h.ensureGlobal name) fun _ => h.writes rfl)
    (Stable.ite (h.next (h.writes rfl) fun _ => h.storeInto name) (h.done ()))

theorem assignLength (h : StableControl P) (name expression operand : Tree) :
    P (assignLength name expression operand) := by
  have rest : P (do
      emit [.strlen]
      Code.storeInto name) := h.next (h.writes rfl) fun _ => h.storeInto name
  unfold Code.assignLength
  split
  · exact h.next (h.globalCell operand) fun _ => h.next (h.writes rfl) fun _ => rest
  · exact rest

theorem assignVariable (h : StableControl P) (name source : Tree) :
    P (assignVariable name source) :=
  h.next h.reads fun _ => Stable.ite
    (h.next (h.sourceCell source) fun _ => h.next h.forgets fun _ => h.writes rfl)
    (h.next (h.targetCell name) fun _ => h.next (h.sourceCell source) fun _ => h.writes rfl)

theorem assign {operand run : Generating Tree} (h : StableControl P) (name value : Tree)
    (own : P operand) (own' : P run) : P (assign name value operand run) := by
  refine h.next (h.ofExcept _) fun _ => h.next (h.line _) fun _ => ?_
  split
  · exact h.assignLiteral _ _ _
  · exact h.next own fun _ => h.assignLength _ _ _
  · exact h.next (h.discard own') fun _ => h.storeInto name
  · exact h.assignVariable _ _
  · exact h.discard own'
  · exact h.done ()

theorem writeArgument (h : StableControl P) (t : Tree) : P (writeArgument t) := by
  unfold Code.writeArgument
  split
  · exact h.next (h.ofExcept _) fun _ => h.writes rfl
  · refine h.next (h.typeOf _) fun _ => Stable.ite ?_ (h.done ())
    exact h.next h.reads fun _ => Stable.ite (h.writes rfl)
      (h.next (h.globalCell _) fun _ => h.writes rfl)
  · exact h.done ()

theorem readArgument (h : StableControl P) (t : Tree) : P (readArgument t) := by
  have cell (name : Tree) {code : List Instruction} (straight : code.all Instruction.isStraight) :
      P (do
        emit code
        discard (newGlobal name)) :=
    h.next (h.writes straight) fun _ => h.discard (h.opensGlobal name)
  unfold Code.readArgument
  split
  · exact h.next (h.typeOf _) fun _ => Stable.ite (cell _ rfl) (h.done ())
  · exact h.next (h.typeOf _) fun _ =>
      Stable.ite (cell _ rfl) (Stable.ite (cell _ rfl) (h.done ()))
  · exact h.done ()

theorem passArgument (h : StableControl P) (t name : Tree) : P (passArgument t name) :=
  h.next (h.globalCell name) fun _ => h.writes rfl

theorem pushVariable (h : StableControl P) (name : Tree) : P (pushVariable name) :=
  h.next (h.variableCell name) fun _ => h.writes rfl

theorem pushElement {index : Generating Tree} (h : StableControl P) (name : Tree) (own : P index) :
    P (pushElement name index) :=
  h.next (h.globalCell name) fun _ => h.next (h.writes rfl) fun _ =>
    h.next (h.typeOf name) fun _ => Stable.ite
      (h.next own fun _ => h.next (h.variableCell _) fun _ => h.writes rfl) (h.done ())

theorem pushLeft {run index : Generating Tree} (h : StableControl P) (operand : Tree) (own : P run)
    (own' : P index) : P (pushLeft operand run index) := by
  unfold Code.pushLeft
  split
  · exact h.pushVariable _
  · exact h.writes rfl
  · exact h.pushElement _ own'
  · exact h.discard own
  · exact h.done ()

theorem pushRight {run : Generating Tree} (h : StableControl P) (operand : Tree) (own : P run) :
    P (pushRight operand run) := by
  unfold Code.pushRight
  split
  · exact h.next (h.globalCell _) fun _ => h.writes rfl
  · exact h.pushVariable _
  · exact Stable.ite (h.writes rfl) (Stable.ite (h.next (h.ofExcept _) fun _ => h.writes rfl)
      (h.done ()))
  · exact h.discard own
  · exact h.done ()

theorem applyOperator (h : StableControl P) (operator : Tree) : P (applyOperator operator) := by
  unfold Code.applyOperator
  split
  · exact h.writes rfl
  · exact h.done ()

theorem pushCondition {run : Generating Tree} (h : StableControl P) (condition : Tree)
    (own : P run) : P (pushCondition condition run) := by
  unfold Code.pushCondition
  split
  · exact h.pushVariable _
  · exact h.discard own

theorem andNothing (h : StableControl P) (t name : Tree) : P (andNothing t name) := h.done ()

mutual

theorem generate (h : StableControl P) (t : Tree) : P (generate t) := by
  match t with
  | .none | .header _ | .identifier _ | .literal .. | .arrayId .. | .type _ | .parameter .. =>
    rw [Code.generate]
    exact h.done _
  | .program header block =>
    rw [Code.generate]
    exact h.next (h.discard (h.generate header)) fun _ => h.next (h.discard (h.generate block))
      fun _ => h.done _
  | .block vars routines body extra =>
    rw [Code.generate]
    refine h.optional (h.notes fun _ => ⟨rfl, rfl, rfl, rfl, rfl, rfl, rfl⟩) ?_
    refine h.next (h.whenPresent _ (h.discard (h.generate vars))) fun _ =>
      h.next (h.whenPresent _ (h.discard (h.generate extra))) fun _ =>
      h.next (h.whenPresent _ (h.discard (h.generate body))) fun _ => h.next h.reads fun _ => ?_
    refine h.optional (h.writes rfl) ?_
    exact h.next (h.whenPresent _ (h.generateItems h.andNothing routines)) fun _ => h.done _
  | .varDeclarationPart declarations =>
    rw [Code.generate]
    exact h.next (h.whenPresent _ (h.generateItems h.andNothing declarations)) fun _ => h.done _
  | .varDeclaration ids type =>
    rw [Code.generate]
    exact h.next (h.generateItems (fun _ name => h.next (h.generate type) fun _ =>
      h.declare _ _) ids) fun _ => h.done _
  | .idList ids =>
    rw [Code.generate]
    exact h.next (h.collectItems ids) fun _ => h.done _
  | .statementPart sequence =>
    rw [Code.generate]
    exact h.next (h.discard (h.generate sequence)) fun _ => h.done _
  | .statementSequence statements =>
    rw [Code.generate]
    exact h.next (h.generateAll h.andNothing statements) fun _ => h.done _
  | .procedureCall name params =>
    rw [Code.generate]
    exact h.next (h.whenPresent _ (h.generateItems h.passArgument params)) fun _ =>
      h.next (h.writes rfl) fun _ => h.done _
  | .functionDeclaration heading block =>
    rw [Code.generate]
    exact h.next (h.discard (h.generate heading)) fun _ =>
      h.next (h.notes fun _ => ⟨rfl, rfl, rfl, rfl, rfl, rfl, rfl⟩) fun _ =>
      h.next (h.discard (h.generate block)) fun _ =>
      h.next (h.notes fun _ => ⟨rfl, rfl, rfl, rfl, rfl, rfl, rfl⟩) fun _ => h.done _
  | .functionHeading name _ params =>
    rw [Code.generate]
    exact h.next (h.notes fun _ => ⟨rfl, rfl, rfl, rfl, rfl, rfl, rfl⟩) fun _ =>
      h.next (h.writes rfl) fun _ =>
      h.next (h.whenPresent _ (h.generateItems h.andNothing params)) fun _ => h.done _
  | .assignment target value =>
    rw [Code.generate]
    exact h.next (h.generate target) fun _ => h.next (h.assign _ _ (h.generateOperand value)
      (h.generate value)) fun _ => h.done _
  | .writelnStatement params =>
    rw [Code.generate]
    exact h.next (h.ofExcept _) fun _ => h.next (h.forM h.writeArgument _) fun _ =>
      h.next (h.writes rfl) fun _ => h.done _
  | .readlnStatement params =>
    rw [Code.generate]
    exact h.next (h.ofExcept _) fun _ => h.next (h.forM h.readArgument _) fun _ => h.done _
  | .forStatement init direction limit body =>
    rw [Code.generate]
    exact h.next (h.generate init) fun _ =>
      h.next (h.counts _ _ _ (h.discard (h.generate body))) fun _ => h.done _
  | .whileStatement condition body =>
    rw [Code.generate]
    exact h.next (h.tests (h.discard (h.generate condition)) (h.discard (h.generate body)))
      fun _ => h.done _
  | .ifStatement condition thenBranch elseBranch =>
    rw [Code.generate]
    exact h.next (h.branches (h.pushCondition _ (h.generate condition))
      (h.discard (h.generate thenBranch))
      (h.whenPresent _ (h.discard (h.generate elseBranch)))) fun _ => h.done _
  | .binaryOp left operator right =>
    rw [Code.generate]
    exact h.next (h.pushLeft _ (h.generate left) (h.generateOperand left)) fun _ =>
      h.next (h.pushRight _ (h.generate right)) fun _ =>
      h.next (h.applyOperator operator) fun _ => h.done _
  | .arrayType _ element =>
    rw [Code.generate]
    exact h.generate element
  | .marked _ t =>
    rw [Code.generate]
    exact h.generate t
  | .bool _ | .str _ | .int _ | .real _ | .list _ | .tuple _ | .range .. | .arrayAssignment ..
  | .unaryOp .. | .repeatStatement .. | .functionCall .. | .breakStatement | .continueStatement
  | .caseStatement .. | .caseOption .. | .lengthFunction _ | .procedureDeclaration ..
  | .procedureHeading .. => exact h.warn _

theorem generateOperand (h : StableControl P) (t : Tree) : P (generateOperand t) := by
  cases t
  case lengthFunction expression => exact h.generate expression
  case arrayId name index => exact h.generate index
  all_goals exact h.done _

theorem generateItems {after : Tree → Tree → Generating Unit} (h : StableControl P)
    (each : ∀ t name, P (after t name)) (t : Tree) : P (generateItems after t) := by
  cases t
  case list ts => exact h.generateAll each ts
  case tuple ts => exact h.generateAll each ts
  all_goals
    exact h.next (h.ofExcept _) fun _ => h.forM (fun _ => h.next (h.warn _) fun _ => each _ _) _

theorem generateAll {after : Tree → Tree → Generating Unit} (h : StableControl P)
    (each : ∀ t name, P (after t name)) (ts : List Tree) : P (generateAll after ts) := by
  match ts with
  | [] =>
    rw [Code.generateAll]
    exact h.done ()
  | t :: rest =>
    rw [Code.generateAll]
    exact h.next (h.generate t) fun _ => h.next (each _ _) fun _ => h.generateAll each rest

theorem collectItems (h : StableControl P) (t : Tree) : P (collectItems t) := by
  cases t
  case list ts => exact h.collectAll ts
  case tuple ts => exact h.collectAll ts
  all_goals exact h.next (h.ofExcept _) fun _ => h.mapM_warn _

theorem collectAll (h : StableControl P) (ts : List Tree) : P (collectAll ts) := by
  match ts with
  | [] =>
    rw [Code.collectAll]
    exact h.done _
  | t :: rest =>
    rw [Code.collectAll]
    exact h.next (h.generate t) fun _ => h.next (h.collectAll rest) fun _ => h.done _

end

theorem generateProgram (h : StableControl P) (t : Tree) : P (generateProgram t) :=
  h.next (h.discard (h.generate t)) fun _ => h.line _

end StableControl

end PascalStack.Code
