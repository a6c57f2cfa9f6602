import PascalStack.Proofs.Analysis.Declarations
import PascalStack.Proofs.Analysis.Scope

/-!
# Checks are balanced

A check that ends comes back to the scope and to the loops it began in: what it adds is symbols in
the innermost table and errors at the end. This holds of every tree, also of one that no source text
gives, since each step of a check does so.
-/

namespace PascalStack.Analysis

open Checking

section Steps

variable {R : Analyzer → Analyzer → Prop} [AdmitsJumps R] {first element value : Checking Value}
  {each : List Value → Checking Unit}

instance {params : Tree} [Moves R first] : Moves R (checkLength params first) := by
  unfold checkLength
  infer_instance

theorem moves_checkFunctionCall {name params : Tree} (h : Moves R first)
    (h' : ∀ wanted, Moves R (each wanted)) :
    Moves R (checkFunctionCall name params first each) := by
  refine moves_callee?.bind fun found => ?_
  split
  · infer_instance
  · split
    · exact moves_ofExcept.seq <| .ite (m := do checkLength params first; return _) inferInstance
        (moves_checkArguments (h' _)).discard.ended
    · infer_instance

theorem moves_checkAssignment {target given : Tree} (h : Moves R element) (h' : Moves R value) :
    Moves R (checkAssignment target given element value) := by
  unfold checkAssignment assignElement
  split
  · exact moves_assignVariable h'
  · infer_instance
  · infer_instance

instance moves_checkCase {subject option : Value} : Moves R (checkCase subject option) := by
  unfold checkCase
  infer_instance

theorem Moves.present {α β : Type} {c : Prop} [Decidable c] {m : Checking α} {f : α → Checking β}
    (h : Moves R m) (absent : α) (next : ∀ {v}, Moves R (f v)) :
    Moves R (if c then m >>= f else pure absent >>= f) :=
  .ite (h.seq next) (moves_pure.seq next)

theorem moves_pairs (what : String) (name : Tree) (entries : List ((Value × Tree) × Nat)) :
    Moves R (forIn entries PUnit.unit fun entry _ => do
      checkArgument what name (entry.2 + 1) entry.1.1 (← warn entry.1.2)
      pure (ForInStep.yield PUnit.unit)) := by
  induction entries with
  | nil => exact moves_pure
  | cons entry rest ih =>
    simp only [List.forIn_cons, bind_assoc, pure_bind]
    exact moves_warn.seq <| moves_checkArgument.seq ih

theorem moves_warnings (ts : List Tree) : Moves R (ts.mapM warn) := by
  induction ts with
  | nil => exact moves_pure
  | cons t rest ih =>
    rw [List.mapM_cons]
    exact moves_warn.seq ih.ended

end Steps

section Routines

variable {R : Analyzer → Analyzer → Prop} [AdmitsNames R] {block : Checking Unit}

instance moves_defineValue {v : Value} : Moves R (defineValue v) := by
  unfold defineValue
  split <;> infer_instance

instance moves_checkProcedure {routine : Value} [Moves R block] :
    Moves R (checkProcedure routine block) :=
  .inScope inferInstance

def checkGiven (name : Tree) (result : Symbol) : Checking Unit := do
  if !(← isInitialized result) then
    let name ← textOf name
    report s!"Function {name} does not have a return value"

section Given

variable {R : Analyzer → Analyzer → Prop} [Admits R] {name : Tree} {result : Symbol}

instance moves_isInitialized : Moves R (isInitialized result) := moves_get.ended

instance moves_checkGiven : Moves R (checkGiven name result) :=
  moves_isInitialized.seq <| .ite (moves_textOf.seq <| moves_report .noResult [_] rfl) moves_pure

end Given

def checkInside (s : Symbol) (block : Checking Unit) : Checking Unit := do
  let result ← newVariable s.name s.type false
  define result
  block
  checkGiven s.name ((← find? s.name).getD result)

theorem checkFunction_symbol (s : Symbol) (block : Checking Unit) :
    checkFunction (.symbol s) block = inScope (do
      (← ofExcept (paramsOf (.symbol s))).forM defineValue
      checkInside s block) := rfl

instance moves_checkInside {s : Symbol} [Moves R block] : Moves R (checkInside s block) := by
  unfold checkInside
  infer_instance

instance moves_checkFunction {routine : Value} [Moves R block] :
    Moves R (checkFunction routine block) := by
  refine Moves.inScope <| moves_ofExcept.seq <| moves_each.seq ?_
  split
  · exact moves_checkInside
  · exact moves_pure

end Routines

section Trees

variable {R : Analyzer → Analyzer → Prop} [AdmitsJumps R] [AdmitsNames R]

-- Some of the theorems need an instance only for the others.
set_option linter.unusedSectionVars false

mutual

theorem moves_check (t : Tree) : Moves R (check t) := by
  match t with
  | .none | .header _ | .literal _ _ => exact moves_pure
  | .bool _ | .str _ | .int _ | .real _ | .list _ | .tuple _ | .idList _ | .arrayAssignment .. =>
    exact moves_warn
  | .program header block =>
    exact (moves_check header).discard.seq <| (moves_check block).discard.ended
  | .block vars routines body extra =>
    exact (Moves.inScope ((moves_whenPresent (moves_check vars).discard).seq <|
      (moves_whenPresent (moves_checkItems routines)).seq <|
      (moves_whenPresent (moves_check extra).discard).seq <|
      moves_whenPresent (moves_check body).discard)).ended
  | .varDeclarationPart declarations =>
    exact (moves_whenPresent (moves_checkItems declarations)).ended
  | .varDeclaration ids type =>
    exact (moves_check type).seq <| moves_ofExcept.seq moves_each.ended
  | .type name => exact moves_namedType
  | .arrayType range element =>
    exact (moves_check element).seq <| (moves_check range).present _ moves_pure
  | .range first last =>
    exact (moves_check first).seq <| (moves_check last).seq <| moves_checkBounds
  | .identifier name => exact moves_checkName
  | .arrayId name index => exact moves_checkElement (moves_check index)
  | .procedureDeclaration heading block =>
    have := moves_check block
    exact (moves_check heading).seq moves_checkProcedure.ended
  | .functionDeclaration heading block =>
    have := moves_check block
    exact (moves_check heading).seq moves_checkFunction.ended
  | .procedureHeading name params =>
    exact moves_checkNew.seq <| (moves_collectItems params).present _ moves_declareRoutine
  | .functionHeading name type params =>
    exact moves_checkNew.seq <| (moves_check type).present _ <|
      (moves_collectItems params).present _ moves_declareRoutine
  | .parameter name type =>
    exact (moves_check type).seq moves_newVariable.ended
  | .statementPart sequence => exact moves_check sequence
  | .statementSequence statements =>
    exact (moves_checkAll statements).ended
  | .assignment target value =>
    exact (moves_checkAssignment (moves_check target) (moves_check value)).ended
  | .ifStatement condition yes no =>
    exact (moves_check condition).seq <| moves_checkCondition.seq <|
      (moves_check yes).discard.seq <| (moves_whenPresent (moves_check no).discard).ended
  | .whileStatement condition body =>
    exact (moves_check condition).seq <| moves_checkCondition.seq <|
      (moves_check body).discard.inLoop.ended
  | .repeatStatement body condition =>
    exact (Moves.inLoop ((moves_check body).discard.seq <|
      (moves_check condition).seq moves_checkCondition)).ended
  | .forStatement init _ limit body =>
    exact (moves_check init).discard.seq <| moves_checkControl.seq <|
      (moves_check limit).seq <| moves_checkLimit.seq <| (moves_check body).discard.inLoop.ended
  | .procedureCall name params =>
    exact moves_checkCall
      (fun _ => moves_checkItems params) fun wanted => moves_checkPairs _ _ wanted params
  | .functionCall name params =>
    exact moves_checkFunctionCall (moves_checkFirst params)
      fun wanted => moves_checkPairs _ _ wanted params
  | .writelnStatement params =>
    exact (moves_whenPresent (moves_checkItems params)).ended
  | .readlnStatement params =>
    exact (moves_whenPresent (moves_checkTargets params)).ended
  | .breakStatement | .continueStatement =>
    exact moves_checkJump.ended
  | .caseStatement expression options =>
    exact (moves_check expression).bind fun v => (moves_checkOptions v options).ended
  | .caseOption value statement =>
    exact (moves_check value).seq <| (moves_check statement).discard.ended
  | .binaryOp left operator right =>
    exact (moves_check left).seq <| (moves_check right).seq <| moves_checkOperation
  | .unaryOp operator operand => exact (moves_check operand).seq moves_checkUnary
  | .lengthFunction expression =>
    rw [check_length]
    exact (moves_check expression).seq moves_checkMeasured.ended
  | .marked _ t => exact moves_check t

theorem moves_checkItems {after : Tree → Value → Checking Unit} [∀ t v, Moves R (after t v)]
    (t : Tree) : Moves R (checkItems after t) := by
  cases t with
  | list xs | tuple xs => exact moves_checkAll xs
  | _ => exact moves_ofExcept.bind fun _ => inferInstance

theorem moves_checkAll {after : Tree → Value → Checking Unit} [h : ∀ t v, Moves R (after t v)]
    (ts : List Tree) : Moves R (checkAll after ts) := by
  match ts with
  | [] => exact moves_pure
  | t :: rest =>
    exact (moves_check t).bind fun v => (h t v).seq (moves_checkAll rest)

theorem moves_collectItems (t : Tree) : Moves R (collectItems t) := by
  cases t with
  | list xs | tuple xs => exact moves_collectAll xs
  | _ => exact moves_ofExcept.bind moves_warnings

theorem moves_collectAll (ts : List Tree) : Moves R (collectAll ts) := by
  match ts with
  | [] => exact moves_pure
  | t :: rest =>
    exact (moves_check t).seq <| (moves_collectAll rest).ended

theorem moves_checkFirst (t : Tree) : Moves R (checkFirst t) := by
  cases t with
  | list xs | tuple xs =>
    cases xs with
    | nil => exact moves_warn
    | cons x _ => exact moves_check x
  | _ => exact moves_warn

theorem moves_checkPairs (what : String) (name : Tree) (wanted : List Value) (t : Tree) :
    Moves R (checkPairs what name wanted t) := by
  cases t with
  | list xs | tuple xs => exact moves_checkZip what name 1 wanted xs
  | _ => exact moves_ofExcept.seq <| (moves_pairs what name _).ended

theorem moves_checkZip (what : String) (name : Tree) (index : Nat) (wanted : List Value)
    (ts : List Tree) : Moves R (checkZip what name index wanted ts) := by
  match ts, wanted with
  | [], _ | _ :: _, [] => exact moves_pure
  | t :: rest, param :: params =>
    exact (moves_check t).seq <| moves_checkArgument.seq <|
      moves_checkZip what name (index + 1) params rest

theorem moves_checkTargets (t : Tree) : Moves R (checkTargets t) := by
  cases t with
  | list xs | tuple xs => exact moves_checkEachTarget xs
  | _ => exact moves_ofExcept.bind fun _ => inferInstance

theorem moves_checkEachTarget (ts : List Tree) : Moves R (checkEachTarget ts) := by
  match ts with
  | [] => exact moves_pure
  | t :: rest =>
    exact (moves_checkTarget (moves_check t)).seq <| moves_checkEachTarget rest

theorem moves_checkOptions (subject : Value) (t : Tree) : Moves R (checkOptions subject t) := by
  cases t with
  | list xs | tuple xs => exact moves_checkEachOption subject xs
  | _ =>
    refine moves_ofExcept.bind fun xs => ?_
    split
    · exact moves_pure
    · exact moves_throw

theorem moves_checkEachOption (subject : Value) (ts : List Tree) :
    Moves R (checkEachOption subject ts) := by
  match ts with
  | [] => exact moves_pure
  | t :: rest =>
    cases t with
    | caseOption value statement =>
      exact (moves_check value).bind fun v => moves_checkCase.seq <|
        (moves_check statement).discard.seq <| moves_checkEachOption subject rest
    | assignment _ value | arrayAssignment _ _ value | literal value _ =>
      exact (moves_check value).bind fun v => moves_checkCase.seq moves_throw
    | _ => exact moves_throw

end

attribute [instance] moves_check moves_checkAll moves_checkItems

end Trees

/-- From one analyzer to a later one that is back at the same place: the innermost table has got
symbols and those around it have not changed, the loops are the same, and errors have come at the
end. -/
structure Balanced (a b : Analyzer) : Prop where
  outer : b.scope.outer = a.scope.outer
  defined : ∃ symbols, b.scope = a.scope.defineAll symbols
  loopLevel : b.loopLevel = a.loopLevel
  errors : a.errors <+: b.errors

theorem balanced_of_scope {a b : Analyzer} (scope : b.scope = a.scope)
    (loopLevel : b.loopLevel = a.loopLevel) (errors : a.errors <+: b.errors) : Balanced a b :=
  ⟨congrArg Scope.outer scope, ⟨[], scope⟩, loopLevel, errors⟩

theorem Balanced.trans {a b c : Analyzer} (first : Balanced a b) (second : Balanced b c) :
    Balanced a c := by
  obtain ⟨symbols, defined⟩ := first.defined
  obtain ⟨symbols', defined'⟩ := second.defined
  refine ⟨second.outer.trans first.outer, ⟨symbols ++ symbols', ?_⟩,
    second.loopLevel.trans first.loopLevel, first.errors.trans second.errors⟩
  rw [defined', defined, Scope.defineAll, Scope.defineAll, Scope.defineAll, List.foldl_append]

instance : AdmitsJumps Balanced where
  refl _ := balanced_of_scope rfl rfl List.prefix_rfl
  trans := Balanced.trans
  print _ _ := balanced_of_scope rfl rfl List.prefix_rfl
  report _ _ _ := balanced_of_scope rfl rfl (List.prefix_append _ _)
  assign _ _ := balanced_of_scope rfl rfl List.prefix_rfl
  loop inside := ⟨inside.outer, inside.defined, congrArg (· - 1) inside.loopLevel, inside.errors⟩
  complain _ _ := balanced_of_scope rfl rfl (List.prefix_append _ _)

instance : AdmitsNames Balanced where
  number _ := balanced_of_scope rfl rfl List.prefix_rfl
  define _ s := ⟨rfl, ⟨[s], rfl⟩, rfl, List.prefix_rfl⟩
  scope inside :=
    balanced_of_scope (Scope.leave_of_outer inside.outer) inside.loopLevel inside.errors

theorem scope_of_inScope {m : Checking Unit} [balanced : Moves Balanced m] {a b : Analyzer}
    {u : Unit} (run : (inScope m).run a = .ok u b) : b.scope = a.scope := by
  obtain ⟨c, inside, rfl⟩ := run_inScope_ok run
  exact Scope.leave_of_outer (balanced.of_run inside).outer

/-- The check of any tree that ends is balanced. The scopes that it enters are left again: the tables
around the innermost one are those there were, and the innermost is the one there was, with the
symbols that are defined in it. -/
theorem checks_are_balanced (t : Tree) {a b : Analyzer} {v : Value}
    (run : (check t).run a = .ok v b) : Balanced a b := (moves_check t).of_run run

/-- A function whose result is never given, with a loop in its block, checked inside of two loops
and one scope. -/
theorem function_in_loops_balanced :
    let heading := Tree.functionHeading (.str "f") (.type (.str "integer")) (.list [])
    let loop := Tree.whileStatement (.literal (.bool true) (.str "BOOLEAN")) .breakStatement
    let a : Analyzer := { scope := Scope.enter {}, loopLevel := 2, errors := ["earlier"] }
    let t := Tree.functionDeclaration heading (.block .none .none loop .none)
    ∃ v b, (check t).run a = .ok v b ∧
      b.errors = ["earlier", "Function f does not have a return value"] ∧ Balanced a b := by
  intro heading loop a t
  obtain ⟨v, b, run, errors⟩ : ∃ v b, (check t).run a = .ok v b ∧
      b.errors = ["earlier", "Function f does not have a return value"] := ⟨_, _, rfl, rfl⟩
  exact ⟨v, b, run, errors, checks_are_balanced t run⟩

end PascalStack.Analysis
