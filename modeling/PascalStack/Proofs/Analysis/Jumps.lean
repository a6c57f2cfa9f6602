import PascalStack.Proofs.Analysis.Programs

/-!
# Jumps outside of loops

The analysis complains of a jump exactly where no loop is around it, once for each such jump. The
level of loops that an analyzer counts is back at what it was after every check, so inside of loops
it is never zero, and in the statements of a routine it is zero again.
-/

namespace PascalStack.Syntax

/-- The statements that jump out of a run through a loop. -/
inductive Jump
  | leaving
  | continuing
  deriving DecidableEq

def Jump.word : Jump → String
  | .leaving => "Break"
  | .continuing => "Continue"

mutual

def Statement.strays (j : Jump) : Statement → Nat
  | .compound items => Statement.straysAll j items
  | .conditional _ yes no => yes.strays j + no.strays j
  | .breakLoop => if j = .leaving then 1 else 0
  | .continueLoop => if j = .continuing then 1 else 0
  | .whileDo .. | .repeatUntil .. | .forDo .. => 0
  | .empty | .absent | .assign _ | .call .. | .mention _ | .writeln _ | .readln _ => 0

def Statement.straysAll (j : Jump) : List Statement → Nat
  | [] => 0
  | s :: rest => s.strays j + Statement.straysAll j rest

end

mutual

def Block.strays (j : Jump) : Block → Nat
  | .make _ routines body _ => Routine.straysAll j routines + Statement.straysAll j body

def Routine.strays (j : Jump) : Routine → Nat
  | .procedure _ _ block | .function _ _ _ block => block.strays j

def Routine.straysAll (j : Jump) : List Routine → Nat
  | [] => 0
  | r :: rest => r.strays j + Routine.straysAll j rest

end

/-- How many jumps of a kind stand outside of loops. -/
def Program.strays (p : Program) (j : Jump) : Nat := p.block.strays j

end PascalStack.Syntax

namespace PascalStack.Analysis

open Checking Syntax

variable {α β : Type}

def Analyzer.complaints (a : Analyzer) (j : Jump) : Nat := a.errors.count (strayJump j.word)

structure Silent (a b : Analyzer) : Prop where
  level : b.loopLevel = a.loopLevel
  complaints : ∀ j, b.complaints j = a.complaints j

theorem complaints_report (a : Analyzer) (message : String) (j : Jump) :
    Analyzer.complaints { a with errors := a.errors ++ [message] } j =
      a.complaints j + if message = strayJump j.word then 1 else 0 := by
  simp only [Analyzer.complaints, List.count_append, List.count_singleton, beq_iff_eq]

instance : AdmitsValues Silent where
  refl _ := ⟨rfl, fun _ => rfl⟩
  trans first second := ⟨second.level.trans first.level, fun j =>
    (second.complaints j).trans (first.complaints j)⟩
  print _ _ := ⟨rfl, fun _ => rfl⟩
  report a message plain := by
    refine ⟨rfl, fun j => ?_⟩
    have other : message ≠ strayJump j.word := by
      cases j with
      | leaving => exact plain.1
      | continuing => exact plain.2
    rw [complaints_report, if_neg other, Nat.add_zero]
  assign _ _ := ⟨rfl, fun _ => rfl⟩
  loop inside := ⟨congrArg (· - 1) inside.level, inside.complaints⟩

instance : AdmitsNames Silent where
  number _ := ⟨rfl, fun _ => rfl⟩
  define _ _ := ⟨rfl, fun _ => rfl⟩
  scope inside := ⟨inside.level, inside.complaints⟩

/-- A check keeps the level of loops. Outside of loops it complains of jumps as often as is given,
and inside of loops it says nothing of them. -/
def Polices (m : Checking α) (n : Jump → Nat) : Prop :=
  ∀ a v b, m.run a = .ok v b → b.loopLevel = a.loopLevel ∧
    ∀ j, b.complaints j = a.complaints j + if a.loopLevel = 0 then n j else 0

section Rules

variable {m : Checking α} {f : α → Checking β} {n n' : Jump → Nat}

theorem polices_silent [Moves Silent m] : Polices m fun _ => 0 := by
  intro a v b run
  obtain ⟨level, complaints⟩ : Silent a b := Moves.of_run run
  exact ⟨level, fun j => by rw [complaints, ite_self, Nat.add_zero]⟩

theorem Polices.bind (first : Polices m n) (second : ∀ v, Polices (f v) n') :
    Polices (m >>= f) fun j => n j + n' j := by
  intro a v b run
  obtain ⟨u, c, run, run'⟩ := run_bind_ok run
  obtain ⟨level, complaints⟩ := first a u c run
  obtain ⟨level', complaints'⟩ := second u c v b run'
  refine ⟨level'.trans level, fun j => ?_⟩
  rw [complaints', complaints, level, Nat.add_assoc]
  split <;> rfl

theorem Polices.following [Moves Silent m] (second : ∀ {v}, Polices (f v) n) :
    Polices (m >>= f) n := by
  have whole : Polices (m >>= f) _ := polices_silent.bind fun _ => second
  simpa only [Nat.zero_add] using whole

theorem Polices.followed [∀ v, Moves Silent (f v)] (first : Polices m n) : Polices (m >>= f) n :=
  first.bind fun _ => polices_silent

theorem Polices.discard (h : Polices m n) : Polices (discard m) n := by
  intro a v b run
  obtain ⟨u, run⟩ := run_discard_ok run
  exact h a u b run

theorem Polices.inLoop {m : Checking Unit} (h : Polices m n) : Moves Silent (inLoop m) where
  of_run run := by
    obtain ⟨c, inside, rfl⟩ := run_inLoop_ok run
    obtain ⟨level, complaints⟩ := h _ _ _ inside
    refine ⟨congrArg (· - 1) level, fun j => ?_⟩
    exact (complaints j).trans (by rw [if_neg (Nat.succ_ne_zero _)]; rfl)

theorem Polices.inScope {m : Checking Unit} (h : Polices m n) : Polices (inScope m) n := by
  intro a v b run
  obtain ⟨c, inside, rfl⟩ := run_inScope_ok run
  exact h { a with scope := a.scope.enter } () c inside

theorem polices_checkJump (j : Jump) :
    Polices (checkJump j.word) fun i => if i = j then 1 else 0 := by
  intro a v b run
  have opened : (checkJump j.word).run a =
      (if a.loopLevel == 0 then report (strayJump j.word) else pure ()).run a := rfl
  rw [opened] at run
  by_cases outside : a.loopLevel = 0
  · simp only [outside, beq_self_eq_true, if_true] at run
    cases run
    refine ⟨rfl, fun i => ?_⟩
    have same : strayJump j.word = strayJump i.word ↔ i = j := by
      cases i <;> cases j <;> decide +kernel
    rw [if_pos outside]
    exact (complaints_report a _ i).trans (by simp only [same])
  · simp only [beq_iff_eq, outside, if_false] at run
    cases run
    exact ⟨rfl, fun i => by rw [if_neg outside, Nat.add_zero]⟩

end Rules

/-! ## Statements and routines -/

mutual

theorem polices_statement (s : Statement) : Polices (check s.tree) fun j => s.strays j := by
  match s with
  | .compound items => exact (polices_statements items).followed
  | .conditional condition yes no =>
    have other : Polices (whenPresent no.tree (discard (check no.tree))) fun j => no.strays j := by
      rw [whenPresent, truthy_tree]
      cases no with
      | empty => exact polices_silent (m := pure _)
      | absent => exact polices_silent (m := pure _)
      | _ => exact (polices_statement _).discard
    exact .following <| .following <| (polices_statement yes).discard.bind fun _ => other.followed
  | .whileDo condition body =>
    have := (polices_statement body).discard.inLoop
    exact .following <| .following <| polices_silent
  | .repeatUntil body condition =>
    have := ((polices_statement body).discard.followed
      (f := fun _ => check condition.tree >>= checkCondition "repeat")).inLoop
    exact .following polices_silent
  | .forDo start direction limit body =>
    have := (polices_statement body).discard.inLoop
    exact .following <| .following <| .following <| .following polices_silent
  | .breakLoop => exact (polices_checkJump .leaving).followed
  | .continueLoop => exact (polices_checkJump .continuing).followed
  | .empty => exact polices_silent (m := warn _)
  | .absent => exact polices_silent (m := pure _)
  | .assign a => exact polices_silent (m := check a.tree)
  | .call f arguments => exact polices_silent (m := check (Expression.call f arguments).tree)
  | .mention x => exact polices_silent (m := checkName _)
  | .writeln arguments =>
    exact .following (m := whenPresent _ (checkAll andNothing (Expression.trees arguments)))
      polices_silent
  | .readln targets =>
    exact .following (m := whenPresent _ (checkEachTarget (targets.map Variable.tree)))
      polices_silent

theorem polices_statements (items : List Statement) :
    Polices (checkAll andNothing (Statement.trees items)) fun j =>
      Statement.straysAll j items := by
  match items with
  | [] => exact polices_silent (m := pure _)
  | s :: rest => exact (polices_statement s).bind fun _ => .following (polices_statements rest)

end

theorem polices_body (items : List Statement) :
    Polices (discard (check (bodyTree items))) fun j => Statement.straysAll j items :=
  (polices_statements items).followed.discard

section Routines

variable {block : Checking Unit} {n : Jump → Nat}

theorem polices_checkProcedure (routine : Value) (h : Polices block n) :
    Polices (checkProcedure routine block) n :=
  Polices.inScope <| .following <| .following h

theorem polices_checkFunction (routine : Value) (h : Polices block n) :
    Polices (checkFunction routine block) n := by
  cases routine with
  | symbol s =>
    rw [checkFunction_symbol]
    exact Polices.inScope <| .following <| .following <| .following <| .following h.followed
  | _ =>
    intro a v b run
    cases run

end Routines

mutual

theorem polices_block (b : Block) : Polices (check b.tree) fun j => b.strays j := by
  match b with
  | .make declarations routines body extra =>
    have present : Polices (whenPresent (.list (Routine.trees routines))
        (checkItems andNothing (.list (Routine.trees routines)))) fun j =>
        Routine.straysAll j routines := by
      rw [whenPresent, truthy_routines]
      cases routines with
      | nil => exact polices_silent (m := pure _)
      | cons r rest => exact polices_routines (r :: rest)
    refine (Polices.inScope ?_).followed
    exact .following <| present.bind fun _ => .following <| polices_body body

theorem polices_routine (r : Routine) : Polices (check r.tree) fun j => r.strays j := by
  match r with
  | .procedure name parameters block =>
    exact .following (polices_checkProcedure _ (polices_block block).discard).followed
  | .function name result parameters block =>
    exact .following (polices_checkFunction _ (polices_block block).discard).followed

theorem polices_routines (rs : List Routine) :
    Polices (checkAll andNothing (Routine.trees rs)) fun j => Routine.straysAll j rs := by
  match rs with
  | [] => exact polices_silent (m := pure _)
  | r :: rest => exact (polices_routine r).bind fun _ => .following (polices_routines rest)

end

/-- However a program is nested, an analysis that ends has complained of each jump that stands in no
loop, and of no other. -/
theorem stray_jumps_reported (p : Program) {verdict : Bool} {a : Analyzer}
    (run : (analyze p.tree).run {} = .ok verdict a) :
    a.errors.count "Break statement must be inside a loop" = p.strays .leaving ∧
      a.errors.count "Continue statement must be inside a loop" = p.strays .continuing := by
  obtain ⟨v, b, checked, errors, -⟩ := checked_of_analyzed run
  have whole : Polices (check p.tree) fun j => p.strays j :=
    .following (m := discard (pure Value.absent)) (polices_block p.block).discard.followed
  have counted (j : Jump) : a.errors.count (strayJump j.word) = p.strays j := by
    rw [errors]
    exact ((whole _ _ _ checked).2 j).trans (Nat.zero_add _)
  exact ⟨counted .leaving, counted .continuing⟩

def jumpsAround : Program where
  name := "p"
  block := .make []
    [.function (some "f") (.word "integer") []
      (.make [] [] [.conditional (.literal (.truth true)) .breakLoop .absent] none)]
    [.whileDo (.literal (.truth true)) (.compound [.breakLoop, .continueLoop]), .continueLoop,
      .repeatUntil (.conditional (.literal (.truth true)) .breakLoop .continueLoop)
        (.literal (.truth true)), .continueLoop] none

theorem jumpsAround_reported :
    ∃ verdict a, (analyze jumpsAround.tree).run {} = .ok verdict a ∧
      a.errors.count "Break statement must be inside a loop" = 1 ∧
      a.errors.count "Continue statement must be inside a loop" = 2 := by
  have analyzed : ∃ verdict a, (analyze jumpsAround.tree).run {} = .ok verdict a := ⟨_, _, rfl⟩
  obtain ⟨verdict, a, run⟩ := analyzed
  exact ⟨verdict, a, run, stray_jumps_reported jumpsAround run⟩

end PascalStack.Analysis
