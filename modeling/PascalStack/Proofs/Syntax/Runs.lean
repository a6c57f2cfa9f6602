import Mathlib.Data.List.Forall2
import PascalStack.Proofs.Syntax.Folding
import PascalStack.Proofs.Syntax.Meaning

/-!
# Runs of statements

How statements run: what they store and write, and whether they end normally or by leaving a round
of the loop around them. A statement that meets an error has no run. The limit of a counted loop is
found once, before the first round, or again before every round; what is proved here holds of both.
-/

namespace PascalStack.Syntax

/-- How a statement ends. -/
inductive Outcome where
  | normal
  | broken
  | continued
  deriving DecidableEq, Repr

inductive LimitRule where
  | once
  | always
  deriving DecidableEq, Repr

def LimitRule.value (rule : LimitRule) (limit : Expression) (first now : Environment) :
    Option Datum :=
  match rule with
  | once => limit.eval first
  | always => limit.eval now

def LimitRule.later (rule : LimitRule) (limit : Expression) (n : Int) : Expression :=
  match rule with
  | once => .numeral n
  | always => limit

/-- What is added in a counted loop after every round. The letters of the word may be of any
case. -/
def step? (direction : String) : Option Int :=
  match Operator.capital direction with
  | "TO" => some 1
  | "DOWNTO" => some (-1)
  | _ => none

def Past (step i limit : Int) : Prop := if step < 0 then i < limit else limit < i

abbrev Line := List Datum

/-- A run of a statement: from values of the names to lines of output, an outcome and new values of
the names. A counted loop goes on, after a round, as the loop from the next number on. -/
inductive Runs (rule : LimitRule) :
    Statement → Environment → List Line → Outcome → Environment → Prop
  | empty {σ} : Runs rule .empty σ [] .normal σ
  | absent {σ} : Runs rule .absent σ [] .normal σ
  | finished {σ} : Runs rule (.compound []) σ [] .normal σ
  | next {s rest σ σ₁ σ₂ out out' o} : Runs rule s σ out .normal σ₁ →
      Runs rule (.compound rest) σ₁ out' o σ₂ → Runs rule (.compound (s :: rest)) σ (out ++ out') o σ₂
  | cut {s rest σ σ₁ out o} : Runs rule s σ out o σ₁ → o ≠ .normal →
      Runs rule (.compound (s :: rest)) σ out o σ₁
  | assign {x e σ v} : e.eval σ = some v →
      Runs rule (.assign ⟨.name x, e⟩) σ [] .normal (Function.update σ x v)
  | yes {c yes no σ σ₁ out o} : c.eval σ = some (.truth true) → Runs rule yes σ out o σ₁ →
      Runs rule (.conditional c yes no) σ out o σ₁
  | no {c yes no σ σ₁ out o} : c.eval σ = some (.truth false) → Runs rule no σ out o σ₁ →
      Runs rule (.conditional c yes no) σ out o σ₁
  | whileDone {c body σ} : c.eval σ = some (.truth false) →
      Runs rule (.whileDo c body) σ [] .normal σ
  | whileRound {c body σ σ₁ σ₂ out out' o} : c.eval σ = some (.truth true) →
      Runs rule body σ out o σ₁ → o ≠ .broken → Runs rule (.whileDo c body) σ₁ out' .normal σ₂ →
      Runs rule (.whileDo c body) σ (out ++ out') .normal σ₂
  | whileBroken {c body σ σ₁ out} : c.eval σ = some (.truth true) →
      Runs rule body σ out .broken σ₁ → Runs rule (.whileDo c body) σ out .normal σ₁
  | repeatDone {c body σ σ₁ out o} : Runs rule body σ out o σ₁ → o ≠ .broken →
      c.eval σ₁ = some (.truth true) → Runs rule (.repeatUntil body c) σ out .normal σ₁
  | repeatRound {c body σ σ₁ σ₂ out out' o} : Runs rule body σ out o σ₁ → o ≠ .broken →
      c.eval σ₁ = some (.truth false) → Runs rule (.repeatUntil body c) σ₁ out' .normal σ₂ →
      Runs rule (.repeatUntil body c) σ (out ++ out') .normal σ₂
  | repeatBroken {c body σ σ₁ out} : Runs rule body σ out .broken σ₁ →
      Runs rule (.repeatUntil body c) σ out .normal σ₁
  | forDone {x start direction step limit body σ i n} : start.eval σ = some (.number i) →
      rule.value limit σ (Function.update σ x (.number i)) = some (.number n) →
      step? direction = some step → Past step i n →
      Runs rule (.forDo ⟨.name x, start⟩ direction limit body) σ [] .normal
        (Function.update σ x (.number i))
  | forRound {x start direction step limit body σ σ₁ σ₂ i n j out out' o} :
      start.eval σ = some (.number i) →
      rule.value limit σ (Function.update σ x (.number i)) = some (.number n) →
      step? direction = some step → ¬ Past step i n →
      Runs rule body (Function.update σ x (.number i)) out o σ₁ → o ≠ .broken →
      σ₁ x = .number j →
      Runs rule (.forDo ⟨.name x, .numeral (j + step)⟩ direction (rule.later limit n) body)
        σ₁ out' .normal σ₂ →
      Runs rule (.forDo ⟨.name x, start⟩ direction limit body) σ (out ++ out') .normal σ₂
  | forBroken {x start direction step limit body σ σ₁ i n out} :
      start.eval σ = some (.number i) →
      rule.value limit σ (Function.update σ x (.number i)) = some (.number n) →
      step? direction = some step → ¬ Past step i n →
      Runs rule body (Function.update σ x (.number i)) out .broken σ₁ →
      Runs rule (.forDo ⟨.name x, start⟩ direction limit body) σ out .normal σ₁
  | writeln {arguments values σ} :
      List.Forall₂ (fun e v => e.eval σ = some v) arguments values →
      Runs rule (.writeln arguments) σ [values] .normal σ
  | breakLoop {σ} : Runs rule .breakLoop σ [] .broken σ
  | continueLoop {σ} : Runs rule .continueLoop σ [] .continued σ

variable {σ σ₁ : Environment} {rule : LimitRule} {s : Statement} {out : List Line} {o : Outcome}

theorem values_unique {arguments : List Expression} {vs ws : List Datum}
    (first : List.Forall₂ (fun e v => e.eval σ = some v) arguments vs)
    (second : List.Forall₂ (fun e v => e.eval σ = some v) arguments ws) : vs = ws := by
  induction first generalizing ws with
  | nil =>
    cases second
    rfl
  | cons head _ ih =>
    cases second with
    | cons head' rest' =>
      rw [Option.some_inj.mp (head.symm.trans head'), ih rest']

theorem Runs.unique {σ₂ : Environment} {out' : List Line} {o' : Outcome}
    (first : Runs rule s σ out o σ₁) (second : Runs rule s σ out' o' σ₂) :
    out = out' ∧ o = o' ∧ σ₁ = σ₂ := by
  induction first generalizing out' o' σ₂ with
  | empty | absent | finished | breakLoop | continueLoop =>
    cases second
    exact ⟨rfl, rfl, rfl⟩
  | next head _ ih ih' =>
    cases second with
    | next head' rest' =>
      obtain ⟨rfl, -, rfl⟩ := ih head'
      obtain ⟨rfl, rfl, rfl⟩ := ih' rest'
      exact ⟨rfl, rfl, rfl⟩
    | cut head' abrupt => exact absurd (ih head').2.1.symm abrupt
  | cut head abrupt ih =>
    cases second with
    | next head' rest' => exact absurd (ih head').2.1 abrupt
    | cut head' abrupt' => exact ih head'
  | assign value =>
    cases second with
    | assign value' =>
      cases value.symm.trans value'
      exact ⟨rfl, rfl, rfl⟩
  | yes chosen _ ih =>
    cases second with
    | yes _ branch => exact ih branch
    | no chosen' _ => cases chosen.symm.trans chosen'
  | no chosen _ ih =>
    cases second with
    | yes chosen' _ => cases chosen.symm.trans chosen'
    | no _ branch => exact ih branch
  | whileDone done =>
    cases second with
    | whileDone => exact ⟨rfl, rfl, rfl⟩
    | whileRound more | whileBroken more => cases done.symm.trans more
  | whileRound more _ stays _ ih ih' =>
    cases second with
    | whileDone done => cases more.symm.trans done
    | whileRound _ body' _ rest' =>
      obtain ⟨rfl, -, rfl⟩ := ih body'
      obtain ⟨rfl, -, rfl⟩ := ih' rest'
      exact ⟨rfl, rfl, rfl⟩
    | whileBroken _ body' => exact absurd (ih body').2.1 stays
  | whileBroken more _ ih =>
    cases second with
    | whileDone done => cases more.symm.trans done
    | whileRound _ body' stays _ => exact absurd (ih body').2.1.symm stays
    | whileBroken _ body' =>
      obtain ⟨rfl, -, rfl⟩ := ih body'
      exact ⟨rfl, rfl, rfl⟩
  | repeatDone _ stays done ih =>
    cases second with
    | repeatDone body' _ _ =>
      obtain ⟨rfl, -, rfl⟩ := ih body'
      exact ⟨rfl, rfl, rfl⟩
    | repeatRound body' _ more _ =>
      obtain ⟨rfl, -, rfl⟩ := ih body'
      cases done.symm.trans more
    | repeatBroken body' => exact absurd (ih body').2.1 stays
  | repeatRound _ stays more _ ih ih' =>
    cases second with
    | repeatDone body' _ done =>
      obtain ⟨rfl, -, rfl⟩ := ih body'
      cases done.symm.trans more
    | repeatRound body' _ _ rest' =>
      obtain ⟨rfl, -, rfl⟩ := ih body'
      obtain ⟨rfl, -, rfl⟩ := ih' rest'
      exact ⟨rfl, rfl, rfl⟩
    | repeatBroken body' => exact absurd (ih body').2.1 stays
  | repeatBroken _ ih =>
    cases second with
    | repeatDone body' stays _ | repeatRound body' stays _ _ =>
      exact absurd (ih body').2.1.symm stays
    | repeatBroken body' =>
      obtain ⟨rfl, -, rfl⟩ := ih body'
      exact ⟨rfl, rfl, rfl⟩
  | forDone start limit step past =>
    cases second with
    | forDone start' _ _ _ =>
      cases start.symm.trans start'
      exact ⟨rfl, rfl, rfl⟩
    | forRound start' limit' step' within | forBroken start' limit' step' within =>
      cases start.symm.trans start'
      cases limit.symm.trans limit'
      cases step.symm.trans step'
      exact absurd past within
  | forRound start limit step within _ stays count _ ih ih' =>
    cases second with
    | forDone start' limit' step' past =>
      cases start.symm.trans start'
      cases limit.symm.trans limit'
      cases step.symm.trans step'
      exact absurd past within
    | forRound start' limit' step' _ body' _ count' rest' =>
      cases start.symm.trans start'
      cases limit.symm.trans limit'
      cases step.symm.trans step'
      obtain ⟨rfl, -, rfl⟩ := ih body'
      cases count.symm.trans count'
      obtain ⟨rfl, -, rfl⟩ := ih' rest'
      exact ⟨rfl, rfl, rfl⟩
    | forBroken start' limit' step' _ body' =>
      cases start.symm.trans start'
      exact absurd (ih body').2.1 stays
  | forBroken start limit step within _ ih =>
    cases second with
    | forDone start' limit' step' past =>
      cases start.symm.trans start'
      cases limit.symm.trans limit'
      cases step.symm.trans step'
      exact absurd past within
    | forRound start' limit' step' _ body' stays _ _ =>
      cases start.symm.trans start'
      exact absurd (ih body').2.1.symm stays
    | forBroken start' limit' step' _ body' =>
      cases start.symm.trans start'
      obtain ⟨rfl, -, rfl⟩ := ih body'
      exact ⟨rfl, rfl, rfl⟩
  | writeln values =>
    cases second with
    | writeln values' =>
      cases values_unique values values'
      exact ⟨rfl, rfl, rfl⟩

mutual

def Statement.jumps : Statement → Bool
  | .breakLoop | .continueLoop => true
  | .compound items => Statement.anyJumps items
  | .conditional _ yes no => yes.jumps || no.jumps
  | _ => false

def Statement.anyJumps : List Statement → Bool
  | [] => false
  | s :: rest => s.jumps || Statement.anyJumps rest

end

theorem Runs.normal (run : Runs rule s σ out o σ₁) (stays : s.jumps = false) : o = .normal := by
  induction run with
  | breakLoop | continueLoop => cases stays
  | next _ _ _ ih =>
    rw [Statement.jumps, Statement.anyJumps, Bool.or_eq_false_iff] at stays
    exact ih stays.2
  | cut _ _ ih =>
    rw [Statement.jumps, Statement.anyJumps, Bool.or_eq_false_iff] at stays
    exact ih stays.1
  | yes _ _ ih =>
    rw [Statement.jumps, Bool.or_eq_false_iff] at stays
    exact ih stays.1
  | no _ _ ih =>
    rw [Statement.jumps, Bool.or_eq_false_iff] at stays
    exact ih stays.2
  | _ => rfl

end PascalStack.Syntax
