import PascalStack.Proofs.Simplify.Expressions
import PascalStack.Proofs.Syntax.Runs

/-!
# Simplified statements keep their runs

A branch that a decided condition chooses is what runs, and a loop that a decided condition never
enters does nothing. A repeated loop whose condition is always true runs its body once, so its body
may stand for it, unless the body has a jump of its own: outside of the loop the jump would leave
the loop around it. Where no such jump is set free, what a statement becomes runs as the statement
does.
-/

namespace PascalStack.Syntax

open Simplify

def Literal.Short : Literal → Prop
  | integer n => n.natAbs < Number.tenTo Fault.digitLimit
  | _ => True

def Expression.Short : Expression → Prop
  | literal l => l.Short
  | name _ => True
  | length operand | negation _ operand | element _ operand => operand.Short
  | operation left _ right => left.Short ∧ right.Short
  | call .. => False

mutual

/-- A statement over plain expressions: it assigns to names, branches, loops, jumps and writes, and
what it writes is made of literals that can be written. -/
def Statement.Plain : Statement → Prop
  | .empty | .absent | .breakLoop | .continueLoop => True
  | .compound items => Statement.AllPlain items
  | .assign ⟨.name _, value⟩ => value.Plain
  | .conditional condition yes no => condition.Plain ∧ yes.Plain ∧ no.Plain
  | .whileDo condition body | .repeatUntil body condition => condition.Plain ∧ body.Plain
  | .forDo ⟨.name _, start⟩ _ limit body => start.Plain ∧ limit.Plain ∧ body.Plain
  | .writeln arguments => ∀ e ∈ arguments, e.Plain ∧ e.Short
  | _ => False

def Statement.AllPlain : List Statement → Prop
  | [] => True
  | s :: rest => s.Plain ∧ Statement.AllPlain rest

end

mutual

/-- No jump is set free: where the condition of a repeated loop is found to be true, what its body
becomes has no jump of its own. -/
def Statement.KeepsJumps : Statement → Prop
  | .compound items => Statement.AllKeepJumps items
  | .conditional _ yes no => yes.KeepsJumps ∧ no.KeepsJumps
  | .whileDo _ body | .forDo _ _ _ body => body.KeepsJumps
  | .repeatUntil body condition => body.KeepsJumps ∧
    ∀ body', body.Becomes body' → condition.Becomes (.verdict true) → body'.jumps = false
  | _ => True

def Statement.AllKeepJumps : List Statement → Prop
  | [] => True
  | s :: rest => s.KeepsJumps ∧ Statement.AllKeepJumps rest

end

variable {es : List Expression} {limit limit' e : Expression} {s : Statement}
  {rest : List Statement} {b : Bool}

section Runs

variable {rule : LimitRule} {σ σ₁ σ₂ : Environment} {out out' : List Line} {o : Outcome}

theorem values_of_allBecome {es' : List Expression} (become : Expression.AllBecome es es')
    {vs : List Datum} (values : List.Forall₂ (fun e v => e.eval σ = some v) es vs) :
    List.Forall₂ (fun e v => e.eval σ = some v) es' vs := by
  induction values generalizing es' with
  | nil =>
    cases become
    exact .nil
  | cons head _ ih =>
    obtain ⟨e', rest', becomes, become, rfl⟩ := become
    exact .cons (eval_of_becomes _ becomes head) (ih become)

theorem value_of_becomes (becomes : limit.Becomes limit') {d : Datum}
    (value : rule.value limit σ σ₁ = some d) : rule.value limit' σ σ₁ = some d := by
  cases rule <;> exact eval_of_becomes limit becomes value

theorem later_becomes (becomes : limit.Becomes limit') (n : Int) :
    (rule.later limit n).Becomes (rule.later limit' n) := by
  cases rule with
  | once => exact rfl
  | always => exact becomes

theorem Runs.of_not_isPresent (missing : s.isPresent = false) (run : Runs rule s σ out o σ₁) :
    out = [] ∧ o = .normal ∧ σ₁ = σ := by
  cases s <;> cases missing <;> cases run <;> exact ⟨rfl, rfl, rfl⟩

theorem Runs.next_filter (head : Runs rule s σ out .normal σ₁)
    (tail : Runs rule (.compound (rest.filter Statement.isPresent)) σ₁ out' o σ₂) :
    Runs rule (.compound ((s :: rest).filter Statement.isPresent)) σ (out ++ out') o σ₂ := by
  rw [List.filter_cons]
  split
  · exact .next head tail
  · rename_i missing
    obtain ⟨rfl, -, rfl⟩ := head.of_not_isPresent (Bool.not_eq_true _ ▸ missing)
    exact tail

theorem Runs.cut_filter (head : Runs rule s σ out o σ₁) (abrupt : o ≠ .normal) :
    Runs rule (.compound ((s :: rest).filter Statement.isPresent)) σ out o σ₁ := by
  rw [List.filter_cons]
  split
  · exact .cut head abrupt
  · rename_i missing
    exact absurd (head.of_not_isPresent (Bool.not_eq_true _ ▸ missing)).2.1 abrupt

theorem decides_of_eval {c c' : Expression} {d : Bool} (becomes : c.Becomes c')
    (value : c.eval σ = some (.truth b)) (decided : c'.decides d = true) : b = d := by
  have found := eval_of_becomes c becomes value
  rw [Expression.decides_iff.mp decided] at found
  cases found
  rfl

theorem Runs.of_becomes {s' : Statement} (run : Runs rule s σ out o σ₁) (becomes : s.Becomes s')
    (keeps : s.KeepsJumps) : Runs rule s' σ out o σ₁ := by
  induction run generalizing s' with
  | empty | absent | breakLoop | continueLoop =>
    cases becomes
    constructor
  | finished =>
    obtain ⟨items, rfl, rfl⟩ := becomes
    exact .finished
  | next _ _ ih ih' =>
    obtain ⟨_, ⟨s', rest', head, tail, rfl⟩, rfl⟩ := becomes
    exact (ih head keeps.1).next_filter (ih' ⟨rest', tail, rfl⟩ keeps.2)
  | cut _ abrupt ih =>
    obtain ⟨_, ⟨s', rest', head, tail, rfl⟩, rfl⟩ := becomes
    exact (ih head keeps.1).cut_filter abrupt
  | assign value =>
    obtain ⟨⟨target, e⟩, ⟨rfl, becomes⟩, rfl⟩ := becomes
    exact .assign (eval_of_becomes _ becomes value)
  | yes chosen branch ih =>
    obtain ⟨c', condition, becomes⟩ := becomes
    split at becomes
    · exact ih becomes keeps.1
    · split at becomes
      · rename_i decided
        cases decides_of_eval condition chosen decided
      · obtain ⟨yes', no', first, second, rfl⟩ := becomes
        exact .yes (eval_of_becomes _ condition chosen) (ih first keeps.1)
  | no chosen branch ih =>
    obtain ⟨c', condition, becomes⟩ := becomes
    split at becomes
    · rename_i decided
      cases decides_of_eval condition chosen decided
    · split at becomes
      · split at becomes
        · exact ih becomes keeps.2
        · rename_i missing
          obtain ⟨rfl, rfl, rfl⟩ := branch.of_not_isPresent (Bool.not_eq_true _ ▸ missing)
          cases becomes
          exact .absent
      · obtain ⟨yes', no', first, second, rfl⟩ := becomes
        exact .no (eval_of_becomes _ condition chosen) (ih second keeps.2)
  | whileDone done =>
    obtain ⟨c', condition, becomes⟩ := becomes
    split at becomes
    · cases becomes
      exact .absent
    · obtain ⟨body', inside, rfl⟩ := becomes
      exact .whileDone (eval_of_becomes _ condition done)
  | whileRound more _ stays _ ih ih' =>
    have again := ih' becomes keeps
    obtain ⟨c', condition, becomes⟩ := becomes
    split at becomes
    · rename_i decided
      cases decides_of_eval condition more decided
    · obtain ⟨body', inside, rfl⟩ := becomes
      exact .whileRound (eval_of_becomes _ condition more) (ih inside keeps) stays again
  | whileBroken more _ ih =>
    obtain ⟨c', condition, becomes⟩ := becomes
    split at becomes
    · rename_i decided
      cases decides_of_eval condition more decided
    · obtain ⟨body', inside, rfl⟩ := becomes
      exact .whileBroken (eval_of_becomes _ condition more) (ih inside keeps)
  | repeatDone _ stays done ih =>
    obtain ⟨body', c', inside, condition, rfl⟩ := becomes
    have body := ih inside keeps.1
    split
    · rename_i decided
      -- The body stands for the loop, and ends normally as it has no jump of its own.
      cases Expression.decides_iff.mp decided
      cases body.normal (keeps.2 body' inside condition)
      exact body
    · exact .repeatDone body stays (eval_of_becomes _ condition done)
  | repeatRound _ stays more _ ih ih' =>
    have again := ih' becomes keeps
    obtain ⟨body', c', inside, condition, rfl⟩ := becomes
    split at again
    · rename_i decided
      cases decides_of_eval condition more decided
    · rename_i undecided
      rw [if_neg undecided]
      exact .repeatRound (ih inside keeps.1) stays (eval_of_becomes _ condition more) again
  | repeatBroken _ ih =>
    obtain ⟨body', c', inside, condition, rfl⟩ := becomes
    have body := ih inside keeps.1
    split
    · rename_i decided
      cases Expression.decides_iff.mp decided
      cases body.normal (keeps.2 body' inside condition)
    · exact .repeatBroken body
  | forDone start limit step past =>
    obtain ⟨⟨_, start'⟩, limit', body', ⟨rfl, first⟩, second, inside, rfl⟩ := becomes
    exact .forDone (eval_of_becomes _ first start) (value_of_becomes second limit) step past
  | forRound start limit step within _ stays count _ ih ih' =>
    obtain ⟨⟨_, start'⟩, limit', body', ⟨rfl, first⟩, second, inside, rfl⟩ := becomes
    have again := ih' ⟨⟨.name _, .numeral _⟩, _, body', ⟨rfl, rfl⟩, later_becomes second _, inside, rfl⟩
      keeps
    exact .forRound (eval_of_becomes _ first start) (value_of_becomes second limit) step within
      (ih inside keeps) stays count again
  | forBroken start limit step within _ ih =>
    obtain ⟨⟨_, start'⟩, limit', body', ⟨rfl, first⟩, second, inside, rfl⟩ := becomes
    exact .forBroken (eval_of_becomes _ first start) (value_of_becomes second limit) step within
      (ih inside keeps)
  | writeln values =>
    obtain ⟨arguments', become, rfl⟩ := becomes
    exact .writeln (values_of_allBecome become values)

end Runs

/-! ## Plain statements are simplified -/

theorem render_short (e : Expression) (plain : e.Plain) (short : e.Short) :
    ∃ text, e.tree.render false = .ok text := by
  match e with
  | .literal (.integer n) =>
    have number : Number.integerText n = .ok (toString n) := if_pos short
    exact ⟨_, by simp only [Expression.tree, Literal.tree, Literal.value, Tree.render, number]; rfl⟩
  | .literal (.truth b) => exact ⟨_, rfl⟩
  | .literal (.verdict b) => exact ⟨_, rfl⟩
  | .literal (.phrase s) => exact ⟨_, rfl⟩
  | .name x => exact ⟨_, rfl⟩
  | .length operand =>
    obtain ⟨text, written⟩ := render_short operand plain short
    exact ⟨_, by rw [Expression.tree, Tree.render, written]; rfl⟩
  | .negation sign operand =>
    obtain ⟨text, written⟩ := render_short operand plain.2 short
    exact ⟨_, by rw [Expression.tree, Tree.render, written]; rfl⟩
  | .operation left op right =>
    obtain ⟨first, written⟩ := render_short left plain.1 short.1
    obtain ⟨second, written'⟩ := render_short right plain.2.2 short.2
    exact ⟨_, by rw [Expression.tree, Tree.render, written, written']; rfl⟩

section Returns

variable {α β : Type}

def Returns (c : Printing α) : Prop := ∀ printed, ∃ a printed', c printed = .ok a printed'

theorem returns_pure (a : α) : Returns (pure a : Printing α) := fun printed => ⟨a, printed, rfl⟩

theorem Returns.bind {c : Printing α} {k : α → Printing β} (first : Returns c)
    (second : ∀ a, Returns (k a)) : Returns (c >>= k) := by
  intro printed
  obtain ⟨a, printed₁, run⟩ := first printed
  obtain ⟨b, printed₂, run'⟩ := second a printed₁
  refine ⟨b, printed₂, ?_⟩
  simp only [Bind.bind, EStateM.bind, run]
  exact run'

theorem Returns.ite {c c' : Printing α} (yes : Returns c) (no : Returns c') :
    Returns (if b then c else c') := by
  cases b
  · exact no
  · exact yes

end Returns

theorem returns_expression (plain : e.Plain) : Returns (simplify e.tree) := by
  obtain ⟨e', given, -⟩ := simplify_plain e plain
  exact given ▸ returns_pure e'.tree

theorem returns_announce (plain : e.Plain) (short : e.Short) : Returns (announce e.tree) := by
  obtain ⟨text, written⟩ := render_short e plain short
  have known : announce e.tree = Printing.write s!"PARAM\n:{text}\nEND\n" := by
    rw [announce, Tree.text, written]
    rfl
  rw [known]
  exact fun printed => ⟨(), _, rfl⟩

theorem returns_arguments (all : ∀ e ∈ es, e.Plain ∧ e.Short) :
    Returns (simplifyAll announce (Expression.trees es)) := by
  induction es with
  | nil => exact returns_pure []
  | cons e rest ih =>
    obtain ⟨⟨plain, short⟩, all⟩ := List.forall_mem_cons.mp all
    rw [Expression.trees, simplifyAll]
    exact (returns_announce plain short).bind fun _ => (returns_expression plain).bind fun _ =>
      (ih all).bind fun _ => returns_pure _

mutual

theorem returns_statement (s : Statement) (plain : s.Plain) : Returns (simplify s.tree) := by
  match s with
  | .empty => exact returns_pure _
  | .absent => exact returns_pure _
  | .breakLoop => exact returns_pure _
  | .continueLoop => exact returns_pure _
  | .compound items =>
    rw [Statement.tree, simplify, simplify]
    exact ((returns_statements items plain).bind fun _ => returns_pure _).bind fun _ =>
      returns_pure _
  | .assign ⟨.name x, value⟩ =>
    rw [Statement.tree, Assignment.tree, simplify]
    exact (returns_pure _).bind fun _ => (returns_expression plain).bind fun _ => returns_pure _
  | .conditional condition yes no =>
    obtain ⟨first, second, third⟩ := plain
    rw [Statement.tree, simplify]
    refine (returns_expression first).bind fun _ => .ite (returns_statement yes second) (.ite ?_ ?_)
    · exact .ite (returns_statement no third) (returns_pure _)
    · refine (returns_statement yes second).bind fun _ => .ite ?_ ?_
      · exact (returns_statement no third).bind fun _ => returns_pure _
      · exact (returns_pure _).bind fun _ => returns_pure _
  | .whileDo condition body =>
    rw [Statement.tree, simplify]
    exact (returns_expression plain.1).bind fun _ =>
      .ite (returns_pure _) ((returns_statement body plain.2).bind fun _ => returns_pure _)
  | .repeatUntil body condition =>
    rw [Statement.tree, simplify]
    exact (returns_statement body plain.2).bind fun _ =>
      (returns_expression plain.1).bind fun _ => returns_pure _
  | .forDo ⟨.name x, start⟩ direction limit body =>
    obtain ⟨first, second, third⟩ := plain
    rw [Statement.tree, Assignment.tree, simplify, simplify]
    exact ((returns_pure _).bind fun _ => (returns_expression first).bind fun _ =>
      returns_pure _).bind fun _ => (returns_expression second).bind fun _ =>
        (returns_statement body third).bind fun _ => returns_pure _
  | .writeln arguments =>
    rw [Statement.tree, simplify, present, simplifyItems]
    exact Returns.bind (.ite ((returns_arguments plain).bind fun _ => returns_pure _)
      (returns_pure _)) fun _ => returns_pure _

theorem returns_statements (ss : List Statement) (plain : Statement.AllPlain ss) :
    Returns (simplifyAll silent (Statement.trees ss)) := by
  match ss with
  | [] => exact returns_pure []
  | s :: rest =>
    rw [Statement.trees, simplifyAll]
    exact (returns_pure ()).bind fun _ => (returns_statement s plain.1).bind fun _ =>
      (returns_statements rest plain.2).bind fun _ => returns_pure _

end

/-- A plain statement that sets no jump free is simplified without a fault, to a statement that runs
as it does wherever it runs. -/
theorem simplified_statement_keeps_runs (s : Statement) (plain : s.Plain) (keeps : s.KeepsJumps)
    (printed : String) :
    ∃ (s' : Statement) (printed' : String), simplify s.tree printed = .ok s'.tree printed' ∧
      ∀ rule σ out o σ₁, Runs rule s σ out o σ₁ →
        ∀ out' o' σ₂, Runs rule s' σ out' o' σ₂ ↔ out' = out ∧ o' = o ∧ σ₂ = σ₁ := by
  obtain ⟨t, printed', given⟩ := returns_statement s plain printed
  obtain ⟨s', rfl, becomes, -⟩ := simplify_statement s printed t printed' given
  refine ⟨s', printed', given, fun rule σ out o σ₁ run out' o' σ₂ => ?_⟩
  have kept := run.of_becomes becomes keeps
  constructor
  · intro other
    exact other.unique kept
  · rintro ⟨rfl, rfl, rfl⟩
    exact kept

def oneIsOne : Expression := .operation (.numeral 1) "=" (.numeral 1)

def countUp : Statement := .assign ⟨.name "x", .operation (.name "x") "+" (.numeral 1)⟩

def countThenLeave : Statement :=
  .whileDo (.operation (.name "x") "<" (.numeral 3))
    (.compound [.repeatUntil countUp oneIsOne, .breakLoop])

theorem countThenLeave_keeps_runs :
    countThenLeave.Plain ∧ countThenLeave.KeepsJumps ∧
    ∃ (s' : Statement) (printed' : String), simplify countThenLeave.tree "" = .ok s'.tree printed' ∧
      ∀ rule σ out o σ₁, Runs rule countThenLeave σ out o σ₁ →
        ∀ out' o' σ₂, Runs rule s' σ out' o' σ₂ ↔ out' = out ∧ o' = o ∧ σ₂ = σ₁ :=
  have plain : countThenLeave.Plain :=
    ⟨⟨trivial, rfl, rfl⟩, ⟨⟨rfl, rfl, rfl⟩, trivial, rfl, rfl⟩, trivial, trivial⟩
  have keeps : countThenLeave.KeepsJumps := by
    refine ⟨⟨trivial, ?_⟩, trivial, trivial⟩
    rintro _ ⟨a, -, rfl⟩ -
    rfl
  ⟨plain, keeps, simplified_statement_keeps_runs countThenLeave plain keeps ""⟩

def leaveThenCount : Statement :=
  .whileDo (.operation (.name "x") "<" (.numeral 1))
    (.compound [.repeatUntil .breakLoop oneIsOne, countUp])

/-- The jump out of the inner loop becomes one out of the outer loop, before the count. -/
theorem simplified_jump_leaves_outer_loop :
    ∃ s' : Statement, leaveThenCount.Plain ∧ simplify leaveThenCount.tree "" = .ok s'.tree "" ∧
      ∀ rule, ∃ σ σ₁, Runs rule leaveThenCount σ [] .normal σ₁ ∧
        Runs rule s' σ [] .normal σ ∧ ¬ Runs rule s' σ [] .normal σ₁ := by
  refine ⟨.whileDo (.operation (.name "x") "<" (.numeral 1)) (.compound [.breakLoop, countUp]),
    ⟨⟨trivial, rfl, rfl⟩, ⟨⟨rfl, rfl, rfl⟩, trivial⟩, ⟨trivial, rfl, rfl⟩, trivial⟩, rfl,
    fun rule => ⟨fun _ => .number 0, Function.update (fun _ => .number 0) "x" (.number 1), ?_⟩⟩
  have round : Runs rule (.compound [.repeatUntil .breakLoop oneIsOne, countUp])
      (fun _ => .number 0) [] .normal (Function.update (fun _ => .number 0) "x" (.number 1)) :=
    have count : Runs rule (.compound [countUp]) (fun _ => .number 0) ([] ++ []) .normal
        (Function.update (fun _ => .number 0) "x" (.number 1)) := .next (.assign rfl) .finished
    .next (.repeatBroken .breakLoop) count
  have left : Runs rule (.whileDo (.operation (.name "x") "<" (.numeral 1))
      (.compound [.breakLoop, countUp])) (fun _ => .number 0) [] .normal (fun _ => .number 0) :=
    .whileBroken rfl (.cut .breakLoop Outcome.noConfusion)
  refine ⟨.whileRound rfl round Outcome.noConfusion (.whileDone rfl), left, fun other => ?_⟩
  have same := congrFun (left.unique other).2.2 "x"
  rw [Function.update_self] at same
  cases same

end PascalStack.Syntax
