import Mathlib.Data.List.Basic
import PascalStack.Proofs.Pascal.Derivation

/-!
# What the rules build

Most rules build a tree and print nothing. A loop that is left is announced; the cases of a choice
cannot be built, so nothing with a choice in it has a value.
-/

namespace PascalStack.Pascal

open Build

def leavingLine : String := "Break statement: BREAK\n"

def Quiet (build : Build) : Prop := ∀ arguments, ∃ value, ∀ out, build arguments out = .ok value out

@[simp] theorem quiet_always (t : Tree) : Quiet (always t) := fun _ => ⟨_, fun _ => rfl⟩

@[simp] theorem quiet_copy (i : Nat) : Quiet (copy i) := fun _ => ⟨_, fun _ => rfl⟩

@[simp] theorem quiet_node1 (f : Tree → Tree) (i : Nat) : Quiet (node1 f i) :=
  fun _ => ⟨_, fun _ => rfl⟩

@[simp] theorem quiet_node2 (f : Tree → Tree → Tree) (i j : Nat) : Quiet (node2 f i j) :=
  fun _ => ⟨_, fun _ => rfl⟩

@[simp] theorem quiet_node3 (f : Tree → Tree → Tree → Tree) (i j k : Nat) :
    Quiet (node3 f i j k) := fun _ => ⟨_, fun _ => rfl⟩

@[simp] theorem quiet_node4 (f : Tree → Tree → Tree → Tree → Tree) (i j k l : Nat) :
    Quiet (node4 f i j k l) := fun _ => ⟨_, fun _ => rfl⟩

variable {value : Tree} {R : Part → Tree → Prop} {G : List Tree → Prop} {p : Part}
  {parts : List Part} {r : Nat} {rule : Rule} {tokens : List Token} {values : List Tree}

section Values

variable (arguments : List Tree)

@[simp] theorem run_always (t : Tree) : (always t arguments).run.1 = .ok t := rfl

@[simp] theorem run_copy (i : Nat) : (copy i arguments).run.1 = .ok (part i arguments) := rfl

@[simp] theorem run_node1 (f : Tree → Tree) (i : Nat) :
    (node1 f i arguments).run.1 = .ok (f (part i arguments)) := rfl

@[simp] theorem run_node2 (f : Tree → Tree → Tree) (i j : Nat) :
    (node2 f i j arguments).run.1 = .ok (f (part i arguments) (part j arguments)) := rfl

@[simp] theorem run_node3 (f : Tree → Tree → Tree → Tree) (i j k : Nat) :
    (node3 f i j k arguments).run.1 =
      .ok (f (part i arguments) (part j arguments) (part k arguments)) := rfl

@[simp] theorem run_node4 (f : Tree → Tree → Tree → Tree → Tree) (i j k l : Nat) :
    (node4 f i j k l arguments).run.1 =
      .ok (f (part i arguments) (part j arguments) (part k arguments) (part l arguments)) := rfl

@[simp] theorem run_leaving : (leaving arguments).run.1 = .ok .breakStatement := rfl

@[simp] theorem run_option :
    (option arguments).run.1 = .error (.noAttribute (part 0 arguments).kindName "type") := rfl

theorem run_choice {arguments : List Tree} (built : (choice arguments).run.1 = .ok value) :
    value = .caseStatement (part 1 arguments) (part 3 arguments) := by
  cases subject : (part 1 arguments).text with
  | error fault =>
    rw [choice, subject] at built
    cases built
  | ok first =>
    cases options : (part 3 arguments).text with
    | error fault =>
      rw [choice, subject, options] at built
      cases built
    | ok second =>
      rw [choice, subject, options] at built
      cases built
      rfl

end Values

theorem statementsOf_cases (t : Tree) : t = .list t.statementsOf ∨ t.statementsOf = [t] := by
  cases t with
  | list items => exact .inl rfl
  | _ => exact .inr rfl

theorem consItem_eq (item items : Tree) : consItem item items = .list (item :: items.statementsOf) := by
  cases items <;> rfl

theorem snocItem_eq (items item : Tree) :
    snocItem items item = .list (items.statementsOf ++ [item]) := by
  cases items <;> rfl

theorem consStatement_cases (statement t : Tree) :
    ∃ rest, consStatement statement t = .statementSequence (statement :: rest) ∧
      (t = .statementSequence rest ∨ rest = [t]) := by
  cases t with
  | statementSequence rest => exact ⟨rest, rfl, .inl rfl⟩
  | _ => exact ⟨_, rfl, .inr rfl⟩

theorem forall_row_nil : (∀ values, List.Forall₂ R [] values → G values) ↔ G [] := by
  constructor
  · intro h
    exact h _ .nil
  · intro h values all
    cases all with
    | nil => exact h

theorem forall_row_cons {ps : List Part} :
    (∀ values, List.Forall₂ R (p :: ps) values → G values) ↔
      ∀ v, R p v → ∀ values, List.Forall₂ R ps values → G (v :: values) := by
  constructor
  · intro h v first values rest
    exact h _ (.cons first rest)
  · intro h values all
    cases all with
    | cons first rest => exact h _ first _ rest

theorem row_part {arguments : List Tree} {i : Nat} (all : List.Forall₂ R parts arguments)
    (found : parts[i]? = some p) : R p (part i arguments) := by
  induction all generalizing i with
  | nil => simp at found
  | cons head _ ih =>
    cases i with
    | zero =>
      cases Option.some_inj.mp found
      exact head
    | succ i => exact ih (by simpa using found)

def Phrase.chooses : Phrase → Bool
  | .caseStatement | .caseOptions | .caseOption => true
  | _ => false

def Tame (rule : Rule) : Prop :=
  Quiet rule.build ∧ rule.makes ≠ .caseOption ∨ rule.makes = .breakStatement ∧ rule.build = leaving ∨
    rule.makes = .caseOption ∧ rule.build = option ∨
    rule.makes = .caseStatement ∧ rule.build = choice

theorem tame_of_rule (known : rule? r = some rule) : Tame rule := by
  have all : ∀ rule ∈ rules.toList, Tame rule := by
    simp only [rules, List.forall_mem_cons, Tame]
    simp
  exact all rule (mem_rules known)

section Results

variable {r : Nat} {rule : Rule} {arguments : List Tree} {value : Tree} {fault : Fault}
  {out out' : String}

theorem choice_result (arguments : List Tree) :
    (∃ value said, ∀ out, choice arguments out = .ok value (out ++ said)) ∨
      ∃ fault, ∀ out, choice arguments out = .error fault out := by
  cases subject : (part 1 arguments).text with
  | error fault => exact .inr ⟨fault, fun out => by simp only [choice, subject]; rfl⟩
  | ok first =>
    cases options : (part 3 arguments).text with
    | error fault => exact .inr ⟨fault, fun out => by simp only [choice, subject, options]; rfl⟩
    | ok second =>
      exact .inl ⟨_, _, fun out => by simp only [choice, subject, options]; rfl⟩

theorem build_result (known : rule? r = some rule) (arguments : List Tree) :
    (∃ value said, ∀ out, rule.build arguments out = .ok value (out ++ said)) ∨
      ∃ fault, ∀ out, rule.build arguments out = .error fault out := by
  rcases tame_of_rule known with ⟨quiet, _⟩ | ⟨_, leaves⟩ | ⟨_, fails⟩ | ⟨_, chooses⟩
  · obtain ⟨value, result⟩ := quiet arguments
    exact .inl ⟨value, "", fun out => by rw [result, String.append_empty]⟩
  · exact .inl ⟨.breakStatement, leavingLine, fun out => by rw [leaves]; rfl⟩
  · exact .inr ⟨_, fun out => by rw [fails]; rfl⟩
  · rw [chooses]
    exact choice_result arguments

theorem run_of_build (known : rule? r = some rule)
    (built : rule.build arguments out = .ok value out') :
    (rule.build arguments).run.1 = .ok value := by
  rcases build_result known arguments with ⟨value', said, result⟩ | ⟨fault, result⟩
  · rw [result] at built
    cases built
    simp [Printing.run, EStateM.run, result]
  · rw [result] at built
    cases built

theorem said_of_build (known : rule? r = some rule) (plain : rule.makes.chooses = false)
    (built : rule.build arguments out = .ok value out') :
    out' = out ∨ out' = out ++ leavingLine := by
  rcases tame_of_rule known with ⟨quiet, _⟩ | ⟨_, leaves⟩ | ⟨makes, _⟩ | ⟨makes, _⟩
  · obtain ⟨value', result⟩ := quiet arguments
    rw [result] at built
    cases built
    exact .inl rfl
  · rw [leaves] at built
    cases built
    exact .inr rfl
  · rw [makes] at plain
    cases plain
  · rw [makes] at plain
    cases plain

theorem fault_of_build (known : rule? r = some rule) (single : rule.makes ≠ .caseStatement)
    (failed : rule.build arguments out = .error fault out') :
    rule.makes = .caseOption ∧ ∃ kind, fault = .noAttribute kind "type" := by
  rcases tame_of_rule known with ⟨quiet, _⟩ | ⟨_, leaves⟩ | ⟨makes, fails⟩ | ⟨makes, _⟩
  · obtain ⟨value', result⟩ := quiet arguments
    rw [result] at failed
    cases failed
  · rw [leaves] at failed
    cases failed
  · rw [fails] at failed
    cases failed
    exact ⟨makes, _, rfl⟩
  · exact absurd makes single

theorem run_of_option (known : rule? r = some rule) (makes : rule.makes = .caseOption) :
    (rule.build arguments).run.1 ≠ .ok value := by
  rcases tame_of_rule known with ⟨_, other⟩ | ⟨other, _⟩ | ⟨_, fails⟩ | ⟨other, _⟩
  · exact absurd makes other
  · rw [makes] at other; cases other
  · rw [fails]
    intro built
    cases built
  · rw [makes] at other; cases other

end Results

theorem chooses_of_rule (known : rule? r = some rule) :
    (rule.makes.chooses = true → rule.makes = .caseOption ∨
      ∃ n, .phrase n ∈ rule.parts ∧ n.chooses = true) ∧
    (.token .kwCase ∈ rule.parts → rule.makes.chooses = true) := by
  have checked := forall_rules (P := fun _ rule =>
    (!rule.makes.chooses || rule.makes == .caseOption || rule.parts.any fun part =>
      match part with
      | .phrase n => n.chooses
      | .token _ => false) &&
    (!rule.parts.contains (.token .kwCase) || rule.makes.chooses)) (by decide +kernel) known
  simp only [Bool.and_eq_true, Bool.or_eq_true, Bool.not_eq_true', beq_iff_eq,
    List.any_eq_true] at checked
  refine ⟨fun chooses => ?_, fun member => ?_⟩
  · rcases checked.1 with (plain | makes) | ⟨part, member, inside⟩
    · rw [chooses] at plain; cases plain
    · exact .inl makes
    · cases part with
      | token k => cases inside
      | phrase n => exact .inr ⟨n, member, inside⟩
  · rcases checked.2 with absent | chooses
    · rw [List.contains_iff_mem.mpr member] at absent; cases absent
    · exact chooses

theorem Evaluates.no_choice (h : Evaluates parts tokens values) {n : Phrase}
    (member : .phrase n ∈ parts) : n.chooses = false := by
  induction h generalizing n with
  | nil => cases member
  | token t _ ih =>
    rcases List.mem_cons.mp member with same | later
    · cases same
    · exact ih later
  | @phrase r rule _ _ _ _ _ _ known _ built _ ownPlain restPlain =>
    rcases List.mem_cons.mp member with same | later
    · cases same
      cases chooses : rule.makes.chooses with
      | false => rfl
      | true =>
        rcases (chooses_of_rule known).1 chooses with option | ⟨m, inside, part⟩
        · exact absurd built (run_of_option known option)
        · exact absurd part (by simp [ownPlain inside])
    · exact restPlain later

theorem Evaluates.plain_of_rule (known : rule? r = some rule)
    (h : Evaluates rule.parts tokens values) :
    rule.makes.chooses = false ∨ rule.makes = .caseOption := by
  cases chooses : rule.makes.chooses with
  | false => exact .inl rfl
  | true =>
    rcases (chooses_of_rule known).1 chooses with option | ⟨n, inside, part⟩
    · exact .inr option
    · exact absurd part (by simp [h.no_choice inside])

theorem Evaluates.no_case (h : Evaluates parts tokens values) (free : .token .kwCase ∉ parts) :
    .kwCase ∉ kindsOf tokens := by
  induction h with
  | nil => simp
  | token t _ ih =>
    rw [List.mem_cons, not_or] at free
    rw [kindsOf_cons, List.mem_cons, not_or]
    exact ⟨fun same => free.1 (by rw [same]), ih free.2⟩
  | @phrase r rule _ _ _ _ _ _ known own built rest ownFree restFree =>
    rw [List.mem_cons, not_or] at free
    rw [kindsOf_append, List.mem_append, not_or]
    refine ⟨ownFree fun member => ?_, restFree free.2⟩
    have chooses := (chooses_of_rule known).2 member
    have whole := Evaluates.phrase known own built rest
    exact absurd chooses (by simp [whole.no_choice List.mem_cons_self])

theorem Evaluates.program_ne_none (h : Evaluates [.phrase .program] tokens [value]) :
    value ≠ .none := by
  generalize parts_eq : [Part.phrase .program] = parts at h
  cases h with
  | token => cases parts_eq
  | @phrase r rule _ _ _ _ _ _ known _ built _ =>
    injection parts_eq with makes _
    have first := forall_rules (P := fun r rule => rule.makes != .program || r == 1)
      (by decide +kernel) known
    rw [← Part.phrase.inj makes] at first
    have number : r = 1 := by simpa using first
    subst number
    obtain rfl : rules[0] = rule := Option.some_inj.mp known
    cases built
    simp

end PascalStack.Pascal
