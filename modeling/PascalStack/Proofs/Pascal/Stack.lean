import PascalStack.Proofs.Pascal.Automaton

/-!
# What the stack of a run holds

The frames of a stack are a path of the automaton, and their symbols derive the tokens read. On
top are the parts of the rules that are under way; whatever is on the stack, some sentence starts
with the tokens read.
-/

namespace PascalStack.Pascal

open LR List

def Part.symbol : Part → LR.Symbol TokenKind Phrase
  | .token k => .terminal (.token k)
  | .phrase n => .nonterminal n

/-- A stack is a path from the first state, and its symbols have their values from the tokens
read. -/
inductive Holds : List (Frame TokenKind Phrase Tree) → List Token → Prop
  | nil : Holds [] []
  | push {stack : List (Frame TokenKind Phrase Tree)} {read tokens : List Token} {X : Part}
      {q : Nat} {value : Tree} :
      Holds stack read → move (topState stack) X = some q → Evaluates [X] tokens [value] →
      Holds (⟨q, X.symbol, value⟩ :: stack) (read ++ tokens)

variable {stack : List (Frame TokenKind Phrase Tree)} {read : List Token}

theorem Holds.eq_nil (h : Holds stack read) (start : topState stack = 0) :
    stack = [] ∧ read = [] := by
  cases h with
  | nil => exact ⟨rfl, rfl⟩
  | push _ moved _ => exact absurd start (exists_item_of_move moved).1

theorem items_start (r d : Nat) : hasItem 0 r (d + 1) = false := by
  unfold hasItem
  rfl

theorem Holds.parts_on_top {r d : Nat} {rule : Rule} (h : Holds stack read)
    (known : rule? r = some rule) (item : hasItem (topState stack) r d = true) :
    ∃ top below before tokens, stack = top ++ below ∧ top.length = d ∧ read = before ++ tokens ∧
      Holds below before ∧ Evaluates (rule.parts.take d) tokens (top.reverse.map (·.value)) ∧
      top.reverse.map (·.symbol) = (rule.parts.take d).map Part.symbol ∧
      (goto (topState below) rule.makes).isSome = true := by
  induction d generalizing stack read with
  | zero =>
    unfold hasItem at item
    rw [known] at item
    exact ⟨[], stack, read, [], rfl, rfl, by simp, h, .nil, rfl, item⟩
  | succ d ih =>
    cases h with
    | nil => rw [show topState [] = 0 from rfl, items_start] at item; cases item
    | @push stack read tokens X q value rest moved derived =>
      obtain ⟨at_d, item⟩ := hasItem_of_move moved item
      obtain ⟨top, below, before, earlier, rfl, length_eq, rfl, holds, evaluates, symbols, start⟩ :=
        ih rest item
      rw [partAt, known, Option.bind_some] at at_d
      refine ⟨⟨q, X.symbol, value⟩ :: top, below, before, earlier ++ tokens, rfl, by simp [length_eq],
        by simp, holds, ?_, ?_, start⟩
      · rw [take_add_one, at_d, reverse_cons, map_append]
        exact evaluates.append derived
      · rw [take_add_one, at_d, reverse_cons, map_append, map_append, symbols]
        rfl

theorem Holds.reducible {r : Nat} {t : Terminal TokenKind} (h : Holds stack read)
    (reduces : action (topState stack) t = some (.reduce r)) :
    ∃ rule top below before tokens g, rule? r = some rule ∧ stack = top ++ below ∧
      top.length = rule.parts.length ∧ read = before ++ tokens ∧ Holds below before ∧
      Evaluates rule.parts tokens (top.reverse.map (·.value)) ∧
      top.reverse.map (·.symbol) = rule.parts.map Part.symbol ∧
      goto (topState below) rule.makes = some g := by
  obtain ⟨rule, known, item⟩ := hasItem_of_reduce reduces
  obtain ⟨top, below, before, tokens, stack_eq, length_eq, read_eq, holds, evaluates, symbols,
    start⟩ := h.parts_on_top known item
  rw [take_length] at evaluates symbols
  obtain ⟨g, follows⟩ := Option.isSome_iff_exists.mp start
  exact ⟨rule, top, below, before, tokens, g, known, stack_eq, length_eq, read_eq, holds,
    evaluates, symbols, follows⟩

theorem Holds.accepted {t : Terminal TokenKind} (h : Holds stack read)
    (accepts : action (topState stack) t = some .accept) :
    t = .finish ∧ ∃ frame, stack = [frame] ∧ Evaluates [.phrase .program] read [frame.value] := by
  obtain ⟨final, rfl⟩ := state_of_accept accepts
  refine ⟨rfl, ?_⟩
  cases h with
  | nil => cases final
  | push rest moved derived =>
    have q_eq : _ = 1 := final
    rcases (exists_item_of_move moved).2 with ⟨start, rfl, _⟩ | ⟨inside, _⟩
    · obtain ⟨rfl, rfl⟩ := rest.eq_nil start
      exact ⟨_, rfl, derived⟩
    · exact absurd q_eq inside

def Phrase.rank : Phrase → Nat
  | .header | .varPart | .varDeclaration | .routine | .parameter | .arrayType | .statement
  | .caseOption | .argument => 1
  | .idList | .procedure | .function | .statementPart | .caseStatement | .writeln | .readln
  | .breakStatement | .continueStatement | .ifStatement | .whileStatement | .repeatStatement
  | .forStatement | .assignment | .expression => 2
  | .procedureHeading | .functionHeading | .sum => 3
  | .product => 4
  | .element => 5
  | .call | .lengthCall => 6
  | _ => 0

def startingWith (n : Phrase) : List (Rule × Nat) :=
  numberedRules.filter fun entry => entry.1.parts.head? == some (.phrase n)

theorem parent_of_goto {p q : Nat} {n : Phrase} (h : goto p n = some q) :
    (∃ r d, hasItem p r (d + 1) = true ∧ partAt r (d + 1) = some (.phrase n)) ∨
      (∃ r rule, rule? r = some rule ∧ rule.parts.head? = some (.phrase n) ∧
        rule.makes.rank < n.rank ∧ (goto p rule.makes).isSome = true) ∨
      p = 0 ∧ n = .program := by
  have checked := forall_gotos (P := fun p n _ =>
    (items[p]?.getD []).any (fun item => item.2 != 0 && partAt item.1 item.2 == some (.phrase n)) ||
      (startingWith n).any (fun entry => decide (entry.1.makes.rank < n.rank) &&
        (goto p entry.1.makes).isSome) ||
      p == 0 && n == .program) (by decide +kernel) h
  simp only [Bool.or_eq_true, any_eq_true, Bool.and_eq_true, bne_iff_ne, ne_eq, beq_iff_eq,
    decide_eq_true_eq] at checked
  rcases checked with (⟨⟨r, d⟩, member, started, goes_on⟩ | ⟨⟨rule, r⟩, member, less, may⟩) | start
  · left
    cases d with
    | zero => exact absurd rfl started
    | succ d =>
      refine ⟨r, d, ?_, goes_on⟩
      unfold hasItem
      exact contains_iff_mem.mpr member
  · right; left
    obtain ⟨listed, starts⟩ := mem_filter.mp member
    exact ⟨r, rule, mem_numberedRules.mp listed, by simpa using starts, less, may⟩
  · exact .inr (.inr start)

theorem Holds.opening_phrase {n : Phrase} {kinds : List TokenKind} (h : Holds stack read)
    (may : (goto (topState stack) n).isSome = true) (derived : Yields [.phrase n] kinds) :
    Opening (kindsOf read ++ kinds) := by
  -- Down the stack, and in one state down the phrases that a phrase may start.
  obtain ⟨height, within⟩ : ∃ height, stack.length < height := ⟨_, Nat.lt_succ_self _⟩
  induction height generalizing stack read n kinds with
  | zero => omega
  | succ height below_opening =>
    obtain ⟨depth, deep⟩ : ∃ depth, n.rank < depth := ⟨_, Nat.lt_succ_self _⟩
    induction depth generalizing n kinds with
    | zero => omega
    | succ depth outer_opening =>
      obtain ⟨q, follows⟩ := Option.isSome_iff_exists.mp may
      rcases parent_of_goto follows with ⟨r, d, item, goes_on⟩ | ⟨r, rule, known, starts, less, may⟩ |
        ⟨start, rfl⟩
      · obtain ⟨rule, known, goes_on⟩ := Option.bind_eq_some_iff.mp goes_on
        obtain ⟨top, below, before, tokens, rfl, length_eq, rfl, holds, evaluates, _, may⟩ :=
          h.parts_on_top known item
        obtain ⟨more, rest⟩ := exists_yields (rule.parts.drop (d + 2))
        have whole : Yields rule.parts (kindsOf tokens ++ (kinds ++ more)) := by
          rw [← take_append_drop (d + 1) rule.parts,
            drop_eq_getElem?_toList_append, goes_on]
          exact evaluates.yields.append (derived.append rest)
        have opening := below_opening holds may (.single known whole) (by
          rw [length_append, length_eq] at within
          omega)
        rw [← append_assoc, ← append_assoc] at opening
        rw [kindsOf_append]
        exact opening.of_append
      · obtain ⟨others, parts_eq⟩ : ∃ others, rule.parts = .phrase n :: others := by
          cases parts : rule.parts with
          | nil => rw [parts] at starts; cases starts
          | cons part others =>
            rw [parts, head?_cons, Option.some_inj] at starts
            exact ⟨others, by rw [starts]⟩
        obtain ⟨more, rest⟩ := exists_yields others
        have whole : Yields rule.parts (kinds ++ more) := by
          rw [parts_eq]
          exact derived.append rest
        have opening := outer_opening may (.single known whole) (by omega)
        rw [← append_assoc] at opening
        exact opening.of_append
      · obtain ⟨rfl, rfl⟩ := h.eq_nil start
        exact ⟨[], by simpa [Sentence] using derived⟩

theorem Holds.opening (h : Holds stack read) : Opening (kindsOf read) := by
  cases h with
  | nil =>
    obtain ⟨kinds, derived⟩ := exists_yields [.phrase .program]
    exact ⟨kinds, derived⟩
  | @push stack read tokens X q value rest moved derived =>
    rcases (exists_item_of_move moved).2 with ⟨start, rfl, _⟩ | ⟨_, r, d, item⟩
    · obtain ⟨rfl, rfl⟩ := rest.eq_nil start
      exact ⟨[], by simpa [Sentence] using derived.yields⟩
    · have whole : Holds (⟨q, X.symbol, value⟩ :: stack) (read ++ tokens) :=
        .push rest moved derived
      obtain ⟨at_d, _⟩ := hasItem_of_move moved item
      obtain ⟨rule, known, _⟩ := Option.bind_eq_some_iff.mp at_d
      obtain ⟨top, below, before, tokens, stack_eq, _, read_eq, holds, evaluates, _, may⟩ :=
        whole.parts_on_top known item
      obtain ⟨more, goes_on⟩ := exists_yields (rule.parts.drop (d + 1))
      have phrase : Yields rule.parts (kindsOf tokens ++ more) := by
        rw [← take_append_drop (d + 1) rule.parts]
        exact evaluates.yields.append goes_on
      have opening := holds.opening_phrase may (.single known phrase)
      rw [← append_assoc, ← kindsOf_append, ← read_eq] at opening
      exact opening.of_append

end PascalStack.Pascal
