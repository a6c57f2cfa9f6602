import PascalStack.Proofs.Pascal.Supply

/-!
# The steps of a run

What one step of the machine does: it shifts a token, reduces by a rule, accepts, fails, or is in
error. A measure of the tokens ahead and of the stack falls with each step, so a run comes to its
end or to its first error.
-/

namespace PascalStack.Pascal

open LR

def Phrase.height : Phrase → Nat
  | .call | .lengthCall => 6
  | .element => 5
  | .product => 4
  | .sum | .varDeclaration => 3
  | .expression | .varPart | .varList | .assignment | .statementPart | .ifStatement
  | .whileStatement | .repeatStatement | .forStatement | .writeln | .readln | .breakStatement
  | .continueStatement | .caseStatement => 2
  | .statement | .function | .procedure | .arrayType | .argument | .parameter => 1
  | _ => 0

def height : LR.Symbol TokenKind Phrase → Nat
  | .terminal _ => 7
  | .nonterminal n => n.height

def topHeight : List (Frame TokenKind Phrase Tree) → Nat
  | [] => 0
  | f :: _ => height f.symbol

@[simp] theorem height_nonterminal (n : Phrase) : height (.nonterminal n) = n.height := rfl

@[simp] theorem topHeight_cons (f : Frame TokenKind Phrase Tree)
    (stack : List (Frame TokenKind Phrase Tree)) : topHeight (f :: stack) = height f.symbol := rfl

def weight (stack : List (Frame TokenKind Phrase Tree)) (rest : List Token) : Nat :=
  9 * rest.length + stack.length + topHeight stack

variable {p r q : Nat} {t : Terminal TokenKind} {rule : Rule} {n : Phrase} {c₀ : Config}
  {ds₀ : List Delivery}

theorem height_of_reduce (h : action p t = some (.reduce r)) (known : rule? r = some rule) :
    (∀ X, rule.parts.getLast? = some X →
      rule.makes.height + 2 ≤ height X.symbol + rule.parts.length) ∧
    (rule.parts = [] → p ≠ 0) := by
  have checked := forall_actions (P := fun p _ a => (reducedBy a).all fun rule =>
    rule.parts.getLast?.elim (p != 0) fun X =>
      decide (rule.makes.height + 2 ≤ height X.symbol + rule.parts.length))
    (by decide +kernel) h
  simp only [reducedBy, known, Option.all_some] at checked
  refine ⟨fun X last => ?_, fun empty => ?_⟩
  · rw [last] at checked
    simpa using checked
  · rw [empty] at checked
    simpa using checked

theorem height_of_empty {X : Part} (moved : move p X = some q) (h : action q t = some (.reduce r))
    (known : rule? r = some rule) (empty : rule.parts = []) :
    rule.makes.height + 2 ≤ height X.symbol := by
  have checked := forall_moves (P := fun _ X q => (actionRows.getD q []).all fun entry =>
    (reducedBy entry.2).all fun rule =>
      !rule.parts.isEmpty || decide (rule.makes.height + 2 ≤ height X.symbol))
    (by decide +kernel) (by decide +kernel) moved
  unfold action at h
  have entry := List.all_eq_true.mp checked _ (mem_of_lookup h)
  simpa [reducedBy, known, empty] using entry

theorem weight_of_reduce {top below : List (Frame TokenKind Phrase Tree)} {read rest : List Token}
    {g : Nat} {value : Tree} (h : Holds (top ++ below) read)
    (reduces : action (topState (top ++ below)) t = some (.reduce r)) (known : rule? r = some rule)
    (size : top.length = rule.parts.length)
    (symbols : top.reverse.map (·.symbol) = rule.parts.map Part.symbol) :
    weight (⟨g, .nonterminal rule.makes, value⟩ :: below) rest < weight (top ++ below) rest := by
  simp only [weight, List.length_cons, List.length_append, topHeight_cons, height_nonterminal, size]
  cases top with
  | nil =>
    have empty : rule.parts = [] := List.length_eq_zero_iff.mp size.symm
    cases h with
    | nil => exact absurd rfl ((height_of_reduce reduces known).2 empty)
    | push _ moved _ =>
      have less := height_of_empty moved reduces known empty
      simp only [List.nil_append, topHeight_cons, empty, List.length_nil]
      omega
  | cons f top =>
    have last : (rule.parts.map Part.symbol).getLast? = some f.symbol := by
      rw [← symbols, List.reverse_cons, List.map_append]
      exact List.getLast?_concat
    rw [List.getLast?_map] at last
    obtain ⟨X, last, symbol_eq⟩ := Option.map_eq_some_iff.mp last
    have less := (height_of_reduce reduces known).1 X last
    rw [symbol_eq] at less
    simp only [List.cons_append, topHeight_cons]
    omega

theorem part_before_case {d : Nat} (known : rule? r = some rule)
    (offers : n = .caseOptions ∨ n = .caseOption) (found : rule.parts[d]? = some (.phrase n)) :
    .token .kwCase ∈ rule.parts.take d ∨ .phrase .caseOption ∈ rule.parts.take d ∨
      d = 0 ∧ rule.makes = .caseOptions := by
  have checked := forall_rules (P := fun _ rule => (List.range rule.parts.length).all fun d =>
    !(rule.parts[d]? == some (.phrase .caseOptions) || rule.parts[d]? == some (.phrase .caseOption)) ||
      (rule.parts.take d).contains (.token .kwCase) ||
      (rule.parts.take d).contains (.phrase .caseOption) ||
      d == 0 && rule.makes == .caseOptions) (by decide +kernel) known
  have within : d < rule.parts.length := (List.getElem?_eq_some_iff.mp found).1
  have at_d := List.all_eq_true.mp checked d (List.mem_range.mpr within)
  rcases offers with rfl | rfl <;> simpa [found, or_assoc] using at_d

theorem Yields.mem_of_token {parts : List Part} {kinds : List TokenKind} {k : TokenKind}
    (h : Yields parts kinds) (member : .token k ∈ parts) : k ∈ kinds := by
  induction h with
  | nil => cases member
  | token k' _ ih =>
    rcases List.mem_cons.mp member with same | later
    · cases same
      exact List.mem_cons_self
    · exact List.mem_cons_of_mem _ (ih later)
  | phrase _ _ _ _ ih =>
    rcases List.mem_cons.mp member with same | later
    · cases same
    · exact List.mem_append_right _ (ih later)

theorem Holds.case_read {stack : List (Frame TokenKind Phrase Tree)} {read : List Token}
    (h : Holds stack read) (may : (goto (topState stack) n).isSome = true)
    (offers : n = .caseOptions ∨ n = .caseOption) : .kwCase ∈ kindsOf read := by
  -- A case is the first of the cases, so it is enough to follow two phrases.
  obtain ⟨depth, deep⟩ : ∃ depth, n.rank < depth := ⟨_, Nat.lt_succ_self _⟩
  induction depth generalizing n with
  | zero => omega
  | succ depth ih =>
    obtain ⟨q, follows⟩ := Option.isSome_iff_exists.mp may
    rcases parent_of_goto follows with ⟨r, d, item, goes_on⟩ | ⟨r, rule, known, starts, less, may⟩ |
      ⟨_, rfl⟩
    · obtain ⟨rule, known, goes_on⟩ := Option.bind_eq_some_iff.mp goes_on
      obtain ⟨top, below, before, tokens, rfl, _, rfl, holds, evaluates, _⟩ :=
        h.parts_on_top known item
      rw [kindsOf_append]
      apply List.mem_append_right
      rcases part_before_case known offers goes_on with opened | case | ⟨first, _⟩
      · exact evaluates.yields.mem_of_token opened
      · exact absurd (evaluates.no_choice case) (by decide)
      · cases first
    · rw [List.head?_eq_getElem?] at starts
      rcases part_before_case known offers starts with opened | case | ⟨_, makes⟩
      · cases opened
      · cases case
      · exact ih may (.inl makes) (by omega)
    · rcases offers with same | same <;> cases same

/-! ## One step -/

def statesOf (stack : List (Frame TokenKind Phrase Tree)) : List Nat :=
  stack.map (·.state) ++ [0]

theorem headD_statesOf (stack : List (Frame TokenKind Phrase Tree)) :
    (statesOf stack).headD 0 = topState stack := by
  cases stack <;> rfl

variable {fault : Option Fault} {c : Config} {ds : List Delivery} {read rest : List Token}

/-- A stack on which the parts of a rule became its phrase, when this was all there was to do before
the terminal `after`. -/
inductive Reduced (stack : List (Frame TokenKind Phrase Tree)) (after : Terminal TokenKind) :
    List (Frame TokenKind Phrase Tree) → Prop
  | phrase {r g : Nat} {t : Terminal TokenKind} {rule : Rule}
      {top below : List (Frame TokenKind Phrase Tree)} {value : Tree} :
      rule? r = some rule → stack = top ++ below →
      top.reverse.map (·.symbol) = rule.parts.map Part.symbol →
      (rule.build (top.reverse.map (·.value))).run.1 = .ok value →
      action (topState stack) t = some (.reduce r) →
      (∀ a, action (topState stack) after = some a → a = .reduce r) →
      Reduced stack after (⟨g, .nonterminal rule.makes, value⟩ :: below)

inductive StepCase (fault : Option Fault) (c : Config) (ds : List Delivery)
    (read rest : List Token) : Step TokenKind Phrase Tree → Prop
  | shift {t : Token} {rest' : List Token} {c' : Config} {ds' : List Delivery} {q : Nat} :
      rest = t :: rest' → Advances c ds c' ds' → Proceeds fault c' ds' (read ++ [t]) rest' →
      c'.stack = ⟨q, .terminal (.token t.kind), t.value⟩ :: c.stack →
      weight c'.stack rest' < weight c.stack rest →
      (∀ kinds, Accepts (statesOf c.stack) (t.kind :: kinds) → Accepts (statesOf c'.stack) kinds) →
      StepCase fault c ds read rest (.next c')
  | reduce {c' : Config} {ds' : List Delivery} :
      Advances c ds c' ds' → Proceeds fault c' ds' read rest →
      Reduced c.stack (next (kindsOf rest) .finish) c'.stack →
      weight c'.stack rest < weight c.stack rest →
      (∀ kinds, next kinds .finish = next (kindsOf rest) .finish →
        Accepts (statesOf c.stack) kinds → Accepts (statesOf c'.stack) kinds) →
      StepCase fault c ds read rest (.next c')
  | accept {frame : Frame TokenKind Phrase Tree} {c' : Config} {ds' : List Delivery} :
      rest = [] → Advances c ds c' ds' → c.stack = [frame] →
      Evaluates [.phrase .program] read [frame.value] →
      StepCase fault c ds read rest (.done c' (.accepted frame.value))
  | unbuilt {kind : String} {c' : Config} :
      .kwCase ∈ kindsOf read →
      StepCase fault c ds read rest (.done c' (.faulted (.noAttribute kind "type")))
  | unread {f : Fault} {c' : Config} :
      fault = some f → StepCase fault c ds read rest (.done c' (.faulted f))
  | error {look : Lookahead TokenKind Tree} {c' : Config} {ds' : List Delivery} :
      Machine.fetch c = (.ok look, c') → Advances c ds c' ds' → Proceeds fault c' ds' read rest →
      c'.lookahead = some look → c'.stack = c.stack → Looks look rest →
      settled (topState c.stack) = none → action (topState c.stack) look.terminal = none →
      StepCase fault c ds read rest (machine.recover look c')

theorem Proceeds.reduce_case {c₀ : Config} {ds₀ : List Delivery} {r : Nat} {t : Terminal TokenKind}
    (h : Proceeds fault c ds read rest) (fetched : Advances c₀ ds₀ c ds) (same : c.stack = c₀.stack)
    (reduces : action (topState c.stack) t = some (.reduce r))
    (due : ∀ kinds a, next kinds .finish = next (kindsOf rest) .finish →
      action (topState c.stack) (next kinds .finish) = some a → a = .reduce r) :
    StepCase fault c₀ ds₀ read rest (machine.reduce r c) := by
  obtain ⟨rule, top, below, before, tokens, g, known, stack_eq, size, rfl, holds, evaluates, symbols,
    follows⟩ := h.holds.reducible reduces
  have shape_eq : machine.rule r = some (rule.makes, rule.parts.length) := shape_of_rule known
  have build_eq (out : String) :
      machine.build r (top.reverse.map (·.value)) out = rule.build (top.reverse.map (·.value)) out := by
    simp only [machine, known]
  have take_eq : c.stack.take rule.parts.length = top := by
    rw [stack_eq, ← size, List.take_left]
  have drop_eq : c.stack.drop rule.parts.length = below := by
    rw [stack_eq, ← size, List.drop_left]
  have goto_eq : machine.goto (topState below) rule.makes = some g := follows
  rw [Machine.reduce, shape_eq]
  simp only [take_eq, drop_eq, size, Nat.lt_irrefl, if_false, build_eq, goto_eq]
  have plain := evaluates.plain_of_rule known
  cases result : rule.build (top.reverse.map (·.value)) c.out with
  | error f out =>
    have single : rule.makes ≠ .caseStatement := by
      intro makes
      rw [makes] at plain
      rcases plain with h | h <;> cases h
    obtain ⟨makes, kind, rfl⟩ := fault_of_build known single result
    refine .unbuilt ?_
    rw [kindsOf_append]
    exact List.mem_append_left _ (holds.case_read (by rw [← makes, follows]; rfl) (.inr rfl))
  | ok value out =>
    have built := run_of_build known result
    have noChoice : rule.makes.chooses = false :=
      plain.resolve_right fun option => run_of_option known option built
    have pushed : Holds (⟨g, .nonterminal rule.makes, value⟩ :: below) (before ++ tokens) :=
      .push (X := .phrase rule.makes) holds (by rw [move_phrase, follows]) (.single known evaluates built)
    refine .reduce (fetched.trans ⟨Nat.le_refl _, ?_⟩) ⟨pushed, h.feed, h.pending, h.ahead⟩ ?_ ?_ ?_
    · rcases said_of_build known noChoice result with rfl | rfl
      · exact ⟨[], "", rfl, by simp, .nil⟩
      · exact ⟨[], leavingLine, rfl, rfl, announced_leave⟩
    · rw [← same]
      exact .phrase known stack_eq symbols built reduces fun a => due _ a rfl
    · have whole := h.holds
      rw [← same]
      rw [stack_eq] at whole reduces ⊢
      exact weight_of_reduce whole reduces known size symbols
    · rw [← same]
      intro kinds next_eq accepts
      obtain ⟨a, found⟩ := accepts.exists_action
      rw [headD_statesOf] at found
      obtain rfl := due kinds a next_eq found
      rw [← headD_statesOf] at found
      obtain ⟨g', follows', rest⟩ := accepts.of_reduce found (shape_of_rule known)
      have below_eq : (statesOf c.stack).drop rule.parts.length = statesOf below := by
        rw [statesOf, stack_eq, List.map_append, List.append_assoc, ← size]
        exact List.drop_left' (List.length_map _)
      rw [below_eq, headD_statesOf, follows] at follows'
      cases follows'
      rw [below_eq] at rest
      exact rest

theorem Ahead.of_token {look : Option (Lookahead TokenKind Tree)} {t : Token} {rest : List Token}
    (h : Ahead fault look ds (t :: rest)) (look_eq : look = some (lookahead id t)) :
    fault = spoiled ds ∧ rest = arriving ds := by
  generalize rest_eq : t :: rest = r at h
  cases h with
  | fresh => cases look_eq
  | token => cases rest_eq; exact ⟨rfl, rfl⟩
  | finish => cases rest_eq

theorem Proceeds.shift_case {t : Token} {rest' : List Token}
    (h : Proceeds fault c ds read (t :: rest')) (fetched : Advances c₀ ds₀ c ds)
    (same : c.stack = c₀.stack) (look : c.lookahead = some (lookahead id t))
    (shifts : action (topState c.stack) (.token t.kind) = some (.shift q)) :
    StepCase fault c₀ ds₀ read (t :: rest') (.next { c with
      stack := ⟨q, .terminal (.token t.kind), t.value⟩ :: c.stack
      lookahead := none
      patience := c.patience - 1 }) := by
  obtain ⟨holds, feed, pending, ahead⟩ := h
  obtain ⟨rfl, rfl⟩ := ahead.of_token look
  refine .shift rfl (fetched.trans ⟨Nat.sub_le _ _, [], "", rfl, by simp, .nil⟩)
    ⟨?_, feed, pending, .fresh ds⟩ (by rw [same]) ?_ ?_
  · exact .push (X := .token t.kind) holds (move_of_action shifts) (.ofToken t)
  · simp only [weight, List.length_cons, topHeight_cons, height, same]
    omega
  · rw [← same]
    intro kinds accepts
    rw [← headD_statesOf] at shifts
    exact accepts.of_shift shifts

theorem Proceeds.step_cases (h : Proceeds fault c ds read rest) :
    StepCase fault c ds read rest (machine.step c) := by
  unfold Machine.step
  cases at_rest : settled (topState c.stack) with
  | some r =>
    have settled_eq : machine.settled (topState c.stack) = some r := at_rest
    obtain ⟨⟨t, reduces⟩, only⟩ := action_of_settled at_rest
    rw [settled_eq]
    exact h.reduce_case (.refl _ _) rfl reduces fun kinds a _ found => only _ a found
  | none =>
    have settled_eq : machine.settled (topState c.stack) = none := at_rest
    rw [settled_eq]
    have fetches := h.fetches
    cases fetched : Machine.fetch c with
    | mk result c' =>
    rw [fetched] at fetches
    cases fetches with
    | fault spoilt => exact .unread spoilt
    | @look look _ ds' advances proceeds look_eq looks same =>
      have terminal_eq := looks.terminal_eq
      cases found : action (topState c'.stack) look.terminal with
      | none =>
        have action_eq : machine.action (topState c'.stack) look.terminal = none := found
        simp only [action_eq]
        rw [same] at found
        exact .error fetched advances proceeds look_eq same looks at_rest found
      | some a =>
        have action_eq : machine.action (topState c'.stack) look.terminal = some a := found
        cases a with
        | shift q =>
          simp only [action_eq]
          cases looks with
          | token t rest => exact proceeds.shift_case advances same look_eq found
          | finish =>
            obtain ⟨k, token⟩ := token_of_shift found
            cases token
        | reduce r =>
          simp only [action_eq]
          refine proceeds.reduce_case advances same found fun kinds a next_eq found' => ?_
          rw [next_eq, ← terminal_eq, found] at found'
          exact (Option.some_inj.mp found').symm
        | accept =>
          obtain ⟨finish, frame, stack_eq, evaluates⟩ := proceeds.holds.accepted found
          simp only [action_eq]
          rw [stack_eq]
          cases looks with
          | token => cases finish
          | finish => exact .accept rfl advances (same.symm.trans stack_eq) evaluates

end PascalStack.Pascal
