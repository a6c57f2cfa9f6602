import PascalStack.Proofs.Pascal.Operators
import PascalStack.Proofs.Syntax.Branches

/-!
# The tree of an expression

Wherever a program has an expression, the tree of the program has the tree of the expression in it,
with its operators grouped by their levels. After some tokens, as `:=`, `if` and `while`, there is
always one.
-/

namespace PascalStack

open List

/-! ## What is in a tree -/

namespace Tree

def isRow : Tree → Bool
  | list _ | statementSequence _ => true
  | _ => false

structure Holds (t u : Tree) : Prop where
  within : ∀ v : Tree, v.isRow = false → Within v t → Within v u

theorem Holds.refl (t : Tree) : Holds t t := ⟨fun _ _ h => h⟩

variable {t u : Tree}

theorem Holds.trans {s : Tree} (first : Holds s t) (second : Holds t u) : Holds s u :=
  ⟨fun v single h => second.within v single (first.within v single h)⟩

theorem holds_child (child : t ∈ u.children) : Holds t u :=
  ⟨fun _ _ h => h.of_child child⟩

theorem holds_row (row : t.isRow = true) (items : ∀ s ∈ t.children, Holds s u) : Holds t u := by
  refine ⟨fun v single h => ?_⟩
  rcases within_iff.mp h with rfl | ⟨s, child, inside⟩
  · rw [single] at row
    cases row
  · exact (items s child).within v single inside

theorem holds_item (h : Holds t u) : Holds t (list [u]) :=
  h.trans (holds_child (mem_singleton_self u))

theorem holds_statementsOf {items : List Tree} (members : ∀ s ∈ t.statementsOf, s ∈ items) :
    Holds t (list items) := by
  rcases Pascal.statementsOf_cases t with listed | alone
  · rw [listed]
    exact holds_row rfl fun s child => holds_child (members s child)
  · exact holds_child (members t (by simp [alone]))

end Tree

namespace Syntax

open Pascal Pascal.Build
open PascalStack.Tree (Within Holds children holds_child holds_row holds_item holds_statementsOf
  parts)

theorem holds_consItem (item items : Tree) :
    Holds item (consItem item items) ∧ Holds items (consItem item items) := by
  rw [consItem_eq]
  exact ⟨holds_child mem_cons_self, holds_statementsOf fun _ => mem_cons_of_mem _⟩

theorem holds_snocItem (items item : Tree) :
    Holds items (snocItem items item) ∧ Holds item (snocItem items item) := by
  rw [snocItem_eq]
  exact ⟨holds_statementsOf fun _ => mem_append_left _, holds_child (by simp [children])⟩

theorem holds_consStatement (s t : Tree) :
    Holds s (consStatement s t) ∧ Holds t (consStatement s t) := by
  obtain ⟨rest, built, sequence⟩ := consStatement_cases s t
  rw [built]
  have items : ∀ u ∈ s :: rest, Holds u (.statementSequence (s :: rest)) := fun u member =>
    (holds_child (u := .list (s :: rest)) member).trans (holds_child (by simp [children, parts]))
  rw [forall_mem_cons] at items
  refine ⟨items.1, ?_⟩
  rcases sequence with rfl | rfl
  · refine holds_row rfl fun u child => ?_
    obtain rfl : u = .list rest := by simpa [children, parts] using child
    exact holds_row rfl items.2
  · exact items.2 t mem_cons_self

theorem holds_sequence (t : Tree) : Holds t (.statementSequence t.statementsOf) :=
  (holds_statementsOf fun _ => id).trans (holds_child (by simp [children, parts]))

theorem holds_typeOf (t : Tree) : Holds t (typeOf t) := by
  unfold typeOf
  split
  · exact .refl t
  · exact holds_child (by simp [children, parts])

def isPhrase : Part → Bool
  | .phrase _ => true
  | .token _ => false

def KeepsValues (rule : Rule) : Prop :=
  ∀ arguments, Forall₂ (fun _ _ => True) rule.parts arguments →
    ∀ value, (rule.build arguments).run.1 = .ok value →
      ∀ entry ∈ rule.parts.zip arguments, isPhrase entry.1 = true → Holds entry.2 value

attribute [local irreducible] copy node1 node2 node3 node4 choice in
theorem keepsValues_of_mem : ∀ rule ∈ rules.toList, KeepsValues rule := by
  simp only [rules, forall_mem_cons, not_mem_nil, false_implies, implies_true, and_true]
  and_intros
  all_goals
    simp only [KeepsValues, forall_row_nil, forall_row_cons, run_always, run_copy, run_node1,
      run_node2, run_node3, run_node4, run_leaving, run_option, Except.ok.injEq, reduceCtorEq,
      forall_eq', part, getD_cons_zero, getD_cons_succ, zip_cons_cons,
      zip_nil_left, forall_mem_cons, not_mem_nil, isPhrase, Bool.false_eq_true,
      false_implies, implies_true, forall_const, and_true, true_and, Holds.refl, holds_consItem,
      holds_snocItem, holds_consStatement, holds_sequence, holds_typeOf]
  all_goals
    intros
    and_intros
  all_goals first
    | apply holds_child
      simp only [children, parts, mem_cons, true_or, or_true]
      done
    | exact (holds_child (by simp [children, parts])).trans (holds_consItem _ _).1
    | exact holds_item (holds_child (by simp [children, parts]))
    | rename (choice _).run.1 = _ => built
      rw [run_choice built]
      exact holds_child (by simp [part, children, parts])

/-! ## Expressions that are led in -/

/-- A phrase with a row of tokens and a value is part of a derivation. -/
inductive Occurs (n : Phrase) (row : List Token) (v : Tree) :
    List Part → List Token → List Tree → Prop
  | here {parts : List Part} {tokens : List Token} {values : List Tree} :
      Evaluates [.phrase n] row [v] → Evaluates parts tokens values →
      Occurs n row v (.phrase n :: parts) (row ++ tokens) (v :: values)
  | inside {r : Nat} {rule : Rule} {parts : List Part} {own tokens : List Token}
      {arguments values : List Tree} {value : Tree} :
      rule? r = some rule → Occurs n row v rule.parts own arguments →
      (rule.build arguments).run.1 = .ok value → Evaluates parts tokens values →
      Occurs n row v (.phrase rule.makes :: parts) (own ++ tokens) (value :: values)
  | pastToken (t : Token) {parts : List Part} {tokens : List Token} {values : List Tree} :
      Occurs n row v parts tokens values →
      Occurs n row v (.token t.kind :: parts) (t :: tokens) (t.value :: values)
  | pastPhrase {m : Phrase} {parts : List Part} {own tokens : List Token} {values : List Tree}
      {w : Tree} : Evaluates [.phrase m] own [w] → Occurs n row v parts tokens values →
      Occurs n row v (.phrase m :: parts) (own ++ tokens) (w :: values)

/-- The tokens that always lead in an expression. -/
def leadsIn (k : TokenKind) : Bool :=
  k ∈ [.assign, .kwIf, .kwWhile, .kwUntil, .kwTo, .kwDownto]

/-- The phrases that may end with an expression that a token leads in. -/
def mayEnd (n : Phrase) : Bool :=
  n ∈ [.assignment, .statement, .statements, .ifStatement, .whileStatement, .repeatStatement,
    .forStatement, .caseOption]

/-- An expression can end before these parts: they start with a token that no expression has in it,
or there are none, if the parts may end with an expression. -/
def stops (last : Bool) : List Part → Bool
  | [] => last
  | .token k :: _ => !inExpression k
  | .phrase _ :: _ => false

def startsExpression (last : Bool) : List Part → Bool
  | .phrase n :: parts => (n == .expression || n == .call) && stops last parts
  | _ => false

def led (last : Bool) : List Part → Bool
  | [] => true
  | .token k :: parts => (!leadsIn k || startsExpression last parts) && led last parts
  | .phrase n :: parts => (!mayEnd n || stops last parts) && led last parts

theorem led_of_rule {r : Nat} {rule : Rule} (known : rule? r = some rule) :
    led (mayEnd rule.makes) rule.parts = true :=
  forall_rules (P := fun _ rule => led (mayEnd rule.makes) rule.parts) (by decide +kernel) known

variable {parts : List Part} {tokens before row after : List Token} {values : List Tree}
  {last : Bool} {t : Token} {v : Tree}

theorem forall₂_of_evaluates (h : Evaluates parts tokens values) :
    Forall₂ (fun _ _ => True) parts values := by
  induction h with
  | nil => exact .nil
  | token _ _ ih => exact .cons trivial ih
  | phrase _ _ _ _ _ ih => exact .cons trivial ih

theorem Occurs.held {n : Phrase} (h : Occurs n row v parts tokens values) :
    Evaluates [.phrase n] row [v] ∧ Forall₂ (fun _ _ => True) parts values ∧
      ∃ entry ∈ parts.zip values, isPhrase entry.1 = true ∧ Holds v entry.2 := by
  induction h with
  | here value others =>
    exact ⟨value, .cons trivial (forall₂_of_evaluates others), _, .head _, rfl, .refl v⟩
  | inside known _ built others ih =>
    obtain ⟨value, matched, entry, member, isPhrase, held⟩ := ih
    have kept := keepsValues_of_mem _ (mem_rules known) _ matched _ built entry member isPhrase
    exact ⟨value, .cons trivial (forall₂_of_evaluates others), _, .head _, rfl, held.trans kept⟩
  | pastToken t _ ih =>
    obtain ⟨value, matched, entry, member, held⟩ := ih
    exact ⟨value, .cons trivial matched, entry, mem_cons_of_mem _ member, held⟩
  | pastPhrase _ _ ih =>
    obtain ⟨value, matched, entry, member, held⟩ := ih
    exact ⟨value, .cons trivial matched, entry, mem_cons_of_mem _ member, held⟩

/-- What follows an expression in a row: nothing, if the row may end with it, or a token that no
expression has in it. -/
structure Ends (last : Bool) (after : List Token) : Prop where
  empty : after = [] → last = true
  stops : ∀ u ∈ after.head?, inExpression u.kind = false

theorem ends_of_stops (h : Evaluates parts tokens values) (stop : stops last parts = true) :
    Ends last tokens := by
  cases h with
  | nil => exact ⟨fun _ => stop, nofun⟩
  | token t _ =>
    refine ⟨nofun, fun u head => ?_⟩
    cases head
    simpa [stops] using stop
  | phrase => cases stop

theorem exists_led_in (h : Evaluates parts tokens values) (checked : led last parts = true)
    {rest : List Token} (split : tokens = before ++ t :: rest) (leads : leadsIn t.kind = true) :
    ∃ row after v, rest = row ++ after ∧ Evaluates [.phrase .expression] row [v] ∧
      (∃ entry ∈ parts.zip values, isPhrase entry.1 = true ∧ Holds v entry.2) ∧
      Ends last after := by
  induction h generalizing last before rest with
  | nil => simp at split
  | @token u parts tokens values following ih =>
    simp only [led, Bool.and_eq_true] at checked
    cases before with
    | cons c before =>
      obtain ⟨rfl, tail⟩ := cons.inj split
      obtain ⟨row, after, v, rest_eq, value, ⟨entry, member, held⟩, ends⟩ := ih checked.2 tail
      exact ⟨row, after, v, rest_eq, value, ⟨entry, mem_cons_of_mem _ member, held⟩, ends⟩
    | nil =>
      cases split
      cases following with
      | nil => simp [leads, startsExpression] at checked
      | token => simp [leads, startsExpression] at checked
      | phrase known own built others =>
        simp only [leads, startsExpression, Bool.not_true, Bool.false_or, Bool.and_eq_true,
          Bool.or_eq_true, beq_iff_eq] at checked
        obtain ⟨⟨expression, stop⟩, -⟩ := checked
        have value := Evaluates.single known own built
        refine ⟨_, _, _, rfl, ?_, ⟨_, .tail _ (.head _), rfl, .refl _⟩, ends_of_stops others stop⟩
        rcases expression with same | same
        · rwa [same] at value
        · rw [same] at value
          exact Evaluates.of_element (n := 0) (.single (r := 112) rfl value rfl) (Nat.zero_le 3)
  | @phrase r rule parts own tokens arguments values value known derived built others ihOwn ihRest =>
    simp only [led, Bool.and_eq_true, Bool.or_eq_true, Bool.not_eq_true'] at checked
    have inRest {before : List Token} (tail : tokens = before ++ t :: rest) :
        ∃ row after v, rest = row ++ after ∧ Evaluates [.phrase .expression] row [v] ∧
          (∃ entry ∈ (Part.phrase rule.makes :: parts).zip (value :: values),
            isPhrase entry.1 = true ∧ Holds v entry.2) ∧ Ends last after := by
      obtain ⟨row, after, v, rest_eq, value, ⟨entry, member, held⟩, ends⟩ := ihRest checked.2 tail
      exact ⟨row, after, v, rest_eq, value, ⟨entry, mem_cons_of_mem _ member, held⟩, ends⟩
    rcases append_eq_append_iff.mp split with ⟨mid, rfl, tail⟩ | ⟨mid, rfl, tail⟩
    · exact inRest tail
    cases mid with
    | nil => exact @inRest [] tail.symm
    | cons c mid =>
      obtain ⟨rfl, rfl⟩ := cons.inj tail
      obtain ⟨row, after, v, rfl, expression, ⟨entry, member, isPhrase, held⟩, ends⟩ :=
        ihOwn (led_of_rule known) rfl
      have kept := keepsValues_of_mem rule (mem_rules known) arguments
        (forall₂_of_evaluates derived) value built entry member isPhrase
      refine ⟨row, after ++ tokens, v, append_assoc .., expression,
        ⟨_, .head _, rfl, held.trans kept⟩, ?_⟩
      cases after with
      | nil =>
        rcases checked.1 with never | stop
        · rw [ends.empty rfl] at never
          cases never
        · exact ends_of_stops others stop
      | cons => exact ⟨nofun, ends.stops⟩

theorem row_eq_of_ends {row' after' : List Token} (same : row ++ after = row' ++ after')
    (inside : ∀ t ∈ row, inExpression t.kind = true)
    (inside' : ∀ t ∈ row', inExpression t.kind = true)
    (ends : ∀ u ∈ after.head?, inExpression u.kind = false)
    (ends' : ∀ u ∈ after'.head?, inExpression u.kind = false) : row = row' := by
  rcases append_eq_append_iff.mp same with ⟨mid, rfl, rest⟩ | ⟨mid, rfl, rest⟩
  · cases mid with
    | nil => simp
    | cons u mid =>
      have := ends u (by simp [rest])
      simp [inside' u (by simp)] at this
  · cases mid with
    | nil => simp
    | cons u mid =>
      have := ends' u (by simp [rest])
      simp [inside u (by simp)] at this

theorem isRow_of_grouped {levels : TokenKind → Option Nat} {n : Nat} (h : Grouped levels n row v) :
    v.isRow = false := by
  induction h with
  | @operand _ t _ single =>
    rw [operandOf] at single
    generalize t.kind = k at single
    cases k <;> cases single <;> rfl
  | parens _ _ _ _ _ ih => exact ih
  | operation => rfl

theorem inExpression_of_evaluates (h : Evaluates [.phrase .expression] row [v]) :
    ∀ t ∈ row, inExpression t.kind = true := by
  have checked : balanced false 0 [.phrase .expression] = true := rfl
  exact (h.balanced (Int.le_refl 0) checked).2.1

theorem exists_value_of_sentence {line : Nat} {text : String}
    (sound : (Reading.ofText line text).fault = none)
    (sentence : Sentence (kindsOf (Reading.ofText line text).tokens))
    (noCase : .kwCase ∉ kindsOf (Reading.ofText line text).tokens) :
    ∃ tree, (parse line text).tree = .ok tree ∧
      Evaluates [.phrase .program] (Reading.ofText line text).tokens [tree] := by
  obtain ⟨ending, run, result_eq⟩ := parseSupply_cases line (Delivery.ofText line text)
  have parse_eq : parse line text = parseOf ending := result_eq
  rw [Reading.ofText, fault_ofDeliveries] at sound
  rw [Reading.ofText, tokens_ofDeliveries] at sentence noCase ⊢
  rw [sound] at run
  rw [parse_eq]
  cases run with
  | accepted _ evaluates => exact ⟨_, rfl, evaluates⟩
  | unbuilt choice => exact absurd choice noCase
  | unread spoilt => cases spoilt
  | error split _ _ _ refused =>
    rw [nil_append] at split
    exfalso
    refine refused _ rfl ?_
    rw [← kindsOf_append, ← split]
    exact sentence.accepts

/-- The tree of an expression is in the tree of a program, and it is the only one in which the
operators of the row are grouped by their levels. Without whole division and its remainder these are
the documented levels. -/
structure InPlace (row : List Token) (v tree : Tree) : Prop where
  within : Within v tree
  grouped : ∀ w, Grouped level 0 row w ↔ w = v
  documented : (∀ t ∈ row, t.kind ≠ .kwDiv ∧ t.kind ≠ .kwMod) →
    ∀ w, Grouped documentedLevel 0 row w ↔ w = v

theorem inPlace_of_evaluates {tree : Tree} (flat : Flat false row)
    (value : Evaluates [.phrase .expression] row [v]) (held : Holds v tree) :
    InPlace row v tree := by
  obtain ⟨w, all⟩ := flat.grouped fun _ known => known
  have grouped := all 0 fun _ => rfl
  obtain rfl := grouped.unique (Nat.zero_le 3) value
  have only {levels : TokenKind → Option Nat} (agree : ∀ t ∈ row, levels t.kind = level t.kind)
      (w : Tree) : Grouped levels 0 row w ↔ w = v := by
    constructor
    · intro other
      exact grouped.unique (Nat.zero_le 3) ((other.congr agree).evaluates (Nat.zero_le 3))
    · rintro rfl
      exact grouped.congr fun t member => (agree t member).symm
  refine ⟨held.within v (isRow_of_grouped grouped) .refl, only fun _ _ => rfl, fun plain =>
    only fun t member => ?_⟩
  obtain ⟨notDiv, notMod⟩ := plain t member
  unfold documentedLevel
  split
  case h_1 isDiv => exact absurd isDiv notDiv
  case h_2 isMod => exact absurd isMod notMod
  case h_3 => rfl

/-- The parse of a sentence without a choice returns a tree. Wherever the sentence has an expression
that is a flat row of operands and operators, the tree has the grouped tree of the row in it. So it
is after a token that leads in an expression, up to one that no expression has in it. -/
theorem operators_grouped_by_level (line : Nat) (text : String)
    (sound : (Reading.ofText line text).fault = none)
    (sentence : Sentence (kindsOf (Reading.ofText line text).tokens))
    (noCase : .kwCase ∉ kindsOf (Reading.ofText line text).tokens) :
    ∃ tree, (parse line text).tree = .ok tree ∧
      Evaluates [.phrase .program] (Reading.ofText line text).tokens [tree] ∧
      (∀ row v, Occurs .expression row v [.phrase .program] (Reading.ofText line text).tokens
        [tree] → Flat false row → InPlace row v tree) ∧
      ∀ before t row after, (Reading.ofText line text).tokens = before ++ t :: (row ++ after) →
        leadsIn t.kind = true → Flat false row →
        (∀ u ∈ after.head?, inExpression u.kind = false) → ∃ v, InPlace row v tree := by
  obtain ⟨tree, parsed, value⟩ := exists_value_of_sentence sound sentence noCase
  refine ⟨tree, parsed, value, fun row v occurs flat => ?_,
    fun before t row after split leads flat ends => ?_⟩
  · obtain ⟨expression, -, entry, member, -, held⟩ := occurs.held
    cases mem_singleton.mp member
    exact inPlace_of_evaluates flat expression held
  · have checked : led false [.phrase .program] = true := rfl
    obtain ⟨row', after', w, rest_eq, expression, ⟨entry, member, -, held⟩, ends'⟩ :=
      exists_led_in value checked split leads
    cases mem_singleton.mp member
    obtain ⟨v, all⟩ := flat.grouped fun _ known => known
    have evaluated := (all 0 fun _ => rfl).evaluates (Nat.zero_le 3)
    obtain rfl : row = row' := row_eq_of_ends rest_eq (inExpression_of_evaluates evaluated)
      (inExpression_of_evaluates expression) ends ends'.stops
    exact ⟨w, inPlace_of_evaluates flat expression held⟩

theorem sentence_of_expression {kinds : List TokenKind} (h : Yields [.phrase .expression] kinds) :
    Sentence ([.kwProgram, .ident, .semicolon, .kwBegin, .ident, .assign] ++
      (kinds ++ [.kwEnd, .dot])) := by
  have header : Yields [.phrase .header] [.kwProgram, .ident] :=
    .single (r := 2) rfl (.token _ (.token _ .nil))
  have assignment : Yields [.phrase .assignment] (.ident :: .assign :: kinds) :=
    .single (r := 80) rfl (.token _ (.token _ h))
  have statements : Yields [.phrase .statements] (.ident :: .assign :: kinds) :=
    .single (r := 37) rfl (.single (r := 38) rfl assignment)
  have body : Yields [.phrase .statementPart]
      (.kwBegin :: ((.ident :: .assign :: kinds) ++ [.kwEnd])) :=
    .single (r := 35) rfl (.token _ (statements.append (.token _ .nil)))
  have block := Yields.single (r := 3) rfl
    (.phrase (r := 6) rfl .nil (.phrase (r := 15) rfl .nil body))
  have sentence : Sentence _ :=
    .single (r := 1) rfl (header.append (.token _ (block.append (.token _ .nil))))
  simpa using sentence

def assigning : List Token :=
  [⟨.kwProgram, .str "program", 1, 0⟩, ⟨.ident, .str "p", 1, 8⟩, ⟨.semicolon, .str ";", 1, 9⟩,
    ⟨.kwBegin, .str "begin", 1, 11⟩, ⟨.ident, .str "x", 1, 17⟩]

/-- A difference whose second operand is a product with a sum in it. -/
theorem difference_grouped :
    ∃ tree, (parse 1 "program p; begin x := a - 2 * (b + c) end.").tree = .ok tree ∧
      Within (.binaryOp (.identifier (.str "a")) (.str "-")
        (.binaryOp (.literal (.int 2) (.str "NUMBER")) (.str "*")
          (.binaryOp (.identifier (.str "b")) (.str "+") (.identifier (.str "c"))))) tree := by
  have split : (Reading.ofText 1 "program p; begin x := a - 2 * (b + c) end.").tokens =
      assigning ++ ⟨.assign, .str ":=", 1, 19⟩ ::
        ([⟨.ident, .str "a", 1, 22⟩, ⟨.minus, .str "-", 1, 24⟩, ⟨.number, .int 2, 1, 26⟩,
          ⟨.times, .str "*", 1, 28⟩, ⟨.leftParen, .str "(", 1, 30⟩, ⟨.ident, .str "b", 1, 31⟩,
          ⟨.plus, .str "+", 1, 33⟩, ⟨.ident, .str "c", 1, 35⟩, ⟨.rightParen, .str ")", 1, 36⟩] ++
        [⟨.kwEnd, .str "end", 1, 38⟩, ⟨.dot, .str ".", 1, 41⟩]) := by rfl
  have sum : Grouped level 0 [⟨.ident, .str "b", 1, 31⟩, ⟨.plus, .str "+", 1, 33⟩,
      ⟨.ident, .str "c", 1, 35⟩] _ :=
    .operation [_] _ (Nat.zero_le 1) rfl (.operand rfl) (.operand rfl)
  have product := Grouped.operation [⟨.number, .int 2, 1, 26⟩] ⟨.times, .str "*", 1, 28⟩
    (Nat.le_refl 2) rfl (.operand rfl)
    (.parens ⟨.leftParen, .str "(", 1, 30⟩ ⟨.rightParen, .str ")", 1, 36⟩ rfl rfl sum)
  have grouped := Grouped.operation [⟨.ident, .str "a", 1, 22⟩] ⟨.minus, .str "-", 1, 24⟩
    (Nat.zero_le 1) rfl (.operand rfl) product
  have sentence := sentence_of_expression (grouped.evaluates (Nat.zero_le 3)).yields
  have flat : Flat false ([⟨.ident, .str "b", 1, 31⟩] ++
      ⟨.plus, .str "+", 1, 33⟩ :: [⟨.ident, .str "c", 1, 35⟩]) :=
    .more _ _ (.alone (.operand rfl)) rfl (.operand rfl)
  have flat := Flat.more ([⟨.ident, .str "a", 1, 22⟩] ++
      ⟨.minus, .str "-", 1, 24⟩ :: [⟨.number, .int 2, 1, 26⟩]) ⟨.times, .str "*", 1, 28⟩
    (.more _ _ (.alone (.operand rfl)) rfl (.operand rfl)) rfl
    (.parens ⟨.leftParen, .str "(", 1, 30⟩ ⟨.rightParen, .str ")", 1, 36⟩ rfl rfl flat)
  obtain ⟨tree, parsed, -, -, led⟩ := operators_grouped_by_level 1
    "program p; begin x := a - 2 * (b + c) end." (by rfl) (by rw [split]; exact sentence)
    (by rw [split]; decide)
  obtain ⟨v, inPlace⟩ := led _ _ _ _ split rfl flat (by simp [inExpression, level])
  obtain rfl := (inPlace.grouped _).mp grouped
  exact ⟨tree, parsed, inPlace.within⟩

def assignsNested : Parse → Bool
  | ⟨.ok (.program _ (.block _ _ (.statementPart (.statementSequence
      [.assignment _ (.binaryOp (.binaryOp ..) ..)])) _)), _, _⟩ => true
  | _ => false

/-- A sum whose second operand is a quotient, by the documented levels, is parsed as a quotient
whose first operand is a sum. -/
theorem wholeDivision_of_sum :
    ∃ row after header declarations routines extra target l op r v,
      (Reading.ofText 1 "program p; begin x := 1 + 2 div 2 end.").tokens =
        assigning ++ ⟨.assign, .str ":=", 1, 19⟩ :: (row ++ after) ∧
      (parse 1 "program p; begin x := 1 + 2 div 2 end.").tree =
        .ok (.program header (.block declarations routines (.statementPart (.statementSequence
          [.assignment target (.binaryOp l op r)])) extra)) ∧
      Grouped documentedLevel 0 row v ∧ .binaryOp l op r ≠ v := by
  have quotient : Grouped documentedLevel 2 ([⟨.number, .int 2, 1, 26⟩] ++
      ⟨.kwDiv, .str "div", 1, 28⟩ :: [⟨.number, .int 2, 1, 32⟩]) _ :=
    .operation _ _ (Nat.le_refl 2) rfl (.operand rfl) (.operand rfl)
  have grouped := Grouped.operation [⟨.number, .int 1, 1, 22⟩] ⟨.plus, .str "+", 1, 24⟩
    (Nat.zero_le 1) rfl (.operand rfl) quotient
  have found : assignsNested (parse 1 "program p; begin x := 1 + 2 div 2 end.") = true := by
    decide +kernel
  generalize parse 1 "program p; begin x := 1 + 2 div 2 end." = p at found ⊢
  unfold assignsNested at found
  split at found
  · exact ⟨_, [⟨.kwEnd, .str "end", 1, 34⟩, ⟨.dot, .str ".", 1, 37⟩], _, _, _, _, _, _, _, _, _,
      rfl, rfl, grouped, nofun⟩
  · cases found

end Syntax
end PascalStack
