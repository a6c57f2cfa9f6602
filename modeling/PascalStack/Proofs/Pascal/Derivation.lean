import PascalStack.Pascal.Grammar

/-!
# Derivations of the language

What the parts of a rule derive: a row of kinds of token, and, along with the tokens themselves,
the values that the rules build from them.
-/

namespace PascalStack.Pascal

/-- What the parts of a rule are written with, by the rules. -/
inductive Yields : List Part → List TokenKind → Prop
  | nil : Yields [] []
  | token (k : TokenKind) {parts : List Part} {kinds : List TokenKind} :
      Yields parts kinds → Yields (.token k :: parts) (k :: kinds)
  | phrase {r : Nat} {rule : Rule} {parts : List Part} {own kinds : List TokenKind} :
      rule? r = some rule → Yields rule.parts own → Yields parts kinds →
      Yields (.phrase rule.makes :: parts) (own ++ kinds)

/-- The kinds of the tokens of a program, by the rules. -/
def Sentence (kinds : List TokenKind) : Prop := Yields [.phrase .program] kinds

def Opening (kinds : List TokenKind) : Prop := ∃ rest, Sentence (kinds ++ rest)

variable {kinds rest : List TokenKind} {parts more : List Part} {r : Nat} {rule : Rule}
  {tokens : List Token} {values : List Tree}

theorem Opening.of_append (h : Opening (kinds ++ rest)) : Opening kinds := by
  obtain ⟨more, sentence⟩ := h
  exact ⟨rest ++ more, by rwa [← List.append_assoc]⟩

def kindsOf (tokens : List Token) : List TokenKind := tokens.map (·.kind)

@[simp] theorem kindsOf_nil : kindsOf [] = [] := rfl

@[simp] theorem kindsOf_cons (t : Token) (tokens : List Token) :
    kindsOf (t :: tokens) = t.kind :: kindsOf tokens := rfl

@[simp] theorem kindsOf_append (first second : List Token) :
    kindsOf (first ++ second) = kindsOf first ++ kindsOf second := List.map_append

/-- A row of parts derives a row of tokens, and the rules, from the innermost phrase outwards,
give the parts these values. -/
inductive Evaluates : List Part → List Token → List Tree → Prop
  | nil : Evaluates [] [] []
  | token (t : Token) {parts : List Part} {tokens : List Token} {values : List Tree} :
      Evaluates parts tokens values →
      Evaluates (.token t.kind :: parts) (t :: tokens) (t.value :: values)
  | phrase {r : Nat} {rule : Rule} {parts : List Part} {own tokens : List Token}
      {arguments values : List Tree} {value : Tree} :
      rule? r = some rule → Evaluates rule.parts own arguments →
      (rule.build arguments).run.1 = .ok value → Evaluates parts tokens values →
      Evaluates (.phrase rule.makes :: parts) (own ++ tokens) (value :: values)

theorem Yields.append (first : Yields parts kinds) (second : Yields more rest) :
    Yields (parts ++ more) (kinds ++ rest) := by
  induction first with
  | nil => exact second
  | token k _ ih => exact ih.token k
  | phrase known own _ _ ih =>
    rw [List.append_assoc]
    exact .phrase known own ih

theorem Yields.single (known : rule? r = some rule) (own : Yields rule.parts kinds) :
    Yields [.phrase rule.makes] kinds := by
  simpa using Yields.phrase known own .nil

theorem Yields.exists_rule {n : Phrase} (h : Yields [.phrase n] kinds) :
    ∃ r rule, rule? r = some rule ∧ rule.makes = n ∧ Yields rule.parts kinds := by
  cases h with
  | phrase known own rest =>
    cases rest
    exact ⟨_, _, known, rfl, by simpa using own⟩

theorem Evaluates.append {rest : List Token} {others : List Tree}
    (first : Evaluates parts tokens values) (second : Evaluates more rest others) :
    Evaluates (parts ++ more) (tokens ++ rest) (values ++ others) := by
  induction first with
  | nil => exact second
  | token t _ ih => exact ih.token t
  | phrase known own built _ _ ih =>
    rw [List.append_assoc]
    exact .phrase known own built ih

theorem Evaluates.ofToken (t : Token) : Evaluates [.token t.kind] [t] [t.value] := .token t .nil

theorem Evaluates.single {r : Nat} {rule : Rule} {tokens : List Token} {arguments : List Tree}
    {value : Tree} (known : rule? r = some rule) (own : Evaluates rule.parts tokens arguments)
    (built : (rule.build arguments).run.1 = .ok value) :
    Evaluates [.phrase rule.makes] tokens [value] := by
  simpa using Evaluates.phrase known own built .nil

theorem Evaluates.yields (h : Evaluates parts tokens values) : Yields parts (kindsOf tokens) := by
  induction h with
  | nil => exact .nil
  | token t _ ih => exact ih.token t.kind
  | phrase known _ _ _ own ih =>
    rw [kindsOf_append]
    exact .phrase known own ih

def Phrase.depth : Phrase → Nat
  | .header | .varPart | .idList | .routines | .procedureHeading | .type | .statement | .writeln
  | .readln | .breakStatement | .continueStatement | .call | .logicSign | .productSign | .sumSign
  | .element => 1
  | .varDeclaration | .functionHeading | .parameter | .statements | .caseOption | .product
  | .assignment => 2
  | .varList | .parameters | .statementPart | .caseOptions | .sum => 3
  | .block | .expression => 4
  | .program | .procedure | .function | .range | .caseStatement | .argument | .ifStatement
  | .whileStatement | .repeatStatement | .forStatement | .lengthCall => 5
  | .routine | .arrayType | .arguments => 6

def Part.shallower (n : Phrase) : Part → Bool
  | .token _ => true
  | .phrase m => m.depth < n.depth

def numberedRules : List (Rule × Nat) := rules.toList.zipIdx 1

theorem mem_numberedRules : (rule, r) ∈ numberedRules ↔ rule? r = some rule := by
  rw [numberedRules, List.mem_zipIdx_iff_le_and_getElem?_sub, rule?]
  by_cases zero : r = 0
  · simp [zero]
  · simp [zero, Nat.one_le_iff_ne_zero]

theorem mem_rules (known : rule? r = some rule) : rule ∈ rules.toList := by
  obtain ⟨_, _, entry⟩ := List.mem_zipIdx (mem_numberedRules.mpr known)
  rw [entry]
  exact List.getElem_mem _

theorem forall_rules {P : Nat → Rule → Bool}
    (checked : (numberedRules.all fun entry => P entry.2 entry.1) = true)
    (known : rule? r = some rule) : P r rule = true :=
  List.all_eq_true.mp checked (rule, r) (mem_numberedRules.mpr known)

theorem exists_shallower (n : Phrase) :
    ∃ r rule, rule? r = some rule ∧ rule.makes = n ∧
      rule.parts.all (Part.shallower n) = true := by
  have found : (numberedRules.any fun entry =>
      entry.1.makes == n && entry.1.parts.all (Part.shallower n)) = true := by
    cases n <;> decide +kernel
  obtain ⟨⟨rule, r⟩, member, holds⟩ := List.any_eq_true.mp found
  rw [Bool.and_eq_true, beq_iff_eq] at holds
  exact ⟨r, rule, mem_numberedRules.mp member, holds⟩

theorem exists_yields_of_forall {parts : List Part}
    (each : ∀ n, .phrase n ∈ parts → ∃ kinds, Yields [.phrase n] kinds) :
    ∃ kinds, Yields parts kinds := by
  induction parts with
  | nil => exact ⟨[], .nil⟩
  | cons part parts ih =>
    obtain ⟨kinds, rest⟩ := ih fun n member => each n (List.mem_cons_of_mem _ member)
    cases part with
    | token k => exact ⟨k :: kinds, rest.token k⟩
    | phrase n =>
      obtain ⟨own, derived⟩ := each n List.mem_cons_self
      exact ⟨own ++ kinds, derived.append rest⟩

theorem exists_yields_phrase (n : Phrase) : ∃ kinds, Yields [.phrase n] kinds := by
  -- The induction is on the depth, which bounds the least derivation.
  obtain ⟨depth, bound⟩ : ∃ depth, n.depth < depth := ⟨_, Nat.lt_succ_self _⟩
  induction depth generalizing n with
  | zero => omega
  | succ depth ih =>
    obtain ⟨r, rule, known, rfl, shallow⟩ := exists_shallower n
    obtain ⟨kinds, derived⟩ : ∃ kinds, Yields rule.parts kinds := by
      apply exists_yields_of_forall
      intro m used
      have less := List.all_eq_true.mp shallow _ used
      simp only [Part.shallower, decide_eq_true_eq] at less
      exact ih m (by omega)
    exact ⟨kinds, .single known derived⟩

theorem exists_yields (parts : List Part) : ∃ kinds, Yields parts kinds :=
  exists_yields_of_forall fun n _ => exists_yields_phrase n

end PascalStack.Pascal
