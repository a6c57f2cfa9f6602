import PascalStack.Proofs.Pascal.Lockstep
import PascalStack.Proofs.Syntax.Parsed

/-!
# Parses of tokens with other spellings

From values that a respelling makes the same, every rule builds values that the respelling makes the
same. So tokens of the same kinds with such values are parsed to trees that the respelling makes the
same.
-/

namespace PascalStack

namespace Pascal

open LR Build

variable {ρ : Respelling}

def SpeltAlike (f : String → String) (v v' : Tree) : Prop :=
  ∃ s s', .str s = v ∧ .str s' = v' ∧ f s = f s'

variable {f : String → String} {v v' : Tree} {k : TokenKind}

theorem speltAlike_iff :
    SpeltAlike f v v' ↔ (∃ s, .str s = v) ∧ (∃ s', .str s' = v') ∧ v.mapText f = v'.mapText f := by
  constructor
  · rintro ⟨s, s', rfl, rfl, same⟩
    exact ⟨⟨s, rfl⟩, ⟨s', rfl⟩, congrArg Tree.str same⟩
  · rintro ⟨⟨s, rfl⟩, ⟨s', rfl⟩, same⟩
    exact ⟨s, s', rfl, rfl, Tree.str.inj same⟩

theorem SpeltAlike.sameFault (h : SpeltAlike f v v') : SameFault v.text v'.text := by
  obtain ⟨s, s', rfl, rfl, -⟩ := h
  exact trivial

def NamedAlike (ρ : Respelling) (v v' : Tree) : Prop :=
  SpeltAlike ρ.name v v' ∧ SpeltAlike ρ.routine v v'

def TokenAlike (ρ : Respelling) : TokenKind → Tree → Tree → Prop
  | .number, v, v' | .bool, v, v' => v = v'
  | .ident, v, v' => NamedAlike ρ v v'
  | .phrase, v, v' => SpeltAlike ρ.phrase v v'
  | .kwTo, v, v' | .kwDownto, v, v' => SpeltAlike ρ.direction v v'
  | .kwReal, v, v' | .kwInteger, v, v' | .kwBoolean, v, v' | .kwString, v, v' =>
    SpeltAlike ρ.word v v'
  | .kwAnd, v, v' | .kwOr, v, v' | .kwDiv, v, v' | .kwMod, v, v' | .plus, v, v' | .minus, v, v'
  | .times, v, v' | .divide, v, v' | .equals, v, v' | .different, v, v' | .lessThan, v, v'
  | .lessEqual, v, v' | .greaterThan, v, v' | .greaterEqual, v, v' => SpeltAlike ρ.operator v v'
  | _, v, v' => SpeltAlike (fun _ => "") v v'

def PhraseAlike (ρ : Respelling) : Phrase → Tree → Tree → Prop
  | .logicSign, v, v' | .productSign, v, v' | .sumSign, v, v' => SpeltAlike ρ.operator v v'
  | .arrayType, v, v' => v.isNode = true ∧ v.respell ρ = v'.respell ρ
  | _, v, v' => v.respell ρ = v'.respell ρ

def likeness (ρ : Respelling) : Likeness := ⟨TokenAlike ρ, PhraseAlike ρ⟩

theorem tokenAlike_self (h : Syntax.TokenValue k v) : TokenAlike ρ k v v := by
  cases k with
  | number | bool => exact rfl
  | ident =>
    obtain ⟨s, text⟩ := h
    exact ⟨⟨s, s, text, text, rfl⟩, s, s, text, text, rfl⟩
  | _ =>
    obtain ⟨s, text⟩ := h
    exact ⟨s, s, text, text, rfl⟩

theorem TokenAlike.sameFault (h : TokenAlike ρ k v v') : SameFault v.text v'.text := by
  cases k with
  | number | bool =>
    cases h
    exact .refl _
  | ident => exact h.1.sameFault
  | _ => exact SpeltAlike.sameFault h

theorem respellAll_append (ts us : List Tree) :
    Tree.respellAll ρ (ts ++ us) = Tree.respellAll ρ ts ++ Tree.respellAll ρ us := by
  induction ts with
  | nil => rfl
  | cons t ts ih => rw [List.cons_append, Tree.respellAll, ih, Tree.respellAll, List.cons_append]

theorem respell_consItem (a b : Tree) :
    (consItem a b).respell ρ = consItem (a.respell ρ) (b.respell ρ) := by
  cases b <;> rfl

theorem respell_snocItem (a b : Tree) :
    (snocItem a b).respell ρ = snocItem (a.respell ρ) (b.respell ρ) := by
  cases a with
  | list items => exact congrArg Tree.list (respellAll_append items [b])
  | _ => rfl

theorem respell_consStatement (a b : Tree) :
    (consStatement a b).respell ρ = consStatement (a.respell ρ) (b.respell ρ) := by
  cases b <;> rfl

theorem respellAll_statementsOf (a : Tree) :
    Tree.respellAll ρ a.statementsOf = (a.respell ρ).statementsOf := by
  cases a <;> rfl

theorem alike_typeOf {a a' : Tree} (node : a.isNode = true) (same : a.respell ρ = a'.respell ρ) :
    (typeOf a).respell ρ = (typeOf a').respell ρ := by
  have node' : a'.isNode = true := by
    rw [← Tree.isNode_respell (ρ := ρ), ← same, Tree.isNode_respell, node]
  rw [typeOf, typeOf, if_pos node, if_pos node', same]

theorem ruleAlike_of_mem : ∀ rule ∈ rules.toList, RuleAlike (likeness ρ) rule := by
  simp only [rules, List.forall_mem_cons, List.not_mem_nil, false_implies, implies_true, and_true,
    true_and, RuleAlike, forall_alike_nil, forall_alike_cons, likeness, Likeness.part, TokenAlike,
    PhraseAlike, NamedAlike, printsAlike_always, printsAlike_copy, printsAlike_node1,
    printsAlike_node2, printsAlike_node3, printsAlike_node4, printsAlike_leaving,
    printsAlike_option, part, List.getD_cons_zero, List.getD_cons_succ, imp_self]
  simp +contextual only [Tree.respell, Tree.respellAll, respell_consItem, respell_snocItem,
    respell_consStatement, respellAll_statementsOf, Tree.isNode, speltAlike_iff, and_imp,
    implies_true, and_true, true_and]
  -- Left are the rules whose trees depend on what stands in their parts.
  refine ⟨?real, ?integer, ?boolean, ?string, ?array, ?choice, ?phraseCase, ?nameCase, ?phrase⟩
  case real | integer | boolean | string =>
    rintro _ _ ⟨s, rfl⟩ ⟨s', rfl⟩ same
    exact congrArg Tree.type same
  case array => exact fun _ _ => alike_typeOf
  case choice =>
    rintro _ _ - - - subject subject' first _ _ - - - options options' second _ _ - - -
    exact printsAlike_choice (Tree.sameFault_text first) (Tree.sameFault_text second)
      (congrArg₂ Tree.caseStatement first second)
  case phraseCase | nameCase =>
    rintro _ _ ⟨s, rfl⟩ ⟨s', rfl⟩
    intros
    rfl
  case phrase =>
    rintro _ _ ⟨s, rfl⟩ ⟨s', rfl⟩ same
    exact congrArg (Tree.literal · (.str "PHRASE")) same

theorem kept_likeness (ρ : Respelling) : (likeness ρ).Kept where
  rule := ruleAlike_of_mem
  text _ _ _ := TokenAlike.sameFault
  absent := rfl

end Pascal

end PascalStack
