import PascalStack.Proofs.Pascal.Recovery
import PascalStack.Proofs.Syntax.Shape

/-!
# Parsed trees are trees of programs

Every phrase has the tree of some well-formed syntax as its value. This holds rule by rule, and the
tokens of a text have the values of their kinds, so it holds of whatever a parse returns.
-/

namespace PascalStack.Syntax

open Pascal Pascal.Build List
open PascalStack.Piece (small Spells reservedWords marks)

def TokenValue : TokenKind → Tree → Prop
  | .number, t => (∃ n, .int n = t) ∨ ∃ x, .real x = t
  | .bool, t => ∃ b, .bool b = t
  | _, t => ∃ s, .str s = t

def TokenStands : TokenKind → Tree → Prop
  | .number, t => (∃ n, .int n = t) ∨ ∃ x, .real x = t
  | .bool, t => ∃ b, .bool b = t
  | kind, t => ∃ s : String, Spells kind s.toList ∧ .str s = t

def Stands : Phrase → Tree → Prop
  | .program, t => ∃ p : Program, p.WellFormed ∧ p.tree = t
  | .header, t => ∃ x, .header (.str x) = t
  | .block, t => ∃ b : Block, b.WellFormed ∧ b.tree = t
  | .varPart, t => ∃ ds, (∀ d ∈ ds, d.WellFormed) ∧ sectionTree ds = t
  | .varList, t =>
    ∃ ds : List Declaration, (∀ d ∈ ds, d.WellFormed) ∧ .list (ds.map Declaration.tree) = t
  | .varDeclaration, t => ∃ d : Declaration, d.WellFormed ∧ d.tree = t
  | .idList, t =>
    ∃ vs : List Variable, vs ≠ [] ∧ (∀ v ∈ vs, v.WellFormed) ∧ .list (vs.map Variable.tree) = t
  | .routines, t => ∃ rs, Routine.AllWellFormed rs ∧ .list (Routine.trees rs) = t
  | .routine, t | .procedure, t | .function, t => ∃ r : Routine, r.WellFormed ∧ r.tree = t
  | .procedureHeading, t => ∃ x, ∃ ps : List Parameter, (∀ p ∈ ps, p.WellFormed) ∧
    .procedureHeading (.str x) (.list (ps.map Parameter.tree)) = t
  | .functionHeading, t => ∃ x, ∃ τ : TypeForm, ∃ ps : List Parameter,
    τ.WellFormed ∧ (∀ p ∈ ps, p.WellFormed) ∧
    .functionHeading (nameTree x) τ.tree (.list (ps.map Parameter.tree)) = t
  | .parameters, t =>
    ∃ ps : List Parameter, (∀ p ∈ ps, p.WellFormed) ∧ .list (ps.map Parameter.tree) = t
  | .parameter, t => ∃ p : Parameter, p.WellFormed ∧ p.tree = t
  | .type, t => ∃ τ : TypeForm, τ.WellFormed ∧ τ.tree = t
  | .arrayType, t => ∃ first last element, (TypeForm.array first last element).WellFormed ∧
    (TypeForm.array first last element).tree = t
  | .range, t => ∃ a b : Expression, a.WellFormed ∧ b.WellFormed ∧ .range a.tree b.tree = t
  | .statementPart, t => ∃ ss, Statement.AllWellFormed ss ∧ bodyTree ss = t
  | .statements, t =>
    ∃ ss, Statement.AllWellFormed ss ∧ .statementSequence (Statement.trees ss) = t
  | .statement, t | .writeln, t | .readln, t | .breakStatement, t | .continueStatement, t
  | .ifStatement, t | .whileStatement, t | .repeatStatement, t | .forStatement, t =>
    ∃ s : Statement, s.WellFormed ∧ s.tree = t
  | .assignment, t => ∃ a : Assignment, a.WellFormed ∧ a.tree = t
  | .call, t =>
    (∃ f arguments, Expression.AllWellFormed arguments ∧ (Expression.call f arguments).tree = t) ∨
      ∃ x, (Expression.name x).tree = t
  | .arguments, t => ∃ es, Expression.AllWellFormed es ∧ .list (Expression.trees es) = t
  | .argument, t | .expression, t | .sum, t | .product, t | .element, t | .lengthCall, t =>
    ∃ e : Expression, e.WellFormed ∧ e.tree = t
  | .logicSign, t | .productSign, t | .sumSign, t => ∃ s, Spelt operators s ∧ .str s = t
  | .caseStatement, _ | .caseOptions, _ | .caseOption, _ => False

def PartStands : Part → Tree → Prop
  | .token k, t => TokenStands k t
  | .phrase n, t => Stands n t

def Sound (rule : Rule) : Prop :=
  ∀ arguments value, Forall₂ PartStands rule.parts arguments →
    (rule.build arguments).run.1 = .ok value → Stands rule.makes value

section Builds

variable {n : Phrase} {parts : List Part} {p q p' q' : Part} {i j k l : Nat}

theorem sound_always {t : Tree} (h : Stands n t) : Sound ⟨n, parts, always t⟩ := by
  rintro arguments value - built
  cases built
  exact h

theorem sound_copy (first : parts[i]? = some p) (h : ∀ a, PartStands p a → Stands n a) :
    Sound ⟨n, parts, copy i⟩ := by
  rintro arguments value all built
  cases built
  exact h _ (row_part all first)

theorem sound_node1 {f : Tree → Tree} (first : parts[i]? = some p)
    (h : ∀ a, PartStands p a → Stands n (f a)) : Sound ⟨n, parts, node1 f i⟩ := by
  rintro arguments value all built
  cases built
  exact h _ (row_part all first)

theorem sound_node2 {f : Tree → Tree → Tree} (first : parts[i]? = some p)
    (second : parts[j]? = some q)
    (h : ∀ a b, PartStands p a → PartStands q b → Stands n (f a b)) :
    Sound ⟨n, parts, node2 f i j⟩ := by
  rintro arguments value all built
  cases built
  exact h _ _ (row_part all first) (row_part all second)

theorem sound_node3 {f : Tree → Tree → Tree → Tree} (first : parts[i]? = some p)
    (second : parts[j]? = some q) (third : parts[k]? = some p')
    (h : ∀ a b c, PartStands p a → PartStands q b → PartStands p' c → Stands n (f a b c)) :
    Sound ⟨n, parts, node3 f i j k⟩ := by
  rintro arguments value all built
  cases built
  exact h _ _ _ (row_part all first) (row_part all second) (row_part all third)

theorem sound_node4 {f : Tree → Tree → Tree → Tree → Tree} (first : parts[i]? = some p)
    (second : parts[j]? = some q) (third : parts[k]? = some p') (fourth : parts[l]? = some q')
    (h : ∀ a b c d, PartStands p a → PartStands q b → PartStands p' c → PartStands q' d →
      Stands n (f a b c d)) :
    Sound ⟨n, parts, node4 f i j k l⟩ := by
  rintro arguments value all built
  cases built
  exact h _ _ _ _ (row_part all first) (row_part all second) (row_part all third)
    (row_part all fourth)

theorem sound_of_part {build : Build} (found : parts[i]? = some p) (none : ∀ a, ¬ PartStands p a) :
    Sound ⟨n, parts, build⟩ := by
  rintro arguments value all -
  exact absurd (row_part all found) (none _)

theorem sound_leaving : Sound ⟨.breakStatement, parts, leaving⟩ := by
  rintro arguments value - built
  cases built
  exact ⟨.breakLoop, trivial, rfl⟩

theorem sound_option : Sound ⟨n, parts, option⟩ := by
  rintro arguments value - built
  cases built

end Builds

theorem trees_append (es es' : List Expression) :
    Expression.trees (es ++ es') = Expression.trees es ++ Expression.trees es' := by
  induction es with
  | nil => rfl
  | cons e es ih => simp [Expression.trees, ih]

theorem statementsOf_tree {s : Statement} (h : s.WellFormed) :
    ∃ ss, Statement.AllWellFormed ss ∧ Statement.trees ss = s.tree.statementsOf := by
  cases s with
  | empty => exact ⟨[], trivial, rfl⟩
  | assign a =>
    refine ⟨[.assign a], ⟨h, trivial⟩, ?_⟩
    obtain ⟨target, value⟩ := a
    cases target <;> rfl
  | _ => exact ⟨[_], ⟨h, trivial⟩, rfl⟩

variable {kind : TokenKind} {lexeme : List Char} {value tree : Tree} {t : Token} {line offset : Nat}
  {report text : String} {pieces : List Piece}

theorem spelt_of_token {kind : TokenKind} {words : List String} {t : Tree}
    (h : ∃ s : String, (small s.toList, kind) ∈ reservedWords ++ marks ∧ .str s = t)
    (listed : ∀ entry ∈ reservedWords ++ marks, entry.2 = kind →
      entry.1 ∈ words.map String.toList) : ∃ s, Spelt words s ∧ .str s = t := by
  obtain ⟨s, member, text⟩ := h
  obtain ⟨word, known, same⟩ := mem_map.mp (listed _ member rfl)
  exact ⟨s, ⟨word, known, same.symm⟩, text⟩

theorem sound_declarations : ∀ rule ∈ rules.toList.take 34, Sound rule := by
  have word {kind : TokenKind} (t : Tree)
      (h : ∃ s : String, (small s.toList, kind) ∈ reservedWords ++ marks ∧ .str s = t)
      (listed : ∀ entry ∈ reservedWords ++ marks, entry.2 = kind →
        entry.1 ∈ typeNames.map String.toList) : Stands .type (typeOf t) := by
    obtain ⟨s, spelt, rfl⟩ := spelt_of_token h listed
    exact ⟨.word s, spelt, rfl⟩
  simp only [rules, take_succ_cons, take_zero, forall_mem_cons,
    not_mem_nil, false_implies, implies_true, and_true]
  refine ⟨
    sound_node2 rfl rfl (by rintro _ _ ⟨x, rfl⟩ ⟨b, formed, rfl⟩; exact ⟨⟨x, b⟩, formed, rfl⟩),
    sound_node1 rfl (by rintro _ ⟨x, -, rfl⟩; exact ⟨x, rfl⟩),
    sound_node3 rfl rfl rfl (by
      rintro _ _ _ ⟨ds, first, rfl⟩ ⟨rs, second, rfl⟩ ⟨ss, third, rfl⟩
      exact ⟨.make ds rs ss none, ⟨first, second, third, by simp⟩, rfl⟩),
    sound_node4 rfl rfl rfl rfl (by
      rintro _ _ _ _ ⟨ds, first, rfl⟩ ⟨rs, second, rfl⟩ ⟨extra, third, rfl⟩ ⟨ss, fourth, rfl⟩
      refine ⟨.make ds rs ss (some extra), ⟨first, second, fourth, ?_⟩, rfl⟩
      rintro _ ⟨⟩
      exact third),
    sound_node1 rfl (by rintro _ ⟨ds, all, rfl⟩; exact ⟨ds, all, rfl⟩),
    sound_always ⟨[], by simp, rfl⟩,
    sound_node2 rfl rfl (by
      rintro _ _ ⟨ds, all, rfl⟩ ⟨d, last, rfl⟩
      refine ⟨ds ++ [d], ?_, by simp [snocItem]⟩
      exact forall_mem_append.mpr ⟨all, forall_mem_singleton.mpr last⟩),
    sound_node1 rfl (by
      rintro _ ⟨d, formed, rfl⟩
      exact ⟨[d], forall_mem_singleton.mpr formed, rfl⟩),
    sound_node2 rfl rfl (by
      rintro _ _ ⟨vs, nonempty, all, rfl⟩ ⟨τ, formed, rfl⟩
      exact ⟨⟨vs, τ⟩, ⟨nonempty, all, formed⟩, rfl⟩),
    sound_node1 rfl (by
      rintro _ ⟨x, -, rfl⟩
      exact ⟨[.name x], cons_ne_nil _ _, forall_mem_singleton.mpr trivial, rfl⟩),
    sound_node2 rfl rfl (by
      rintro _ _ ⟨x, -, rfl⟩ ⟨e, formed, rfl⟩
      exact ⟨[.element x e], cons_ne_nil _ _, forall_mem_singleton.mpr formed, rfl⟩),
    sound_node2 rfl rfl (by
      rintro _ _ ⟨x, -, rfl⟩ ⟨vs, -, all, rfl⟩
      exact ⟨.name x :: vs, cons_ne_nil _ _, forall_mem_cons.mpr ⟨trivial, all⟩, rfl⟩),
    sound_node3 rfl rfl rfl (by
      rintro _ _ _ ⟨x, -, rfl⟩ ⟨e, formed, rfl⟩ ⟨vs, -, all, rfl⟩
      exact ⟨.element x e :: vs, cons_ne_nil _ _, forall_mem_cons.mpr ⟨formed, all⟩,
        rfl⟩),
    sound_node2 rfl rfl (by
      rintro _ _ ⟨r, first, rfl⟩ ⟨rs, rest, rfl⟩
      exact ⟨r :: rs, ⟨first, rest⟩, rfl⟩),
    sound_always ⟨[], trivial, rfl⟩,
    sound_copy rfl fun _ h => h,
    sound_copy rfl fun _ h => h,
    sound_node2 rfl rfl (by
      rintro _ _ ⟨x, ps, all, rfl⟩ ⟨b, formed, rfl⟩
      exact ⟨.procedure x ps b, ⟨all, formed⟩, rfl⟩),
    sound_node1 rfl (by rintro _ ⟨x, -, rfl⟩; exact ⟨x, [], by simp, rfl⟩),
    sound_node2 rfl rfl (by rintro _ _ ⟨x, -, rfl⟩ ⟨ps, all, rfl⟩; exact ⟨x, ps, all, rfl⟩),
    sound_node2 rfl rfl (by
      rintro _ _ ⟨x, τ, ps, result, all, rfl⟩ ⟨b, formed, rfl⟩
      exact ⟨.function x τ ps b, ⟨result, all, formed⟩, rfl⟩),
    sound_node1 rfl (by rintro _ ⟨τ, result, rfl⟩; exact ⟨none, τ, [], result, by simp, rfl⟩),
    sound_node2 rfl rfl (by
      rintro _ _ ⟨x, -, rfl⟩ ⟨τ, result, rfl⟩
      exact ⟨some x, τ, [], result, by simp, rfl⟩),
    sound_node3 rfl rfl rfl (by
      rintro _ _ _ ⟨x, -, rfl⟩ ⟨ps, all, rfl⟩ ⟨τ, result, rfl⟩
      exact ⟨some x, τ, ps, result, all, rfl⟩),
    sound_node2 rfl rfl (by
      rintro _ _ ⟨p, first, rfl⟩ ⟨ps, rest, rfl⟩
      exact ⟨p :: ps, forall_mem_cons.mpr ⟨first, rest⟩, rfl⟩),
    sound_node1 rfl (by
      rintro _ ⟨p, formed, rfl⟩
      exact ⟨[p], forall_mem_singleton.mpr formed, rfl⟩),
    sound_node2 rfl rfl (by
      rintro _ _ ⟨x, -, rfl⟩ ⟨τ, formed, rfl⟩
      exact ⟨⟨x, τ⟩, formed, rfl⟩),
    sound_node1 rfl fun a h => word a h (by decide),
    sound_node1 rfl fun a h => word a h (by decide),
    sound_node1 rfl fun a h => word a h (by decide),
    sound_node1 rfl fun a h => word a h (by decide),
    sound_node1 rfl (by rintro _ ⟨_, _, _, formed, rfl⟩; exact ⟨.array _ _ _, formed, rfl⟩),
    sound_node2 rfl rfl (by
      rintro _ _ ⟨a, b, first, last, rfl⟩ ⟨τ, formed, rfl⟩
      exact ⟨a, b, τ, ⟨first, last, formed⟩, rfl⟩),
    sound_node2 rfl rfl (by
      rintro _ _ ⟨a, first, rfl⟩ ⟨b, last, rfl⟩
      exact ⟨a, b, first, last, rfl⟩)⟩

theorem sound_statements : ∀ rule ∈ (rules.toList.drop 34).take 48, Sound rule := by
  have counted {kind : TokenKind} (a d e b : Tree)
      (listed : ∀ entry ∈ reservedWords ++ marks, entry.2 = kind →
        entry.1 ∈ directions.map String.toList) (start : Stands .assignment a)
      (h : ∃ s : String, (small s.toList, kind) ∈ reservedWords ++ marks ∧ .str s = d)
      (limit : Stands .expression e) (body : Stands .statement b) :
      Stands .forStatement (.forStatement a d e b) := by
    obtain ⟨a, start, rfl⟩ := start
    obtain ⟨d, spelt, rfl⟩ := spelt_of_token h listed
    obtain ⟨e, limit, rfl⟩ := limit
    obtain ⟨b, body, rfl⟩ := body
    exact ⟨.forDo a d e b, ⟨start, spelt, limit, body⟩, rfl⟩
  simp only [rules, drop_succ_cons, drop_zero, take_succ_cons, take_zero,
    forall_mem_cons, not_mem_nil, false_implies, implies_true, and_true]
  refine ⟨
    sound_node1 rfl (by rintro _ ⟨ss, all, rfl⟩; exact ⟨ss, all, rfl⟩),
    sound_node2 rfl rfl (by
      rintro _ _ ⟨s, first, rfl⟩ ⟨ss, rest, rfl⟩
      exact ⟨s :: ss, ⟨first, rest⟩, rfl⟩),
    sound_node1 rfl (by
      rintro _ ⟨s, formed, rfl⟩
      obtain ⟨ss, all, items⟩ := statementsOf_tree formed
      exact ⟨ss, all, congrArg Tree.statementSequence items⟩),
    sound_copy rfl (by rintro _ ⟨a, formed, rfl⟩; exact ⟨.assign a, formed, rfl⟩),
    sound_copy rfl (by rintro _ ⟨ss, all, rfl⟩; exact ⟨.compound ss, all, rfl⟩),
    sound_copy rfl fun _ h => h,
    sound_copy rfl fun _ h => h,
    sound_copy rfl fun _ h => h,
    sound_copy rfl fun _ h => h,
    sound_copy rfl (by
      rintro _ (⟨f, es, all, rfl⟩ | ⟨x, rfl⟩)
      · exact ⟨.call f es, all, rfl⟩
      · exact ⟨.mention x, trivial, rfl⟩),
    sound_copy rfl fun _ h => h,
    sound_copy rfl fun _ h => h,
    sound_copy rfl fun _ h => h,
    sound_copy rfl fun _ h => h,
    sound_copy rfl fun _ h => h.elim,
    sound_always ⟨.empty, trivial, rfl⟩,
    sound_of_part (i := 3) rfl fun _ h => h,
    sound_of_part (i := 0) rfl fun _ h => h,
    sound_of_part (i := 0) rfl fun _ h => h,
    sound_option, sound_option, sound_option, sound_option,
    sound_node1 rfl (by rintro _ ⟨es, all, rfl⟩; exact ⟨.writeln es, all, rfl⟩),
    sound_always ⟨.writeln [], trivial, rfl⟩,
    sound_node1 rfl (by rintro _ ⟨es, all, rfl⟩; exact ⟨.writeln es, all, rfl⟩),
    sound_always ⟨.writeln [], trivial, rfl⟩,
    sound_node1 rfl (by rintro _ ⟨vs, -, all, rfl⟩; exact ⟨.readln vs, all, rfl⟩),
    sound_always ⟨.readln [], forall_mem_nil _, rfl⟩,
    sound_node1 rfl (by rintro _ ⟨vs, -, all, rfl⟩; exact ⟨.readln vs, all, rfl⟩),
    sound_always ⟨.readln [], forall_mem_nil _, rfl⟩,
    sound_leaving,
    sound_always ⟨.continueLoop, trivial, rfl⟩,
    sound_node2 rfl rfl (by
      rintro _ _ ⟨f, -, rfl⟩ ⟨es, all, rfl⟩
      exact .inl ⟨f, es, all, rfl⟩),
    sound_node1 rfl (by rintro _ ⟨f, -, rfl⟩; exact .inl ⟨f, [], trivial, rfl⟩),
    sound_node1 rfl (by rintro _ ⟨x, -, rfl⟩; exact .inr ⟨x, rfl⟩),
    sound_node2 rfl rfl (by
      rintro _ _ ⟨es, all, rfl⟩ ⟨e, last, rfl⟩
      refine ⟨es ++ [e], Expression.allWellFormed_append all ⟨last, trivial⟩, ?_⟩
      rw [trees_append]
      rfl),
    sound_node1 rfl (by rintro _ ⟨e, formed, rfl⟩; exact ⟨[e], ⟨formed, trivial⟩, rfl⟩),
    sound_copy rfl fun _ h => h,
    sound_node3 rfl rfl rfl (by
      rintro _ _ _ ⟨e, test, rfl⟩ ⟨yes, first, rfl⟩ ⟨no, second, rfl⟩
      exact ⟨.conditional e yes no, ⟨test, first, .inr second⟩, rfl⟩),
    sound_node2 rfl rfl (by
      rintro _ _ ⟨e, test, rfl⟩ ⟨yes, first, rfl⟩
      exact ⟨.conditional e yes .absent, ⟨test, first, .inl rfl⟩, rfl⟩),
    sound_node2 rfl rfl (by
      rintro _ _ ⟨e, test, rfl⟩ ⟨s, body, rfl⟩
      exact ⟨.whileDo e s, ⟨test, body⟩, rfl⟩),
    sound_node2 rfl rfl (by
      rintro _ _ ⟨s, body, rfl⟩ ⟨e, test, rfl⟩
      exact ⟨.repeatUntil s e, ⟨body, test⟩, rfl⟩),
    sound_node4 rfl rfl rfl rfl fun a d e b => counted a d e b (by decide),
    sound_node4 rfl rfl rfl rfl fun a d e b => counted a d e b (by decide),
    sound_node2 rfl rfl (by
      rintro _ _ ⟨x, -, rfl⟩ ⟨e, formed, rfl⟩
      exact ⟨⟨.name x, e⟩, ⟨trivial, formed⟩, rfl⟩),
    sound_node2 rfl rfl (by
      rintro _ _ ⟨x, -, rfl⟩ (⟨f, es, all, rfl⟩ | ⟨y, rfl⟩)
      · exact ⟨⟨.name x, .call f es⟩, ⟨trivial, all⟩, rfl⟩
      · exact ⟨⟨.name x, .name y⟩, ⟨trivial, trivial⟩, rfl⟩),
    sound_node3 rfl rfl rfl (by
      rintro _ _ _ ⟨x, -, rfl⟩ ⟨i, index, rfl⟩ ⟨e, formed, rfl⟩
      exact ⟨⟨.element x i, e⟩, ⟨index, formed⟩, rfl⟩)⟩

theorem sound_expressions : ∀ rule ∈ rules.toList.drop 82, Sound rule := by
  have operation (a o b : Tree) (left : ∃ e : Expression, e.WellFormed ∧ e.tree = a)
      (sign : ∃ s, Spelt operators s ∧ .str s = o)
      (right : ∃ e : Expression, e.WellFormed ∧ e.tree = b) :
      ∃ e : Expression, e.WellFormed ∧ e.tree = .binaryOp a o b := by
    obtain ⟨a, left, rfl⟩ := left
    obtain ⟨o, sign, rfl⟩ := sign
    obtain ⟨b, right, rfl⟩ := right
    exact ⟨.operation a o b, ⟨left, sign, right⟩, rfl⟩
  simp only [rules, drop_succ_cons, drop_zero, forall_mem_cons,
    not_mem_nil, false_implies, implies_true, and_true]
  refine ⟨
    sound_node3 rfl rfl rfl operation,
    sound_copy rfl fun _ h => h,
    sound_copy rfl fun _ h => h,
    sound_node3 rfl rfl rfl operation,
    sound_copy rfl fun _ h => h,
    sound_node3 rfl rfl rfl operation,
    ?_, ?_, ?_, ?_, ?_, ?_, ?_, ?_, ?_, ?_, ?_, ?_, ?_, ?_,
    sound_node1 rfl (by rintro _ ⟨e, formed, rfl⟩; exact ⟨.length e, formed, rfl⟩),
    sound_node1 rfl (by rintro _ ⟨x, -, rfl⟩; exact ⟨.name x, trivial, rfl⟩),
    sound_node1 rfl (by
      rintro _ (⟨n, rfl⟩ | ⟨x, rfl⟩)
      · exact ⟨.literal (.integer n), trivial, rfl⟩
      · exact ⟨.literal (.decimal x), trivial, rfl⟩),
    sound_node1 rfl (by rintro _ ⟨b, rfl⟩; exact ⟨.literal (.truth b), trivial, rfl⟩),
    sound_node1 rfl (by rintro _ ⟨s, quoted, rfl⟩; exact ⟨.literal (.phrase s), quoted, rfl⟩),
    sound_copy rfl fun _ h => h,
    sound_node1 rfl (by rintro _ ⟨e, formed, rfl⟩; exact ⟨.negation "NOT" e, ⟨rfl, formed⟩, rfl⟩),
    sound_copy rfl fun _ h => h,
    sound_node2 rfl rfl (by
      rintro _ _ ⟨x, -, rfl⟩ ⟨e, formed, rfl⟩
      exact ⟨.element x e, formed, rfl⟩),
    sound_copy rfl (by
      rintro _ (⟨f, es, all, rfl⟩ | ⟨x, rfl⟩)
      · exact ⟨.call f es, all, rfl⟩
      · exact ⟨.name x, trivial, rfl⟩)⟩
  -- The fourteen rules that are left copy a sign.
  all_goals exact sound_copy rfl fun _ h => spelt_of_token h (by decide)

theorem sound_of_rule {r : Nat} {rule : Rule} (known : rule? r = some rule) : Sound rule := by
  have member : rule ∈ rules.toList := mem_rules known
  rw [← take_append_drop 34 rules.toList, mem_append] at member
  rcases member with member | member
  · exact sound_declarations rule member
  · rw [← take_append_drop 48 (rules.toList.drop 34), mem_append, drop_drop]
      at member
    rcases member with member | member
    · exact sound_statements rule member
    · exact sound_expressions rule member

theorem stands_of_evaluates {parts : List Part} {tokens : List Token} {values : List Tree}
    (h : Evaluates parts tokens values) (plain : ∀ t ∈ tokens, TokenStands t.kind t.value) :
    Forall₂ PartStands parts values := by
  induction h with
  | nil => exact .nil
  | token t _ ih =>
    rw [forall_mem_cons] at plain
    exact .cons plain.1 (ih plain.2)
  | phrase known _ built _ own rest =>
    rw [forall_mem_append] at plain
    exact .cons (sound_of_rule known _ _ (own plain.1) built) (rest plain.2)

theorem tokenValue_of_valueOf (h : Piece.valueOf kind lexeme = .ok value) :
    TokenValue kind value := by
  cases kind with
  | number =>
    simp only [Piece.valueOf] at h
    split at h
    · cases h
      exact .inr ⟨_, rfl⟩
    · cases read : Number.readInteger (String.ofList lexeme) with
      | error f =>
        rw [read] at h
        cases h
      | ok n =>
        rw [read] at h
        cases h
        exact .inl ⟨n, rfl⟩
  | _ =>
    cases h
    exact ⟨_, rfl⟩

theorem tokenStands_of_valueOf (spells : Spells kind lexeme)
    (h : Piece.valueOf kind lexeme = .ok value) : TokenStands kind value := by
  have plain := tokenValue_of_valueOf h
  cases kind with
  | number | bool => exact plain
  | _ =>
    cases h
    refine ⟨String.ofList lexeme, ?_, rfl⟩
    rw [String.toList_ofList]
    exact spells

theorem piece_of_arriving (member : t ∈ arriving (Delivery.ofPieces line offset report pieces)) :
    ∃ p ∈ pieces, p.kind = .lexeme t.kind ∧ Piece.valueOf t.kind p.text = .ok t.value := by
  induction pieces generalizing line offset report with
  | nil => simp [Delivery.ofPieces, arriving] at member
  | cons piece rest ih =>
    obtain ⟨kind, text⟩ := piece
    cases kind with
    | blank | comment | newline | illegal =>
      obtain ⟨p, inside, read⟩ := ih member
      exact ⟨p, mem_cons_of_mem _ inside, read⟩
    | lexeme kind =>
      simp only [Delivery.ofPieces] at member
      cases value : Piece.valueOf kind text with
      | error f => simp [value, arriving] at member
      | ok v =>
        simp only [value, arriving, mem_cons] at member
        rcases member with rfl | member
        · exact ⟨_, mem_cons_self, rfl, value⟩
        · obtain ⟨p, inside, read⟩ := ih member
          exact ⟨p, mem_cons_of_mem _ inside, read⟩

theorem tokenStands_of_arriving
    (spells : ∀ p ∈ pieces, ∀ kind, p.kind = .lexeme kind → Spells kind p.text)
    (member : t ∈ arriving (Delivery.ofPieces line offset report pieces)) :
    TokenStands t.kind t.value := by
  obtain ⟨p, inside, kind, value⟩ := piece_of_arriving member
  exact tokenStands_of_valueOf (spells p inside _ kind) value

theorem evaluates_of_parsed (parsed : (parse line text).tree = .ok tree) (present : tree ≠ .none) :
    ∃ tokens, Evaluates [.phrase .program] tokens [tree] ∧
      ∀ t ∈ tokens, TokenStands t.kind t.value := by
  obtain ⟨dropped, suffix, tokens_eq, evaluates, _⟩ := found_of_parsed parsed present
  refine ⟨suffix, evaluates, fun t member => ?_⟩
  have arrives : t ∈ arriving (Delivery.ofText line text) := by
    rw [tokens_eq]
    exact mem_append_right dropped member
  exact tokenStands_of_arriving (fun _ cutOff _ lexeme => Piece.spells_of_cut cutOff lexeme) arrives

theorem exists_program_of_parsed (parsed : (parse line text).tree = .ok tree)
    (present : tree ≠ .none) : ∃ p : Program, p.tree = tree := by
  obtain ⟨tokens, evaluates, plain⟩ := evaluates_of_parsed parsed present
  obtain _ | ⟨⟨p, -, same⟩, _⟩ := stands_of_evaluates evaluates plain
  exact ⟨p, same⟩

end PascalStack.Syntax
