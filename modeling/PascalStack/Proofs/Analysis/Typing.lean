import PascalStack.Analysis.Typing
import PascalStack.Proofs.Syntax.Folding
import PascalStack.Proofs.Tree.Dictionary

/-!
# Types of folded expressions

Folding puts literals in the place of operations, and a literal keeps the type it is written with,
so a simplified expression can have another type than the expression it comes from. It is said which
types these are. Where an operation or an assignment does not take them, one of them is a type of
literals, or that of an expression in error.
-/

namespace PascalStack.Analysis

open Syntax Simplify List

def foldedTypes : String → List String
  | "INTEGER" => ["INTEGER", "NUMBER", "UNKNOWN"]
  | "REAL" => ["REAL", "INTEGER", "NUMBER", "UNKNOWN"]
  | "STRING" => ["STRING", "PHRASE", "UNKNOWN"]
  | "BOOLEAN" => ["BOOLEAN", "BOOL", "UNKNOWN"]
  | type => [type, "UNKNOWN"]

def literalTypes : List String := ["NUMBER", "PHRASE", "BOOL", "UNKNOWN"]

/-- A type that a simplified expression can have, and the type it had before. -/
inductive Fits : Value → Value → Prop
  | same (v : Value) : Fits v v
  | folded {type type' : String} : type' ∈ foldedTypes type → Fits (.named type) (.named type')

theorem mem_foldedTypes_self (type : String) : type ∈ foldedTypes type := by
  unfold foldedTypes
  split <;> simp

theorem unknown_mem_foldedTypes (type : String) : "UNKNOWN" ∈ foldedTypes type := by
  unfold foldedTypes
  split <;> simp

variable {type name sign : String} {v n : Literal} {a b : Tree} {target source : Value}

theorem foldedTypes_cases {type' : String} (h : type' ∈ foldedTypes type) :
    type' = type ∨ (type = "REAL" ∧ type' = "INTEGER") ∨ type' ∈ literalTypes := by
  unfold foldedTypes at h
  split at h <;> simp only [mem_cons, not_mem_nil, or_false] at h
  all_goals
    simp only [literalTypes, mem_cons, not_mem_nil, or_false]
    tauto

/-- Whether an operator that takes two types takes what they can become, or one of them became a
type of literals. -/
def OperatorTable.foldsWell (table : OperatorTable) : Bool :=
  table.all fun ((l, r), type) => (foldedTypes l).all fun l' => (foldedTypes r).all fun r' =>
    match table.lookup (l', r') with
    | some type' => (foldedTypes type).contains type'
    | none => literalTypes.contains l' || literalTypes.contains r'

theorem operatorTable_foldsWell (op : String) : (operatorTable op).foldsWell = true := by
  unfold operatorTable
  split <;> decide +kernel

section Operations

variable {op l r l' r' type : String}

theorem operation_fits (h : (operatorTable op).lookup (l, r) = some type)
    (left : l' ∈ foldedTypes l) (right : r' ∈ foldedTypes r) :
    match (operatorTable op).lookup (l', r') with
    | some type' => type' ∈ foldedTypes type
    | none => l' ∈ literalTypes ∨ r' ∈ literalTypes := by
  have all := operatorTable_foldsWell op
  rw [OperatorTable.foldsWell, all_eq_true] at all
  have entry := all_eq_true.mp (all_eq_true.mp (all _ (mem_of_lookup h)) l' left) r' right
  split at entry
  · exact contains_iff_mem.mp entry
  · simpa using entry

def foldTable : String → OperatorTable
  | "+" => [(("NUMBER", "NUMBER"), "NUMBER"), (("PHRASE", "PHRASE"), "PHRASE")]
  | "-" | "*" | "/" | "DIV" | "MOD" => [(("NUMBER", "NUMBER"), "NUMBER")]
  | "=" | "<>" =>
    giving "BOOL" [("NUMBER", "NUMBER"), ("PHRASE", "PHRASE"), ("BOOL", "BOOL")]
  | "<" | "<=" | ">" | ">=" => giving "BOOL" [("NUMBER", "NUMBER"), ("PHRASE", "PHRASE")]
  | "AND" | "OR" => giving "BOOL" [("BOOL", "BOOL")]
  | _ => []

theorem typeName_eq {value : Tree} (h : Tree.literal value (.str name) = v.tree) :
    v.typeName = name := by
  injection h with _ type
  injection type with type
  exact type.symm

theorem typeName_of_number {x : Except Fault Tree}
    (h : (do return some (numberLiteral (← x)) : Except Fault (Option Tree)) = .ok (some v.tree)) :
    v.typeName = "NUMBER" := by
  cases x with
  | error f => cases h
  | ok value => exact typeName_eq (Option.some.inj (Except.ok.inj h))

theorem typeName_of_relation {relation : Tree.Relation}
    (h : Simplify.relation relation a b = .ok (some v.tree)) : v.typeName = "BOOL" := by
  cases holds : Tree.relate relation a b with
  | error f => simp [Simplify.relation, holds, bind, Except.bind] at h
  | ok truth =>
    simp only [Simplify.relation, holds, bind, Except.bind, pure, Except.pure] at h
    exact typeName_eq (Option.some.inj (Except.ok.inj h))

theorem typeName_of_division {l r : Literal} {f : Tree → Tree → Except Fault Tree}
    (h : division f (.binaryOp l.tree (.str op) r.tree) a b = .ok (some v.tree)) :
    v.typeName = "NUMBER" := by
  unfold division at h
  split at h
  · cases h
  · exact typeName_of_number h

theorem lookup_of_foldNumbers {l r : Literal}
    (h : foldNumbers (.binaryOp l.tree (.str op) r.tree) op a b = .ok (some v.tree)) :
    (foldTable op).lookup ("NUMBER", "NUMBER") = some v.typeName := by
  unfold foldNumbers at h
  split at h
  case h_1 | h_2 | h_3 =>
    rw [typeName_of_number h]
    rfl
  case h_4 | h_5 | h_6 =>
    rw [typeName_of_division h]
    rfl
  case h_7 | h_8 =>
    rw [typeName_eq (Option.some.inj (Except.ok.inj h))]
    rfl
  case h_9 | h_10 | h_11 | h_12 =>
    rw [typeName_of_relation h]
    rfl
  case h_13 => cases h

theorem lookup_of_foldBools {a b : Bool} (h : foldBools op a b = some v.tree) :
    (foldTable op).lookup ("BOOL", "BOOL") = some v.typeName := by
  unfold foldBools at h
  split at h
  case h_5 => cases h
  all_goals
    rw [typeName_eq (Option.some.inj h)]
    rfl

theorem lookup_of_foldPhrases (h : foldPhrases op a b = .ok (some v.tree)) :
    (foldTable op).lookup ("PHRASE", "PHRASE") = some v.typeName := by
  unfold foldPhrases at h
  split at h
  case h_1 =>
    cases sum : Tree.add a b with
    | error f =>
      rw [sum] at h
      cases h
    | ok joined =>
      cases shown : joined.text with
      | error f => simp [sum, shown, bind, Except.bind] at h
      | ok text =>
        simp only [sum, shown, bind, Except.bind, pure, Except.pure] at h
        rw [typeName_eq (Option.some.inj (Except.ok.inj h))]
        rfl
  case h_2 | h_3 =>
    rw [typeName_eq (Option.some.inj (Except.ok.inj h))]
    rfl
  case h_4 | h_5 | h_6 | h_7 =>
    rw [typeName_of_relation h]
    rfl
  case h_8 => cases h

theorem lookup_of_computes {l r : Literal} (h : l.Computes op r v) :
    (foldTable op).lookup (l.typeName, r.typeName) = some v.typeName := by
  cases l with
  | integer _ | decimal _ =>
    cases r with
    | integer _ | decimal _ => exact lookup_of_foldNumbers h
    | _ => cases h
  | truth _ => cases r <;> cases h
  | verdict _ =>
    cases r with
    | verdict _ => exact lookup_of_foldBools (Except.ok.inj h)
    | _ => cases h
  | phrase _ =>
    cases r with
    | phrase _ => exact lookup_of_foldPhrases h
    | _ => cases h

def OperatorTable.allFits (table folded : OperatorTable) : Bool :=
  table.all fun ((l, r), type) => folded.all fun ((l', r'), type') =>
    !((foldedTypes l).contains l' && (foldedTypes r).contains r') ||
      (foldedTypes type).contains type'

theorem operatorTable_allFits (op : String) :
    (operatorTable op).allFits (foldTable op) = true := by
  unfold operatorTable
  split
  case h_15 => rfl
  all_goals decide +kernel

theorem computed_fits {a b : Literal} (h : (operatorTable op).lookup (l, r) = some type)
    (left : a.typeName ∈ foldedTypes l) (right : b.typeName ∈ foldedTypes r)
    (computes : a.Computes op b v) : v.typeName ∈ foldedTypes type := by
  have all := operatorTable_allFits op
  rw [OperatorTable.allFits, all_eq_true] at all
  have entry := all_eq_true.mp (all _ (mem_of_lookup h)) _
    (mem_of_lookup (lookup_of_computes computes))
  simpa [left, right] using entry

/-! ## Reduced operations -/

def OperatorTable.keepsLeft (table : OperatorTable) : Bool :=
  table.all fun ((l, r), type) => !(foldedTypes r).contains "NUMBER" ||
    (foldedTypes l).all fun l' => (foldedTypes type).contains l'

def OperatorTable.keepsRight (table : OperatorTable) : Bool :=
  table.all fun ((l, r), type) => !(foldedTypes l).contains "NUMBER" ||
    (foldedTypes r).all fun r' => (foldedTypes type).contains r'

def OperatorTable.countable (table : OperatorTable) : Bool :=
  table.all fun (_, type) => (foldedTypes type).contains "NUMBER"

theorem mem_of_keepsLeft (keeps : (operatorTable op).keepsLeft = true)
    (h : (operatorTable op).lookup (l, r) = some type) (left : l' ∈ foldedTypes l)
    (right : "NUMBER" ∈ foldedTypes r) : l' ∈ foldedTypes type := by
  have entry := all_eq_true.mp keeps _ (mem_of_lookup h)
  simp only [contains_iff_mem.mpr right, Bool.not_true, Bool.false_or] at entry
  exact contains_iff_mem.mp (all_eq_true.mp entry l' left)

theorem mem_of_keepsRight (keeps : (operatorTable op).keepsRight = true)
    (h : (operatorTable op).lookup (l, r) = some type) (left : "NUMBER" ∈ foldedTypes l)
    (right : r' ∈ foldedTypes r) : r' ∈ foldedTypes type := by
  have entry := all_eq_true.mp keeps _ (mem_of_lookup h)
  simp only [contains_iff_mem.mpr left, Bool.not_true, Bool.false_or] at entry
  exact contains_iff_mem.mp (all_eq_true.mp entry r' right)

theorem number_mem_of_countable (counts : (operatorTable op).countable = true)
    (h : (operatorTable op).lookup (l, r) = some type) : "NUMBER" ∈ foldedTypes type :=
  contains_iff_mem.mp (all_eq_true.mp counts _ (mem_of_lookup h))

theorem left_fits (h : (operatorTable op).lookup (l, r) = some type) (left : l' ∈ foldedTypes l)
    (right : n.typeName ∈ foldedTypes r) (neutral : Neutral op n) : l' ∈ foldedTypes type := by
  cases neutral with
  | plus counts | minus counts | times counts | slash counts =>
    exact mem_of_keepsLeft (by decide +kernel) h left (counts.1 ▸ right)
  | both | either => cases h

theorem right_fits (h : (operatorTable op).lookup (l, r) = some type)
    (left : n.typeName ∈ foldedTypes l) (right : r' ∈ foldedTypes r) (neutral : NeutralFirst op n) :
    r' ∈ foldedTypes type := by
  cases neutral with
  | plus counts | times counts =>
    exact mem_of_keepsRight (by decide +kernel) h (counts.1 ▸ left) right
  | both | either => cases h

end Operations

def foldsWellUnary (table : List (String × String)) : Bool :=
  table.all fun (operand, type) => (foldedTypes operand).all fun operand' =>
    match table.lookup operand' with
    | some type' => (foldedTypes type).contains type'
    | none => literalTypes.contains operand'

theorem unaryTable_foldsWell (sign : String) : foldsWellUnary (unaryTable sign) = true := by
  unfold unaryTable
  split <;> decide +kernel

theorem unary_fits {operand operand' : String} (h : (unaryTable sign).lookup operand = some type)
    (fits : operand' ∈ foldedTypes operand) :
    match (unaryTable sign).lookup operand' with
    | some type' => type' ∈ foldedTypes type
    | none => operand' ∈ literalTypes := by
  have all := unaryTable_foldsWell sign
  rw [foldsWellUnary, all_eq_true] at all
  have entry := all_eq_true.mp (all _ (mem_of_lookup h)) operand' fits
  split at entry
  · exact contains_iff_mem.mp entry
  · exact contains_iff_mem.mp entry

theorem isNamed_iff {v : Value} : v.isNamed name = true ↔ v = .named name := by
  cases v with
  | plain t => cases t <;> simp [Value.isNamed, Value.named, Tree.isText]
  | _ => simp [Value.isNamed, Value.named]

theorem isOneOf_iff {v : Value} {names : List String} :
    v.isOneOf names = true ↔ ∃ name ∈ names, v = .named name := by
  simp [Value.isOneOf, isNamed_iff]

theorem text?_eq_some {v : Value} (h : text? v = some name) : v = .named name := by
  unfold text? at h
  split at h
  · cases h
    rfl
  · cases h

theorem named_of_operationType {op : String} {l r : Value}
    (h : operationType? (.str op) l r = .ok (some type)) :
    ∃ left right, l = .named left ∧ r = .named right ∧
      (operatorTable op).lookup (left, right) = some type := by
  cases first : checkValueKey l with
  | error f =>
    simp only [operationType?, first] at h
    cases h
  | ok u =>
    cases second : checkValueKey r with
    | error f =>
      simp only [operationType?, first, second] at h
      cases h
    | ok u' =>
      simp only [operationType?, first, second] at h
      cases left : text? l with
      | none =>
        simp only [left] at h
        cases h
      | some name =>
        cases right : text? r with
        | none =>
          simp only [left, right] at h
          cases h
        | some name' =>
          simp only [left, right] at h
          exact ⟨name, name', text?_eq_some left, text?_eq_some right, Except.ok.inj h⟩

theorem named_of_unaryType {v : Value} (h : unaryType? (.str sign) v = .ok (some type)) :
    ∃ operand, v = .named operand ∧ (unaryTable sign).lookup operand = some type := by
  cases key : checkValueKey v with
  | error f =>
    simp only [unaryType?, key] at h
    cases h
  | ok u =>
    cases named : text? v with
    | none =>
      simp only [unaryType?, key, named] at h
      cases h
    | some name =>
      simp only [unaryType?, key, named] at h
      exact ⟨name, text?_eq_some named, Except.ok.inj h⟩

theorem named_of_compatible {b : Bool} (h : compatible target source = .ok b) :
    ∃ name, target = .named name := by
  unfold compatible at h
  split at h
  · rename_i both
    obtain ⟨name, -, named⟩ := isOneOf_iff.mp (Bool.and_eq_true_iff.mp both).2
    exact ⟨name, named⟩
  · split at h
    · rename_i both
      exact ⟨_, isNamed_iff.mp (Bool.and_eq_true_iff.mp both).2⟩
    · cases found : text? target with
      | some name => exact ⟨name, text?_eq_some found⟩
      | none =>
        cases key : checkValueKey target <;> simp [key, found, bind, Except.bind] at h

def assigns (target source : String) : Bool :=
  if source == "NUMBER" && ["INTEGER", "REAL"].any (target == ·) then true
  else if source == "PHRASE" && target == "STRING" then true
  else
    match assignable? target with
    | some sources => sources.any (source == ·)
    | none =>
      if target.startsWith "ARRAY" then source.startsWith "ARRAY" || target == source
      else source == target

theorem compatible_named (target source : String) :
    compatible (.named target) (.named source) = .ok (assigns target source) := by
  have named (name other : String) : (Value.named name).isNamed other = (name == other) := rfl
  unfold compatible assigns
  simp only [named, Value.isOneOf]
  split
  · rfl
  · split
    · rfl
    · change (match assignable? target with
        | some sources => .ok (sources.any (source == ·))
        | none =>
          if target.startsWith "ARRAY" then .ok (source.startsWith "ARRAY" || target == source)
          else .ok (source == target)) = Except.ok _
      split
      · rfl
      · split <;> rfl

theorem assigns_integer {target : String} (h : assigns target "REAL" = true) :
    assigns target "INTEGER" = true := by
  by_cases real : target = "REAL"
  · subst real
    rfl
  cases found : assignable? target with
  | some sources =>
    simp only [assigns, found] at h
    unfold assignable? at found
    split at found
    case h_6 => cases found
    all_goals
      cases found
      first | rfl | cases h
  | none =>
    simp [assigns, found, real, Ne.symm real] at h

theorem compatible_fits {source' : Value} (h : compatible target source = .ok true)
    (fits : Fits source source') :
    compatible target source' = .ok true ∨
      compatible target source' = .ok false ∧ (∃ name, target = .named name) ∧
        ∃ type ∈ literalTypes, source' = .named type := by
  cases fits with
  | same => exact .inl h
  | @folded type type' mem =>
    obtain ⟨name, rfl⟩ := named_of_compatible h
    rw [compatible_named] at h ⊢
    rcases foldedTypes_cases mem with rfl | ⟨rfl, rfl⟩ | literal
    · exact .inl h
    · refine .inl (congrArg Except.ok ?_)
      exact assigns_integer (Except.ok.inj h)
    · cases assigns name type' with
      | true => exact .inl rfl
      | false => exact .inr ⟨rfl, ⟨name, rfl⟩, type', literal, rfl⟩

end PascalStack.Analysis
