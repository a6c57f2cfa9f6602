import PascalStack.Proofs.Pascal.Supply
import PascalStack.Proofs.Tree.Respelling

/-!
# Values that are alike

When the values of two tokens or of two phrases are alike is a matter of what is compared. What it
means that a rule builds values that are alike from parts that are alike is said for each way of
building.
-/

namespace PascalStack.Pascal

open LR Build

structure Likeness where
  token : TokenKind → Tree → Tree → Prop
  phrase : Phrase → Tree → Tree → Prop

def Likeness.part (L : Likeness) : Part → Tree → Tree → Prop
  | .token k => L.token k
  | .phrase n => L.phrase n

variable {L : Likeness}

inductive PartsAlike (L : Likeness) : List Part → List Tree → List Tree → Prop
  | nil : PartsAlike L [] [] []
  | cons {X : Part} {parts : List Part} {v v' : Tree} {values values' : List Tree} :
      L.part X v v' → PartsAlike L parts values values' →
      PartsAlike L (X :: parts) (v :: values) (v' :: values')

theorem PartsAlike.concat {parts : List Part} {values values' : List Tree} {X : Part} {v v' : Tree}
    (h : PartsAlike L parts values values') (last : L.part X v v') :
    PartsAlike L (parts ++ [X]) (values ++ [v]) (values' ++ [v']) := by
  induction h with
  | nil => exact .cons last .nil
  | cons head _ ih => exact .cons head ih

def RuleAlike (L : Likeness) (rule : Rule) : Prop :=
  ∀ values values', PartsAlike L rule.parts values values' →
    PrintsAlike (L.phrase rule.makes) (rule.build values) (rule.build values')

/-- A likeness that the rules keep. Tokens that are alike can both be named in a complaint, or
neither, and no tree is like no tree. -/
structure Likeness.Kept (L : Likeness) : Prop where
  rule : ∀ rule ∈ rules.toList, RuleAlike L rule
  text : ∀ k v v', L.token k v v' → SameFault v.text v'.text
  absent : L.phrase .program .none .none

theorem forall_alike_nil {G : List Tree → List Tree → Prop} :
    (∀ values values', PartsAlike L [] values values' → G values values') ↔ G [] [] := by
  constructor
  · intro h
    exact h _ _ .nil
  · intro h values values' all
    cases all with
    | nil => exact h

theorem forall_alike_cons {p : Part} {ps : List Part} {G : List Tree → List Tree → Prop} :
    (∀ values values', PartsAlike L (p :: ps) values values' → G values values') ↔
      ∀ v v', L.part p v v' → ∀ values values', PartsAlike L ps values values' →
        G (v :: values) (v' :: values') := by
  constructor
  · intro h v v' first values values' rest
    exact h _ _ (.cons first rest)
  · intro h values values' all
    cases all with
    | cons first rest => exact h _ _ first _ _ rest

section Builds

variable {V : Tree → Tree → Prop} {values values' : List Tree} {i j k l : Nat}

theorem printsAlike_pure {v v' : Tree} : PrintsAlike V (pure v) (pure v') ↔ V v v' :=
  ⟨fun h => (h "" "" trivial).1, alike_pure⟩

theorem printsAlike_always {t : Tree} : PrintsAlike V (always t values) (always t values') ↔ V t t :=
  printsAlike_pure

theorem printsAlike_copy :
    PrintsAlike V (copy i values) (copy i values') ↔ V (part i values) (part i values') :=
  printsAlike_pure

theorem printsAlike_node1 {f : Tree → Tree} :
    PrintsAlike V (node1 f i values) (node1 f i values') ↔
      V (f (part i values)) (f (part i values')) :=
  printsAlike_pure

theorem printsAlike_node2 {f : Tree → Tree → Tree} :
    PrintsAlike V (node2 f i j values) (node2 f i j values') ↔
      V (f (part i values) (part j values)) (f (part i values') (part j values')) :=
  printsAlike_pure

theorem printsAlike_node3 {f : Tree → Tree → Tree → Tree} :
    PrintsAlike V (node3 f i j k values) (node3 f i j k values') ↔
      V (f (part i values) (part j values) (part k values))
        (f (part i values') (part j values') (part k values')) :=
  printsAlike_pure

theorem printsAlike_node4 {f : Tree → Tree → Tree → Tree → Tree} :
    PrintsAlike V (node4 f i j k l values) (node4 f i j k l values') ↔
      V (f (part i values) (part j values) (part k values) (part l values))
        (f (part i values') (part j values') (part k values') (part l values')) :=
  printsAlike_pure

theorem printsAlike_leaving :
    PrintsAlike V (leaving values) (leaving values') ↔ V .breakStatement .breakStatement :=
  ⟨fun h => (h "" "" trivial).1, fun h => (printsAlike_line _ _).bind fun _ _ _ => alike_pure h⟩

theorem printsAlike_option :
    PrintsAlike V (option values) (option values') ↔
      (part 0 values).kindName = (part 0 values').kindName := by
  constructor
  · intro h
    exact (Fault.noAttribute.inj (h "" "" trivial)).1
  · intro same
    exact alike_throw fun _ _ _ => by rw [same]

theorem printsAlike_choice (subjects : SameFault (part 1 values).text (part 1 values').text)
    (options : SameFault (part 3 values).text (part 3 values').text)
    (h : V (.caseStatement (part 1 values) (part 3 values))
      (.caseStatement (part 1 values') (part 3 values'))) :
    PrintsAlike V (choice values) (choice values') := by
  refine (printsAlike_ofExcept subjects).bind fun _ _ _ => ?_
  refine (printsAlike_ofExcept options).bind fun _ _ _ => ?_
  exact (printsAlike_line _ _).bind fun _ _ _ => alike_pure h

end Builds

end PascalStack.Pascal
