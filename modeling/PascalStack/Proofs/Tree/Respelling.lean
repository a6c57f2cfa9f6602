import Mathlib.Data.List.Forall2
import PascalStack.Printing
import PascalStack.Proofs.SideBySide
import PascalStack.Tree.Operand
import PascalStack.Tree.Outline

/-!
# Trees with other spellings

Names, operators, the directions of counted loops, the words of types and quoted texts are spelt
differently, each by a rule of its own, and the rest of a tree stays as it is. What is asked of a
tree has the same answer for the respelt one, which can be written just if the tree can.
-/

namespace PascalStack

/-- Other spellings for the names of variables, the names of programs and routines, operators,
directions, words of types and quoted texts. -/
structure Respelling where
  name : String → String := id
  routine : String → String := id
  operator : String → String := id
  direction : String → String := id
  word : String → String := id
  phrase : String → String := id

/-- A respelling that leaves the names of programs and routines and quoted texts as they are. -/
structure Respelling.Modest (ρ : Respelling) : Prop where
  routine : ρ.routine = id
  phrase : ρ.phrase = id

theorem Respelling.modest_default : Respelling.Modest {} := ⟨rfl, rfl⟩

namespace Tree

def mapText (f : String → String) : Tree → Tree
  | str s => str (f s)
  | t => t

mutual

def respell (ρ : Respelling) : Tree → Tree
  | list xs => list (respellAll ρ xs)
  | tuple xs => tuple (respellAll ρ xs)
  | program a b => program (a.respell ρ) (b.respell ρ)
  | header name => header (name.mapText ρ.routine)
  | block a b c d => block (a.respell ρ) (b.respell ρ) (c.respell ρ) (d.respell ρ)
  | varDeclarationPart a => varDeclarationPart (a.respell ρ)
  | varDeclaration a b => varDeclaration (a.respell ρ) (b.respell ρ)
  | idList a => idList (a.respell ρ)
  | arrayId name a => arrayId (name.mapText ρ.name) (a.respell ρ)
  | type word => type (word.mapText ρ.word)
  | arrayType a b => arrayType (a.respell ρ) (b.respell ρ)
  | range a b => range (a.respell ρ) (b.respell ρ)
  | statementPart a => statementPart (a.respell ρ)
  | statementSequence xs => statementSequence (respellAll ρ xs)
  | assignment a b => assignment (a.respell ρ) (b.respell ρ)
  | arrayAssignment name a b =>
    arrayAssignment (name.mapText ρ.name) (a.respell ρ) (b.respell ρ)
  | binaryOp a operator b => binaryOp (a.respell ρ) (operator.mapText ρ.operator) (b.respell ρ)
  | unaryOp operator a => unaryOp operator (a.respell ρ)
  | ifStatement a b c => ifStatement (a.respell ρ) (b.respell ρ) (c.respell ρ)
  | whileStatement a b => whileStatement (a.respell ρ) (b.respell ρ)
  | repeatStatement a b => repeatStatement (a.respell ρ) (b.respell ρ)
  | forStatement a direction b c =>
    forStatement (a.respell ρ) (direction.mapText ρ.direction) (b.respell ρ) (c.respell ρ)
  | procedureCall name a => procedureCall (name.mapText ρ.routine) (a.respell ρ)
  | functionCall name a => functionCall (name.mapText ρ.routine) (a.respell ρ)
  | writelnStatement a => writelnStatement (a.respell ρ)
  | readlnStatement a => readlnStatement (a.respell ρ)
  | caseStatement a b => caseStatement (a.respell ρ) (b.respell ρ)
  | caseOption a b => caseOption (a.respell ρ) (b.respell ρ)
  | literal value typeName => literal ((value.respell ρ).mapText ρ.phrase) typeName
  | identifier name => identifier (name.mapText ρ.name)
  | lengthFunction a => lengthFunction (a.respell ρ)
  | procedureDeclaration a b => procedureDeclaration (a.respell ρ) (b.respell ρ)
  | procedureHeading name a => procedureHeading (name.mapText ρ.routine) (a.respell ρ)
  | functionDeclaration a b => functionDeclaration (a.respell ρ) (b.respell ρ)
  | functionHeading name a b =>
    functionHeading (name.mapText ρ.routine) (a.respell ρ) (b.respell ρ)
  | parameter name a => parameter (name.mapText ρ.name) (a.respell ρ)
  | marked n t => marked n (t.respell ρ)
  | t => t

def respellAll (ρ : Respelling) : List Tree → List Tree
  | [] => []
  | t :: ts => t.respell ρ :: respellAll ρ ts

end

variable {ρ : Respelling}

theorem mapText_id (t : Tree) : t.mapText id = t := by
  cases t <;> rfl

theorem respell_eq_none {t : Tree} : t.respell ρ = none ↔ t = none := by
  cases t <;> simp [respell]

theorem respellAll_eq_map (ts : List Tree) : respellAll ρ ts = ts.map (respell ρ) := by
  induction ts with
  | nil => rfl
  | cons t ts ih => rw [respellAll, ih, List.map_cons]

mutual

theorem respell_default (t : Tree) : t.respell {} = t := by
  cases t with
  | none | bool _ | str _ | int _ | real _ | breakStatement | continueStatement => rfl
  | list xs | tuple xs | statementSequence xs => simp only [respell, respellAll_default xs]
  | header _ | type _ | identifier _ => simp only [respell, mapText_id]
  | _ =>
    simp only [respell, mapText_id]
    congr 1
    all_goals exact respell_default _

theorem respellAll_default (ts : List Tree) : respellAll {} ts = ts := by
  match ts with
  | [] => rfl
  | t :: rest => simp only [respellAll, respell_default t, respellAll_default rest]

end

theorem truthy_respell (t : Tree) : (t.respell ρ).truthy = t.truthy := by
  cases t with
  | list xs | tuple xs => cases xs <;> rfl
  | marked n t => exact truthy_respell t
  | _ => rfl

theorem isNode_respell (t : Tree) : (t.respell ρ).isNode = t.isNode := by
  cases t with
  | marked n t => exact isNode_respell t
  | _ => rfl

theorem kindName_respell (t : Tree) : (t.respell ρ).kindName = t.kindName := by
  cases t with
  | marked n t => exact kindName_respell t
  | _ => rfl

theorem number?_respell (t : Tree) : (t.respell ρ).number? = t.number? := by
  cases t with
  | marked n t => exact number?_respell t
  | _ => rfl

theorem number?_mapText (f : String → String) (t : Tree) : (t.mapText f).number? = t.number? := by
  cases t <;> rfl

theorem length_respell (t : Tree) : (t.respell ρ).length = t.length := by
  cases t with
  | list xs | tuple xs => simp only [respell, length, respellAll_eq_map, List.length_map]
  | marked n t => simp only [respell, length, kindName, kindName_respell]
  | _ => rfl

theorem items_respell (t : Tree) : (t.respell ρ).items = t.items.map (respellAll ρ) := by
  cases t with
  | str s =>
    have kept (cs : List Char) : respellAll ρ (cs.map fun c => str (String.singleton c)) =
        cs.map fun c => str (String.singleton c) := by
      rw [respellAll_eq_map, List.map_map]
      exact List.map_congr_left fun _ _ => rfl
    exact congrArg Except.ok (kept s.toList).symm
  | marked n t => simp only [respell, items, kindName, kindName_respell, Except.map]
  | _ => rfl

end Tree

/-! ## Texts -/

abbrev SameFault {ε α α' : Type} (x : Except ε α) (x' : Except ε α') : Prop :=
  SameEnd Eq (fun _ _ => True) x x'

section SameFault

variable {ε α β α' : Type}

theorem SameFault.refl (x : Except ε α) : SameFault x x := by
  cases x with
  | ok _ => exact trivial
  | error _ => exact rfl

variable {x : Except ε α} {y : Except ε β} {x' : Except ε α'}

theorem SameFault.symm (h : SameFault x y) : SameFault y x := by
  cases x <;> cases y <;> first | exact trivial | exact Eq.symm h | exact h.elim

theorem SameFault.trans {z : Except ε α'} (first : SameFault x y) (second : SameFault y z) :
    SameFault x z := by
  cases y with
  | ok _ => cases x <;> cases z <;> first | exact trivial | exact first.elim | exact second.elim
  | error _ =>
    cases x <;> cases z <;> first | exact Eq.trans first second | exact first.elim | exact second.elim

theorem SameFault.map (h : SameFault x x') {f : α → β} {f' : α' → β} :
    SameFault (f <$> x) (f' <$> x') := by
  cases x <;> cases x' <;> exact h

theorem SameFault.bind {δ δ' : Type} {k : α → Except ε δ} {k' : α' → Except ε δ'}
    (first : SameFault x x') (second : ∀ a a', SameFault (k a) (k' a')) :
    SameFault (x >>= k) (x' >>= k') := by
  cases x <;> cases x' <;> first | exact first | exact first.elim | exact second _ _

theorem sameFault_mapM {xs ys : List (Except ε α)} (h : List.Forall₂ SameFault xs ys) :
    SameFault (xs.mapM id) (ys.mapM id) := by
  induction h with
  | nil => exact trivial
  | @cons x y xs ys head _ ih =>
    rw [List.mapM_cons, List.mapM_cons]
    exact head.bind fun _ _ => ih.bind fun _ _ => trivial

end SameFault

namespace Tree

variable {ρ : Respelling}

variable {xs ys : List (Except Fault String)}

theorem sameFault_form {name name' : String} (h : List.Forall₂ SameFault xs ys) :
    SameFault (form name xs) (form name' ys) :=
  (sameFault_mapM h).map

theorem sameFault_mapText (f : String → String) (quoting : Bool) (t : Tree) :
    SameFault (t.render quoting) ((t.mapText f).render quoting) := by
  cases t with
  | str s => exact trivial
  | _ => exact .refl _

mutual

theorem sameFault_render (quoting : Bool) (t : Tree) :
    SameFault (t.render quoting) ((t.respell ρ).render quoting) := by
  cases t with
  | none | bool _ | str _ | int _ | real _ | breakStatement | continueStatement => exact .refl _
  | list xs | statementSequence xs => exact (sameFault_renderAll xs).map
  | tuple xs =>
    refine (sameFault_renderAll xs).bind fun texts texts' => ?_
    split <;> split <;> exact trivial
  | header a => exact (sameFault_mapText _ false a).map
  | literal a b =>
    have first := (sameFault_render false a).trans (sameFault_mapText ρ.phrase false _)
    exact sameFault_form (.cons first (.cons (.refl _) .nil))
  | marked n t => exact sameFault_render quoting t
  | ifStatement _ _ _ | block _ _ _ _ =>
    simp only [respell, render, truthy_respell]
    split
    all_goals
      refine sameFault_form ?_
      repeat' constructor
    all_goals exact sameFault_render false _
  | _ =>
    -- Each part stays, has its text replaced or is respelled itself.
    refine sameFault_form ?_
    repeat' constructor
    all_goals
      first
      | exact .refl _
      | exact sameFault_mapText _ false _
      | exact sameFault_render false _

theorem sameFault_renderAll (ts : List Tree) :
    SameFault (renderAll ts) (renderAll (respellAll ρ ts)) := by
  match ts with
  | [] => exact trivial
  | t :: rest =>
    exact (sameFault_render true t).bind fun _ _ =>
      (sameFault_renderAll rest).bind fun _ _ => trivial

end

theorem sameFault_text {a a' : Tree} (h : a.respell ρ = a'.respell ρ) :
    SameFault a.text a'.text := by
  have first : SameFault a.text (a.respell ρ).text := sameFault_render false a
  rw [h] at first
  exact first.trans (SameFault.symm (sameFault_render false a'))

theorem sameFault_outlineNode {level : Nat} {t t' : Tree} (h : List.Forall₂ SameFault xs ys) :
    SameFault (outlineNode level t xs) (outlineNode level t' ys) := by
  refine (sameFault_mapM h).bind fun texts texts' => ?_
  split <;> split <;> exact trivial

mutual

theorem sameFault_outlineAt (level : Nat) (t : Tree) :
    SameFault (t.outlineAt level) ((t.respell ρ).outlineAt level) := by
  have part (f : String → String) (t : Tree) :
      SameFault (t.outlineAt (level + 1)) ((t.mapText f).outlineAt (level + 1)) := by
    cases t with
    | str s => exact trivial
    | _ => exact .refl _
  cases t with
  | none | bool _ | str _ | int _ | real _ | breakStatement | continueStatement => exact .refl _
  | tuple xs => exact sameFault_render false (.tuple xs)
  | list xs => exact (sameFault_outlineAll (level + 1) xs).map
  | statementSequence xs =>
    exact sameFault_outlineNode (.cons (sameFault_outlineAll (level + 2) xs).map .nil)
  | marked n t => exact sameFault_outlineAt level t
  | literal a b =>
    have first := (sameFault_outlineAt (level + 1) a).trans (part ρ.phrase _)
    exact sameFault_outlineNode (.cons first (.cons (.refl _) .nil))
  | _ =>
    refine sameFault_outlineNode ?_
    repeat' constructor
    all_goals
      first
      | exact .refl _
      | exact part _ _
      | exact sameFault_outlineAt (level + 1) _

theorem sameFault_outlineAll (level : Nat) (ts : List Tree) :
    SameFault (outlineAll level ts) (outlineAll level (respellAll ρ ts)) := by
  match ts with
  | [] => exact trivial
  | t :: rest =>
    exact (sameFault_outlineAt level t).bind fun _ _ =>
      (sameFault_outlineAll level rest).bind fun _ _ => trivial

end

end Tree

/-- Two computations, which may print different texts, give related values or stop with the same
fault. -/
abbrev PrintsAlike {α α' : Type} (V : α → α' → Prop) (c : Printing α) (c' : Printing α') : Prop :=
  Alike (fun f f' _ _ => f = f') (fun _ _ => True) V (fun _ _ => True) c c'

theorem printsAlike_line (text text' : String) :
    PrintsAlike (fun _ _ => True) (Printing.line text) (Printing.line text') :=
  alike_modify fun _ _ _ => trivial

theorem printsAlike_ofExcept {α α' : Type} {V : α → α' → Prop} {x : Except Fault α}
    {x' : Except Fault α'} (h : SameEnd Eq V x x') :
    PrintsAlike V (ofExcept x) (ofExcept x') := alike_ofExcept h fun _ _ _ _ same _ => same

end PascalStack
