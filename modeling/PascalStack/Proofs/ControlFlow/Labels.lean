import PascalStack.Proofs.Code.ControlLabels

/-!
# Cells and labels of lowered code

Lowering keeps the cells that names have, and each instruction of lowered code has its operation. No
label is marked twice in the code of a program, so a jump leads to the one place that marks its
label.
-/

namespace PascalStack.ControlFlow

open Code List
open StackMachine
open Lowering

structure Extends (l : Layout) (code : List Instruction) (l' : Layout) : Prop where
  names : l.names <+: l'.names
  means : ∀ i ∈ code, ∃ op, Means i op

def Tidy (low : Lowering) : Prop := ∀ l code l', low l = some (code, l') → Extends l code l'

variable {l l' : Layout} {code : List Instruction} {a b : Lowering} {x : String}

theorem Tidy.andThen (first : Tidy a) (second : Tidy b) : Tidy (a.andThen b) := by
  intro l code l'' lowered
  obtain ⟨code, l', code', one, two, rfl⟩ := andThen_eq_some.mp lowered
  refine ⟨(first l code l' one).names.trans (second l' code' l'' two).names, fun i member => ?_⟩
  rcases mem_append.mp member with member | member
  · exact (first l code l' one).means i member
  · exact (second l' code' l'' two).means i member

theorem tidy_write (means : ∀ i ∈ code, ∃ op, Means i op) : Tidy (write code) := by
  rintro l _ _ ⟨⟩
  exact ⟨prefix_rfl, means⟩

theorem tidy_nothing : Tidy (write []) := tidy_write (by simp)

variable {i : Instruction} {op : Op} {f : Nat → Lowering} {test : Lowering} {lb : Label}

theorem tidy_instruction (means : Means i op) : Tidy (write [i]) := by
  refine tidy_write fun j member => ⟨op, ?_⟩
  rw [mem_singleton.mp member]
  exact means

theorem tidy_load : Tidy (load x) := by
  intro l code l' lowered
  simp only [load] at lowered
  split at lowered
  · cases lowered
    exact tidy_instruction (.load _) _ _ _ rfl
  · cases lowered

theorem tidy_push {n : Int} : Tidy (push n) := by
  intro l code l' lowered
  simp only [push] at lowered
  split at lowered
  · rename_i writable
    cases lowered
    exact tidy_instruction (.push writable) _ _ _ rfl
  · cases lowered

theorem Extends.of_give (extended : Extends (l.give x) code l') : Extends l code l' := by
  have given : l.names <+: (l.give x).names := by
    unfold Layout.give
    split
    · exact prefix_rfl
    · exact prefix_append _ _
  exact ⟨given.trans extended.names, extended.means⟩

theorem tidy_store : Tidy (store x) := by
  rintro l _ _ ⟨⟩
  exact (tidy_instruction (.store _) _ _ _ rfl).of_give

theorem Term.tidy (t : Term) : Tidy t.lower := by
  induction t with
  | name x => exact tidy_load
  | number n => exact tidy_push
  | operation left op right left_ih right_ih =>
    exact left_ih.andThen (right_ih.andThen (tidy_instruction (.operate _)))

theorem tidy_assign (x : String) (v : Source) : Tidy (assignLowering x v) := by
  cases v with
  | truth b => exact tidy_push.andThen tidy_store
  | term t =>
    cases t with
    | name y =>
      intro l code l' lowered
      exact (tidy_load.andThen tidy_store _ _ _ lowered).of_give
    | number n => exact tidy_push.andThen tidy_store
    | operation left op right => exact (Term.tidy _).andThen tidy_store

theorem tidy_items (items : List Item) : Tidy (itemsLowering items) := by
  induction items with
  | nil => exact tidy_nothing
  | cons item rest ih =>
    cases item with
    | quotation q =>
      have shown : Tidy (write [.pushString q.text, .writeString]) := by
        refine tidy_write ?_
        simp only [mem_cons, not_mem_nil, or_false, forall_eq_or_imp, forall_eq]
        exact ⟨⟨_, .pushString q.plain⟩, ⟨_, .writeString⟩⟩
      exact shown.andThen ih
    | name x => exact (tidy_load.andThen (tidy_instruction .writeInteger)).andThen ih

theorem tidy_withLoop (tidy : ∀ n, Tidy (f n)) : Tidy (withLoop f) :=
  fun l _ _ lowered => ⟨(tidy l.loops _ _ _ lowered).names, (tidy l.loops _ _ _ lowered).means⟩

theorem tidy_withIf (tidy : ∀ n, Tidy (f n)) : Tidy (withIf f) :=
  fun l _ _ lowered => ⟨(tidy l.ifs _ _ _ lowered).names, (tidy l.ifs _ _ _ lowered).means⟩

theorem tidy_conditional {yes no : Lowering} (tests : Tidy test) (first : Tidy yes)
    (second : Tidy no) : Tidy (conditional test yes no) := by
  refine tests.andThen (tidy_withIf fun n => ?_)
  refine .andThen (tidy_instruction (.jumpZero trivial)) (first.andThen ?_)
  refine .andThen (tidy_instruction (.jump trivial)) ?_
  refine .andThen (tidy_instruction (.label trivial)) (second.andThen ?_)
  exact tidy_instruction (.label trivial)

theorem tidy_repeating {start stop : Nat → Label} {body : Lowering}
    (control : ∀ n, Control (start n) ∧ Control (stop n)) (tests : Tidy test) (inside : Tidy body) :
    Tidy (repeating start stop test body) := by
  refine tidy_withLoop fun n => .andThen (tidy_instruction (.label (control n).1)) ?_
  refine tests.andThen (.andThen (tidy_instruction (.jumpZero (control n).2)) ?_)
  refine inside.andThen (.andThen (tidy_instruction (.jump (control n).1)) ?_)
  exact tidy_instruction (.label (control n).2)

mutual

theorem Statement.tidy (s : Statement) : Tidy s.lower := by
  match s with
  | .empty => exact tidy_nothing
  | .compound body => exact body.tidy
  | .sequence items => exact Statement.tidyAll items
  | .assign x v => exact tidy_assign x v
  | .ifThen c yes => exact tidy_conditional c.term.tidy yes.tidy tidy_nothing
  | .ifElse c yes no => exact tidy_conditional c.term.tidy yes.tidy no.tidy
  | .whileDo left op right body =>
    exact tidy_repeating (fun _ => ⟨trivial, trivial⟩) (Term.tidy _) body.tidy
  | .forDo x v dir limit body =>
    exact (tidy_assign x v).andThen (tidy_repeating (fun _ => ⟨trivial, trivial⟩) (Term.tidy _)
      (body.tidy.andThen (tidy_assign x (dir.advance x))))
  | .writeln items => exact (tidy_items items).andThen (tidy_instruction .writeLine)

theorem Statement.tidyAll (items : List Statement) : Tidy (Statement.lowerAll items) := by
  match items with
  | [] => exact tidy_nothing
  | s :: rest => exact s.tidy.andThen (Statement.tidyAll rest)

end

theorem exists_operations (means : ∀ i ∈ code, ∃ op, Means i op) :
    ∃ ops, Forall₂ Means code ops := by
  induction code with
  | nil => exact ⟨[], .nil⟩
  | cons i rest ih =>
    obtain ⟨op, first⟩ := means i mem_cons_self
    obtain ⟨ops, others⟩ := ih fun j member => means j (mem_cons_of_mem i member)
    exact ⟨op :: ops, .cons first others⟩

theorem Control.mark (control : Control lb) : (Instruction.label lb).mark? = some lb := by
  cases lb <;> first | exact control.elim | rfl

theorem Means.exists_label {name : String} (means : Means i op) (mark : op = .label name) :
    ∃ lb, i = .label lb ∧ Control lb ∧ labelName lb = name := by
  cases means with
  | @label lb control => exact ⟨lb, rfl, control, by simpa using mark⟩
  | _ => simp at mark

theorem place_of_mark {ops : List Op} (each : Forall₂ Means code ops)
    (nodup : (marked code).Nodup) {k : Nat} (control : Control lb)
    (here : code[k]? = some (.label lb)) : place? ops (labelName lb) = some k := by
  induction each generalizing k with
  | nil => simp at here
  | @cons i op rest ops first _ ih =>
    rw [place?, findIdx?_cons]
    cases k with
    | zero =>
      simp only [getElem?_cons_zero, Option.some.injEq] at here
      subst here
      cases first
      simp
    | succ k =>
      rw [getElem?_cons_succ] at here
      have differ : op ≠ .label (labelName lb) := by
        intro same
        obtain ⟨other, rfl, control', name⟩ := first.exists_label same
        have equal := labelName_inj control' control name
        subst equal
        rw [marked, filterMap_cons_some control.mark] at nodup
        refine (nodup_cons.mp nodup).1 ?_
        exact mem_filterMap.mpr ⟨_, mem_of_getElem? here, control.mark⟩
      have place := ih (nodup.sublist ((sublist_cons_self i rest).filterMap _)) here
      rw [place?] at place
      simp [differ, place]

end PascalStack.ControlFlow
