import Mathlib.Data.List.Nodup
import PascalStack.Proofs.Code.Writing
import PascalStack.Proofs.ControlFlow.Assembly

/-!
# Labels of loops and conditionals

Loops take their numbers from one counter and conditionals from another, each at a moment of its own:
a loop before its test, a conditional after its condition. The numbers only grow, so no label is
marked twice, also not by programs that are written one after another, and every jump leads to a
label that its own loop or conditional marks.
-/

namespace PascalStack.Code

open Generating List

def Instruction.mark? : Instruction → Option Label
  | .label (.routine _) => none
  | .label l => some l
  | _ => none

def Instruction.target? : Instruction → Option Label
  | .jump l | .jumpZero l => some l
  | _ => none

def marked (code : List Instruction) : List Label := code.filterMap Instruction.mark?

def targeted (code : List Instruction) : List Label := code.filterMap Instruction.target?

variable {i : Instruction} {fresh fresh' : List Label} {code : List Instruction} {l : Label}
  {g g' : Generator} {body condition : Generating Unit}

section Lists

variable {code : List Instruction}

@[simp] theorem marked_append (code code' : List Instruction) :
    marked (code ++ code') = marked code ++ marked code' := filterMap_append

@[simp] theorem targeted_append (code code' : List Instruction) :
    targeted (code ++ code') = targeted code ++ targeted code' := filterMap_append

theorem straight_of_all (straight : i.isStraight = true) : i.mark? = none ∧ i.target? = none := by
  cases i with
  | label l => cases l <;> first | exact ⟨rfl, rfl⟩ | cases straight
  | jump l | jumpZero l => cases straight
  | _ => exact ⟨rfl, rfl⟩

theorem marked_straight (straight : code.all Instruction.isStraight = true) : marked code = [] := by
  refine filterMap_eq_nil_iff.mpr fun i member => ?_
  exact (straight_of_all (all_eq_true.mp straight i member)).1

theorem targeted_straight (straight : code.all Instruction.isStraight = true) :
    targeted code = [] := by
  refine filterMap_eq_nil_iff.mpr fun i member => ?_
  exact (straight_of_all (all_eq_true.mp straight i member)).2

end Lists

def Taken (g g' : Generator) : Label → Prop
  | .forStart n | .forEnd n | .whileStart n | .whileEnd n => g.nextLoop ≤ n ∧ n < g'.nextLoop
  | .elseBranch n | .ifEnd n => g.nextIf ≤ n ∧ n < g'.nextIf
  | .routine _ => False

/-- Code written on the way from one generator to another. It marks the labels `own`, and others
with numbers taken on the way; it jumps to labels that it marks, or to those of `around`. -/
structure Stretch (around own : List Label) (g g' : Generator) (code : List Instruction) :
    Prop where
  nextLoop : g.nextLoop ≤ g'.nextLoop
  nextIf : g.nextIf ≤ g'.nextIf
  marks : ∃ fresh, (marked code).Perm (own ++ fresh) ∧ fresh.Nodup ∧ ∀ l ∈ fresh, Taken g g' l
  jumps : ∀ l ∈ targeted code, l ∈ around ∨ l ∈ marked code

section Stretch

variable {around own own' : List Label} {g g' g'' : Generator} {code code' : List Instruction}
  {l l' : Label}

theorem Taken.mono {before later : Generator} (taken : Taken g g' l)
    (start : before.nextLoop ≤ g.nextLoop ∧ before.nextIf ≤ g.nextIf)
    (finish : g'.nextLoop ≤ later.nextLoop ∧ g'.nextIf ≤ later.nextIf) : Taken before later l := by
  cases l <;> simp only [Taken] at taken ⊢ <;> omega

theorem Taken.ne (taken : Taken g g' l) (later : Taken g' g'' l') : l ≠ l' := by
  rintro rfl
  cases l <;> simp only [Taken] at taken later <;> omega

theorem fresh_append (first : fresh.Nodup) (second : fresh'.Nodup)
    (taken : ∀ l ∈ fresh, Taken g g' l) (taken' : ∀ l ∈ fresh', Taken g' g'' l) :
    (fresh ++ fresh').Nodup := by
  refine nodup_append.mpr ⟨first, second, fun l member l' member' => ?_⟩
  exact (taken l member).ne (taken' l' member')

theorem taken_append (forward : g.nextLoop ≤ g'.nextLoop ∧ g.nextIf ≤ g'.nextIf)
    (forward' : g'.nextLoop ≤ g''.nextLoop ∧ g'.nextIf ≤ g''.nextIf)
    (taken : ∀ l ∈ fresh, Taken g g' l) (taken' : ∀ l ∈ fresh', Taken g' g'' l) :
    ∀ l ∈ fresh ++ fresh', Taken g g'' l := by
  intro l member
  rcases mem_append.mp member with member | member
  · exact (taken l member).mono ⟨le_rfl, le_rfl⟩ forward'
  · exact (taken' l member).mono forward ⟨le_rfl, le_rfl⟩

theorem Stretch.append (first : Stretch around own g g' code)
    (second : Stretch around own' g' g'' code') :
    Stretch around (own ++ own') g g'' (code ++ code') := by
  obtain ⟨fresh, perm, nodup, taken⟩ := first.marks
  obtain ⟨fresh', perm', nodup', taken'⟩ := second.marks
  refine ⟨first.nextLoop.trans second.nextLoop, first.nextIf.trans second.nextIf,
    ⟨fresh ++ fresh', ?_, fresh_append nodup nodup' taken taken', ?_⟩, ?_⟩
  · rw [marked_append]
    refine (perm.append perm').trans ?_
    rw [append_assoc, append_assoc]
    refine Perm.append_left own ?_
    rw [← append_assoc, ← append_assoc]
    exact Perm.append_right fresh' perm_append_comm
  · exact taken_append ⟨first.nextLoop, first.nextIf⟩ ⟨second.nextLoop, second.nextIf⟩ taken taken'
  · intro l member
    rw [targeted_append, mem_append] at member
    rw [marked_append, mem_append]
    rcases member with member | member
    · exact (first.jumps l member).imp id .inl
    · exact (second.jumps l member).imp id .inr

theorem Stretch.widen (h : Stretch [] own g g' code) : Stretch around own g g' code :=
  ⟨h.nextLoop, h.nextIf, h.marks, fun l member => (h.jumps l member).imp (by simp) id⟩

theorem Stretch.close {taken : Generator} (h : Stretch own own taken g' code)
    (forward : g.nextLoop ≤ taken.nextLoop ∧ g.nextIf ≤ taken.nextIf) (nodup : own.Nodup)
    (numbered : ∀ l ∈ own, Taken g taken l) : Stretch [] [] g g' code := by
  obtain ⟨fresh, perm, nodup', taken'⟩ := h.marks
  refine ⟨forward.1.trans h.nextLoop, forward.2.trans h.nextIf,
    ⟨own ++ fresh, perm, fresh_append nodup nodup' numbered taken',
      taken_append forward ⟨h.nextLoop, h.nextIf⟩ numbered taken'⟩, ?_⟩
  intro l member
  right
  rcases h.jumps l member with member | member
  · exact perm.mem_iff.mpr (mem_append_left fresh member)
  · exact member

theorem Stretch.nodup (h : Stretch around [] g g' code) : (marked code).Nodup := by
  obtain ⟨fresh, perm, nodup, _⟩ := h.marks
  exact perm.nodup_iff.mpr nodup

end Stretch

def Resolves {α : Type} (around own : List Label) (m : Generating α) : Prop :=
  ∀ g a g', m.run g = .ok a g' → ∃ c, g'.code = g.code ++ c ∧ Stretch around own g g' c

section Resolves

variable {α β : Type} {around own own' : List Label} {m : Generating α} {f : α → Generating β}

theorem Resolves.bind (first : Resolves around own m)
    (second : ∀ g a g', m.run g = .ok a g' → Resolves around own' (f a)) :
    Resolves around (own ++ own') (m >>= f) := by
  intro g b g' run
  obtain ⟨a, g₁, run₁, run₂⟩ := run_bind_ok run
  obtain ⟨c, code_eq, stretch⟩ := first g a g₁ run₁
  obtain ⟨c', code_eq', stretch'⟩ := second g a g₁ run₁ g₁ b g' run₂
  refine ⟨c ++ c', ?_, stretch.append stretch'⟩
  rw [code_eq', code_eq, append_assoc]

theorem Resolves.then (first : Resolves around own m) (second : ∀ a, Resolves around own' (f a)) :
    Resolves around (own ++ own') (m >>= f) := first.bind fun _ a _ _ => second a

theorem Resolves.widen (h : Resolves [] own m) : Resolves around own m := by
  intro g a g' run
  obtain ⟨c, code_eq, stretch⟩ := h g a g' run
  exact ⟨c, code_eq, stretch.widen⟩

theorem resolves_emit (jumps : ∀ l ∈ targeted code, l ∈ around) :
    Resolves around (marked code) (emit code) := by
  intro g u g' run
  rw [run_emit_eq run]
  refine ⟨code, rfl, le_rfl, le_rfl, ⟨[], ?_, nodup_nil, by simp⟩, fun l member => ?_⟩
  · rw [append_nil]
  · exact .inl (jumps l member)

theorem resolves_straight (straight : code.all Instruction.isStraight = true) :
    Resolves around [] (emit code) := by
  have nowhere : ∀ l ∈ targeted code, l ∈ around := by simp [targeted_straight straight]
  have written := resolves_emit nowhere
  rwa [marked_straight straight] at written

theorem resolves_jumpZero {code : List Instruction} {l : Label}
    (straight : code.all Instruction.isStraight = true) (member : l ∈ around) :
    Resolves around [] (emit (code ++ [.jumpZero l])) := by
  have marks : marked (code ++ [.jumpZero l]) = [] := by
    rw [marked_append, marked_straight straight]
    rfl
  have jumps : targeted (code ++ [.jumpZero l]) = [l] := by
    rw [targeted_append, targeted_straight straight]
    rfl
  have written : Resolves around (marked (code ++ [.jumpZero l])) (emit (code ++ [.jumpZero l])) :=
    resolves_emit (by simpa [jumps] using member)
  rwa [marks] at written

theorem resolves_jump (member : l ∈ around) : Resolves around [] (emit [.jump l]) :=
  resolves_emit (by simpa [targeted, Instruction.target?] using member)

theorem resolves_label (l : Label) : Resolves around (marked [.label l]) (emit [.label l]) :=
  resolves_emit (by simp [targeted, Instruction.target?])

theorem resolves_silent
    (silent : ∀ g a g', m.run g = .ok a g' →
      g'.code = g.code ∧ g'.nextLoop = g.nextLoop ∧ g'.nextIf = g.nextIf) :
    Resolves around [] m := by
  intro g a g' run
  obtain ⟨code, loops, ifs⟩ := silent g a g' run
  refine ⟨[], by rw [code, append_nil], loops.ge, ifs.ge, ⟨[], ?_, nodup_nil, by simp⟩,
    by simp [targeted]⟩
  exact Perm.refl _

theorem resolves_ofExcept (x : Except Fault α) : Resolves around [] (ofExcept x : Generating α) := by
  refine resolves_silent fun g a g' run => ?_
  cases x with
  | error f => cases run
  | ok b =>
    cases run
    exact ⟨rfl, rfl, rfl⟩

theorem resolves_modify {f : Generator → Generator}
    (same : ∀ g, (f g).code = g.code ∧ (f g).nextLoop = g.nextLoop ∧ (f g).nextIf = g.nextIf) :
    Resolves around [] (modify f : Generating Unit) := by
  refine resolves_silent fun g u g' run => ?_
  cases run
  exact same g

theorem resolves_loop {f : Nat → Generating Unit} (start stop : Nat → Label)
    (inside : ∀ n, Resolves [start n, stop n] [start n, stop n] (f n))
    (apart : ∀ n, start n ≠ stop n)
    (numbered : ∀ (g : Generator), ∀ l ∈ [start g.nextLoop, stop g.nextLoop],
      Taken g { g with nextLoop := g.nextLoop + 1 } l) :
    Resolves [] [] (takeLoop >>= f) := by
  intro g u g' run
  obtain ⟨n, g₁, took, run⟩ := run_bind_ok run
  cases took
  obtain ⟨c, code_eq, stretch⟩ := inside g.nextLoop _ u g' run
  refine ⟨c, code_eq, stretch.close ⟨Nat.le_succ _, le_rfl⟩ ?_ (numbered g)⟩
  simp [apart]

theorem resolves_branches {f : Nat → Generating Unit}
    (inside : ∀ n, Resolves [.elseBranch n, .ifEnd n] [.elseBranch n, .ifEnd n] (f n)) :
    Resolves [] [] (takeIf >>= f) := by
  intro g u g' run
  obtain ⟨n, g₁, took, run⟩ := run_bind_ok run
  cases took
  obtain ⟨c, code_eq, stretch⟩ := inside g.nextIf _ u g' run
  exact ⟨c, code_eq, stretch.close ⟨le_rfl, Nat.le_succ _⟩ (by simp) (by simp [Taken])⟩

end Resolves

/-! ## Loops and conditionals -/

theorem stable_resolves : Stable (Resolves [] []) where
  done a := resolves_silent fun g _ g' run => by
    cases run
    exact ⟨rfl, rfl, rfl⟩
  next := Resolves.then
  fails f := fun g _ g' run => by cases run
  reads := resolves_silent fun g _ g' run => by
    cases run
    exact ⟨rfl, rfl, rfl⟩
  notes same := resolves_modify fun g => ⟨(same g).code, (same g).nextLoop, (same g).nextIf⟩
  opensGlobal name := by
    refine (resolves_ofExcept _).then fun _ => resolves_silent fun g _ g' run => ?_
    cases run
    exact ⟨rfl, rfl, rfl⟩
  opensLocal name := by
    refine (resolves_ofExcept _).then fun _ => resolves_silent fun g _ g' run => ?_
    cases run
    exact ⟨rfl, rfl, rfl⟩
  forgets := resolves_modify fun _ => ⟨rfl, rfl, rfl⟩

theorem limitPush_straight {limit : Tree} (run : (limitPush limit).run g = .ok i g') :
    i.isStraight = true := by
  unfold limitPush at run
  split at run
  · cases run
  · cases run
    rfl
  · obtain ⟨_, _, _, run⟩ := run_bind_ok run
    cases run
    rfl
  · cases run

theorem resolves_countedLoop (control direction limit : Tree) (inside : Resolves [] [] body) :
    Resolves [] [] (countedLoop control direction limit body) := by
  refine resolves_loop .forStart .forEnd (fun n => ?_) (by simp) (by simp [Taken])
  have cell : Resolves [.forStart n, .forEnd n] [] (loopCell control) :=
    (stable_resolves.loopCell control).widen
  have bound : Resolves [.forStart n, .forEnd n] [] (limitPush limit) :=
    (stable_resolves.limitPush limit).widen
  refine (resolves_label _).then fun _ => cell.then fun c => bound.bind fun _ i _ pushed => ?_
  have test (op : Operation) : [.load c, i, .operate op].all Instruction.isStraight = true := by
    simp only [all_cons, limitPush_straight pushed]
    rfl
  refine (resolves_jumpZero (test _) (by simp)).then fun _ => inside.widen.then fun _ => ?_
  refine cell.then fun _ => (resolves_straight rfl).then fun _ => ?_
  exact (resolves_jump (by simp)).then fun _ => resolves_label _

theorem resolves_testedLoop (test : Resolves [] [] condition) (inside : Resolves [] [] body) :
    Resolves [] [] (testedLoop condition body) := by
  refine resolves_loop .whileStart .whileEnd (fun n => ?_) (by simp) (by simp [Taken])
  have leave : Resolves [.whileStart n, .whileEnd n] [] (emit [.jumpZero (.whileEnd n)]) :=
    @resolves_jumpZero _ [] _ rfl (by simp)
  refine (resolves_label _).then fun _ => test.widen.then fun _ => leave.then fun _ => ?_
  refine inside.widen.then fun _ => ?_
  exact (resolves_jump (by simp)).then fun _ => resolves_label _

theorem resolves_conditional {yes no : Generating Unit} (test : Resolves [] [] condition)
    (yes_resolves : Resolves [] [] yes) (no_resolves : Resolves [] [] no) :
    Resolves [] [] (conditional condition yes no) := by
  refine test.then fun _ => resolves_branches fun n => ?_
  have leave : Resolves [.elseBranch n, .ifEnd n] [] (emit [.jumpZero (.elseBranch n)]) :=
    @resolves_jumpZero _ [] _ rfl (by simp)
  refine leave.then fun _ => yes_resolves.widen.then fun _ => ?_
  refine (resolves_jump (by simp)).then fun _ => (resolves_label _).then fun _ => ?_
  exact no_resolves.widen.then fun _ => resolves_label _

theorem stableControl_resolves : StableControl (Resolves [] []) where
  toStable := stable_resolves
  writes := resolves_straight
  counts := resolves_countedLoop
  tests := resolves_testedLoop
  branches := resolves_conditional

theorem control_of_marked (member : l ∈ marked code) : ControlFlow.Control l := by
  obtain ⟨i, _, mark⟩ := mem_filterMap.mp member
  cases i with
  | label l' => cases l' <;> cases mark <;> trivial
  | _ => cases mark

theorem nodup_texts (nodup : (marked code).Nodup) : ((marked code).map Label.text).Nodup := by
  refine Nodup.map_on (fun l member l' member' same => ?_) nodup
  have control := control_of_marked member
  have control' := control_of_marked member'
  rw [ControlFlow.text_label control, ControlFlow.text_label control'] at same
  exact ControlFlow.labelName_inj control control' (Except.ok.inj same)

/-- However many programs a new generator has written, the texts of the labels that loops and
conditionals mark are all different, and each jump leads to exactly one of them. -/
theorem control_labels_resolve {path : String} {g g' : Generator} (ts : List Tree)
    (new : Generator.new path = .ok g) (run : (ts.forM generateProgram).run g = .ok () g') :
    ((marked g'.code).map Label.text).Nodup ∧
      ∀ l ∈ targeted g'.code, ((marked g'.code).map Label.text).count l.text = 1 := by
  have resolves := stable_resolves.forM stableControl_resolves.generateProgram ts
  obtain ⟨c, code_eq, stretch⟩ := resolves g () g' run
  obtain ⟨file, rfl⟩ := eq_of_new new
  rw [nil_append] at code_eq
  rw [code_eq]
  have texts := nodup_texts stretch.nodup
  refine ⟨texts, fun l member => ?_⟩
  have marks := (stretch.jumps l member).resolve_left (not_mem_nil)
  exact count_eq_one_of_mem texts (mem_map_of_mem marks)

def loopsInBranches : Tree :=
  let always : Tree := .literal (.bool true) (.str "BOOLEAN")
  .whileStatement always
    (.ifStatement always (.whileStatement always .none) (.whileStatement always .none))

/-- The labels of loops in the branches of a conditional, written twice. -/
theorem loopsInBranches_labels_resolve :
    ∃ g g', Generator.new "p.pas" = .ok g ∧
      ([loopsInBranches, loopsInBranches].forM generateProgram).run g = .ok () g' ∧
      (targeted g'.code).length = 16 ∧ ((marked g'.code).map Label.text).Nodup ∧
      ∀ l ∈ targeted g'.code, ((marked g'.code).map Label.text).count l.text = 1 := by
  have new : Generator.new "p.pas" = .ok { file := "p.vm" } := rfl
  have counted : (match ([loopsInBranches, loopsInBranches].forM generateProgram).run
      { file := "p.vm" } with
      | .ok _ g' => (targeted g'.code).length
      | .error _ _ => 0) = 16 := by decide +kernel
  split at counted
  · next run => exact ⟨_, _, new, run, counted, control_labels_resolve _ new run⟩
  · cases counted

end PascalStack.Code
