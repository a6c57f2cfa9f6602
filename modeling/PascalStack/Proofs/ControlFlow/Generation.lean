import Mathlib.Data.List.Basic
import PascalStack.Proofs.Code.Primitives
import PascalStack.Proofs.ControlFlow.Lowering

/-!
# The generator writes the lowered code

On a program of control flow the generator writes the code that lowering says, and stops with a fault
where there is none.
-/

namespace PascalStack.ControlFlow

open Code List
open Code.Generating
open Lowering

structure Fits (types : Dictionary String) (l : Layout) (g : Generator) : Prop where
  globals : g.globals = l.cells
  next : g.nextGlobal = l.names.length
  locals : g.locals = []
  loops : g.nextLoop = l.loops
  ifs : g.nextIf = l.ifs
  outside : g.inFunction = false
  alone : g.hasFunction = false
  unnamed : g.function = .none
  types : g.types = types

variable {α β : Type} {types : Dictionary String} {l : Layout} {x y : String}

/-- A computation of the generator gives `a` and writes what `low` says, or stops with a fault where
there is no code. -/
def Lowers (types : Dictionary String) (m : Generating α) (a : α) (low : Lowering) (l : Layout) :
    Prop :=
  ∀ g, Fits types l g →
    match low l with
    | some (code, l') => ∃ g', m.run g = .ok a g' ∧ Fits types l' g' ∧ g'.code = g.code ++ code
    | none => ∃ f g', m.run g = .error f g'

variable {m : Generating α} {a : α} {b : β} {low low' : Lowering} {code : List Instruction}
  {lookup : Tree → Generating Cell} {k : Nat → Generating β} {f : Nat → Lowering}
  {condition body : Generating Unit}

theorem Lowers.bind {k : α → Generating β} (first : Lowers types m a low l)
    (second : ∀ code l', low l = some (code, l') → Lowers types (k a) b low' l') :
    Lowers types (m >>= k) b (low.andThen low') l := by
  intro g fits
  have run := first g fits
  cases lowered : low l with
  | none =>
    simp only [lowered] at run
    obtain ⟨f, g', run⟩ := run
    simp only [andThen, lowered, Option.bind_none]
    exact ⟨f, g', by rw [EStateM.run_bind, run]⟩
  | some result =>
    obtain ⟨code, l'⟩ := result
    simp only [lowered] at run
    obtain ⟨g', run, fits', wrote⟩ := run
    have run' := second code l' lowered g' fits'
    cases lowered' : low' l' with
    | none =>
      simp only [lowered'] at run'
      obtain ⟨f, g'', run'⟩ := run'
      simp only [andThen, lowered, lowered', Option.bind_some, Option.map_none]
      exact ⟨f, g'', by rw [EStateM.run_bind, run]; exact run'⟩
    | some result' =>
      obtain ⟨code', l''⟩ := result'
      simp only [lowered'] at run'
      obtain ⟨g'', run', fits'', wrote'⟩ := run'
      simp only [andThen, lowered, lowered', Option.bind_some, Option.map_some]
      refine ⟨g'', ?_, fits'', ?_⟩
      · rw [EStateM.run_bind, run]
        exact run'
      · rw [wrote', wrote, append_assoc]

theorem Lowers.follow {k : α → Generating β} {l' : Layout} (first : Lowers types m a low l)
    (known : low l = some (code, l')) (second : Lowers types (k a) b low' l') :
    Lowers types (m >>= k) b (low.andThen low') l := by
  refine first.bind fun code' l'' lowered => ?_
  rw [known] at lowered
  cases lowered
  exact second

theorem Lowers.of_eq (lowers : Lowers types m a low l) (equal : low' l = low l) :
    Lowers types m a low' l := by
  intro g fits
  rw [equal]
  exact lowers g fits

theorem Lowers.discard {m : Generating α} {a : α} {low : Lowering} (lowers : Lowers types m a low l) :
    Lowers types (discard m) () low l := by
  intro g fits
  have run := lowers g fits
  split at run
  · obtain ⟨g', run, fits', wrote⟩ := run
    exact ⟨g', by rw [run_discard, run], fits', wrote⟩
  · obtain ⟨f, g', run⟩ := run
    exact ⟨f, g', by rw [run_discard, run]⟩

theorem lowers_pure (a : α) : Lowers types (pure a) a (write []) l := by
  intro g fits
  exact ⟨g, rfl, fits, by simp⟩

theorem lowers_line (text : String) : Lowers types (line text) () (write []) l := by
  intro g fits
  refine ⟨{ g with out := g.out ++ text ++ "\n" }, run_line text g, ?_, by simp⟩
  exact ⟨fits.1, fits.2, fits.3, fits.4, fits.5, fits.6, fits.7, fits.8, fits.9⟩

theorem lowers_emit {text : String} (rendered : render code = .ok text) :
    Lowers types (emit code) () (write code) l := by
  intro g fits
  refine ⟨{ g with code := g.code ++ code }, run_emit_ok rendered g, ?_, rfl⟩
  exact ⟨fits.1, fits.2, fits.3, fits.4, fits.5, fits.6, fits.7, fits.8, fits.9⟩

theorem lowers_push (n : Int) : Lowers types (emit [.push (.int n)]) () (push n) l := by
  by_cases writable : Writable n
  · have rendered : render [.push (.int n)] = .ok ("pushi " ++ toString n ++ "\n" ++ "") := by
      simp only [render, text_push_writable writable]
      rfl
    refine (lowers_emit rendered).of_eq ?_
    rw [push, write, if_pos writable]
  · intro g _
    simp only [push, if_neg writable]
    refine ⟨.integerTooLong, g, run_emit_error ?_ g⟩
    simp only [render, text_push_long writable]
    rfl

/-! ### Variables -/

theorem get_cells_ok (known : x ∈ l.names) :
    Dictionary.get l.cells (.str x) = .ok (l.names.idxOf x) := by
  simp only [Dictionary.get, Layout.find_cells, known, if_true]
  rfl

theorem get_cells_error (unknown : x ∉ l.names) :
    ∃ f, Dictionary.get l.cells (.str x) = .error f := by
  refine ⟨.missingKey (Text.quoted x), ?_⟩
  simp only [Dictionary.get, Layout.find_cells, unknown, if_false]
  rfl

/-- Looking up the cell of a variable: outside functions every lookup is among the cells of the
program. -/
def Finds (lookup : Tree → Generating Cell) : Prop :=
  ∀ (types : Dictionary String) (l : Layout) (g : Generator) (x : String), Fits types l g →
    (lookup (.str x)).run g = (globalCell (.str x)).run g

theorem finds_globalCell : Finds globalCell := fun _ _ _ _ _ => rfl

theorem finds_variableCell : Finds variableCell := by
  intro types l g x fits
  simp [variableCell, EStateM.run_bind, EStateM.run_get, fits.outside]

theorem finds_loopCell : Finds loopCell := by
  intro types l g x fits
  simp [loopCell, EStateM.run_bind, EStateM.run_get, fits.outside]

theorem finds_sourceCell : Finds sourceCell := by
  intro types l g x fits
  have absent : (hasLocal (.str x)).run g = .ok false g := by
    simp only [hasLocal, EStateM.run_bind, EStateM.run_get, fits.locals]
    rfl
  simp [sourceCell, EStateM.run_bind, absent]

theorem Finds.lowers (finds : Finds lookup) {k : Cell → Generating β}
    (rest : x ∈ l.names → Lowers types (k (l.cell x)) b low l) :
    Lowers types (lookup (.str x) >>= k) b (fun l => if x ∈ l.names then low l else none) l := by
  intro g fits
  rw [EStateM.run_bind, finds types l g x fits]
  by_cases known : x ∈ l.names
  · have found : g.globals.get (.str x) = .ok (l.names.idxOf x) := by
      rw [fits.globals]
      exact get_cells_ok known
    simp only [known, if_true, run_globalCell_ok found]
    exact rest known g fits
  · obtain ⟨f, missing⟩ := get_cells_error known
    have missing : g.globals.get (.str x) = .error f := by
      rw [fits.globals]
      exact missing
    simp only [known, if_false, run_globalCell_error missing]
    exact ⟨f, g, rfl⟩

theorem Finds.lowers_load (finds : Finds lookup) :
    Lowers types (do
      let cell ← lookup (.str x)
      emit [.load cell]) () (load x) l := by
  exact (finds.lowers fun _ => lowers_emit rfl).of_eq rfl

def Lowering.reserve (x : String) : Lowering := fun l => some ([], l.give x)

theorem lowers_ensureGlobal :
    Lowers types (ensureGlobal (.str x)) ((l.give x).cell x) (reserve x) l := by
  intro g fits
  have has : g.globals.has (.str x) = .ok (decide (x ∈ l.names)) := by
    simp only [Dictionary.has, fits.globals, Layout.find_cells]
    by_cases known : x ∈ l.names <;> simp [known] <;> rfl
  simp only [reserve, ensureGlobal, EStateM.run_bind, EStateM.run_get, has, run_ofExcept_ok]
  by_cases known : x ∈ l.names
  · have found : g.globals.get (.str x) = .ok (l.names.idxOf x) := by
      rw [fits.globals]
      exact get_cells_ok known
    refine ⟨g, ?_, ?_, by simp⟩
    · simp [known, run_globalCell_ok found, Layout.give, Layout.cell]
    · simpa [Layout.give, known] using fits
  · refine ⟨{ g with
      globals := Dictionary.insert g.globals (.str x) g.nextGlobal
      nextGlobal := g.nextGlobal + 1 }, ?_, ?_, by simp⟩
    · simp only [known, decide_false, Bool.false_eq_true, if_false, Layout.give, Layout.cell]
      rw [idxOf_append_of_notMem known, fits.next.symm]
      simp
      rfl
    · simp only [Layout.give, known, if_false]
      refine ⟨?_, ?_, fits.locals, fits.loops, fits.ifs, fits.outside, fits.alone, fits.unnamed,
        fits.types⟩
      · rw [fits.globals, fits.next, Layout.insert_cells known]
      · simp [fits.next]

theorem lowers_targetCell :
    Lowers types (targetCell (.str x)) ((l.give x).cell x) (reserve x) l := by
  intro g fits
  have run : (targetCell (.str x)).run g = (ensureGlobal (.str x)).run g := by
    simp [targetCell, EStateM.run_bind, EStateM.run_get, fits.outside]
  rw [run]
  exact lowers_ensureGlobal g fits

theorem lowers_store {target : Generating Cell}
    (reserves : Lowers types target ((l.give x).cell x) (reserve x) l) :
    Lowers types (do
      let cell ← target
      emit [.store cell]) () (store x) l := by
  exact (reserves.bind fun _ _ _ => lowers_emit rfl).of_eq rfl

/-! ### Terms -/

theorem Lowers.ending (lowers : Lowers types m a low l) (b : β) : Lowers types (do
      let _ ← m
      return b) b low l := by
  rw [← andThen_write_nil low]
  exact lowers.bind fun _ _ _ => lowers_pure b

theorem applyOperator_sign (op : Operator) :
    applyOperator (.str op.sign) = emit [.operate op.operation] := by
  cases op <;> rfl

theorem lowers_binaryOp {a b : Tree} {op : Operator}
    (left : ∀ l, Lowers types (pushLeft a (generate a) (generateOperand a)) () low l)
    (right : ∀ l, Lowers types (pushRight b (generate b)) () low' l) :
    Lowers types (generate (.binaryOp a (.str op.sign) b)) .none
      (low.andThen (low'.andThen (write [.operate op.operation]))) l := by
  rw [generate, applyOperator_sign]
  exact (left l).bind fun _ _ _ => (right _).bind fun _ _ _ => (lowers_emit rfl).ending _

theorem lowers_operand (t : Term) :
    (∀ l, Lowers types (pushLeft t.tree (generate t.tree) (generateOperand t.tree)) () t.lower l) ∧
    (∀ l, Lowers types (pushRight t.tree (generate t.tree)) () t.lower l) := by
  induction t with
  | name x =>
    exact ⟨fun l => finds_variableCell.lowers_load, fun l => finds_variableCell.lowers_load⟩
  | number n =>
    refine ⟨fun l => lowers_push n, fun l => ?_⟩
    have number : pushRight (Term.number n).tree (generate (Term.number n).tree) =
        emit [.push (.int n)] := rfl
    rw [number]
    exact lowers_push n
  | operation a op b iha ihb =>
    have whole : ∀ l, Lowers types (generate (Term.operation a op b).tree) .none
        (Term.operation a op b).lower l := fun l => lowers_binaryOp iha.1 ihb.2
    exact ⟨fun l => (whole l).discard, fun l => (whole l).discard⟩

theorem lowers_operation (a : Term) (op : Operator) (b : Term) :
    Lowers types (generate (Term.operation a op b).tree) .none (Term.operation a op b).lower l :=
  lowers_binaryOp (lowers_operand a).1 (lowers_operand b).2

/-! ### Assignments -/

theorem lower_eq_none_of_long {t : Term} {n : Int} (member : n ∈ t.numbers) (long : ¬ Writable n)
    (l : Layout) : t.lower l = none := by
  induction t generalizing l with
  | name x => simp [Term.numbers] at member
  | number k =>
    simp only [Term.numbers, mem_singleton] at member
    subst member
    simp [Term.lower, push, long]
  | operation a op b iha ihb =>
    simp only [Term.numbers, mem_append] at member
    simp only [Term.lower, andThen]
    rcases member with member | member
    · simp [iha member]
    · cases a.lower l <;> simp [ihb member]

theorem text_term (t : Term) :
    (∃ s, t.tree.text = .ok s) ∨ ∃ f, t.tree.text = .error f ∧ ∃ n ∈ t.numbers, ¬ Writable n := by
  induction t with
  | name x => exact .inl ⟨_, rfl⟩
  | number n =>
    by_cases writable : Writable n
    · refine .inl ⟨"Literal(" ++ ", ".intercalate [toString n, "NUMBER"] ++ ")", ?_⟩
      simp only [Term.tree, numberTree, Tree.text, Tree.render, integerText_writable writable]
      rfl
    · refine .inr ⟨.integerTooLong, ?_, n, by simp [Term.numbers], writable⟩
      simp only [Term.tree, numberTree, Tree.text, Tree.render, integerText_not_writable writable]
      rfl
  | operation a op b iha ihb =>
    simp only [Tree.text] at iha ihb
    rcases iha with ⟨s, ha⟩ | ⟨f, ha, n, member, long⟩
    · rcases ihb with ⟨s', hb⟩ | ⟨f, hb, n, member, long⟩
      · refine .inl ⟨"BinaryOp(" ++ ", ".intercalate [s, op.sign, s'] ++ ")", ?_⟩
        simp only [Term.tree, Tree.text, Tree.render, ha, hb]
        rfl
      · refine .inr ⟨f, ?_, n, by simp [Term.numbers, member], long⟩
        simp only [Term.tree, Tree.text, Tree.render, ha, hb]
        rfl
    · refine .inr ⟨f, ?_, n, by simp [Term.numbers, member], long⟩
      simp only [Term.tree, Tree.text, Tree.render, ha]
      rfl

theorem lowers_shown {v : Tree} {s : String} {k : Generating Unit} (text : v.text = .ok s)
    (code : Lowers types k () low l) :
    Lowers types (do
      line (← ofExcept v.text)
      k) () low l := by
  rw [text, ← write_nil_andThen low]
  exact (Lowers.follow (lowers_line s) rfl code : Lowers types (line s >>= fun _ => k) () _ l)

theorem lowers_listed (t : Term) {k : Generating Unit} (code : Lowers types k () low l)
    (long : ∀ n ∈ t.numbers, ¬ Writable n → low l = none) :
    Lowers types (do
      line (← ofExcept t.tree.text)
      k) () low l := by
  rcases text_term t with ⟨s, text⟩ | ⟨f, text, n, member, notWritable⟩
  · exact lowers_shown text code
  · intro g _
    rw [long n member notWritable, text]
    exact ⟨f, g, rfl⟩

theorem lowers_assignVariable :
    Lowers types (assignVariable (.str x) (.str y)) () (assignLowering x (.term (.name y))) l := by
  intro g fits
  have other : Tree.same g.function (.str x) = false := by
    rw [fits.unnamed]
    rfl
  have copy : Lowers types (do
      let target ← targetCell (.str x)
      let cell ← sourceCell (.str y)
      emit [.load cell, .store target]) () (assignLowering x (.term (.name y))) l := by
    refine (lowers_targetCell.follow rfl
      (finds_sourceCell.lowers fun _ => lowers_emit rfl)).of_eq ?_
    by_cases known : y ∈ (l.give x).names
    · simp [assignLowering, andThen, reserve, load, store, write, known, Layout.give_give]
    · simp [assignLowering, andThen, reserve, load, store, known]
  have run := copy g fits
  simpa [assignVariable, EStateM.run_bind, EStateM.run_get, other] using run

theorem lowers_assignTruth (b : Bool) :
    Lowers types (assignLiteral (.str x) (.bool b) (.str "BOOLEAN")) ()
      (assignLowering x (.truth b)) l := by
  have whole : wholeOf (.bool b) = .ok (StackMachine.truth (b = true)) := by
    cases b <;> rfl
  have literal : assignLiteral (.str x) (.bool b) (.str "BOOLEAN") = (do
      let n ← ofExcept (wholeOf (.bool b))
      emit [.push (.int n)]
      let cell ← ensureGlobal (.str x)
      emit [.store cell]) := rfl
  rw [literal, whole]
  have code : Lowers types (do
      emit [.push (.int (StackMachine.truth (b = true)))]
      let cell ← ensureGlobal (.str x)
      emit [.store cell]) () (assignLowering x (.truth b)) l :=
    (lowers_push _).bind fun _ _ _ => lowers_store lowers_ensureGlobal
  exact code

theorem lowers_assign (x : String) (v : Source) :
    Lowers types (generate (.assignment (nameTree x) v.tree)) (.str x) (assignLowering x v) l := by
  have assigns : Lowers types (assign (.str x) v.tree (generateOperand v.tree) (generate v.tree)) ()
      (assignLowering x v) l := by
    cases v with
    | truth b =>
      have text : ∃ s, (Source.truth b).tree.text = .ok s := by
        cases b <;> exact ⟨_, rfl⟩
      exact lowers_shown text.choose_spec (lowers_assignTruth b)
    | term t =>
      cases t with
      | name y => exact lowers_listed (.name y) lowers_assignVariable (by simp [Term.numbers])
      | number n =>
        refine lowers_listed (.number n) ?_ ?_
        · exact (lowers_push n).bind fun _ _ _ => lowers_store lowers_targetCell
        · intro k member long
          simp [assignLowering, andThen, lower_eq_none_of_long member long]
      | operation a op b =>
        refine lowers_listed (.operation a op b) ?_ ?_
        · exact (lowers_operation a op b).discard.bind fun _ _ _ => lowers_store lowers_targetCell
        · intro k member long
          simp [assignLowering, andThen, lower_eq_none_of_long member long]
  have whole : generate (.assignment (nameTree x) v.tree) = (do
      assign (.str x) v.tree (generateOperand v.tree) (generate v.tree)
      return .str x) := by
    rw [generate]
    rfl
  rw [whole]
  exact assigns.ending _

/-! ### Output -/

theorem escaped_eq_self {s : String} (plain : ∀ c ∈ s.toList, c ≠ '"') : escaped s = s := by
  have same : ∀ cs : List Char, (∀ c ∈ cs, c ≠ '"') →
      (cs.flatMap fun c => if c == Text.doubleQuote then ['\\', c] else [c]) = cs := by
    intro cs
    induction cs with
    | nil => intro _; rfl
    | cons c rest ih =>
      intro plain
      have differ : (c == Text.doubleQuote) = false := by
        simpa [Text.doubleQuote] using plain c (by simp)
      rw [flatMap_cons, ih fun c member => plain c (by simp [member]), differ]
      rfl
  rw [escaped, same s.toList plain, String.ofList_toList]

theorem writtenText_quotation (q : Quotation) :
    writtenText (.str (String.ofList (q.quote :: q.text.toList ++ [q.quote]))) = .ok q.text := by
  have between : Code.inner (.str (String.ofList (q.quote :: q.text.toList ++ [q.quote]))) =
      .ok (.str q.text) := by
    rw [Code.inner, String.toList_ofList]
    simp only [cons_append, drop_succ_cons, drop_zero, dropLast_concat,
      String.ofList_toList]
  have plain : escaped q.text = q.text := escaped_eq_self fun c member => (q.plain c member).1
  rw [writtenText, between]
  simp only [bind, Except.bind, plain]
  rfl

theorem lowers_item (item : Item)
    (typed : ∀ x ∈ item.written, types.find? (.str x) = some "integer") :
    Lowers types (writeArgument item.tree) () item.lower l := by
  cases item with
  | quotation q =>
    have code : writeArgument (Item.quotation q).tree = (do
        let text ← ofExcept (.ok q.text)
        emit [.pushString text, .writeString]) := by
      rw [← writtenText_quotation q]
      rfl
    rw [code]
    exact (lowers_emit rfl : Lowers types (emit [.pushString q.text, .writeString]) () _ l)
  | name x =>
    intro g fits
    have type : g.types.get (.str x) = .ok "integer" := by
      simp only [Dictionary.get, fits.types, typed x (by simp [Item.written])]
      rfl
    have code : (writeArgument (Item.name x).tree).run g = (do
        let cell ← globalCell (.str x)
        emit [.load cell, .writeInteger]).run g := by
      have found : (typeOf (.str x)).run g = .ok "integer" g := by
        simp only [typeOf, EStateM.run_bind, EStateM.run_get, type, run_ofExcept_ok]
      simp [Item.tree, nameTree, writeArgument, EStateM.run_bind, EStateM.run_get, found, fits.alone]
    rw [code]
    have lowers : Lowers types (do
        let cell ← globalCell (.str x)
        emit [.load cell, .writeInteger]) () (Item.name x).lower l := by
      refine (finds_globalCell.lowers fun _ => lowers_emit rfl).of_eq ?_
      by_cases known : x ∈ l.names <;> simp [Item.lower, andThen, load, write, known]
    exact lowers g fits

theorem lowers_items (items : List Item)
    (typed : ∀ x ∈ items.flatMap Item.written, types.find? (.str x) = some "integer")
    (l : Layout) :
    Lowers types ((items.map Item.tree).forM writeArgument) () (itemsLowering items) l := by
  induction items generalizing l with
  | nil => exact lowers_pure ()
  | cons item rest ih =>
    refine (lowers_item item fun x member => typed x (by simp [member])).bind fun _ _ _ => ?_
    exact ih (fun x member => typed x (mem_flatMap.mpr
      ((mem_flatMap.mp member).imp fun _ h => ⟨mem_cons_of_mem _ h.1, h.2⟩))) _

/-! ### Statements -/

theorem lowers_takeIf (rest : Lowers types (k l.ifs) b (f l.ifs) { l with ifs := l.ifs + 1 }) :
    Lowers types (takeIf >>= k) b (withIf f) l := by
  intro g fits
  have run : takeIf.run g = .ok l.ifs { g with nextIf := g.nextIf + 1 } := by
    rw [← fits.ifs]
    rfl
  rw [EStateM.run_bind, run]
  refine rest { g with nextIf := g.nextIf + 1 } ?_
  exact ⟨fits.1, fits.2, fits.3, fits.4, by simp [fits.ifs], fits.6, fits.7, fits.8, fits.9⟩

theorem lowers_takeLoop
    (rest : Lowers types (k l.loops) b (f l.loops) { l with loops := l.loops + 1 }) :
    Lowers types (takeLoop >>= k) b (withLoop f) l := by
  intro g fits
  have run : takeLoop.run g = .ok l.loops { g with nextLoop := g.nextLoop + 1 } := by
    rw [← fits.loops]
    rfl
  rw [EStateM.run_bind, run]
  refine rest { g with nextLoop := g.nextLoop + 1 } ?_
  exact ⟨fits.1, fits.2, fits.3, by simp [fits.loops], fits.5, fits.6, fits.7, fits.8, fits.9⟩

theorem lowers_testedLoop (test : ∀ l, Lowers types condition () low l)
    (inside : ∀ l, Lowers types body () low' l) :
    Lowers types (testedLoop condition body) () (repeating .whileStart .whileEnd low low') l := by
  refine lowers_takeLoop ((lowers_emit rfl).bind fun _ _ _ => (test _).bind fun _ _ _ => ?_)
  refine (lowers_emit rfl).bind fun _ _ _ => (inside _).bind fun _ _ _ => ?_
  exact (lowers_emit rfl).bind fun _ _ _ => lowers_emit rfl

theorem lowers_conditional {yes no : Generating Unit} {test : Lowering}
    (tests : ∀ l, Lowers types condition () test l) (first : ∀ l, Lowers types yes () low l)
    (second : ∀ l, Lowers types no () low' l) :
    Lowers types (Code.conditional condition yes no) () (conditional test low low') l := by
  refine (tests l).bind fun _ l' _ => lowers_takeIf ?_
  refine (lowers_emit rfl).bind fun _ _ _ => (first _).bind fun _ _ _ => ?_
  refine (lowers_emit rfl).bind fun _ _ _ => (lowers_emit rfl).bind fun _ _ _ => ?_
  exact (second _).bind fun _ _ _ => lowers_emit rfl

theorem lowers_emitTest (slot : Nat) (m : Int) (op : Operation) (n : Nat) :
    Lowers types (emit [.load (.program slot), .push (.int m), .operate op, .jumpZero (.forEnd n)])
      () ((write [.load (.program slot)]).andThen ((push m).andThen
        (write [.operate op, .jumpZero (.forEnd n)]))) l := by
  by_cases writable : Writable m
  · have rendered : ∃ s, render [.load (.program slot), .push (.int m), .operate op,
        .jumpZero (.forEnd n)] = .ok s := by
      simp only [render, text_push_writable writable]
      exact ⟨_, rfl⟩
    refine (lowers_emit rendered.choose_spec).of_eq ?_
    simp [andThen, write, push, writable]
  · intro g _
    have missing : push m l = none := by simp [push, writable]
    simp only [andThen, write, missing, Option.bind_some, Option.bind_none, Option.map_none]
    refine ⟨.integerTooLong, g, run_emit_error ?_ g⟩
    simp only [render, text_push_long writable]
    rfl

theorem lowers_countedTest (limit : Limit) (op : Operator) (n : Nat) {k : Generating β}
    (rest : ∀ l, Lowers types k b low l) :
    Lowers types (do
      let cell ← loopCell (.str x)
      let bound ← limitPush limit.term.tree
      emit [.load cell, bound, .operate op.operation, .jumpZero (.forEnd n)]
      k) b
      ((Term.operation (.name x) op limit.term).lower.andThen
        ((write [.jumpZero (.forEnd n)]).andThen low)) l := by
  cases limit with
  | name y =>
    have shape : limitPush (Limit.name y).term.tree = (do
        return .load (← loopCell (.str y))) := rfl
    simp only [shape, bind_assoc, pure_bind]
    refine (finds_loopCell.lowers fun _ => finds_loopCell.lowers fun _ =>
      (lowers_emit rfl).bind fun _ _ _ => rest _).of_eq ?_
    by_cases known : x ∈ l.names <;> by_cases known' : y ∈ l.names <;>
      simp [Limit.term, Term.lower, andThen, load, write, known, known']
    cases low l <;> rfl
  | number m =>
    have shape : limitPush (Limit.number m).term.tree = pure (.push (.int m)) := rfl
    simp only [shape, pure_bind]
    refine (finds_loopCell.lowers fun _ =>
      (lowers_emitTest _ m _ n).bind fun _ _ _ => rest _).of_eq ?_
    by_cases known : x ∈ l.names <;> by_cases writable : Writable m <;>
      simp [Limit.term, Term.lower, andThen, load, write, push, Layout.cell, known, writable]
    cases low l <;> rfl

theorem lowers_advance (dir : Direction) :
    Lowers types (do
      let cell ← loopCell (.str x)
      emit [.load cell, .push (.int 1), .operate dir.change.operation, .store cell]) ()
      (assignLowering x (dir.advance x)) l := by
  have rendered : ∃ s, render [.load (l.cell x), .push (.int 1), .operate dir.change.operation,
      .store (l.cell x)] = .ok s := by
    simp only [render, text_push_writable writable_one]
    exact ⟨_, rfl⟩
  refine (finds_loopCell.lowers fun _ => lowers_emit rendered.choose_spec).of_eq ?_
  by_cases known : x ∈ l.names <;>
    simp [Direction.advance, assignLowering, Term.lower, andThen, load, push, write, store, known,
      writable_one, Layout.give]

theorem lowers_countedLoop (x : String) (dir : Direction) (limit : Limit)
    (inside : ∀ l, Lowers types body () low l) :
    Lowers types (countedLoop (.str x) (.str dir.word) limit.term.tree body) ()
      (repeating .forStart .forEnd (Term.operation (.name x) dir.relation limit.term).lower
        (low.andThen (assignLowering x (dir.advance x)))) l := by
  have shape : countedLoop (.str x) (.str dir.word) limit.term.tree body = (do
      let n ← takeLoop
      emit [.label (.forStart n)]
      let cell ← loopCell (.str x)
      let bound ← limitPush limit.term.tree
      emit [.load cell, bound, .operate dir.relation.operation, .jumpZero (.forEnd n)]
      (do
        body
        let cell ← loopCell (.str x)
        emit [.load cell, .push (.int 1), .operate dir.change.operation, .store cell])
      emit [.jump (.forStart n)]
      emit [.label (.forEnd n)]) := by
    simp only [bind_assoc]
    cases dir <;> rfl
  rw [shape]
  refine lowers_takeLoop ((lowers_emit rfl).bind fun _ _ _ => lowers_countedTest limit _ _ ?_)
  intro l'
  refine ((inside l').bind fun _ _ _ => lowers_advance dir).bind fun _ _ _ => ?_
  exact (lowers_emit rfl).bind fun _ _ _ => lowers_emit rfl

theorem lowers_condition (c : Condition) :
    Lowers types (pushCondition c.term.tree (generate c.term.tree)) () c.term.lower l := by
  cases c with
  | name x => exact finds_variableCell.lowers_load
  | operation a op b => exact (lowers_operation a op b).discard

def Statement.value : Statement → Tree
  | .assign x _ => .str x
  | _ => .none

theorem truthy_tree (s : Statement) : s.tree.truthy = true ∨ s = .empty := by
  cases s <;> simp [Statement.tree, Tree.truthy]

theorem lowers_whenPresent {s : Statement}
    (code : Lowers types (generate s.tree) s.value s.lower l) :
    Lowers types (whenPresent s.tree (discard (generate s.tree))) () s.lower l := by
  rcases truthy_tree s with present | rfl
  · simp only [whenPresent, present, if_true]
    exact code.discard
  · exact lowers_pure ()

mutual

theorem lowers_statement (s : Statement)
    (typed : ∀ x ∈ s.written, types.find? (.str x) = some "integer") (l : Layout) :
    Lowers types (generate s.tree) s.value s.lower l := by
  match s with
  | .empty => exact (lowers_line "Warning: No visitor defined for list").ending _
  | .compound body =>
    rw [Statement.tree, generate]
    exact (lowers_statement body typed l).discard.ending _
  | .sequence items =>
    rw [Statement.tree, generate]
    exact (lowers_statements items typed l).ending _
  | .assign x v => exact lowers_assign x v
  | .ifThen c yes =>
    rw [Statement.tree, generate]
    exact (lowers_conditional (fun l => lowers_condition c)
      (fun l => (lowers_statement yes typed l).discard) (fun l => lowers_pure ())).ending _
  | .ifElse c yes no =>
    rw [Statement.tree, generate]
    simp only [Statement.written, mem_append] at typed
    exact (lowers_conditional (fun l => lowers_condition c)
      (fun l => (lowers_statement yes (fun x h => typed x (.inl h)) l).discard)
      (fun l => lowers_whenPresent (lowers_statement no (fun x h => typed x (.inr h)) l))).ending _
  | .whileDo a op b body =>
    rw [Statement.tree, generate]
    exact (lowers_testedLoop (fun l => (lowers_operation a op b).discard)
      (fun l => (lowers_statement body typed l).discard)).ending _
  | .forDo x v dir limit body =>
    rw [Statement.tree, generate]
    refine (lowers_assign x v).bind fun _ _ _ => ?_
    exact (lowers_countedLoop x dir limit
      (fun l => (lowers_statement body typed l).discard)).ending _
  | .writeln items =>
    rw [Statement.tree, generate]
    refine (lowers_items items typed l).bind fun _ _ _ => ?_
    exact (lowers_emit rfl).ending _

theorem lowers_statements (items : List Statement)
    (typed : ∀ x ∈ Statement.writtenAll items, types.find? (.str x) = some "integer")
    (l : Layout) :
    Lowers types (generateAll andNothing (Statement.trees items)) () (Statement.lowerAll items)
      l := by
  match items with
  | [] => exact lowers_pure ()
  | s :: rest =>
    rw [Statement.trees, generateAll]
    simp only [Statement.writtenAll, mem_append] at typed
    refine (lowers_statement s (fun x h => typed x (.inl h)) l).bind fun _ _ _ => ?_
    exact lowers_statements rest (fun x h => typed x (.inr h)) _

end

/-! ### Programs -/

def Declaration.note (d : Declaration) (types : Dictionary String) : Dictionary String :=
  d.names.foldl (fun types x => Dictionary.insert types (.str x) (Text.lower d.typeName)) types

theorem run_declaration (d : Declaration) (g : Generator) :
    (generate d.tree).run g = .ok .none { g with types := d.note g.types } := by
  have items : ∀ (names : List String) (g : Generator),
      (generateAll (fun _ name => do declare name (← generate (.type (.str d.typeName))))
        (names.map nameTree)).run g = .ok () { g with
          types := names.foldl
            (fun types x => Dictionary.insert types (.str x) (Text.lower d.typeName)) g.types } := by
    intro names
    induction names with
    | nil => intro g; rfl
    | cons x rest ih =>
      intro g
      rw [map_cons, generateAll]
      exact ih { g with types := Dictionary.insert g.types (.str x) (Text.lower d.typeName) }
  rw [Declaration.tree, generate, generateItems, EStateM.run_bind, items d.names g]
  rfl

theorem run_section (ds : List Declaration) (g : Generator) :
    (generate (sectionTree ds)).run g =
      .ok .none { g with types := ds.foldl (fun types d => d.note types) g.types } := by
  have items : ∀ (ds : List Declaration) (g : Generator),
      (generateAll andNothing (ds.map Declaration.tree)).run g =
        .ok () { g with types := ds.foldl (fun types d => d.note types) g.types } := by
    intro ds
    induction ds with
    | nil => intro g; rfl
    | cons d rest ih =>
      intro g
      rw [map_cons, generateAll, EStateM.run_bind, run_declaration]
      exact ih { g with types := d.note g.types }
  rw [sectionTree, generate, EStateM.run_bind]
  cases ds with
  | nil => rfl
  | cons d rest =>
    have present : (Tree.list ((d :: rest).map Declaration.tree)).truthy = true := by
      simp [Tree.truthy]
    rw [whenPresent, if_pos present, generateItems, items]
    rfl

theorem find_sections (ds : List Declaration) (x : String) :
    Dictionary.find? (ds.foldl (fun types d => d.note types) []) (.str x) = declaredType ds x := by
  have one : ∀ (d : Declaration) (types : Dictionary String), (d.note types).find? (.str x) =
      if x ∈ d.names then some (Text.lower d.typeName) else types.find? (.str x) := by
    intro d types
    unfold Declaration.note
    induction d.names generalizing types with
    | nil => simp
    | cons name rest ih =>
      rw [foldl_cons, ih, Dictionary.find?_insert_str, Tree.same_str]
      by_cases member : x ∈ rest
      · simp [member]
      · by_cases equal : name = x
        · simp [equal]
        · simp [member, equal, Ne.symm equal]
  have all : ∀ (ds : List Declaration) (types : Dictionary String) (known : Option String),
      types.find? (.str x) = known →
      Dictionary.find? (ds.foldl (fun types d => d.note types) types) (.str x) =
        ds.foldl (fun known d => if x ∈ d.names then some (Text.lower d.typeName) else known)
          known := by
    intro ds
    induction ds with
    | nil => intro types known h; exact h
    | cons d rest ih =>
      intro types known h
      exact ih _ _ (by rw [one, h])
  exact all ds [] none rfl

def Program.typeTable (p : Program) : Dictionary String :=
  (p.declarations ++ p.extra.getD []).foldl (fun types d => d.note types) []

theorem run_whenPresent_section (ds : List Declaration) (g : Generator) :
    (whenPresent (sectionTree ds) (discard (generate (sectionTree ds)))).run g =
      .ok () { g with types := ds.foldl (fun types d => d.note types) g.types } := by
  have present : (sectionTree ds).truthy = true := rfl
  rw [whenPresent, if_pos present, run_discard, run_section]

def Program.extraTree (p : Program) : Tree :=
  match p.extra with
  | none => .none
  | some ds => sectionTree ds

theorem run_whenPresent_extra (p : Program) (g : Generator) :
    (whenPresent p.extraTree (discard (generate p.extraTree))).run g =
      .ok () { g with types := (p.extra.getD []).foldl (fun types d => d.note types) g.types } := by
  unfold Program.extraTree
  cases p.extra with
  | none => rfl
  | some ds => exact run_whenPresent_section ds g

theorem run_generate_program (p : Program) (file : String) :
    (generate p.tree).run { file := file } =
      match (whenPresent p.body.tree (discard (generate p.body.tree))).run
          { file := file, types := p.typeTable } with
      | .ok _ g =>
        if g.hasFunction then (do emit [.stop]; return Tree.none : Generating Tree).run g
        else .ok .none g
      | .error f g => .error f g := by
  have tree : p.tree = .program (.header (.str p.name))
      (.block (sectionTree p.declarations) (.list []) p.body.tree p.extraTree) := rfl
  have absent : (Tree.list []).truthy = false := rfl
  have table : p.typeTable = (p.extra.getD []).foldl (fun types d => d.note types)
      (p.declarations.foldl (fun types d => d.note types) []) := by
    rw [Program.typeTable, foldl_append]
  rw [tree, generate, generate, generate]
  simp only [absent, EStateM.run_bind, run_discard, EStateM.run_pure, Bool.false_eq_true, if_false,
    run_whenPresent_section, run_whenPresent_extra, ← table]
  cases (whenPresent p.body.tree (discard (generate p.body.tree))).run
    { file := file, types := p.typeTable } with
  | error f g => rfl
  | ok _ g =>
    simp only [EStateM.run_get, whenPresent, absent]
    by_cases function : g.hasFunction = true
    · rw [if_pos function, if_pos function]
      rfl
    · rw [if_neg function, if_neg function]
      rfl

theorem run_program (p : Program) (file : String) :
    match p.body.lower {} with
    | some (code, l) => ∃ g', (generateProgram p.tree).run { file := file } = .ok () g' ∧
        g'.code = code ∧ g'.globals = l.cells
    | none => ∃ f g', (generateProgram p.tree).run { file := file } = .error f g' := by
  have fits : Fits p.typeTable {} { file := file, types := p.typeTable } := by
    exact ⟨rfl, rfl, rfl, rfl, rfl, rfl, rfl, rfl, rfl⟩
  have typed : ∀ x ∈ p.body.written, p.typeTable.find? (.str x) = some "integer" := by
    intro x member
    rw [← p.writes x member]
    exact find_sections _ x
  have run := lowers_whenPresent (lowers_statement p.body typed {}) _ fits
  split at run
  · rename_i code l lowered
    obtain ⟨g', run, fits', wrote⟩ := run
    refine ⟨{ g' with out := g'.out ++ "Code generation completed" ++ "\n" }, ?_, ?_, ?_⟩
    · have plain : ¬ g'.hasFunction = true := by simp [fits'.alone]
      simp only [generateProgram, EStateM.run_bind, run_discard, run_generate_program, run,
        if_neg plain]
      rfl
    · simpa using wrote
    · exact fits'.globals
  · obtain ⟨f, g', run⟩ := run
    refine ⟨f, g', ?_⟩
    simp only [generateProgram, EStateM.run_bind, run_discard, run_generate_program, run]

end PascalStack.ControlFlow
