import Mathlib.Data.List.Forall2
import PascalStack.LR.TableMachine
import Std.Tactic.Do

/-!
# Tables that are built

What holds of every table the builder gives, whatever the grammar and the method: where an item of a
state asks for an action at a terminal there is an entry, and its action is one that an item asks
for. An entry is left without an action only where two items ask for different ones. So the machine
of the table does what the items ask for, and conflicts only choose among them.
-/

namespace PascalStack.LR

open Std.Do Drafting

set_option mvcgen.warning false

section Rows

variable {asked : String → Action → Prop} {P Q : String → Prop} {row : Row} {s : String} {i : Item}

theorem lookup_set (row : Row) (s t : String) (e : Entry) :
    (row.set s e).lookup t = if t = s then some e else row.lookup t := by
  induction row with
  | nil => grind [Row.set]
  | cons entry rest ih =>
    rw [Row.set]
    split <;> grind

/-- An entry has an action that is asked for, or none where different ones are. -/
def Entry.Fits (asked : String → Action → Prop) (s : String) (e : Entry) : Prop :=
  match e.action with
  | some a => asked s a
  | none => ∃ a b, asked s a ∧ asked s b ∧ a ≠ b

/-- The entries of a row fit, and for all terminals with a property there are entries. -/
def Kept (asked : String → Action → Prop) (P : String → Prop) (row : Row) : Prop :=
  (∀ s e, row.lookup s = some e → e.Fits asked s) ∧ ∀ s, P s → (row.lookup s).isSome

theorem Kept.mono (kept : Kept asked P row) (weaker : ∀ s, Q s → P s) : Kept asked Q row :=
  ⟨kept.1, fun s holds => kept.2 s (weaker s holds)⟩

theorem Kept.set (kept : Kept asked P row) {e : Entry} (fits : e.Fits asked s) :
    Kept asked (fun t => t = s ∨ P t) (row.set s e) := by
  refine ⟨fun t x found => ?_, fun t known => ?_⟩
  · rw [lookup_set] at found
    split at found
    · cases found
      subst t
      exact fits
    · exact kept.1 t x found
  · rw [lookup_set]
    split
    · rfl
    · exact kept.2 t (known.resolve_left (by assumption))

theorem Kept.empty (kept : Kept asked P row) {old : Entry} {a b : Action}
    (found : row.lookup s = some old) (held : old.action = some a) (other : asked s b)
    (differ : a ≠ b) :
    Kept asked (fun t => t = s ∨ P t) (row.set s { old with action := none }) := by
  have fits := kept.1 s old found
  rw [Entry.Fits, held] at fits
  exact kept.set ⟨a, b, fits, other, differ⟩

theorem Kept.leave (kept : Kept asked P row) {old : Entry} (found : row.lookup s = some old) :
    Kept asked (fun t => t = s ∨ P t) row := by
  refine ⟨kept.1, fun t known => ?_⟩
  rcases known with rfl | known
  · rw [found]
    rfl
  · exact kept.2 t known

/-- The rows and gotos of states. -/
abbrev States := Array Row × Array (List (String × Nat))

def TableDraft.states (d : TableDraft) : States := (d.rows, d.gotos)

/-- Drafting that leaves the finished states, and gives a value with a property. -/
abbrev Drafts {α : Type} (m : Drafting α) (good : α → Prop) : Prop :=
  ∀ before, ⦃fun d => ⌜d.states = before⌝⦄ m ⦃⇓? a d => ⌜d.states = before ∧ good a⌝⦄

theorem drafts_placeReduce (g : Grammar) (state : Nat) (kept : Kept asked P row)
    (own : asked s (.reduce i.rule)) :
    Drafts (g.placeReduce state i row s) (Kept asked fun t => t = s ∨ P t) := by
  intro before
  have placed : Kept asked (fun t => t = s ∨ P t) (row.set s (Grammar.reduceEntry i)) :=
    kept.set own
  mvcgen -trivial [Grammar.placeReduce, Grammar.reduceOverShift, Grammar.reduceOverReduce, count,
    line, shiftConflict, reduceConflict]
  all_goals first | exact True.intro | refine ⟨by assumption, ?_⟩
  all_goals first
    | exact placed
    | exact kept.empty (by assumption) (by assumption) own (by nofun)
    | exact kept.leave (by assumption)
    | split <;> first | exact placed | exact kept.leave (by assumption)

theorem drafts_placeShift (g : Grammar) (state : Nat) {target : Nat} (kept : Kept asked P row)
    (own : asked s (.shift target)) :
    Drafts (g.placeShift state target i row s) (Kept asked fun t => t = s ∨ P t) := by
  intro before
  mvcgen -trivial [Grammar.placeShift, count, line, shiftConflict]
  all_goals first | exact True.intro | refine ⟨by assumption, ?_⟩
  all_goals first
    | exact kept.set own
    | exact kept.empty (by assumption) (by assumption) own (by nofun)
    | exact kept.leave (by assumption)

theorem drafts_placeReduces (g : Grammar) (state : Nat) {terminals : List String}
    (kept : Kept asked P row) (own : ∀ s ∈ terminals, asked s (.reduce i.rule)) :
    Drafts (terminals.foldlM (g.placeReduce state i) row)
      (Kept asked fun t => t ∈ terminals ∨ P t) := by
  intro before
  mvcgen
  case inv1 =>
    exact ⇓? ⟨seen, row'⟩ d => ⌜d.states = before ∧ Kept asked (fun t => t ∈ seen.1 ∨ P t) row'⌝
  case vc1.pre start => exact ⟨start, kept.mono (by simp)⟩
  case vc2.post.success => exact id
  case vc3 seen s rest split row' =>
    intro d ⟨same, kept'⟩
    have placing := drafts_placeReduce g state kept' (own s (by simp [split])) before
    mvcgen [placing]
    exact fun same' kept'' => ⟨same', kept''.mono (by grind)⟩

theorem line_spec (text : String) (before : States) :
    ⦃fun d => ⌜d.states = before⌝⦄ line text ⦃⇓? _ d => ⌜d.states = before⌝⦄ := by
  mvcgen [line]

theorem forM_spec {α : Type} {f : α → Drafting PUnit} {before : States}
    (each : ∀ x, ⦃fun d => ⌜d.states = before⌝⦄ f x ⦃⇓? _ d => ⌜d.states = before⌝⦄) (xs : List α) :
    ⦃fun d => ⌜d.states = before⌝⦄ xs.forM f ⦃⇓? _ d => ⌜d.states = before⌝⦄ := by
  induction xs with
  | nil => mvcgen [List.forM]
  | cons x xs ih => mvcgen [List.forM, each, ih]

end Rows

namespace Grammar

/-- That an item of a state asks for an action at a terminal. -/
inductive Asks (g : Grammar) (reduceOn : Nat → Item → List String) (n : Nat) (i : Item) :
    String → Action → Prop
  | shift {s : String} {target : Nat} (next : g.next? i = some s) (terminal : g.terminals.has s)
      (step : g.automaton.step? n s = some target) : Asks g reduceOn n i s (.shift target)
  | reduce {s : String} (whole : g.next? i = none) (own : i.rule ≠ 0) (mem : s ∈ reduceOn n i) :
      Asks g reduceOn n i s (.reduce i.rule)
  | accept (whole : g.next? i = none) (start : i.rule = 0) : Asks g reduceOn n i endSymbol .accept

/-- That some item of a state does. -/
def Asked (g : Grammar) (reduceOn : Nat → Item → List String) (n : Nat) (s : String)
    (a : Action) : Prop :=
  ∃ i ∈ (g.automaton.state n).toList, g.Asks reduceOn n i s a

/-- A row has an entry where an item of its state asks for one, and its entries fit. -/
abbrev Answers (g : Grammar) (reduceOn : Nat → Item → List String) (n : Nat) (row : Row) : Prop :=
  Kept (g.Asked reduceOn n) (fun s => ∃ a, g.Asked reduceOn n s a) row

/-- The states that the phrases lead to from a state. -/
def gotosOf (g : Grammar) (n : Nat) : List (String × Nat) :=
  ((g.automaton.steps[n]?).getD []).filter fun step => g.nonterminals.has step.1

variable {g : Grammar} {reduceOn : Nat → Item → List String} {n : Nat}
  {asked : String → Action → Prop} {found : Row × List Candidate} {i : Item} {P : String → Prop}

theorem drafts_placeItem (kept : Kept asked P found.1)
    (own : ∀ s a, g.Asks reduceOn n i s a → asked s a) :
    Drafts (g.placeItem g.automaton reduceOn n found i) fun found' =>
      Kept asked (fun t => (∃ a, g.Asks reduceOn n i t a) ∨ P t) found'.1 := by
  intro before
  have reducing (whole : g.next? i = none) (other : i.rule ≠ 0) :=
    drafts_placeReduces g n kept (fun s mem => own s _ (.reduce whole other mem)) before
  have shifting {s : String} {target : Nat} (next : g.next? i = some s)
      (terminal : g.terminals.has s) (step : g.automaton.step? n s = some target) :=
    drafts_placeShift (i := i) g n kept (own s _ (.shift next terminal step)) before
  mvcgen [placeItem, -Spec.foldlM_list, reducing, shifting]
  case vc1.h_1.isTrue whole start _ same =>
    have placed := kept.set (e := ⟨some .accept, i⟩) (own _ _ (.accept whole (by simpa using start)))
    exact ⟨same, placed.mono (by grind [Asks])⟩
  case vc3.other other _ _ _ _ => simpa using other
  -- Either the action that was placed is what the item asks for, or it asks for nothing.
  all_goals grind [Asks, Kept.mono]

theorem placeItems_spec (n : Nat) (before : States) :
    ⦃fun d => ⌜d.states = before⌝⦄
      (g.automaton.state n).toList.foldlM (g.placeItem g.automaton reduceOn n) ([], [])
      ⦃⇓? found d => ⌜d.states = before ∧ g.Answers reduceOn n found.1⌝⦄ := by
  mvcgen
  case inv1 =>
    exact ⇓? ⟨seen, found⟩ d => ⌜d.states = before ∧ Kept (g.Asked reduceOn n)
      (fun s => ∃ a, ∃ i ∈ seen.1, g.Asks reduceOn n i s a) found.1⌝
  case vc1.pre start => exact ⟨start, by simp [Kept]⟩
  case vc2.post.success => exact id
  case vc3 seen i rest split found =>
    intro d ⟨same, kept⟩
    have mem : i ∈ (g.automaton.state n).toList := by simp [split]
    have placing := drafts_placeItem kept (fun s a asks => ⟨i, mem, asks⟩) before
    mvcgen [placing]
    exact fun same' kept' => ⟨same', kept'.mono (by grind)⟩

theorem draftState_spec (n : Nat) (before : States) :
    ⦃fun d => ⌜d.states = before⌝⦄ g.draftState g.automaton reduceOn n
      ⦃⇓? _ d => ⌜∃ row, d.states = (before.1.push row, before.2.push (g.gotosOf n)) ∧
        g.Answers reduceOn n row⌝⦄ := by
  obtain ⟨rows, gotos⟩ := before
  mvcgen [draftState, reportActions, forM_spec, line_spec, -Spec.foldlM_list, placeItems_spec]
  all_goals
    obtain ⟨same, answers⟩ := ‹_ ∧ Kept _ _ _›
    refine ⟨_, ?_, answers⟩
    simp_all +zetaDelta [TableDraft.states, gotosOf]

theorem draftStates_spec (numbers : List Nat) (before : States) :
    ⦃fun d => ⌜d.states = before⌝⦄ numbers.forM (g.draftState g.automaton reduceOn)
      ⦃⇓? _ d => ⌜∃ rows, d.states =
          (before.1 ++ rows.toArray, before.2 ++ (numbers.map g.gotosOf).toArray) ∧
        List.Forall₂ (g.Answers reduceOn) numbers rows⌝⦄ := by
  induction numbers generalizing before with
  | nil =>
    mvcgen [List.forM]
    exact ⟨[], by simp_all, .nil⟩
  | cons n numbers ih =>
    mvcgen [List.forM, draftState_spec, ih]
    rename_i drafted _ _
    obtain ⟨row, states, answers⟩ := drafted
    rintro ⟨rows, states', all⟩
    exact ⟨row :: rows, by simp_all, .cons answers all⟩

/-- The terminals on which an item whose parts are all there is reduced. -/
def reductions (g : Grammar) : Method → Nat → Item → List String
  | .lalr => fun n i => (g.lookaheads g.automaton).getD (n, i.rule) []
  | .slr => fun _ i => (g.followSets g.firstSets).get (g.ruleOf i).name

/-- That rows and gotos are those of all states of a grammar. -/
def Fills (g : Grammar) (method : Method) (states : States) : Prop :=
  ∃ rows, states = (rows.toArray, ((List.range g.automaton.states.size).map g.gotosOf).toArray) ∧
    List.Forall₂ (g.Answers (g.reductions method)) (List.range g.automaton.states.size) rows

theorem draftTable_spec (method : Method) :
    ⦃fun d => ⌜d.states = (#[], #[])⌝⦄ g.draftTable method
      ⦃⇓? _ d => ⌜g.Fills method d.states⌝⦄ := by
  have states :=
    @draftStates_spec g (g.reductions method) (List.range g.automaton.states.size) (#[], #[])
  simp only [Array.empty_append] at states
  cases method
  all_goals
    mvcgen [draftTable, line_spec]
    rename_i empty _ _ _ _
    exact fun d same => states d (same.trans empty)

/-- That a table has the rules and the states of a grammar. -/
structure Has (g : Grammar) (t : ParserTable) : Prop where
  productions : t.productions = g.productions
  states : g.Fills t.method (t.rows, t.gotos)

/-- A machine acts as the items of a state ask it to where they agree, and never as none asks. -/
structure Guides {α : Type} (g : Grammar) (method : Method) (m : Machine String String α) :
    Prop where
  asked : ∀ {n s a}, m.action n s = some a → g.Asked (g.reductions method) n s.symbol a
  acts : ∀ {n s a}, g.Asked (g.reductions method) n s.symbol a →
    (∀ b, g.Asked (g.reductions method) n s.symbol b → b = a) → m.action n s = some a
  settled : ∀ {n r}, m.settled n = some r → ∃ s, g.Asked (g.reductions method) n s (.reduce r)
  goto : ∀ n < g.automaton.states.size, ∀ name, m.goto n name = (g.gotosOf n).lookup name
  rule : ∀ r, m.rule r = if r = 0 then none else
    (g.productions[r]?).map fun p => (p.name, p.parts.length)

variable {t : ParserTable}

theorem Has.answers (has : g.Has t) (n : Nat) :
    match t.rows[n]? with
    | some row => g.Answers (g.reductions t.method) n row
    | none => g.automaton.states.size ≤ n := by
  obtain ⟨rows, same, all⟩ := has.states
  obtain ⟨length, each⟩ := List.forall₂_iff_get.mp all
  rw [(Prod.mk.inj same).1, List.getElem?_toArray]
  split
  · rename_i row found
    obtain ⟨small, rfl⟩ := List.getElem?_eq_some_iff.mp found
    simpa using each n (length ▸ small) small
  · rename_i missing
    simpa [← length] using missing

theorem Has.guides {α : Type} {meaning : Nat → List α → Printing α}
    {complain : Option (Lookahead String α) → Printing Unit} {errorValue : Lookahead String α → α}
    (has : g.Has t) : g.Guides t.method (t.machine meaning complain errorValue) where
  asked {n s a} acts := by
    have answers := has.answers n
    obtain ⟨row, found, acts⟩ := Option.bind_eq_some_iff.mp acts
    obtain ⟨e, listed, action⟩ := Option.bind_eq_some_iff.mp acts
    rw [found] at answers
    have fits := answers.1 _ e listed
    rwa [Entry.Fits, action] at fits
  acts {n s a} asked agree := by
    have answers := has.answers n
    cases found : t.rows[n]? with
    | none =>
      rw [found] at answers
      obtain ⟨i, mem, -⟩ := asked
      simp [Automaton.state, answers] at mem
    | some row =>
      rw [found] at answers
      obtain ⟨e, listed⟩ := Option.isSome_iff_exists.mp (answers.2 _ ⟨a, asked⟩)
      have fits := answers.1 _ e listed
      simp only [ParserTable.machine, found, Option.bind_some, listed]
      rw [Entry.Fits] at fits
      split at fits
      · rename_i b action
        rw [action, agree b fits]
      · obtain ⟨b, c, first, second, differ⟩ := fits
        exact absurd ((agree b first).trans (agree c second).symm) differ
  settled {n r} only := by
    have answers := has.answers n
    obtain ⟨row, found, only⟩ := Option.bind_eq_some_iff.mp only
    rw [found] at answers
    unfold ParserTable.onlyRule? at only
    split at only
    · rename_i s _ i
      cases only
      exact ⟨s, answers.1 s ⟨some (.reduce r), i⟩ (by simp)⟩
    · cases only
  goto n small name := by
    obtain ⟨rows, same, -⟩ := has.states
    simp [ParserTable.machine, (Prod.mk.inj same).2, small]
  rule r := by rw [ParserTable.machine, has.productions]

end Grammar

/-- That a computation can give a value. -/
def Gives {σ α : Type} (m : EStateM Fault σ α) (a : α) : Prop := ∃ s s', m.run s = .ok a s'

theorem gives_spec {σ α : Type} (m : EStateM Fault σ α) : ⦃⌜True⌝⦄ m ⦃⇓? a _ => ⌜Gives m a⌝⦄ := by
  intro s _
  simp only [wp, PredTrans.apply]
  split
  case h_1 a s' run => exact ⟨s, s', run⟩
  case h_2 => trivial

theorem of_spec {σ α : Type} {m : EStateM Fault σ α} {P : σ → Prop} {Q : α → σ → Prop} {a : α}
    {s s' : σ} (spec : ⦃fun s => ⌜P s⌝⦄ m ⦃⇓? a s => ⌜Q a s⌝⦄) (holds : P s)
    (run : m.run s = .ok a s') : Q a s' := by
  have ends := spec s holds
  simp only [wp, PredTrans.apply, run] at ends
  exact ends

theorem buildTable_spec (s : Specification) (g : Grammar) :
    ⦃⌜True⌝⦄ buildTable s g ⦃⇓? t _ => ⌜g.Has t⌝⦄ := by
  have noted (n : Notice) := gives_spec (Building.note n)
  have reported (d : TableDraft) := gives_spec (reportConflicts g d)
  mvcgen [buildTable, noted, reported]
  rename_i run _ _ _ _ _ _
  have states := of_spec (Grammar.draftTable_spec _) rfl run
  exact ⟨rfl, states⟩

/-- That a grammar is one that the rules and the precedence of a specification give. -/
def Specification.Describes (s : Specification) (g : Grammar) : Prop :=
  ∃ rules terms, Gives (readRules s) (rules, false) ∧ readPrecedence s.precedence = .ok terms ∧
    Gives (buildGrammar s rules terms) g

theorem build_spec (s : Specification) :
    ⦃⌜True⌝⦄ build s ⦃⇓? t _ => ⌜∃ g, s.Describes g ∧ g.Has t⌝⦄ := by
  have noted (n : Notice) := gives_spec (Building.note n)
  have lined (text : String) := gives_spec (Building.line text)
  have all (ns : List Notice) := gives_spec (ns.forM Building.note)
  have read := gives_spec (readRules s)
  have grammar (rules : List WrittenRule) (terms : List (String × String × Nat)) :=
    gives_spec (buildGrammar s rules terms)
  have checked (g : Grammar) := gives_spec (checkGrammar g)
  mvcgen [build, Building.giveUp, noted, lined, all, read, grammar, checked, buildTable_spec]
  all_goals refine ⟨_, ⟨_, _, ?_, by assumption, by assumption⟩, by assumption⟩
  all_goals grind

/-- Every table that is built, by whatever method, is that of a grammar which the specification
describes, and its machine is guided by that grammar. -/
theorem machine_of_build {α : Type} {s : Specification} {b b' : Bench} {t : ParserTable}
    (run : (build s).run b = .ok t b') (meaning : Nat → List α → Printing α)
    (complain : Option (Lookahead String α) → Printing Unit) (errorValue : Lookahead String α → α) :
    ∃ g, s.Describes g ∧ g.Guides t.method (t.machine meaning complain errorValue) := by
  obtain ⟨g, described, has⟩ := of_spec (build_spec s) trivial run
  exact ⟨g, described, has.guides⟩

end PascalStack.LR
