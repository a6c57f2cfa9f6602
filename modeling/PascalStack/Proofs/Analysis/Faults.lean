import PascalStack.Proofs.Analysis.Programs
import PascalStack.Proofs.Syntax.Clauses
import PascalStack.Proofs.Syntax.Legible

/-!
# Faults of the analysis

The analysis is made for the standard types and for arrays of such. A program with other arrays, with
a call in place of an array, or with bounds beyond all numbers can end it with a fault. It is said of
each check of the analysis that it ends with such a fault or not at all, from scopes in which names
are known by what the program says of them.
-/

namespace PascalStack.Analysis

open Checking Syntax List

variable {p : Program} {v w : Value} {P Q : Prop} {x : String}

inductive Explains (p : Program) : Fault → Prop
  | lookup : p.Nests → Explains p (.unhashable "list")
  | comparison : p.Nests → Explains p (.noAttribute "tuple" "startswith")
  | nothing {x f : String} {arguments : List Expression} : x ∈ p.arrayNames →
      .assigns ⟨.name x, .call f arguments⟩ ∈ p.clauses →
      Explains p (.noAttribute "NoneType" "startswith")
  | infinite {x : Float} {negative : Bool} : .literal (.decimal x) ∈ p.bounds →
      Number.decode x = .infinite negative → Explains p .infiniteInteger
  | undefined {x : Float} : .literal (.decimal x) ∈ p.bounds → Number.decode x = .nan →
      Explains p .undefinedInteger

/-- The type of what can be given a value: a name, which is one of arrays only if `P` holds, or a
group. Groups are types only in programs where arrays are parameters, results or elements. -/
inductive Target (p : Program) (P : Prop) : Value → Prop
  | named {name : String} : (name.startsWith "ARRAY" = true → P) → Target p P (.named name)
  | group {ts : List Tree} {text : String} : p.Nests →
      Tree.keysFlaw? ts = some (.unhashable "list") → (Tree.tuple ts).text = .ok text →
      Target p P (.plain (.tuple ts))

def Given (p : Program) (v : Value) : Prop := v = .absent ∨ Target p True v

theorem Target.mono (h : Target p P v) (weaker : P → Q) : Target p Q v := by
  cases h with
  | named listed => exact .named fun arrays => weaker (listed arrays)
  | group nests flaw text => exact .group nests flaw text

theorem Target.given (h : Target p P v) : Given p v := .inr (h.mono fun _ => trivial)

theorem target_named (name : String) : Target p True (.named name) := .named fun _ => trivial

theorem Given.text (h : Given p v) (given : Nat → Bool) :
    ∃ text, valueText given v = .ok text := by
  rcases h with rfl | target
  · exact ⟨_, rfl⟩
  · cases target with
    | named => exact ⟨_, rfl⟩
    | group _ _ text => exact ⟨_, text⟩

variable {ts : List Tree} {f : Fault} {s : Symbol} {c : Prop} {t : Tree}

theorem checkValueKey_group (flaw : Tree.keysFlaw? ts = some (.unhashable "list")) :
    checkValueKey (.plain (.tuple ts)) = .error (.unhashable "list") := by
  simp only [checkValueKey, valueFlaw?, Tree.keyFlaw?, flaw]

theorem Given.key (h : Given p v) (refused : checkValueKey v = .error f) : Explains p f := by
  rcases h with rfl | target
  · cases refused
  · cases target with
    | named => cases refused
    | group nests flaw _ =>
      rw [checkValueKey_group flaw] at refused
      cases refused
      exact .lookup nests

theorem explains_operation {op : String} (left : Given p v) (right : Given p w)
    (h : operationType? (.str op) v w = .error f) : Explains p f := by
  cases first : checkValueKey v with
  | error f' =>
    simp only [operationType?, first] at h
    cases h
    exact left.key first
  | ok _ =>
    cases second : checkValueKey w with
    | error f' =>
      simp only [operationType?, first, second] at h
      cases h
      exact right.key second
    | ok _ =>
      simp only [operationType?, first, second] at h
      cases l : text? v <;> cases r : text? w <;> simp only [l, r] at h <;> cases h

theorem explains_unary {sign : String} (operand : Given p v)
    (h : unaryType? (.str sign) v = .error f) : Explains p f := by
  cases key : checkValueKey v with
  | error f' =>
    simp only [unaryType?, key] at h
    cases h
    exact operand.key key
  | ok _ =>
    simp only [unaryType?, key] at h
    cases t : text? v <;> simp only [t] at h <;> cases h

theorem explains_compatible (target : Target p P w) (source : Given p v)
    (nothing : P → v = .absent → Explains p (.noAttribute "NoneType" "startswith"))
    (h : compatible w v = .error f) : Explains p f := by
  unfold compatible at h
  split at h
  · cases h
  split at h
  · cases h
  cases target with
  | group nests flaw _ =>
    rw [checkValueKey_group flaw] at h
    cases h
    exact .lookup nests
  | @named name listed =>
    have key : checkValueKey (.named name) = .ok () := rfl
    have named : text? (.named name) = some name := rfl
    simp only [key, named] at h
    cases sources : assignable? name with
    | some names =>
      simp only [sources] at h
      cases key : checkValueKey v with
      | error f' =>
        simp only [key] at h
        cases h
        exact source.key key
      | ok _ =>
        simp only [key] at h
        cases h
    | none =>
      simp only [sources] at h
      by_cases arrays : name.startsWith "ARRAY" = true
      · rcases source with rfl | source
        · simp only [arrays] at h
          cases h
          exact nothing (listed arrays) rfl
        · cases source with
          | named =>
            simp only [arrays] at h
            cases h
          | group nests _ _ =>
            simp only [arrays] at h
            cases h
            exact .comparison nests
      · simp only [arrays] at h
        cases h

def IsPassed (p : Program) (v : Value) : Prop :=
  ∃ (s : Symbol) (x : String), v = .symbol s ∧ s.name = .str x ∧ Target p False s.type ∧
    s.role = .variable

structure Described (p : Program) (x : String) (s : Symbol) : Prop where
  type : Target p (x ∈ p.arrayNames) s.type
  element : ∀ element dimensions, s.role = .array element dimensions → Target p True element
  params : ∀ params isFunction, s.role = .routine params isFunction → ∀ v ∈ params, IsPassed p v

def Known (p : Program) (s : Scope) : Prop :=
  ∀ table ∈ s.table :: s.outer, ∀ x symbol, Dictionary.find? table (.str x) = some symbol →
    Described p x symbol

theorem described_variable (type : Target p False s.type) (role : s.role = .variable) (x : String) :
    Described p x s := by
  refine ⟨type.mono False.elim, fun _ _ other => ?_, fun _ _ other => ?_⟩
  · cases role.symm.trans other
  · cases role.symm.trans other

theorem described_routine {s : Symbol} {params : List Value} {isFunction : Bool}
    (type : Target p False s.type) (role : s.role = .routine params isFunction)
    (passed : ∀ v ∈ params, IsPassed p v) (x : String) : Described p x s := by
  refine ⟨type.mono False.elim, fun _ _ other => ?_, fun _ _ same => ?_⟩
  · cases role.symm.trans other
  · cases role.symm.trans same
    exact passed

theorem described_standard (standard : s ∈ standardProcedures ++ standardFunctions) (x : String) :
    Described p x s := by
  have routine (id : Nat) (name : String) (isFunction : Bool) {type : String}
      (word : type.startsWith "ARRAY" = false) :
      Described p x (standardRoutine id name isFunction type) :=
    described_routine (.named fun arrays => by rw [word] at arrays; cases arrays) rfl
      (forall_mem_nil _) x
  simp only [standardProcedures, standardFunctions, cons_append, nil_append,
    mem_cons, not_mem_nil, or_false] at standard
  rcases standard with rfl | rfl | rfl | rfl | rfl <;> exact routine _ _ _ (by simp)

namespace Known

variable {s : Scope} {symbol : Symbol}

theorem find (h : Known p s) (found : s.find? (.str x) = some symbol) : Described p x symbol := by
  obtain ⟨table, member, found⟩ := exists_of_findSome?_eq_some found
  exact h table member x symbol found

theorem define (h : Known p s) (described : ∀ x, symbol.name = .str x → Described p x symbol) :
    Known p (s.define symbol) := by
  intro table member x other found
  rcases mem_cons.mp member with rfl | outer
  · simp only [Scope.define] at found
    by_cases named : symbol.name = .str x
    · rw [named, Dictionary.find?_insert_self] at found
      cases found
      exact described x named
    · rw [Scope.find?_insert_of_ne _ _ named] at found
      exact h s.table mem_cons_self x other found
  · exact h table (mem_cons_of_mem _ outer) x other found

theorem enter (h : Known p s) : Known p s.enter := by
  intro table member x other found
  rcases mem_cons.mp member with rfl | outer
  · cases found
  · exact h table outer x other found

theorem leave (h : Known p s) : Known p s.leave := by
  obtain ⟨table, outer⟩ := s
  cases outer with
  | nil => exact h
  | cons t ts => exact fun table member => h table (mem_cons_of_mem _ member)

end Known

theorem known_standardScope : Known p standardScope := by
  have all (ss : List Symbol) (standard : ss ⊆ standardProcedures ++ standardFunctions) {s : Scope}
      (h : Known p s) : Known p (ss.foldl Scope.define s) := by
    induction ss generalizing s with
    | nil => exact h
    | cons symbol rest ih =>
      obtain ⟨first, others⟩ := cons_subset.mp standard
      exact ih others (h.define fun x _ => described_standard first x)
  refine all _ (Subset.refl _) fun table member x symbol found => ?_
  rw [mem_singleton.mp member] at found
  cases found

/-! ## How checks end -/

/-- A check keeps what is known of names and gives what has a property, or ends with a fault that
the program explains. -/
def Settles {α : Type} (p : Program) (m : Checking α) (V : α → Prop) : Prop :=
  ∀ a, Known p a.scope →
    match m.run a with
    | .ok v b => Known p b.scope ∧ V v
    | .error f _ => Explains p f

/-- The same of a check whose value does not matter. -/
abbrev Explained {α : Type} (p : Program) (m : Checking α) : Prop := Settles p m fun _ => True

section Rules

variable {α β : Type} {m m' : Checking α} {k : α → Checking β} {V V' : α → Prop} {W : β → Prop}

theorem settles_pure {v : α} (h : V v) : Settles p (pure v) V := fun _ known => ⟨known, h⟩

theorem Settles.bind (first : Settles p m V) (rest : ∀ v, V v → Settles p (k v) W) :
    Settles p (m >>= k) W := by
  intro a known
  have ended := first a known
  rw [EStateM.run_bind]
  cases run : m.run a with
  | ok v b =>
    rw [run] at ended
    exact rest v ended.2 b ended.1
  | error f b =>
    rw [run] at ended
    exact ended

theorem Settles.weaken (h : Settles p m V) (weaker : ∀ v, V v → V' v) : Settles p m V' := by
  rw [← bind_pure m]
  exact h.bind fun v holds => settles_pure (weaker v holds)

theorem Settles.discard (h : Settles p m V) : Explained p (discard m) := by
  intro a known
  have ended := h a known
  cases run : m.run a with
  | ok v b =>
    rw [run] at ended
    rw [run_discard_of_ok run]
    exact ⟨ended.1, trivial⟩
  | error f b =>
    rw [run] at ended
    rw [run_discard_of_error run]
    exact ended

theorem Settles.ite [Decidable c] (yes : Settles p m V) (no : Settles p m' V) :
    Settles p (if c then m else m') V := by
  split
  · exact yes
  · exact no

theorem settles_ofExcept {y : Except Fault α} (faults : ∀ f, y = .error f → Explains p f)
    (values : ∀ v, y = .ok v → V v) : Settles p (ofExcept y) V := by
  cases y with
  | error f => exact fun _ _ => faults f rfl
  | ok v => exact settles_pure (values v rfl)

theorem settles_each {f : α → Checking PUnit} {xs : List α}
    (h : ∀ y ∈ xs, Explained p (f y)) : Explained p (xs.forM f) := by
  induction xs with
  | nil => exact settles_pure trivial
  | cons y rest ih =>
    rw [forall_mem_cons] at h
    exact h.1.bind fun _ _ => ih h.2

theorem settles_report (message : String) : Explained p (report message) :=
  fun _ known => ⟨known, trivial⟩

theorem settles_textOf (h : ∃ text, t.text = .ok text) : Explained p (textOf t) := by
  obtain ⟨text, told⟩ := h
  rw [textOf, told]
  exact settles_pure trivial

theorem settles_telling (h : ∃ text, t.text = .ok text) (message : String → String) {v : α}
    (holds : V v) : Settles p (do
      let text ← textOf t
      report (message text)
      return v) V :=
  (settles_textOf h).bind fun _ _ => (settles_report _).bind fun _ _ => settles_pure holds

theorem settles_showing (h : Given p v) : Explained p (showing v) := by
  intro a known
  obtain ⟨text, told⟩ := h.text a.assigned.contains
  rw [run_showing, told]
  exact ⟨known, trivial⟩

theorem settles_test [Decidable c] (h : Given p v) (message : String → String) :
    Explained p (do
      if c then
        let type ← showing v
        report (message type)) :=
  .ite ((settles_showing h).bind fun _ _ => settles_report _) (settles_pure trivial)

theorem settles_find? (x : String) :
    Settles p (find? (.str x)) fun found => ∀ s ∈ found, Described p x s :=
  fun _ known => ⟨known, fun _ found => known.find found⟩

theorem settles_assign (s : Symbol) : Explained p (assign s) :=
  fun _ known => ⟨known, trivial⟩

theorem settles_define (key : s.name.checkKey = .ok ())
    (described : ∀ x, s.name = .str x → Described p x s) : Explained p (define s) := by
  rw [define, key]
  exact fun _ known => ⟨known.define described, trivial⟩

theorem settles_newSymbol (name : Tree) (type : Value) (initialized constant value : Tree)
    (role : Role Value) : Settles p (newSymbol name type initialized constant value role)
      fun s => s.name = name ∧ s.type = type ∧ s.role = role :=
  fun _ known => ⟨known, rfl, rfl, rfl⟩

theorem Settles.inScope {m : Checking Unit} (h : Explained p m) : Explained p (inScope m) := by
  have entered : Explained p enter := fun _ known => ⟨known.enter, trivial⟩
  exact entered.bind fun _ _ => h.bind fun _ _ _ known => ⟨known.leave, trivial⟩

theorem Settles.inLoop {m : Checking Unit} (h : Explained p m) : Explained p (inLoop m) := by
  have counted (f : Nat → Nat) : Explained p
      (modify fun a => { a with loopLevel := f a.loopLevel }) :=
    fun _ known => ⟨known, trivial⟩
  exact (counted (· + 1)).bind fun _ _ => h.bind fun _ _ => counted (· - 1)

theorem Settles.whenPresent {m : Checking Unit} (h : Explained p m) (t : Tree) :
    Explained p (whenPresent t m) := .ite h (settles_pure trivial)

end Rules

def GivenFor (p : Program) (e : Expression) (v : Value) : Prop :=
  Target p True v ∨ v = .absent ∧ ∃ f arguments, e = .call f arguments

theorem GivenFor.given {e : Expression} (h : GivenFor p e v) : Given p v :=
  h.elim .inr fun nothing => .inl nothing.1

section Expressions

variable {m : Checking Value} {each : Checking Unit} {e : Expression} {es : List Expression}

theorem text_str (x : String) : ∃ text, (Tree.str x).text = .ok text := ⟨x, rfl⟩

theorem settles_checkName (x : String) : Settles p (checkName (.str x)) (Target p True) := by
  refine (settles_find? x).bind fun found described => ?_
  split
  · exact settles_pure ((described _ rfl).type.mono fun _ => trivial)
  · exact settles_telling (text_str x) _ (target_named _)

theorem settles_checkIndex (what : String) (h : Settles p m (Given p)) :
    Explained p (checkIndex what m) :=
  h.bind fun _ given => settles_test given _

theorem settles_checkElement (x : String) (h : Settles p m (Given p)) :
    Settles p (checkElement (.str x) m) (Target p True) := by
  refine (settles_find? x).bind fun found described => ?_
  split
  · exact settles_telling (text_str x) _ (target_named _)
  · split
    · rename_i role
      exact (settles_checkIndex _ h).bind fun _ _ =>
        settles_pure ((described _ rfl).element _ _ role)
    · exact .ite ((settles_checkIndex _ h).bind fun _ _ => settles_pure (target_named _))
        (settles_telling (text_str x) _ (target_named _))

theorem settles_checkOperation (op : String) (left : Given p v) (right : Given p w) :
    Settles p (checkOperation (.str op) v w) (Target p True) := by
  refine Settles.bind (settles_ofExcept (fun _ => explains_operation left right)
    fun _ _ => trivial) fun found _ => ?_
  split
  · exact settles_pure (target_named _)
  · exact (settles_showing left).bind fun _ _ => (settles_showing right).bind fun _ _ =>
      settles_telling (text_str op) _ (target_named _)

theorem settles_checkUnary (sign : String) (operand : Given p v) :
    Settles p (checkUnary (.str sign) v) (Target p True) := by
  refine Settles.bind (settles_ofExcept (fun _ => explains_unary operand) fun _ _ => trivial)
    fun found _ => ?_
  split
  · exact settles_pure (target_named _)
  · exact (settles_showing operand).bind fun _ _ =>
      settles_telling (text_str sign) _ (target_named _)

theorem settles_callee? (f : String) :
    Settles p (callee? standardProcedures (.str f)) fun found => ∀ s ∈ found, Described p f s := by
  refine (settles_find? f).bind fun found described => ?_
  split
  · exact settles_pure described
  · refine settles_pure fun s standard => described_standard ?_ f
    exact mem_append_left _ (mem_of_find?_eq_some standard)

theorem settles_checkArguments (title f : String) (ts : List Tree) (wanted : List Value)
    (h : Explained p each) : Explained p (checkArguments title (.str f) (.list ts) wanted each) :=
  .ite (h.bind fun _ _ => settles_pure trivial) (settles_telling (text_str f) _ trivial)

theorem settles_checkArgument (what f : String) (index : Nat) {param : Value}
    (passed : IsPassed p param) (h : Given p v) :
    Explained p (checkArgument what (.str f) index param v) := by
  obtain ⟨s, x, rfl, -, target, -⟩ := passed
  have fits : Explained p (ofExcept (compatible s.type v)) :=
    settles_ofExcept (fun _ => explains_compatible target h False.elim) fun _ _ => trivial
  refine fits.bind fun _ _ => .ite ?_ (settles_pure trivial)
  exact (settles_textOf (text_str f)).bind fun _ _ => (settles_showing target.given).bind
    fun _ _ => (settles_showing h).bind fun _ _ => settles_report _

theorem settles_checkCall {f : String} {standard : String → Checking Unit}
    {each : List Value → Checking Unit} (h : ∀ routine, Explained p (standard routine))
    (h' : ∀ wanted, (∀ v ∈ wanted, IsPassed p v) → Explained p (each wanted)) :
    Settles p (checkCall (.str f) (.list ts) standard each) (Given p) := by
  have absent : Given p .absent := .inl rfl
  refine (settles_callee? f).bind fun found described => ?_
  split
  · exact settles_telling (text_str f) _ absent
  · rename_i s
    have result : Given p (resultType s) := by
      unfold resultType
      split
      · exact (described s rfl).type.given
      · exact absent
    split
    · rename_i wanted _ role
      have checked := settles_checkArguments "Procedure" f ts wanted
        (h' wanted ((described s rfl).params wanted _ role))
      exact .ite ((h _).bind fun _ _ => settles_pure result)
        (checked.bind fun _ _ => .ite (settles_pure result) (settles_pure absent))
    · exact settles_telling (text_str f) _ absent

theorem settles_refuseTarget (legible : e.tree.Legible) : Explained p (refuseTarget e.tree) :=
  (settles_textOf (e.render_ok legible false)).bind fun _ _ => settles_report _

theorem settles_afterArgument (routine : String) (legible : e.tree.Legible) (v : Value) :
    Explained p (afterArgument routine e.tree v) := by
  refine .ite ?_ (settles_pure trivial)
  have refused := settles_refuseTarget (p := p) legible
  cases e with
  | name x =>
    refine (settles_find? x).bind fun found _ => ?_
    split
    · exact settles_assign _
    · exact settles_pure trivial
  | element x index => exact settles_pure trivial
  | literal | call | length | negation | operation => exact refused

mutual

theorem settles_expression (e : Expression) (legible : e.tree.Legible) :
    Settles p (check e.tree) (GivenFor p e) := by
  match e with
  | .literal l => exact settles_pure (.inl (target_named _))
  | .name x => exact (settles_checkName x).weaken fun _ => .inl
  | .element x index =>
    have inner := settles_expression index (forall_mem_cons.mp legible).2
    exact (settles_checkElement x (inner.weaken fun _ => GivenFor.given)).weaken fun _ => .inl
  | .call f arguments =>
    have inner := (forall_mem_cons.mp legible).2
    have called : Settles p (check (Expression.call f arguments).tree) (Given p) :=
      settles_checkCall
        (fun routine => settles_expressions
          (fun e legible v => settles_afterArgument routine legible v) arguments inner)
        fun wanted passed => settles_zip "procedure" f 1 passed arguments inner
    refine called.weaken fun v given => given.symm.imp_right fun nothing => ?_
    exact ⟨nothing, f, arguments, rfl⟩
  | .length operand =>
    rw [Expression.tree, check_length]
    refine (settles_expression operand legible).bind fun v given => ?_
    exact (settles_test given.given _).bind fun _ _ => settles_pure (.inl (target_named _))
  | .negation sign operand =>
    refine (settles_expression operand legible).bind fun v given => ?_
    exact (settles_checkUnary sign given.given).weaken fun _ => .inl
  | .operation left op right =>
    obtain ⟨first, second⟩ := forall_mem_append.mp legible
    refine (settles_expression left first).bind fun v given => ?_
    refine (settles_expression right (forall_mem_cons.mp second).2).bind fun w given' => ?_
    exact (settles_checkOperation op given.given given'.given).weaken fun _ => .inl

theorem settles_expressions {after : Tree → Value → Checking Unit}
    (h : ∀ e : Expression, e.tree.Legible → ∀ v, Explained p (after e.tree v))
    (es : List Expression) (legible : (Tree.list (Expression.trees es)).Legible) :
    Explained p (checkAll after (Expression.trees es)) := by
  match es with
  | [] => exact settles_pure trivial
  | e :: rest =>
    obtain ⟨first, others⟩ := forall_mem_append.mp legible
    exact (settles_expression e first).bind fun v _ => (h e first v).bind fun _ _ =>
      settles_expressions h rest others

theorem settles_zip (what f : String) (index : Nat) {wanted : List Value}
    (passed : ∀ v ∈ wanted, IsPassed p v) (es : List Expression)
    (legible : (Tree.list (Expression.trees es)).Legible) :
    Explained p (checkZip what (.str f) index wanted (Expression.trees es)) := by
  match es, wanted with
  | [], _ => exact settles_pure trivial
  | _ :: _, [] => exact settles_pure trivial
  | e :: rest, param :: params =>
    obtain ⟨first, others⟩ := forall_mem_append.mp legible
    rw [forall_mem_cons] at passed
    exact (settles_expression e first).bind fun v given =>
      (settles_checkArgument what f index passed.1 given.given).bind fun _ _ =>
        settles_zip what f (index + 1) passed.2 rest others

end

end Expressions

end PascalStack.Analysis
