import PascalStack.Proofs.Analysis.Faults

/-!
# The analysis reports

Statements, declarations, routines and programs are checked to the end, or the check ends with a
fault that is explained by a clause of the program. So the analysis of a source text gives a verdict,
and says in its errors what is wrong, unless arrays stand where the analysis does not expect them.
-/

namespace PascalStack.Analysis

open Checking Syntax List

variable {p : Program} {v w : Value} {P : Prop} {x : String}

section Statements

variable {e : Expression} {m : Checking Value}

theorem Target.ne_absent (h : Target p P v) : v ≠ .absent := by
  intro absent
  cases h <;> cases absent

theorem settles_giveTo {target : Symbol} (type : Target p P target.type) (h : Given p v)
    (nothing : P → v = .absent → Explains p (.noAttribute "NoneType" "startswith")) :
    Explained p (giveTo target v) := by
  refine Settles.bind (settles_ofExcept (fun _ => explains_compatible type h nothing)
    fun _ _ => trivial) fun fits _ => .ite (settles_assign target) ?_
  exact (settles_showing h).bind fun _ _ => (settles_showing type.given).bind fun _ _ =>
    settles_report _

theorem settles_calledType? (f : String) (t : Tree) :
    Settles p (calledType? (.procedureCall (.str f) t)) fun found =>
      ∀ v ∈ found, Target p True v := by
  have nothing : Settles p (pure none) fun found : Option Value => ∀ v ∈ found, Target p True v :=
    settles_pure fun _ none => by cases none
  refine (settles_find? f).bind fun found described => ?_
  split
  · split
    · refine settles_pure fun v given => ?_
      cases given
      exact (described _ rfl).type.mono fun _ => trivial
    · exact nothing
  · exact nothing

theorem settles_giveFound {target : Symbol} (type : Target p (x ∈ p.arrayNames) target.type)
    (assigned : .assigns ⟨.name x, e⟩ ∈ p.clauses) (h : GivenFor p e v) :
    Explained p (giveFound target e.tree v) := by
  rcases h with found | ⟨rfl, f, arguments, rfl⟩
  · have present : ¬ v.isAbsent = true := by
      cases found <;> exact Bool.false_ne_true
    rw [giveFound, if_neg present]
    exact settles_giveTo type found.given fun _ absent => absurd absent found.ne_absent
  · refine (settles_calledType? f _).bind fun called given => ?_
    cases called with
    | none => exact settles_giveTo type (.inl rfl) fun listed _ => .nothing listed assigned
    | some v =>
      have found := given v rfl
      exact settles_giveTo type found.given fun _ absent => absurd absent found.ne_absent

theorem settles_assignment (a : Assignment) (legible : a.tree.Legible)
    (assigned : .assigns a ∈ p.clauses) : Explained p (check a.tree) := by
  obtain ⟨target, value⟩ := a
  cases target with
  | element x index => exact fun _ known => ⟨known, trivial⟩
  | name x =>
    have refused (message : String → String) : Explained p (do
        let text ← textOf (.str x)
        report (message text)) :=
      (settles_textOf (text_str x)).bind fun _ _ => settles_report _
    refine Settles.bind (V := fun _ => True) ?_ fun _ _ => settles_pure trivial
    refine (settles_find? x).bind fun found described => ?_
    split
    · exact refused _
    · refine .ite (refused _) ?_
      refine (settles_expression value (forall_mem_cons.mp legible).2).bind fun v given => ?_
      exact settles_giveFound (described _ rfl).type assigned given

theorem settles_condition (legible : e.tree.Legible) (what : String) :
    Explained p (check e.tree >>= checkCondition what) :=
  (settles_expression e legible).bind fun _ given => settles_test given.given _

theorem settles_checkControl (a : Assignment) : Explained p (checkControl a.tree) := by
  obtain ⟨target, value⟩ := a
  cases target with
  | element x index => exact settles_pure trivial
  | name x =>
    refine (settles_find? x).bind fun found described => ?_
    split
    · exact settles_test (described _ rfl).type.given _
    · exact settles_pure trivial

theorem settles_checkJump (what : String) : Explained p (checkJump what) := by
  have known : Explained p get := fun _ known => ⟨known, trivial⟩
  exact known.bind fun _ _ => .ite (settles_report _) (settles_pure trivial)

theorem settles_target (y : Variable) (legible : y.tree.Legible) :
    Explained p (checkTarget y.tree (check y.tree)) := by
  cases y with
  | name x =>
    refine (settles_find? x).bind fun found described => ?_
    split
    · exact (settles_textOf (text_str x)).bind fun _ _ => settles_report _
    · exact .ite (settles_assign _)
        ((settles_showing (described _ rfl).type.given).bind fun _ _ => settles_report _)
  | element x index =>
    have inner := settles_expression (p := p) (.element x index) legible
    exact inner.bind fun v given => settles_test given.given _

theorem settles_targets (ys : List Variable)
    (legible : (Tree.list (ys.map Variable.tree)).Legible) :
    Explained p (checkEachTarget (ys.map Variable.tree)) := by
  induction ys with
  | nil => exact settles_pure trivial
  | cons y rest ih =>
    obtain ⟨first, others⟩ := forall_mem_append.mp legible
    exact (settles_target y first).bind fun _ _ => ih others

mutual

theorem settles_statement (s : Statement) (legible : s.tree.Legible)
    (clauses : s.clauses ⊆ p.clauses) : Explained p (check s.tree) := by
  match s with
  | .empty => exact fun _ known => ⟨known, trivial⟩
  | .absent => exact settles_pure trivial
  | .compound items =>
    exact (settles_statements items legible clauses).bind fun _ _ => settles_pure trivial
  | .assign a => exact settles_assignment a legible (clauses (mem_singleton_self _))
  | .conditional condition yes no =>
    obtain ⟨legible, last⟩ := forall_mem_append.mp legible
    obtain ⟨first, second⟩ := forall_mem_append.mp legible
    obtain ⟨left, right⟩ := append_subset.mp clauses
    refine (settles_expression condition first).bind fun _ given => ?_
    refine (settles_test given.given _).bind fun _ _ => ?_
    exact (settles_statement yes second left).discard.bind fun _ _ =>
      ((settles_statement no last right).discard.whenPresent _).bind fun _ _ =>
        settles_pure trivial
  | .whileDo condition body =>
    obtain ⟨first, second⟩ := forall_mem_append.mp legible
    refine (settles_expression condition first).bind fun _ given => ?_
    refine (settles_test given.given _).bind fun _ _ => ?_
    exact (settles_statement body second clauses).discard.inLoop.bind fun _ _ =>
      settles_pure trivial
  | .repeatUntil body condition =>
    obtain ⟨first, second⟩ := forall_mem_append.mp legible
    exact ((settles_statement body first clauses).discard.bind fun _ _ =>
      settles_condition second _).inLoop.bind fun _ _ => settles_pure trivial
  | .forDo start direction limit body =>
    obtain ⟨legible, last⟩ := forall_mem_append.mp legible
    obtain ⟨first, second⟩ := forall_mem_append.mp legible
    obtain ⟨assigned, inner⟩ := cons_subset.mp clauses
    refine (settles_assignment start first assigned).discard.bind fun _ _ => ?_
    refine (settles_checkControl start).bind fun _ _ => ?_
    refine (settles_expression limit second).bind fun _ given => ?_
    refine (settles_test given.given _).bind fun _ _ => ?_
    exact (settles_statement body last inner).discard.inLoop.bind fun _ _ => settles_pure trivial
  | .call f arguments =>
    exact (settles_expression (.call f arguments) legible).weaken fun _ _ => trivial
  | .mention x => exact (settles_checkName x).weaken fun _ _ => trivial
  | .writeln arguments =>
    have each : Explained p (checkAll andNothing (Expression.trees arguments)) :=
      settles_expressions (fun _ _ _ => settles_pure trivial) arguments legible
    exact (each.whenPresent _).bind fun _ _ => settles_pure trivial
  | .readln targets =>
    exact ((settles_targets targets legible).whenPresent _).bind fun _ _ => settles_pure trivial
  | .breakLoop => exact (settles_checkJump _).bind fun _ _ => settles_pure trivial
  | .continueLoop => exact (settles_checkJump _).bind fun _ _ => settles_pure trivial

theorem settles_statements (items : List Statement)
    (legible : (Tree.list (Statement.trees items)).Legible)
    (clauses : Statement.allClauses items ⊆ p.clauses) :
    Explained p (checkAll andNothing (Statement.trees items)) := by
  match items with
  | [] => exact settles_pure trivial
  | s :: rest =>
    obtain ⟨first, others⟩ := forall_mem_append.mp legible
    obtain ⟨left, right⟩ := append_subset.mp clauses
    exact (settles_statement s first left).bind fun _ _ => settles_statements rest others right

end

end Statements

/-! ## Types -/

section Types

variable {first last : Expression} {τ : TypeForm}

def IsArrayType (p : Program) (v : Value) : Prop :=
  ∃ element dimensions, v = .plain (.tuple [.str "ARRAY", element, .list dimensions]) ∧
    Target p False (.plain element) ∧
    ∃ text, (Tree.tuple [.str "ARRAY", element, .list dimensions]).text = .ok text

def IsFormed (p : Program) : TypeForm → Value → Prop
  | .word _, v => ∃ name, v = .named name ∧ name.startsWith "ARRAY" = false
  | .array .., v => IsArrayType p v

theorem IsFormed.target (h : IsFormed p τ v) (nests : τ.isArray = true → p.Nests) :
    Target p False v := by
  cases τ with
  | word s =>
    obtain ⟨name, rfl, word⟩ := h
    exact .named fun arrays => by rw [word] at arrays; cases arrays
  | array first last element =>
    obtain ⟨element, dimensions, rfl, target, text, told⟩ := h
    refine .group (nests rfl) ?_ told
    generalize inner : Value.plain element = v at target
    cases target with
    | named =>
      cases inner
      rfl
    | group _ flaw _ =>
      cases inner
      simp [Tree.keysFlaw?, Tree.keyFlaw?, flaw]

theorem settles_word (s : String) :
    Settles p (check (TypeForm.word s).tree) (IsFormed p (.word s)) := by
  have word : ∀ name ∈ ["INTEGER", "REAL", "BOOLEAN", "STRING", "UNKNOWN"],
      name.startsWith "ARRAY" = false := by decide +kernel
  change Settles p (if ["INTEGER", "REAL", "BOOLEAN", "STRING"].contains (Text.asciiUpper s) then _
    else _) _
  split
  · rename_i standard
    have member := mem_append_left ["UNKNOWN"] (contains_iff_mem.mp standard)
    exact settles_pure ⟨_, rfl, word _ member⟩
  · exact (settles_report _).bind fun _ _ => settles_pure ⟨_, rfl, word _ (by decide)⟩

theorem text_int {n : Int} (h : n.natAbs < Number.tenTo Fault.digitLimit) :
    ∃ text, (Tree.int n).text = .ok text := ⟨_, if_pos h⟩

theorem settles_boundOf (l : Literal) (legible : l.tree.Legible)
    (bound : .literal l ∈ p.bounds) :
    Settles p (boundOf l.value) fun n => ∃ text, (Tree.int n).text = .ok text := by
  have small {n : Int} (h : n.natAbs ≤ 1) : ∃ text, (Tree.int n).text = .ok text :=
    text_int (Nat.lt_of_le_of_lt h Number.one_lt_limit)
  cases l with
  | integer n => exact settles_pure (legible _ (mem_singleton_self _))
  | decimal x =>
    refine settles_ofExcept (fun f fault => ?_) fun n given =>
      text_int (Number.natAbs_lt_of_truncate given)
    cases decoded : Number.decode x with
    | nan =>
      simp only [Number.truncate, decoded] at fault
      cases fault
      exact .undefined bound decoded
    | infinite negative =>
      simp only [Number.truncate, decoded] at fault
      cases fault
      exact .infinite bound decoded
    | finite negative mantissa exponent =>
      simp only [Number.truncate, decoded] at fault
      cases fault
  | truth b => cases b <;> exact settles_pure (small (by decide))
  | verdict b | phrase s => exact settles_pure (small (by decide))

def IsRange (v : Value) : Prop :=
  v = .absent ∨ ∃ t, v = .plain t ∧ t.truthy = true ∧ ∃ text, t.render true = .ok text

theorem isRange_tuple {a b : Int} (h : ∃ text, (Tree.int a).text = .ok text)
    (h' : ∃ text, (Tree.int b).text = .ok text) :
    IsRange (.plain (.tuple [.int a, .int b])) := by
  obtain ⟨text, told⟩ := h
  obtain ⟨text', told'⟩ := h'
  rw [Tree.text, Tree.render] at told told'
  exact .inr ⟨_, rfl, rfl, _, by simp only [Tree.render, Tree.renderAll, told, told']; rfl⟩

theorem settles_checkBounds (legible : first.tree.Legible) (legible' : last.tree.Legible)
    (bound : first ∈ p.bounds) (bound' : last ∈ p.bounds) (given : Given p v) (given' : Given p w) :
    Settles p (checkBounds first.tree last.tree v w) IsRange := by
  have zero : ∃ text, (Tree.int 0).text = .ok text := text_int (Nat.zero_lt_of_lt Number.one_lt_limit)
  refine .ite ?_ ?_
  · exact (settles_showing given).bind fun _ _ => (settles_showing given').bind fun _ _ =>
      (settles_report _).bind fun _ _ => settles_pure (.inl rfl)
  · cases first with
    | literal l =>
      cases last with
      | literal l' =>
        refine (settles_boundOf l legible bound).bind fun a told => ?_
        refine (settles_boundOf l' legible' bound').bind fun b told' => ?_
        refine .ite ?_ (settles_pure (isRange_tuple told told'))
        exact (settles_textOf told).bind fun _ _ =>
          settles_telling told' _ (.inl rfl)
      | _ => exact settles_pure (isRange_tuple zero zero)
    | _ => exact settles_pure (isRange_tuple zero zero)

theorem isArrayType {dimensions : List Value} (element : Target p False v) (range : IsRange w)
    (listed : dimensions = if w.truthy then [w] else []) :
    IsArrayType p (.tupleOf [.named "ARRAY", v, .listOf dimensions]) := by
  have inner : ∃ t text, v = .plain t ∧ t.render true = .ok text := by
    cases element with
    | named => exact ⟨_, _, rfl, rfl⟩
    | group _ _ told => exact ⟨_, _, rfl, told⟩
  obtain ⟨t, text, rfl, told⟩ := inner
  rcases range with rfl | ⟨t', rfl, present, text', told'⟩
  · subst listed
    exact ⟨t, [], rfl, element, _, by
      simp only [Tree.text, Tree.render, Tree.renderAll, told]; rfl⟩
  · rw [Value.truthy, present] at listed
    subst listed
    exact ⟨t, [t'], rfl, element, _, by
      simp only [Tree.text, Tree.render, Tree.renderAll, told, told']; rfl⟩

theorem settles_type (τ : TypeForm) (legible : τ.tree.Legible) (bounds : τ.bounds ⊆ p.bounds)
    (rows : τ.hasRows = true → p.Nests) : Settles p (check τ.tree) (IsFormed p τ) := by
  induction τ with
  | word s => exact settles_word s
  | array first last element ih =>
    obtain ⟨legible, last'⟩ := forall_mem_append.mp legible
    obtain ⟨lower, upper⟩ := forall_mem_append.mp legible
    obtain ⟨bound, bounds⟩ := cons_subset.mp bounds
    obtain ⟨bound', bounds⟩ := cons_subset.mp bounds
    have nested : element.hasRows = true → p.Nests := by
      cases element with
      | word s => exact fun h => absurd h Bool.false_ne_true
      | array _ _ _ => exact fun _ => rows rfl
    refine (ih last' bounds nested).bind fun v formed => ?_
    refine Settles.bind (V := IsRange) ?_ fun w range =>
      settles_pure (isArrayType (formed.target rows) range rfl)
    refine (settles_expression first lower).bind fun v given => ?_
    refine (settles_expression last upper).bind fun w given' => ?_
    exact settles_checkBounds lower upper bound bound' given.given given'.given

end Types

section Declarations

variable {τ : TypeForm} {d : Declaration}

theorem settles_clause {c : Clause} (member : c ∈ p.clauses) (bounds : τ.bounds ⊆ c.bounds)
    (nests : τ.hasRows = true → c.nests = true) (legible : τ.tree.Legible) :
    Settles p (check τ.tree) (IsFormed p τ) := by
  refine settles_type τ legible (fun b inside => ?_) fun rows => ⟨c, member, nests rows⟩
  exact mem_flatMap.mpr ⟨c, member, bounds inside⟩

theorem checkKey_name (x : Option String) : (nameTree x).checkKey = .ok () := by
  cases x <;> rfl

theorem settles_checkNew (what : String) (x : Option String) :
    Explained p (checkNew what (nameTree x)) := by
  have found : Explained p (findHere? (nameTree x)) := by
    rw [findHere?, checkKey_name]
    exact fun _ known => ⟨known, trivial⟩
  exact found.bind fun _ _ => .ite
    ((settles_textOf (exists_text_name x)).bind fun _ _ => settles_report _) (settles_pure trivial)

theorem settles_declareAs (h : IsFormed p τ v) (listed : τ.isArray = true → x ∈ p.arrayNames) :
    Explained p (declareAs v (.str x)) := by
  cases τ with
  | word s =>
    have target := h.target fun arrays => absurd arrays Bool.false_ne_true
    obtain ⟨name, rfl, -⟩ := h
    refine (settles_newSymbol _ _ _ _ _ _).bind fun s made => ?_
    obtain ⟨named, typed, role⟩ := made
    exact settles_define (by rw [named]; rfl) fun y _ => described_variable (typed ▸ target) role y
  | array first last element =>
    obtain ⟨element, dimensions, rfl, target, -⟩ := h
    refine (settles_newSymbol (.str x) (.named "ARRAY") _ _ _ (.array (.plain element) _)).bind
      fun s made => ?_
    obtain ⟨named, typed, role⟩ := made
    refine settles_define (by rw [named]; rfl) fun y same => ⟨?_, ?_, ?_⟩
    · cases named.symm.trans same
      rw [typed]
      exact .named fun _ => listed rfl
    · intro _ _ other
      cases role.symm.trans other
      exact target.mono False.elim
    · intro _ _ other
      cases role.symm.trans other

theorem settles_declaration (member : .declares d ∈ p.clauses) (legible : d.tree.Legible) :
    Explained p (check d.tree) := by
  obtain ⟨-, typed⟩ := forall_mem_append.mp legible
  rw [check_declaration]
  refine (settles_clause member (Subset.refl _) id typed).bind fun v formed => ?_
  refine (settles_each fun y inside => ?_).bind fun _ _ => settles_pure trivial
  cases y with
  | element x index => exact (settles_textOf (text_str x)).bind fun _ _ => settles_report _
  | name x =>
    refine (settles_checkNew "Variable" (some x)).bind fun _ _ =>
      settles_declareAs formed fun arrays => mem_flatMap.mpr ⟨_, member, ?_⟩
    rw [Clause.arrayNames, if_pos arrays]
    exact mem_map_of_mem (f := Variable.base) inside

theorem settles_section (ds : List Declaration) (clauses : ds.map .declares ⊆ p.clauses)
    (legible : (sectionTree ds).Legible) : Explained p (check (sectionTree ds)) := by
  have each : Explained p (checkAll andNothing (ds.map Declaration.tree)) := by
    induction ds with
    | nil => exact settles_pure trivial
    | cons d rest ih =>
      obtain ⟨first, others⟩ := forall_mem_append.mp legible
      obtain ⟨member, clauses⟩ := cons_subset.mp clauses
      exact (settles_declaration member first).bind fun _ _ => ih clauses others
  exact (each.whenPresent _).bind fun _ _ => settles_pure trivial

theorem settles_extra (extra : Option (List Declaration))
    (clauses : (extra.getD []).map .declares ⊆ p.clauses) (legible : (extraTree extra).Legible) :
    Explained p (check (extraTree extra)) := by
  cases extra with
  | none => exact settles_pure trivial
  | some ds => exact settles_section ds clauses legible

/-! ## Headings -/

theorem settles_passed (member : .passes τ ∈ p.clauses) (legible : τ.tree.Legible) :
    Settles p (check τ.tree) (Target p False) := by
  have rows : τ.hasRows = true → τ.isArray = true := by
    cases τ with
    | word s => exact id
    | array _ _ _ => exact fun _ => rfl
  refine (settles_clause member (Subset.refl _) rows legible).weaken fun v formed => ?_
  exact formed.target fun arrays => ⟨_, member, arrays⟩

theorem settles_parameters (qs : List Parameter)
    (clauses : qs.map (fun q => .passes q.type) ⊆ p.clauses)
    (legible : (Tree.list (qs.map Parameter.tree)).Legible) :
    Settles p (collectAll (qs.map Parameter.tree)) fun vs => ∀ v ∈ vs, IsPassed p v := by
  induction qs with
  | nil => exact settles_pure (forall_mem_nil _)
  | cons q rest ih =>
    obtain ⟨first, others⟩ := forall_mem_append.mp legible
    obtain ⟨member, clauses⟩ := cons_subset.mp clauses
    have own : Settles p (check q.tree) (IsPassed p) := by
      refine (settles_passed member (forall_mem_cons.mp first).2).bind fun v target => ?_
      refine (settles_newSymbol _ _ _ _ _ _).bind fun s made => settles_pure ?_
      exact ⟨s, q.name, rfl, made.1, made.2.1 ▸ target, made.2.2⟩
    exact own.bind fun v passed => (ih clauses others).bind fun vs all =>
      settles_pure (forall_mem_cons.mpr ⟨passed, all⟩)

structure IsRoutine (p : Program) (x : Option String) (s : Symbol) (params : List Value) :
    Prop where
  name : s.name = nameTree x
  type : Target p False s.type
  role : ∃ isFunction, s.role = .routine params isFunction
  passed : ∀ v ∈ params, IsPassed p v

theorem settles_declareRoutine (x : Option String) {params : List Value}
    (result : v = .absent ∨ Target p False v) (passed : ∀ v ∈ params, IsPassed p v) :
    Settles p (declareRoutine (nameTree x) v params) fun w =>
      ∃ s params, w = .symbol s ∧ IsRoutine p x s params := by
  have target : Target p False (if v.truthy then v else .named "PROCEDURE") := by
    split
    · rename_i present
      refine result.resolve_left fun absent => ?_
      rw [absent] at present
      cases present
    · exact .named (by simp)
  refine (settles_newSymbol _ _ _ _ _ _).bind fun s made => ?_
  obtain ⟨named, typed, role⟩ := made
  have type : Target p False s.type := typed ▸ target
  refine (settles_define (by rw [named, checkKey_name]) fun y _ =>
    described_routine type role passed y).bind fun _ _ => settles_pure ?_
  exact ⟨s, params, rfl, named, type, ⟨_, role⟩, passed⟩

section Routines

variable {y : Option String} {s : Symbol} {params : List Value} {block : Checking Unit}

theorem IsRoutine.paramsOf (h : IsRoutine p y s params) : paramsOf (.symbol s) = .ok params := by
  obtain ⟨isFunction, role⟩ := h.role
  simp only [Analysis.paramsOf, role]

theorem settles_defineAll (passed : ∀ v ∈ params, IsPassed p v) :
    Explained p (params.forM defineValue) := by
  refine settles_each fun v member => ?_
  obtain ⟨s, x, rfl, named, target, role⟩ := passed v member
  exact settles_define (by rw [named]; rfl) fun z _ => described_variable target role z

theorem settles_checkProcedure (h : IsRoutine p y s params)
    (inner : Explained p block) : Explained p (checkProcedure (.symbol s) block) := by
  rw [checkProcedure, h.paramsOf]
  exact ((settles_defineAll h.passed).bind fun _ _ => inner).inScope

theorem settles_checkFunction (h : IsRoutine p y s params)
    (inner : Explained p block) : Explained p (checkFunction (.symbol s) block) := by
  have look : Explained p (find? s.name) := by
    rw [Checking.find?, h.name, checkKey_name]
    exact fun _ known => ⟨known, trivial⟩
  have told : ∃ text, s.name.text = .ok text := by
    rw [h.name]
    exact exists_text_name y
  have ended (result : Symbol) : Explained p (checkGiven s.name result) := by
    have given : Explained p (isInitialized result) := fun _ known => ⟨known, trivial⟩
    exact given.bind fun _ _ => .ite
      ((settles_textOf told).bind fun _ _ => settles_report _) (settles_pure trivial)
  rw [checkFunction, h.paramsOf]
  refine ((settles_defineAll h.passed).bind fun _ _ => ?_).inScope
  refine (settles_newSymbol _ _ _ _ _ _).bind fun result made => ?_
  obtain ⟨named, typed, role⟩ := made
  refine (settles_define (by rw [named, h.name, checkKey_name]) fun z _ =>
    described_variable (typed ▸ h.type) role z).bind fun _ _ => ?_
  exact inner.bind fun _ _ => look.bind fun found _ => ended (found.getD result)

end Routines

mutual

theorem settles_block (b : Block) (legible : b.tree.Legible) (clauses : b.clauses ⊆ p.clauses) :
    Explained p (check b.tree) := by
  match b with
  | .make declarations routines body extra =>
    obtain ⟨legible, fourth⟩ := forall_mem_append.mp legible
    obtain ⟨legible, third⟩ := forall_mem_append.mp legible
    obtain ⟨first, second⟩ := forall_mem_append.mp legible
    obtain ⟨clauses, inBody⟩ := append_subset.mp clauses
    obtain ⟨clauses, inExtra⟩ := append_subset.mp clauses
    obtain ⟨declared, inRoutines⟩ := append_subset.mp clauses
    have routines := settles_routines routines second inRoutines
    have body : Explained p (check (bodyTree body)) :=
      (settles_statements body fourth inBody).bind fun _ _ => settles_pure trivial
    refine (Settles.inScope ?_).bind fun _ _ => settles_pure trivial
    exact ((settles_section declarations declared first).discard.whenPresent _).bind fun _ _ =>
      (routines.whenPresent _).bind fun _ _ =>
      ((settles_extra extra inExtra third).discard.whenPresent _).bind fun _ _ =>
      body.discard.whenPresent _

theorem settles_routine (r : Routine) (legible : r.tree.Legible)
    (clauses : r.clauses ⊆ p.clauses) : Explained p (check r.tree) := by
  match r with
  | .procedure name parameters block =>
    obtain ⟨heading, inner⟩ := forall_mem_append.mp legible
    obtain ⟨passed, clauses⟩ := append_subset.mp clauses
    rw [Routine.tree, check, check_procedureHeading]
    refine Settles.bind ((settles_checkNew "Procedure" (some name)).bind fun _ _ =>
      (settles_parameters parameters passed (forall_mem_cons.mp heading).2).bind
        fun params all => settles_declareRoutine (some name) (.inl rfl) all) fun v routine => ?_
    obtain ⟨s, params, rfl, routine⟩ := routine
    exact (settles_checkProcedure routine (settles_block block inner clauses).discard).bind
      fun _ _ => settles_pure trivial
  | .function name result parameters block =>
    obtain ⟨heading, inner⟩ := forall_mem_append.mp legible
    obtain ⟨own, clauses⟩ := cons_subset.mp clauses
    obtain ⟨passed, clauses⟩ := append_subset.mp clauses
    have parts : (Tree.list (parameters.map Parameter.tree)).Legible ∧ result.tree.Legible := by
      cases name with
      | none => exact forall_mem_append.mp heading
      | some x => exact forall_mem_append.mp (forall_mem_cons.mp heading).2
    rw [Routine.tree, check, check_functionHeading]
    refine Settles.bind ((settles_checkNew "Function" name).bind fun _ _ =>
      (settles_passed own parts.2).bind fun v target =>
      (settles_parameters parameters passed parts.1).bind fun params all =>
      settles_declareRoutine name (.inr target) all) fun v routine => ?_
    obtain ⟨s, params, rfl, routine⟩ := routine
    exact (settles_checkFunction routine (settles_block block inner clauses).discard).bind
      fun _ _ => settles_pure trivial

theorem settles_routines (rs : List Routine)
    (legible : (Tree.list (Routine.trees rs)).Legible)
    (clauses : Routine.allClauses rs ⊆ p.clauses) :
    Explained p (checkAll andNothing (Routine.trees rs)) := by
  match rs with
  | [] => exact settles_pure trivial
  | r :: rest =>
    obtain ⟨first, others⟩ := forall_mem_append.mp legible
    obtain ⟨left, right⟩ := append_subset.mp clauses
    exact (settles_routine r first left).bind fun _ _ => settles_routines rest others right

end

end Declarations

theorem settles_program (legible : p.tree.Legible) : Explained p (check p.tree) := by
  have header : Settles p (pure .absent) fun _ : Value => True := settles_pure trivial
  have block := settles_block p.block (forall_mem_cons.mp legible).2
    (Subset.refl p.clauses)
  exact header.discard.bind fun _ _ => block.discard.bind fun _ _ => settles_pure trivial

/-- The analysis of a source text gives a verdict, which refuses the text if there are errors, or
ends with a fault that the program explains: an array is a parameter, a result or an element, a call
is assigned to an array, or a bound is no finite number. -/
theorem analysis_reports_or_is_explained (line : Nat) (text : String) (tree : Tree)
    (parsed : (Pascal.parse line text).tree = .ok tree) (present : tree ≠ .none) :
    ∃ p : Program, p.tree = tree ∧
      ((∃ accepted a, (analyze tree).run {} = .ok accepted a ∧ (accepted = true ↔ a.errors = [])) ∨
        ∃ f a, (analyze tree).run {} = .error f a ∧ Explains p f) := by
  obtain ⟨p, rfl⟩ := exists_program_of_parsed parsed present
  refine ⟨p, rfl, ?_⟩
  have ended := settles_program (legible_of_parsed parsed present) { scope := standardScope }
    known_standardScope
  cases run : (check p.tree).run { scope := standardScope } with
  | ok v a =>
    obtain ⟨a', analyzed, errors⟩ := run_analyze_ok run
    exact .inl ⟨_, a', analyzed, by rw [errors]; exact isEmpty_iff⟩
  | error f a =>
    rw [run] at ended
    have opened : (analyze p.tree).run {} =
        (discard (check p.tree) >>= fun _ => summarize).run { scope := standardScope } := rfl
    refine .inr ⟨f, a, ?_, ended⟩
    rw [opened, EStateM.run_bind, run_discard_of_error run]

def fault? (t : Tree) : Option Fault :=
  match (analyze t).run {} with
  | .ok .. => none
  | .error f _ => some f

def arrayParameter : String :=
  "program p; procedure q(a: array[1..2] of integer); begin end; begin q(1) end."

def rowForArray : String :=
  "program p; var a: array[1..2] of integer; b: array[1..2] of array[1..2] of integer; " ++
    "begin a := b[1] end."

def callForArray : String :=
  "program p; var a: array[1..2] of integer; begin a := q(1) end."

/-- A text is parsed to a tree, and the analysis of the tree ends with a fault. -/
def EndsAnalysis (text : String) (f : Fault) : Prop :=
  ∃ tree, (Pascal.parse 1 text).tree = .ok tree ∧ tree ≠ .none ∧ fault? tree = some f

theorem endsAnalysis {text : String} {f : Fault}
    (h : ((parsed? text).any fun tree => fault? tree == some f) = true) : EndsAnalysis text f := by
  obtain ⟨tree, parsed, present, fault⟩ := exists_parsed h
  exact ⟨tree, parsed, present, beq_iff_eq.mp fault⟩

/-- Uses of arrays that are in error end the analysis and are not reported. -/
theorem misused_arrays_end_analysis :
    EndsAnalysis arrayParameter (.unhashable "list") ∧
      EndsAnalysis rowForArray (.noAttribute "tuple" "startswith") ∧
      EndsAnalysis callForArray (.noAttribute "NoneType" "startswith") :=
  ⟨endsAnalysis (by decide +kernel), endsAnalysis (by decide +kernel),
    endsAnalysis (by decide +kernel)⟩

def rowsReported : String :=
  "program p; var b: array[1..2] of array[1..2] of integer; s: string; " ++
    "begin s := 3; x := b[1] end."

theorem rowsReported_reports :
    ∃ tree, (Pascal.parse 1 rowsReported).tree = .ok tree ∧ tree ≠ .none ∧
      verdict? tree = some false ∧ ∃ p : Program, p.tree = tree ∧
        ((∃ accepted a, (analyze tree).run {} = .ok accepted a ∧
          (accepted = true ↔ a.errors = [])) ∨
          ∃ f a, (analyze tree).run {} = .error f a ∧ Explains p f) := by
  have found : ((parsed? rowsReported).any fun tree => verdict? tree == some false) = true := by
    decide +kernel
  obtain ⟨tree, parsed, present, refused⟩ := exists_parsed found
  exact ⟨tree, parsed, present, beq_iff_eq.mp refused,
    analysis_reports_or_is_explained 1 _ tree parsed present⟩

end PascalStack.Analysis
