import PascalStack.Proofs.Analysis.Agreement
import PascalStack.Proofs.Syntax.Safety

/-!
# Integers of accepted programs

The analyzer lets every number into an integer, also one that a division gives or that is written
with a fraction. But it lets nothing else in: if an accepted program keeps fractions away from
integers and limits, then no run of it ever gives anything but a whole number to an integer, or
finds another limit of a counted loop.
-/

namespace PascalStack.Analysis

open Checking Syntax Exec List

section Numbers

variable {v : Value} {op l r type : String} {τ : BaseType}

def isNumeric (type : Value) : Bool := type.isOneOf ["INTEGER", "REAL", "NUMBER"]

theorem isNumeric_of_isWhole (h : isWhole v = true) : isNumeric v = true := by
  obtain ⟨name, member, rfl⟩ := isOneOf_iff.mp h
  refine isOneOf_iff.mpr ⟨name, ?_, rfl⟩
  simp only [mem_cons, not_mem_nil, or_false] at member ⊢
  tauto

theorem isNumeric_of_compatible (h : compatible (.named "INTEGER") v = .ok true) :
    isNumeric v = true := by
  unfold compatible at h
  split at h
  · rename_i number
    have named := isNamed_iff.mp (Bool.and_eq_true_iff.mp number).1
    rw [named]
    decide
  · split at h
    · rename_i phrase
      exact absurd (Bool.and_eq_true_iff.mp phrase).2 (by decide)
    · change (checkValueKey v >>= fun _ => pure (v.isOneOf ["INTEGER", "REAL", "NUMBER"])) =
        Except.ok true at h
      cases key : checkValueKey v with
      | error f =>
        rw [key] at h
        cases h
      | ok _ =>
        rw [key] at h
        exact Except.ok.inj h

theorem integer_of_isNumeric (numeric : isNumeric (.named τ.name) = true) (other : τ ≠ .real) :
    τ = .integer := by
  cases τ with
  | integer => rfl
  | real => exact absurd rfl other
  | boolean | string => exact absurd numeric (by decide)

theorem integer_of_named (h : Value.named τ.name = .named "INTEGER") : τ = .integer := by
  injection h with tree
  injection tree with name
  cases τ with
  | integer => rfl
  | real | boolean | string => exact absurd name (by decide)

theorem operation_cases (h : (operatorTable op).lookup (l, r) = some type)
    (numeric : isNumeric (.named type) = true) :
    op = "/" ∨ op ∈ ["div", "mod"] ∨
      op ∈ ["+", "-", "*"] ∧ isNumeric (.named l) = true ∧ isNumeric (.named r) = true := by
  have all : (operatorTable op).all (fun entry => !isNumeric (.named entry.2) || op == "/" ||
      ["div", "mod"].contains op || ["+", "-", "*"].contains op &&
        isNumeric (.named entry.1.1) && isNumeric (.named entry.1.2)) = true := by
    unfold operatorTable
    split <;> rfl
  have entry := all_eq_true.mp all _ (mem_of_lookup h)
  simpa [numeric, or_assoc, and_assoc] using entry

theorem negation_cases {sign operand : String} (h : (unaryTable sign).lookup operand = some type)
    (numeric : isNumeric (.named type) = true) :
    sign = "-" ∧ isNumeric (.named operand) = true := by
  have all : (unaryTable sign).all (fun entry => !isNumeric (.named entry.2) ||
      sign == "-" && isNumeric (.named entry.1)) = true := by
    unfold unaryTable
    split <;> rfl
  have entry := all_eq_true.mp all _ (mem_of_lookup h)
  simpa [numeric] using entry

end Numbers

def Suit (τs : List (Option BaseType)) (vs : List Scalar) : Prop :=
  ∀ pair ∈ τs.zip vs, pair.1 = some .integer → pair.2.IsWhole

theorem suit_nil (τs : List (Option BaseType)) : Suit τs [] := by simp [Suit]

/-- A result is one of a routine: that of a function, and whole if the function is one of
integers. -/
def Gives (r : Routine) (result : Option Scalar) : Prop :=
  ∀ v ∈ result, ∃ τ, r.type = some τ ∧ (τ = .integer → v.IsWhole)

def InvokesSafely (invoke : Invoke) : Prop :=
  ∀ {ρ s x r known arguments}, Agrees ρ s → ρ.lookup x = some (.routine r known) →
    Suit r.signature.parameters arguments → Safe (invoke r known arguments) (Gives r)

/-- What is known of the value of an expression that passes: if it is a number and no fraction can
come into it, it is whole. -/
def Means (s : Scope) (Γ : Signatures) (e : Expression) (v : Scalar) : Prop :=
  ∀ type s', Passes (check e.tree) s type s' → isNumeric type = true → e.isFractional Γ = false →
    v.IsWhole

variable {l : Location} {ps : List Parameter} {params : List Value} {type : Value} {p : Program}

section Expressions

variable {c : Convention} {invoke : Invoke} {ρ known : Bindings} {s : Scope} {x f : String}
  {e : Expression} {arguments : List Expression} {v : Scalar} {values : List Scalar} {r : Routine}

theorem means_cell (agrees : Agrees ρ s) (found : ρ.lookup x = some (.cell l))
    (whole : l.type = .integer → v.IsWhole) : Means s ρ.signatures (.name x) v := by
  intro type s' passes numeric kept
  obtain ⟨symbol, view, rfl⟩ := passes_name passes
  obtain ⟨symbol', view', named, -⟩ := agrees.denotes found
  cases view.symm.trans view'
  rw [named] at numeric
  refine whole (integer_of_isNumeric numeric ?_)
  rw [Expression.isFractional, signatures_type found] at kept
  exact fun real => ne_of_beq_false kept (congrArg some real)

theorem means_result (agrees : Agrees ρ s) (found : ρ.lookup f = some (.routine r known))
    (fractional : e.isFractional ρ.signatures = (ρ.signatures.type f == some .real))
    (typed : ∀ type s', Passes (check e.tree) s type s' → isNumeric type = true →
      ∃ symbol, s.view f = some symbol ∧ type = symbol.type) {result : Option Scalar}
    (gives : Gives r result) (given : result = some v) : Means s ρ.signatures e v := by
  intro type s' passes numeric kept
  obtain ⟨τ, base, whole⟩ := gives v given
  obtain ⟨_, _, params, symbol, -, -, -, -, heading, view⟩ := agrees.denotes found
  obtain ⟨symbol', view', rfl⟩ := typed type s' passes numeric
  cases view.symm.trans view'
  rw [heading.type τ base] at numeric
  refine whole (integer_of_isNumeric numeric ?_)
  rw [fractional, signatures_type found] at kept
  exact fun real => ne_of_beq_false kept (base.trans (congrArg some real))

theorem safe_value (safely : InvokesSafely invoke) (agrees : Agrees ρ s) (x : String) :
    Safe (ρ.value invoke x) fun v =>
      (ρ.lookup x).isSome = true ∧ Means s ρ.signatures (.name x) v := by
  unfold Bindings.value
  cases found : ρ.lookup x with
  | none => exact safe_throw _
  | some d =>
    cases d with
    | cell l => exact (safe_fetch l).weaken fun v whole => ⟨rfl, means_cell agrees found whole⟩
    | routine r known =>
      refine (safely agrees found (suit_nil _)).bind fun result gives => ?_
      refine safe_demand fun v given => ?_
      refine ⟨rfl, means_result agrees found rfl (fun type s' passes _ => ?_) gives given⟩
      exact passes_name passes

theorem safe_mention (safely : InvokesSafely invoke) (agrees : Agrees ρ s) (x : String) :
    Steady (ρ.mention invoke x) := by
  unfold Bindings.mention
  cases found : ρ.lookup x with
  | none => exact safe_pure trivial
  | some d =>
    cases d with
    | cell l => exact safe_pure trivial
    | routine r known => exact (safely agrees found (suit_nil _)).discard

theorem suit_arguments {s₀ : Scope} {Γ : Signatures}
    (declared : Forall₂ (IsParameter s₀) ps params)
    (takes : Forall₂ (Takes s) params arguments)
    (means : Forall₂ (Means s Γ) arguments values)
    (suits : Expression.allSuit Γ (ps.map fun p => p.type.base?) arguments = true) :
    Suit (ps.map fun p => p.type.base?) values := by
  induction declared generalizing arguments values with
  | nil => simp [Suit]
  | @cons p param ps params first _ ih =>
    obtain _ | ⟨taken, takes⟩ := takes
    obtain _ | ⟨meant, means⟩ := means
    rw [map_cons, Expression.allSuit, zip_cons_cons, all_cons, Bool.and_eq_true]
      at suits
    rw [map_cons, Suit, zip_cons_cons, forall_mem_cons]
    refine ⟨fun base => ?_, ih takes means suits.2⟩
    have integer : p.type.base? = some .integer := base
    obtain ⟨symbol, rfl, typed, -, -⟩ := first
    obtain ⟨wanted, type, named, passes, fits⟩ := taken
    cases named
    rw [passes_base typed integer] at fits
    refine meant type s passes (isNumeric_of_compatible fits) ?_
    simpa [Expression.suits, integer] using suits.1

theorem safe_call (safely : InvokesSafely invoke) (agrees : Agrees ρ s) {s' : Scope}
    (passes : Passes (check (Expression.call f arguments).tree) s type s')
    (suits : Expression.allSuit ρ.signatures (ρ.signatures.parameters f) arguments = true)
    (means : Forall₂ (Means s ρ.signatures) arguments values) :
    Safe (ρ.call invoke f values) fun result =>
      ∀ v, result = some v → Means s ρ.signatures (.call f arguments) v := by
  unfold Bindings.call
  cases found : ρ.lookup f with
  | none => exact safe_throw _
  | some d =>
    cases d with
    | cell l => exact safe_throw _
    | routine r known =>
      by_cases own : isInputOutput f = true
      · simp only [own, if_true]
        exact safe_throw _
      simp only [own]
      obtain ⟨_, s₀, params, symbol, -, -, -, -, heading, view⟩ := agrees.denotes found
      obtain ⟨isFunction, role⟩ := heading.role
      have callee_eq : callee s f = some symbol := by rw [callee, view, Option.some_or]
      obtain ⟨symbol', wanted, _, known', role', -, ways⟩ := passes_call passes
      cases callee_eq.symm.trans known'
      cases role.symm.trans role'
      rcases ways with ⟨standard, -⟩ | ⟨-, takes⟩
      · exact absurd standard own
      have parameters : ρ.signatures.parameters f = r.signature.parameters := by
        rw [Signatures.parameters, ρ.signatures_apply, found]
        rfl
      rw [parameters] at suits
      refine (safely agrees found (suit_arguments heading.parameters takes means suits)).weaken ?_
      intro result gives v given
      refine means_result agrees found rfl (fun type s' passes numeric => ?_) gives given
      obtain ⟨symbol'', _, isFunction', known'', role'', rfl, -⟩ := passes_call passes
      cases callee_eq.symm.trans known''
      refine ⟨symbol, view, ?_⟩
      rw [resultType, role''] at numeric ⊢
      cases isFunction' with
      | true => rfl
      | false => exact absurd numeric Bool.false_ne_true

mutual

theorem safe_compute (safely : InvokesSafely invoke) (agrees : Agrees ρ s) (e : Expression)
    (checked : ∃ type, Passes (check e.tree) s type s)
    (keeps : e.keepsWhole ρ.signatures = true) :
    Safe (e.compute c invoke ρ) (Means s ρ.signatures e) := by
  obtain ⟨type, passes⟩ := checked
  match e with
  | .literal l =>
    refine safe_pure fun type s' passes numeric kept => ?_
    rw [passes_literal passes] at numeric
    cases l with
    | integer n => exact ⟨n, rfl⟩
    | decimal q => cases kept
    | truth b | verdict b | phrase t => exact absurd numeric Bool.false_ne_true
  | .name x => exact (safe_value safely agrees x).weaken fun _ both => both.2
  | .element x index =>
    obtain ⟨_, type, -, indexed, -⟩ := passes_element passes
    refine (safe_compute safely agrees index ⟨type, indexed⟩ keeps).bind fun i _ => ?_
    refine (safe_value safely agrees x).bind fun w both => safe_demand fun v _ => ?_
    intro type' s' passes' numeric _
    obtain ⟨d, found⟩ := Option.isSome_iff_exists.mp both.1
    obtain ⟨symbol, _, view, -, -, role⟩ := passes_element passes'
    rcases role with ⟨dimensions, array⟩ | rfl
    · exact absurd array (agrees.not_array found view _ _)
    · exact absurd numeric (by decide)
  | .call f arguments =>
    rw [Expression.keepsWhole, Bool.and_eq_true] at keeps
    obtain ⟨_, -, checked⟩ := passes_arguments passes
    refine (safe_computeAll safely agrees arguments checked keeps.1).bind fun values means => ?_
    refine (safe_call safely agrees passes keeps.2 means).bind fun result given => ?_
    exact safe_demand given
  | .length operand =>
    obtain ⟨measured, -⟩ := passes_length passes
    refine (safe_compute safely agrees operand ⟨_, measured⟩ keeps).bind fun w _ => ?_
    refine Safe.bind (P := fun _ => True) (safe_demand fun _ _ => trivial) fun t _ => safe_pure ?_
    intro _ _ _ _ _
    exact ⟨t.length, congrArg Scalar.number (Rat.intCast_natCast _).symm⟩
  | .negation sign operand =>
    obtain ⟨_, _, negated, -⟩ := passes_negation passes
    refine (safe_compute safely agrees operand ⟨_, negated⟩ keeps).bind fun w means => ?_
    refine safe_demand fun v given type' s' passes' numeric kept => ?_
    obtain ⟨operandType, result, negated', table, rfl⟩ := passes_negation passes'
    obtain ⟨rfl, number⟩ := negation_cases table numeric
    exact (means _ _ negated' number kept).negate given
  | .operation left sign right =>
    rw [Expression.keepsWhole, Bool.and_eq_true] at keeps
    obtain ⟨_, _, _, first, second, -⟩ := passes_operation passes
    refine (safe_compute safely agrees left ⟨_, first⟩ keeps.1).bind fun a means => ?_
    refine (safe_compute safely agrees right ⟨_, second⟩ keeps.2).bind fun b means' => ?_
    refine safe_demand fun v given type' s' passes' numeric kept => ?_
    obtain ⟨_, _, _, first', second', table, rfl⟩ := passes_operation passes'
    rw [Expression.isFractional, Bool.or_eq_false_iff] at kept
    rcases operation_cases table numeric with rfl | whole | ⟨arithmetic, number, number'⟩
    · cases kept.1
    · exact Scalar.isWhole_of_apply whole given
    · rw [contains_iff_mem.mpr arithmetic, Bool.true_and, Bool.or_eq_false_iff] at kept
      exact (means _ _ first' number kept.2.1).apply arithmetic
        (means' _ _ second' number' kept.2.2) given

theorem safe_computeAll (safely : InvokesSafely invoke) (agrees : Agrees ρ s) (es : List Expression)
    (checked : ∀ e ∈ es, ∃ type, Passes (check e.tree) s type s)
    (keeps : Expression.allKeepWhole ρ.signatures es = true) :
    Safe (Expression.computeAll c invoke ρ es) (Forall₂ (Means s ρ.signatures) es) := by
  match es with
  | [] => exact safe_pure .nil
  | e :: rest =>
    rw [forall_mem_cons] at checked
    rw [Expression.allKeepWhole, Bool.and_eq_true] at keeps
    refine (safe_compute safely agrees e checked.1 keeps.1).bind fun v first => ?_
    refine (safe_computeAll safely agrees rest checked.2 keeps.2).bind fun vs others => ?_
    exact safe_pure (.cons first others)

end

theorem safe_of_not_hasCall (safely : InvokesSafely invoke) (agrees : Agrees ρ s) (e : Expression)
    (plain : e.hasCall = false) : Steady (e.compute c invoke ρ) := by
  have named (x : String) : Steady (ρ.value invoke x) :=
    (safe_value safely agrees x).weaken fun _ _ => trivial
  match e with
  | .literal l => exact safe_pure trivial
  | .name x => exact named x
  | .element x index =>
    refine (safe_of_not_hasCall safely agrees index plain).bind fun _ _ => ?_
    exact (named x).bind fun _ _ => safe_demand fun _ _ => trivial
  | .call .. => cases plain
  | .length operand =>
    refine (safe_of_not_hasCall safely agrees operand plain).bind fun _ _ => ?_
    exact Safe.bind (P := fun _ => True) (safe_demand fun _ _ => trivial) fun _ _ =>
      safe_pure trivial
  | .negation sign operand =>
    refine (safe_of_not_hasCall safely agrees operand plain).bind fun _ _ => ?_
    exact safe_demand fun _ _ => trivial
  | .operation left sign right =>
    rw [Expression.hasCall, Bool.or_eq_false_iff] at plain
    refine (safe_of_not_hasCall safely agrees left plain.1).bind fun _ _ => ?_
    refine (safe_of_not_hasCall safely agrees right plain.2).bind fun _ _ => ?_
    exact safe_demand fun _ _ => trivial

end Expressions

/-! ## Statements -/

section Statements

variable {c : Convention} {invoke : Invoke} {ρ : Bindings} {s : Scope} {x : String} {l : Location}
  {e : Expression} {body : Exec Outcome}

theorem lookup_of_place? (found : ρ.place? x = some l) : ρ.lookup x = some (.cell l) := by
  unfold Bindings.place? at found
  split at found
  · rename_i known
    cases found
    exact known
  · cases found

theorem whole_of_given (agrees : Agrees ρ s) (found : ρ.lookup x = some (.cell l)) {v : Scalar}
    (passes : ∃ symbol type, s.view x = some symbol ∧ Passes (check e.tree) s type s ∧
      compatible symbol.type type = .ok true)
    (suits : e.suits ρ.signatures (ρ.signatures.type x) = true)
    (means : Means s ρ.signatures e v) (integer : l.type = .integer) : v.IsWhole := by
  obtain ⟨symbol, type, view, passes, fits⟩ := passes
  obtain ⟨symbol', view', named, -⟩ := agrees.denotes found
  cases view.symm.trans view'
  rw [named, integer] at fits
  refine means type s passes (isNumeric_of_compatible fits) ?_
  rw [signatures_type found] at suits
  change (some l.type != some .integer || !e.isFractional ρ.signatures) = true at suits
  simpa [integer] using suits

theorem safe_assignment (safely : InvokesSafely invoke) (agrees : Agrees ρ s) (a : Assignment)
    (checked : ∃ v, Passes (check a.tree) s v s) (keeps : a.keepsWhole ρ.signatures = true) :
    Steady (a.perform c invoke ρ) := by
  obtain ⟨_, passes⟩ := checked
  match a with
  | ⟨.name x, value⟩ =>
    rw [Assignment.keepsWhole, Bool.and_eq_true] at keeps
    obtain ⟨_, type, -, typed, -⟩ := passes_assign passes
    refine (safe_compute safely agrees value ⟨type, typed⟩ keeps.1).bind fun v means => ?_
    refine Safe.bind (safe_demand fun l found => lookup_of_place? found) fun l found => ?_
    exact safe_give (whole_of_given agrees found (passes_assign passes) keeps.2 means)
  | ⟨.element x index, value⟩ =>
    rw [Assignment.keepsWhole, Bool.and_eq_true, Bool.not_eq_true', Bool.not_eq_true'] at keeps
    refine (safe_of_not_hasCall safely agrees index keeps.1).bind fun i _ => ?_
    refine (safe_of_not_hasCall safely agrees value keeps.2).bind fun v _ => ?_
    refine Safe.bind (P := fun _ => True) (safe_demand fun _ _ => trivial) fun l _ => ?_
    refine (safe_fetch l).bind fun w whole => ?_
    -- what has characters is a text, so it is not in an integer
    refine Safe.bind (P := fun _ => l.type ≠ .integer) (safe_demand fun u changed integer => ?_)
      fun u other => safe_give fun integer => absurd integer other
    rw [Scalar.withCharacter?, (whole integer).text?] at changed
    cases changed

theorem safe_test (safely : InvokesSafely invoke) (agrees : Agrees ρ s)
    (checked : ∃ type, Passes (check e.tree) s type s) (keeps : e.keepsWhole ρ.signatures = true) :
    Steady (e.test c invoke ρ) :=
  (safe_compute safely agrees e checked keeps).bind fun _ _ => safe_demand fun _ _ => trivial

theorem safe_findLimit (safely : InvokesSafely invoke) (agrees : Agrees ρ s)
    (checked : ∃ type, Passes (check e.tree) s type s ∧ isWhole type = true)
    (keeps : e.keepsWhole ρ.signatures = true) (kept : e.isFractional ρ.signatures = false) :
    Steady (e.findLimit c invoke ρ) := by
  obtain ⟨type, passes, whole⟩ := checked
  refine (safe_compute safely agrees e ⟨type, passes⟩ keeps).bind fun v means => ?_
  refine (safe_record (e := .limited v) ?_).bind fun _ _ => safe_demand fun _ _ => trivial
  exact means type s passes (isNumeric_of_isWhole whole) kept

theorem safe_forLoop (safely : InvokesSafely invoke) (agrees : Agrees ρ s) (fuel : Nat)
    (start : Assignment) (direction : String) (limit : Expression)
    (started : ∃ v, Passes (check start.tree) s v s)
    (control : Passes (checkControl start.tree) s () s)
    (limited : Steady (limit.findLimit c invoke ρ))
    (keeps : start.keepsWhole ρ.signatures = true) (inside : Steady body) :
    Steady (forLoop c invoke fuel ρ start direction limit body) := by
  match start with
  | ⟨.name x, value⟩ =>
    rw [Assignment.keepsWhole, Bool.and_eq_true] at keeps
    obtain ⟨_, passes⟩ := started
    obtain ⟨symbol, type, view, typed, -⟩ := passes_assign passes
    refine (safe_compute safely agrees value ⟨type, typed⟩ keeps.1).bind fun v means => ?_
    refine Safe.bind (safe_demand fun l found => lookup_of_place? found) fun l found => ?_
    refine Safe.bind (P := fun _ => True) (safe_demand fun _ _ => trivial) fun step _ => ?_
    have integer : l.type = .integer := by
      obtain ⟨symbol', view', named, -⟩ := agrees.denotes found
      cases view.symm.trans view'
      exact integer_of_named (named.symm.trans (passes_control control view))
    have given := safe_give (x := x)
      (whole_of_given agrees found (passes_assign passes) keeps.2 means)
    cases c.limit with
    | once =>
      refine limited.bind fun n _ => given.bind fun _ _ => ?_
      exact safe_countedLoop fuel step integer (safe_pure trivial) inside
    | always => exact given.bind fun _ _ => safe_countedLoop fuel step integer limited inside
  | ⟨.element x index, value⟩ =>
    have assigned := safe_assignment (c := c) safely agrees ⟨.element x index, value⟩ started keeps
    exact assigned.bind fun _ _ => limited.discard.bind fun _ _ => safe_throw _

mutual

theorem safe_statement (safely : InvokesSafely invoke) (agrees : Agrees ρ s) (fuel : Nat)
    (item : Statement) (checked : item.isPresent = true → ∃ v, Passes (check item.tree) s v s)
    (keeps : item.keepsWhole ρ.signatures = true) :
    Steady (item.perform c invoke fuel ρ) := by
  match item with
  | .empty | .absent | .breakLoop | .continueLoop => exact safe_pure trivial
  | .compound items =>
    obtain ⟨_, passes⟩ := checked rfl
    exact safe_statements safely agrees fuel items (passes_compound passes) keeps
  | .assign a =>
    exact (safe_assignment safely agrees a (checked rfl) keeps).bind fun _ _ => safe_pure trivial
  | .conditional condition yes no =>
    rw [Statement.keepsWhole, Bool.and_eq_true, Bool.and_eq_true] at keeps
    obtain ⟨_, passes⟩ := checked rfl
    obtain ⟨tested, first, second⟩ := passes_conditional passes
    refine (safe_test safely agrees ⟨_, tested⟩ keeps.1.1).bind fun _ _ => Safe.ite ?_ ?_
    · exact safe_statement safely agrees fuel yes (fun _ => first) keeps.1.2
    · exact safe_statement safely agrees fuel no second keeps.2
  | .whileDo condition body =>
    rw [Statement.keepsWhole, Bool.and_eq_true] at keeps
    obtain ⟨_, passes⟩ := checked rfl
    obtain ⟨tested, inside⟩ := passes_while passes
    have rounds := safe_statement safely agrees fuel body (fun _ => inside) keeps.2
    exact (safe_whileLoop fuel (safe_test safely agrees ⟨_, tested⟩ keeps.1) rounds).bind
      fun _ _ => safe_pure trivial
  | .repeatUntil body condition =>
    rw [Statement.keepsWhole, Bool.and_eq_true] at keeps
    obtain ⟨_, passes⟩ := checked rfl
    obtain ⟨tested, inside⟩ := passes_repeat passes
    have rounds := safe_statement safely agrees fuel body (fun _ => inside) keeps.2
    exact (safe_repeatLoop fuel (safe_test safely agrees ⟨_, tested⟩ keeps.1) rounds).bind
      fun _ _ => safe_pure trivial
  | .forDo start direction limit body =>
    rw [Statement.keepsWhole, Bool.and_eq_true, Bool.and_eq_true, Bool.and_eq_true,
      Bool.not_eq_true'] at keeps
    obtain ⟨⟨⟨startKeeps, limitKeeps⟩, kept⟩, bodyKeeps⟩ := keeps
    obtain ⟨_, passes⟩ := checked rfl
    obtain ⟨started, control, limited, inside⟩ := passes_for passes
    have rounds := safe_statement safely agrees fuel body (fun _ => inside) bodyKeeps
    exact (safe_forLoop safely agrees fuel start direction limit started control
      (safe_findLimit safely agrees limited limitKeeps kept) startKeeps rounds).bind
        fun _ _ => safe_pure trivial
  | .call f arguments =>
    rw [Statement.keepsWhole, Bool.and_eq_true] at keeps
    obtain ⟨_, passes⟩ := checked rfl
    obtain ⟨_, -, each⟩ := passes_arguments passes
    refine (safe_computeAll safely agrees arguments each keeps.1).bind fun values means => ?_
    exact (safe_call safely agrees passes keeps.2 means).discard.bind fun _ _ => safe_pure trivial
  | .mention x =>
    exact (safe_mention safely agrees x).bind fun _ _ => safe_pure trivial
  | .writeln arguments =>
    obtain ⟨_, passes⟩ := checked rfl
    refine (safe_computeAll safely agrees arguments (passes_writeln passes) keeps).bind ?_
    intro values _
    exact (safe_record (e := .wrote values) trivial).bind fun _ _ => safe_pure trivial
  | .readln targets =>
    refine (safe_each fun target _ => ?_).bind fun _ _ => safe_pure trivial
    cases target with
    | element x index => exact safe_throw _
    | name x =>
      refine Safe.bind (P := fun _ => True) (safe_demand fun _ _ => trivial) fun l _ => ?_
      exact (safe_receive l.type).bind fun v whole => safe_give whole

theorem safe_statements (safely : InvokesSafely invoke) (agrees : Agrees ρ s) (fuel : Nat)
    (items : List Statement) (checked : ∀ item ∈ items, ∃ v, Passes (check item.tree) s v s)
    (keeps : Statement.allKeepWhole ρ.signatures items = true) :
    Steady (Statement.performAll c invoke fuel ρ items) := by
  match items with
  | [] => exact safe_pure trivial
  | item :: rest =>
    rw [forall_mem_cons] at checked
    rw [Statement.allKeepWhole, Bool.and_eq_true] at keeps
    refine (safe_statement safely agrees fuel item (fun _ => checked.1) keeps.1).bind fun o _ => ?_
    cases o with
    | normal => exact safe_statements safely agrees fuel rest checked.2 keeps.2
    | broken | continued => exact safe_pure trivial

end

end Statements

/-! ## Declarations -/

section Declarations

variable {c : Convention} {invoke : Invoke} {ρ : Bindings} {s s' s₀ : Scope} {u : Unit}

theorem safe_declareNames {τ : BaseType} {names : List String} {symbols : List Symbol}
    (typed : type = .named τ.name) (all : Forall₂ (IsVariable · type ·) names symbols)
    (agrees : Agrees ρ s) :
    Safe (ρ.declareNames τ (names.map Variable.name)) fun ρ' => Agrees ρ' (s.defineAll symbols) ∧
      ρ'.signatures = ρ.signatures.declareNames (some τ) (names.map Variable.name) := by
  induction all generalizing ρ s with
  | nil => exact safe_pure ⟨agrees, rfl⟩
  | cons first _ ih =>
    refine (safe_allocate τ).bind fun l place => ?_
    subst place
    obtain ⟨type, role⟩ := first.scalar _ typed
    exact ih (agrees.cell first.name (type.trans typed) role)

theorem safe_declare (ds : List Declaration) (agrees : Agrees ρ s)
    (passes : Passes (checkAll andNothing (ds.map Declaration.tree)) s u s') :
    Safe (ρ.declare ds) fun ρ' => Agrees ρ' s' ∧ ρ'.signatures = ρ.signatures.declare ds := by
  induction ds generalizing ρ s with
  | nil =>
    obtain ⟨-, rfl⟩ := passes_pure passes
    exact safe_pure ⟨agrees, rfl⟩
  | cons d rest ih =>
    obtain ⟨_, middle, first, others⟩ := passes_declarations_cons passes
    obtain ⟨type, names, symbols, typed, declared, all, rfl⟩ := passes_declaration first
    refine Safe.bind (safe_demand fun τ base => base) fun τ base => ?_
    rw [declared]
    refine (safe_declareNames (passes_base typed base) all agrees).bind fun ρ₁ ⟨known, same⟩ => ?_
    refine (ih known others).weaken fun ρ' ⟨agrees', same'⟩ => ⟨agrees', same'.trans ?_⟩
    rw [same, ← base, ← declared]
    rfl

theorem agrees_routines (rs : List Routine) (agrees : Agrees ρ s)
    (passes : Passes (checkAll andNothing (Routine.trees rs)) s u s')
    (keeps : Routine.allKeepWhole ρ.signatures rs = true) :
    Agrees (ρ.routines rs) s' ∧
      (ρ.routines rs).signatures = rs.foldl Signatures.routine ρ.signatures := by
  induction rs generalizing ρ s with
  | nil =>
    obtain ⟨-, rfl⟩ := passes_pure passes
    exact ⟨agrees, rfl⟩
  | cons r rest ih =>
    rw [Routine.allKeepWhole, Bool.and_eq_true] at keeps
    obtain ⟨_, middle, first, others⟩ := passes_routines_cons passes
    exact ih (agrees.routine first keeps.1) others keeps.2

theorem safe_pass {values : List Scalar} (declared : Forall₂ (IsParameter s₀) ps params)
    (suit : Suit (ps.map fun p => p.type.base?) values) (agrees : Agrees ρ s) :
    Safe (ρ.pass ps values) fun ρ' =>
      Agrees ρ' (s.defineAll (symbolsOf params)) ∧ ρ'.signatures = ρ.signatures.pass ps := by
  induction declared generalizing ρ s values with
  | nil =>
    cases values with
    | nil => exact safe_pure ⟨agrees, rfl⟩
    | cons v vs => exact safe_throw _
  | @cons p param ps params first _ ih =>
    cases values with
    | nil => exact safe_throw _
    | cons v vs =>
      rw [map_cons, Suit, zip_cons_cons, forall_mem_cons] at suit
      obtain ⟨symbol, rfl, typed, name, role⟩ := first
      refine Safe.bind (safe_demand fun τ base => base) fun τ base => ?_
      refine (safe_allocate τ).bind fun l place => ?_
      subst place
      have given := safe_give (x := p.name) fun integer =>
        suit.1 (base.trans (congrArg some integer))
      refine given.bind fun _ _ => ?_
      refine (ih suit.2 (agrees.cell name (passes_base typed base) role)).weaken ?_
      intro ρ' ⟨agrees', same⟩
      refine ⟨agrees', same.trans ?_⟩
      rw [Bindings.signatures, ← base]
      rfl

theorem agrees_result {x : Option String} {result : Symbol} (agrees : Agrees ρ s)
    (name : result.name = nameTree x) (type : result.type = .named l.type.name)
    (role : result.role = .variable) :
    Agrees (ρ.result l x) (s.define result) ∧
      (ρ.result l x).signatures = ρ.signatures.result (some l.type) x := by
  cases x with
  | some x => exact ⟨agrees.cell name type role, rfl⟩
  | none =>
    refine ⟨agrees.seen (Scope.view_define_unnamed fun y => ?_), rfl⟩
    rw [name]
    nofun

end Declarations

section Programs

variable {c : Convention} {invoke : Invoke} {ρ : Bindings} {s : Scope}

theorem safe_block (safely : InvokesSafely invoke) (agrees : Agrees ρ s) (fuel : Nat) (b : Block)
    (checked : ∃ v s', Passes (check b.tree) s v s') (keeps : b.keepsWhole ρ.signatures = true) :
    Steady (b.perform c invoke fuel ρ) := by
  obtain ⟨declarations, routines, body, extra⟩ := b
  rw [Block.keepsWhole, Bool.and_eq_true] at keeps
  obtain ⟨_, _, passes⟩ := checked
  obtain ⟨s₁, s₂, s₃, first, second, third, items, -⟩ := passes_parts passes
  refine (safe_declare declarations (agrees.seen (Scope.view_enter s)) first).bind ?_
  intro ρ₁ ⟨agrees₁, same₁⟩
  rw [← same₁] at keeps
  obtain ⟨agrees₂, same₂⟩ := agrees_routines routines agrees₁ second keeps.1
  refine (safe_declare (extra.getD []) agrees₂ third).bind fun ρ₃ ⟨agrees₃, same₃⟩ => ?_
  rw [← same₂, ← same₃] at keeps
  exact (safe_statements safely agrees₃ fuel body items keeps.2).discard

theorem invokesSafely (c : Convention) (fuel : Nat) : InvokesSafely (invokeWith c fuel) := by
  induction fuel with
  | zero => exact fun _ _ _ => safe_throw _
  | succ fuel ih =>
    intro ρ s x r known arguments agrees found suit
    obtain ⟨outer, s₀, _, _, rfl, around, ⟨v, s₁, passes⟩, keeps, -, -⟩ := agrees.denotes found
    have itself : Agrees (.routine r outer) s₁ := around.routine passes keeps
    cases r with
    | procedure x ps b =>
      obtain ⟨symbol, params, -, -, declared, ⟨_, body⟩, rfl⟩ :=
        passes_procedure passes
      refine (safe_pass declared suit (itself.seen (Scope.view_enter _))).bind ?_
      intro ρ₁ ⟨agrees₁, same⟩
      refine (safe_block ih agrees₁ fuel b ⟨_, _, body⟩ ?_).bind fun _ _ => safe_pure nofun
      rw [same]
      exact keeps
    | function x τ ps b =>
      obtain ⟨symbol, params, result, -, -, typed, declared, name, type, role, ⟨_, body⟩, rfl⟩ :=
        passes_function passes
      refine (safe_pass declared suit (itself.seen (Scope.view_enter _))).bind ?_
      intro ρ₁ ⟨agrees₁, same⟩
      refine Safe.bind (safe_demand fun υ base => base) fun υ base => ?_
      refine (safe_allocate υ).bind fun l place => ?_
      subst place
      obtain ⟨agrees₂, same'⟩ :=
        agrees_result agrees₁ name (type.trans (passes_base typed base)) role
      refine (safe_block ih agrees₂ fuel b ⟨_, _, body⟩ ?_).bind fun _ _ => ?_
      · rw [same', same, ← base]
        exact keeps
      · refine (safe_fetch l).bind fun v whole => safe_pure ?_
        rintro _ ⟨⟩
        exact ⟨l.type, base, whole⟩

theorem sound_start (input : List Scalar) : Machine.Sound { input := input } := ⟨nofun, nofun⟩

theorem sound_perform (accepted : verdict? p.tree = some true) (keeps : p.keepsWhole = true)
    (c : Convention) (fuel : Nat) (input : List Scalar) : (p.perform c fuel input).Sound := by
  obtain ⟨_, s, passes⟩ := passes_of_accepted accepted
  obtain ⟨v, block⟩ := passes_program passes
  have safe := safe_block (c := c) (invokesSafely c fuel) (.empty standardScope) fuel p.block
    ⟨v, s, block⟩ keeps
  have ended := safe _ (sound_start input)
  unfold Program.perform
  split
  all_goals
    rename_i run
    rw [run] at ended
  · exact ended.1
  · exact ended

/-- If no fraction can come into integers and limits, then in every run of an accepted program
integers are given whole numbers only, and the limits of counted loops are whole. -/
theorem accepted_program_keeps_integers_whole {p : Program} (accepted : verdict? p.tree = some true)
    (keeps : p.keepsWhole = true) (c : Convention) (fuel : Nat) (input : List Scalar) :
    (∀ x v, .gave x .integer v ∈ (p.perform c fuel input).events → v.IsWhole) ∧
      ∀ v, .limited v ∈ (p.perform c fuel input).events → v.IsWhole := by
  have sound := sound_perform accepted keeps c fuel input
  exact ⟨fun x v member => sound.events _ member rfl, fun v member => sound.events _ member⟩

end Programs

def countsToSquare : Program :=
  ⟨"p", .make [⟨[.name "n", .name "i"], .word "integer"⟩, ⟨[.name "h"], .word "real"⟩]
    [.function (some "square") (.word "integer") [⟨"k", .word "integer"⟩]
      (.make [] [] [.assign ⟨.name "square", .operation (.name "k") "*" (.name "k")⟩] none)]
    [.readln [.name "n"], .assign ⟨.name "h", .operation (.name "n") "/" (.literal (.integer 4))⟩,
      .forDo ⟨.name "i", .literal (.integer 3)⟩ "to" (.call "square" [.name "n"])
        (.assign ⟨.name "n", .operation (.name "n") "+" (.operation (.name "i") "div"
          (.literal (.integer 2)))⟩), .writeln [.name "n", .name "h"]] none⟩

def halving : Convention := ⟨.once, fun _ => 1 / 2⟩

theorem countsToSquare_keeps_integers_whole :
    verdict? countsToSquare.tree = some true ∧ countsToSquare.keepsWhole = true ∧
      (countsToSquare.perform halving 4 [.number 2]).events =
        [.gave "n" .integer (.number 2), .gave "h" .real (.number (1 / 2)),
          .gave "k" .integer (.number 2), .gave "square" .integer (.number 4),
          .limited (.number 4), .gave "i" .integer (.number 3), .gave "n" .integer (.number 3),
          .gave "i" .integer (.number 4), .gave "n" .integer (.number 5),
          .gave "i" .integer (.number 5), .wrote [.number 5, .number (1 / 2)]] ∧
      (∀ x v, .gave x .integer v ∈ (countsToSquare.perform halving 4 [.number 2]).events →
        v.IsWhole) ∧
      ∀ v, .limited v ∈ (countsToSquare.perform halving 4 [.number 2]).events → v.IsWhole := by
  have accepted : verdict? countsToSquare.tree = some true := by decide +kernel
  have keeps : countsToSquare.keepsWhole = true := by decide +kernel
  exact ⟨accepted, keeps, by decide +kernel,
    accepted_program_keeps_integers_whole accepted keeps halving 4 [.number 2]⟩

def halvesSeven : Program :=
  ⟨"p", .make [⟨[.name "x"], .word "integer"⟩] []
    [.assign ⟨.name "x", .operation (.literal (.integer 7)) "/" (.literal (.integer 2))⟩] none⟩

/-- Whether a tree is that of `halvesSeven`. -/
def isHalvesSeven : Tree → Bool
  | .program (.header (.str p)) (.block (.varDeclarationPart (.list
      [.varDeclaration (.list [.identifier (.str x)]) (.type (.str word))])) (.list [])
      (.statementPart (.statementSequence [.assignment (.identifier (.str target)) (.binaryOp
        (.literal (.int a) (.str tag)) (.str sign) (.literal (.int b) (.str tag')))])) .none) =>
    [p, x, word, target, tag, sign, tag'] == ["p", "x", "integer", "x", "NUMBER", "/", "NUMBER"]
      && a == 7 && b == 2
  | _ => false

theorem eq_of_isHalvesSeven {t : Tree} (h : isHalvesSeven t = true) : t = halvesSeven.tree := by
  unfold isHalvesSeven at h
  split at h
  · simp only [Bool.and_eq_true, beq_iff_eq, cons.injEq, and_true] at h
    obtain ⟨⟨⟨rfl, rfl, rfl, rfl, rfl, rfl, rfl⟩, rfl⟩, rfl⟩ := h
    rfl
  · cases h

def countsToFraction : Program :=
  ⟨"p", .make [⟨[.name "i"], .word "integer"⟩] []
    [.forDo ⟨.name "i", .literal (.integer 1)⟩ "to" (.literal (.decimal 0.5)) .empty] none⟩

/-- Two programs are accepted; one gives a fraction to an integer, the other counts to one. -/
theorem fractions_accepted :
    (Pascal.parse 1 "program p; var x: integer; begin x := 7 / 2 end.").tree =
        .ok halvesSeven.tree ∧
      verdict? halvesSeven.tree = some true ∧
      .gave "x" .integer (.number (7 / 2)) ∈ (halvesSeven.perform halving 1 []).events ∧
      ¬ (Scalar.number (7 / 2)).IsWhole ∧
      verdict? countsToFraction.tree = some true ∧
      .limited (.number (1 / 2)) ∈ (countsToFraction.perform halving 1 []).events ∧
      ¬ (Scalar.number (1 / 2)).IsWhole := by
  have fraction {q : Rat} (h : q.den ≠ 1) : ¬ (Scalar.number q).IsWhole := by
    rintro ⟨n, same⟩
    rw [Scalar.number.inj same] at h
    exact h rfl
  have found : ((parsed? "program p; var x: integer; begin x := 7 / 2 end.").any
      isHalvesSeven) = true := by decide +kernel
  obtain ⟨tree, parsed, -, same⟩ := exists_parsed found
  rw [eq_of_isHalvesSeven same] at parsed
  exact ⟨parsed, by decide +kernel, by decide +kernel, fraction (by decide +kernel),
    by decide +kernel, by decide +kernel, fraction (by decide +kernel)⟩

end PascalStack.Analysis
