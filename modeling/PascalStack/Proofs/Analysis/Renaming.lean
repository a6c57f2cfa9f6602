import PascalStack.Proofs.Analysis.Programs
import PascalStack.Proofs.Analysis.Tracking

/-!
# Checks of programs with other names

The check of a tree with other names tracks the check of the tree. Each step of a check is tracked by
the same step on what is renamed; a step that asks for a standard routine by its name asks the same
after a renaming, which leaves these names alone.
-/

namespace PascalStack.Analysis

open Checking List

variable {τ : Translation} {n : Nat}

variable {element type result : Value} {params : List Value} {block block' : Checking Unit}
  {a b : Analyzer} {target : Symbol} {standard : List Symbol}
  {each each' : List Value → Checking Unit} {first first' : Checking Value}

section Declarations

variable {v w : Value}

theorem tracks_checkNew (what : String) (name : Tree) :
    Tracks τ n Same (checkNew what name) (checkNew what (τ.key name)) := by
  refine (tracks_findHere? name).next fun found found' same => ?_
  rw [same]
  exact .ite Iff.rfl (tracks_complaint (told_key name) (.redeclared what) fun _ => rfl) (tracks_same _)

theorem tracks_newArray (name : Tree) {dimensions : Value} (first : valueBelow n element)
    (second : valueBelow n dimensions) :
    Tracks τ n (SymbolTracks τ) (newArray name element dimensions)
      (newArray (τ.key name) (translateValue τ element) (translateValue τ dimensions)) := by
  rw [newArray, newArray, orEmpty_translate]
  exact tracks_newSymbol name (valueBelow_plain _) _ _ _ (R := .array element dimensions.orEmpty)
    ⟨first, valueBelow_orEmpty second⟩

theorem tracks_newVariable (name : Tree) (typed : valueBelow n type) (initialized : Bool) :
    Tracks τ n (fun k s s' => s' = translateSymbol τ s ∧ symbolBelow k s ∧ s.name = name)
      (newVariable name type initialized)
      (newVariable (τ.key name) (translateValue τ type) initialized) := by
  intro a a' level le
  cases tracks_newSymbol name typed (.bool initialized) (.bool false) .none (R := .variable)
    trivial a a' level le with
  | ok values level' grows => exact .ok ⟨values.1, values.2, rfl⟩ level' grows

theorem tracks_declareAs (below : valueBelow n type) (name : Tree) :
    Tracks τ n Same (declareAs type name) (declareAs (translateValue τ type) (τ.key name)) := by
  have defined {k : Nat} (s s' : Symbol) (h : SymbolTracks τ k s s') :
      Tracks τ k Same (define s) (define s') := by
    rw [h.1]
    exact tracks_define h.2
  rw [declareAs, declareAs, text?_translate, tupleItems?_translate]
  cases text? type with
  | some x =>
    exact (tracks_newVariable name below false).bind
      fun _ _ s s' h => defined s s' ⟨h.1, h.2.1⟩
  | none =>
    cases items : type.tupleItems? with
    | none => exact tracks_same _
    | some values =>
      have parts : valuesBelow n values := valuesBelow_tupleItems? below items
      cases values with
      | nil => exact tracks_throw _
      | cons kind rest =>
        simp only [Option.map_some, translateValues, isNamed_translate]
        refine .ite Iff.rfl ?_ (tracks_same _)
        rcases rest with _ | ⟨element, _ | ⟨dimensions, _⟩⟩
        · exact tracks_throw _
        · exact tracks_throw _
        · exact (tracks_newArray name parts.2.1 parts.2.2.1).bind fun _ _ s s' h => defined s s' h

theorem tracks_declareName (below : valueBelow n type) (t : Tree) :
    Tracks τ n Same (declareName type t)
      (declareName (translateValue τ type) (τ.tree t)) := by
  cases t with
  | identifier name =>
    exact (tracks_checkNew "Variable" name).then fun _ => tracks_declareAs below name
  | arrayId name index => exact tracks_complaint (told_key name) .indexedDeclaration fun _ => rfl
  | _ => exact tracks_same _

theorem tracks_namedType (word : Tree) :
    Tracks τ n (ValueTracks τ) (namedType word) (namedType (word.mapText τ.names.word)) := by
  cases word with
  | str s =>
    have told : Told τ s (τ.names.word s) := fun kept => by rw [kept]; rfl
    simp only [Tree.mapText, namedType, τ.names.words]
    exact .ite Iff.rfl (tracks_plain _)
      ((tracks_report .unknownType (.cons told .nil) rfl rfl).then fun _ => tracks_plain _)
  | _ => exact tracks_throw _

theorem isWhole_translate (v : Value) : isWhole (translateValue τ v) = isWhole v :=
  isOneOf_translate v _

theorem tracks_boundOf (value : Tree) :
    Tracks τ n Same (boundOf value)
      (boundOf ((τ.tree value).mapText τ.names.phrase)) := by
  rw [boundOf, boundOf, Tree.number?_mapText, Tree.number?_respell]
  cases value.number? with
  | none => exact tracks_same _
  | some x => exact tracks_sameExcept _

theorem tracks_checkOrder (a b : Int) :
    Tracks τ n (ValueTracks τ) (checkOrder a b) (checkOrder a b) :=
  .ite Iff.rfl ((tracks_sameExcept _).then fun _ => (tracks_sameExcept _).then fun _ =>
    (tracks_report (.range _ _) .nil rfl rfl).then fun _ => tracks_absent) (tracks_plain _)

theorem tracks_checkBounds (first last : Tree) (firstBelow : valueBelow n v)
    (lastBelow : valueBelow n w) :
    Tracks τ n (ValueTracks τ) (checkBounds first last v w)
      (checkBounds (τ.tree first) (τ.tree last) (translateValue τ v)
        (translateValue τ w)) := by
  unfold checkBounds
  rw [isWhole_translate, isWhole_translate]
  refine .ite Iff.rfl ?_ ?_
  · exact (tracks_showing firstBelow).next fun _ _ shown =>
      (tracks_showing lastBelow).next fun _ _ shown' =>
        (tracks_report .rangeType (.cons shown (.cons shown' .nil)) rfl rfl).then fun _ => tracks_absent
  · cases first with
    | literal a type =>
      cases last with
      | literal b type' =>
        exact (tracks_boundOf a).then fun _ => (tracks_boundOf b).then fun _ =>
          tracks_checkOrder _ _
      | _ => exact tracks_plain _
    | _ => exact tracks_plain _

theorem tracks_paramsOf (below : valueBelow n v) :
    Tracks τ n (ValuesTrack τ) (ofExcept (paramsOf v))
      (ofExcept (paramsOf (translateValue τ v))) := by
  rw [paramsOf_translate]
  apply tracks_ofExcept
  cases found : paramsOf v with
  | error f => exact rfl
  | ok params =>
    exact fun _ le => ⟨rfl, valuesBelow_mono le params (valuesBelow_paramsOf below found)⟩

theorem tracks_defineAll {vs : List Value} (below : valuesBelow n vs) :
    Tracks τ n Same (vs.forM defineValue) ((translateValues τ vs).forM defineValue) := by
  induction vs with
  | nil => exact tracks_same _
  | cons v rest ih => exact (tracks_defineValue below.1).then fun _ => ih below.2

theorem tracks_newRoutine (name : Tree) (paramsBelow : valuesBelow n params)
    (resultBelow : valueBelow n result) :
    Tracks τ n (SymbolTracks τ) (newRoutine name params result)
      (newRoutine (τ.key name) (translateValues τ params) (translateValue τ result)) := by
  have type : (if (translateValue τ result).truthy then translateValue τ result
      else .named "PROCEDURE") =
        translateValue τ (if result.truthy then result else .named "PROCEDURE") := by
    rw [truthy_translate]
    split <;> rfl
  have typed : valueBelow n (if result.truthy then result else .named "PROCEDURE") := by
    split
    · exact resultBelow
    · trivial
  rw [newRoutine, newRoutine, type, isAbsent_translate]
  exact tracks_newSymbol name typed _ _ _ (R := .routine params !result.isAbsent) paramsBelow

theorem tracks_declareRoutine (name : Tree) (paramsBelow : valuesBelow n params)
    (resultBelow : valueBelow n result) :
    Tracks τ n (ValueTracks τ) (declareRoutine name result params)
      (declareRoutine (τ.key name) (translateValue τ result) (translateValues τ params)) := by
  refine (tracks_newRoutine name paramsBelow resultBelow).bind fun l le s s' h => ?_
  obtain ⟨rfl, below⟩ := h
  exact (tracks_define below).then fun _ => tracks_value (v := .symbol s) below

theorem tracks_checkProcedure (below : valueBelow n v) (h : Tracks τ n Same block block') :
    Tracks τ n Same (checkProcedure v block) (checkProcedure (translateValue τ v) block') := by
  refine Tracks.inScope ((tracks_paramsOf below).bind fun l le params params' values => ?_)
  rw [values.1]
  exact (tracks_defineAll values.2).then fun _ => h.later le

theorem tracks_checkGiven (name : Tree) {s : Symbol} (below : symbolBelow n s) :
    Tracks τ n Same (checkGiven name s) (checkGiven (τ.key name) (translateSymbol τ s)) :=
  (tracks_isInitialized below).then fun _ =>
    .ite Iff.rfl (tracks_complaint (told_key name) .noResult fun _ => rfl) (tracks_same _)

theorem find?_of_run {name : Tree} {a b : Analyzer} {found : Option Symbol}
    (run : (find? name).run a = .ok found b) : a.scope.find? name = found ∧ a = b := by
  unfold Checking.find? at run
  obtain ⟨_, _, keyed, looked⟩ := run_bind_ok run
  obtain ⟨-, rfl⟩ := run_ofExcept_ok_iff.mp keyed
  cases looked
  exact ⟨rfl, rfl⟩

theorem tracks_result {result : Symbol} (below : symbolBelow n result)
    (h : Tracks τ n Same block block') :
    Tracks τ n Same
      (do
        define result
        block
        let found ← find? result.name
        checkGiven result.name (found.getD result))
      (do
        define (translateSymbol τ result)
        block'
        let found ← find? (τ.key result.name)
        checkGiven (τ.key result.name) (found.getD (translateSymbol τ result))) := by
  intro a a' level le
  refine (tracks_define below).run_bind level le fun b b' _ _ run _ level₁ grows₁ => ?_
  have owned : Owns b.scope result.name := by
    obtain ⟨_, c, -, defined⟩ := run_bind_ok run
    cases defined
    exact owns_define (symbolBelow_iff.mp below).1
  refine (h.later (le.trans grows₁.next)).run_bind level₁ le_rfl
    fun c c' _ _ _ _ level₂ grows₂ => ?_
  refine (tracks_find? result.name).run_bind level₂ (Nat.le_refl _)
    fun _ d' found found' looked values level₃ _ => ?_
  obtain ⟨here, rfl⟩ := find?_of_run looked
  have own : symbolBelow c.nextId (found.getD result) := by
    cases found with
    | none => exact symbolBelow_mono (le.trans (grows₁.next.trans grows₂.next)) result below
    | some s => exact level₃.below.owned (grows₂.owns _ owned) here
  have translated : found'.getD (translateSymbol τ result) =
      translateSymbol τ (found.getD result) := by
    rw [values.1]
    cases found <;> rfl
  rw [translated]
  exact tracks_checkGiven result.name own c d' level₃ le_rfl

theorem tracks_checkFunction (below : valueBelow n v) (h : Tracks τ n Same block block') :
    Tracks τ n Same (checkFunction v block) (checkFunction (translateValue τ v) block') := by
  refine Tracks.inScope ((tracks_paramsOf below).bind fun l le params params' values => ?_)
  rw [values.1]
  refine (tracks_defineAll values.2).then fun _ => ?_
  cases v with
  | symbol s =>
    have typed : valueBelow l s.type :=
      valueBelow_mono le s.type (symbolBelow_iff.mp below).2.2.1
    simp only [translateValue, translateSymbol_name, translateSymbol_type]
    refine (tracks_newVariable s.name typed false).bind fun k le' result result' made => ?_
    obtain ⟨rfl, own, named⟩ := made
    rw [← named]
    exact tracks_result own (h.later (le.trans le'))
  | _ => exact tracks_same _

end Declarations

/-! ## Names -/

section Names

variable {index index' : Checking Value}

theorem tracks_checkName (name : Tree) :
    Tracks τ n (ValueTracks τ) (checkName name) (checkName (τ.key name)) := by
  refine (tracks_find? name).found ?_ fun l le s known => ?_
  · exact tracks_refusal (told_key name) .noIdentifier (fun _ _ => ⟨rfl, trivial⟩) fun _ => rfl
  · simp only [translateSymbol_type]
    exact tracks_value known.typed.1

theorem tracks_checkIndex (what : String) (h : Tracks τ n (ValueTracks τ) index index') :
    Tracks τ n Same (checkIndex what index) (checkIndex what index') := by
  refine h.value fun l le v below => ?_
  rw [isWhole_translate]
  exact tracks_test below (.index what) fun _ => rfl

theorem tracks_checkElement (name : Tree) (h : Tracks τ n (ValueTracks τ) index index') :
    Tracks τ n (ValueTracks τ) (checkElement name index) (checkElement (τ.key name) index') := by
  refine (tracks_find? name).found ?_ fun l le s known => ?_
  · exact tracks_refusal (told_key name) .noArray (fun _ _ => ⟨rfl, trivial⟩) fun _ => rfl
  · have typed := known.typed
    simp only [translateSymbol_role, translateSymbol_type, isNamed_translate]
    cases role : s.role with
    | array element dimensions =>
      rw [role] at typed
      exact (tracks_checkIndex "Array" (h.later le)).then fun _ => tracks_value typed.2.1
    | _ =>
      exact .ite Iff.rfl ((tracks_checkIndex "String" (h.later le)).then fun _ => tracks_plain _)
        (tracks_refusal (told_key name) .notIndexed (fun _ _ => ⟨rfl, trivial⟩) fun _ => rfl)

end Names

section Statements

variable {v w : Value} {element element' check check' : Checking Value}

theorem tracks_compatible (v w : Value) :
    Tracks τ n Same (ofExcept (compatible v w))
      (ofExcept (compatible (translateValue τ v) (translateValue τ w))) := by
  rw [compatible_translate]
  exact tracks_sameExcept _

def TypeTracks (τ : Translation) (n : Nat) (type type' : Option Value) : Prop :=
  type' = type.map (translateValue τ) ∧ ∀ v, type = some v → valueBelow n v

theorem tracks_calledType? (t : Tree) :
    Tracks τ n (TypeTracks τ) (calledType? t) (calledType? (τ.tree t)) := by
  have nothing {k : Nat} : Tracks τ k (TypeTracks τ) (pure none) (pure none) :=
    tracks_pure fun _ _ => ⟨rfl, by simp⟩
  cases t with
  | procedureCall name params =>
    rw [Translation.tree, Tree.respell, routine_key]
    refine (tracks_find? name).found nothing fun l le s known => ?_
    have typed := known.typed.1
    simp only [translateSymbol_role, translateSymbol_type]
    cases s.role with
    | routine params isFunction =>
      cases isFunction with
      | false => exact nothing
      | true =>
        refine tracks_pure fun k le' => ⟨rfl, ?_⟩
        rintro _ ⟨⟩
        exact valueBelow_mono le' _ typed
    | _ => exact nothing
  | _ => exact nothing

theorem tracks_giveTo (known : symbolKnown n target) (below : valueBelow n v) :
    Tracks τ n Same (giveTo target v) (giveTo (translateSymbol τ target) (translateValue τ v)) := by
  rw [giveTo, giveTo, translateSymbol_type]
  exact (tracks_compatible _ _).then fun _ =>
    .ite Iff.rfl (tracks_assign known) (tracks_mismatch below known.typed.1 .assignment fun _ _ => rfl)

theorem tracks_giveFound (known : symbolKnown n target) (value : Tree) (below : valueBelow n v) :
    Tracks τ n Same (giveFound target value v)
      (giveFound (translateSymbol τ target) (τ.tree value) (translateValue τ v)) := by
  rw [giveFound, giveFound, isAbsent_translate]
  refine .ite Iff.rfl ?_ (tracks_giveTo known below)
  refine (tracks_calledType? value).bind fun l le type type' h => ?_
  have later : symbolKnown l target := known.imp_left (symbolBelow_mono le target)
  obtain ⟨rfl, own⟩ := h
  cases type with
  | none => exact tracks_giveTo later (valueBelow_mono le v below)
  | some w => exact tracks_giveTo later (own w rfl)

theorem tracks_assignVariable (name value : Tree) (h : Tracks τ n (ValueTracks τ) check check') :
    Tracks τ n Same (assignVariable name value check)
      (assignVariable (τ.key name) (τ.tree value) check') := by
  refine (tracks_find? name).found ?_ fun l le s known => ?_
  · exact tracks_complaint (told_key name) .noVariable fun _ => rfl
  · simp only [translateSymbol_constant]
    refine .ite Iff.rfl (tracks_complaint (told_key name) .constant fun _ => rfl) ?_
    refine (h.later le).value fun k le' v below => ?_
    exact tracks_giveFound (known.imp_left (symbolBelow_mono le' s)) value below

theorem tracks_assignElement (first : Tracks τ n (ValueTracks τ) element element')
    (second : Tracks τ n (ValueTracks τ) check check') :
    Tracks τ n Same (assignElement element check) (assignElement element' check') := by
  refine first.value fun l le v below => (second.later le).value fun k le' w below' => ?_
  have below := valueBelow_mono le' v below
  exact (tracks_compatible v w).then fun _ =>
    .ite Iff.rfl (tracks_mismatch below' below .element fun _ _ => rfl) (tracks_same _)

theorem tracks_checkAssignment (target value : Tree)
    (first : Tracks τ n (ValueTracks τ) element element')
    (second : Tracks τ n (ValueTracks τ) check check') :
    Tracks τ n Same (checkAssignment target value element check)
      (checkAssignment (τ.tree target) (τ.tree value) element' check') := by
  have refused := tracks_complaint (n := n) (told_respell (τ := τ) target) .target fun _ => rfl
  cases target with
  | identifier name => exact tracks_assignVariable name value second
  | arrayId name index => exact tracks_assignElement first second
  | _ => exact refused

theorem tracks_checkCondition (what : String) (below : valueBelow n v) :
    Tracks τ n Same (checkCondition what v) (checkCondition what (translateValue τ v)) := by
  rw [checkCondition, checkCondition, isNamed_translate]
  exact tracks_test below (.condition what) fun _ => rfl

theorem tracks_checkControl (t : Tree) :
    Tracks τ n Same (checkControl t) (checkControl (τ.tree t)) := by
  cases t with
  | assignment target value =>
    cases target with
    | identifier name =>
      refine (tracks_find? name).found (tracks_same _) fun l le s known => ?_
      simp only [translateSymbol_type, isNamed_translate]
      exact tracks_test known.typed.1 .control fun _ => rfl
    | _ => exact tracks_same _
  | _ => exact tracks_same _

theorem tracks_checkLimit (below : valueBelow n v) :
    Tracks τ n Same (checkLimit v) (checkLimit (translateValue τ v)) := by
  rw [checkLimit, checkLimit, isWhole_translate]
  exact tracks_test below .limit fun _ => rfl

theorem tracks_checkJump (what : String) : Tracks τ n Same (checkJump what) (checkJump what) := by
  intro a a' level le
  have opened (a : Analyzer) : (checkJump what).run a = EStateM.run (if a.loopLevel == 0 then
      report s!"{what} statement must be inside a loop" else pure ()) a := rfl
  have reported : Tracks τ n Same (report s!"{what} statement must be inside a loop")
      (report s!"{what} statement must be inside a loop") := tracks_report (.jump what) .nil rfl rfl
  rw [opened, opened, level.loops]
  exact Tracks.ite Iff.rfl reported (tracks_same _) a a' level le

theorem tracks_checkCase (first : valueBelow n v) (second : valueBelow n w) :
    Tracks τ n Same (checkCase v w) (checkCase (translateValue τ v) (translateValue τ w)) :=
  (tracks_compatible v w).then fun _ =>
    .ite Iff.rfl (tracks_mismatch first second .option fun _ _ => rfl) (tracks_same _)

theorem tracks_refuseTarget (t : Tree) :
    Tracks τ n Same (refuseTarget t) (refuseTarget (τ.tree t)) :=
  tracks_complaint (told_respell t) .readTarget fun _ => rfl

theorem tracks_checkTarget (target : Tree) (h : Tracks τ n (ValueTracks τ) element element') :
    Tracks τ n Same (checkTarget target element)
      (checkTarget (τ.tree target) element') := by
  have refused := tracks_refuseTarget (τ := τ) (n := n) target
  have readable (v : Value) : isReadable (translateValue τ v) = isReadable v :=
    isOneOf_translate v _
  cases target with
  | identifier name =>
    refine (tracks_find? name).found ?_ fun l le s known => ?_
    · exact tracks_complaint (told_key name) .noVariable fun _ => rfl
    · simp only [translateSymbol_type, readable]
      exact .ite Iff.rfl (tracks_assign known) (tracks_objection known.typed.1 .readVariable fun _ => rfl)
  | arrayId name index =>
    refine h.value fun l le v below => ?_
    rw [readable]
    exact tracks_test below .readElement fun _ => rfl
  | _ => exact refused

end Statements

/-! ## Calls -/

section Calls

variable {v w : Value}

theorem find?_standard (all : ∀ s ∈ standard, s ∈ standardSymbols) (name : Tree) :
    standard.find? (fun s => Tree.same s.name (τ.key name)) =
      (standard.find? fun s => Tree.same s.name name).map (translateSymbol τ) := by
  induction standard with
  | nil => rfl
  | cons s rest ih =>
    rw [forall_mem_cons] at all
    have kept : translateSymbol τ s = s := translate_standard all.1
    have same : Tree.same s.name (τ.key name) = Tree.same s.name name := by
      rw [← same_key (τ := τ) s.name name, ← translateSymbol_name, kept]
    rw [find?_cons, find?_cons, same, ih all.2]
    cases Tree.same s.name name with
    | true => exact congrArg some kept.symm
    | false => rfl

theorem tracks_callee? (all : ∀ s ∈ standard, s ∈ standardSymbols) (name : Tree) :
    Tracks τ n (FoundTracks τ) (callee? standard name) (callee? standard (τ.key name)) := by
  refine (tracks_find? name).found ?_ fun l le s known => ?_
  · refine tracks_pure fun k le => ⟨find?_standard all name, fun s found => .inr ?_⟩
    exact all s (mem_of_find?_eq_some found)
  · refine tracks_pure fun k le' => ⟨rfl, ?_⟩
    rintro _ ⟨⟩
    exact known.imp_left (symbolBelow_mono le' s)

def SmallAlike (small small' : String) : Prop :=
  small' = small ∨ small ∉ standardNames ∧ small' ∉ standardNames

theorem SmallAlike.mem_iff {small small' : String} (h : SmallAlike small small')
    {names : List String} (known : ∀ x ∈ names, x ∈ standardNames) :
    small' ∈ names ↔ small ∈ names := by
  rcases h with rfl | ⟨other, other'⟩
  · exact Iff.rfl
  · exact iff_of_false (fun h => other' (known _ h)) fun h => other (known _ h)

theorem tracks_lowered (name : Tree) :
    Tracks τ n (fun _ => SmallAlike) (ofExcept (lowered name)) (ofExcept (lowered (τ.key name))) := by
  apply tracks_ofExcept
  cases name with
  | str x =>
    intro _ _
    by_cases standard : Text.lower x ∈ standardNames
    · exact .inl (congrArg Text.lower (τ.names.standard x standard))
    · exact .inr ⟨standard, τ.names.other x standard⟩
  | _ => exact rfl

theorem tracks_readArgument (t : Tree) :
    Tracks τ n Same (readArgument t) (readArgument (τ.tree t)) := by
  have refused := tracks_refuseTarget (τ := τ) (n := n) t
  cases t with
  | identifier name =>
    exact (tracks_find? name).found (tracks_same _) fun l le s known => tracks_assign known
  | arrayId name index => exact tracks_same _
  | _ => exact refused

def AfterTracks (τ : Translation) (after : Tree → Value → Checking Unit) : Prop :=
  ∀ (n : Nat) (t : Tree) (v : Value), valueBelow n v →
    Tracks τ n Same (after t v) (after (τ.tree t) (translateValue τ v))

theorem tracks_andNothing : AfterTracks τ andNothing := fun _ _ _ _ => tracks_same _

theorem tracks_afterArgument (routine : String) : AfterTracks τ (afterArgument routine) :=
  fun _ t _ _ => .ite Iff.rfl (tracks_readArgument t) (tracks_same _)

theorem tracks_paramType (below : valueBelow n v) :
    Tracks τ n (ValueTracks τ) (ofExcept (paramType v))
      (ofExcept (paramType (translateValue τ v))) := by
  rw [paramType_translate]
  apply tracks_ofExcept
  cases found : paramType v with
  | error f => exact rfl
  | ok type => exact fun _ le => ⟨rfl, valueBelow_mono le type (valueBelow_paramType below found)⟩

theorem tracks_checkArgument (what : String) (name : Tree) (position : Nat)
    (paramBelow : valueBelow n v) (foundBelow : valueBelow n w) :
    Tracks τ n Same (checkArgument what name position v w)
      (checkArgument what (τ.key name) position (translateValue τ v) (translateValue τ w)) := by
  refine (tracks_paramType paramBelow).value fun l le wanted below => ?_
  have later := valueBelow_mono le w foundBelow
  refine (tracks_compatible wanted w).then fun _ => .ite Iff.rfl ?_ (tracks_same _)
  exact (tracks_textOf (told_key name)).next fun _ _ first =>
    (tracks_showing below).next fun _ _ second => (tracks_showing later).next fun _ _ third =>
      tracks_report (.argument position what) (.cons first (.cons second (.cons third .nil))) rfl rfl

theorem tracks_checkArguments (title : String) (name params : Tree) (wanted : List Value)
    {each each' : Checking Unit} (h : Tracks τ n Same each each') :
    Tracks τ n Same (checkArguments title name params wanted each)
      (checkArguments title (τ.key name) (τ.tree params) (translateValues τ wanted)
        each') := by
  have length : (translateValues τ wanted).length = wanted.length := by
    rw [translateValues_eq_map, length_map]
  rw [checkArguments, checkArguments, Tree.length_respell, length]
  refine (tracks_sameExcept _).then fun count => .ite Iff.rfl (h.then fun _ => tracks_same _) ?_
  refine (tracks_textOf (told_key name)).next fun _ _ shown => ?_
  exact (tracks_report (.arguments title wanted.length count) (.cons shown .nil) rfl rfl).then
    fun _ => tracks_same _

theorem tracks_checkCall (name params : Tree) {standard standard' : String → Checking Unit}
    {each each' : List Value → Checking Unit}
    (h : ∀ routine, Tracks τ n Same (standard routine) (standard' routine))
    (h' : ∀ l wanted, n ≤ l → valuesBelow l wanted →
      Tracks τ l Same (each wanted) (each' (translateValues τ wanted))) :
    Tracks τ n (ValueTracks τ) (checkCall name params standard each)
      (checkCall (τ.key name) (τ.tree params) standard' each') := by
  refine (tracks_callee? (fun _ => mem_append_left _) name).found ?_ fun l le s known => ?_
  · exact tracks_refusal (told_key name) .noProcedure (fun _ _ => ⟨rfl, trivial⟩) fun _ => rfl
  · have typed := known.typed
    have result : Tracks τ l (ValueTracks τ) (pure (resultType s))
        (pure (resultType (translateSymbol τ s))) := by
      rw [resultType_translate]
      refine tracks_value ?_
      rw [resultType]
      split
      · exact typed.1
      · trivial
    simp only [translateSymbol_role]
    cases role : s.role with
    | routine wanted isFunction =>
      rw [role] at typed
      refine (tracks_lowered name).next fun small small' alike => ?_
      have same : small ∈ ["writeln", "write", "readln", "read"] ↔
          small' ∈ ["writeln", "write", "readln", "read"] :=
        (alike.mem_iff (by decide)).symm
      by_cases standard : small ∈ ["writeln", "write", "readln", "read"]
      · obtain rfl : small' = small := by
          rcases alike with equal | ⟨other, -⟩
          · exact equal
          · exact absurd (mem_append_left ["length"] standard) other
        rw [if_pos (contains_iff_mem.mpr standard), if_pos (contains_iff_mem.mpr standard)]
        exact ((h small').later le).then fun _ => result
      · rw [if_neg fun c => standard (contains_iff_mem.mp c),
          if_neg fun c => standard (same.mpr (contains_iff_mem.mp c))]
        exact (tracks_checkArguments "Procedure" name params wanted (h' l wanted le typed.2)).then
          fun _ => .ite Iff.rfl result tracks_absent
    | _ => exact tracks_refusal (told_key name) .notCallable (fun _ _ => ⟨rfl, trivial⟩) fun _ => rfl

theorem tracks_checkLength (params : Tree) (h : Tracks τ n (ValueTracks τ) first first') :
    Tracks τ n Same (checkLength params first)
      (checkLength (τ.tree params) first') := by
  rw [checkLength, checkLength, Tree.length_respell]
  refine (tracks_sameExcept _).then fun _ => .ite Iff.rfl ?_ ?_
  · refine h.value fun l le v below => ?_
    rw [isNamed_translate]
    exact tracks_test below .lengthArgument fun _ => rfl
  · exact tracks_report (.lengthArguments _) .nil rfl rfl

theorem tracks_checkFunctionCall (name params : Tree) {first first' : Checking Value}
    {each each' : List Value → Checking Unit} (h : Tracks τ n (ValueTracks τ) first first')
    (h' : ∀ l wanted, n ≤ l → valuesBelow l wanted →
      Tracks τ l Same (each wanted) (each' (translateValues τ wanted))) :
    Tracks τ n (ValueTracks τ) (checkFunctionCall name params first each)
      (checkFunctionCall (τ.key name) (τ.tree params) first' each') := by
  refine (tracks_callee? (fun _ => mem_append_right _) name).found ?_ fun l le s known => ?_
  · exact tracks_refusal (told_key name) .noFunction (fun _ _ => ⟨rfl, trivial⟩) fun _ => rfl
  · have typed := known.typed
    simp only [translateSymbol_role, translateSymbol_type]
    cases role : s.role with
    | routine wanted isFunction =>
      rw [role] at typed
      cases isFunction with
      | false =>
        exact tracks_refusal (told_key name) .notFunction (fun _ _ => ⟨rfl, trivial⟩) fun _ => rfl
      | true =>
        refine (tracks_lowered name).next fun small small' alike => ?_
        have same : (small == "length") = true ↔ (small' == "length") = true := by
          rw [beq_iff_eq, beq_iff_eq, ← mem_singleton, ← mem_singleton]
          exact (alike.mem_iff (by decide)).symm
        refine .ite same ?_ ?_
        · exact (tracks_checkLength params (h.later le)).then fun _ => tracks_plain _
        · exact (tracks_checkArguments "Function" name params wanted
            (h' l wanted le typed.2)).discard.then fun _ => tracks_value typed.1
    | _ => exact tracks_refusal (told_key name) .notFunction (fun _ _ => ⟨rfl, trivial⟩) fun _ => rfl

end Calls

/-! ## Expressions -/

section Expressions

variable {v w : Value}

theorem tracks_checkOperation (operator : Tree) (left : valueBelow n v) (right : valueBelow n w) :
    Tracks τ n (ValueTracks τ) (checkOperation operator v w)
      (checkOperation (operator.mapText τ.names.operator) (translateValue τ v)
        (translateValue τ w)) := by
  have told : EndsTold τ operator.text (operator.mapText τ.names.operator).text :=
    told_mapText (fun kept => by rw [kept]) operator
  rw [checkOperation, checkOperation, operationType?_translate]
  refine (tracks_sameExcept _).then fun found => ?_
  cases found with
  | some type => exact tracks_plain _
  | none =>
    exact (tracks_showing left).next fun _ _ first => (tracks_showing right).next fun _ _ second =>
      (tracks_textOf told).next fun _ _ third =>
        (tracks_report .operands (.cons first (.cons second (.cons third .nil))) rfl rfl).then
          fun _ => tracks_plain _

theorem tracks_checkUnary (operator : Tree) (below : valueBelow n v) :
    Tracks τ n (ValueTracks τ) (checkUnary operator v)
      (checkUnary operator (translateValue τ v)) := by
  rw [checkUnary, checkUnary, unaryType?_translate]
  refine (tracks_sameExcept _).then fun found => ?_
  cases found with
  | some type => exact tracks_plain _
  | none =>
    exact (tracks_showing below).next fun _ _ shown =>
      (tracks_textOf (told_refl _)).next fun _ _ sign =>
        (tracks_report .operand (.cons shown (.cons sign .nil)) rfl rfl).then fun _ =>
          tracks_plain _

theorem tracks_checkMeasured (below : valueBelow n v) :
    Tracks τ n Same (checkMeasured v) (checkMeasured (translateValue τ v)) := by
  rw [checkMeasured, checkMeasured, isNamed_translate]
  exact tracks_test below .length fun _ => rfl

end Expressions

section Items

theorem tracks_whenPresent (t : Tree) {c c' : Checking Unit} (h : Tracks τ n Same c c') :
    Tracks τ n Same (whenPresent t c) (whenPresent (τ.tree t) c') := by
  rw [whenPresent, whenPresent, Tree.truthy_respell]
  exact .ite Iff.rfl h (tracks_same _)

theorem tracks_items (t : Tree) :
    Tracks τ n (fun _ xs xs' => xs' = τ.trees xs) (ofExcept t.items)
      (ofExcept (τ.tree t).items) := by
  rw [Tree.items_respell]
  apply tracks_ofExcept
  cases t.items with
  | ok xs => exact fun _ _ => rfl
  | error f => exact rfl

theorem tracks_each {k k' : Tree → Checking PUnit}
    (each : ∀ x, Tracks τ n Same (k x) (k' (τ.tree x))) (xs : List Tree) :
    Tracks τ n Same (xs.forM k) ((τ.trees xs).forM k') := by
  induction xs with
  | nil => exact tracks_same _
  | cons x rest ih => exact (each x).then fun _ => ih

theorem tracks_warnings (xs : List Tree) :
    Tracks τ n (ValuesTrack τ) (xs.mapM warn) ((τ.trees xs).mapM warn) := by
  induction xs generalizing n with
  | nil => exact tracks_pure fun _ _ => ⟨rfl, trivial⟩
  | cons x rest ih =>
    rw [Translation.trees, Tree.respellAll, mapM_cons, mapM_cons]
    refine (tracks_warn _ _).value fun l le v below => ih.bind fun k le' vs vs' values => ?_
    obtain ⟨rfl, others⟩ := values
    exact tracks_pure fun j le'' => ⟨rfl, valueBelow_mono (le'.trans le'') v below,
      valuesBelow_mono le'' vs others⟩

theorem tracks_pairs (what : String) (name : Tree) (start : Nat) {wanted : List Value}
    (below : valuesBelow n wanted) (xs : List Tree) :
    Tracks τ n Same
      (forIn ((wanted.zip xs).zipIdx start) PUnit.unit fun entry _ => do
        checkArgument what name (entry.2 + 1) entry.1.1 (← warn entry.1.2)
        pure (ForInStep.yield PUnit.unit))
      (forIn (((translateValues τ wanted).zip (τ.trees xs)).zipIdx start)
        PUnit.unit fun entry _ => do
          checkArgument what (τ.key name) (entry.2 + 1) entry.1.1 (← warn entry.1.2)
          pure (ForInStep.yield PUnit.unit)) := by
  induction wanted generalizing xs start with
  | nil => exact tracks_same _
  | cons v rest ih =>
    cases xs with
    | nil => exact tracks_same _
    | cons x xs =>
      simp only [translateValues, Tree.respellAll, zip_cons_cons, zipIdx_cons,
        forIn_cons, bind_assoc, pure_bind]
      refine (tracks_warn _ _).value fun l le w found => ?_
      refine (tracks_checkArgument what name (start + 1) (valueBelow_mono le v below.1) found).then
        fun _ => ?_
      exact (ih (start + 1) below.2 xs).later le

theorem tracks_arrayType {element bounds : Value} (first : valueBelow n element)
    (second : valueBelow n bounds) :
    Tracks τ n (ValueTracks τ)
      (pure (.tupleOf [.named "ARRAY", element, .listOf (if bounds.truthy then [bounds] else [])]))
      (pure (.tupleOf [.named "ARRAY", translateValue τ element,
        .listOf (if (translateValue τ bounds).truthy then [translateValue τ bounds] else [])])) := by
  have dimensions : (if (translateValue τ bounds).truthy then [translateValue τ bounds] else []) =
      translateValues τ (if bounds.truthy then [bounds] else []) := by
    rw [truthy_translate]
    split <;> rfl
  have own : valuesBelow n (if bounds.truthy then [bounds] else []) := by
    split
    · exact ⟨second, trivial⟩
    · trivial
  rw [dimensions, listOf_translate]
  refine tracks_pure fun k le => ⟨?_, valueBelow_mono le _ ?_⟩
  · exact tupleOf_translate [.named "ARRAY", element, .listOf _]
  · exact valueBelow_tupleOf ⟨trivial, first, valueBelow_listOf own, trivial⟩

theorem tracks_collected {c : Bool} {m m' : Checking (List Value)}
    {k k' : List Value → Checking Value} (h : Tracks τ n (ValuesTrack τ) m m')
    (next : ∀ l, n ≤ l → ∀ params, valuesBelow l params →
      Tracks τ l (ValueTracks τ) (k params) (k' (translateValues τ params))) :
    Tracks τ n (ValueTracks τ) (if c then m >>= k else pure [] >>= k)
      (if c then m' >>= k' else pure [] >>= k') := by
  refine .ite Iff.rfl ?_ (next n le_rfl [] trivial)
  refine h.bind fun l le params params' values => ?_
  rw [values.1]
  exact next l le params values.2

theorem check_mapText (f : String → String) (t : Tree) : check (t.mapText f) = check t := by
  cases t <;> rfl

end Items

mutual

theorem tracks_check (n : Nat) (t : Tree) :
    Tracks τ n (ValueTracks τ) (check t) (check (τ.tree t)) := by
  match t with
  | .none | .header _ | .literal _ _ => exact tracks_plain _
  | .bool _ | .str _ | .int _ | .real _ | .list _ | .tuple _ | .idList _ | .arrayAssignment .. =>
    exact tracks_warn _ _
  | .program header block =>
    exact (tracks_check n header).discard.then fun _ =>
      (tracks_check n block).discard.then fun _ => tracks_absent
  | .block vars routines body extra =>
    exact (Tracks.inScope ((tracks_whenPresent vars (tracks_check n vars).discard).then fun _ =>
      (tracks_whenPresent routines (tracks_checkItems n tracks_andNothing routines)).then fun _ =>
      (tracks_whenPresent extra (tracks_check n extra).discard).then fun _ =>
      tracks_whenPresent body (tracks_check n body).discard)).then fun _ => tracks_absent
  | .varDeclarationPart declarations =>
    exact (tracks_whenPresent declarations
      (tracks_checkItems n tracks_andNothing declarations)).then fun _ => tracks_absent
  | .varDeclaration ids type =>
    refine (tracks_check n type).value fun l le v below => (tracks_items ids).next fun xs _ same => ?_
    subst same
    exact (tracks_each (tracks_declareName below) xs).then fun _ => tracks_absent
  | .type name => exact tracks_namedType name
  | .arrayType range element =>
    refine (tracks_check n element).value fun l le v below => ?_
    have formed {k : Nat} (le : l ≤ k) {bounds : Value} (own : valueBelow k bounds) :=
      tracks_arrayType (τ := τ) (valueBelow_mono le v below) own
    rw [Tree.truthy_respell]
    refine .ite Iff.rfl ?_ ?_
    · exact (tracks_check l range).value fun k le' bounds own => formed le' own
    · exact tracks_absent.value fun k le' bounds own => formed le' own
  | .range first last =>
    exact (tracks_check n first).value fun l le v below =>
      (tracks_check l last).value fun k le' w below' =>
        tracks_checkBounds first last (valueBelow_mono le' v below) below'
  | .identifier name => exact tracks_checkName name
  | .arrayId name index => exact tracks_checkElement name (tracks_check n index)
  | .procedureDeclaration heading block =>
    exact (tracks_check n heading).value fun l le v below =>
      (tracks_checkProcedure below (tracks_check l block).discard).then fun _ => tracks_absent
  | .functionDeclaration heading block =>
    exact (tracks_check n heading).value fun l le v below =>
      (tracks_checkFunction below (tracks_check l block).discard).then fun _ => tracks_absent
  | .procedureHeading name params =>
    rw [Translation.tree, Tree.respell, routine_key]
    refine (tracks_checkNew "Procedure" name).then fun _ => ?_
    rw [Tree.truthy_respell]
    exact tracks_collected (tracks_collectItems n params) fun l le params below =>
      tracks_declareRoutine name below (valueBelow_plain _)
  | .functionHeading name type params =>
    rw [Translation.tree, Tree.respell, routine_key]
    refine (tracks_checkNew "Function" name).then fun _ => ?_
    rw [Tree.truthy_respell, Tree.truthy_respell]
    have declared {k : Nat} {result : Value} (own : valueBelow k result) :=
      tracks_collected (c := params.truthy) (tracks_collectItems k params)
        fun l le params below => tracks_declareRoutine name below (valueBelow_mono le result own)
    refine .ite Iff.rfl ?_ ?_
    · exact (tracks_check n type).value fun l le result own => declared own
    · exact tracks_absent.value fun l le result own => declared own
  | .parameter name type =>
    refine (tracks_check n type).value fun l le v below => ?_
    refine (tracks_newVariable name below true).bind fun k le' s s' made => ?_
    obtain ⟨rfl, own, -⟩ := made
    exact tracks_value (v := .symbol s) own
  | .statementPart sequence => exact tracks_check n sequence
  | .statementSequence statements =>
    exact (tracks_checkAll n tracks_andNothing statements).then fun _ => tracks_absent
  | .assignment target value =>
    exact (tracks_checkAssignment target value (tracks_check n target)
      (tracks_check n value)).then fun _ => tracks_absent
  | .ifStatement condition thenBranch elseBranch =>
    exact (tracks_check n condition).value fun l le v below =>
      (tracks_checkCondition "if" below).then fun _ =>
      (tracks_check l thenBranch).discard.then fun _ =>
      (tracks_whenPresent elseBranch (tracks_check l elseBranch).discard).then fun _ =>
      tracks_absent
  | .whileStatement condition body =>
    exact (tracks_check n condition).value fun l le v below =>
      (tracks_checkCondition "while" below).then fun _ =>
      (tracks_check l body).discard.inLoop.then fun _ => tracks_absent
  | .repeatStatement body condition =>
    exact (Tracks.inLoop ((tracks_check n body).discard.then fun _ =>
      (tracks_check n condition).value fun l le v below =>
        tracks_checkCondition "repeat" below)).then fun _ => tracks_absent
  | .forStatement init _ limit body =>
    exact (tracks_check n init).discard.then fun _ => (tracks_checkControl init).then fun _ =>
      (tracks_check n limit).value fun l le v below => (tracks_checkLimit below).then fun _ =>
      (tracks_check l body).discard.inLoop.then fun _ => tracks_absent
  | .procedureCall name params =>
    rw [Translation.tree, Tree.respell, routine_key]
    exact tracks_checkCall name params
      (fun routine => tracks_checkItems n (tracks_afterArgument routine) params)
      fun l wanted le below => tracks_checkPairs l "procedure" name below params
  | .functionCall name params =>
    rw [Translation.tree, Tree.respell, routine_key]
    exact tracks_checkFunctionCall name params (tracks_checkFirst n params)
      fun l wanted le below => tracks_checkPairs l "function" name below params
  | .writelnStatement params =>
    exact (tracks_whenPresent params (tracks_checkItems n tracks_andNothing params)).then
      fun _ => tracks_absent
  | .readlnStatement params =>
    exact (tracks_whenPresent params (tracks_checkTargets n params)).then fun _ => tracks_absent
  | .breakStatement => exact (tracks_checkJump "Break").then fun _ => tracks_absent
  | .continueStatement => exact (tracks_checkJump "Continue").then fun _ => tracks_absent
  | .caseStatement expression options =>
    exact (tracks_check n expression).value fun l le v below =>
      (tracks_checkOptions l below options).then fun _ => tracks_absent
  | .caseOption value statement =>
    exact (tracks_check n value).value fun l le v below =>
      (tracks_check l statement).discard.then fun _ => tracks_value below
  | .binaryOp left operator right =>
    exact (tracks_check n left).value fun l le v below =>
      (tracks_check l right).value fun k le' w below' =>
        tracks_checkOperation operator (valueBelow_mono le' v below) below'
  | .unaryOp operator operand =>
    exact (tracks_check n operand).value fun l le v below => tracks_checkUnary operator below
  | .lengthFunction expression =>
    rw [Translation.tree, Tree.respell, check_length, check_length]
    exact (tracks_check n expression).value fun l le v below =>
      (tracks_checkMeasured below).then fun _ => tracks_plain _
  | .marked _ t => exact tracks_check n t

theorem tracks_checkItems (n : Nat) {after : Tree → Value → Checking Unit}
    (follows : AfterTracks τ after) (t : Tree) :
    Tracks τ n Same (checkItems after t) (checkItems after (τ.tree t)) := by
  cases t with
  | list xs | tuple xs => exact tracks_checkAll n follows xs
  | _ =>
    refine (tracks_items _).next fun xs _ same => ?_
    subst same
    exact tracks_each (fun x => (tracks_warn _ _).value fun l le v below => follows l x v below) xs

theorem tracks_checkAll (n : Nat) {after : Tree → Value → Checking Unit}
    (follows : AfterTracks τ after) (ts : List Tree) :
    Tracks τ n Same (checkAll after ts) (checkAll after (τ.trees ts)) := by
  match ts with
  | [] => exact tracks_same _
  | t :: rest =>
    exact (tracks_check n t).value fun l le v below => (follows l t v below).then fun _ =>
      tracks_checkAll l follows rest

theorem tracks_collectItems (n : Nat) (t : Tree) :
    Tracks τ n (ValuesTrack τ) (collectItems t) (collectItems (τ.tree t)) := by
  cases t with
  | list xs | tuple xs => exact tracks_collectAll n xs
  | _ =>
    refine (tracks_items _).next fun xs _ same => ?_
    subst same
    exact tracks_warnings xs

theorem tracks_collectAll (n : Nat) (ts : List Tree) :
    Tracks τ n (ValuesTrack τ) (collectAll ts)
      (collectAll (τ.trees ts)) := by
  match ts with
  | [] => exact tracks_pure fun _ _ => ⟨rfl, trivial⟩
  | t :: rest =>
    refine (tracks_check n t).value fun l le v below =>
      (tracks_collectAll l rest).bind fun k le' vs vs' values => ?_
    obtain ⟨rfl, others⟩ := values
    exact tracks_pure fun j le'' => ⟨rfl, valueBelow_mono (le'.trans le'') v below,
      valuesBelow_mono le'' vs others⟩

theorem tracks_checkFirst (n : Nat) (t : Tree) :
    Tracks τ n (ValueTracks τ) (checkFirst t) (checkFirst (τ.tree t)) := by
  cases t with
  | list xs | tuple xs =>
    cases xs with
    | nil => exact tracks_warn _ _
    | cons x _ => exact tracks_check n x
  | _ => exact tracks_warn _ _

theorem tracks_checkPairs (n : Nat) (what : String) (name : Tree) {wanted : List Value}
    (below : valuesBelow n wanted) (t : Tree) :
    Tracks τ n Same (checkPairs what name wanted t)
      (checkPairs what (τ.key name) (translateValues τ wanted) (τ.tree t)) := by
  cases t with
  | list xs | tuple xs => exact tracks_checkZip n what name 1 below xs
  | _ =>
    refine (tracks_items _).next fun xs _ same => ?_
    subst same
    exact (tracks_pairs what name 0 below xs).then fun _ => tracks_same _

theorem tracks_checkZip (n : Nat) (what : String) (name : Tree) (position : Nat)
    {wanted : List Value} (below : valuesBelow n wanted) (ts : List Tree) :
    Tracks τ n Same (checkZip what name position wanted ts)
      (checkZip what (τ.key name) position (translateValues τ wanted)
        (τ.trees ts)) := by
  match ts, wanted with
  | [], _ => exact tracks_same _
  | _ :: _, [] => exact tracks_same _
  | t :: rest, param :: params =>
    exact (tracks_check n t).value fun l le v found =>
      (tracks_checkArgument what name position (valueBelow_mono le param below.1) found).then
        fun _ => tracks_checkZip l what name (position + 1) (valuesBelow_mono le params below.2) rest

theorem tracks_checkTargets (n : Nat) (t : Tree) :
    Tracks τ n Same (checkTargets t) (checkTargets (τ.tree t)) := by
  cases t with
  | list xs | tuple xs => exact tracks_checkEachTarget n xs
  | _ =>
    refine (tracks_items _).next fun xs _ same => ?_
    subst same
    exact tracks_each tracks_refuseTarget xs

theorem tracks_checkEachTarget (n : Nat) (ts : List Tree) :
    Tracks τ n Same (checkEachTarget ts)
      (checkEachTarget (τ.trees ts)) := by
  match ts with
  | [] => exact tracks_same _
  | t :: rest =>
    exact (tracks_checkTarget t (tracks_check n t)).then fun _ => tracks_checkEachTarget n rest

theorem tracks_checkOptions (n : Nat) {subject : Value} (below : valueBelow n subject) (t : Tree) :
    Tracks τ n Same (checkOptions subject t)
      (checkOptions (translateValue τ subject) (τ.tree t)) := by
  cases t with
  | list xs | tuple xs => exact tracks_checkEachOption n below xs
  | _ =>
    refine (tracks_items _).next fun xs _ same => ?_
    subst same
    cases xs with
    | nil => exact tracks_same _
    | cons x rest =>
      simp only [Tree.respellAll, Tree.kindName_respell]
      exact tracks_throw _

theorem tracks_checkEachOption (n : Nat) {subject : Value} (below : valueBelow n subject)
    (ts : List Tree) :
    Tracks τ n Same (checkEachOption subject ts)
      (checkEachOption (translateValue τ subject) (τ.trees ts)) := by
  match ts with
  | [] => exact tracks_same _
  | t :: rest =>
    cases t with
    | caseOption value statement =>
      exact (tracks_check n value).value fun l le v found =>
        (tracks_checkCase (valueBelow_mono le subject below) found).then fun _ =>
        (tracks_check l statement).discard.then fun _ =>
          tracks_checkEachOption l (valueBelow_mono le subject below) rest
    | assignment _ value | arrayAssignment _ _ value =>
      exact (tracks_check n value).value fun l le v found =>
        (tracks_checkCase (valueBelow_mono le subject below) found).then fun _ => tracks_throw _
    | literal value _ =>
      have first := tracks_check n value
      rw [← check_mapText τ.names.phrase (value.respell _)] at first
      exact first.value fun l le v found =>
        (tracks_checkCase (valueBelow_mono le subject below) found).then fun _ => tracks_throw _
    | marked m t =>
      have kind := Tree.kindName_respell (ρ := τ.names.toRespelling) (.marked m t)
      change Tracks τ n Same (throw (.noAttribute (Tree.marked m t).kindName "value"))
        (throw (.noAttribute ((Tree.marked m t).respell τ.names.toRespelling).kindName "value"))
      rw [kind]
      exact tracks_throw _
    | _ => exact tracks_throw _

end

/-- What holds of an analyzer between analyses: it is in no loop, and the symbols that have been given
a value are ones it has made. -/
structure Settled (a : Analyzer) : Prop where
  loops : a.loopLevel = 0
  least : 5 ≤ a.nextId
  known : ∀ i ∈ a.assigned, i < a.nextId

theorem settled_fresh : Settled {} := ⟨rfl, le_rfl, forall_mem_nil _⟩

def following (names : Renaming) (a : Analyzer) : Translation := ⟨names, a.nextId - 5, a.errors⟩

theorem level_start (names : Renaming) (h : Settled a) :
    Level (following names a) { scope := standardScope } { a with scope := standardScope } := by
  have least := h.least
  have next : a.nextId = 5 + (following names a).shift := by
    change a.nextId = 5 + (a.nextId - 5)
    omega
  refine ⟨translate_standardScope.symm, scopeBelow_standardScope 5, h.loops, le_rfl, next, ?_,
    h.known, [], (append_nil _).symm, .nil⟩
  -- The symbols of the second analyzer that are made from now on have never been given a value.
  intro i own
  have fresh : (following names a).number i ∉ a.assigned := by
    intro member
    have bound := h.known _ member
    rw [number_of_le own] at bound
    omega
  simpa using fresh

theorem analyses_follow (names : Renaming) (h : Settled a) (t : Tree) :
    (∃ b b', (analyze t).run {} = .ok b.errors.isEmpty b ∧
        (analyze (t.respell names.toRespelling)).run a = .ok b'.errors.isEmpty b' ∧
        Level (following names a) b b' ∧ b.loopLevel = 0) ∨
      ∃ f b b', (analyze t).run {} = .error f b ∧
        (analyze (t.respell names.toRespelling)).run a = .error f b' ∧
        ErrorsAlike (following names a) b b' := by
  have start (t : Tree) (a : Analyzer) : (analyze t).run a =
      EStateM.run (discard (check t) >>= fun _ => summarize) { a with scope := standardScope } := rfl
  rw [start, start]
  rcases (tracks_check 5 t _ _ (level_start names h) le_rfl).cases with
    ⟨v, v', b, b', run, run', -, level, grows⟩ | ⟨f, b, b', run, run', errors⟩
  · obtain ⟨out, summary⟩ := run_summarize b
    obtain ⟨out', summary'⟩ := run_summarize b'
    refine .inl ⟨{ b with out := out }, { b' with out := out' },
      run_seq (run_discard_of_ok run) summary, run_seq (run_discard_of_ok run') summary', ?_,
      grows.loops⟩
    exact ⟨level.scope, level.below, level.loops, level.least, level.next, level.given,
      level.known, level.errors⟩
  · change EStateM.run (check (t.respell names.toRespelling)) _ = _ at run'
    refine .inr ⟨f, b, b', ?_, ?_, errors⟩
    · rw [EStateM.run_bind, run_discard_of_error run]
    · rw [EStateM.run_bind, run_discard_of_error run']

theorem ErrorsAlike.isEmpty_eq {names : Renaming} {b' : Analyzer}
    (alike : ErrorsAlike (following names {}) b b') : b'.errors.isEmpty = b.errors.isEmpty := by
  obtain ⟨found, errors, reworded⟩ := alike
  rw [errors, Bool.eq_iff_iff, isEmpty_iff_length_eq_zero, isEmpty_iff_length_eq_zero,
    reworded.length_eq]
  rfl

end PascalStack.Analysis
