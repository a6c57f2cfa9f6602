import Mathlib.Order.Nat
import PascalStack.Proofs.Analysis.Messages
import PascalStack.Proofs.Analysis.Translation

/-!
# Analyzers that follow each other

An analyzer follows another one if it knows the same, translated, and has found errors of the same
wordings after those it started with. A check tracks another check if from analyzers that follow
each other both end with the same fault, or both give values that are translations, and the
analyzers still follow each other.
-/

namespace PascalStack.Analysis

open Checking

variable {τ : Translation} {α α' β β' : Type}

def Told (τ : Translation) (x x' : α) : Prop := τ.names.toRespelling = {} → x' = x

abbrev EndsTold (τ : Translation) (x x' : Except Fault α) : Prop := SameEnd Eq (Told τ) x x'

variable {x x' : Except Fault α} {b : Analyzer} {v : Value} {k : α → Checking β}
  {k' : α' → Checking β'} {c : Prop} {s : Symbol} {i : Nat} {message : String → String}

theorem told_of_sameFault (faults : SameFault x x') (same : τ.names.toRespelling = {} → x' = x) :
    EndsTold τ x x' := by
  cases x with
  | ok a =>
    cases x' with
    | ok a' => exact fun kept => Except.ok.inj (same kept)
    | error f' => exact faults
  | error f =>
    cases x' with
    | ok a' => exact faults
    | error f' => exact faults

theorem told_respell (t : Tree) :
    EndsTold τ t.text (τ.tree t).text := by
  refine told_of_sameFault (Tree.sameFault_render false t) fun kept => ?_
  rw [Translation.tree, kept, Tree.respell_default]

theorem told_mapText {f : String → String} (own : τ.names.toRespelling = {} → f = id) (t : Tree) :
    EndsTold τ t.text (t.mapText f).text := by
  refine told_of_sameFault (Tree.sameFault_mapText f false t) fun kept => ?_
  rw [own kept, Tree.mapText_id]

theorem told_key (name : Tree) : EndsTold τ name.text (τ.key name).text :=
  told_mapText (fun kept => by rw [kept]) name

theorem told_refl (x : Except Fault α) : EndsTold τ x x :=
  told_of_sameFault (.refl x) fun _ => rfl

theorem told_bind {k k' : α → Except Fault β} (first : EndsTold τ x x')
    (second : ∀ a a', Told τ a a' → EndsTold τ (k a) (k' a')) :
    EndsTold τ (x >>= k) (x' >>= k') := by
  cases x with
  | ok a =>
    cases x' with
    | ok a' => exact second a a' first
    | error f' => exact False.elim first
  | error f =>
    cases x' with
    | ok a' => exact False.elim first
    | error f' => exact first

theorem told_pure {x x' : α} (h : Told τ x x') :
    EndsTold τ (pure x : Except Fault α) (pure x') := h

section Values

variable {n : Nat} {given given' : Nat → Bool}

section Symbols

variable (id : Nat) (name initialized constant value : Tree) (type : Value)

theorem symbolText_variable :
    symbolText given ⟨id, name, type, initialized, constant, value, .variable⟩ = (do
      let title ← name.text
      let type ← valueText given type
      let state := if initialized.truthy || given id then "initialized" else "uninitialized"
      let mode := if constant.truthy then "constant" else "variable"
      return s!"Symbol({title}, {type}, {state}, {mode})") := rfl

theorem symbolText_routine (params : List Value) (isFunction : Bool) :
    symbolText given ⟨id, name, type, initialized, constant, value, .routine params isFunction⟩ =
      (do
        let title ← name.text
        let kind := if isFunction then "function" else "procedure"
        let shown := ", ".intercalate (← valueTexts given params)
        return s!"{kind} {title}({shown})") := rfl

theorem symbolText_array (element dimensions : Value) :
    symbolText given ⟨id, name, type, initialized, constant, value, .array element dimensions⟩ =
      (do
        let shown := ", ".intercalate (← dimensionsTexts given dimensions)
        let title ← name.text
        let element ← valueText given element
        return s!"ArraySymbol({title}, {element}, [{shown}])") := rfl

end Symbols

mutual

theorem told_valueText (numbers : ∀ i, 5 ≤ i → given' (τ.number i) = given i) (v : Value)
    (h : valueBelow n v) :
    EndsTold τ (valueText given v) (valueText given' (translateValue τ v)) := by
  match v with
  | .plain t =>
    rw [translateValue, valueText, valueText]
    exact told_refl _
  | .list xs | .tuple xs =>
    rw [translateValue, valueText, valueText]
    refine told_bind (told_valueTexts numbers xs h) fun shown shown' told => ?_
    exact told_pure fun kept => by rw [told kept]
  | .symbol s =>
    rw [translateValue, valueText, valueText]
    exact told_symbolText numbers s h

theorem told_valueTexts (numbers : ∀ i, 5 ≤ i → given' (τ.number i) = given i) (vs : List Value)
    (h : valuesBelow n vs) :
    EndsTold τ (valueTexts given vs) (valueTexts given' (translateValues τ vs)) := by
  match vs with
  | [] =>
    rw [translateValues, valueTexts, valueTexts]
    exact told_refl _
  | v :: rest =>
    rw [translateValues, valueTexts, valueTexts]
    refine told_bind (told_valueText numbers v h.1) fun shown shown' first => ?_
    refine told_bind (told_valueTexts numbers rest h.2) fun others others' later => ?_
    exact told_pure fun kept => by rw [first kept, later kept]

theorem told_symbolText (numbers : ∀ i, 5 ≤ i → given' (τ.number i) = given i)
    (s : SymbolOf Value) (h : symbolBelow n s) :
    EndsTold τ (symbolText given s) (symbolText given' (translateSymbol τ s)) := by
  match s with
  | ⟨id, name, type, initialized, constant, value, role⟩ =>
    obtain ⟨own, -, typed, parts⟩ := h
    match role with
    | .variable =>
      rw [translateSymbol, translateRole, symbolText_variable, symbolText_variable]
      refine told_bind (told_key name) fun title title' first => ?_
      refine told_bind (told_valueText numbers type typed) fun shown shown' second => ?_
      refine told_pure fun kept => ?_
      rw [first kept, second kept, numbers id own]
    | .routine params isFunction =>
      rw [translateSymbol, translateRole, symbolText_routine, symbolText_routine]
      refine told_bind (told_key name) fun title title' first => ?_
      refine told_bind (told_valueTexts numbers params parts) fun shown shown' second => ?_
      exact told_pure fun kept => by rw [first kept, second kept]
    | .array element dimensions =>
      rw [translateSymbol, translateRole, symbolText_array, symbolText_array]
      refine told_bind (told_dimensionsTexts numbers dimensions parts.2) fun shown shown' first => ?_
      refine told_bind (told_key name) fun title title' second => ?_
      refine told_bind (told_valueText numbers element parts.1) fun inner inner' third => ?_
      exact told_pure fun kept => by rw [first kept, second kept, third kept]

theorem told_dimensionsTexts (numbers : ∀ i, 5 ≤ i → given' (τ.number i) = given i) (v : Value)
    (h : valueBelow n v) :
    EndsTold τ (dimensionsTexts given v) (dimensionsTexts given' (translateValue τ v)) := by
  match v with
  | .plain t =>
    rw [translateValue, dimensionsTexts, dimensionsTexts]
    exact told_refl _
  | .list xs | .tuple xs =>
    rw [translateValue, dimensionsTexts, dimensionsTexts]
    exact told_dimensionTexts numbers xs h
  | .symbol s =>
    rw [translateValue, dimensionsTexts, dimensionsTexts, kindName_translateRole]
    exact told_refl _

theorem told_dimensionTexts (numbers : ∀ i, 5 ≤ i → given' (τ.number i) = given i)
    (vs : List Value) (h : valuesBelow n vs) :
    EndsTold τ (dimensionTexts given vs) (dimensionTexts given' (translateValues τ vs)) := by
  match vs with
  | [] =>
    rw [translateValues, dimensionTexts, dimensionTexts]
    exact told_refl _
  | v :: rest =>
    rw [translateValues, dimensionTexts, dimensionTexts]
    refine told_bind (told_dimensionText numbers v h.1) fun shown shown' first => ?_
    refine told_bind (told_dimensionTexts numbers rest h.2) fun others others' later => ?_
    exact told_pure fun kept => by rw [first kept, later kept]

theorem told_dimensionText (numbers : ∀ i, 5 ≤ i → given' (τ.number i) = given i) (v : Value)
    (h : valueBelow n v) :
    EndsTold τ (dimensionText given v) (dimensionText given' (translateValue τ v)) := by
  match v with
  | .plain t =>
    rw [translateValue, dimensionText, dimensionText]
    exact told_refl _
  | .list [first, last] | .tuple [first, last] =>
    simp only [translateValue, translateValues, dimensionText]
    refine told_bind (told_valueText numbers first h.1) fun low low' lower => ?_
    refine told_bind (told_valueText numbers last h.2.1) fun high high' upper => ?_
    exact told_pure fun kept => by rw [lower kept, upper kept]
  | .list [] | .tuple [] | .list [_] | .tuple [_] | .list (_ :: _ :: _ :: _)
  | .tuple (_ :: _ :: _ :: _) =>
    simp only [translateValue, translateValues, dimensionText, translateValues_eq_map,
      List.length_cons, List.length_map]
    exact told_refl _
  | .symbol s =>
    rw [translateValue, dimensionText, dimensionText, kindName_translateRole]
    exact told_refl _

end

end Values

/-! ## Analyzers -/

def ErrorsAlike (τ : Translation) (a a' : Analyzer) : Prop :=
  ∃ found, a'.errors = τ.before ++ found ∧ List.Forall₂ (Reworded (Told τ)) a.errors found

structure Level (τ : Translation) (a a' : Analyzer) : Prop where
  scope : a'.scope = translateScope τ a.scope
  below : scopeBelow a.nextId a.scope
  loops : a'.loopLevel = a.loopLevel
  least : 5 ≤ a.nextId
  next : a'.nextId = a.nextId + τ.shift
  given : ∀ i, 5 ≤ i → a'.assigned.contains (τ.number i) = a.assigned.contains i
  known : ∀ i ∈ a'.assigned, i < a'.nextId
  errors : ErrorsAlike τ a a'

structure Grows (a b : Analyzer) : Prop where
  next : a.nextId ≤ b.nextId
  outer : b.scope.outer = a.scope.outer
  owns : ∀ name, Owns a.scope name → Owns b.scope name
  loops : b.loopLevel = a.loopLevel

theorem grows_refl (a : Analyzer) : Grows a a := ⟨Nat.le_refl _, rfl, fun _ h => h, rfl⟩

theorem Grows.trans {a c : Analyzer} (first : Grows a b) (second : Grows b c) : Grows a c :=
  ⟨first.next.trans second.next, second.outer.trans first.outer,
    fun name h => second.owns name (first.owns name h), second.loops.trans first.loops⟩

/-- How two checks from `a` and an analyzer that follows it end. What is said of the values they give
may depend on how many symbols there are. -/
inductive EndsLevel (τ : Translation) (V : Nat → α → α' → Prop) (a : Analyzer) :
    EStateM.Result Fault Analyzer α → EStateM.Result Fault Analyzer α' → Prop
  | ok {v : α} {v' : α'} {b b' : Analyzer} :
      V b.nextId v v' → Level τ b b' → Grows a b → EndsLevel τ V a (.ok v b) (.ok v' b')
  | error (f : Fault) {b b' : Analyzer} :
      ErrorsAlike τ b b' → EndsLevel τ V a (.error f b) (.error f b')

def Tracks (τ : Translation) (n : Nat) (V : Nat → α → α' → Prop) (m : Checking α)
    (m' : Checking α') : Prop :=
  ∀ a a', Level τ a a' → n ≤ a.nextId → EndsLevel τ V a (m.run a) (m'.run a')

def Same (_ : Nat) (v v' : α) : Prop := v' = v

def ValueTracks (τ : Translation) (n : Nat) (v v' : Value) : Prop :=
  v' = translateValue τ v ∧ valueBelow n v

def ValuesTrack (τ : Translation) (n : Nat) (vs vs' : List Value) : Prop :=
  vs' = translateValues τ vs ∧ valuesBelow n vs

def SymbolTracks (τ : Translation) (n : Nat) (s s' : Symbol) : Prop :=
  s' = translateSymbol τ s ∧ symbolBelow n s

def FoundTracks (τ : Translation) (n : Nat) (found found' : Option Symbol) : Prop :=
  found' = found.map (translateSymbol τ) ∧ ∀ s, found = some s → symbolKnown n s

section Rules

variable {n : Nat} {V : Nat → α → α' → Prop} {U : Nat → β → β' → Prop} {m : Checking α}
  {m' : Checking α'} {a : Analyzer}

theorem EndsLevel.cases {r : EStateM.Result Fault Analyzer α}
    {r' : EStateM.Result Fault Analyzer α'} (h : EndsLevel τ V a r r') :
    (∃ v v' b b', r = .ok v b ∧ r' = .ok v' b' ∧ V b.nextId v v' ∧ Level τ b b' ∧ Grows a b) ∨
      ∃ f b b', r = .error f b ∧ r' = .error f b' ∧ ErrorsAlike τ b b' := by
  cases h with
  | ok values level grows => exact .inl ⟨_, _, _, _, rfl, rfl, values, level, grows⟩
  | error f errors => exact .inr ⟨f, _, _, rfl, rfl, errors⟩

theorem EndsLevel.before {r : EStateM.Result Fault Analyzer α}
    {r' : EStateM.Result Fault Analyzer α'} (h : EndsLevel τ V b r r') (grows : Grows a b) :
    EndsLevel τ V a r r' := by
  cases h with
  | ok values level later => exact .ok values level (grows.trans later)
  | error f errors => exact .error f errors

theorem tracks_pure {v : α} {v' : α'} (h : ∀ k, n ≤ k → V k v v') :
    Tracks τ n V (pure v) (pure v') :=
  fun a _ level le => .ok (h a.nextId le) level (grows_refl a)

theorem tracks_same (v : α) : Tracks τ n Same (pure v : Checking α) (pure v) :=
  tracks_pure fun _ _ => rfl

theorem tracks_plain (t : Tree) : Tracks τ n (ValueTracks τ) (pure (.plain t)) (pure (.plain t)) :=
  tracks_pure fun _ _ => ⟨rfl, trivial⟩

theorem tracks_value (below : valueBelow n v) :
    Tracks τ n (ValueTracks τ) (pure v) (pure (translateValue τ v)) :=
  tracks_pure fun _ le => ⟨rfl, valueBelow_mono le v below⟩

theorem Tracks.later (h : Tracks τ n V m m') {k : Nat} (le : n ≤ k) : Tracks τ k V m m' :=
  fun a a' level le' => h a a' level (le.trans le')

theorem Tracks.run_bind {k : α → Checking β} {k' : α' → Checking β'} (first : Tracks τ n V m m')
    {a' : Analyzer} (level : Level τ a a') (le : n ≤ a.nextId)
    (second : ∀ b b' v v', m.run a = .ok v b → V b.nextId v v' → Level τ b b' → Grows a b →
      EndsLevel τ U b ((k v).run b) ((k' v').run b')) :
    EndsLevel τ U a ((m >>= k).run a) ((m' >>= k').run a') := by
  rw [EStateM.run_bind, EStateM.run_bind]
  rcases (first a a' level le).cases with
    ⟨v, v', b, b', run, run', values, level', grows⟩ | ⟨f, b, b', run, run', errors⟩
  · rw [run, run']
    exact (second b b' v v' run values level' grows).before grows
  · rw [run, run']
    exact .error f errors

theorem Tracks.bind (first : Tracks τ n V m m')
    (second : ∀ l, n ≤ l → ∀ v v', V l v v' → Tracks τ l U (k v) (k' v')) :
    Tracks τ n U (m >>= k) (m' >>= k') := by
  intro a a' level le
  refine first.run_bind level le fun b b' v v' _ values level' grows => ?_
  exact second b.nextId (le.trans grows.next) v v' values b b' level' le_rfl

theorem Tracks.next {R : α → α' → Prop} (first : Tracks τ n (fun _ => R) m m')
    (second : ∀ v v', R v v' → Tracks τ n U (k v) (k' v')) : Tracks τ n U (m >>= k) (m' >>= k') :=
  first.bind fun _ le v v' values => (second v v' values).later le

theorem Tracks.then {m m' : Checking α} {k' : α → Checking β'} (first : Tracks τ n Same m m')
    (second : ∀ v, Tracks τ n U (k v) (k' v)) : Tracks τ n U (m >>= k) (m' >>= k') := by
  refine Tracks.next first ?_
  rintro _ v rfl
  exact second v

theorem Tracks.value {m m' : Checking Value} {k : Value → Checking β} {k' : Value → Checking β'}
    (first : Tracks τ n (ValueTracks τ) m m')
    (second : ∀ l, n ≤ l → ∀ v, valueBelow l v → Tracks τ l U (k v) (k' (translateValue τ v))) :
    Tracks τ n U (m >>= k) (m' >>= k') := by
  refine first.bind fun l le v v' values => ?_
  rw [values.1]
  exact second l le v values.2

theorem Tracks.found {m m' : Checking (Option Symbol)} {k : Option Symbol → Checking β}
    {k' : Option Symbol → Checking β'} (first : Tracks τ n (FoundTracks τ) m m')
    (missing : Tracks τ n U (k none) (k' none))
    (found : ∀ l, n ≤ l → ∀ s, symbolKnown l s →
      Tracks τ l U (k (some s)) (k' (some (translateSymbol τ s)))) :
    Tracks τ n U (m >>= k) (m' >>= k') := by
  refine first.bind fun l le symbol symbol' h => ?_
  obtain ⟨translated, known⟩ := h
  cases symbol with
  | none =>
    rw [translated]
    exact missing.later le
  | some s =>
    rw [translated]
    exact found l le s (known s rfl)

theorem Tracks.discard (h : Tracks τ n V m m') : Tracks τ n Same (discard m) (discard m') := by
  intro a a' level le
  rcases (h a a' level le).cases with
    ⟨v, v', b, b', run, run', -, level', grows⟩ | ⟨f, b, b', run, run', errors⟩
  · rw [run_discard_of_ok run, run_discard_of_ok run']
    exact .ok rfl level' grows
  · rw [run_discard_of_error run, run_discard_of_error run']
    exact .error f errors

theorem tracks_throw (f : Fault) :
    Tracks τ n V (throw f : Checking α) (throw f : Checking α') :=
  fun _ _ level _ => .error f level.errors

theorem tracks_ofExcept {x' : Except Fault α'}
    (h : SameEnd Eq (fun v v' => ∀ k, n ≤ k → V k v v') x x') :
    Tracks τ n V (ofExcept x : Checking α) (ofExcept x') := by
  cases x with
  | ok v =>
    cases x' with
    | ok v' => exact tracks_pure h
    | error f' => exact h.elim
  | error f =>
    cases x' with
    | ok v' => exact h.elim
    | error f' =>
      cases h
      exact tracks_throw f

theorem tracks_sameExcept (x : Except Fault α) :
    Tracks τ n Same (ofExcept x : Checking α) (ofExcept x) := by
  apply tracks_ofExcept
  cases x with
  | ok v => exact fun _ _ => rfl
  | error f => exact rfl

theorem Tracks.ite {c' : Prop} [Decidable c] [Decidable c'] (same : c ↔ c') {q : Checking α}
    {q' : Checking α'} (yes : Tracks τ n V m m') (no : Tracks τ n V q q') :
    Tracks τ n V (if c then m else q) (if c' then m' else q') := by
  by_cases h : c
  · rw [if_pos h, if_pos (same.mp h)]
    exact yes
  · rw [if_neg h, if_neg fun h' => h (same.mpr h')]
    exact no

theorem tracks_modify {f f' : Analyzer → Analyzer}
    (h : ∀ a a', Level τ a a' → n ≤ a.nextId → Level τ (f a) (f' a') ∧ Grows a (f a)) :
    Tracks τ n Same (modify f : Checking Unit) (modify f') := by
  intro a a' level le
  have ⟨level', grows⟩ := h a a' level le
  exact .ok rfl level' grows

theorem tracks_read {f : Analyzer → Except Fault α} {g : Analyzer → Except Fault α'}
    (h : ∀ a a', Level τ a a' → n ≤ a.nextId → SameEnd Eq (V a.nextId) (f a) (g a')) :
    Tracks τ n V (do ofExcept (f (← get)) : Checking α) (do ofExcept (g (← get))) := by
  intro a a' level le
  have read : SameEnd Eq (V a.nextId) (f a) (g a') := h a a' level le
  change EndsLevel τ V a ((ofExcept (f a) : Checking α).run a)
    ((ofExcept (g a') : Checking α').run a')
  revert read
  cases f a with
  | ok v =>
    cases g a' with
    | ok v' => exact fun values => .ok values level (grows_refl a)
    | error f' => exact False.elim
  | error f =>
    cases g a' with
    | ok v' => exact False.elim
    | error f' =>
      rintro rfl
      exact .error f level.errors

end Rules

/-! ## What analyzers do -/

section Primitives

variable {n : Nat}

theorem tracks_line (text text' : String) : Tracks τ n Same (line text) (line text') :=
  tracks_modify fun _ _ level _ =>
    ⟨⟨level.scope, level.below, level.loops, level.least, level.next, level.given, level.known,
      level.errors⟩, le_rfl, rfl, fun _ h => h, rfl⟩

theorem tracks_report (kind : ErrorKind) {about about' : List String} {message message' : String}
    (alike : List.Forall₂ (Told τ) about about') (own : message = kind.about about)
    (own' : message' = kind.about about') :
    Tracks τ n Same (report message) (report message') := by
  refine Tracks.then (tracks_modify fun a a' level _ => ?_) fun _ => tracks_line _ _
  obtain ⟨found, errors, known⟩ := level.errors
  refine ⟨⟨level.scope, level.below, level.loops, level.least, level.next, level.given,
    level.known, found ++ [message'], ?_, ?_⟩, ⟨le_rfl, rfl, fun _ h => h, rfl⟩⟩
  · rw [errors, List.append_assoc]
  · exact List.rel_append known (.cons ⟨kind, about, about', alike, own, own'⟩ .nil)

theorem tracks_textOf {t t' : Tree} (h : EndsTold τ t.text t'.text) :
    Tracks τ n (fun _ => Told τ) (textOf t) (textOf t') :=
  tracks_ofExcept (h.imp fun _ _ told _ _ => told)

theorem tracks_showing (below : valueBelow n v) :
    Tracks τ n (fun _ => Told τ) (showing v) (showing (translateValue τ v)) :=
  tracks_read fun _ _ level _ => told_valueText level.given v below

theorem keyFlaw?_key (name : Tree) : (τ.key name).checkKey = name.checkKey := by
  cases name <;> rfl

theorem tracks_find? (name : Tree) :
    Tracks τ n (FoundTracks τ) (find? name) (find? (τ.key name)) := by
  rw [find?, find?, keyFlaw?_key]
  refine (tracks_sameExcept _).then fun _ => ?_
  refine tracks_read (f := fun a => .ok (a.scope.find? name))
    (g := fun a => .ok (a.scope.find? (τ.key name))) fun a a' level _ => ?_
  refine ⟨?_, fun s found => level.below.found found⟩
  rw [level.scope, find?_translateScope]

theorem tracks_findHere? (name : Tree) :
    Tracks τ n (fun _ found found' => found'.isSome = found.isSome) (findHere? name)
      (findHere? (τ.key name)) := by
  rw [findHere?, findHere?, keyFlaw?_key]
  refine (tracks_sameExcept _).then fun _ => ?_
  refine tracks_read (f := fun a => .ok (a.scope.findHere? name))
    (g := fun a => .ok (a.scope.findHere? (τ.key name))) fun a a' level _ => ?_
  change (a'.scope.findHere? (τ.key name)).isSome = (a.scope.findHere? name).isSome
  rw [level.scope, findHere?_translateScope, Option.isSome_map]

theorem tracks_define (below : symbolBelow n s) :
    Tracks τ n Same (define s) (define (translateSymbol τ s)) := by
  rw [define, define, translateSymbol_name, keyFlaw?_key]
  refine (tracks_sameExcept _).then fun _ => tracks_modify fun a a' level le => ?_
  have own : symbolBelow a.nextId s := symbolBelow_mono le s below
  refine ⟨⟨?_, level.below.define own, level.loops, level.least, level.next, level.given,
    level.known, level.errors⟩, le_rfl, rfl, ?_, rfl⟩
  · rw [level.scope]
    exact define_translateScope _ _
  · exact fun name h => h.define (symbolBelow_iff.mp below).1

theorem tracks_defineValue (below : valueBelow n v) :
    Tracks τ n Same (defineValue v) (defineValue (translateValue τ v)) := by
  cases v with
  | symbol s => exact tracks_define below
  | _ => exact tracks_throw _

theorem number_of_le (own : 5 ≤ i) : τ.number i = i + τ.shift :=
  if_neg (Nat.not_lt.mpr own)

theorem number_injective {j : Nat} (own : 5 ≤ i) : τ.number i = τ.number j ↔ i = j := by
  rw [number_of_le own, Translation.number]
  split <;> omega

theorem tracks_newSymbol (name : Tree) {type : Value} (typed : valueBelow n type)
    (initialized constant value : Tree) {R : Role Value} (parts : roleBelow n R) :
    Tracks τ n (SymbolTracks τ) (newSymbol name type initialized constant value R)
      (newSymbol (τ.key name) (translateValue τ type) initialized constant value
        (translateRole τ R)) := by
  intro a a' level le
  have next : a'.nextId = τ.number a.nextId := by rw [level.next, number_of_le level.least]
  refine .ok ⟨?_, ?_⟩ ⟨level.scope, level.below.mono (Nat.le_succ _), level.loops,
    level.least.trans (Nat.le_succ _), ?_, level.given, fun i h => (level.known i h).trans_le
      (Nat.le_succ _), level.errors⟩ ⟨Nat.le_succ _, rfl, fun _ h => h, rfl⟩
  · rw [next]
    rfl
  · exact ⟨level.least, Nat.lt_succ_self _, valueBelow_mono (le.trans (Nat.le_succ _)) type typed,
      roleBelow_mono (le.trans (Nat.le_succ _)) R parts⟩
  · change a'.nextId + 1 = a.nextId + 1 + τ.shift
    rw [level.next]
    omega

theorem tracks_assign (known : symbolKnown n s) :
    Tracks τ n Same (assign s) (assign (translateSymbol τ s)) := by
  refine tracks_modify fun a a' level le => ⟨⟨level.scope, level.below, level.loops, level.least,
    level.next, ?_, ?_, level.errors⟩, le_rfl, rfl, fun _ h => h, rfl⟩
  · intro i own
    have same : (τ.number i == τ.number s.id) = (i == s.id) := by
      rw [Bool.eq_iff_iff, beq_iff_eq, beq_iff_eq, number_injective own]
    rw [translateSymbol_id, List.contains_cons, List.contains_cons, same, level.given i own]
  · have bound : τ.number s.id < a'.nextId := by
      have first : s.id < a.nextId := by
        rcases known with below | standard
        · exact (symbolBelow_iff.mp below).2.1.trans_le le
        · exact (id_lt_of_standard standard).trans_le level.least
      rw [level.next, Translation.number]
      split <;> omega
    rw [translateSymbol_id]
    exact List.forall_mem_cons.mpr ⟨bound, level.known⟩

theorem tracks_isInitialized (below : symbolBelow n s) :
    Tracks τ n Same (isInitialized s) (isInitialized (translateSymbol τ s)) := by
  refine tracks_read (f := fun a => .ok (s.initialized.truthy || a.assigned.contains s.id))
    (g := fun a => .ok ((translateSymbol τ s).initialized.truthy ||
      a.assigned.contains (translateSymbol τ s).id)) fun a a' level _ => ?_
  change ((translateSymbol τ s).initialized.truthy ||
    a'.assigned.contains (translateSymbol τ s).id) =
      (s.initialized.truthy || a.assigned.contains s.id)
  rw [translateSymbol_initialized, translateSymbol_id,
    level.given s.id (symbolBelow_iff.mp below).1]

theorem Tracks.around {c c' : Checking Unit} {go back : Analyzer → Analyzer}
    (h : Tracks τ n Same c c')
    (entered : ∀ {a a'}, Level τ a a' → (go a).nextId = a.nextId ∧ Level τ (go a) (go a'))
    (left : ∀ {a a' b b'}, Level τ a a' → Level τ b b' → Grows (go a) b →
      Level τ (back b) (back b') ∧ Grows a (back b)) :
    Tracks τ n Same (do modify go; c; modify back) (do modify go; c'; modify back) := by
  intro a a' level le
  obtain ⟨same, inside⟩ := entered level
  have run_eq (m : Checking Unit) (a : Analyzer) : EStateM.run (do modify go; m; modify back) a =
      match m.run (go a) with
      | .ok _ b => .ok () (back b)
      | .error f b => .error f b := by
    change EStateM.run (m >>= fun _ => modify back) (go a) = _
    rw [EStateM.run_bind]
    cases m.run (go a) <;> rfl
  rw [run_eq, run_eq]
  rcases (h _ _ inside (le.trans_eq same.symm)).cases with
    ⟨_, _, b, b', run, run', -, level', grows⟩ | ⟨f, b, b', run, run', errors⟩
  · rw [run, run']
    obtain ⟨level'', grows'⟩ := left level level' grows
    exact .ok rfl level'' grows'
  · rw [run, run']
    exact .error f errors

theorem Tracks.inScope {c c' : Checking Unit} (h : Tracks τ n Same c c') :
    Tracks τ n Same (inScope c) (inScope c') := by
  refine h.around (fun level => ⟨rfl, ?_, level.below.enter, level.loops, level.least, level.next,
    level.given, level.known, level.errors⟩) fun {a a' b b'} level level' grows => ?_
  · exact congrArg Scope.enter level.scope
  · have left : b.scope.leave = a.scope := Scope.leave_of_outer grows.outer
    have left' : b'.scope.leave = a'.scope := by
      apply Scope.leave_of_outer
      rw [level'.scope, level.scope]
      exact congrArg (List.map (translateTable τ)) grows.outer
    rw [left, left']
    exact ⟨⟨level.scope, level.below.mono grows.next, level'.loops, level'.least, level'.next,
      level'.given, level'.known, level'.errors⟩, ⟨grows.next, rfl, fun _ h => h, grows.loops⟩⟩

theorem Tracks.inLoop {c c' : Checking Unit} (h : Tracks τ n Same c c') :
    Tracks τ n Same (inLoop c) (inLoop c') :=
  h.around (fun level => ⟨rfl, level.scope, level.below, congrArg (· + 1) level.loops, level.least,
    level.next, level.given, level.known, level.errors⟩) fun _ level' grows =>
    ⟨⟨level'.scope, level'.below, congrArg (· - 1) level'.loops, level'.least, level'.next,
      level'.given, level'.known, level'.errors⟩,
      ⟨grows.next, grows.outer, grows.owns, congrArg (· - 1) grows.loops⟩⟩

end Primitives

section Reports

variable {n : Nat} {V : Nat → α → α' → Prop} {v w : Value} {t t' : Tree}

theorem tracks_complaint (told : EndsTold τ t.text t'.text) (kind : ErrorKind)
    (own : ∀ x, message x = kind.about [x]) :
    Tracks τ n Same (do report (message (← textOf t))) (do report (message (← textOf t'))) :=
  (tracks_textOf told).next fun x x' shown =>
    tracks_report kind (.cons shown .nil) (own x) (own x')

theorem tracks_refusal (told : EndsTold τ t.text t'.text) (kind : ErrorKind) {r : α} {r' : α'}
    (h : ∀ k, n ≤ k → V k r r') (own : ∀ x, message x = kind.about [x]) :
    Tracks τ n V
      (do
        let text ← textOf t
        report (message text)
        return r)
      (do
        let text ← textOf t'
        report (message text)
        return r') :=
  (tracks_textOf told).next fun x x' shown =>
    (tracks_report kind (.cons shown .nil) (own x) (own x')).then fun _ => tracks_pure h

theorem tracks_objection (below : valueBelow n v) (kind : ErrorKind)
    (own : ∀ x, message x = kind.about [x]) :
    Tracks τ n Same (do report (message (← showing v)))
      (do report (message (← showing (translateValue τ v)))) :=
  (tracks_showing below).next fun x x' shown =>
    tracks_report kind (.cons shown .nil) (own x) (own x')

theorem tracks_test [Decidable c] (below : valueBelow n v) (kind : ErrorKind)
    (own : ∀ x, message x = kind.about [x]) :
    Tracks τ n Same
      (do
        if c then
          let type ← showing v
          report (message type))
      (do
        if c then
          let type ← showing (translateValue τ v)
          report (message type)) :=
  .ite Iff.rfl (tracks_objection below kind own) (tracks_same _)

theorem tracks_mismatch (first : valueBelow n v) (second : valueBelow n w) (kind : ErrorKind)
    {message : String → String → String}
    (own : ∀ x y, message x y = kind.about [x, y]) :
    Tracks τ n Same
      (do
        let x ← showing v
        let y ← showing w
        report (message x y))
      (do
        let x ← showing (translateValue τ v)
        let y ← showing (translateValue τ w)
        report (message x y)) :=
  (tracks_showing first).next fun x x' shown => (tracks_showing second).next fun y y' shown' =>
    tracks_report kind (.cons shown (.cons shown' .nil)) (own x y) (own x' y')

theorem tracks_absent : Tracks τ n (ValueTracks τ) (pure .absent) (pure .absent) := tracks_plain _

theorem tracks_warn (t t' : Tree) : Tracks τ n (ValueTracks τ) (warn t) (warn t') :=
  (tracks_line _ _).then fun _ => tracks_absent

end Reports

end PascalStack.Analysis
