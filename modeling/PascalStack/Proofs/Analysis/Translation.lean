import PascalStack.Analysis.Check
import PascalStack.Proofs.Analysis.Scope
import PascalStack.Proofs.Tree.Respelling

/-!
# Symbols with other numbers and names

What an analyzer knows of a program does not depend on the numbers of the symbols it makes, nor on
how the program spells its names. Values, symbols and scopes are translated, which moves the numbers
of all symbols but the standard ones and renames all names but those of standard routines; what is
asked of a value or a scope has the translated answer.
-/

namespace PascalStack.Analysis

open List

def standardNames : List String := ["writeln", "write", "readln", "read", "length"]

/-- A respelling under which no two names fall together. Names that spell a standard routine in any
case stay as they are, and no other name comes to spell one. Operators and words of types are told
apart as before. -/
structure Renaming extends Respelling where
  routines : routine = name
  injective : Function.Injective name
  standard : ∀ x, Text.lower x ∈ standardNames → name x = x
  other : ∀ x, Text.lower x ∉ standardNames → Text.lower (name x) ∉ standardNames
  operators : ∀ op, operatorTable (operator op) = operatorTable op
  words : ∀ w, Text.asciiUpper (word w) = Text.asciiUpper w

abbrev Renaming.ofSpelling (ρ : Respelling) (name : ρ.name = id) (routine : ρ.routine = id)
    (operators : ∀ op, operatorTable (ρ.operator op) = operatorTable op)
    (words : ∀ w, Text.asciiUpper (ρ.word w) = Text.asciiUpper w) : Renaming where
  toRespelling := ρ
  routines := routine.trans name.symm
  injective := name ▸ Function.injective_id
  standard _ _ := by rw [name]; rfl
  other _ h := by rw [name]; exact h
  operators := operators
  words := words

def Renaming.same : Renaming := .ofSpelling {} rfl rfl (fun _ => rfl) fun _ => rfl

/-- How one analyzer follows another: a renaming, how far the numbers of symbols are moved, and the
errors that were found before. -/
structure Translation where
  names : Renaming
  shift : Nat
  before : List String

def Translation.number (τ : Translation) (i : Nat) : Nat := if i < 5 then i else i + τ.shift

def Translation.key (τ : Translation) (name : Tree) : Tree := name.mapText τ.names.name

abbrev Translation.tree (τ : Translation) (t : Tree) : Tree := t.respell τ.names.toRespelling

abbrev Translation.trees (τ : Translation) (ts : List Tree) : List Tree :=
  Tree.respellAll τ.names.toRespelling ts

theorem routine_key (τ : Translation) (name : Tree) :
    name.mapText τ.names.routine = τ.key name := by
  rw [τ.names.routines, Translation.key]

mutual

def translateValue (τ : Translation) : Value → Value
  | .plain t => .plain t
  | .list xs => .list (translateValues τ xs)
  | .tuple xs => .tuple (translateValues τ xs)
  | .symbol s => .symbol (translateSymbol τ s)

def translateValues (τ : Translation) : List Value → List Value
  | [] => []
  | x :: xs => translateValue τ x :: translateValues τ xs

def translateSymbol (τ : Translation) : SymbolOf Value → SymbolOf Value
  | ⟨id, name, type, initialized, constant, value, role⟩ =>
    ⟨τ.number id, τ.key name, translateValue τ type, initialized, constant, value,
      translateRole τ role⟩

def translateRole (τ : Translation) : Role Value → Role Value
  | .variable => .variable
  | .routine params isFunction => .routine (translateValues τ params) isFunction
  | .array element dimensions => .array (translateValue τ element) (translateValue τ dimensions)

end

mutual

def valueBelow (n : Nat) : Value → Prop
  | .plain _ => True
  | .list xs => valuesBelow n xs
  | .tuple xs => valuesBelow n xs
  | .symbol s => symbolBelow n s

def valuesBelow (n : Nat) : List Value → Prop
  | [] => True
  | x :: xs => valueBelow n x ∧ valuesBelow n xs

def symbolBelow (n : Nat) : SymbolOf Value → Prop
  | ⟨id, _, type, _, _, _, role⟩ => 5 ≤ id ∧ id < n ∧ valueBelow n type ∧ roleBelow n role

def roleBelow (n : Nat) : Role Value → Prop
  | .variable => True
  | .routine params _ => valuesBelow n params
  | .array element dimensions => valueBelow n element ∧ valueBelow n dimensions

end

section Bounds

variable {m n : Nat}

mutual

theorem valueBelow_mono (le : m ≤ n) (v : Value) (h : valueBelow m v) : valueBelow n v := by
  match v with
  | .plain _ => trivial
  | .list xs | .tuple xs => exact valuesBelow_mono le xs h
  | .symbol s => exact symbolBelow_mono le s h

theorem valuesBelow_mono (le : m ≤ n) (vs : List Value) (h : valuesBelow m vs) : valuesBelow n vs := by
  match vs with
  | [] => trivial
  | v :: rest => exact ⟨valueBelow_mono le v h.1, valuesBelow_mono le rest h.2⟩

theorem symbolBelow_mono (le : m ≤ n) (s : SymbolOf Value) (h : symbolBelow m s) : symbolBelow n s := by
  match s with
  | ⟨id, _, type, _, _, _, role⟩ =>
    obtain ⟨own, below, typed, parts⟩ := h
    exact ⟨own, Nat.lt_of_lt_of_le below le, valueBelow_mono le type typed, roleBelow_mono le role parts⟩

theorem roleBelow_mono (le : m ≤ n) (r : Role Value) (h : roleBelow m r) : roleBelow n r := by
  match r with
  | .variable => trivial
  | .routine params _ => exact valuesBelow_mono le params h
  | .array element dimensions =>
    exact ⟨valueBelow_mono le element h.1, valueBelow_mono le dimensions h.2⟩

end

end Bounds

variable {vs : List Value} {s : Symbol} {entry : Tree × Symbol} {table : Table}

theorem valuesBelow_iff {n : Nat} : valuesBelow n vs ↔ ∀ v ∈ vs, valueBelow n v := by
  induction vs with
  | nil => simp [valuesBelow]
  | cons v rest ih => simp [valuesBelow, ih]

variable {τ : Translation}

theorem translateValues_eq_map (vs : List Value) :
    translateValues τ vs = vs.map (translateValue τ) := by
  induction vs with
  | nil => rfl
  | cons v rest ih => rw [translateValues, ih, map_cons]

section Fields

variable (s : Symbol)

@[simp] theorem translateSymbol_name : (translateSymbol τ s).name = τ.key s.name := by
  cases s
  rfl

@[simp] theorem translateSymbol_type :
    (translateSymbol τ s).type = translateValue τ s.type := by
  cases s
  rfl

@[simp] theorem translateSymbol_id : (translateSymbol τ s).id = τ.number s.id := by
  cases s
  rfl

@[simp] theorem translateSymbol_initialized :
    (translateSymbol τ s).initialized = s.initialized := by
  cases s
  rfl

@[simp] theorem translateSymbol_constant : (translateSymbol τ s).constant = s.constant := by
  cases s
  rfl

@[simp] theorem translateSymbol_role :
    (translateSymbol τ s).role = translateRole τ s.role := by
  cases s
  rfl

end Fields

/-! ## Values -/

section Values

variable (v : Value)

theorem truthy_translate : (translateValue τ v).truthy = v.truthy := by
  cases v with
  | list xs | tuple xs => cases xs <;> rfl
  | _ => rfl

theorem isNamed_translate (name : String) : (translateValue τ v).isNamed name = v.isNamed name := by
  cases v <;> rfl

theorem isOneOf_translate (names : List String) :
    (translateValue τ v).isOneOf names = v.isOneOf names := by
  simp only [Value.isOneOf, isNamed_translate]

theorem isAbsent_translate : (translateValue τ v).isAbsent = v.isAbsent := by
  cases v <;> rfl

theorem text?_translate : text? (translateValue τ v) = text? v := by
  cases v <;> rfl

theorem kindName_translateRole (s : Symbol) : (translateSymbol τ s).kindName = s.kindName := by
  obtain ⟨_, _, _, _, _, _, role⟩ := s
  cases role <;> rfl

theorem kindName_translate : (translateValue τ v).kindName = v.kindName := by
  cases v with
  | symbol s => exact kindName_translateRole s
  | _ => rfl

theorem tupleItems?_translate :
    (translateValue τ v).tupleItems? = v.tupleItems?.map (translateValues τ) := by
  cases v with
  | plain t =>
    cases t with
    | tuple ts =>
      have plain : translateValues τ (ts.map Value.plain) = ts.map Value.plain := by
        rw [translateValues_eq_map, map_map]
        exact map_congr_left fun _ _ => rfl
      exact congrArg some plain.symm
    | _ => rfl
  | _ => rfl

theorem orEmpty_translate : (translateValue τ v).orEmpty = translateValue τ v.orEmpty := by
  rw [Value.orEmpty, Value.orEmpty, truthy_translate]
  split <;> rfl

theorem trees?_translate (vs : List Value) :
    Value.trees? (translateValues τ vs) = Value.trees? vs := by
  have tree (v : Value) : (translateValue τ v).tree? = v.tree? := by cases v <;> rfl
  rw [Value.trees?, Value.trees?, translateValues_eq_map, mapM_map]
  exact congrArg (vs.mapM ·) (funext tree)

theorem tupleOf_translate (vs : List Value) :
    Value.tupleOf (translateValues τ vs) = translateValue τ (Value.tupleOf vs) := by
  rw [Value.tupleOf, Value.tupleOf, trees?_translate]
  cases Value.trees? vs <;> rfl

theorem listOf_translate (vs : List Value) :
    Value.listOf (translateValues τ vs) = translateValue τ (Value.listOf vs) := by
  rw [Value.listOf, Value.listOf, trees?_translate]
  cases Value.trees? vs <;> rfl

end Values

mutual

theorem valueFlaw?_translate (v : Value) : valueFlaw? (translateValue τ v) = valueFlaw? v := by
  match v with
  | .plain _ | .list _ | .symbol _ => rfl
  | .tuple xs => exact valuesFlaw?_translate xs

theorem valuesFlaw?_translate (vs : List Value) :
    valuesFlaw? (translateValues τ vs) = valuesFlaw? vs := by
  match vs with
  | [] => rfl
  | v :: rest =>
    rw [translateValues, valuesFlaw?, valuesFlaw?, valueFlaw?_translate v,
      valuesFlaw?_translate rest]

end

section Answers

variable (v w : Value)

theorem checkValueKey_translate : checkValueKey (translateValue τ v) = checkValueKey v := by
  rw [checkValueKey, checkValueKey, valueFlaw?_translate]

theorem compatible_translate :
    compatible (translateValue τ v) (translateValue τ w) = compatible v w := by
  simp only [compatible, isNamed_translate, isOneOf_translate, checkValueKey_translate,
    text?_translate, kindName_translate]

theorem operationType?_translate (operator : Tree) :
    operationType? (operator.mapText τ.names.operator) (translateValue τ v) (translateValue τ w) =
      operationType? operator v w := by
  simp only [operationType?, checkValueKey_translate, text?_translate]
  cases operator with
  | str op =>
    cases text? v with
    | none => rfl
    | some l =>
      cases text? w with
      | none => rfl
      | some r =>
        simp only [Tree.mapText, τ.names.operators]
        rfl
  | _ => rfl

theorem unaryType?_translate (operator : Tree) :
    unaryType? operator (translateValue τ v) = unaryType? operator v := by
  simp only [unaryType?, checkValueKey_translate, text?_translate]

theorem paramsOf_translate :
    paramsOf (translateValue τ v) = (paramsOf v).map (translateValues τ) := by
  cases v with
  | symbol s =>
    obtain ⟨_, _, _, _, _, _, role⟩ := s
    cases role <;> rfl
  | _ => rfl

theorem paramType_translate :
    paramType (translateValue τ v) = (paramType v).map (translateValue τ) := by
  cases v with
  | symbol s => exact congrArg Except.ok (translateSymbol_type s)
  | _ => rfl

theorem resultType_translate (s : Symbol) :
    resultType (translateSymbol τ s) = translateValue τ (resultType s) := by
  obtain ⟨_, _, _, _, _, _, role⟩ := s
  cases role with
  | routine params isFunction => cases isFunction <;> rfl
  | _ => rfl

end Answers

section Below

variable {n : Nat} {v : Value}

theorem valueBelow_plain (t : Tree) : valueBelow n (.plain t) := trivial

theorem symbolBelow_iff :
    symbolBelow n s ↔ 5 ≤ s.id ∧ s.id < n ∧ valueBelow n s.type ∧ roleBelow n s.role := by
  cases s
  exact Iff.rfl

theorem valuesBelow_paramsOf (h : valueBelow n v) {params : List Value} (found : paramsOf v = .ok params) :
    valuesBelow n params := by
  cases v with
  | symbol s =>
    obtain ⟨_, _, _, _, _, _, role⟩ := s
    cases role with
    | routine wanted isFunction =>
      cases found
      exact h.2.2.2
    | _ => cases found
  | _ => cases found

theorem valueBelow_paramType (h : valueBelow n v) {type : Value} (found : paramType v = .ok type) :
    valueBelow n type := by
  cases v with
  | symbol s =>
    cases found
    exact (symbolBelow_iff.mp h).2.2.1
  | _ => cases found

theorem valuesBelow_tupleItems? (h : valueBelow n v) {items : List Value}
    (found : v.tupleItems? = some items) : valuesBelow n items := by
  cases v with
  | plain t =>
    cases t with
    | tuple ts =>
      cases found
      rw [valuesBelow_iff]
      intro v member
      obtain ⟨t, -, rfl⟩ := mem_map.mp member
      trivial
    | _ => cases found
  | tuple xs =>
    cases found
    exact h
  | _ => cases found

theorem valueBelow_orEmpty (h : valueBelow n v) : valueBelow n v.orEmpty := by
  rw [Value.orEmpty]
  split
  · exact h
  · trivial

theorem valueBelow_tupleOf (h : valuesBelow n vs) : valueBelow n (Value.tupleOf vs) := by
  rw [Value.tupleOf]
  cases Value.trees? vs with
  | none => exact h
  | some ts => trivial

theorem valueBelow_listOf (h : valuesBelow n vs) : valueBelow n (Value.listOf vs) := by
  rw [Value.listOf]
  cases Value.trees? vs with
  | none => exact h
  | some ts => trivial

end Below

/-! ## Scopes -/

theorem same_key (k l : Tree) : Tree.same (τ.key k) (τ.key l) = Tree.same k l := by
  have texts (x : String) (t : Tree) (other : ∀ y, t ≠ .str y) :
      Tree.same (.str x) t = false ∧ Tree.same t (.str x) = false := by
    simp only [← Bool.not_eq_true, Tree.same_str_left, Tree.same_str_right]
    exact ⟨other x, other x⟩
  have kept (t : Tree) (other : ∀ y, t ≠ .str y) : τ.key t = t := by
    cases t with
    | str y => exact absurd rfl (other y)
    | _ => rfl
  by_cases first : ∃ x, k = .str x
  · obtain ⟨x, rfl⟩ := first
    by_cases second : ∃ y, l = .str y
    · obtain ⟨y, rfl⟩ := second
      change Tree.same (.str (τ.names.name x)) (.str (τ.names.name y)) = _
      rw [Tree.same_str, Tree.same_str, Bool.eq_iff_iff, beq_iff_eq, beq_iff_eq,
        τ.names.injective.eq_iff]
    · have other : ∀ y, l ≠ .str y := not_exists.mp second
      rw [kept l other, (texts x l other).1]
      exact (texts _ l other).1
  · have other : ∀ x, k ≠ .str x := not_exists.mp first
    rw [kept k other]
    by_cases second : ∃ y, l = .str y
    · obtain ⟨y, rfl⟩ := second
      rw [(texts y k other).2]
      exact (texts _ k other).2
    · rw [kept l (not_exists.mp second)]

def translateEntry (τ : Translation) (entry : Tree × Symbol) : Tree × Symbol :=
  (τ.key entry.1, translateSymbol τ entry.2)

def translateTable (τ : Translation) (table : Table) : Table := table.map (translateEntry τ)

theorem find?_translateTable (table : Table) (name : Tree) :
    Dictionary.find? (translateTable τ table) (τ.key name) =
      (Dictionary.find? table name).map (translateSymbol τ) := by
  have tests : (fun entry => Tree.same entry.1 (τ.key name)) ∘ translateEntry τ =
      fun entry => Tree.same entry.1 name := funext fun entry => same_key entry.1 name
  rw [Dictionary.find?, Dictionary.find?, translateTable, find?_map, tests, Option.map_map,
    Option.map_map]
  rfl

theorem insert_translateTable (table : Table) (name : Tree) (s : Symbol) :
    Dictionary.insert (translateTable τ table) (τ.key name) (translateSymbol τ s) =
      translateTable τ (Dictionary.insert table name s) := by
  induction table with
  | nil => rfl
  | cons entry rest ih =>
    rw [translateTable, map_cons, Dictionary.insert, Dictionary.insert, translateEntry,
      same_key]
    split
    · rfl
    · exact congrArg _ ih

def translateScope (τ : Translation) (s : Scope) : Scope :=
  ⟨translateTable τ s.table, s.outer.map (translateTable τ)⟩

theorem find?_translateScope (s : Scope) (name : Tree) :
    (translateScope τ s).find? (τ.key name) = (s.find? name).map (translateSymbol τ) := by
  have tables : (fun table => Dictionary.find? table (τ.key name)) ∘ translateTable τ =
      Option.map (translateSymbol τ) ∘ fun table => Dictionary.find? table name :=
    funext fun table => find?_translateTable table name
  change ((s.table :: s.outer).map (translateTable τ)).findSome? _ = _
  rw [findSome?_map, tables, Scope.find?, map_findSome?]

theorem findHere?_translateScope (s : Scope) (name : Tree) :
    (translateScope τ s).findHere? (τ.key name) = (s.findHere? name).map (translateSymbol τ) :=
  find?_translateTable s.table name

theorem define_translateScope (s : Scope) (symbol : Symbol) :
    (translateScope τ s).define (translateSymbol τ symbol) = translateScope τ (s.define symbol) := by
  rw [Scope.define, Scope.define, translateScope, translateScope, translateSymbol_name,
    insert_translateTable]

def standardSymbols : List Symbol := standardProcedures ++ standardFunctions

theorem translate_standard (h : s ∈ standardSymbols) : translateSymbol τ s = s := by
  have kept : ∀ x ∈ standardNames, τ.names.name x = x := by
    have lowered : ∀ x ∈ standardNames, Text.lower x ∈ standardNames := by decide +kernel
    exact fun x member => τ.names.standard x (lowered x member)
  have routine {i : Nat} {name type : String} {isFunction : Bool} (first : i < 5)
      (known : name ∈ standardNames) :
      translateSymbol τ (standardRoutine i name isFunction type) =
        standardRoutine i name isFunction type := by
    have number : τ.number i = i := if_pos first
    have key : τ.key (.str name) = .str name := congrArg Tree.str (kept name known)
    rw [standardRoutine, translateSymbol, number, key]
    rfl
  simp only [standardSymbols, standardProcedures, standardFunctions, cons_append,
    nil_append, mem_cons, not_mem_nil, or_false] at h
  rcases h with rfl | rfl | rfl | rfl | rfl <;> exact routine (by decide) (by decide)

theorem id_lt_of_standard (h : s ∈ standardSymbols) : s.id < 5 := by
  have all : ∀ i ∈ standardSymbols.map SymbolOf.id, i < 5 := by decide
  exact all _ (mem_map_of_mem h)

theorem valueBelow_standard (h : s ∈ standardSymbols) (n : Nat) :
    valueBelow n s.type ∧ roleBelow n s.role := by
  simp only [standardSymbols, standardProcedures, standardFunctions, cons_append,
    nil_append, mem_cons, not_mem_nil, or_false] at h
  rcases h with rfl | rfl | rfl | rfl | rfl <;> exact ⟨trivial, trivial⟩

def symbolKnown (n : Nat) (s : Symbol) : Prop := symbolBelow n s ∨ s ∈ standardSymbols

def entryBelow (n : Nat) (entry : Tree × Symbol) : Prop :=
  symbolBelow n entry.2 ∨ (∃ x, entry.1 = .str x) ∧ entry.2 ∈ standardSymbols

def scopeBelow (n : Nat) (s : Scope) : Prop :=
  ∀ table ∈ s.table :: s.outer, ∀ entry ∈ table, entryBelow n entry

def Owns (s : Scope) (name : Tree) : Prop :=
  ∀ x, name = .str x → ∃ symbol, Dictionary.find? s.table name = some symbol ∧ 5 ≤ symbol.id

section Scopes

variable {m n : Nat} {s : Scope} {symbol : Symbol} {name : Tree}

theorem symbolKnown.typed (h : symbolKnown n symbol) :
    valueBelow n symbol.type ∧ roleBelow n symbol.role := by
  rcases h with below | standard
  · exact (symbolBelow_iff.mp below).2.2
  · exact valueBelow_standard standard n

theorem entryBelow.mono (h : entryBelow m entry) (le : m ≤ n) :
    entryBelow n entry := h.imp_left (symbolBelow_mono le _)

theorem scopeBelow.mono (h : scopeBelow m s) (le : m ≤ n) : scopeBelow n s :=
  fun table inside entry member => (h table inside entry member).mono le

theorem exists_entry (found : Dictionary.find? table name = some symbol) :
    ∃ entry ∈ table, Tree.same entry.1 name = true ∧ entry.2 = symbol := by
  obtain ⟨entry, hit, rfl⟩ := Option.map_eq_some_iff.mp found
  have same := find?_some hit
  exact ⟨entry, mem_of_find?_eq_some hit, same, rfl⟩

theorem scopeBelow.found (h : scopeBelow n s) (found : s.find? name = some symbol) :
    symbolKnown n symbol := by
  obtain ⟨table, inside, hit⟩ := exists_of_findSome?_eq_some found
  obtain ⟨entry, member, -, rfl⟩ := exists_entry hit
  rcases h table inside entry member with below | ⟨-, standard⟩
  · exact .inl below
  · exact .inr standard

theorem scopeBelow.owned (h : scopeBelow n s) (owns : Owns s name)
    (found : s.find? name = some symbol) : symbolBelow n symbol := by
  obtain ⟨table, inside, hit⟩ := exists_of_findSome?_eq_some found
  obtain ⟨entry, member, same, rfl⟩ := exists_entry hit
  rcases h table inside entry member with below | ⟨⟨x, key⟩, standard⟩
  · exact below
  · rw [key] at same
    obtain ⟨own, here, number⟩ := owns x (Tree.same_str_left.mp same)
    have own_eq : own = entry.2 := by
      rw [Scope.find?, findSome?_cons, here] at found
      exact Option.some.inj found
    rw [own_eq] at number
    exact absurd number (Nat.not_le_of_lt (id_lt_of_standard standard))

theorem entry_of_insert (h : entry ∈ Dictionary.insert table name symbol) :
    entry ∈ table ∨ entry.2 = symbol ∧ (entry.1 = name ∨ ∃ other ∈ table, other.1 = entry.1) := by
  induction table with
  | nil =>
    rw [Dictionary.insert, mem_singleton] at h
    exact .inr ⟨by rw [h], .inl (by rw [h])⟩
  | cons first rest ih =>
    rw [Dictionary.insert] at h
    split at h
    · rcases mem_cons.mp h with rfl | later
      · exact .inr ⟨rfl, .inr ⟨first, mem_cons_self, rfl⟩⟩
      · exact .inl (mem_cons_of_mem _ later)
    · rcases mem_cons.mp h with rfl | later
      · exact .inl mem_cons_self
      · rcases ih later with old | ⟨value, same | ⟨other, known, same⟩⟩
        · exact .inl (mem_cons_of_mem _ old)
        · exact .inr ⟨value, .inl same⟩
        · exact .inr ⟨value, .inr ⟨other, mem_cons_of_mem _ known, same⟩⟩

theorem scopeBelow.define (h : scopeBelow n s) (below : symbolBelow n symbol) :
    scopeBelow n (s.define symbol) := by
  intro table inside entry member
  rcases mem_cons.mp inside with rfl | outer
  · rcases entry_of_insert member with old | ⟨rfl, -⟩
    · exact h _ mem_cons_self entry old
    · exact .inl below
  · exact h table (mem_cons_of_mem _ outer) entry member

theorem scopeBelow.enter (h : scopeBelow n s) : scopeBelow n s.enter := by
  intro table inside entry member
  rcases mem_cons.mp inside with rfl | outer
  · cases member
  · exact h table outer entry member

theorem owns_define (number : 5 ≤ symbol.id) : Owns (s.define symbol) symbol.name := by
  intro x named
  rw [Scope.define, named]
  exact ⟨symbol, Dictionary.find?_insert_self _ _ _, number⟩

theorem Owns.define (h : Owns s name) (number : 5 ≤ symbol.id) : Owns (s.define symbol) name := by
  rintro x rfl
  obtain ⟨own, here, old⟩ := h x rfl
  rw [Scope.define]
  by_cases named : symbol.name = .str x
  · rw [named]
    exact ⟨symbol, Dictionary.find?_insert_self _ _ _, number⟩
  · rw [Scope.find?_insert_of_ne _ _ named]
    exact ⟨own, here, old⟩

end Scopes

theorem translate_standardScope : translateScope τ standardScope = standardScope := by
  have defined (symbols : List Symbol) (known : ∀ s ∈ symbols, s ∈ standardSymbols) (s : Scope) :
      translateScope τ (symbols.foldl Scope.define s) =
        symbols.foldl Scope.define (translateScope τ s) := by
    induction symbols generalizing s with
    | nil => rfl
    | cons symbol rest ih =>
      rw [forall_mem_cons] at known
      rw [foldl_cons, foldl_cons, ih known.2, ← define_translateScope,
        translate_standard known.1]
  exact defined standardSymbols (fun _ member => member) {}

theorem standardScope_eq : standardScope = ⟨standardSymbols.map fun s => (s.name, s), []⟩ := by
  simp [standardScope, standardSymbols, standardProcedures, standardFunctions, standardRoutine,
    Scope.define, Dictionary.insert, Tree.same_str]

theorem scopeBelow_standardScope (n : Nat) : scopeBelow n standardScope := by
  rw [standardScope_eq]
  intro table inside entry member
  obtain rfl := mem_singleton.mp inside
  obtain ⟨s, known, rfl⟩ := mem_map.mp member
  refine .inr ⟨?_, known⟩
  simp only [standardSymbols, standardProcedures, standardFunctions, cons_append,
    nil_append, mem_cons, not_mem_nil, or_false] at known
  rcases known with rfl | rfl | rfl | rfl | rfl <;> exact ⟨_, rfl⟩

end PascalStack.Analysis
