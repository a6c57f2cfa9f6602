import PascalStack.Proofs.Code.Pairing.Basic
import PascalStack.Proofs.Syntax.Respelling

/-!
# The code of expressions side by side

An expression serves its events, by itself and as an operand, and the expression as it is spelt on a
side has the same code, where they are undisturbed.
-/

namespace PascalStack.Code

open Generating Syntax

/-- A respelling that spells names as on a side, and operators, directions and types so that their
code stays the same. -/
structure Suits (x y : String) (side : Side) (ρ : Respelling) : Prop extends ρ.Modest where
  name : ∀ z, ρ.name z = side.name x y z
  operator : ∀ op, Operation.ofOperator? (.str (ρ.operator op)) = Operation.ofOperator? (.str op)
  direction : ∀ d, ρ.direction d = "to" ↔ d = "to"
  word : ∀ w, Text.lower (ρ.word w) = Text.lower w

variable {x y z : String} {side : Side} {s : Site} {ρ : Respelling} {o : Origins}

def resultOf : Expression → Tree
  | .name x | .element x _ => .str x
  | .literal l => .tuple [.str l.typeName, l.value]
  | .call .. | .length _ | .negation .. | .operation .. => .none

variable {e : Expression} {lookup : Tree → Generating Cell} {reach : Reach} {k : Known}
  {g : Generator} {es : List Event}

theorem resultOf_variable (h : e.named? = some z) : resultOf e = .str z := by
  cases e <;> simp_all [Expression.named?, resultOf]

theorem resultOf_other (h : e.named? = none) (z : String) : resultOf e ≠ .str z := by
  cases e <;> simp_all [Expression.named?, resultOf]

theorem events_variable (h : e.named? = some z) : e.events s = [] := by
  cases e <;> simp_all [Expression.named?, Expression.events]

theorem named?_respell (e : Expression) : (e.respell ρ).named? = e.named?.map ρ.name := by
  cases e <;> rfl

theorem resultOf_respell (h : e.named? = none) : resultOf (e.respell ρ) = resultOf e := by
  cases e <;> first | rfl | cases h

def Results (ρ : Respelling) (e : Expression) (v v' : Tree) : Prop :=
  v = resultOf e ∧ v' = resultOf (e.respell ρ)

theorem coupled_lookup (suits : Suits x y side ρ) {lookup : Tree → Generating Cell} {reach : Reach}
    {e : Expression} (locates : Locates x y side s lookup reach)
    (run : CoupledAt x y side s (generate e.tree) (generate (e.respell ρ).tree) (e.events s)
      (Results ρ e)) :
    CoupledAt x y side s (do lookup (← generate e.tree)) (do lookup (← generate (e.respell ρ).tree))
      [e.used reach] Eq := by
  cases named : e.named? with
  | some z =>
    have respelt : (e.respell ρ).named? = some (side.name x y z) := by
      rw [named?_respell, named, Option.map_some, suits.name]
    rw [events_variable named] at run
    rw [Expression.used, named]
    refine CoupledAt.seq run ?_
    rintro _ _ ⟨rfl, rfl⟩
    rw [resultOf_variable named, resultOf_variable respelt]
    exact locates.named z
  | none =>
    have stops : ∀ v v', Results ρ e v v' →
        CoupledAt x y side s (lookup v) (lookup v') [.fails] Eq := by
      rintro _ _ ⟨rfl, rfl⟩
      rw [resultOf_respell named]
      exact locates.other _ (resultOf_other named)
    rw [Expression.used, named]
    exact CoupledAt.of_fails (CoupledAt.bind run stops)

theorem coupled_code {lookup lookup' : Generating Cell} {e : Event}
    (found : CoupledAt x y side s lookup lookup' [e] Eq) (code : Cell → List Instruction)
    (plain : ∀ cell, (code cell).all Instruction.isPlain = true) :
    JointAt x y side s (do
      let cell ← lookup
      emit (code cell)) (do
      let cell ← lookup'
      emit (code cell)) [e] := by
  refine CoupledAt.bind found ?_
  rintro cell _ rfl
  exact coupled_emit (code cell) (plain cell)

theorem coupled_load (suits : Suits x y side ρ) (locates : Locates x y side s lookup reach)
    (z : String) :
    JointAt x y side s (do
      let cell ← lookup (.str z)
      emit [.load cell]) (do
      let cell ← lookup (.str (ρ.name z))
      emit [.load cell]) [.uses reach z] := by
  rw [suits.name]
  exact coupled_code (locates.named z) (fun cell => [.load cell]) fun _ => rfl

theorem coupled_arguments (suits : Suits x y side ρ) {arguments : List Expression}
    (each : ∀ e ∈ arguments, CoupledAt x y side s (generate e.tree) (generate (e.respell ρ).tree)
      (e.events s) (Results ρ e)) :
    JointAt x y side s (generateAll passArgument (Expression.trees arguments))
      (generateAll passArgument (Expression.trees (Expression.respellAll ρ arguments)))
      (arguments.map (Expression.used .program)) := by
  induction arguments with
  | nil => exact coupled_pure trivial
  | cons e rest ih =>
    rw [List.forall_mem_cons] at each
    rw [Expression.respellAll, Expression.trees, Expression.trees, generateAll, generateAll,
      List.map_cons]
    have cell : CoupledAt x y side s (do globalCell (← generate e.tree))
        (do globalCell (← generate (e.respell ρ).tree)) [e.used .program] Eq :=
      coupled_lookup suits locates_globalCell each.1
    have whole := CoupledAt.bind (coupled_code cell (fun cell => [.load cell]) fun _ => rfl)
      fun _ _ _ => ih each.2
    simp only [bind_assoc] at whole
    simp only [passArgument, bind_assoc]
    exact whole

theorem run_typeOf_ok {type : String} (knows : Knows k g) (typed : k.type? z = some type) :
    (typeOf (.str z)).run g = .ok type g := by
  have found : g.types.get (.str z) = .ok type := by
    simp only [Dictionary.get, Tree.checkKey_str, knows.types, typed]
    rfl
  simp only [typeOf, EStateM.run_bind, EStateM.run_get, found, run_ofExcept_ok]

theorem run_typeOf_error (knows : Knows k g) (untyped : k.type? z = none) :
    ∃ f, (typeOf (.str z)).run g = .error f g := by
  have missing : g.types.get (.str z) = .error (.missingKey (Text.quoted z)) := by
    simp only [Dictionary.get, Tree.checkKey_str, knows.types, untyped]
    rfl
  refine ⟨.missingKey (Text.quoted z), ?_⟩
  simp only [typeOf, EStateM.run_bind, EStateM.run_get, missing, run_ofExcept_error]

/-- An event that comes to the events `first` and to a look at the type of `z`, and then, if the type
is `τ`, to the events `later τ`. -/
structure Branches (x : String) (side : Side) (e : Event) (first : List Event) (z : String)
    (later : String → List Event) : Prop where
  names : z ∈ e.names ∧ ∀ e' ∈ first, e'.names ⊆ e.names
  met : ∀ k : Known, e.Met k ↔ SuppliedFrom k first ∧ ∃ τ ∈ k.type? z, SuppliedFrom k (later τ)
  after : ∀ k : Known, k.afterAll first = k ∧ ∀ τ ∈ k.type? z, k.after e = k.afterAll (later τ)
  clear : ∀ o, e.Clear x o side → ClearFrom x o (side.events first) ∧ (z = x → From side o.declared)
  origins : ∀ o : Origins, o.afterAll x (side.events first) = o ∧
    ∀ τ ∈ o.type? z, o.after x side e = o.afterAll x (side.events (later τ))

section Branches

variable {e : Event} {first : List Event} {later : String → List Event} {p p' : Generating Unit}
  {m m' : String → Generating Unit}

theorem Branches.serves (h : Branches x side e first z later)
    (prelude : ServesAt s p first fun _ => True)
    (each : ∀ τ, ServesAt s (m τ) (later τ) fun _ => True) :
    ServesAt s (do
      p
      m (← typeOf (.str z))) [e] fun _ => True := by
  refine serves_event (fun k g knows site met => ?_) fun k g knows site unmet => ?_
  · obtain ⟨early, τ, typed, late⟩ := (h.met k).mp met
    obtain ⟨_, g₁, run₁, -, knows₁, site₁⟩ := (prelude k g knows site).1 early
    rw [(h.after k).1] at knows₁
    obtain ⟨a, g₂, run₂, -, knows₂, site₂⟩ := (each τ k g₁ knows₁ site₁).1 late
    refine ⟨a, g₂, ?_, trivial, (h.after k).2 τ typed ▸ knows₂, site₂⟩
    simp only [EStateM.run_bind, run₁, run_typeOf_ok knows₁ typed, run₂]
  · by_cases early : SuppliedFrom k first
    · obtain ⟨_, g₁, run₁, -, knows₁, site₁⟩ := (prelude k g knows site).1 early
      rw [(h.after k).1] at knows₁
      simp only [EStateM.run_bind, run₁]
      cases typed : k.type? z with
      | none =>
        obtain ⟨f, stopped⟩ := run_typeOf_error knows₁ typed
        exact ⟨f, g₁, by rw [stopped]⟩
      | some τ =>
        rw [run_typeOf_ok knows₁ typed]
        exact (each τ k g₁ knows₁ site₁).2 fun late => unmet ((h.met k).mpr ⟨early, τ, typed, late⟩)
    · obtain ⟨f, g₁, run₁⟩ := (prelude k g knows site).2 early
      exact ⟨f, g₁, by rw [EStateM.run_bind, run₁]⟩

theorem Branches.paired (h : Branches x side e first z later)
    (prelude : PairedAt x y side s p p' first fun _ _ => True)
    (each : ∀ o τ, (x = y ∨ (e.Clear x o side ∧ y ∉ e.names)) → (x ≠ y → o.type? z = some τ) →
      Alike (Stopped x y) (fun g h => At s g ∧ Together x y o g h) (fun _ _ => True)
        (fun g h => At s g ∧ Together x y (o.afterAll x (side.events (later τ))) g h)
        (m τ) (m' τ)) :
    PairedAt x y side s (do
      p
      m (← typeOf (.str z))) (do
      p'
      m' (← typeOf (.str (side.name x y z)))) [e] fun _ _ => True := by
  intro o undisturbed
  have undisturbed := undisturbed.of_event
  have early : Undisturbed x y o (side.events first) := by
    refine undisturbed.imp_right fun both => ⟨(h.clear o both.1).1, fun e' member named => ?_⟩
    obtain ⟨_, early, rfl⟩ := List.mem_map.mp member
    exact both.2 (h.names.2 _ early named)
  have keys : Keys x y side (From side o.declared) (.str z) (.str (side.name x y z)) :=
    keys_name (undisturbed.imp_right fun both => ⟨(h.clear o both.1).2, fun named =>
      both.2 (List.mem_singleton.mp named ▸ h.names.1)⟩)
  have begun := prelude o early
  rw [(h.origins o).1] at begun
  refine begun.bind fun _ _ _ => Alike.bind (fun g h t => ends_typeOf t keys) ?_
  rintro τ _ ⟨rfl, known⟩
  have rest := each o _ undisturbed known
  by_cases same : x = y
  · subst same
    exact rest.weaken (fun _ _ => id) fun _ _ => And.imp_right Together.retag
  · rw [← (h.origins o).2 _ (known same)] at rest
    exact rest

end Branches

theorem used_cases (e : Expression) (reach : Reach) :
    (∃ w, e.named? = some w ∧ e.used reach = .uses reach w) ∨
      (e.named? = none ∧ e.used reach = .fails) := by
  cases named : e.named? with
  | some w => exact .inl ⟨w, rfl, by rw [Expression.used, named]⟩
  | none => exact .inr ⟨rfl, by rw [Expression.used, named]⟩

theorem branches_indexes (reach : Reach) (z : String) (index : Expression) :
    Branches x side (.indexes reach z index.named?) [.uses .program z] z
      fun τ => if τ == "string" then [index.used reach] else [] := by
  refine ⟨⟨List.mem_cons_self, by simp [Event.names]⟩, fun k => ?_, fun k => ⟨rfl, fun τ _ => ?_⟩,
    fun o clear => ⟨⟨fun named => (clear.1 named).1, trivial⟩, fun named => (clear.1 named).2⟩,
    fun o => ⟨rfl, fun τ _ => ?_⟩⟩
  · simp only [Event.Met, suppliedFrom_cons, suppliedFrom_nil, and_true]
    refine and_congr Iff.rfl (exists_congr fun τ => and_congr_right fun _ => ?_)
    by_cases string : τ = "string"
    · rcases used_cases index reach with ⟨w, named, used⟩ | ⟨named, used⟩ <;>
        simp [string, named, used, Event.Met]
    · simp [string]
  · rcases used_cases index reach with ⟨w, _, used⟩ | ⟨_, used⟩ <;> rw [used] <;> split <;> rfl
  · rcases used_cases index reach with ⟨w, _, used⟩ | ⟨_, used⟩ <;> rw [used] <;> split <;> rfl

theorem pushElement_eq (name : Tree) (run : Generating Tree) :
    pushElement name run = (do
      (do
        let cell ← globalCell name
        emit [.load cell])
      if (← typeOf name) == "string" then
        let cell ← (do variableCell (← run))
        emit [.load cell, .push (.int 1), .operate .sub, .charat]) := by
  simp only [pushElement, bind_assoc]

theorem coupled_element (suits : Suits x y side ρ) {index : Expression} (z : String)
    (run : CoupledAt x y side s (generate index.tree) (generate (index.respell ρ).tree)
      (index.events s) (Results ρ index)) :
    JointAt x y side s (pushElement (.str z) (generate index.tree))
      (pushElement (.str (ρ.name z)) (generate (index.respell ρ).tree))
      [.indexes s.reading z index.named?] := by
  have at_index := coupled_code (coupled_lookup suits locates_variableCell run)
    (fun cell => [.load cell, .push (.int 1), .operate .sub, .charat]) fun _ => rfl
  have load : JointAt x y side s _ _ _ :=
    coupled_code (locates_globalCell.named z) (fun cell => [.load cell]) fun _ => rfl
  have branches : Branches x side _ _ _ _ := branches_indexes s.reading z index
  rw [suits.name, pushElement_eq, pushElement_eq]
  refine .mk (branches.serves load.served fun τ => .ite at_index.served (serves_pure trivial))
    (branches.paired load.paired fun o τ clear known => ?_) fun _ => ⟨(), trivial⟩
  refine Alike.ite Iff.rfl (fun string => ?_) fun other => ?_
  · rw [if_pos string]
    refine at_index.paired o ?_
    by_cases same : x = y
    · exact .inl same
    · obtain ⟨own, free⟩ := clear.resolve_left same
      obtain ⟨w, named, found⟩ := own.2 ((known same).trans (congrArg some (beq_iff_eq.mp string)))
      rw [Expression.used, Option.mem_def.mp named]
      refine .inr ⟨⟨found, trivial⟩, ?_⟩
      rintro _ (_ | ⟨_, ⟨⟩⟩) member
      refine free (List.mem_cons_of_mem z ?_)
      rw [Option.mem_def.mp named]
      exact member
  · rw [if_neg other]
    exact alike_pure trivial

theorem coupled_whenPresent {after : Tree → Tree → Generating Unit} {ts ts' : List Tree}
    (empty : ts'.isEmpty = ts.isEmpty)
    (h : JointAt x y side s (generateAll after ts) (generateAll after ts') es) :
    JointAt x y side s (whenPresent (.list ts) (generateItems after (.list ts)))
      (whenPresent (.list ts') (generateItems after (.list ts'))) es := by
  cases ts with
  | nil =>
    cases ts' with
    | nil =>
      rw [generateAll] at h
      exact h
    | cons t' rest' => cases empty
  | cons t rest =>
    cases ts' with
    | nil => cases empty
    | cons t' rest' =>
      have present (t : Tree) (rest : List Tree) : (Tree.list (t :: rest)).truthy = true := rfl
      rw [whenPresent, whenPresent, if_pos (present t rest), if_pos (present t' rest'),
        generateItems, generateItems]
      exact h

theorem isEmpty_trees (arguments : List Expression) :
    (Expression.trees (Expression.respellAll ρ arguments)).isEmpty =
      (Expression.trees arguments).isEmpty := by
  cases arguments <;> rfl

theorem coupled_operator (suits : Suits x y side ρ) (op : String) :
    JointAt x y side s (applyOperator (.str op)) (applyOperator (.str (ρ.operator op))) [] := by
  rw [applyOperator, applyOperator, suits.operator]
  split
  · exact coupled_emit _ rfl
  · exact coupled_pure trivial

theorem coupled_operation (suits : Suits x y side ρ) {a a' b b' : Tree} {op : String}
    {es' : List Event}
    (left : JointAt x y side s (pushLeft a (generate a) (generateOperand a)) (pushLeft a' (generate a') (generateOperand a')) es)
    (right : JointAt x y side s (pushRight b (generate b)) (pushRight b' (generate b')) es') :
    CoupledAt x y side s (generate (.binaryOp a (.str op) b))
      (generate (.binaryOp a' (.str (ρ.operator op)) b')) (es ++ es')
      (fun v v' => v = .none ∧ v' = .none) := by
  rw [generate, generate]
  have whole := CoupledAt.bind left fun _ _ _ => CoupledAt.bind right fun _ _ _ =>
    Coupled.ending (coupled_operator suits op) (U := fun v v' => v = Tree.none ∧ v' = Tree.none)
      ⟨rfl, rfl⟩
  rwa [List.append_nil] at whole

theorem coupled_rightLiteral (l : Literal) :
    JointAt x y side s (pushRightLiteral l.value (.str l.typeName))
      (pushRightLiteral l.value (.str l.typeName)) ((Expression.literal l).rightEvents s) := by
  cases l with
  | integer n => exact coupled_push (.int n)
  | decimal v => exact coupled_emit [.push (.real v)] rfl
  | truth b => exact coupled_pure trivial
  | verdict b => exact coupled_pure trivial
  | phrase text =>
    exact coupled_emit
      [.pushString (String.ofList (text.toList.drop 1).dropLast), .push (.int 0), .charat] rfl

theorem coupled_pushVariable (suits : Suits x y side ρ) (z : String) :
    JointAt x y side s (pushVariable (.str z)) (pushVariable (.str (ρ.name z)))
      [.uses s.reading z] :=
  coupled_load suits locates_variableCell z

mutual

theorem coupled_expression (suits : Suits x y side ρ) (e : Expression) :
    CoupledAt x y side s (generate e.tree) (generate (e.respell ρ).tree) (e.events s)
      (Results ρ e) := by
  match e with
  | .literal l => exact coupled_pure ⟨rfl, rfl⟩
  | .name z => exact coupled_pure ⟨rfl, rfl⟩
  | .element z index => exact coupled_pure ⟨rfl, rfl⟩
  | .call f arguments =>
    have passed := coupled_whenPresent (isEmpty_trees arguments)
      (coupled_arguments suits (coupled_each suits arguments))
    have call : JointAt x y side s (emit [.address (.routine (.str f)), .call])
        (emit [.address (.routine (.str f)), .call]) [] := coupled_emit _ rfl
    rw [Expression.respell, Expression.tree, Expression.tree, generate, generate]
    have whole := CoupledAt.bind passed fun _ _ _ =>
      Coupled.ending call (U := Results ρ (.call f arguments)) ⟨rfl, rfl⟩
    rwa [List.append_nil] at whole
  | .length operand =>
    exact Coupled.ending (coupled_line _ _) (U := Results ρ (.length operand)) ⟨rfl, rfl⟩
  | .negation sign operand =>
    exact Coupled.ending (coupled_line _ _) (U := Results ρ (.negation sign operand)) ⟨rfl, rfl⟩
  | .operation left op right =>
    exact coupled_operation suits (coupled_left suits left) (coupled_right suits right)

theorem coupled_left (suits : Suits x y side ρ) (e : Expression) :
    JointAt x y side s (pushLeft e.tree (generate e.tree) (generateOperand e.tree))
      (pushLeft (e.respell ρ).tree (generate (e.respell ρ).tree)
        (generateOperand (e.respell ρ).tree)) (e.leftEvents s) := by
  match e with
  | .literal l => exact coupled_push l.value
  | .name z => exact coupled_pushVariable suits z
  | .element z index => exact coupled_element suits z (coupled_expression suits index)
  | .call .. | .length _ | .negation .. => exact coupled_pure trivial
  | .operation left op right =>
    exact (coupled_operation suits (coupled_left suits left) (coupled_right suits right)).discard

theorem coupled_right (suits : Suits x y side ρ) (e : Expression) :
    JointAt x y side s (pushRight e.tree (generate e.tree))
      (pushRight (e.respell ρ).tree (generate (e.respell ρ).tree)) (e.rightEvents s) := by
  match e with
  | .literal l => exact coupled_rightLiteral l
  | .name z => exact coupled_pushVariable suits z
  | .element z index => exact coupled_load suits locates_globalCell z
  | .call .. | .length _ | .negation .. => exact coupled_pure trivial
  | .operation left op right =>
    exact (coupled_operation suits (coupled_left suits left) (coupled_right suits right)).discard

theorem coupled_each (suits : Suits x y side ρ) (arguments : List Expression) :
    ∀ e ∈ arguments, CoupledAt x y side s (generate e.tree) (generate (e.respell ρ).tree)
      (e.events s) (Results ρ e) := by
  match arguments with
  | [] => simp
  | e :: rest =>
    rw [List.forall_mem_cons]
    exact ⟨coupled_expression suits e, coupled_each suits rest⟩

end

end PascalStack.Code
