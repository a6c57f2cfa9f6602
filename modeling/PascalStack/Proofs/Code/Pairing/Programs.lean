import PascalStack.Proofs.Code.Pairing.Expressions
import PascalStack.Proofs.Code.Visits
import PascalStack.Proofs.Syntax.Settled

/-!
# The code of programs side by side

A statement, a block or a routine serves its events, and has the same code as the one spelt as on a
side, where they are undisturbed.
-/

namespace PascalStack.Code

open Generating Syntax List

def Spares (ρ : Respelling) (f : String) : Prop := ∀ z, ρ.name z = f ↔ z = f

variable {x y : String} {side : Side} {s : Site} {ρ : Respelling}

theorem coupled_storeInto (suits : Suits x y side ρ) (z : String) :
    JointAt x y side s (storeInto (.str z)) (storeInto (.str (ρ.name z))) [.stores s.inside z] := by
  rw [suits.name]
  exact coupled_code (coupled_targetCell z) (fun cell => [.store cell]) fun _ => rfl

theorem coupled_assignLiteral (suits : Suits x y side ρ) (l : Literal) (z : String) :
    JointAt x y side s (assignLiteral (.str z) l.value (.str l.typeName))
      (assignLiteral (.str (ρ.name z)) l.value (.str l.typeName))
      ((Expression.literal l).storeEvents s z) := by
  cases l with
  | integer n => exact CoupledAt.bind (coupled_push (.int n)) fun _ _ _ => coupled_storeInto suits z
  | decimal v =>
    exact CoupledAt.bind (coupled_emit [.push (.real v)] rfl) fun _ _ _ => coupled_storeInto suits z
  | truth b =>
    have store : JointAt x y side s (do
        let cell ← ensureGlobal (.str z)
        emit [.store cell]) (do
        let cell ← ensureGlobal (.str (ρ.name z))
        emit [.store cell]) [.stores false z] := by
      rw [suits.name]
      exact coupled_code (coupled_ensure false z) (fun cell => [.store cell]) fun _ => rfl
    cases b with
    | false => exact CoupledAt.bind (coupled_emit [.push (.int 0)] rfl) fun _ _ _ => store
    | true => exact CoupledAt.bind (coupled_emit [.push (.int 1)] rfl) fun _ _ _ => store
  | verdict b => exact coupled_pure trivial
  | phrase text => exact coupled_pure trivial

theorem coupled_forget :
    JointAt x y side s (modify fun g => { g with nextLocal := 0, locals := [] })
      (modify fun g => { g with nextLocal := 0, locals := [] }) [.returns] := by
  refine .mk (serves_event (fun k g knows site _ => ?_) fun k g knows site unmet => ?_)
    (paired_event fun o g h clear site t => ?_) fun _ => ⟨(), trivial⟩
  · exact ⟨(), _, rfl, trivial, ⟨knows.globals, Dictionary.keyed_nil, knows.types⟩,
      site.modify ⟨rfl, rfl, rfl⟩⟩
  · exact absurd trivial unmet
  · obtain ⟨cells, own, declared, typed⟩ := t
    exact ⟨trivial, site.modify ⟨rfl, rfl, rfl⟩, cells, mirrors_nil, declared, typed⟩

theorem same_function {g : Generator} (site : At s g) (z : String) :
    Tree.same g.function (.str z) = decide (s.function = some z) := by
  rw [site.function]
  cases s.function with
  | none => rfl
  | some f =>
    rw [nameTree, Tree.same_str]
    by_cases equal : f = z <;> simp [equal]

theorem run_assignVariable (target source : Tree) (g : Generator) :
    (assignVariable target source).run g =
      if Tree.same g.function target then
        (do
          let cell ← sourceCell source
          modify fun g => { g with nextLocal := 0, locals := [] }
          emit [.load cell, .ret] : Generating Unit).run g
      else
        (do
          let target ← targetCell target
          let cell ← sourceCell source
          emit [.load cell, .store target] : Generating Unit).run g := by
  rw [assignVariable, EStateM.run_bind, EStateM.run_get]
  dsimp only
  split <;> rfl

theorem coupled_assignVariable (suits : Suits x y side ρ)
    (keeps : ∀ f ∈ s.function, Spares ρ f) (z w : String) :
    JointAt x y side s (assignVariable (.str z) (.str w))
      (assignVariable (.str (ρ.name z)) (.str (ρ.name w)))
      ((Expression.name w).storeEvents s z) := by
  have returned : CoupledAt x y side s (do
      let cell ← sourceCell (.str w)
      modify fun g => { g with nextLocal := 0, locals := [] }
      emit [.load cell, .ret]) (do
      let cell ← sourceCell (.str (ρ.name w))
      modify fun g => { g with nextLocal := 0, locals := [] }
      emit [.load cell, .ret]) [.uses .nearest w, .returns] (fun _ _ => True) := by
    rw [suits.name]
    refine CoupledAt.bind (locates_sourceCell.named w) ?_
    rintro cell _ rfl
    exact CoupledAt.bind coupled_forget fun _ _ _ => coupled_emit [.load cell, .ret] rfl
  have copied : JointAt x y side s (do
      let target ← targetCell (.str z)
      let cell ← sourceCell (.str w)
      emit [.load cell, .store target]) (do
      let target ← targetCell (.str (ρ.name z))
      let cell ← sourceCell (.str (ρ.name w))
      emit [.load cell, .store target]) [.stores s.inside z, .uses .nearest w] := by
    rw [suits.name, suits.name]
    refine CoupledAt.bind (coupled_targetCell z) ?_
    rintro target _ rfl
    exact coupled_code (locates_sourceCell.named w) (fun cell => [.load cell, .store target])
      fun _ => rfl
  have kept : s.function = some (ρ.name z) ↔ s.function = some z := by
    constructor
    · intro own
      rw [own, ← (keeps _ own z).mp rfl]
    · intro own
      rw [own, (keeps _ own z).mpr rfl]
  rw [Expression.storeEvents]
  by_cases own : s.function = some z
  · rw [if_pos own]
    refine returned.of_run (fun g site => ?_) fun g site => ?_
    · rw [run_assignVariable, same_function site, decide_eq_true own, if_pos rfl]
    · rw [run_assignVariable, same_function site, decide_eq_true (kept.mpr own), if_pos rfl]
  · rw [if_neg own]
    refine copied.of_run (fun g site => ?_) fun g site => ?_
    · rw [run_assignVariable, same_function site, decide_eq_false own, if_neg Bool.false_ne_true]
    · rw [run_assignVariable, same_function site, decide_eq_false (mt kept.mp own),
        if_neg Bool.false_ne_true]

theorem coupled_assignLength (suits : Suits x y side ρ) (operand : Expression) (z : String) :
    JointAt x y side s (do assignLength (.str z) operand.tree (← generate operand.tree))
      (do
        assignLength (.str (ρ.name z)) (operand.respell ρ).tree
          (← generate (operand.respell ρ).tree))
      ((Expression.length operand).storeEvents s z) := by
  have taken : JointAt x y side s (do
      emit [.strlen]
      storeInto (.str z)) (do
      emit [.strlen]
      storeInto (.str (ρ.name z))) [.stores s.inside z] :=
    CoupledAt.bind (coupled_emit [.strlen] rfl) fun _ _ _ => coupled_storeInto suits z
  have whole := CoupledAt.bind (coupled_expression (s := s) suits operand) fun _ _ _ => taken
  cases operand with
  | name w =>
    have loaded := CoupledAt.bind (coupled_load suits locates_globalCell w) fun _ _ _ => taken
    simp only [bind_assoc] at loaded
    exact loaded
  | _ => exact whole

variable {es es' : List Event} {code : List Instruction}
  {condition condition' body body' : Generating Unit}

theorem coupled_listed {value value' : Tree} {rest rest' : Generating Unit}
    (same : SameFault value.text value'.text) (h : JointAt x y side s rest rest' es) :
    JointAt x y side s (do
      line (← ofExcept value.text)
      rest) (do
      line (← ofExcept value'.text)
      rest') (.writes value :: es) := by
  have whole := CoupledAt.bind (coupled_listing same) fun _ _ _ => h
  simp only [bind_assoc] at whole
  exact whole

theorem coupled_assign (suits : Suits x y side ρ) (keeps : ∀ f ∈ s.function, Spares ρ f)
    (z : String) (value : Expression) :
    CoupledAt x y side s (generate (.assignment (.identifier (.str z)) value.tree))
      (generate (.assignment (.identifier (.str (ρ.name z))) (value.respell ρ).tree))
      (assignEvents s z value) (fun v v' => v = .str z ∧ v' = .str (ρ.name z)) := by
  have same := sameFault_expression suits.toModest value
  have stored : JointAt x y side s
      (assign (.str z) value.tree (generateOperand value.tree) (generate value.tree))
      (assign (.str (ρ.name z)) (value.respell ρ).tree (generateOperand (value.respell ρ).tree)
        (generate (value.respell ρ).tree))
      (assignEvents s z value) := by
    cases value with
    | literal l => exact coupled_listed same (coupled_assignLiteral suits l z)
    | name w => exact coupled_listed same (coupled_assignVariable suits keeps z w)
    | length operand => exact coupled_listed same (coupled_assignLength suits operand z)
    | operation left op right =>
      have code := (coupled_expression (s := s) suits (.operation left op right)).discard
      exact coupled_listed same (CoupledAt.bind code fun _ _ _ => coupled_storeInto suits z)
    | call f arguments =>
      exact coupled_listed same (coupled_expression suits (.call f arguments)).discard
    | element w index => exact coupled_listed same (coupled_pure trivial)
    | negation sign operand => exact coupled_listed same (coupled_pure trivial)
  have shape (z : String) (value : Expression) :
      generate (.assignment (.identifier (.str z)) value.tree) = (do
        assign (.str z) value.tree (generateOperand value.tree) (generate value.tree)
        return .str z) := by
    rw [generate]
    rfl
  rw [shape, shape]
  exact Coupled.ending stored ⟨rfl, rfl⟩

/-! ## Input and output -/

theorem branches_outputs (stored : Bool) (z : String) :
    Branches x side (.outputs stored z) [] z
      fun τ => if τ == "integer" then (if stored then [.uses .program z] else []) else [] := by
  refine ⟨⟨mem_singleton_self z, nofun⟩, fun k => ?_, fun k => ⟨rfl, fun τ _ => ?_⟩,
    fun o clear => ⟨trivial, fun named => (clear named).1⟩, fun o => ⟨rfl, fun τ _ => ?_⟩⟩
  · simp only [Event.Met, suppliedFrom_nil, true_and]
    refine exists_congr fun τ => and_congr_right fun _ => ?_
    by_cases integer : τ = "integer" <;> cases stored <;> simp [integer, Event.Met, Known.Has]
  · cases stored <;> split <;> rfl
  · cases stored <;> split <;> rfl

theorem coupled_outputInteger (z : String) :
    JointAt x y side s (do
      if (← get).hasFunction then emit [.writeInteger]
      else
        let cell ← globalCell (.str z)
        emit [.load cell, .writeInteger]) (do
      if (← get).hasFunction then emit [.writeInteger]
      else
        let cell ← globalCell (.str (side.name x y z))
        emit [.load cell, .writeInteger]) (if !s.routines then [.uses .program z] else []) := by
  have stored := coupled_code (locates_globalCell.named z : CoupledAt x y side s _ _ _ Eq)
    (fun cell => [.load cell, .writeInteger]) fun _ => rfl
  cases routines : s.routines with
  | false =>
    refine stored.of_run (fun g site => ?_) fun g site => ?_ <;>
      simp [EStateM.run_bind, EStateM.run_get, site.routines, routines]
  | true =>
    refine (coupled_emit [.writeInteger] rfl).of_run (fun g site => ?_) fun g site => ?_ <;>
      simp [EStateM.run_bind, EStateM.run_get, site.routines, routines]

theorem coupled_outputVariable (suits : Suits x y side ρ) (z : String) :
    JointAt x y side s (writeArgument (.identifier (.str z)))
      (writeArgument (.identifier (.str (ρ.name z)))) [.outputs (!s.routines) z] := by
  have output : JointAt x y side s _ _ _ := coupled_outputInteger z
  have branches : Branches x side _ _ _ _ := branches_outputs (!s.routines) z
  have nothing : JointAt x y side s (pure ()) (pure ()) [] := coupled_pure trivial
  rw [suits.name]
  refine .mk (branches.serves nothing.served fun τ => .ite output.served nothing.served)
    (branches.paired nothing.paired fun o τ undisturbed known => ?_) fun _ => ⟨(), trivial⟩
  refine Alike.ite Iff.rfl (fun integer => ?_) fun other => ?_
  · rw [if_pos integer]
    refine output.paired o ?_
    by_cases same : x = y
    · exact .inl same
    · obtain ⟨clear, fresh⟩ := undisturbed.resolve_left same
      have typed : o.type? z = some "integer" :=
        (known same).trans (congrArg some (beq_iff_eq.mp integer))
      split
      · rename_i stored
        refine .inr ⟨⟨fun named => (clear named).2 stored (named ▸ typed), trivial⟩, ?_⟩
        exact fun e member => mem_singleton.mp member ▸ fresh
      · exact undisturbed_nil
  · rw [if_neg other]
    exact alike_pure trivial

theorem coupled_output (suits : Suits x y side ρ) (e : Expression) :
    JointAt x y side s (writeArgument e.tree) (writeArgument (e.respell ρ).tree)
      (e.outputEvents s) := by
  cases e with
  | literal l =>
    have text (t : String) : JointAt x y side s (emit [.pushString t, .writeString])
        (emit [.pushString t, .writeString]) [] := coupled_emit _ rfl
    cases l with
    | phrase t => exact text _
    | verdict b => exact text _
    -- Other literals are not put out, and stop both.
    | integer n => exact coupled_stops (fun _ => rfl) fun _ => rfl
    | decimal v => exact coupled_stops (fun _ => rfl) fun _ => rfl
    | truth b => exact coupled_stops (fun _ => rfl) fun _ => rfl
  | name z => exact coupled_outputVariable suits z
  | _ => exact coupled_pure trivial

theorem coupled_outputs (suits : Suits x y side ρ) (arguments : List Expression) :
    JointAt x y side s ((Expression.trees arguments).forM writeArgument)
      ((Expression.trees (Expression.respellAll ρ arguments)).forM writeArgument)
      (arguments.flatMap (Expression.outputEvents s)) := by
  induction arguments with
  | nil => exact coupled_pure trivial
  | cons e rest ih => exact CoupledAt.bind (coupled_output suits e) fun _ _ _ => ih

/-- The code that reads into a variable, by its type. -/
def readCode : Variable → String → Option (List Instruction)
  | .name _, τ =>
    if τ == "string" then some [.read] else if τ == "integer" then some [.read, .atoi] else none
  | .element .., τ => if τ == "integer" then some [.read, .atoi] else none

theorem readArgument_eq (v : Variable) :
    readArgument v.tree = (do
      match readCode v (← typeOf (.str v.base)) with
      | some code => do
        emit code
        discard (newGlobal (.str v.base))
      | none => pure ()) := by
  cases v with
  | name z =>
    refine bind_congr fun τ => ?_
    simp only [readCode]
    split
    · rfl
    · split <;> rfl
  | element z index =>
    refine bind_congr fun τ => ?_
    simp only [readCode]
    split <;> rfl

theorem readCode_plain {v : Variable} {τ : String} (h : readCode v τ = some code) :
    code.all Instruction.isPlain = true := by
  have either : some code = some [.read] ∨ some code = some [.read, .atoi] := by
    cases v <;> simp only [readCode] at h <;> grind
  rcases either with read | read <;> cases read <;> rfl

theorem inputEvent_eq (v : Variable) :
    ∃ types, v.inputEvent = .inputs types v.base ∧
      ∀ τ, types.contains τ = (readCode v τ).isSome := by
  cases v with
  | name z => exact ⟨_, rfl, fun τ => by simp only [readCode]; grind⟩
  | element z index => exact ⟨_, rfl, fun τ => by simp only [readCode]; grind⟩

theorem branches_inputs (v : Variable) :
    Branches x side v.inputEvent [] v.base
      fun τ => if (readCode v τ).isSome then [.stores false v.base] else [] := by
  obtain ⟨types, event, reads⟩ := inputEvent_eq v
  rw [event]
  refine ⟨⟨mem_singleton_self _, nofun⟩, fun k => ?_, fun k => ⟨rfl, fun τ typed => ?_⟩,
    fun o clear => ⟨trivial, clear⟩, fun o => ⟨rfl, fun τ typed => ?_⟩⟩
  · have met (τ : String) :
        SuppliedFrom k (if (readCode v τ).isSome then [.stores false v.base] else []) := by
      split <;> simp [Event.Met]
    simp [Event.Met, Option.isSome_iff_exists, met]
  · simp only [Known.after, Option.mem_def.mp typed, Option.any_some, reads]
    split <;> rfl
  · simp only [Origins.after, Option.mem_def.mp typed, Option.any_some, reads]
    cases (readCode v τ).isSome with
    | true => simp [Side.events, Origins.after]
    | false => simp [Side.events]

theorem serves_read (plain : code.all Instruction.isPlain = true) (z : String) :
    ServesAt s (do
      emit code
      discard (newGlobal (.str z))) [.stores false z] fun _ => True := by
  have written : ServesAt s (emit code) [] (fun _ => True) :=
    serves_write (fun _ _ site => site.modify ⟨rfl, rfl, rfl⟩) plain
  exact Serves.bind written fun _ _ => (serves_newGlobal z).discard

theorem alike_read {o : Origins} (code : List Instruction) {z : String} (fresh : x = y ∨ z ≠ y) :
    Alike (Stopped x y) (fun g h => At s g ∧ Together x y o g h) (fun _ _ => True)
      (fun g h => At s g ∧ Together x y (o.after x side (.stores false z)) g h) (do
        emit code
        discard (newGlobal (.str z))) (do
        emit code
        discard (newGlobal (.str (side.name x y z)))) := by
  have written : PairedAt x y side s (emit code) (emit code) [] (fun _ _ => True) :=
    paired_write (fun _ _ site => site.modify ⟨rfl, rfl, rfl⟩) code
  have stored : Alike (Stopped x y) (fun g h => At s g ∧ Together x y o g h) Eq
      (fun g h => At s g ∧ Together x y (o.after x side (.stores false z)) g h)
      (newGlobal (.str z)) (newGlobal (.str (side.name x y z))) :=
    fun g h t => ends_newGlobal t fresh
  exact (written o undisturbed_nil).bind fun _ _ _ => stored.discard

theorem coupled_input (suits : Suits x y side ρ) (v : Variable) :
    JointAt x y side s (readArgument v.tree) (readArgument (v.respell ρ).tree) [v.inputEvent] := by
  have branches : Branches x side _ _ _ _ := branches_inputs v
  have nothing : JointAt x y side s (pure ()) (pure ()) [] := coupled_pure trivial
  have base : (v.respell ρ).base = side.name x y v.base := by
    rw [← suits.name]
    cases v <;> rfl
  have reads : readCode (v.respell ρ) = readCode v := by cases v <;> rfl
  rw [readArgument_eq, readArgument_eq, base, reads]
  refine .mk (branches.serves nothing.served fun τ => ?_)
    (branches.paired nothing.paired fun o τ undisturbed known => ?_) fun _ => ⟨(), trivial⟩
  · cases read : readCode v τ with
    | some code => exact serves_read (readCode_plain read) v.base
    | none => exact serves_pure trivial
  · have fresh : x = y ∨ v.base ≠ y :=
      undisturbed.imp_right fun both equal => both.2 (equal ▸ branches.names.1)
    cases read : readCode v τ with
    | some code => exact alike_read code fresh
    | none => exact alike_pure trivial

theorem coupled_inputs (suits : Suits x y side ρ) (targets : List Variable) :
    JointAt x y side s ((targets.map Variable.tree).forM readArgument)
      (((targets.map (Variable.respell ρ)).map Variable.tree).forM readArgument)
      (targets.map Variable.inputEvent) := by
  induction targets with
  | nil => exact coupled_pure trivial
  | cons v rest ih => exact CoupledAt.bind (coupled_input suits v) fun _ _ _ => ih

/-! ## Control -/

theorem coupled_counter {take : Generating Nat} (counts : take = takeLoop ∨ take = takeIf) :
    CoupledAt x y side s take take [] Eq := by
  rcases counts with rfl | rfl
  all_goals
    refine .mk (fun k g knows site => ?_) (fun o clear g h t => ?_) fun n => ⟨n, rfl⟩
    · refine ⟨fun _ => ⟨_, _, rfl, trivial, ?_, ?_⟩, fun unsupplied => ?_⟩
      · exact ⟨knows.globals, knows.locals, knows.types⟩
      · exact site.modify ⟨rfl, rfl, rfl⟩
      · exact absurd (suppliedFrom_nil k) unsupplied
    · obtain ⟨site, cells, own, declared, typed⟩ := t
      exact ⟨rfl, site.modify ⟨rfl, rfl, rfl⟩, cells, own, declared, typed⟩

theorem coupled_testedLoop (test : JointAt x y side s condition condition' es)
    (inside : JointAt x y side s body body' es') :
    JointAt x y side s (testedLoop condition body) (testedLoop condition' body') (es ++ es') := by
  refine CoupledAt.seq (coupled_counter (.inl rfl)) ?_
  rintro n _ rfl
  refine CoupledAt.seq (coupled_emit [.label (.whileStart n)] rfl) fun _ _ _ => ?_
  refine CoupledAt.bind test fun _ _ _ => ?_
  refine CoupledAt.seq (coupled_emit [.jumpZero (.whileEnd n)] rfl) fun _ _ _ => ?_
  refine CoupledAt.followed inside fun _ _ _ => ?_
  refine CoupledAt.seq (coupled_emit [.jump (.whileStart n)] rfl) fun _ _ _ => ?_
  exact coupled_emit [.label (.whileEnd n)] rfl

theorem coupled_conditional {yes yes' no no' : Generating Unit} {es'' : List Event}
    (test : JointAt x y side s condition condition' es) (first : JointAt x y side s yes yes' es')
    (second : JointAt x y side s no no' es'') :
    JointAt x y side s (conditional condition yes no) (conditional condition' yes' no')
      (es ++ (es' ++ es'')) := by
  refine CoupledAt.bind test fun _ _ _ => ?_
  refine CoupledAt.seq (coupled_counter (.inr rfl)) ?_
  rintro n _ rfl
  refine CoupledAt.seq (coupled_emit [.jumpZero (.elseBranch n)] rfl) fun _ _ _ => ?_
  refine CoupledAt.bind first fun _ _ _ => ?_
  refine CoupledAt.seq (coupled_emit [.jump (.ifEnd n)] rfl) fun _ _ _ => ?_
  refine CoupledAt.seq (coupled_emit [.label (.elseBranch n)] rfl) fun _ _ _ => ?_
  exact CoupledAt.followed second fun _ _ _ => coupled_emit [.label (.ifEnd n)] rfl

theorem coupled_limit (suits : Suits x y side ρ) (limit : Expression) (cell : Cell)
    (op : Operation) (n : Nat) :
    JointAt x y side s (do
      let bound ← limitPush limit.tree
      emit [.load cell, bound, .operate op, .jumpZero (.forEnd n)]) (do
      let bound ← limitPush (limit.respell ρ).tree
      emit [.load cell, bound, .operate op, .jumpZero (.forEnd n)]) (limit.limitEvents s) := by
  cases limit with
  | literal v =>
    have push : limitPush v.tree = pure (.push v.value) := by cases v <;> rfl
    rw [Expression.respell, Expression.tree, push, pure_bind]
    refine coupled_emit_tree (fun text written => ?_) fun f written => ?_
    · cases cell <;> exact ⟨_, by simp only [render, Instruction.text, written]; rfl⟩
    · cases cell <;> exact ⟨f, by simp only [render, Instruction.text, written]; rfl⟩
  | name z =>
    simp only [Expression.respell, Expression.tree, limitPush, bind_assoc, pure_bind, suits.name]
    exact coupled_code (locates_loopCell.named z)
      (fun bound => [.load cell, .load bound, .operate op, .jumpZero (.forEnd n)]) fun _ => rfl
  | _ => exact coupled_stops (fun _ => rfl) fun _ => rfl

theorem isText_to (suits : Suits x y side ρ) (d : String) :
    (Tree.str (ρ.direction d)).isText "to" = (Tree.str d).isText "to" := by
  have same := suits.direction d
  by_cases up : d = "to"
  · rw [same.mpr up, up]
  · have other : ρ.direction d ≠ "to" := fun equal => up (same.mp equal)
    simp [Tree.isText, up, other]

theorem coupled_countedLoop (suits : Suits x y side ρ) {control control' : Tree} {e : Event}
    (found : CoupledAt x y side s (loopCell control) (loopCell control') [e] Eq)
    (inside : JointAt x y side s body body' es) (direction : String) (limit : Expression) :
    JointAt x y side s (countedLoop control (.str direction) limit.tree body)
      (countedLoop control' (.str (ρ.direction direction)) (limit.respell ρ).tree body')
      (e :: (limit.limitEvents s ++ (es ++ [e]))) := by
  rw [countedLoop, countedLoop, isText_to suits]
  generalize (Tree.str direction).isText "to" = up
  refine CoupledAt.seq (coupled_counter (.inl rfl)) ?_
  rintro n _ rfl
  refine CoupledAt.seq (coupled_emit [.label (.forStart n)] rfl) fun _ _ _ => ?_
  refine CoupledAt.cons found ?_
  rintro cell _ rfl
  have rest : JointAt x y side s (do
      body
      let cell ← loopCell control
      emit [.load cell, .push (.int 1), .operate (if up then .add else .sub), .store cell]
      emit [.jump (.forStart n)]
      emit [.label (.forEnd n)]) (do
      body'
      let cell ← loopCell control'
      emit [.load cell, .push (.int 1), .operate (if up then .add else .sub), .store cell]
      emit [.jump (.forStart n)]
      emit [.label (.forEnd n)]) (es ++ [e]) := by
    refine CoupledAt.bind inside fun _ _ _ => ?_
    refine CoupledAt.followed found ?_
    rintro cell _ rfl
    refine CoupledAt.seq (coupled_emit _ rfl) fun _ _ _ => ?_
    refine CoupledAt.seq (coupled_emit [.jump (.forStart n)] rfl) fun _ _ _ => ?_
    exact coupled_emit [.label (.forEnd n)] rfl
  have whole := CoupledAt.bind
    (coupled_limit suits limit cell (if up then .infeq else .supeq) n) fun _ _ _ => rest
  simp only [bind_assoc] at whole
  exact whole

theorem coupled_condition (suits : Suits x y side ρ) (condition : Expression) :
    JointAt x y side s (pushCondition condition.tree (generate condition.tree))
      (pushCondition (condition.respell ρ).tree (generate (condition.respell ρ).tree))
      (condition.testEvents s) := by
  have code := (coupled_expression (s := s) suits condition).discard
  cases condition with
  | name z => exact coupled_load suits locates_variableCell z
  | _ => exact code

theorem coupled_branch {t t' : Tree} (present : t'.truthy = t.truthy)
    (h : JointAt x y side s (generate t) (generate t') es) (missing : t.truthy = false → es = []) :
    JointAt x y side s (whenPresent t (discard (generate t)))
      (whenPresent t' (discard (generate t'))) es := by
  rw [whenPresent, whenPresent, present]
  cases shown : t.truthy with
  | true => exact h.discard
  | false =>
    rw [missing shown]
    exact coupled_pure trivial

theorem coupled_warn (t t' : Tree) :
    CoupledAt x y side s (warn t) (warn t') [] (fun v v' => v = .none ∧ v' = .none) :=
  Coupled.ending (coupled_line _ _) ⟨rfl, rfl⟩

theorem coupled_countless (suits : Suits x y side ρ) (inside : JointAt x y side s body body' es)
    (direction : String) (limit : Expression) :
    JointAt x y side s (countedLoop .none (.str direction) limit.tree body)
      (countedLoop .none (.str (ρ.direction direction)) (limit.respell ρ).tree body') [.fails] := by
  have whole : JointAt x y side s (countedLoop .none (.str direction) limit.tree body)
      (countedLoop .none (.str (ρ.direction direction)) (limit.respell ρ).tree body')
      ([] ++ .fails :: (limit.limitEvents s ++ (es ++ [.fails]))) :=
    coupled_countedLoop suits (locates_loopCell.other .none fun _ => Tree.noConfusion) inside
      direction limit
  exact whole.of_fails

mutual

theorem coupled_statement (suits : Suits x y side ρ) (keeps : ∀ f ∈ s.function, Spares ρ f)
    (item : Statement) :
    JointAt x y side s (generate item.tree) (generate (item.respell ρ).tree) (item.events s) := by
  match item with
  | .absent => exact coupled_pure trivial
  | .mention z => exact coupled_pure trivial
  | .empty | .breakLoop | .continueLoop | .assign ⟨.element .., _⟩ | .repeatUntil .. =>
    exact (coupled_warn _ _).imp fun _ _ _ => trivial
  | .compound items =>
    rw [Statement.respell, Statement.tree, Statement.tree, generate, generate, generate, generate,
      Statement.events]
    exact ((coupled_statements suits keeps items).ended Tree.none Tree.none).discard.ended _ _
  | .assign ⟨.name z, value⟩ => exact (coupled_assign suits keeps z value).imp fun _ _ _ => trivial
  | .conditional condition yes no =>
    have missing : no.tree.truthy = false → no.events s = [] := by
      rw [truthy_tree]
      cases no <;> simp [Statement.isPresent, Statement.events]
    rw [Statement.respell, Statement.tree, Statement.tree, generate, generate, Statement.events]
    exact (coupled_conditional (coupled_condition suits condition)
      (coupled_statement suits keeps yes).discard
      (coupled_branch (Statement.truthy_respell no) (coupled_statement suits keeps no)
        missing)).ended _ _
  | .whileDo condition body =>
    rw [Statement.respell, Statement.tree, Statement.tree, generate, generate, Statement.events]
    exact (coupled_testedLoop (coupled_expression suits condition).discard
      (coupled_statement suits keeps body).discard).ended _ _
  | .forDo ⟨.name z, value⟩ direction limit body =>
    have found : CoupledAt x y side s (loopCell (.str z)) (loopCell (.str (ρ.name z)))
        [.uses s.counting z] Eq := suits.name z ▸ locates_loopCell.named z
    have loop := Coupled.ended (coupled_countedLoop suits found
      (coupled_statement suits keeps body).discard direction limit) Tree.none Tree.none
    rw [Statement.respell, Statement.tree, Statement.tree, generate, generate, Statement.events]
    refine CoupledAt.bind (coupled_assign suits keeps z value) ?_
    rintro _ _ ⟨rfl, rfl⟩
    exact loop
  | .forDo ⟨.element z index, value⟩ direction limit body =>
    refine CoupledAt.seq (coupled_warn _ _) ?_
    rintro _ _ ⟨rfl, rfl⟩
    exact Coupled.ended (coupled_countless suits (coupled_statement suits keeps body).discard
      direction limit) Tree.none Tree.none
  | .call f arguments =>
    exact (coupled_expression suits (.call f arguments)).imp fun _ _ _ => trivial
  | .writeln arguments =>
    have whole := CoupledAt.followed (coupled_outputs (s := s) suits arguments) fun _ _ _ =>
      Coupled.ended (coupled_emit [.writeLine] rfl) Tree.none Tree.none
    exact whole
  | .readln targets => exact Coupled.ended (coupled_inputs suits targets) Tree.none Tree.none

theorem coupled_statements (suits : Suits x y side ρ)
    (keeps : ∀ f ∈ s.function, Spares ρ f) (items : List Statement) :
    JointAt x y side s (generateAll andNothing (Statement.trees items))
      (generateAll andNothing (Statement.trees (Statement.respellAll ρ items)))
      (Statement.eventsAll s items) := by
  match items with
  | [] => exact coupled_pure trivial
  | item :: rest =>
    rw [Statement.respellAll, Statement.trees, Statement.trees, generateAll, generateAll,
      Statement.eventsAll]
    exact CoupledAt.bind (coupled_statement suits keeps item) fun _ _ _ =>
      coupled_statements suits keeps rest

end

/-! ## Declarations -/

theorem generate_type (τ : TypeForm) : generate τ.tree = pure (.str τ.innermost) := by
  induction τ with
  | word w => rfl
  | array first last element ih =>
    rw [TypeForm.tree, generate]
    exact ih

theorem innermost_respell (τ : TypeForm) : (τ.respell ρ).innermost = ρ.word τ.innermost := by
  induction τ with
  | word w => rfl
  | array first last element ih => exact ih

theorem find?_declared {d : Dictionary String} {types : List (String × String)}
    (h : ∀ v, d.find? (.str v) = types.lookup v) (z τ v : String) :
    (d.insert (.str z) τ).find? (.str v) = ((z, τ) :: types).lookup v := by
  rw [Dictionary.find?_insert_str, Tree.same_str, lookup_cons, h, BEq.comm]
  split <;> rename_i equal <;> simp [equal]

theorem coupled_declare (suits : Suits x y side ρ) (z w : String) :
    JointAt x y side s (declare (.str z) (.str w)) (declare (.str (ρ.name z)) (.str (ρ.word w)))
      [.declares z (Text.lower w)] := by
  refine .mk (serves_event (fun k g knows site _ => ?_) fun k g knows site unmet => ?_)
    (paired_event fun o g h clear site t => ?_) fun _ => ⟨(), trivial⟩
  · refine ⟨(), _, rfl, trivial, ⟨knows.globals, knows.locals, ?_⟩, site.modify ⟨rfl, rfl, rfl⟩⟩
    exact find?_declared knows.types z (Text.lower w)
  · exact absurd trivial unmet
  · have fresh : x = y ∨ z ≠ y :=
      clear.imp_right fun clear equal => clear.2 (mem_singleton.mpr equal.symm)
    have both {types : Dictionary String} (declared : Mirrors x y o.declared g.types types) :
        Mirrors x y (if z = x then some side else o.declared)
          (g.types.insert (.str z) (Text.lower w))
          (types.insert (.str (ρ.name z)) (Text.lower (ρ.word w))) := by
      rw [suits.name, suits.word]
      exact declared.insert fresh (Text.lower w)
    obtain ⟨cells, own, declared, typed⟩ := t
    refine ⟨trivial, site.modify ⟨rfl, rfl, rfl⟩, cells, own, both declared, fun differ v => ?_⟩
    exact find?_declared (typed differ) z (Text.lower w) v

theorem coupled_declaration (suits : Suits x y side ρ) (d : Declaration) :
    JointAt x y side s (generate d.tree) (generate (d.respell ρ).tree) d.events := by
  have all : JointAt x y side s
      (generateAll (fun _ name => do declare name (← generate d.type.tree))
        (d.declared.map Variable.tree))
      (generateAll (fun _ name => do declare name (← generate (d.type.respell ρ).tree))
        ((d.declared.map (Variable.respell ρ)).map Variable.tree)) d.events := by
    rw [Declaration.events, generate_type, generate_type, innermost_respell]
    induction d.declared with
    | nil => exact coupled_pure trivial
    | cons v rest ih =>
      have named (v : Variable) : generate v.tree = pure (.str v.base) := by cases v <;> rfl
      have base : (v.respell ρ).base = ρ.name v.base := by cases v <;> rfl
      rw [map_cons, map_cons, map_cons, generateAll, generateAll, named, named, base]
      exact CoupledAt.bind (coupled_declare suits v.base d.type.innermost) fun _ _ _ => ih
  rw [Declaration.respell, Declaration.tree, Declaration.tree, generate, generate, generateItems,
    generateItems]
  exact all.ended Tree.none Tree.none

theorem coupled_section (suits : Suits x y side ρ) (ds : List Declaration) :
    JointAt x y side s (generate (sectionTree ds)) (generate (sectionTree (respellSection ρ ds)))
      (sectionEvents ds) := by
  have all : JointAt x y side s (generateAll andNothing (ds.map Declaration.tree))
      (generateAll andNothing ((respellSection ρ ds).map Declaration.tree)) (sectionEvents ds) := by
    induction ds with
    | nil => exact coupled_pure trivial
    | cons d rest ih => exact CoupledAt.bind (coupled_declaration suits d) fun _ _ _ => ih
  have empty : ((respellSection ρ ds).map Declaration.tree).isEmpty =
      (ds.map Declaration.tree).isEmpty := by
    cases ds <;> rfl
  rw [sectionTree, sectionTree, generate, generate]
  exact (coupled_whenPresent empty all).ended Tree.none Tree.none

theorem coupled_extra (suits : Suits x y side ρ) (extra : Option (List Declaration)) :
    JointAt x y side s (whenPresent (extraTree extra) (discard (generate (extraTree extra))))
      (whenPresent (extraTree (extra.map (respellSection ρ)))
        (discard (generate (extraTree (extra.map (respellSection ρ))))))
      (sectionEvents (extra.getD [])) := by
  cases extra with
  | none => exact coupled_pure trivial
  | some ds => exact (coupled_section suits ds).discard

structure Before (s : Site) (b : Block) (g : Generator) : Prop where
  inside : g.inFunction = s.inside
  routines : (g.hasFunction || b.hasRoutines) = s.routines
  function : g.function = nameTree s.function

def InRoutines (g : Generator) : Prop := g.hasFunction = true

theorem generate_parameters (ps : List Parameter) :
    generateAll andNothing (ps.map Parameter.tree) = pure () := by
  induction ps with
  | nil => rfl
  | cons p rest ih =>
    rw [map_cons, generateAll, ih]
    rfl

theorem coupled_openFunction (name : Option String) (result result' : TypeForm)
    (ps ps' : List Parameter) (b : Block) :
    Joint x y InRoutines (openFunction name result ps) (openFunction name result' ps') []
      (Before ⟨true, true, name⟩ b) := by
  have remember : Joint x y InRoutines (modify fun g => { g with function := nameTree name })
      (modify fun g => { g with function := nameTree name }) []
      fun g => g.hasFunction = true ∧ g.function = nameTree name :=
    coupled_modify (fun g holds => ⟨holds, rfl⟩) (fun _ => ⟨rfl, rfl, rfl⟩)
      fun _ _ _ _ _ => ⟨_, rfl⟩
  have mark : Joint x y (fun g => g.hasFunction = true ∧ g.function = nameTree name)
      (emit [.label (.routine (nameTree name)), .start])
      (emit [.label (.routine (nameTree name)), .start]) []
      fun g => g.hasFunction = true ∧ g.function = nameTree name :=
    coupled_write (fun _ _ holds => holds) _ (by cases name <;> rfl)
  have enter : Joint x y (fun g => g.hasFunction = true ∧ g.function = nameTree name)
      (modify fun g => { g with inFunction := true })
      (modify fun g => { g with inFunction := true }) [] (Before ⟨true, true, name⟩ b) :=
    coupled_modify (fun g holds => ⟨rfl, by simp [holds.1], holds.2⟩) (fun _ => ⟨rfl, rfl, rfl⟩)
      fun _ _ _ _ _ => ⟨_, rfl⟩
  have parameters (ps : List Parameter) : whenPresent (.list (ps.map Parameter.tree))
      (generateItems andNothing (.list (ps.map Parameter.tree))) = pure () := by
    rw [whenPresent, generateItems, generate_parameters, ite_self]
  have heading := Coupled.bind remember fun _ _ _ => mark.ended Tree.none Tree.none
  rw [openFunction, openFunction, generate, generate, parameters, parameters]
  exact Coupled.bind heading.discard fun _ _ _ => enter

theorem coupled_closeBody : Joint x y (At s) closeBody closeBody [] (At s) := by
  have run (g : Generator) (site : At s g) :
      closeBody.run g = (if s.routines then emit [.stop] else pure ()).run g := by
    cases routines : s.routines <;>
      simp [closeBody, EStateM.run_bind, EStateM.run_get, site.routines, routines]
  have chosen : JointAt x y .outer s (if s.routines then emit [.stop] else pure ())
      (if s.routines then emit [.stop] else pure ()) [] := by
    cases s.routines with
    | true => exact coupled_emit [.stop] rfl
    | false => exact coupled_pure trivial
  exact chosen.of_run run run

section Blocks

variable {routines routines' : List Routine} {es : List (Side × Event)}

theorem coupled_openBlock (suits : Suits x y side ρ) (declarations : List Declaration)
    (body : List Statement) (extra : Option (List Declaration))
    (empty : routines'.isEmpty = routines.isEmpty) :
    Joint x y (Before s (.make declarations routines body extra))
      (openBlock declarations routines extra)
      (openBlock (respellSection ρ declarations) routines' (extra.map (respellSection ρ)))
      (side.events (sectionEvents declarations ++ sectionEvents (extra.getD []))) (At s) := by
  have enter : Joint x y (Before s (.make declarations routines body extra))
      (do if !routines.isEmpty then modify fun g => { g with hasFunction := true })
      (do if !routines'.isEmpty then modify fun g => { g with hasFunction := true }) [] (At s) := by
    rw [empty]
    cases filled : routines.isEmpty with
    | true =>
      refine (coupled_pure trivial).weaken (fun g before => ?_) fun _ => id
      exact ⟨before.inside, by simpa [Block.hasRoutines, filled] using before.routines,
        before.function⟩
    | false =>
      refine coupled_modify (fun g before => ?_) (fun _ => ⟨rfl, rfl, rfl⟩)
        fun _ _ _ _ _ => ⟨_, rfl⟩
      exact ⟨before.inside, by simpa [Block.hasRoutines, filled] using before.routines,
        before.function⟩
  have whole := Coupled.bind enter fun _ _ _ =>
    Coupled.bind (coupled_section (s := s) suits declarations).discard fun _ _ _ =>
    coupled_extra (s := s) suits extra
  simp only [openBlock, optional_bind, nil_append, side_events_append] at whole ⊢
  exact whole

theorem coupled_make (suits : Suits x y side ρ) (keeps : ∀ f ∈ s.function, Spares ρ f)
    (declarations : List Declaration) (body : List Statement) (extra : Option (List Declaration))
    (empty : routines'.isEmpty = routines.isEmpty) (nothing : routines.isEmpty = true → es = [])
    (inside : Joint x y InRoutines (generateAll andNothing (Routine.trees routines))
      (generateAll andNothing (Routine.trees routines')) es InRoutines) :
    Joint x y (Before s (.make declarations routines body extra))
      (generate (Block.make declarations routines body extra).tree)
      (generate (Block.make (respellSection ρ declarations) routines'
        (Statement.respellAll ρ body) (extra.map (respellSection ρ))).tree)
      (side.events (sectionEvents declarations ++ (sectionEvents (extra.getD []) ++
        Statement.eventsAll s body)) ++ es)
      fun g => g.hasFunction = s.routines := by
  refine Coupled.intro fun g before => ?_
  have rest : Joint x y (At s) (generateAll andNothing (Routine.trees routines))
      (generateAll andNothing (Routine.trees routines')) es
      fun g => g.hasFunction = s.routines := by
    cases filled : routines.isEmpty with
    | true =>
      rw [nothing filled, isEmpty_iff.mp filled, isEmpty_iff.mp (empty.trans filled)]
      exact (coupled_pure trivial).weaken (fun _ => id) fun g site => site.routines
    | false =>
      have some : s.routines = true := by
        simpa [Block.hasRoutines, filled] using before.routines.symm
      exact inside.weaken (fun g site => site.routines.trans some) fun g has => has.trans some.symm
  have whole := Coupled.bind (coupled_openBlock suits declarations body extra empty) fun _ _ _ =>
    Coupled.bind (coupled_statement (s := s) suits keeps (.compound body)).discard fun _ _ _ =>
    Coupled.bind coupled_closeBody fun _ _ _ => rest.ended Tree.none Tree.none
  rw [generate_block, generate_block]
  simp only [nil_append, side_events_append, append_assoc] at whole ⊢
  exact whole

theorem coupled_function {name : Option String} {result result' : TypeForm}
    {ps ps' : List Parameter} {block block' : Block}
    (inside : Joint x y (Before ⟨true, true, name⟩ block) (generate block.tree)
      (generate block'.tree) es fun g => g.hasFunction = true) :
    Joint x y InRoutines (generate (Routine.function name result ps block).tree)
      (generate (Routine.function name result' ps' block').tree) es InRoutines := by
  have leave : Joint x y (fun g => g.hasFunction = true)
      (modify fun g => { g with inFunction := false })
      (modify fun g => { g with inFunction := false }) [] InRoutines :=
    coupled_modify (fun g holds => holds) (fun _ => ⟨rfl, rfl, rfl⟩) fun _ _ _ _ _ => ⟨_, rfl⟩
  have whole := Coupled.bind (coupled_openFunction name result result' ps ps' block) fun _ _ _ =>
    Coupled.bind inside.discard fun _ _ _ => leave.ended Tree.none Tree.none
  rw [Routine.tree, Routine.tree, generate, generate]
  simp only [openFunction, bind_assoc, nil_append, append_nil] at whole
  exact whole

theorem coupled_procedure (name name' : String) (ps ps' : List Parameter) (block block' : Block) :
    Joint x y InRoutines (generate (Routine.procedure name ps block).tree)
      (generate (Routine.procedure name' ps' block').tree) [] InRoutines :=
  Coupled.ended (coupled_print (fun _ _ holds => holds) _ _) _ _

end Blocks

mutual

theorem coupled_block (suits : Suits x y side ρ) (b : Block) (s : Site)
    (keeps : ∀ f ∈ s.function, Spares ρ f)
    (apart : ∀ f ∈ b.functions, Spares ρ f) :
    Joint x y (Before s b) (generate b.tree) (generate (b.respell ρ).tree)
      (side.events (b.events s)) fun g => g.hasFunction = s.routines := by
  match b with
  | .make declarations routines body extra =>
    have empty : (Routine.respellAll ρ routines).isEmpty = routines.isEmpty := by
      cases routines <;> rfl
    have nothing : routines.isEmpty = true → side.events (Routine.eventsAll routines) = [] := by
      cases routines with
      | nil => exact fun _ => rfl
      | cons r rest => exact nofun
    have whole := coupled_make suits keeps declarations body extra empty nothing
      (coupled_routines suits routines apart)
    simp only [Block.events, side_events_append, append_assoc] at whole ⊢
    exact whole

theorem coupled_routine (suits : Suits x y side ρ) (r : Routine)
    (apart : ∀ f ∈ r.functions, Spares ρ f) :
    Joint x y InRoutines (generate r.tree) (generate (r.respell ρ).tree) (side.events r.events)
      InRoutines := by
  match r with
  | .procedure name parameters block => exact coupled_procedure _ _ _ _ _ _
  | .function name result parameters block =>
    refine coupled_function (coupled_block suits block ⟨true, true, name⟩ ?_ ?_)
    · exact fun f member => apart f (mem_append_left _ (Option.mem_toList.mpr member))
    · exact fun f member => apart f (mem_append_right _ member)

theorem coupled_routines (suits : Suits x y side ρ) (rs : List Routine)
    (apart : ∀ f ∈ Routine.functionsAll rs, Spares ρ f) :
    Joint x y InRoutines (generateAll andNothing (Routine.trees rs))
      (generateAll andNothing (Routine.trees (Routine.respellAll ρ rs)))
      (side.events (Routine.eventsAll rs)) InRoutines := by
  match rs with
  | [] => exact coupled_pure trivial
  | r :: rest =>
    rw [Routine.respellAll, Routine.trees, Routine.trees, generateAll, generateAll,
      Routine.eventsAll, side_events_append]
    refine Coupled.bind (coupled_routine suits r fun f member => ?_) fun _ _ _ =>
      coupled_routines suits rest fun f member => ?_
    · exact apart f (mem_append_left _ member)
    · exact apart f (mem_append_right _ member)

end

theorem coupled_program (p p' : Program) {es : List (Side × Event)}
    (inside : Joint x y (Before ⟨p.block.hasRoutines, false, none⟩ p.block)
      (generate p.block.tree) (generate p'.block.tree) es
      fun g => g.hasFunction = p.block.hasRoutines) :
    Joint x y (Before ⟨p.block.hasRoutines, false, none⟩ p.block) (generateProgram p.tree)
      (generateProgram p'.tree) es
      fun g => g.hasFunction = p.block.hasRoutines := by
  have header : Joint x y (Before ⟨p.block.hasRoutines, false, none⟩ p.block)
      (generate (.header (.str p.name))) (generate (.header (.str p'.name))) []
      (Before ⟨p.block.hasRoutines, false, none⟩ p.block) := coupled_pure trivial
  have whole := Coupled.bind (Coupled.bind header.discard fun _ _ _ =>
      inside.discard.ended Tree.none Tree.none).discard
    fun _ _ _ => coupled_print (fun _ _ holds => holds) "Code generation completed"
      "Code generation completed"
  rw [nil_append, append_nil] at whole
  rw [generateProgram, generateProgram, Program.tree, Program.tree, generate, generate]
  exact whole

theorem together_start (file : String) :
    Together x y {} { file := file } { file := file } :=
  ⟨mirrors_nil, mirrors_nil, mirrors_nil, fun _ _ => rfl⟩

end PascalStack.Code
