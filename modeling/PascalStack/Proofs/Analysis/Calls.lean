import PascalStack.Proofs.Analysis.Declaring
import PascalStack.Proofs.SideBySide
import PascalStack.Proofs.Syntax.Execution

/-!
# Calls at different places

From the declaration of a function on, the analysis comes to a place of the program by steps: it
goes past expressions, statements, declarations and routines, and enters loops, blocks and routines.
As long as no step declares the name again, a call is checked alike at every place. The function
itself declares its name again, for its result, so that in its own block no call of it is accepted.
-/

namespace PascalStack.Syntax

def Routine.title : Routine → Tree
  | .procedure name _ _ => .str name
  | .function name _ _ _ => nameTree name

def Routine.heading : Routine → Tree
  | .procedure name parameters _ =>
    .procedureHeading (.str name) (.list (parameters.map Parameter.tree))
  | .function name result parameters _ =>
    .functionHeading (nameTree name) result.tree (.list (parameters.map Parameter.tree))

end PascalStack.Syntax

namespace PascalStack.Analysis

open Checking Syntax List

variable {α β : Type}

/-- A step of the analysis from one place of a program to another. A branch is reached past its
condition, and the body of a loop by entering the loop there. -/
inductive Step where
  | pastExpression (e : Expression)
  | pastStatement (s : Statement)
  | pastSection (ds : List Declaration)
  | pastRoutine (r : Routine)
  | intoLoop
  | intoBlock
  | intoRoutine (r : Routine)

def openRoutine (r : Routine) : Checking Unit := do
  let routine ← check r.heading
  enter
  (← ofExcept (paramsOf routine)).forM defineValue
  match r, routine with
  | .function .., .symbol s => define (← newVariable s.name s.type false)
  | _, _ => return

def Step.take : Step → Checking Unit
  | .pastExpression e => discard (check e.tree)
  | .pastStatement s => discard (check s.tree)
  | .pastSection ds => discard (check (sectionTree ds))
  | .pastRoutine r => discard (check r.tree)
  | .intoLoop => modify fun a => { a with loopLevel := a.loopLevel + 1 }
  | .intoBlock => enter
  | .intoRoutine r => openRoutine r

/-- Whether a step leaves a name with another meaning. A routine that is entered declares its own
name and its parameters; a function declares its name a second time, for its result. -/
def Step.Declares (x : String) : Step → Prop
  | .pastSection ds => ∃ d ∈ ds, .name x ∈ d.declared
  | .pastRoutine r => r.title = .str x
  | .intoRoutine r => r.title = .str x ∨ ∃ p ∈ r.parameters, p.name = x
  | .pastExpression _ | .pastStatement _ | .intoLoop | .intoBlock => False

def Likewise {γ : Type} (told : Scope → γ) (a b : Analyzer) : Prop := told b.scope = told a.scope

instance {γ : Type} (told : Scope → γ) : AdmitsJumps (Likewise told) where
  refl _ := rfl
  trans first second := second.trans first
  print _ _ := rfl
  report _ _ _ := rfl
  assign _ _ := rfl
  loop := id
  complain _ _ := rfl

/-- A name means the same to two analyzers. -/
abbrev Sees (x : String) : Analyzer → Analyzer → Prop := Likewise (Scope.view · x)

variable {x : String} {a b c a' b' : Analyzer} {v : Value}

theorem sees_define {s : Symbol} (other : s.name ≠ .str x) : Moves (Sees x) (define s) where
  of_run {a b u} run := by
    obtain rfl := run_define_ok run
    change (a.scope.define s).view x = a.scope.view x
    rw [Scope.define, Scope.view_cons, Scope.find?_insert_of_ne _ _ other, ← Scope.view_cons]

theorem sees_defineNew {name : Tree} (other : name ≠ .str x) (type : Value)
    (initialized constant value : Tree) (role : Role Value) :
    Moves (Sees x) (newSymbol name type initialized constant value role >>= define) where
  of_run run := by
    obtain ⟨s, a₁, made, defined⟩ := run_bind_ok run
    cases made
    have seen := (sees_define other).of_run defined
    exact seen

theorem sees_declareName {y : Variable} (other : y ≠ .name x) (type : Value) :
    Moves (Sees x) (declareName type y.tree) := by
  cases y with
  | element y index =>
    exact moves_textOf.seq <| moves_report .indexedDeclaration [_] rfl
  | name y =>
    have differs : Tree.str y ≠ .str x := fun same => other (by rw [Tree.str.inj same])
    refine moves_checkNew.bind fun _ => ?_
    unfold declareAs
    split
    · exact sees_defineNew differs _ _ _ _ _
    · exact moves_throw
    · split
      · split
        · exact sees_defineNew differs _ _ _ _ _
        · exact moves_throw
      · exact moves_pure
    · exact moves_pure

theorem sees_each {f : α → Checking PUnit} {xs : List α} (h : ∀ y ∈ xs, Moves (Sees x) (f y)) :
    Moves (Sees x) (xs.forM f) := by
  induction xs with
  | nil => exact moves_pure
  | cons y rest ih =>
    exact (h y mem_cons_self).bind fun _ => ih fun z mem => h z (mem_cons_of_mem _ mem)

theorem sees_section {ds : List Declaration} (other : ¬ ∃ d ∈ ds, .name x ∈ d.declared) :
    Moves (Sees x) (check (sectionTree ds)) := by
  refine (moves_whenPresent ?_).ended
  change Moves (Sees x) (checkAll andNothing (ds.map Declaration.tree))
  rw [checkAll_map]
  refine sees_each fun d mem => Moves.ended ?_
  rw [check_declaration]
  refine (moves_type d.type).bind fun type => (sees_each fun y declared => ?_).ended
  exact sees_declareName (fun same => other ⟨d, mem, same ▸ declared⟩) type

def Parametric (ps : List Parameter) (v : Value) : Prop :=
  ∃ p ∈ ps, ∃ s : Symbol, v = .symbol s ∧ s.name = .str p.name ∧
    ∀ word, p.type = .word word → ∃ type, s.type = .named type

theorem run_parameters {ps : List Parameter} {vs : List Value}
    (run : (collectAll (ps.map Parameter.tree)).run a = .ok vs b) :
    b.scope = a.scope ∧ ∀ v ∈ vs, Parametric ps v := by
  induction ps generalizing a b vs with
  | nil =>
    cases run
    exact ⟨rfl, nofun⟩
  | cons p rest ih =>
    obtain ⟨v, a₁, first, others⟩ := run_bind_ok run
    obtain ⟨us, a₂, collected, done⟩ := run_bind_ok others
    cases done
    obtain ⟨type, a₃, typed, made⟩ := run_bind_ok first
    cases made
    obtain ⟨same, all⟩ := ih collected
    have keeps : Keeps a a₃ := Moves.of_run typed
    refine ⟨same.trans keeps.scope, fun u mem => ?_⟩
    rcases mem_cons.mp mem with rfl | mem
    · exact ⟨p, mem_cons_self, _, rfl, rfl, fun word isWord =>
        named_of_word (a := a) (b := a₃) (isWord ▸ typed)⟩
    · obtain ⟨q, among, made⟩ := all u mem
      exact ⟨q, mem_cons_of_mem _ among, made⟩

structure Heads (r : Routine) (s : Symbol) : Prop where
  name : s.name = r.title
  role : ∃ params isFunction, s.role = .routine params isFunction ∧
    ∀ v ∈ params, Parametric r.parameters v

theorem run_declareRoutine {name : Tree} {result : Value} {params : List Value}
    (run : (declareRoutine name result params).run a = .ok v b) :
    ∃ s : Symbol, v = .symbol s ∧ s.name = name ∧
      (∃ isFunction, s.role = .routine params isFunction) ∧ b.scope = a.scope.define s := by
  obtain ⟨s, a₁, made, rest⟩ := run_bind_ok run
  obtain ⟨_, a₂, defined, done⟩ := run_bind_ok rest
  cases made
  cases done
  obtain rfl := run_define_ok defined
  exact ⟨_, rfl, rfl, ⟨_, rfl⟩, rfl⟩

theorem run_heading {r : Routine} (run : (check r.heading).run a = .ok v b) :
    ∃ s, v = .symbol s ∧ Heads r s ∧ b.scope = a.scope.define s := by
  obtain ⟨result, params, c, same, all, declared⟩ : ∃ result params c, c.scope = a.scope ∧
      (∀ v ∈ params, Parametric r.parameters v) ∧
        (declareRoutine r.title result params).run c = .ok v b := by
    cases r with
    | procedure name ps block =>
      rw [Routine.heading, check_procedureHeading] at run
      obtain ⟨_, a₁, new, run⟩ := run_bind_ok run
      obtain ⟨params, a₂, collected, run⟩ := run_bind_ok run
      have keeps : Keeps a a₁ := Moves.of_run new
      obtain ⟨same, all⟩ := run_parameters collected
      exact ⟨_, params, a₂, same.trans keeps.scope, all, run⟩
    | function name τ ps block =>
      rw [Routine.heading, check_functionHeading] at run
      obtain ⟨_, a₁, new, run⟩ := run_bind_ok run
      obtain ⟨_, a₂, typed, run⟩ := run_bind_ok run
      obtain ⟨params, a₃, collected, run⟩ := run_bind_ok run
      have keeps : Keeps a a₂ := Keeps.trans (Moves.of_run new) (Moves.of_run typed)
      obtain ⟨same, all⟩ := run_parameters collected
      exact ⟨_, params, a₃, same.trans keeps.scope, all, run⟩
  obtain ⟨s, rfl, named, ⟨isFunction, role⟩, scope⟩ := run_declareRoutine declared
  exact ⟨s, rfl, ⟨named, params, isFunction, role, all⟩, by rw [scope, same]⟩

theorem Heads.sees {r : Routine} {s : Symbol} (heads : Heads r s) (other : r.title ≠ .str x)
    (scope : b.scope = a.scope.define s) : Sees x a b := by
  change b.scope.view x = a.scope.view x
  rw [scope, Scope.define, Scope.view_cons,
    Scope.find?_insert_of_ne _ _ (heads.name ▸ other), ← Scope.view_cons]

theorem run_routine {r : Routine} (run : (check r.tree).run a = .ok v b) :
    ∃ s, Heads r s ∧ b.scope = a.scope.define s := by
  obtain ⟨u, a₁, heading, inside⟩ : ∃ u a₁, (check r.heading).run a = .ok u a₁ ∧
      b.scope = a₁.scope := by
    cases r with
    | procedure name ps block =>
      obtain ⟨u, a₁, heading, run⟩ := run_bind_ok run
      obtain ⟨_, a₂, inside, done⟩ := run_bind_ok run
      cases done
      exact ⟨u, a₁, heading, scope_of_inScope inside⟩
    | function name τ ps block =>
      obtain ⟨u, a₁, heading, run⟩ := run_bind_ok run
      obtain ⟨_, a₂, inside, done⟩ := run_bind_ok run
      cases done
      refine ⟨u, a₁, heading, ?_⟩
      obtain ⟨s, rfl, -⟩ := run_heading (r := .function name τ ps block) heading
      rw [checkFunction_symbol] at inside
      exact scope_of_inScope inside
  obtain ⟨s, -, heads, scope⟩ := run_heading heading
  exact ⟨s, heads, inside.trans scope⟩

theorem sees_openRoutine {r : Routine}
    (other : ¬ (r.title = .str x ∨ ∃ p ∈ r.parameters, p.name = x)) :
    Moves (Sees x) (openRoutine r) where
  of_run {a b u} run := by
    obtain ⟨v, a₁, heading, run⟩ := run_bind_ok run
    obtain ⟨s, rfl, heads, scope⟩ := run_heading heading
    obtain ⟨params, isFunction, role, all⟩ := heads.role
    obtain ⟨_, a₂, entered, run⟩ := run_bind_ok run
    have told : paramsOf (.symbol s) = .ok params := by simp only [paramsOf, role]
    obtain ⟨_, a₃, given, run⟩ := run_bind_ok run
    obtain ⟨found, rfl⟩ := run_ofExcept_ok_iff.mp given
    obtain rfl : params = _ := Except.ok.inj (told.symm.trans found)
    have title : r.title ≠ .str x := fun same => other (.inl same)
    have first : Sees x a a₁ := heads.sees title scope
    have second : Sees x a₁ a₃ := by
      cases entered
      exact congrFun (Scope.view_enter _) x
    have third : Moves (Sees x) (params.forM defineValue) := by
      refine sees_each fun v mem => ?_
      obtain ⟨p, among, t, rfl, named, -⟩ := all v mem
      exact sees_define fun same => other (.inr ⟨p, among, Tree.str.inj (named.symm.trans same)⟩)
    obtain ⟨_, a₄, defined, run⟩ := run_bind_ok run
    refine Admits.trans (Admits.trans first second) (Admits.trans (third.of_run defined) ?_)
    cases r with
    | procedure name ps block =>
      cases run
      rfl
    | function name τ ps block => exact (sees_defineNew (heads.name ▸ title) ..).of_run run

theorem sees_step {s : Step} (other : ¬ s.Declares x) : Moves (Sees x) s.take := by
  cases s with
  | pastExpression e => exact (moves_expression e).discard
  | pastStatement s => exact (moves_statement s).discard
  | pastSection ds => exact (sees_section other).discard
  | pastRoutine r =>
    refine ⟨fun run => ?_⟩
    obtain ⟨v, run⟩ := run_discard_ok run
    obtain ⟨s, heads, scope⟩ := run_routine run
    exact heads.sees other scope
  | intoLoop =>
    refine ⟨fun run => ?_⟩
    cases run
    rfl
  | intoBlock =>
    refine ⟨fun run => ?_⟩
    cases run
    exact congrFun (Scope.view_enter _) x
  | intoRoutine r => exact sees_openRoutine other

/-! ## Checks that go alike -/

def ShownSame (v : Value) : Prop := ∀ given given', valueText given v = valueText given' v

structure Abreast (a b a' b' : Analyzer) : Prop where
  here : Keeps a a'
  there : Keeps b b'
  errors : ∃ added, a'.errors = a.errors ++ added ∧ b'.errors = b.errors ++ added

theorem abreast_start (a b : Analyzer) : Abreast a b a b :=
  ⟨.refl a, .refl b, [], (append_nil _).symm, (append_nil _).symm⟩

/-- A check goes alike at two places: it gives the same value, of which `P` holds, and adds the same
errors, or it ends with the same fault. -/
abbrev GoesAlike (P : α → Prop) (a b : Analyzer) (m : Checking α) : Prop :=
  Alike (fun f f' _ _ => f = f') (Abreast a b) (fun v v' => v = v' ∧ P v) (Abreast a b) m m

variable {P : α → Prop} {Q : β → Prop} {m m' : Checking α} {f : α → Checking β}

theorem GoesAlike.then (first : GoesAlike P a b m) (second : ∀ v, P v → GoesAlike Q a b (f v)) :
    GoesAlike Q a b (m >>= f) := by
  refine Alike.bind first ?_
  rintro v _ ⟨rfl, holds⟩
  exact second v holds

theorem GoesAlike.either {c : Prop} [Decidable c] (yes : GoesAlike P a b m)
    (no : GoesAlike P a b m') : GoesAlike P a b (if c then m else m') :=
  Alike.ite Iff.rfl (fun _ => yes) fun _ => no

theorem goesAlike_ofExcept (x : Except Fault α) (holds : ∀ v, x = .ok v → P v) :
    GoesAlike P a b (ofExcept x) := by
  refine alike_ofExcept (F := Eq) ?_ fun _ _ _ _ same _ => same
  cases x with
  | error fault => rfl
  | ok v => exact ⟨rfl, holds v rfl⟩

theorem goesAlike_pure {v : α} (holds : P v) : GoesAlike P a b (pure v) := alike_pure ⟨rfl, holds⟩

theorem goesAlike_report (message : String) :
    GoesAlike (fun _ => True) a b (report message) := by
  rintro a' b' ⟨here, there, added, errors, errors'⟩
  refine ⟨⟨rfl, trivial⟩, here.trans (moves_complain.of_run rfl),
    there.trans (moves_complain.of_run rfl),
    added ++ [message], ?_, ?_⟩
  · exact (congrArg (· ++ [message]) errors).trans (append_assoc ..)
  · exact (congrArg (· ++ [message]) errors').trans (append_assoc ..)

theorem goesAlike_textOf (t : Tree) : GoesAlike (fun _ => True) a b (textOf t) :=
  goesAlike_ofExcept _ fun _ _ => trivial

theorem goesAlike_showing {v : Value} (settled : ShownSame v) :
    GoesAlike (fun _ => True) a b (showing v) := by
  intro a' b' abreast
  rw [run_showing, run_showing, settled b'.assigned.contains a'.assigned.contains]
  exact goesAlike_ofExcept _ (fun _ _ => trivial) a' b' abreast

theorem goesAlike_readArgument (e : Expression) :
    GoesAlike (fun _ => True) a b (readArgument e.tree) := by
  have refused (t : Tree) : GoesAlike (fun _ => True) a b (refuseTarget t) :=
    (goesAlike_textOf t).then fun _ _ => goesAlike_report _
  cases e with
  | name x =>
    rintro a' b' ⟨here, there, added, errors, errors'⟩
    have noted (c : Analyzer) : ∃ c', (readArgument (.identifier (.str x))).run c = .ok () c' ∧
        Keeps c c' ∧ c'.errors = c.errors := by
      have looked : (find? (.str x)).run c = .ok (c.scope.find? (.str x)) c := rfl
      cases found : c.scope.find? (.str x) with
      | some s =>
        rw [found] at looked
        exact ⟨_, run_seq looked rfl, AdmitsValues.assign c s.id, rfl⟩
      | none =>
        rw [found] at looked
        exact ⟨_, run_seq looked rfl, .refl c, rfl⟩
    obtain ⟨a₁, run, keeps, same⟩ := noted a'
    obtain ⟨b₁, run', keeps', same'⟩ := noted b'
    rw [Expression.tree, run, run']
    exact ⟨⟨rfl, trivial⟩, here.trans keeps, there.trans keeps', added, same.trans errors,
      same'.trans errors'⟩
  | element x index => exact goesAlike_pure trivial
  | literal l => exact refused _
  | call f arguments => exact refused _
  | length operand => exact refused _
  | negation sign operand => exact refused _
  | operation left operator right => exact refused _

section Arguments

variable {arguments : List Expression}

theorem goesAlike_items (routine : String)
    (typed : ∀ e ∈ arguments, GoesAlike ShownSame a b (check e.tree)) :
    GoesAlike (fun _ => True) a b
      (checkAll (afterArgument routine) (Expression.trees arguments)) := by
  induction arguments with
  | nil => exact goesAlike_pure trivial
  | cons e rest ih =>
    refine (typed e mem_cons_self).then fun v _ => GoesAlike.then (P := fun _ => True) ?_
      fun _ _ => ih fun d mem => typed d (mem_cons_of_mem _ mem)
    exact GoesAlike.either (goesAlike_readArgument e) (goesAlike_pure trivial)

theorem goesAlike_zip (what : String) (name : Tree) {wanted : List Value}
    (scalar : ∀ v ∈ wanted, ∀ type, paramType v = .ok type → ShownSame type) (index : Nat)
    (typed : ∀ e ∈ arguments, GoesAlike ShownSame a b (check e.tree)) :
    GoesAlike (fun _ => True) a b
      (checkZip what name index wanted (Expression.trees arguments)) := by
  induction arguments generalizing wanted index with
  | nil => exact goesAlike_pure trivial
  | cons e rest ih =>
    cases wanted with
    | nil => exact goesAlike_pure trivial
    | cons param others =>
      refine (typed e mem_cons_self).then fun found settled =>
        GoesAlike.then (P := fun _ => True) ?_ fun _ _ =>
          ih (fun v mem => scalar v (mem_cons_of_mem _ mem)) _ fun d mem =>
            typed d (mem_cons_of_mem _ mem)
      refine (goesAlike_ofExcept _ fun type told => scalar param mem_cons_self type told).then
        fun type fixed => ?_
      refine (goesAlike_ofExcept (P := fun _ => True) _ fun _ _ => trivial).then fun _ _ =>
        .either ?_ (goesAlike_pure trivial)
      exact (goesAlike_textOf _).then fun _ _ => (goesAlike_showing fixed).then fun _ _ =>
        (goesAlike_showing settled).then fun _ _ => goesAlike_report _

theorem goesAlike_call {f : String} {s : Symbol} {params : List Value} {isFunction : Bool}
    (role : s.role = .routine params isFunction)
    (scalar : ∀ v ∈ params, ∀ type, paramType v = .ok type → ShownSame type)
    (here : a.scope.view f = some s) (there : b.scope.view f = some s)
    (typed : ∀ e ∈ arguments, GoesAlike ShownSame a b (check e.tree)) :
    GoesAlike (fun _ => True) a b (check (Expression.call f arguments).tree) := by
  have called : GoesAlike (· = some s) a b (callee? standardProcedures (.str f)) := by
    intro a' b' abreast
    have found (c : Analyzer) (sees : c.scope.find? (.str f) = some s) :
        (callee? standardProcedures (.str f)).run c = .ok (some s) c := by
      have looked : (find? (.str f)).run c = .ok (c.scope.find? (.str f)) c := rfl
      rw [sees] at looked
      exact run_seq looked rfl
    rw [found a' (abreast.here.scope ▸ here), found b' (abreast.there.scope ▸ there)]
    exact ⟨⟨rfl, rfl⟩, abreast⟩
  refine called.then fun callee same => ?_
  subst same
  simp only [role]
  refine (goesAlike_ofExcept (P := fun _ => True) _ fun _ _ => trivial).then fun small _ =>
    .either ?_ ?_
  · exact (goesAlike_items small typed).then fun _ _ => goesAlike_pure trivial
  · refine GoesAlike.then (P := fun _ => True) ?_ fun _ _ => .either (goesAlike_pure trivial)
      (goesAlike_pure trivial)
    refine (goesAlike_ofExcept (P := fun _ => True) _ fun _ _ => trivial).then fun count _ =>
      .either ?_ ?_
    · exact (goesAlike_zip _ _ scalar _ typed).then fun _ _ => goesAlike_pure trivial
    · exact (goesAlike_textOf _).then fun _ _ => (goesAlike_report _).then fun _ _ =>
        goesAlike_pure trivial

end Arguments

/-- A check of a tree from two analyzers gives the same type and adds the same errors, or it ends
with the same fault. -/
def CheckedAlike (a b : Analyzer) (t : Tree) : Prop :=
  EndsAlike (fun f f' _ _ => f = f') Eq (Abreast a b) ((check t).run a) ((check t).run b)

/-- From the declaration of a function with scalar parameters on, a call of it is checked alike at
any two places that are reached by steps which do not declare its name. -/
theorem call_checked_alike {f : String} {result : TypeForm} {parameters : List Parameter}
    {block : Block} (scalar : ∀ p ∈ parameters, ∃ word, p.type = .word word)
    (declared : (check (Routine.function (some f) result parameters block).tree).run a' = .ok v a)
    {here there : List Step} (apart : ∀ s ∈ here ++ there, ¬ s.Declares f)
    (reached : (here.forM Step.take).run a = .ok () b)
    (reached' : (there.forM Step.take).run a = .ok () c) {arguments : List Expression}
    (typed : ∀ e ∈ arguments, GoesAlike ShownSame b c (check e.tree)) :
    CheckedAlike b c (Expression.call f arguments).tree := by
  obtain ⟨s, heads, scope⟩ := run_routine declared
  obtain ⟨params, isFunction, role, all⟩ := heads.role
  have known : a.scope.view f = some s := by
    rw [scope, Scope.view_define heads.name, Function.update_self]
  have sees : Sees f a b :=
    (sees_each fun s mem => sees_step (apart s (mem_append_left _ mem))).of_run reached
  have sees' : Sees f a c :=
    (sees_each fun s mem => sees_step (apart s (mem_append_right _ mem))).of_run reached'
  have fixed : ∀ v ∈ params, ∀ type, paramType v = .ok type → ShownSame type := by
    intro v mem type told
    obtain ⟨p, among, t, rfl, -, named⟩ := all v mem
    obtain ⟨word, isWord⟩ := scalar p among
    obtain ⟨name, isNamed⟩ := named word isWord
    obtain rfl : t.type = type := Except.ok.inj told
    rw [isNamed]
    exact fun _ _ => rfl
  have alike := goesAlike_call role fixed (sees.trans known) (sees'.trans known) typed
  exact (Alike.imp alike fun _ _ same => same.1) b c (abreast_start b c)

def callsItself : String :=
  "program p; var x: integer; function f(n: integer): integer; begin f := n; x := f(n) end; " ++
    "begin x := f(1) end."

/-- What the analysis of a tree says and reports; nothing, if a fault ends it. -/
def reports? (t : Tree) : Option (Bool × List String) :=
  match (analyze t).run {} with
  | .ok verdict a => some (verdict, a.errors)
  | .error .. => none

theorem run_of_reports? {t : Tree} {verdict : Bool} {errors : List String}
    (h : reports? t = some (verdict, errors)) :
    ∃ a, (analyze t).run {} = .ok verdict a ∧ a.errors = errors := by
  unfold reports? at h
  split at h
  · rename_i a run
    cases h
    exact ⟨a, run, rfl⟩
  · cases h

/-- In its own block a function is taken for its result, and the call is refused. -/
theorem callsItself_refused :
    ∃ tree a, (Pascal.parse 1 callsItself).tree = .ok tree ∧ tree ≠ .none ∧
      (analyze tree).run {} = .ok false a ∧
      a.errors = ["f is not a procedure or function",
        "Type mismatch in assignment: cannot assign None to INTEGER"] := by
  have found : ((parsed? callsItself).any fun tree => reports? tree ==
      some (false, ["f is not a procedure or function",
        "Type mismatch in assignment: cannot assign None to INTEGER"])) = true := by decide +kernel
  obtain ⟨tree, parsed, present, reported⟩ := exists_parsed found
  obtain ⟨a, run, errors⟩ := run_of_reports? (beq_iff_eq.mp reported)
  exact ⟨tree, a, parsed, present, run, errors⟩

def ofNumber : Routine :=
  .function (some "f") (.word "integer") [⟨"n", .word "integer"⟩]
    (.make [] [] [.assign ⟨.name "f", .name "n"⟩] none)

def afterwards : List Step :=
  [.intoRoutine (.procedure "q" [⟨"k", .word "real"⟩] (.make [] [] [] none)), .intoBlock,
    .pastSection [⟨[.name "x"], .word "boolean"⟩], .pastExpression (.name "x"), .intoLoop]

theorem ofNumber_checked_alike :
    ∃ v a b, (check ofNumber.tree).run { scope := standardScope } = .ok v a ∧
      (∀ s ∈ [] ++ afterwards, ¬ s.Declares "f") ∧ (afterwards.forM Step.take).run a = .ok () b ∧
      CheckedAlike a b (Expression.call "f" [.literal (.integer 1)]).tree := by
  have apart : ∀ s ∈ [] ++ afterwards, ¬ s.Declares "f" := by
    simp [afterwards, Step.Declares, Routine.title, Routine.parameters]
  obtain ⟨v, a, b, declared, reached⟩ : ∃ v a b,
      (check ofNumber.tree).run { scope := standardScope } = .ok v a ∧
        (afterwards.forM Step.take).run a = .ok () b := ⟨_, _, _, rfl, rfl⟩
  refine ⟨v, a, b, declared, apart, reached, ?_⟩
  refine call_checked_alike ?_ declared apart rfl reached ?_
  · exact forall_mem_singleton.mpr ⟨_, rfl⟩
  · exact forall_mem_singleton.mpr (goesAlike_pure fun _ _ => rfl)

end PascalStack.Analysis
