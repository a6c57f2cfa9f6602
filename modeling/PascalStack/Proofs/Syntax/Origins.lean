import PascalStack.Proofs.Syntax.Demands

/-!
# Where what a name has comes from

Inside one routine a name is going to be replaced by another. What the name has at some point of the
code (a cell of the program, a cell of the routine at hand, a declared type) was given to it inside
that routine or outside of it. Events are clear if none of them meets something under the name that
comes from the other side.
-/

namespace PascalStack.Syntax

/-- Inside or outside of the routine in which a name is replaced. -/
inductive Side where
  | outer
  | inner
  deriving DecidableEq

def Side.name (x y : String) : Side → String → String
  | outer, z => z
  | inner, z => if z = x then y else z

theorem Side.name_of_ne {x y z : String} (side : Side) (h : z ≠ x) : side.name x y z = z := by
  cases side with
  | outer => rfl
  | inner => exact if_neg h

theorem Side.name_self (side : Side) (x z : String) : side.name x x z = z := by
  by_cases h : z = x
  · subst h
    cases side with
    | outer => rfl
    | inner => exact if_pos rfl
  · exact side.name_of_ne h

/-- Where the cells and the type come from that a name has, if it has them, and the types that all
names are declared with, the last ones first. -/
structure Origins where
  global : Option Side := none
  own : Option Side := none
  declared : Option Side := none
  types : List (String × String) := []

def From (side : Side) (origin : Option Side) : Prop := ∀ s ∈ origin, s = side

instance (side : Side) (origin : Option Side) : Decidable (From side origin) :=
  inferInstanceAs (Decidable (∀ s ∈ origin, s = side))

namespace Origins

def type? (o : Origins) (z : String) : Option String := o.types.lookup z

def Found (o : Origins) (side : Side) : Reach → Prop
  | .program => From side o.global
  | .routine => From side o.own
  | .nearest => From side o.own ∧ (o.own = none → From side o.global)

instance (o : Origins) (side : Side) : (reach : Reach) → Decidable (o.Found side reach)
  | .program => inferInstanceAs (Decidable (From side o.global))
  | .routine => inferInstanceAs (Decidable (From side o.own))
  | .nearest => inferInstanceAs (Decidable (From side o.own ∧ (o.own = none → From side o.global)))

end Origins

def Event.names : Event → List String
  | .declares x _ | .stores _ x | .uses _ x | .outputs _ x | .inputs _ x => [x]
  | .indexes _ x index => x :: index.toList
  | .returns | .writes _ | .fails => []

section Clear

variable (x : String)

/-- What an event on a side meets under a name comes from that side. What has no code is not
clear. -/
def Event.Clear (o : Origins) (side : Side) : Event → Prop
  | .declares .. | .returns | .writes _ => True
  | .fails => False
  | .stores inside z => z = x → From side (if inside then o.own else o.global)
  | .uses reach z => z = x → o.Found side reach
  | .outputs stored z => z = x → From side o.declared ∧
      (stored = true → o.type? z = some "integer" → From side o.global)
  | .inputs _ z => z = x → From side o.declared
  | .indexes reach z index => (z = x → From side o.global ∧ From side o.declared) ∧
      (o.type? z = some "string" → ∃ w ∈ index, w = x → o.Found side reach)

instance (o : Origins) (side : Side) : (e : Event) → Decidable (e.Clear x o side)
  | .declares .. | .returns | .writes _ => .isTrue trivial
  | .fails => .isFalse id
  | .stores inside z => inferInstanceAs (Decidable
      (z = x → From side (if inside then o.own else o.global)))
  | .uses reach z => inferInstanceAs (Decidable (z = x → o.Found side reach))
  | .outputs stored z => inferInstanceAs (Decidable (z = x → From side o.declared ∧
      (stored = true → o.type? z = some "integer" → From side o.global)))
  | .inputs _ z => inferInstanceAs (Decidable (z = x → From side o.declared))
  | .indexes reach z index => inferInstanceAs (Decidable
      ((z = x → From side o.global ∧ From side o.declared) ∧
        (o.type? z = some "string" → ∃ w ∈ index, w = x → o.Found side reach)))

def Origins.after (o : Origins) (side : Side) : Event → Origins
  | .declares z type =>
    { o with declared := if z = x then some side else o.declared, types := (z, type) :: o.types }
  | .stores false z => { o with global := if z = x then some side else o.global }
  | .stores true z => { o with own := if z = x then some side else o.own }
  | .returns => { o with own := none }
  | .inputs types z =>
    { o with global :=
        if z = x ∧ (o.type? z).any types.contains = true then some side else o.global }
  | .uses .. | .writes _ | .outputs .. | .indexes .. | .fails => o

def Origins.afterAll (o : Origins) (es : List (Side × Event)) : Origins :=
  es.foldl (fun o e => o.after x e.1 e.2) o

def ClearFrom (o : Origins) : List (Side × Event) → Prop
  | [] => True
  | e :: es => e.2.Clear x o e.1 ∧ ClearFrom (o.after x e.1 e.2) es

instance decidableClearFrom (o : Origins) : (es : List (Side × Event)) → Decidable (ClearFrom x o es)
  | [] => .isTrue trivial
  | e :: es =>
    have := decidableClearFrom (o.after x e.1 e.2) es
    inferInstanceAs (Decidable (e.2.Clear x o e.1 ∧ ClearFrom x (o.after x e.1 e.2) es))

def Undisturbed (x y : String) (o : Origins) (es : List (Side × Event)) : Prop :=
  x = y ∨ (ClearFrom x o es ∧ ∀ e ∈ es, y ∉ e.2.names)

def Side.events (side : Side) (es : List Event) : List (Side × Event) := es.map (side, ·)

variable {x} {y : String} {o : Origins} {es es' : List (Side × Event)}

@[simp] theorem origins_afterAll_nil (o : Origins) : o.afterAll x [] = o := rfl

@[simp] theorem origins_afterAll_cons (o : Origins) (e : Side × Event) (es : List (Side × Event)) :
    o.afterAll x (e :: es) = (o.after x e.1 e.2).afterAll x es := rfl

@[simp] theorem origins_afterAll_append (o : Origins) (es es' : List (Side × Event)) :
    o.afterAll x (es ++ es') = (o.afterAll x es).afterAll x es' := List.foldl_append

theorem clearFrom_append :
    ClearFrom x o (es ++ es') ↔ ClearFrom x o es ∧ ClearFrom x (o.afterAll x es) es' := by
  induction es generalizing o with
  | nil => simp [ClearFrom]
  | cons e es ih => simp [ClearFrom, ih, and_assoc]

theorem undisturbed_nil : Undisturbed x y o [] := .inr ⟨trivial, nofun⟩

theorem Undisturbed.of_append (h : Undisturbed x y o (es ++ es')) :
    Undisturbed x y o es ∧ Undisturbed x y (o.afterAll x es) es' := by
  rcases h with same | ⟨clear, fresh⟩
  · exact ⟨.inl same, .inl same⟩
  · obtain ⟨first, second⟩ := clearFrom_append.mp clear
    exact ⟨.inr ⟨first, fun e member => fresh e (List.mem_append_left _ member)⟩,
      .inr ⟨second, fun e member => fresh e (List.mem_append_right _ member)⟩⟩

theorem Undisturbed.of_event {side : Side} {e : Event} (h : Undisturbed x y o [(side, e)]) :
    x = y ∨ (e.Clear x o side ∧ y ∉ e.names) := by
  rcases h with same | ⟨clear, fresh⟩
  · exact .inl same
  · exact .inr ⟨clear.1, fresh _ (List.mem_singleton_self _)⟩

@[simp] theorem side_events_append (side : Side) (es es' : List Event) :
    side.events (es ++ es') = side.events es ++ side.events es' := List.map_append

theorem map_snd_events (side : Side) (es : List Event) : (side.events es).map Prod.snd = es := by
  simp [Side.events, Function.comp_def]

end Clear

mutual

def Block.functions : Block → List String
  | .make _ routines _ _ => Routine.functionsAll routines

def Routine.functions : Routine → List String
  | .procedure .. => []
  | .function name _ _ block => name.toList ++ block.functions

def Routine.functionsAll : List Routine → List String
  | [] => []
  | r :: rest => r.functions ++ Routine.functionsAll rest

end

end PascalStack.Syntax
