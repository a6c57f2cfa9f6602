import PascalStack.Proofs.Syntax.Basic
import PascalStack.Text.LetterCase
import PascalStack.Tree.Text

/-!
# What the code of a program asks for

Code is written statement by statement, in the order of the text, the body of a block before its
routines. On the way variables are declared, get cells and are used, and texts are written. Each of
these is an event; a program is supplied if every event has what it asks for from the events
before it.
-/

namespace PascalStack.Syntax

/-- Where the cell of a variable is looked for. -/
inductive Reach where
  | program
  | routine
  | nearest

/-- What happens to a name or a text while code is written. -/
inductive Event where
  | declares (x type : String)
  /-- A variable is stored into; from then on it has a cell of the program, or of the routine at
  hand. -/
  | stores (inside : Bool) (x : String)
  | returns
  | uses (reach : Reach) (x : String)
  | writes (t : Tree)
  | outputs (stored : Bool) (x : String)
  | inputs (types : List String) (x : String)
  | indexes (reach : Reach) (x : String) (index : Option String)
  | fails

/-- The variables that have cells, and the types declared, the last ones first. -/
structure Known where
  globals : List String := []
  locals : List String := []
  types : List (String × String) := []

def Known.type? (k : Known) (x : String) : Option String := k.types.lookup x

def Known.Has (k : Known) (x : String) : Reach → Prop
  | .program => x ∈ k.globals
  | .routine => x ∈ k.locals
  | .nearest => x ∈ k.locals ∨ x ∈ k.globals

instance (k : Known) (x : String) : (reach : Reach) → Decidable (k.Has x reach)
  | .program => inferInstanceAs (Decidable (x ∈ k.globals))
  | .routine => inferInstanceAs (Decidable (x ∈ k.locals))
  | .nearest => inferInstanceAs (Decidable (x ∈ k.locals ∨ x ∈ k.globals))

def Event.Met (k : Known) : Event → Prop
  | declares .. | stores .. | returns => True
  | uses reach x => k.Has x reach
  | writes t => t.text.isOk = true
  | outputs stored x =>
    ∃ type ∈ k.type? x, stored = true → type = "integer" → x ∈ k.globals
  | inputs _ x => (k.type? x).isSome = true
  | indexes reach x index =>
    x ∈ k.globals ∧ ∃ type ∈ k.type? x, type = "string" → ∃ y ∈ index, k.Has y reach
  | fails => False

instance (k : Known) : (e : Event) → Decidable (e.Met k)
  | .declares .. | .stores .. | .returns => .isTrue trivial
  | .uses reach x => inferInstanceAs (Decidable (k.Has x reach))
  | .writes t => inferInstanceAs (Decidable (t.text.isOk = true))
  | .outputs stored x => inferInstanceAs (Decidable
      (∃ type ∈ k.type? x, stored = true → type = "integer" → x ∈ k.globals))
  | .inputs _ x => inferInstanceAs (Decidable ((k.type? x).isSome = true))
  | .indexes reach x index => inferInstanceAs (Decidable
      (x ∈ k.globals ∧ ∃ type ∈ k.type? x, type = "string" → ∃ y ∈ index, k.Has y reach))
  | .fails => .isFalse id

def Known.after (k : Known) : Event → Known
  | .declares x type => { k with types := (x, type) :: k.types }
  | .stores false x => { k with globals := x :: k.globals }
  | .stores true x => { k with locals := x :: k.locals }
  | .returns => { k with locals := [] }
  | .inputs types x =>
    if (k.type? x).any types.contains then { k with globals := x :: k.globals } else k
  | .uses .. | .writes _ | .outputs .. | .indexes .. | .fails => k

def Known.afterAll (k : Known) (es : List Event) : Known := es.foldl Known.after k

def SuppliedFrom (k : Known) (es : List Event) : Prop :=
  ∀ before e later, es = before ++ e :: later → e.Met (k.afterAll before)

/-- Each need is met by what comes before it. -/
def Supplied (es : List Event) : Prop := SuppliedFrom {} es

section Supplied

variable {k : Known} {e : Event} {es es' : List Event}

@[simp] theorem afterAll_nil (k : Known) : k.afterAll [] = k := rfl

@[simp] theorem afterAll_cons (k : Known) (e : Event) (es : List Event) :
    k.afterAll (e :: es) = (k.after e).afterAll es := rfl

@[simp] theorem afterAll_append (k : Known) (es es' : List Event) :
    k.afterAll (es ++ es') = (k.afterAll es).afterAll es' := List.foldl_append

@[simp] theorem suppliedFrom_nil (k : Known) : SuppliedFrom k [] := by
  intro before e later split
  simp at split

@[simp] theorem suppliedFrom_cons :
    SuppliedFrom k (e :: es) ↔ e.Met k ∧ SuppliedFrom (k.after e) es := by
  constructor
  · intro supplied
    refine ⟨supplied [] e es rfl, fun before e' later split => ?_⟩
    exact supplied (e :: before) e' later (by rw [split]; rfl)
  · rintro ⟨met, supplied⟩ before e' later split
    cases before with
    | nil =>
      injection split with head _
      exact head ▸ met
    | cons first before =>
      injection split with head tail
      subst head
      exact supplied before e' later tail

theorem suppliedFrom_append :
    SuppliedFrom k (es ++ es') ↔ SuppliedFrom k es ∧ SuppliedFrom (k.afterAll es) es' := by
  induction es generalizing k with
  | nil => simp
  | cons e es ih => simp [ih, and_assoc]

instance decidableSuppliedFrom (k : Known) : (es : List Event) → Decidable (SuppliedFrom k es)
  | [] => .isTrue (suppliedFrom_nil k)
  | e :: es =>
    have := decidableSuppliedFrom (k.after e) es
    decidable_of_iff (e.Met k ∧ SuppliedFrom (k.after e) es) suppliedFrom_cons.symm

instance (es : List Event) : Decidable (Supplied es) := inferInstanceAs (Decidable (SuppliedFrom {} es))

end Supplied

/-- Where code stands: whether the program has routines, whether the code is in a function, and the
name of the function. -/
structure Site where
  routines : Bool
  inside : Bool
  function : Option String

def Site.reading (s : Site) : Reach := if s.inside then .nearest else .program

def Site.counting (s : Site) : Reach := if s.inside then .routine else .program

def Expression.named? : Expression → Option String
  | name x | element x _ => some x
  | _ => none

mutual

def Expression.leftEvents (s : Site) : Expression → List Event
  | .name x => [.uses s.reading x]
  | .literal l => [.writes l.value]
  | .element x index => [.indexes s.reading x index.named?]
  | .operation left _ right => left.leftEvents s ++ right.rightEvents s
  | .call .. | .length _ | .negation .. => []

def Expression.rightEvents (s : Site) : Expression → List Event
  | .name x => [.uses s.reading x]
  | .literal (.integer n) => [.writes (.int n)]
  | .literal _ => []
  | .element x _ => [.uses .program x]
  | .operation left _ right => left.leftEvents s ++ right.rightEvents s
  | .call .. | .length _ | .negation .. => []

end

def Expression.used (reach : Reach) (e : Expression) : Event :=
  match e.named? with
  | some x => .uses reach x
  | none => .fails

def Expression.events (s : Site) : Expression → List Event
  | operation left _ right => left.leftEvents s ++ right.rightEvents s
  | call _ arguments => arguments.map (Expression.used .program)
  | _ => []

def Expression.testEvents (s : Site) : Expression → List Event
  | name x => [.uses s.reading x]
  | e => e.events s

def Expression.limitEvents (s : Site) : Expression → List Event
  | literal l => [.writes l.value]
  | name x => [.uses s.counting x]
  | _ => [.fails]

def Expression.outputEvents (s : Site) : Expression → List Event
  | literal (.phrase _) | literal (.verdict _) => []
  | literal _ => [.fails]
  | name x => [.outputs (!s.routines) x]
  | _ => []

def Variable.inputEvent : Variable → Event
  | name x => .inputs ["string", "integer"] x
  | element x _ => .inputs ["integer"] x

def Expression.lengthEvents (s : Site) : Expression → List Event
  | name x => [.uses .program x]
  | e => e.events s

/-- The events of storing a value into a variable. Truth values go to the program, and texts,
calls, elements and negations are not stored. -/
def Expression.storeEvents (s : Site) (x : String) : Expression → List Event
  | literal (.integer n) => [.writes (.int n), .stores s.inside x]
  | literal (.decimal _) => [.stores s.inside x]
  | literal (.truth _) => [.stores false x]
  | literal (.verdict _) | literal (.phrase _) | element .. | negation .. => []
  | length operand => operand.lengthEvents s ++ [.stores s.inside x]
  | operation left op right => (operation left op right).events s ++ [.stores s.inside x]
  | call f arguments => (call f arguments).events s
  | name y =>
    -- To store into the name of the function is to return.
    if s.function = some x then [.uses .nearest y, .returns]
    else [.stores s.inside x, .uses .nearest y]

def assignEvents (s : Site) (x : String) (value : Expression) : List Event :=
  .writes value.tree :: value.storeEvents s x

mutual

def Statement.events (s : Site) : Statement → List Event
  | .assign ⟨.name x, value⟩ => assignEvents s x value
  | .compound items => Statement.eventsAll s items
  | .conditional condition yes no =>
    condition.testEvents s ++ (yes.events s ++ no.events s)
  | .whileDo condition body => condition.events s ++ body.events s
  | .forDo ⟨.name x, value⟩ _ limit body =>
    assignEvents s x value ++ (.uses s.counting x :: (limit.limitEvents s ++
      (body.events s ++ [.uses s.counting x])))
  | .forDo ⟨.element .., _⟩ .. => [.fails]
  | .call f arguments => (Expression.call f arguments).events s
  | .writeln arguments => arguments.flatMap (Expression.outputEvents s)
  | .readln targets => targets.map Variable.inputEvent
  | .empty | .absent | .assign ⟨.element .., _⟩ | .repeatUntil .. | .mention _ | .breakLoop
  | .continueLoop => []

def Statement.eventsAll (s : Site) : List Statement → List Event
  | [] => []
  | item :: rest => item.events s ++ Statement.eventsAll s rest

end

def Declaration.events (d : Declaration) : List Event :=
  d.declared.map fun v => .declares v.base (Text.lower d.type.innermost)

def sectionEvents (ds : List Declaration) : List Event := ds.flatMap Declaration.events

mutual

def Block.events (s : Site) : Block → List Event
  | .make declarations routines body extra =>
    sectionEvents declarations ++ (sectionEvents (extra.getD []) ++
      (Statement.eventsAll s body ++ Routine.eventsAll routines))

def Routine.events : Routine → List Event
  | .procedure .. => []
  | .function name _ _ block => block.events ⟨true, true, name⟩

def Routine.eventsAll : List Routine → List Event
  | [] => []
  | r :: rest => r.events ++ Routine.eventsAll rest

end

def Block.hasRoutines : Block → Bool
  | .make _ routines _ _ => !routines.isEmpty

def Program.events (p : Program) : List Event :=
  p.block.events ⟨p.block.hasRoutines, false, none⟩

end PascalStack.Syntax
