import PascalStack.Proofs.Syntax.Names
import PascalStack.Proofs.Syntax.Runs
import PascalStack.Proofs.Syntax.Types

/-!
# Execution of programs

How whole programs run, with real numbers, routines and input. Every value that a run gives to a
variable, every limit of a counted loop that it finds and every line that it writes is kept, also
when the run comes to a stop. Inside a function its name is the variable of its result. Arrays are
left out: a block that declares one does not start.
-/

namespace PascalStack.Syntax

/-- A value: a number, a truth value or a text. -/
inductive Scalar where
  | number (q : Rat)
  | truth (b : Bool)
  | text (s : String)
  deriving DecidableEq

namespace Scalar

def number? : Scalar → Option Rat
  | number q => some q
  | _ => none

def truth? : Scalar → Option Bool
  | truth b => some b
  | _ => none

def text? : Scalar → Option String
  | text s => some s
  | _ => none

def whole? : Scalar → Option Int
  | number q => if q.den = 1 then some q.num else none
  | _ => none

def IsWhole (v : Scalar) : Prop := ∃ n : Int, v = number n

def compare? : Scalar → Scalar → Option Ordering
  | number a, number b => some (compareOfLessAndEq a b)
  | truth a, truth b => some (compare a b)
  | text a, text b => some (compare a b)
  | _, _ => none

def divide (f : Int → Int → Int) (a b : Scalar) : Option Scalar := do
  let m ← a.whole?
  let n ← b.whole?
  if n = 0 then none else some (number (f m n))

def operate : Operator → Scalar → Scalar → Option Scalar
  | .plus, number a, number b => some (number (a + b))
  | .plus, text a, text b => some (text (a ++ b))
  | .minus, number a, number b => some (number (a - b))
  | .times, number a, number b => some (number (a * b))
  | .quotient, a, b => divide Int.fdiv a b
  | .remainder, a, b => divide Int.fmod a b
  | .both, truth a, truth b => some (truth (a && b))
  | .either, truth a, truth b => some (truth (a || b))
  | op, a, b => do return truth (← op.test? (← a.compare? b))

/-- The value of an operation by its sign. The sign of the division of real numbers is no other
operator's. -/
def apply (sign : String) (a b : Scalar) : Option Scalar :=
  if sign = "/" then do
    let x ← a.number?
    let y ← b.number?
    if y = 0 then none else some (number (x / y))
  else do operate (← Operator.ofSign? sign) a b

def negate (sign : String) : Scalar → Option Scalar
  | truth b => if isNot sign then some (truth !b) else none
  | number q => if sign = "-" then some (number (-q)) else none
  | text _ => none

def place? (index : Scalar) : Option Nat := do
  let i ← index.whole?
  if i < 1 then none else some (i - 1).toNat

def character? (v index : Scalar) : Option Scalar := do
  let s ← v.text?
  return text (String.singleton (← s.toList[← index.place?]?))

def withCharacter? (v index new : Scalar) : Option Scalar := do
  let s ← v.text?
  let i ← index.place?
  match (← new.text?).toList with
  | [c] => if i < s.length then some (text (String.ofList (s.toList.set i c))) else none
  | _ => none

end Scalar

def BaseType.admits : BaseType → Scalar → Bool
  | integer, v => v.whole?.isSome
  | real, v => v.number?.isSome
  | boolean, v => v.truth?.isSome
  | string, v => v.text?.isSome

/-- The place of a variable, with the type that the variable is declared with. -/
structure Location where
  index : Nat
  type : BaseType
  deriving DecidableEq

/-- Something that a run does. -/
inductive Happening where
  | gave (x : String) (τ : BaseType) (v : Scalar)
  | limited (v : Scalar)
  | wrote (line : List Scalar)
  deriving DecidableEq

inductive Stop where
  | stuck
  | unfinished
  deriving DecidableEq

/-- The state of a run. -/
structure Machine where
  cells : Location → Option Scalar := fun _ => none
  next : Nat := 0
  input : List Scalar := []
  events : List Happening := []

abbrev Exec := EStateM Stop Machine

namespace Exec

def demand {α : Type} : Option α → Exec α
  | some a => pure a
  | none => throw .stuck

def record (e : Happening) : Exec Unit := modify fun m => { m with events := m.events ++ [e] }

def allocate (τ : BaseType) : Exec Location :=
  modifyGet fun m => (⟨m.next, τ⟩, { m with next := m.next + 1 })

def fetch (l : Location) : Exec Scalar := do demand ((← get).cells l)

def give (x : String) (l : Location) (v : Scalar) : Exec Unit :=
  modify fun m => { m with
    cells := Function.update m.cells l (some v)
    events := m.events ++ [.gave x l.type v] }

def receive (τ : BaseType) : Exec Scalar := do
  match (← get).input with
  | [] => throw .stuck
  | v :: rest =>
    modify fun m => { m with input := rest }
    if τ.admits v then return v else throw .stuck

def rounds : Nat → Exec Bool → Exec Unit
  | 0, _ => throw .unfinished
  | n + 1, round => do if ← round then rounds n round

end Exec

open Exec

/-! ## Names -/

/-- What names stand for, the innermost name first. A routine knows itself and what is around it. -/
inductive Bindings where
  | empty
  | cell (x : String) (l : Location) (outer : Bindings)
  | routine (r : Routine) (outer : Bindings)

/-- What a name stands for. -/
inductive Denotation where
  | cell (l : Location)
  | routine (r : Routine) (known : Bindings)

def Routine.name? : Routine → Option String
  | procedure x _ _ => some x
  | function x _ _ _ => x

def Routine.parameters : Routine → List Parameter
  | procedure _ ps _ | function _ _ ps _ => ps

namespace Bindings

def lookup (x : String) : Bindings → Option Denotation
  | empty => none
  | cell y l outer => if x = y then some (.cell l) else outer.lookup x
  | routine r outer =>
    if r.name? = some x then some (.routine r (.routine r outer)) else outer.lookup x

def place? (ρ : Bindings) (x : String) : Option Location :=
  match ρ.lookup x with
  | some (.cell l) => some l
  | _ => none

def declareNames (τ : BaseType) (ρ : Bindings) : List Variable → Exec Bindings
  | [] => pure ρ
  | .name x :: rest => do (cell x (← allocate τ) ρ).declareNames τ rest
  | .element .. :: _ => throw .stuck

def declare (ρ : Bindings) : List Declaration → Exec Bindings
  | [] => pure ρ
  | d :: rest => do (← ρ.declareNames (← demand d.type.base?) d.declared).declare rest

def routines (ρ : Bindings) (rs : List Routine) : Bindings := rs.foldl (fun ρ r => .routine r ρ) ρ

def pass (ρ : Bindings) : List Parameter → List Scalar → Exec Bindings
  | [], [] => pure ρ
  | p :: ps, v :: vs => do
    let l ← allocate (← demand p.type.base?)
    give p.name l v
    (cell p.name l ρ).pass ps vs
  | _, _ => throw .stuck

def result (ρ : Bindings) (l : Location) : Option String → Bindings
  | some x => .cell x l ρ
  | none => ρ

end Bindings

/-- What the language leaves open. -/
structure Convention where
  limit : LimitRule
  reading : Float → Rat

def Literal.scalar (reading : Float → Rat) : Literal → Scalar
  | integer n => .number n
  | decimal x => .number (reading x)
  | truth b | verdict b => .truth b
  | phrase s => .text (phraseText s)

abbrev Invoke := Routine → Bindings → List Scalar → Exec (Option Scalar)

section Running

variable (c : Convention) (invoke : Invoke)

def Bindings.value (ρ : Bindings) (x : String) : Exec Scalar :=
  match ρ.lookup x with
  | some (.cell l) => fetch l
  | some (.routine r known) => do demand (← invoke r known [])
  | none => throw .stuck

def Bindings.call (ρ : Bindings) (f : String) (arguments : List Scalar) : Exec (Option Scalar) :=
  match ρ.lookup f with
  | some (.routine r known) => if isInputOutput f then throw .stuck else invoke r known arguments
  | _ => throw .stuck

def Bindings.mention (ρ : Bindings) (x : String) : Exec Unit :=
  match ρ.lookup x with
  | some (.routine r known) => discard (invoke r known [])
  | _ => pure ()

mutual

def Expression.compute (ρ : Bindings) : Expression → Exec Scalar
  | .literal l => pure (l.scalar c.reading)
  | .name x => ρ.value invoke x
  | .element x index => do
    let i ← index.compute ρ
    demand ((← ρ.value invoke x).character? i)
  | .call f arguments => do
    let values ← Expression.computeAll ρ arguments
    demand (← ρ.call invoke f values)
  | .length operand => do return .number (← demand (← operand.compute ρ).text?).length
  | .negation sign operand => do demand ((← operand.compute ρ).negate sign)
  | .operation left sign right => do
    let a ← left.compute ρ
    let b ← right.compute ρ
    demand (a.apply sign b)

def Expression.computeAll (ρ : Bindings) : List Expression → Exec (List Scalar)
  | [] => pure []
  | e :: rest => do
    let v ← e.compute ρ
    return v :: (← Expression.computeAll ρ rest)

end

def Expression.test (ρ : Bindings) (e : Expression) : Exec Bool := do
  demand (← e.compute c invoke ρ).truth?

def Expression.findLimit (ρ : Bindings) (e : Expression) : Exec Rat := do
  let v ← e.compute c invoke ρ
  record (.limited v)
  demand v.number?

def Assignment.perform (ρ : Bindings) : Assignment → Exec Unit
  | ⟨.name x, value⟩ => do
    let v ← value.compute c invoke ρ
    give x (← demand (ρ.place? x)) v
  | ⟨.element x index, value⟩ => do
    let i ← index.compute c invoke ρ
    let v ← value.compute c invoke ρ
    let l ← demand (ρ.place? x)
    give x l (← demand ((← fetch l).withCharacter? i v))

def Variable.read (ρ : Bindings) : Variable → Exec Unit
  | .name x => do
    let l ← demand (ρ.place? x)
    give x l (← receive l.type)
  | .element .. => throw .stuck

def whileLoop (fuel : Nat) (test : Exec Bool) (body : Exec Outcome) : Exec Unit :=
  rounds fuel do if ← test then return (← body) != .broken else return false

def repeatLoop (fuel : Nat) (body : Exec Outcome) (test : Exec Bool) : Exec Unit :=
  rounds fuel do if (← body) == .broken then return false else return !(← test)

def isPast (step : Int) (i limit : Rat) : Bool := if step < 0 then i < limit else limit < i

def countedLoop (fuel : Nat) (x : String) (l : Location) (step : Int) (limit : Exec Rat)
    (body : Exec Outcome) : Exec Unit :=
  rounds fuel do
    let n ← limit
    let i ← demand (← fetch l).number?
    if isPast step i n then return false
    else if (← body) == .broken then return false
    else
      let j ← demand (← fetch l).number?
      give x l (.number (j + step))
      return true

def forLoop (fuel : Nat) (ρ : Bindings) (start : Assignment) (direction : String)
    (limit : Expression) (body : Exec Outcome) : Exec Unit :=
  match start with
  | ⟨.name x, value⟩ => do
    let v ← value.compute c invoke ρ
    let l ← demand (ρ.place? x)
    let step ← demand (step? direction)
    match c.limit with
    | .once => do
      let n ← limit.findLimit c invoke ρ
      give x l v
      countedLoop fuel x l step (pure n) body
    | .always => do
      give x l v
      countedLoop fuel x l step (limit.findLimit c invoke ρ) body
  | ⟨.element .., _⟩ => do
    start.perform c invoke ρ
    discard (limit.findLimit c invoke ρ)
    throw .stuck

mutual

def Statement.perform (fuel : Nat) (ρ : Bindings) : Statement → Exec Outcome
  | .empty | .absent => pure .normal
  | .compound items => Statement.performAll fuel ρ items
  | .assign a => do
    a.perform c invoke ρ
    return .normal
  | .conditional condition yes no => do
    if ← condition.test c invoke ρ then yes.perform fuel ρ else no.perform fuel ρ
  | .whileDo condition body => do
    whileLoop fuel (condition.test c invoke ρ) (body.perform fuel ρ)
    return .normal
  | .repeatUntil body condition => do
    repeatLoop fuel (body.perform fuel ρ) (condition.test c invoke ρ)
    return .normal
  | .forDo start direction limit body => do
    forLoop c invoke fuel ρ start direction limit (body.perform fuel ρ)
    return .normal
  | .call f arguments => do
    discard (ρ.call invoke f (← Expression.computeAll c invoke ρ arguments))
    return .normal
  | .mention x => do
    ρ.mention invoke x
    return .normal
  | .writeln arguments => do
    record (.wrote (← Expression.computeAll c invoke ρ arguments))
    return .normal
  | .readln targets => do
    targets.forM fun target => target.read ρ
    return .normal
  | .breakLoop => pure .broken
  | .continueLoop => pure .continued

def Statement.performAll (fuel : Nat) (ρ : Bindings) : List Statement → Exec Outcome
  | [] => pure .normal
  | s :: rest => do
    match ← s.perform fuel ρ with
    | .normal => Statement.performAll fuel ρ rest
    | o => pure o

end

def Block.perform (fuel : Nat) (ρ : Bindings) : Block → Exec Unit
  | .make declarations routines body extra => do
    let ρ₁ ← ρ.declare declarations
    let ρ₂ ← (ρ₁.routines routines).declare (extra.getD [])
    discard (Statement.performAll c invoke fuel ρ₂ body)

end Running

def invokeWith (c : Convention) : Nat → Invoke
  | 0, _, _, _ => throw .unfinished
  | fuel + 1, .procedure _ parameters block, ρ, arguments => do
    let ρ₁ ← ρ.pass parameters arguments
    block.perform c (invokeWith c fuel) fuel ρ₁
    return none
  | fuel + 1, .function x τ parameters block, ρ, arguments => do
    let ρ₁ ← ρ.pass parameters arguments
    let l ← allocate (← demand τ.base?)
    block.perform c (invokeWith c fuel) fuel (ρ₁.result l x)
    return some (← fetch l)

def Program.perform (c : Convention) (fuel : Nat) (input : List Scalar) (p : Program) : Machine :=
  match (p.block.perform c (invokeWith c fuel) fuel .empty).run { input := input } with
  | .ok _ m | .error _ m => m

end PascalStack.Syntax
