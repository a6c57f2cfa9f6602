import PascalStack.Proofs.Syntax.Execution

/-!
# Where fractions can come from

Which expressions may have a fraction as their value, as far as the types of names and the signs of
operations tell. A program keeps integers whole if no such expression stands where a whole number is
wanted: where an integer is given its value, and in the limit of a counted loop.
-/

namespace PascalStack.Syntax

/-- The types that a name is declared with: those of parameters, and that of its values. Arrays and
procedures have values of none. -/
structure Signature where
  parameters : List (Option BaseType)
  type : Option BaseType

def Signature.ofVariable (τ : Option BaseType) : Signature := ⟨[], τ⟩

def Routine.type : Routine → Option BaseType
  | procedure .. => none
  | function _ τ _ _ => τ.base?

def Routine.signature (r : Routine) : Signature :=
  ⟨r.parameters.map fun p => p.type.base?, r.type⟩

abbrev Signatures := String → Option Signature

namespace Signatures

variable (Γ : Signatures)

def type (x : String) : Option BaseType := (Γ x).bind Signature.type

def parameters (f : String) : List (Option BaseType) := ((Γ f).map Signature.parameters).getD []

def cell (x : String) (τ : Option BaseType) : Signatures :=
  Function.update Γ x (some (.ofVariable τ))

def routine (r : Routine) : Signatures :=
  match r.name? with
  | some x => Function.update Γ x (some r.signature)
  | none => Γ

def declareNames (τ : Option BaseType) (xs : List Variable) : Signatures :=
  xs.foldl (fun Γ x => Γ.cell x.base τ) Γ

def declare (ds : List Declaration) : Signatures :=
  ds.foldl (fun Γ d => Γ.declareNames d.type.base? d.declared) Γ

def pass (ps : List Parameter) : Signatures := ps.foldl (fun Γ p => Γ.cell p.name p.type.base?) Γ

def result (τ : Option BaseType) : Option String → Signatures
  | some x => Γ.cell x τ
  | none => Γ

end Signatures

def Bindings.signatures : Bindings → Signatures
  | empty => fun _ => none
  | cell x l outer => outer.signatures.cell x (some l.type)
  | routine r outer => outer.signatures.routine r

def Denotation.signature : Denotation → Signature
  | cell l => .ofVariable (some l.type)
  | routine r _ => r.signature

theorem Bindings.signatures_apply (ρ : Bindings) (x : String) :
    ρ.signatures x = (ρ.lookup x).map Denotation.signature := by
  induction ρ with
  | empty => rfl
  | cell y l outer ih =>
    rw [signatures, lookup, Signatures.cell]
    by_cases same : x = y
    · rw [if_pos same, same, Function.update_self]
      rfl
    · rw [if_neg same, Function.update_of_ne same, ih]
  | routine r outer ih =>
    rw [signatures, lookup, Signatures.routine]
    cases r.name? with
    | none => exact ih
    | some y =>
      by_cases same : x = y
      · rw [if_pos (congrArg some same.symm), same]
        exact Function.update_self ..
      · rw [if_neg fun equal => same (Option.some.inj equal).symm]
        exact (Function.update_of_ne same ..).trans ih

section Expressions

variable (Γ : Signatures)

/-- Whether the value of an expression may be a fraction: that of a numeral with a fraction, of a
real variable or function, of a division, or of what is made of such by the other operations of
arithmetic. -/
def Expression.isFractional : Expression → Bool
  | literal (.decimal _) => true
  | name x | call x _ => Γ.type x == some .real
  | negation _ operand => operand.isFractional
  | operation left sign right =>
    sign == "/" || (["+", "-", "*"].contains sign && (left.isFractional || right.isFractional))
  | _ => false

def Expression.suits (τ : Option BaseType) (e : Expression) : Bool :=
  τ != some .integer || !e.isFractional Γ

def Expression.allSuit (τs : List (Option BaseType)) (es : List Expression) : Bool :=
  (τs.zip es).all fun (τ, e) => e.suits Γ τ

mutual

def Expression.keepsWhole : Expression → Bool
  | .literal _ | .name _ => true
  | .element _ index => index.keepsWhole
  | .call f arguments =>
    Expression.allKeepWhole arguments && Expression.allSuit Γ (Γ.parameters f) arguments
  | .length operand | .negation _ operand => operand.keepsWhole
  | .operation left _ right => left.keepsWhole && right.keepsWhole

def Expression.allKeepWhole : List Expression → Bool
  | [] => true
  | e :: rest => e.keepsWhole && Expression.allKeepWhole rest

end

end Expressions

def Expression.hasCall : Expression → Bool
  | .literal _ | .name _ => false
  | .element _ index => index.hasCall
  | .call .. => true
  | .length operand | .negation _ operand => operand.hasCall
  | .operation left _ right => left.hasCall || right.hasCall

section Statements

variable (Γ : Signatures)

/-- Whether an assignment keeps integers whole. In an assignment to a part of a text there must not
be a call. -/
def Assignment.keepsWhole : Assignment → Bool
  | ⟨.name x, value⟩ => value.keepsWhole Γ && value.suits Γ (Γ.type x)
  | ⟨.element _ index, value⟩ => !index.hasCall && !value.hasCall

mutual

def Statement.keepsWhole : Statement → Bool
  | .empty | .absent | .mention _ | .readln _ | .breakLoop | .continueLoop => true
  | .compound items => Statement.allKeepWhole items
  | .assign a => a.keepsWhole Γ
  | .conditional condition yes no => condition.keepsWhole Γ && yes.keepsWhole && no.keepsWhole
  | .whileDo condition body | .repeatUntil body condition =>
    condition.keepsWhole Γ && body.keepsWhole
  | .forDo start _ limit body =>
    start.keepsWhole Γ && limit.keepsWhole Γ && !limit.isFractional Γ && body.keepsWhole
  | .call f arguments =>
    Expression.allKeepWhole Γ arguments && Expression.allSuit Γ (Γ.parameters f) arguments
  | .writeln arguments => Expression.allKeepWhole Γ arguments

def Statement.allKeepWhole : List Statement → Bool
  | [] => true
  | s :: rest => s.keepsWhole && Statement.allKeepWhole rest

end

end Statements

mutual

def Block.keepsWhole (Γ : Signatures) : Block → Bool
  | .make declarations routines body extra =>
    let declared := Γ.declare declarations
    let known := (routines.foldl Signatures.routine declared).declare (extra.getD [])
    Routine.allKeepWhole declared routines && Statement.allKeepWhole known body

def Routine.keepsWhole (Γ : Signatures) : Routine → Bool
  | .procedure x parameters block =>
    block.keepsWhole ((Γ.routine (.procedure x parameters block)).pass parameters)
  | .function x τ parameters block =>
    block.keepsWhole
      (((Γ.routine (.function x τ parameters block)).pass parameters).result τ.base? x)

def Routine.allKeepWhole (Γ : Signatures) : List Routine → Bool
  | [] => true
  | r :: rest => r.keepsWhole Γ && Routine.allKeepWhole (Γ.routine r) rest

end

/-- Whether no fraction is given to an integer variable. -/
def Program.keepsWhole (p : Program) : Bool := p.block.keepsWhole fun _ => none

end PascalStack.Syntax
