import PascalStack.Tree.Dictionary

/-!
# Symbols

A symbol is what a name stands for in a scope: a variable, a routine or an array. What checking a
tree gives is a plain value, often the name of a type, or a symbol, or a group of such values.
-/

namespace PascalStack.Analysis

/-- What kind of symbol a symbol is, over a type of values. -/
inductive Role (ι : Type) where
  | variable
  | routine (params : List ι) (isFunction : Bool)
  | array (element dimensions : ι)

/-- What a name stands for. Symbols are told apart by their numbers. -/
structure SymbolOf (ι : Type) where
  id : Nat
  name : Tree
  type : ι
  initialized : Tree
  constant : Tree
  value : Tree
  role : Role ι

/-- What checking a tree gives. -/
inductive Value where
  | plain (t : Tree)
  | list (items : List Value)
  | tuple (items : List Value)
  | symbol (s : SymbolOf Value)

/-- A symbol whose types and parameters are values. -/
abbrev Symbol := SymbolOf Value

instance : Inhabited Value := ⟨.plain .none⟩

def SymbolOf.kindName {ι : Type} (s : SymbolOf ι) : String :=
  match s.role with
  | .variable => "Symbol"
  | .routine .. => "ProcedureSymbol"
  | .array .. => "ArraySymbol"

namespace Value

/-- The value of what has none. -/
def absent : Value := .plain .none

/-- The type with a name. -/
def named (name : String) : Value := .plain (.str name)

def kindName : Value → String
  | plain t => t.kindName
  | list _ => "list"
  | tuple _ => "tuple"
  | symbol s => s.kindName

/-- The tree that a value is. -/
def tree? : Value → Option Tree
  | plain t => some t
  | _ => none

def trees? (values : List Value) : Option (List Tree) := values.mapM tree?

/-- A group of values, plain if all of them are. -/
def tupleOf (values : List Value) : Value :=
  match trees? values with
  | some ts => plain (.tuple ts)
  | none => tuple values

/-- A list of values, plain if all of them are. -/
def listOf (values : List Value) : Value :=
  match trees? values with
  | some ts => plain (.list ts)
  | none => list values

def truthy : Value → Bool
  | plain t => t.truthy
  | list xs | tuple xs => !xs.isEmpty
  | symbol _ => true

/-- Whether a value is the type with a name. -/
def isNamed (name : String) : Value → Bool
  | plain t => t.isText name
  | _ => false

/-- Whether a value is a type with one of the names. -/
def isOneOf (names : List String) (v : Value) : Bool := names.any fun name => v.isNamed name

def isAbsent : Value → Bool
  | plain .none => true
  | _ => false

/-- The members of a group. -/
def tupleItems? : Value → Option (List Value)
  | plain (.tuple ts) => some (ts.map plain)
  | tuple xs => some xs
  | _ => none

def orEmpty (v : Value) : Value := if v.truthy then v else plain (.list [])

end Value

mutual

/-- Why a value cannot be a key of a table. -/
def valueFlaw? : Value → Option Fault
  | .plain t => t.keyFlaw?
  | .list _ => some (.unhashable "list")
  | .tuple xs => valuesFlaw? xs
  | .symbol _ => none

def valuesFlaw? : List Value → Option Fault
  | [] => none
  | x :: xs => valueFlaw? x <|> valuesFlaw? xs

end

/-- Stops if a value cannot be a key of a table. -/
def checkValueKey (v : Value) : Except Fault Unit :=
  match valueFlaw? v with
  | some f => .error f
  | none => .ok ()

/-- The two bounds of a dimension. -/
def boundsOf (t : Tree) : Except Fault (Tree × Tree) :=
  match t.items with
  | .ok [first, last] => .ok (first, last)
  | .ok ts => .error (if ts.length < 2 then .tooFewParts 2 ts.length else .tooManyParts 2)
  | .error _ => .error (.notUnpackable t.kindName)

def boundsText (first last : String) : String := first ++ ".." ++ last

def treeBounds (t : Tree) : Except Fault String := do
  let (first, last) ← boundsOf t
  return boundsText (← first.text) (← last.text)

mutual

/-- How a value is worded. `given` says which symbols have been given a value. -/
def valueText (given : Nat → Bool) : Value → Except Fault String
  | .plain t => t.text
  | .list xs => do return "[" ++ ", ".intercalate (← valueTexts given xs) ++ "]"
  | .tuple xs => do return "(" ++ ", ".intercalate (← valueTexts given xs) ++ ")"
  | .symbol s => symbolText given s

/-- How values are worded. -/
def valueTexts (given : Nat → Bool) : List Value → Except Fault (List String)
  | [] => .ok []
  | x :: xs => do return (← valueText given x) :: (← valueTexts given xs)

/-- How a symbol is worded, by what it is. -/
def symbolText (given : Nat → Bool) : SymbolOf Value → Except Fault String
  | ⟨id, name, type, initialized, constant, _, role⟩ => do
    match role with
    | .variable =>
      let title ← name.text
      let type ← valueText given type
      let state := if initialized.truthy || given id then "initialized" else "uninitialized"
      let mode := if constant.truthy then "constant" else "variable"
      return s!"Symbol({title}, {type}, {state}, {mode})"
    | .routine params isFunction =>
      let title ← name.text
      let kind := if isFunction then "function" else "procedure"
      let shown := ", ".intercalate (← valueTexts given params)
      return s!"{kind} {title}({shown})"
    | .array element dimensions =>
      let shown := ", ".intercalate (← dimensionsTexts given dimensions)
      let title ← name.text
      let element ← valueText given element
      return s!"ArraySymbol({title}, {element}, [{shown}])"

/-- How the dimensions of an array are worded. -/
def dimensionsTexts (given : Nat → Bool) : Value → Except Fault (List String)
  | .plain t => do (← t.items).mapM treeBounds
  | .list xs => dimensionTexts given xs
  | .tuple xs => dimensionTexts given xs
  | .symbol s => .error (.notIterable s.kindName)

def dimensionTexts (given : Nat → Bool) : List Value → Except Fault (List String)
  | [] => .ok []
  | x :: xs => do
    let bounds ← dimensionText given x
    return bounds :: (← dimensionTexts given xs)

def dimensionText (given : Nat → Bool) : Value → Except Fault String
  | .plain t => treeBounds t
  | .list [first, last] => do
    return boundsText (← valueText given first) (← valueText given last)
  | .tuple [first, last] => do
    return boundsText (← valueText given first) (← valueText given last)
  | .list xs => .error (if xs.length < 2 then .tooFewParts 2 xs.length else .tooManyParts 2)
  | .tuple xs => .error (if xs.length < 2 then .tooFewParts 2 xs.length else .tooManyParts 2)
  | .symbol s => .error (.notUnpackable s.kindName)

end

end PascalStack.Analysis
