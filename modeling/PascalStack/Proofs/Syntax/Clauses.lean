import PascalStack.Proofs.Syntax.Names

/-!
# Clauses of programs

What a program declares, which types its parameters and results have, and what it assigns, wherever
in the program it stands. The standard types are the only ones that a parameter, a result or an
element is safely of.
-/

namespace PascalStack.Syntax

def TypeForm.isArray : TypeForm → Bool
  | word _ => false
  | array .. => true

def TypeForm.hasRows : TypeForm → Bool
  | word _ => false
  | array _ _ element => element.isArray

def TypeForm.bounds : TypeForm → List Expression
  | word _ => []
  | array first last element => first :: last :: element.bounds

/-- A part of a program that says what a name is or gives it a value. -/
inductive Clause where
  | declares (d : Declaration)
  | passes (τ : TypeForm)
  | assigns (a : Assignment)

namespace Clause

def nests : Clause → Bool
  | declares d => d.type.hasRows
  | passes τ => τ.isArray
  | assigns _ => false

def bounds : Clause → List Expression
  | declares d => d.type.bounds
  | passes τ => τ.bounds
  | assigns _ => []

def arrayNames : Clause → List String
  | declares d => if d.type.isArray then d.names else []
  | passes _ | assigns _ => []

end Clause

mutual

def Statement.clauses : Statement → List Clause
  | .compound items => Statement.allClauses items
  | .assign a => [.assigns a]
  | .conditional _ yes no => yes.clauses ++ no.clauses
  | .whileDo _ body | .repeatUntil body _ => body.clauses
  | .forDo start _ _ body => .assigns start :: body.clauses
  | .empty | .absent | .call .. | .mention _ | .writeln _ | .readln _ | .breakLoop
  | .continueLoop => []

def Statement.allClauses : List Statement → List Clause
  | [] => []
  | s :: rest => s.clauses ++ Statement.allClauses rest

end

mutual

def Block.clauses : Block → List Clause
  | .make declarations routines body extra =>
    declarations.map .declares ++ Routine.allClauses routines ++ (extra.getD []).map .declares ++
      Statement.allClauses body

def Routine.clauses : Routine → List Clause
  | .procedure _ parameters block =>
    parameters.map (fun q => .passes q.type) ++ block.clauses
  | .function _ result parameters block =>
    .passes result :: parameters.map (fun q => .passes q.type) ++ block.clauses

def Routine.allClauses : List Routine → List Clause
  | [] => []
  | r :: rest => r.clauses ++ Routine.allClauses rest

end

namespace Program

def clauses (p : Program) : List Clause := p.block.clauses

def Nests (p : Program) : Prop := ∃ c ∈ p.clauses, c.nests = true

def bounds (p : Program) : List Expression := p.clauses.flatMap Clause.bounds

def arrayNames (p : Program) : List String := p.clauses.flatMap Clause.arrayNames

end Program

end PascalStack.Syntax
