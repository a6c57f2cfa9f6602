import PascalStack.Proofs.Syntax.Basic
import PascalStack.Proofs.Token.Lexemes

/-!
# The shape of programs as they are written

Syntax has room for more than can be written: truth values that folding found, branches that are not
there, operators, directions and types of any spelling. Programs that are well formed have none of
it.
-/

namespace PascalStack.Syntax

open PascalStack.Piece (small IsQuoted)

def Spelt (words : List String) (s : String) : Prop := ∃ word ∈ words, small s.toList = word.toList

def operators : List String :=
  ["+", "-", "*", "/", "div", "mod", "=", "<>", "<", "<=", ">", ">=", "and", "or"]

def typeNames : List String := ["real", "integer", "boolean", "string"]

def directions : List String := ["to", "downto"]

def Literal.WellFormed : Literal → Prop
  | .integer _ | .decimal _ | .truth _ => True
  | .verdict _ => False
  | .phrase s => IsQuoted s.toList

mutual

def Expression.WellFormed : Expression → Prop
  | .literal l => l.WellFormed
  | .name _ => True
  | .element _ index => index.WellFormed
  | .call _ arguments => Expression.AllWellFormed arguments
  | .length operand => operand.WellFormed
  | .negation sign operand => sign = "NOT" ∧ operand.WellFormed
  | .operation left op right => left.WellFormed ∧ Spelt operators op ∧ right.WellFormed

def Expression.AllWellFormed : List Expression → Prop
  | [] => True
  | e :: rest => e.WellFormed ∧ Expression.AllWellFormed rest

end

def Variable.WellFormed : Variable → Prop
  | name _ => True
  | element _ index => index.WellFormed

def TypeForm.WellFormed : TypeForm → Prop
  | word s => Spelt typeNames s
  | array first last element => first.WellFormed ∧ last.WellFormed ∧ element.WellFormed

structure Declaration.WellFormed (d : Declaration) : Prop where
  nonempty : d.declared ≠ []
  declared : ∀ v ∈ d.declared, v.WellFormed
  type : d.type.WellFormed

def Parameter.WellFormed (p : Parameter) : Prop := p.type.WellFormed

structure Assignment.WellFormed (a : Assignment) : Prop where
  target : a.target.WellFormed
  value : a.value.WellFormed

mutual

/-- A statement is one that can be written. Only the second branch of a conditional statement may
not be there. -/
def Statement.WellFormed : Statement → Prop
  | .empty | .mention _ | .breakLoop | .continueLoop => True
  | .absent => False
  | .compound items => Statement.AllWellFormed items
  | .assign a => a.WellFormed
  | .conditional condition yes no =>
    condition.WellFormed ∧ yes.WellFormed ∧ (no = .absent ∨ no.WellFormed)
  | .whileDo condition body => condition.WellFormed ∧ body.WellFormed
  | .repeatUntil body condition => body.WellFormed ∧ condition.WellFormed
  | .forDo start direction limit body =>
    start.WellFormed ∧ Spelt directions direction ∧ limit.WellFormed ∧ body.WellFormed
  | .call _ arguments | .writeln arguments => Expression.AllWellFormed arguments
  | .readln targets => ∀ v ∈ targets, v.WellFormed

def Statement.AllWellFormed : List Statement → Prop
  | [] => True
  | s :: rest => s.WellFormed ∧ Statement.AllWellFormed rest

end

mutual

def Block.WellFormed : Block → Prop
  | .make declarations routines body extra =>
    (∀ d ∈ declarations, d.WellFormed) ∧ Routine.AllWellFormed routines ∧
      Statement.AllWellFormed body ∧ ∀ ds ∈ extra, ∀ d ∈ ds, d.WellFormed

def Routine.WellFormed : Routine → Prop
  | .procedure _ parameters block => (∀ p ∈ parameters, p.WellFormed) ∧ block.WellFormed
  | .function _ result parameters block =>
    result.WellFormed ∧ (∀ p ∈ parameters, p.WellFormed) ∧ block.WellFormed

def Routine.AllWellFormed : List Routine → Prop
  | [] => True
  | r :: rest => r.WellFormed ∧ Routine.AllWellFormed rest

end

def Program.WellFormed (p : Program) : Prop := p.block.WellFormed

theorem Expression.allWellFormed_append {es es' : List Expression}
    (first : Expression.AllWellFormed es) (second : Expression.AllWellFormed es') :
    Expression.AllWellFormed (es ++ es') := by
  induction es with
  | nil => exact second
  | cons e rest ih => exact ⟨first.1, ih first.2⟩

end PascalStack.Syntax
