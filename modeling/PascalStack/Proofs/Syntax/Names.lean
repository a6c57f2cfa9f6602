import PascalStack.Proofs.Syntax.Basic
import PascalStack.Text.LetterCase

/-!
# Names and their declarations

Which names the phrases of a program use, and which names are declared where they are used: those of
the sections, parameters and headings around the place, as far as they are checked before it, and
the standard routines.
-/

namespace PascalStack.Syntax

mutual

def Expression.names : Expression → List String
  | .literal _ => []
  | .name x => [x]
  | .element x index => x :: index.names
  | .call f arguments => f :: Expression.allNames arguments
  | .length operand | .negation _ operand => operand.names
  | .operation left _ right => left.names ++ right.names

def Expression.allNames : List Expression → List String
  | [] => []
  | e :: rest => e.names ++ Expression.allNames rest

end

def Variable.names : Variable → List String
  | name x => [x]
  | element x index => x :: index.names

def TypeForm.names : TypeForm → List String
  | word _ => []
  | array first last element => first.names ++ last.names ++ element.names

structure Use where
  name : String
  ofElement : Bool

def usesOf (ofElement : Bool) (names : List String) : List Use := names.map (⟨·, ofElement⟩)

def Assignment.uses : Assignment → List Use
  | ⟨.name x, value⟩ => usesOf false (x :: value.names)
  | ⟨.element x index, value⟩ => usesOf true (x :: index.names ++ value.names)

mutual

def Statement.uses : Statement → List Use
  | .empty | .absent | .breakLoop | .continueLoop => []
  | .compound items => Statement.allUses items
  | .assign a => a.uses
  | .conditional condition yes no => usesOf false condition.names ++ yes.uses ++ no.uses
  | .whileDo condition body | .repeatUntil body condition =>
    usesOf false condition.names ++ body.uses
  | .forDo start _ limit body => start.uses ++ usesOf false limit.names ++ body.uses
  | .call f arguments => usesOf false (f :: Expression.allNames arguments)
  | .mention x => usesOf false [x]
  | .writeln arguments => usesOf false (Expression.allNames arguments)
  | .readln targets => usesOf false (targets.flatMap Variable.names)

def Statement.allUses : List Statement → List Use
  | [] => []
  | s :: rest => s.uses ++ Statement.allUses rest

end

def predefined : List String := ["writeln", "write", "readln", "read", "length"]

/-- The procedures of input and output by their names, in either case. They are called by statements
of their own. -/
def isInputOutput (f : String) : Bool :=
  ["writeln", "write", "readln", "read"].contains (Text.lower f)

def Declaration.names (d : Declaration) : List String := d.declared.map Variable.base

def SectionDeclared (visible : List String) : List Declaration → Prop
  | [] => True
  | d :: rest => d.type.names ⊆ visible ∧ SectionDeclared (d.names ++ visible) rest

def Routine.names : Routine → List String
  | procedure x _ _ => [x]
  | function x _ _ _ => x.toList

mutual

/-- The uses that count are of declared names, where `visible` names are declared around the
block. -/
def Block.UsesDeclared (counts : Use → Prop) (visible : List String) : Block → Prop
  | .make declarations routines body extra =>
    let declared := declarations.flatMap Declaration.names ++ visible
    let called := routines.flatMap Routine.names ++ declared
    SectionDeclared visible declarations ∧ Routine.AllUseDeclared counts declared routines ∧
      SectionDeclared called (extra.getD []) ∧
      ∀ use ∈ Statement.allUses body, counts use →
        use.name ∈ (extra.getD []).flatMap Declaration.names ++ called

def Routine.UsesDeclared (counts : Use → Prop) (visible : List String) : Routine → Prop
  | .procedure x parameters block =>
    (∀ p ∈ parameters, p.type.names ⊆ visible) ∧
      block.UsesDeclared counts (parameters.map Parameter.name ++ x :: visible)
  | .function x result parameters block =>
    result.names ⊆ visible ∧ (∀ p ∈ parameters, p.type.names ⊆ visible) ∧
      block.UsesDeclared counts (parameters.map Parameter.name ++ x.toList ++ visible)

def Routine.AllUseDeclared (counts : Use → Prop) (visible : List String) : List Routine → Prop
  | [] => True
  | r :: rest => r.UsesDeclared counts visible ∧
      Routine.AllUseDeclared counts (r.names ++ visible) rest

end

/-- Uses that count are of names declared before. -/
def Program.UsesDeclared (counts : Use → Prop) (p : Program) : Prop :=
  p.block.UsesDeclared counts predefined

section Counting

variable {counts counts₁ counts₂ : Use → Prop}

mutual

theorem Block.usesDeclared_of_or (h : ∀ use, counts use → counts₁ use ∨ counts₂ use) (b : Block)
    {visible : List String} (first : b.UsesDeclared counts₁ visible)
    (second : b.UsesDeclared counts₂ visible) : b.UsesDeclared counts visible := by
  match b with
  | .make declarations routines body extra =>
    obtain ⟨types, inner, extraTypes, uses⟩ := first
    obtain ⟨-, inner', -, uses'⟩ := second
    refine ⟨types, Routine.allUseDeclared_of_or h routines inner inner', extraTypes, ?_⟩
    intro use member counted
    rcases h use counted with counted | counted
    · exact uses use member counted
    · exact uses' use member counted

theorem Routine.usesDeclared_of_or (h : ∀ use, counts use → counts₁ use ∨ counts₂ use)
    (r : Routine) {visible : List String} (first : r.UsesDeclared counts₁ visible)
    (second : r.UsesDeclared counts₂ visible) : r.UsesDeclared counts visible := by
  match r with
  | .procedure x parameters block =>
    exact ⟨first.1, Block.usesDeclared_of_or h block first.2 second.2⟩
  | .function x result parameters block =>
    exact ⟨first.1, first.2.1, Block.usesDeclared_of_or h block first.2.2 second.2.2⟩

theorem Routine.allUseDeclared_of_or (h : ∀ use, counts use → counts₁ use ∨ counts₂ use)
    (rs : List Routine) {visible : List String}
    (first : Routine.AllUseDeclared counts₁ visible rs)
    (second : Routine.AllUseDeclared counts₂ visible rs) :
    Routine.AllUseDeclared counts visible rs := by
  match rs with
  | [] => trivial
  | r :: rest =>
    exact ⟨Routine.usesDeclared_of_or h r first.1 second.1,
      Routine.allUseDeclared_of_or h rest first.2 second.2⟩

end

end Counting

end PascalStack.Syntax
