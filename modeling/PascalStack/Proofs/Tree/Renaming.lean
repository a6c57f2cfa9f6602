import PascalStack.Proofs.Tree.Respelling

/-!
# Trees with other names

The names of a program, of its variables, arrays, parameters and routines are changed wherever they
are declared and used, and the rest of a tree stays as it is.
-/

namespace PascalStack.Tree

def rename (g : String → String) (t : Tree) : Tree := t.respell { name := g, routine := g }

def spelling : Tree → List String
  | str s => [s]
  | _ => []

mutual

def names : Tree → List String
  | header name | identifier name => name.spelling
  | arrayId name a | procedureCall name a | functionCall name a | procedureHeading name a
  | parameter name a => name.spelling ++ a.names
  | arrayAssignment name a b | functionHeading name a b => name.spelling ++ a.names ++ b.names
  | list xs | tuple xs | statementSequence xs => namesAll xs
  | varDeclarationPart a | idList a | statementPart a | unaryOp _ a | writelnStatement a
  | readlnStatement a | literal a _ | lengthFunction a | marked _ a => a.names
  | program a b | varDeclaration a b | arrayType a b | range a b | assignment a b | binaryOp a _ b
  | whileStatement a b | repeatStatement a b | caseStatement a b | caseOption a b
  | procedureDeclaration a b | functionDeclaration a b => a.names ++ b.names
  | ifStatement a b c | forStatement a _ b c => a.names ++ b.names ++ c.names
  | block a b c d => a.names ++ b.names ++ c.names ++ d.names
  | none | bool _ | str _ | int _ | real _ | type _ | breakStatement | continueStatement => []

def namesAll : List Tree → List String
  | [] => []
  | t :: ts => t.names ++ namesAll ts

end

theorem namesAll_append (ts us : List Tree) : namesAll (ts ++ us) = namesAll ts ++ namesAll us := by
  induction ts with
  | nil => rfl
  | cons t ts ih => rw [List.cons_append, namesAll, namesAll, ih, List.append_assoc]

variable {f g : String → String}

theorem mapText_congr {t : Tree} (same : ∀ x ∈ t.spelling, f x = g x) :
    t.mapText f = t.mapText g := by
  cases t with
  | str s => exact congrArg str (same s (List.mem_singleton_self s))
  | _ => rfl

mutual

theorem respell_congr (t : Tree) (same : ∀ x ∈ t.names, f x = g x) :
    t.respell { name := f, routine := f } = t.respell { name := g, routine := g } := by
  match t with
  | .none | .bool _ | .str _ | .int _ | .real _ | .breakStatement | .continueStatement | .type _ =>
    rfl
  | .list xs | .tuple xs | .statementSequence xs => simp only [respell, respellAll_congr xs same]
  | .header name | .identifier name => simp only [respell, mapText_congr same]
  | .varDeclarationPart a | .idList a | .statementPart a | .writelnStatement a
  | .readlnStatement a | .lengthFunction a | .marked _ a | .unaryOp _ a | .literal a _ =>
    simp only [respell, respell_congr a same]
  | .arrayId _ a | .procedureCall _ a | .functionCall _ a | .procedureHeading _ a
  | .parameter _ a =>
    rw [names, List.forall_mem_append] at same
    simp only [respell, mapText_congr same.1, respell_congr a same.2]
  | .program a b | .varDeclaration a b | .arrayType a b | .range a b | .assignment a b
  | .whileStatement a b | .repeatStatement a b | .caseStatement a b | .caseOption a b
  | .procedureDeclaration a b | .functionDeclaration a b | .binaryOp a _ b =>
    rw [names, List.forall_mem_append] at same
    simp only [respell, respell_congr a same.1, respell_congr b same.2]
  | .arrayAssignment _ a b | .functionHeading _ a b =>
    simp only [names, List.forall_mem_append] at same
    simp only [respell, mapText_congr same.1.1, respell_congr a same.1.2, respell_congr b same.2]
  | .ifStatement a b c | .forStatement a _ b c =>
    simp only [names, List.forall_mem_append] at same
    simp only [respell, respell_congr a same.1.1, respell_congr b same.1.2, respell_congr c same.2]
  | .block a b c d =>
    simp only [names, List.forall_mem_append] at same
    simp only [respell, respell_congr a same.1.1.1, respell_congr b same.1.1.2,
      respell_congr c same.1.2, respell_congr d same.2]

theorem respellAll_congr (ts : List Tree) (same : ∀ x ∈ namesAll ts, f x = g x) :
    respellAll { name := f, routine := f } ts = respellAll { name := g, routine := g } ts := by
  match ts with
  | [] => rfl
  | t :: rest =>
    rw [namesAll, List.forall_mem_append] at same
    simp only [respellAll, respell_congr t same.1, respellAll_congr rest same.2]

end

theorem rename_congr {t : Tree} (same : ∀ x ∈ t.names, f x = g x) : t.rename f = t.rename g :=
  respell_congr t same

end PascalStack.Tree
