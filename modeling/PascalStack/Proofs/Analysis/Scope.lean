import Mathlib.Logic.Function.Basic
import PascalStack.Analysis.Scope
import PascalStack.Proofs.Tree.Dictionary

/-!
# What scopes know by name

Names in a program are texts. What a scope says of them is a function from texts to symbols, which
changes at one place when a symbol is defined, and not at all when a scope is entered.
-/

namespace PascalStack.Analysis

namespace Scope

variable {s s' : Scope} {symbol : Symbol} {x : String}

def view (s : Scope) (x : String) : Option Symbol := s.find? (.str x)

theorem find?_insert_of_ne {α : Type} (d : Dictionary α) {key : Tree} (value : α)
    (differs : key ≠ .str x) :
    Dictionary.find? (Dictionary.insert d key value) (.str x) = Dictionary.find? d (.str x) := by
  have other : Tree.same key (.str x) = false :=
    Bool.eq_false_iff.mpr fun same => differs (Tree.same_str_right.mp same)
  simp only [Dictionary.find?]
  induction d with
  | nil => simp [Dictionary.insert, other]
  | cons entry rest ih =>
    rw [Dictionary.insert]
    by_cases hit : Tree.same entry.1 key = true
    · have unlike : ¬ Tree.same entry.1 (.str x) = true := by
        intro same
        rw [Tree.same_str_right.mp same] at hit
        exact differs (Tree.same_str_left.mp hit)
      simp [hit, unlike]
    · by_cases found : Tree.same entry.1 (.str x) = true
      · simp [hit, found]
      · simpa [hit, List.find?_cons, found] using ih

theorem view_cons (table : Table) (outer : List Table) (x : String) :
    view ⟨table, outer⟩ x =
      (Dictionary.find? table (.str x)).or (outer.findSome? (Dictionary.find? · (.str x))) := by
  rw [view, find?, List.findSome?_cons]
  cases Dictionary.find? table (.str x) <;> rfl

theorem view_define (named : symbol.name = .str x) :
    (s.define symbol).view = Function.update s.view x (some symbol) := by
  funext y
  by_cases same : y = x
  · subst same
    simp [define, view_cons, named, Dictionary.find?_insert_self]
  · have differs : symbol.name ≠ .str y := by
      rw [named]
      intro equal
      exact same (Tree.str.inj equal).symm
    rw [Function.update_of_ne same, define, view_cons, find?_insert_of_ne s.table symbol differs,
      ← view_cons]

theorem view_define_unnamed (unnamed : ∀ x, symbol.name ≠ .str x) :
    (s.define symbol).view = s.view := by
  funext y
  rw [define, view_cons, find?_insert_of_ne s.table symbol (unnamed y), ← view_cons]

@[simp] theorem view_enter (s : Scope) : s.enter.view = s.view := by
  funext y
  rw [enter, view_cons]
  rfl

@[simp] theorem outer_define (s : Scope) (symbol : Symbol) :
    (s.define symbol).outer = s.outer := rfl

def defineAll (s : Scope) (symbols : List Symbol) : Scope := symbols.foldl define s

@[simp] theorem outer_defineAll (s : Scope) (symbols : List Symbol) :
    (s.defineAll symbols).outer = s.outer := by
  induction symbols generalizing s with
  | nil => rfl
  | cons symbol rest ih => exact (ih _).trans (s.outer_define symbol)

theorem leave_of_outer (same : s'.outer = s.enter.outer) : s'.leave = s := by
  simp [leave, leave?, same, enter]

end Scope

end PascalStack.Analysis
