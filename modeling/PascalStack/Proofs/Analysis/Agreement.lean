import PascalStack.Proofs.Analysis.Declaring
import PascalStack.Proofs.Syntax.Fractions

/-!
# Names in runs and in scopes

What names stand for in a run of a program agrees with what the analyzer knew of them when it
checked the place: variables have the types of their symbols, and routines were checked where they
are declared.
-/

namespace PascalStack.Analysis

open Checking Syntax

theorem passes_base {τ : TypeForm} {b : BaseType} {s s' : Scope} {v : Value}
    (h : Passes (check τ.tree) s v s') (base : τ.base? = some b) : v = .named b.name := by
  cases τ with
  | array first last element => cases base
  | word word =>
    obtain ⟨-, rfl⟩ := passes_word h
    exact congrArg Value.named (BaseType.name_of_ofWord? base).symm

structure IsHeading (s : Scope) (r : Routine) (params : List Value) (symbol : Symbol) : Prop where
  name : symbol.name = nameTree r.name?
  role : ∃ isFunction, symbol.role = .routine params isFunction
  parameters : List.Forall₂ (IsParameter s) r.parameters params
  type : ∀ τ, r.type = some τ → symbol.type = .named τ.name

theorem passes_heading {s s' : Scope} {r : Routine} {v : Value} (h : Passes (check r.tree) s v s') :
    ∃ params symbol, IsHeading s r params symbol ∧ s' = s.define symbol := by
  cases r with
  | procedure x ps b =>
    obtain ⟨symbol, params, name, role, all, -, defined⟩ := passes_procedure h
    exact ⟨params, symbol, ⟨name, ⟨_, role⟩, all, nofun⟩, defined⟩
  | function x τ ps b =>
    obtain ⟨symbol, params, result, name, role, typed, all, -, -, -, -, defined⟩ :=
      passes_function h
    exact ⟨params, symbol, ⟨name, ⟨_, role⟩, all, fun _ base => passes_base typed base⟩, defined⟩

/-- What names stand for in a run agrees with what a scope says of them. Bound routines have been
checked where they are declared. -/
inductive Agrees : Bindings → Scope → Prop
  | empty (s : Scope) : Agrees .empty s
  | cell {ρ : Bindings} {s : Scope} {x : String} {l : Location} {symbol : Symbol} : Agrees ρ s →
      symbol.name = .str x → symbol.type = .named l.type.name → symbol.role = .variable →
      Agrees (.cell x l ρ) (s.define symbol)
  | routine {ρ : Bindings} {s s' : Scope} {r : Routine} {v : Value} : Agrees ρ s →
      Passes (check r.tree) s v s' → r.keepsWhole ρ.signatures = true → Agrees (.routine r ρ) s'
  | seen {ρ : Bindings} {s s' : Scope} : Agrees ρ s → s'.view = s.view → Agrees ρ s'

section Names

variable {ρ known : Bindings} {s s' : Scope} {x : String} {l : Location} {r : Routine}
  {params : List Value} {symbol : Symbol}

theorem IsHeading.view_self (h : IsHeading s' r params symbol) (name : r.name? = some x) :
    (s.define symbol).view x = some symbol := by
  have named := h.name
  rw [name] at named
  rw [Scope.view_define named, Function.update_self]

theorem IsHeading.view_of_ne (h : IsHeading s' r params symbol) (other : r.name? ≠ some x) :
    (s.define symbol).view x = s.view x := by
  have named := h.name
  cases name : r.name? with
  | none =>
    rw [name] at named
    rw [Scope.view_define_unnamed]
    intro y
    rw [named]
    nofun
  | some y =>
    rw [name] at named other
    rw [Scope.view_define named, Function.update_of_ne]
    exact fun same => other (congrArg some same.symm)

/-- What a scope has of a name that stands for something in a run. -/
def Denotes (view : Option Symbol) : Denotation → Prop
  | .cell l => ∃ symbol, view = some symbol ∧ symbol.type = .named l.type.name ∧
      symbol.role = .variable
  | .routine r known => ∃ outer s₀ params symbol, known = .routine r outer ∧ Agrees outer s₀ ∧
      (∃ v s₁, Passes (check r.tree) s₀ v s₁) ∧ r.keepsWhole outer.signatures = true ∧
      IsHeading s₀ r params symbol ∧ view = some symbol

theorem Agrees.denotes (h : Agrees ρ s) {d : Denotation} (found : ρ.lookup x = some d) :
    Denotes (s.view x) d := by
  induction h with
  | empty => cases found
  | @cell ρ s y l' symbol _ name type role ih =>
    rw [Scope.view_define name]
    rw [Bindings.lookup] at found
    split at found
    · rename_i same
      cases found
      exact ⟨symbol, same ▸ Function.update_self .., type, role⟩
    · rename_i other
      rw [Function.update_of_ne other]
      exact ih found
  | @routine ρ s s' r' v agrees passes keeps ih =>
    obtain ⟨params, symbol, heading, rfl⟩ := passes_heading passes
    rw [Bindings.lookup] at found
    split at found
    · rename_i name
      cases found
      exact ⟨ρ, s, params, symbol, rfl, agrees, ⟨v, _, passes⟩, keeps, heading,
        heading.view_self name⟩
    · rename_i other
      rw [heading.view_of_ne other]
      exact ih found
  | seen _ same ih =>
    rw [same]
    exact ih found

theorem Agrees.not_array (h : Agrees ρ s) {d : Denotation} (found : ρ.lookup x = some d)
    (known : s.view x = some symbol) (element dimensions : Value) :
    symbol.role ≠ .array element dimensions := by
  cases d with
  | cell l =>
    obtain ⟨symbol', known', -, role⟩ := h.denotes found
    cases known.symm.trans known'
    rw [role]
    nofun
  | routine r known' =>
    obtain ⟨_, _, params, symbol', -, -, -, -, heading, view⟩ := h.denotes found
    cases known.symm.trans view
    obtain ⟨isFunction, role⟩ := heading.role
    rw [role]
    nofun

theorem signatures_type {d : Denotation} (found : ρ.lookup x = some d) :
    ρ.signatures.type x = d.signature.type := by
  rw [Signatures.type, ρ.signatures_apply, found]
  rfl

end Names

end PascalStack.Analysis
