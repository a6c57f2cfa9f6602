import PascalStack.Proofs.Analysis.Declaring

/-!
# Names in accepted programs

A program that is accepted uses only names that are declared where they are used, but for
assignments to elements: these are not checked at all, and any name may stand in them.
-/

namespace PascalStack.Analysis

open Checking Syntax List

structure Knows (s : Scope) (visible : List String) : Prop where
  declared : ∀ x, (s.view x).isSome = true → x ∈ visible
  standard : predefined ⊆ visible

variable {x : String} {symbol : Symbol} {names : List String} {v : Value} {s' : Scope}
  {ps : List Parameter} {params : List Value}

section Scopes

variable {s : Scope} {visible visible' : List String}

theorem Knows.mem (h : Knows s visible) (found : s.view x = some symbol) : x ∈ visible := by
  apply h.declared
  rw [found]
  rfl

theorem Knows.mono (h : Knows s visible) (more : visible ⊆ visible') : Knows s visible' :=
  ⟨fun x known => more (h.declared x known), Subset.trans h.standard more⟩

theorem Knows.enter (h : Knows s visible) : Knows s.enter visible := by
  refine ⟨fun x known => h.declared x ?_, h.standard⟩
  rwa [Scope.view_enter] at known

theorem Knows.define (h : Knows s visible) (named : symbol.name = .str x) :
    Knows (s.define symbol) (x :: visible) := by
  refine ⟨fun y known => ?_, Subset.trans h.standard (subset_cons_self _ _)⟩
  rw [Scope.view_define named] at known
  by_cases same : y = x
  · exact same ▸ mem_cons_self
  · rw [Function.update_of_ne same] at known
    exact mem_cons_of_mem _ (h.declared y known)

theorem Knows.defineRoutine {x : Option String} (h : Knows s visible)
    (named : symbol.name = nameTree x) : Knows (s.define symbol) (x.toList ++ visible) := by
  cases x with
  | some x => exact h.define named
  | none =>
    refine ⟨fun y known => h.declared y ?_, h.standard⟩
    rwa [Scope.view_define_unnamed] at known
    intro x
    rw [named]
    nofun

theorem Knows.defineAll {symbols : List Symbol} (h : Knows s visible)
    (named : Forall₂ (fun x symbol => symbol.name = .str x) names symbols) :
    Knows (s.defineAll symbols) (names ++ visible) := by
  induction named generalizing s visible with
  | nil => exact h
  | @cons x symbol names symbols first rest ih =>
    refine (ih (h.define first)).mono ?_
    intro y member
    simp only [mem_append, mem_cons] at member ⊢
    tauto

end Scopes

section Expressions

variable {s : Scope} {visible : List String}

theorem mem_of_callee {f : String} (known : Knows s visible) (found : callee s f = some symbol) :
    f ∈ visible := by
  rcases Option.or_eq_some_iff.mp found with found | ⟨-, found⟩
  · exact known.mem found
  · have member := mem_of_find?_eq_some found
    have same : Tree.same symbol.name (.str f) = true := by simpa using find?_some found
    have named := Tree.same_str_right.mp same
    apply known.standard
    simp only [standardProcedures, mem_cons, not_mem_nil, or_false] at member
    rcases member with rfl | rfl | rfl | rfl <;> cases named <;> decide

mutual

theorem names_expression (e : Expression) {v : Value} {s' : Scope} (known : Knows s visible)
    (h : Passes (check e.tree) s v s') : e.names ⊆ visible := by
  match e with
  | .literal l => exact nil_subset _
  | .name x =>
    obtain ⟨symbol, found, -⟩ := passes_name h
    exact cons_subset.mpr ⟨known.mem found, nil_subset _⟩
  | .element x index =>
    obtain ⟨symbol, type, found, checked, -⟩ := passes_element h
    exact cons_subset.mpr ⟨known.mem found, names_expression index known checked⟩
  | .call f arguments =>
    obtain ⟨symbol, found, checked⟩ := passes_arguments h
    exact cons_subset.mpr
      ⟨mem_of_callee known found, names_expressions arguments known checked⟩
  | .length operand => exact names_expression operand known (passes_length h).1
  | .negation sign operand =>
    obtain ⟨_, _, checked, -⟩ := passes_negation h
    exact names_expression operand known checked
  | .operation left op right =>
    obtain ⟨_, _, _, first, second, -⟩ := passes_operation h
    exact append_subset.mpr
      ⟨names_expression left known first, names_expression right known second⟩

theorem names_expressions (es : List Expression) (known : Knows s visible)
    (h : ∀ e ∈ es, ∃ type, Passes (check e.tree) s type s) : Expression.allNames es ⊆ visible := by
  match es with
  | [] => exact nil_subset _
  | e :: rest =>
    obtain ⟨type, checked⟩ := h e mem_cons_self
    exact append_subset.mpr ⟨names_expression e known checked,
      names_expressions rest known fun e member => h e (mem_cons_of_mem _ member)⟩

end

theorem names_type (τ : TypeForm) (known : Knows s visible) (h : Passes (check τ.tree) s v s') :
    τ.names ⊆ visible := by
  induction τ generalizing v s' with
  | word word => exact nil_subset _
  | array first last element ih =>
    obtain ⟨⟨_, lower⟩, ⟨_, upper⟩, ⟨_, inner⟩, -⟩ := passes_arrayType h
    exact append_subset.mpr ⟨append_subset.mpr
      ⟨names_expression first known lower, names_expression last known upper⟩, ih inner⟩

end Expressions

section Statements

variable {s : Scope} {visible : List String}

def UsesVisible (visible : List String) (uses : List Use) : Prop :=
  ∀ use ∈ uses, use.ofElement = false → use.name ∈ visible

theorem usesVisible_of {ofElement : Bool} (h : names ⊆ visible) :
    UsesVisible visible (usesOf ofElement names) := by
  intro use member _
  obtain ⟨x, inside, rfl⟩ := mem_map.mp member
  exact h inside

theorem UsesVisible.append {uses uses' : List Use} (first : UsesVisible visible uses)
    (second : UsesVisible visible uses') : UsesVisible visible (uses ++ uses') := by
  intro use member
  rcases mem_append.mp member with member | member
  · exact first use member
  · exact second use member

theorem uses_assignment (a : Assignment) (known : Knows s visible)
    (h : Passes (check a.tree) s v s') : UsesVisible visible a.uses := by
  obtain ⟨target, value⟩ := a
  cases target with
  | name x =>
    obtain ⟨symbol, type, found, checked, -⟩ := passes_assign h
    exact usesVisible_of
      (cons_subset.mpr ⟨known.mem found, names_expression value known checked⟩)
  | element x index =>
    intro use member outside
    obtain ⟨y, -, rfl⟩ := mem_map.mp member
    cases outside

theorem names_target (target : Variable) (known : Knows s visible)
    (h : Passes (checkTarget target.tree (check target.tree)) s () s) :
    target.names ⊆ visible := by
  have found := passes_target h
  cases target with
  | name x =>
    obtain ⟨symbol, found, -⟩ := found
    exact cons_subset.mpr ⟨known.mem found, nil_subset _⟩
  | element x index =>
    obtain ⟨type, checked, -⟩ := found
    exact names_expression (.element x index) known checked

mutual

theorem uses_statement (st : Statement) {v : Value} {s' : Scope} (known : Knows s visible)
    (h : Passes (check st.tree) s v s') : UsesVisible visible st.uses := by
  match st with
  | .empty | .absent | .breakLoop | .continueLoop => nofun
  | .compound items => exact uses_statements items known (passes_compound h)
  | .assign a => exact uses_assignment a known h
  | .conditional condition yes no =>
    obtain ⟨tested, ⟨_, first⟩, second⟩ := passes_conditional h
    refine ((usesVisible_of (names_expression condition known tested)).append
      (uses_statement yes known first)).append ?_
    cases present : no.isPresent with
    | true =>
      obtain ⟨_, second⟩ := second present
      exact uses_statement no known second
    | false =>
      cases no with
      | empty | absent => nofun
      | _ => cases present
  | .whileDo condition body =>
    obtain ⟨tested, _, inside⟩ := passes_while h
    exact (usesVisible_of (names_expression condition known tested)).append
      (uses_statement body known inside)
  | .repeatUntil body condition =>
    obtain ⟨tested, _, inside⟩ := passes_repeat h
    exact (usesVisible_of (names_expression condition known tested)).append
      (uses_statement body known inside)
  | .forDo start direction limit body =>
    obtain ⟨⟨_, started⟩, -, ⟨_, limited, -⟩, _, inside⟩ := passes_for h
    exact ((uses_assignment start known started).append
      (usesVisible_of (names_expression limit known limited))).append
      (uses_statement body known inside)
  | .call f arguments => exact usesVisible_of (names_expression (.call f arguments) known h)
  | .mention x => exact usesVisible_of (names_expression (.name x) known h)
  | .writeln arguments =>
    exact usesVisible_of (names_expressions arguments known (passes_writeln h))
  | .readln targets =>
    have read := passes_readln h
    refine usesVisible_of fun x member => ?_
    obtain ⟨target, inside, member⟩ := mem_flatMap.mp member
    exact names_target target known (read target inside) member

theorem uses_statements (items : List Statement) (known : Knows s visible)
    (h : ∀ item ∈ items, ∃ v, Passes (check item.tree) s v s) :
    UsesVisible visible (Statement.allUses items) := by
  match items with
  | [] => nofun
  | st :: rest =>
    obtain ⟨_, checked⟩ := h st mem_cons_self
    exact (uses_statement st known checked).append
      (uses_statements rest known fun item member => h item (mem_cons_of_mem _ member))

end

end Statements

/-! ## Declarations -/

section Declarations

variable {s s' : Scope} {visible : List String} {u : Unit}

theorem usesDeclared_declarations {ds : List Declaration} (known : Knows s visible)
    (h : Passes (checkAll andNothing (ds.map Declaration.tree)) s u s') :
    SectionDeclared visible ds ∧ Knows s' (ds.flatMap Declaration.names ++ visible) := by
  induction ds generalizing s visible with
  | nil =>
    obtain ⟨-, rfl⟩ := passes_pure h
    exact ⟨trivial, known⟩
  | cons d rest ih =>
    obtain ⟨_, middle, first, others⟩ := passes_declarations_cons h
    obtain ⟨type, names, symbols, typed, declared, all, rfl⟩ := passes_declaration first
    have same : d.names = names := by
      rw [Declaration.names, declared, map_map]
      exact map_id names
    have more : Knows (s.defineAll symbols) (d.names ++ visible) :=
      same ▸ known.defineAll (all.imp fun _ _ is => is.name)
    obtain ⟨types, knows⟩ := ih more others
    refine ⟨⟨names_type d.type known typed, types⟩, knows.mono ?_⟩
    intro x member
    simp only [flatMap_cons, mem_append] at member ⊢
    tauto

theorem named_parameters (h : Forall₂ (IsParameter s) ps params) :
    Forall₂ (fun x symbol => symbol.name = .str x) (ps.map Parameter.name)
      (symbolsOf params) := by
  induction h with
  | nil => exact .nil
  | cons first _ ih =>
    obtain ⟨symbol, rfl, -, named, -⟩ := first
    exact .cons named ih

theorem names_parameters (known : Knows s visible) (h : Forall₂ (IsParameter s) ps params) :
    ∀ p ∈ ps, p.type.names ⊆ visible := by
  induction h with
  | nil => nofun
  | cons first _ ih =>
    obtain ⟨symbol, -, typed, -⟩ := first
    exact forall_mem_cons.mpr ⟨names_type _ known typed, ih⟩

end Declarations

mutual

theorem usesDeclared_block (b : Block) {s s' : Scope} {v : Value} {visible : List String}
    (known : Knows s visible) (h : Passes (check b.tree) s v s') :
    b.UsesDeclared (·.ofElement = false) visible := by
  match b with
  | .make ds rs body extra =>
    obtain ⟨s₁, s₂, s₃, first, second, third, last, -⟩ := passes_parts h
    obtain ⟨types, known₁⟩ := usesDeclared_declarations known.enter first
    obtain ⟨inner, known₂⟩ := usesDeclared_routines rs known₁ second
    obtain ⟨extraTypes, known₃⟩ := usesDeclared_declarations known₂ third
    exact ⟨types, inner, extraTypes, uses_statements body known₃ last⟩

theorem usesDeclared_routine (r : Routine) {s s' : Scope} {v : Value} {visible : List String}
    (known : Knows s visible) (h : Passes (check r.tree) s v s') :
    r.UsesDeclared (·.ofElement = false) visible ∧ Knows s' (r.names ++ visible) := by
  match r with
  | .procedure x ps b =>
    obtain ⟨symbol, params, named, -, all, ⟨_, inside⟩, rfl⟩ :=
      passes_procedure h
    have own : Knows (s.define symbol) (x :: visible) := known.define named
    exact ⟨⟨names_parameters known all,
      usesDeclared_block b (own.enter.defineAll (named_parameters all)) inside⟩, own⟩
  | .function x τ ps b =>
    obtain ⟨symbol, params, result, named, -, typed, all, named', -, -, ⟨_, inside⟩, rfl⟩ :=
      passes_function h
    have own : Knows (s.define symbol) (x.toList ++ visible) := known.defineRoutine named
    have inner := (own.enter.defineAll (named_parameters all)).defineRoutine named'
    refine ⟨⟨names_type τ known typed, names_parameters known all,
      usesDeclared_block b (inner.mono ?_) inside⟩, own⟩
    intro y member
    simp only [mem_append] at member ⊢
    tauto

theorem usesDeclared_routines (rs : List Routine) {s s' : Scope} {u : Unit} {visible : List String}
    (known : Knows s visible) (h : Passes (checkAll andNothing (Routine.trees rs)) s u s') :
    Routine.AllUseDeclared (·.ofElement = false) visible rs ∧
      Knows s' (rs.flatMap Routine.names ++ visible) := by
  match rs with
  | [] =>
    obtain ⟨-, rfl⟩ := passes_pure h
    exact ⟨trivial, known⟩
  | r :: rest =>
    obtain ⟨_, middle, first, others⟩ := passes_routines_cons h
    obtain ⟨uses, known₁⟩ := usesDeclared_routine r known first
    obtain ⟨more, known₂⟩ := usesDeclared_routines rest known₁ others
    refine ⟨⟨uses, more⟩, known₂.mono ?_⟩
    intro x member
    simp only [flatMap_cons, mem_append] at member ⊢
    tauto

end

theorem knows_standardScope : Knows standardScope predefined := by
  have empty : Knows {} predefined := ⟨nofun, Subset.refl _⟩
  have all : Knows standardScope (predefined ++ predefined) := empty.defineAll
    (.cons rfl (.cons rfl (.cons rfl (.cons rfl (.cons rfl .nil)))))
  exact all.mono (by simp)

/-- A source text that is accepted uses declared names only outside of assignments to elements. So
it uses only declared names just if its assignments to elements do, which nothing checks. -/
theorem accepted_source_uses_declared_names {line : Nat} {text : String} {tree : Tree}
    (parsed : (Pascal.parse line text).tree = .ok tree) (present : tree ≠ .none)
    (accepted : verdict? tree = some true) :
    ∃ p : Program, p.tree = tree ∧ p.UsesDeclared (·.ofElement = false) ∧
      (p.UsesDeclared (fun _ => True) ↔ p.UsesDeclared (·.ofElement = true)) := by
  obtain ⟨p, rfl⟩ := exists_program_of_parsed parsed present
  obtain ⟨v, s, passes⟩ := passes_of_accepted accepted
  obtain ⟨v, block⟩ := passes_program passes
  have outside : p.UsesDeclared (·.ofElement = false) :=
    usesDeclared_block p.block knows_standardScope block
  refine ⟨p, rfl, outside, ?_, fun inside => ?_⟩
  · intro all
    exact Block.usesDeclared_of_or (fun _ _ => .inl trivial) p.block all all
  · refine Block.usesDeclared_of_or (fun use _ => ?_) p.block outside inside
    cases use.ofElement <;> simp

/-- A text with nested routines, a parameter that hides a variable, and an assignment to an
element. -/
def nestedNames : String :=
  "program p; var n: integer; s: string; function f(n: integer): integer; " ++
    "var k: integer; procedure g; begin k := n end; begin g(); f := k + n end; " ++
    "begin n := f(2); s[n] := 'a'; for n := 1 to f(n) do writeln(s[n]) end."

theorem nestedNames_uses_declared_names :
    ∃ tree, (Pascal.parse 1 nestedNames).tree = .ok tree ∧ tree ≠ .none ∧
      verdict? tree = some true ∧
      ∃ p : Program, p.tree = tree ∧ p.UsesDeclared (·.ofElement = false) ∧
        (p.UsesDeclared (fun _ => True) ↔ p.UsesDeclared (·.ofElement = true)) := by
  have found : ((parsed? nestedNames).any fun tree => verdict? tree == some true) = true := by
    decide +kernel
  obtain ⟨tree, parsed, present, accepted⟩ := exists_parsed found
  rw [beq_iff_eq] at accepted
  exact ⟨tree, parsed, present, accepted,
    accepted_source_uses_declared_names parsed present accepted⟩

def assignsElement : Program :=
  ⟨"p", .make [] [] [.assign ⟨.element "a" (.name "i"), .name "y"⟩] none⟩

/-- Whether a tree is that of `assignsElement`. -/
def isAssignsElement : Tree → Bool
  | .program (.header (.str p)) (.block (.varDeclarationPart (.list [])) (.list [])
      (.statementPart (.statementSequence
        [.arrayAssignment (.str a) (.identifier (.str i)) (.identifier (.str y))])) .none) =>
    p == "p" && a == "a" && i == "i" && y == "y"
  | _ => false

theorem eq_of_isAssignsElement {t : Tree} (h : isAssignsElement t = true) :
    t = assignsElement.tree := by
  unfold isAssignsElement at h
  split at h
  · simp only [Bool.and_eq_true, beq_iff_eq] at h
    obtain ⟨⟨⟨rfl, rfl⟩, rfl⟩, rfl⟩ := h
    rfl
  · cases h

/-- None of three names is declared, and the program is accepted. -/
theorem assignsElement_accepted_undeclared :
    (Pascal.parse 1 "program p; begin a[i] := y end.").tree = .ok assignsElement.tree ∧
      verdict? assignsElement.tree = some true ∧
      ¬ assignsElement.UsesDeclared fun _ => True := by
  have found : ((parsed? "program p; begin a[i] := y end.").any isAssignsElement) = true := by
    decide +kernel
  obtain ⟨tree, parsed, -, same⟩ := exists_parsed found
  rw [eq_of_isAssignsElement same] at parsed
  refine ⟨parsed, by decide +kernel, fun uses => ?_⟩
  have undeclared : "a" ∉ predefined := by decide
  exact undeclared (uses.2.2.2 ⟨"a", true⟩ mem_cons_self trivial)

end PascalStack.Analysis
