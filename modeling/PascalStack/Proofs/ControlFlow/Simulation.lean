import PascalStack.Proofs.ControlFlow.Labels

/-!
# Lowered code runs as the statement does

The store of a statement is what the cells of the machine show. A piece of code that stands at a
place runs from its first line to the line after its last one, with the operand stack as it was,
and does what the statement does; it fails where the statement fails, and takes at least as many
steps as the statement has rounds where the statement is unfinished.
-/

namespace PascalStack.ControlFlow

open Code
open StackMachine
open Lowering

def view (names : List String) (base : String → Int) (cells : Nat → Int) (x : String) : Int :=
  if x ∈ names then cells (names.idxOf x) else base x

structure Installed (ops : List Op) (pc : Nat) (code : List Instruction) : Prop where
  fetch : ∀ k i, code[k]? = some i → ∃ op, Means i op ∧ ops[pc + k]? = some op
  resolve : ∀ k lb, code[k]? = some (.label lb) → place? ops (labelName lb) = some (pc + k)

section Views

variable {names known : List String} {base : String → Int} {cells : Nat → Int} {x : String}

theorem view_update (member : x ∈ names) (n : Int) :
    view names base (Function.update cells (names.idxOf x) n) =
      Function.update (view names base cells) x n := by
  funext y
  by_cases equal : y = x
  · subst equal
    simp [view, member]
  · rw [Function.update_of_ne equal]
    by_cases known : y ∈ names
    · have apart : names.idxOf y ≠ names.idxOf x := fun same => equal ((List.idxOf_inj known).mp same)
      simp [view, known, apart]
    · simp [view, known]

theorem idxOf_of_prefix (within : known <+: names) (member : x ∈ known) :
    names.idxOf x = known.idxOf x := by
  obtain ⟨rest, rfl⟩ := within
  exact List.idxOf_append_of_mem member

end Views

section Places

variable {ops : List Op} {pc : Nat} {code code' : List Instruction} {i : Instruction} {op : Op}

theorem Installed.left (installed : Installed ops pc (code ++ code')) : Installed ops pc code := by
  have keep : ∀ (k : Nat) (i : Instruction), code[k]? = some i → (code ++ code')[k]? = some i := by
    intro k i fetched
    rw [List.getElem?_append_left (List.getElem?_eq_some_iff.mp fetched).1, fetched]
  exact ⟨fun k i fetched => installed.fetch k i (keep k i fetched),
    fun k lb marked => installed.resolve k lb (keep k _ marked)⟩

theorem Installed.right (installed : Installed ops pc (code ++ code')) :
    Installed ops (pc + code.length) code' := by
  have shift : ∀ k, (code ++ code')[code.length + k]? = code'[k]? := by
    intro k
    rw [List.getElem?_append_right (by omega), Nat.add_sub_cancel_left]
  constructor
  · intro k i fetched
    rw [Nat.add_assoc]
    exact installed.fetch _ i (by rw [shift, fetched])
  · intro k lb marked
    rw [Nat.add_assoc]
    exact installed.resolve _ lb (by rw [shift, marked])

theorem Means.unique {op' : Op} (means : Means i op) (means' : Means i op') : op = op' := by
  cases means <;> cases means' <;> rfl

theorem Installed.step {d : Division} (installed : Installed ops pc [i]) (means : Means i op)
    (stack : List Value) (cells : Nat → Int) (out : String) :
    StackMachine.step d ops ⟨pc, stack, cells, out⟩ = perform d ops ⟨pc, stack, cells, out⟩ op := by
  obtain ⟨op', means', fetched⟩ := installed.fetch 0 i rfl
  cases means.unique means'
  rw [StackMachine.step]
  simp only [Nat.add_zero] at fetched
  simp only [fetched]

theorem Installed.place {lb : Label} (installed : Installed ops pc [.label lb]) :
    place? ops (labelName lb) = some pc :=
  installed.resolve 0 lb rfl

end Places

variable {fewer : Nat} {v : Source} {a b : Lowering} {t : Term}

section Runs

/-- Operations with a way to divide, the names whose cells they use, and the values of the others. -/
structure Setting where
  division : Division
  ops : List Op
  names : List String
  base : String → Int

namespace Setting

def shows (σ : Setting) (cells : Nat → Int) : String → Int := view σ.names σ.base cells

abbrev Reaches (σ : Setting) (c : Config) (n : Nat) (c' : Config) : Prop :=
  StackMachine.Reaches σ.division σ.ops c n c'

/-- From a configuration the machine does what a result says: it comes to the line `pc` with the
stack it had, or fails, or takes at least `least` steps. -/
def Follows (σ : Setting) (least : Nat) (c : Config) (pc : Nat) : Result → Prop
  | .finished s => ∃ n cells, σ.Reaches c n ⟨pc, c.stack, cells, s.out⟩ ∧ s.store = σ.shows cells
  | .failed s => ∃ n c', σ.Reaches c n c' ∧ step σ.division σ.ops c' = .failed ∧ c'.out = s.out
  | .unfinished s => ∃ n c', σ.Reaches c n c' ∧ least ≤ n ∧ c'.out = s.out

def Simulates (σ : Setting) (least pc pc' : Nat) (f : State → Result) : Prop :=
  ∀ stack cells s, s.store = σ.shows cells → σ.Follows least ⟨pc, stack, cells, s.out⟩ pc' (f s)

def Yields (σ : Setting) (c : Config) (pc : Nat) : Option Int → Prop
  | some n => ∃ k, σ.Reaches c k ⟨pc, .number n :: c.stack, c.cells, c.out⟩
  | none => ∃ k c', σ.Reaches c k c' ∧ step σ.division σ.ops c' = .failed ∧ c'.out = c.out

def Pushes (σ : Setting) (pc pc' : Nat) (value : (String → Int) → Option Int) : Prop :=
  ∀ stack cells out, σ.Yields ⟨pc, stack, cells, out⟩ pc' (value (σ.shows cells))

variable {σ : Setting} {least n pc pc' pc'' : Nat} {c c' : Config} {r : Result}
  {f g : State → Result}

theorem Follows.after (before : σ.Reaches c n c') (same : c'.stack = c.stack)
    (follows : σ.Follows least c' pc r) : σ.Follows (n + least) c pc r := by
  cases r with
  | finished s =>
    obtain ⟨k, cells, run, shows⟩ := follows
    exact ⟨n + k, cells, same ▸ before.trans run, shows⟩
  | failed s =>
    obtain ⟨k, last, run, stop⟩ := follows
    exact ⟨n + k, last, before.trans run, stop⟩
  | unfinished s =>
    obtain ⟨k, last, run, long, wrote⟩ := follows
    exact ⟨n + k, last, before.trans run, by omega, wrote⟩

theorem Follows.mono (le : fewer ≤ least) (follows : σ.Follows least c pc r) :
    σ.Follows fewer c pc r := by
  cases r with
  | unfinished s =>
    obtain ⟨k, last, run, long, wrote⟩ := follows
    exact ⟨k, last, run, le.trans long, wrote⟩
  | _ => exact follows

theorem Follows.andThen (first : σ.Follows least c pc r)
    (second : ∀ cells s, s.store = σ.shows cells →
      σ.Follows least ⟨pc, c.stack, cells, s.out⟩ pc' (f s)) :
    σ.Follows least c pc' (r.andThen f) := by
  cases r with
  | finished s =>
    obtain ⟨n, cells, run, shows⟩ := first
    exact ((second cells s shows).after run rfl).mono (Nat.le_add_left _ _)
  | _ => exact first

theorem Simulates.andThen (first : σ.Simulates least pc pc' f)
    (second : σ.Simulates least pc' pc'' g) :
    σ.Simulates least pc pc'' fun s => (f s).andThen g := by
  intro stack cells s shows
  exact (first stack cells s shows).andThen fun cells s shows => second stack cells s shows

theorem simulates_nothing : σ.Simulates least pc pc .finished := by
  intro stack cells s shows
  exact ⟨0, cells, .refl _, shows⟩

/-! ### Values -/

variable {value value' : (String → Int) → Option Int} {x : String} {k : Nat}

theorem pushes_load (installed : Installed σ.ops pc [.load (.program (σ.names.idxOf x))])
    (member : x ∈ σ.names) : σ.Pushes pc (pc + 1) fun store => some (store x) := by
  intro stack cells out
  refine ⟨1, .one ?_⟩
  rw [installed.step (.load _), perform, shows, view, if_pos member]

theorem pushes_number {n : Int} (installed : Installed σ.ops pc [.push (.int n)])
    (writable : Writable n) : σ.Pushes pc (pc + 1) fun _ => some n := by
  intro stack cells out
  exact ⟨1, .one (installed.step (.push writable) stack cells out)⟩

theorem calculate_operation (d : Division) (op : Operator) (a b : Int) :
    calculate d op.operation a b = op.apply d a b := by
  cases op <;> rfl

theorem pushes_operation {op : Operator} (left : σ.Pushes pc pc' value)
    (right : σ.Pushes pc' pc'' value') (installed : Installed σ.ops pc'' [.operate op.operation]) :
    σ.Pushes pc (pc'' + 1) fun store =>
      (value store).bind fun m => (value' store).bind (op.apply σ.division m) := by
  intro stack cells out
  have first := left stack cells out
  cases a : value (σ.shows cells) with
  | none =>
    rw [a] at first
    simp only [a]
    exact first
  | some m =>
    rw [a] at first
    obtain ⟨j, run⟩ := first
    have second := right (.number m :: stack) cells out
    cases b : value' (σ.shows cells) with
    | none =>
      rw [b] at second
      obtain ⟨j', last, run', stop⟩ := second
      simp only [a, b]
      exact ⟨j + j', last, run.trans run', stop⟩
    | some n =>
      rw [b] at second
      obtain ⟨j', run'⟩ := second
      have both := run.trans run'
      have last := installed.step (d := σ.division) (.operate op.operation)
        (.number n :: .number m :: stack) cells out
      simp only [perform, calculate_operation] at last
      simp only [a, b, Option.bind_some]
      cases result : op.apply σ.division m n with
      | none =>
        rw [result] at last
        exact ⟨_, _, both, last, rfl⟩
      | some q =>
        rw [result] at last
        exact ⟨_, both.trans (.one last)⟩

/-! ### Statements without jumps -/

theorem simulates_assign (pushes : σ.Pushes pc pc' (v.eval σ.division))
    (installed : Installed σ.ops pc' [.store (.program (σ.names.idxOf x))]) (member : x ∈ σ.names) :
    σ.Simulates least pc (pc' + 1) (assignTo σ.division x v) := by
  intro stack cells s shown
  have run := pushes stack cells s.out
  rw [← shown] at run
  simp only [assignTo]
  cases result : v.eval σ.division s.store with
  | none =>
    simp only [result] at run
    exact run
  | some n =>
    simp only [result] at run
    obtain ⟨j, run⟩ := run
    have last := installed.step (d := σ.division) (.store _) (.number n :: stack) cells s.out
    refine ⟨_, _, run.trans (.one last), ?_⟩
    rw [shows, view_update member, shown, shows]

def writing (text : (String → Int) → String) (s : State) : Result :=
  .finished { s with out := s.out ++ text s.store }

theorem simulates_quotation (q : Quotation)
    (installed : Installed σ.ops pc [.pushString q.text, .writeString]) :
    σ.Simulates least pc (pc + 2) (writing fun _ => q.text) := by
  intro stack cells s shown
  have both : Installed σ.ops pc ([.pushString q.text] ++ [.writeString]) := installed
  have first := both.left.step (d := σ.division) (.pushString q.plain) stack cells s.out
  have second := both.right.step (d := σ.division) .writeString (.text q.text :: stack) cells s.out
  exact ⟨2, cells, .head first (.one second), shown⟩

theorem simulates_written (pushes : σ.Pushes pc pc' fun store => some (store x))
    (installed : Installed σ.ops pc' [.writeInteger]) :
    σ.Simulates least pc (pc' + 1) (writing fun store => toString (store x)) := by
  intro stack cells s shown
  obtain ⟨j, run⟩ := pushes stack cells s.out
  rw [← shown] at run
  have last := installed.step (d := σ.division) .writeInteger (.number (s.store x) :: stack) cells
    s.out
  exact ⟨_, cells, run.trans (.one last), shown⟩

theorem simulates_line (installed : Installed σ.ops pc [.writeLine]) :
    σ.Simulates least pc (pc + 1) (writing fun _ => "\n") := by
  intro stack cells s shown
  exact ⟨1, cells, .one (installed.step .writeLine stack cells s.out), shown⟩

/-! ### Jumps -/

variable {t : Term} {lb lb' : Label} {top stop : Nat}

theorem step_jump (installed : Installed σ.ops pc [.jump lb]) (control : Control lb)
    (place : place? σ.ops (labelName lb) = some pc') (stack : List Value) (cells : Nat → Int)
    (out : String) :
    step σ.division σ.ops ⟨pc, stack, cells, out⟩ = .next ⟨pc', stack, cells, out⟩ := by
  rw [installed.step (.jump control)]
  simp only [perform, goTo, place]

theorem step_label (installed : Installed σ.ops pc [.label lb]) (control : Control lb)
    (stack : List Value) (cells : Nat → Int) (out : String) :
    step σ.division σ.ops ⟨pc, stack, cells, out⟩ = .next ⟨pc + 1, stack, cells, out⟩ := by
  rw [installed.step (.label control)]
  rfl

theorem simulates_branch (tests : σ.Pushes pc pc' fun store => t.eval σ.division store)
    (installed : Installed σ.ops pc' [.jumpZero lb]) (control : Control lb)
    (place : place? σ.ops (labelName lb) = some top)
    (yes : σ.Simulates least (pc' + 1) stop f) (no : σ.Simulates least top stop g) :
    σ.Simulates (least + 1) pc stop (branch σ.division t f g) := by
  intro stack cells s shown
  have run := tests stack cells s.out
  rw [← shown] at run
  simp only [branch]
  cases result : t.eval σ.division s.store with
  | none =>
    simp only [result] at run
    exact run
  | some n =>
    simp only [result] at run
    obtain ⟨j, run⟩ := run
    have jump := installed.step (d := σ.division) (.jumpZero control) (.number n :: stack) cells s.out
    by_cases zero : n = 0
    · simp only [perform, goTo, place, if_pos zero] at jump
      simp only [zero, ne_eq, not_true_eq_false, if_false]
      exact ((no stack cells s shown).after (run.trans (.one jump)) rfl).mono (by omega)
    · simp only [perform, if_neg zero] at jump
      simp only [ne_eq, zero, not_false_eq_true, if_true]
      exact ((yes stack cells s shown).after (run.trans (.one jump)) rfl).mono (by omega)

theorem Simulates.mono (le : fewer ≤ least) (simulates : σ.Simulates least pc pc' f) :
    σ.Simulates fewer pc pc' f :=
  fun stack cells s shown => (simulates stack cells s shown).mono le

theorem Simulates.after (first : ∀ stack cells out,
      step σ.division σ.ops ⟨pc, stack, cells, out⟩ = .next ⟨pc', stack, cells, out⟩)
    (simulates : σ.Simulates least pc' pc'' f) : σ.Simulates (least + 1) pc pc'' f := by
  intro stack cells s shown
  exact ((simulates stack cells s shown).after (.one (first stack cells s.out)) rfl).mono (by omega)

theorem Simulates.before (simulates : σ.Simulates least pc pc' f)
    (last : ∀ stack cells out,
      step σ.division σ.ops ⟨pc', stack, cells, out⟩ = .next ⟨pc'', stack, cells, out⟩) :
    σ.Simulates least pc pc'' f := by
  intro stack cells s shown
  have run := simulates stack cells s shown
  cases result : f s with
  | finished s' =>
    rw [result] at run
    obtain ⟨n, cells', run, shown'⟩ := run
    exact ⟨_, cells', run.trans (.one (last stack cells' s'.out)), shown'⟩
  | _ =>
    rw [result] at run
    exact run

theorem simulates_loop {rounds : Nat} (start : Installed σ.ops pc [.label lb])
    (control : Control lb) (tests : σ.Pushes (pc + 1) pc' fun store => t.eval σ.division store)
    (leaves : Installed σ.ops pc' [.jumpZero lb']) (control' : Control lb')
    (body : σ.Simulates least (pc' + 1) pc'' f) (returns : Installed σ.ops pc'' [.jump lb])
    (last : Installed σ.ops (pc'' + 1) [.label lb']) (enough : rounds ≤ least) :
    σ.Simulates rounds pc (pc'' + 2) (loop σ.division t f rounds) := by
  induction rounds with
  | zero =>
    intro stack cells s shown
    exact ⟨0, _, .refl _, le_rfl, rfl⟩
  | succ rounds ih =>
    have again : σ.Simulates rounds pc'' (pc'' + 2) (loop σ.division t f rounds) :=
      ((ih (by omega)).after (step_jump returns control start.place)).mono (by omega)
    have done : σ.Simulates rounds (pc'' + 1) (pc'' + 2) .finished :=
      simulates_nothing.before (step_label last control')
    have round := (body.mono (by omega)).andThen again
    exact ((simulates_branch tests leaves control' last.place round done).after
      (step_label start control)).mono (by omega)

end Setting

end Runs

/-! ## Lowered code -/

section Lowered

open Setting

variable {σ : Setting} {l l' : Layout} {code : List Instruction} {pc : Nat} {fuel : Nat}
  {x : String}

theorem pushes_of_load (lowered : load x l = some (code, l')) (within : l'.names <+: σ.names)
    (installed : Installed σ.ops pc code) :
    σ.Pushes pc (pc + code.length) fun store => some (store x) := by
  simp only [load] at lowered
  split at lowered
  · rename_i member
    cases lowered
    rw [Layout.cell, ← idxOf_of_prefix within member] at installed
    exact Setting.pushes_load installed (within.subset member)
  · cases lowered

theorem pushes_of_push {n : Int} (lowered : push n l = some (code, l'))
    (installed : Installed σ.ops pc code) : σ.Pushes pc (pc + code.length) fun _ => some n := by
  simp only [push] at lowered
  split at lowered
  · rename_i writable
    cases lowered
    exact Setting.pushes_number installed writable
  · cases lowered

theorem Term.pushes (t : Term) (lowered : t.lower l = some (code, l'))
    (within : l'.names <+: σ.names) (installed : Installed σ.ops pc code) :
    σ.Pushes pc (pc + code.length) fun store => t.eval σ.division store := by
  induction t generalizing l l' code pc with
  | name x => exact pushes_of_load lowered within installed
  | number n => exact pushes_of_push lowered installed
  | operation left op right left_ih right_ih =>
    obtain ⟨first, mid, rest, one, others, rfl⟩ := andThen_eq_some.mp lowered
    obtain ⟨second, mid', last, two, ⟨⟩, rfl⟩ := andThen_eq_some.mp others
    have within' := (right.tidy _ _ _ two).names.trans within
    have pushes := Setting.pushes_operation (left_ih one within' installed.left)
      (right_ih two within installed.right.left) installed.right.right
    simp only [List.length_append, List.length_singleton, ← Nat.add_assoc]
    exact pushes

theorem simulates_of_store {pc' : Nat} (lowered : store x l = some (code, l'))
    (within : l'.names <+: σ.names) (installed : Installed σ.ops pc' code)
    (pushes : σ.Pushes pc pc' fun store => v.eval σ.division store) :
    σ.Simulates fuel pc (pc' + code.length) (assignTo σ.division x v) := by
  cases lowered
  have member := l.mem_give x
  rw [Layout.cell, ← idxOf_of_prefix within member] at installed
  exact Setting.simulates_assign pushes installed (within.subset member)

def Realizes (σ : Setting) (fuel : Nat) (low : Lowering) (f : State → Result) : Prop :=
  ∀ l code l' pc, low l = some (code, l') → l'.names <+: σ.names → Installed σ.ops pc code →
    σ.Simulates fuel pc (pc + code.length) f

theorem realizes_nothing : Realizes σ fuel (write []) .finished := by
  rintro l _ _ pc ⟨⟩ _ _
  exact simulates_nothing

theorem realizes_assignment (x : String) (v : Source) :
    Realizes σ fuel (assignLowering x v) (assignTo σ.division x v) := by
  intro l code l' pc lowered within installed
  -- In each case a value is pushed, and then stored.
  have assemble : ∀ {a : Lowering} {l : Layout}, (a.andThen (store x)) l = some (code, l') →
      (∀ {first mid}, a l = some (first, mid) → mid.names <+: σ.names →
        Installed σ.ops pc first →
        σ.Pushes pc (pc + first.length) fun store => v.eval σ.division store) →
      σ.Simulates fuel pc (pc + code.length) (assignTo σ.division x v) := by
    intro a l lowered pushes
    obtain ⟨first, mid, last, one, two, rfl⟩ := andThen_eq_some.mp lowered
    have within' := (tidy_store _ _ _ two).names.trans within
    rw [List.length_append, ← Nat.add_assoc]
    exact simulates_of_store two within installed.right (pushes one within' installed.left)
  cases v with
  | truth b => exact assemble lowered fun one _ installed => pushes_of_push one installed
  | term t =>
    cases t with
    | name y => exact assemble lowered fun one within installed => pushes_of_load one within installed
    | number n => exact assemble lowered fun one _ installed => pushes_of_push one installed
    | operation left op right =>
      exact assemble lowered fun one within installed => Term.pushes _ one within installed

theorem writing_andThen (text text' : (String → Int) → String) (s : State) :
    (Setting.writing text s).andThen (Setting.writing text') =
      Setting.writing (fun store => text store ++ text' store) s := by
  simp [Setting.writing, Result.andThen, String.append_assoc]

theorem simulates_items (items : List Item) (lowered : itemsLowering items l = some (code, l'))
    (within : l'.names <+: σ.names) (installed : Installed σ.ops pc code) :
    σ.Simulates fuel pc (pc + code.length)
      (Setting.writing fun store => String.join (items.map (Item.text store))) := by
  induction items generalizing l code pc with
  | nil =>
    cases lowered
    intro stack cells s shown
    exact ⟨0, cells, by simpa using .refl _, shown⟩
  | cons item rest ih =>
    obtain ⟨first, mid, last, one, two, rfl⟩ := andThen_eq_some.mp lowered
    have within' := (tidy_items rest _ _ _ two).names.trans within
    have head : σ.Simulates fuel pc (pc + first.length)
        (Setting.writing fun store => item.text store) := by
      cases item with
      | quotation q =>
        cases one
        exact Setting.simulates_quotation q installed.left
      | name x =>
        obtain ⟨loads, mid', writes, load, ⟨⟩, rfl⟩ := andThen_eq_some.mp one
        rw [List.length_append, ← Nat.add_assoc]
        exact simulates_written (pushes_of_load load within' installed.left.left)
          installed.left.right
    have run := head.andThen (ih two installed.right)
    simpa only [writing_andThen, List.length_append, ← Nat.add_assoc, List.map_cons,
      String.join_cons] using run

theorem realizes_andThen {f g : State → Result} (first : Realizes σ fuel a f)
    (second : Realizes σ fuel b g) (tidy : Tidy b) :
    Realizes σ fuel (a.andThen b) fun s => (f s).andThen g := by
  intro l code l' pc lowered within installed
  obtain ⟨code, mid, code', one, two, rfl⟩ := andThen_eq_some.mp lowered
  have within' := (tidy _ _ _ two).names.trans within
  rw [List.length_append, ← Nat.add_assoc]
  exact (first _ _ _ _ one within' installed.left).andThen (second _ _ _ _ two within installed.right)

theorem realizes_conditional {yes no : State → Result} (first : Realizes σ fuel a yes)
    (second : Realizes σ fuel b no) (tidy : Tidy a) (tidy' : Tidy b) :
    Realizes σ fuel (conditional t.lower a b) (branch σ.division t yes no) := by
  intro l code l' pc lowered within installed
  obtain ⟨test, mid, rest₁, tests, lowered₁, rfl⟩ := andThen_eq_some.mp lowered
  obtain ⟨_, _, rest₂, ⟨⟩, lowered₂, rfl⟩ := andThen_eq_some.mp lowered₁
  obtain ⟨yesCode, mid', rest₃, one, lowered₃, rfl⟩ := andThen_eq_some.mp lowered₂
  obtain ⟨_, _, rest₄, ⟨⟩, lowered₄, rfl⟩ := andThen_eq_some.mp lowered₃
  obtain ⟨_, _, rest₅, ⟨⟩, lowered₅, rfl⟩ := andThen_eq_some.mp lowered₄
  obtain ⟨noCode, _, _, two, ⟨⟩, rfl⟩ := andThen_eq_some.mp lowered₅
  have within₂ := (tidy' _ _ _ two).names.trans within
  have within₁ := (tidy _ _ _ one).names.trans within₂
  -- The places after the test: the branch taken, the jump over the other, and the other with its labels.
  have jump := installed.right.left
  have left := installed.right.right.left
  have escape := installed.right.right.right.left
  have other := installed.right.right.right.right.left
  have right := installed.right.right.right.right.right.left
  have last := installed.right.right.right.right.right.right
  have taken := ((first _ _ _ _ one within₂ left).before (step_jump escape trivial last.place)).before
    (step_label last trivial)
  have skipped := ((second _ _ _ _ two within right).before (step_label last trivial)).after
    (step_label other trivial)
  have run := simulates_branch (t.pushes tests within₁ installed.left) jump trivial other.place taken
    (skipped.mono (Nat.le_succ _))
  simp only [List.length_append, List.length_singleton, ← Nat.add_assoc] at run ⊢
  exact run.mono (Nat.le_succ _)

theorem realizes_repeating {start stop : Nat → Label} {body : State → Result}
    (control : ∀ n, Control (start n) ∧ Control (stop n)) (inside : Realizes σ fuel a body)
    (tidy : Tidy a) :
    Realizes σ fuel (repeating start stop t.lower a) (loop σ.division t body fuel) := by
  intro l code l' pc lowered within installed
  rw [repeating, withLoop] at lowered
  obtain ⟨_, _, rest₁, ⟨⟩, lowered₁, rfl⟩ := andThen_eq_some.mp lowered
  obtain ⟨test, mid, rest₂, tests, lowered₂, rfl⟩ := andThen_eq_some.mp lowered₁
  obtain ⟨_, _, rest₃, ⟨⟩, lowered₃, rfl⟩ := andThen_eq_some.mp lowered₂
  obtain ⟨bodyCode, mid', rest₄, one, lowered₄, rfl⟩ := andThen_eq_some.mp lowered₃
  obtain ⟨_, _, _, ⟨⟩, ⟨⟩, rfl⟩ := andThen_eq_some.mp lowered₄
  have within₁ := (tidy _ _ _ one).names.trans within
  have jump := installed.right.right.left
  have round := inside _ _ _ _ one within installed.right.right.right.left
  have back := installed.right.right.right.right.left
  have last := installed.right.right.right.right.right
  have run := simulates_loop installed.left (control _).1
    (t.pushes tests within₁ installed.right.left) jump (control _).2 round back last le_rfl
  simp only [List.length_append, List.length_singleton, ← Nat.add_assoc] at run ⊢
  exact run

theorem realizes_writeln (items : List Item) :
    Realizes σ fuel ((itemsLowering items).andThen (write [.writeLine]))
      fun s => (Statement.writeln items).run σ.division fuel s := by
  intro l code l' pc lowered within installed
  obtain ⟨code, mid, _, one, ⟨⟩, rfl⟩ := andThen_eq_some.mp lowered
  have run : σ.Simulates fuel pc _ _ :=
    (simulates_items items one within installed.left).andThen (simulates_line installed.right)
  simp only [writing_andThen] at run
  simp only [List.length_append, List.length_singleton, ← Nat.add_assoc, Statement.run,
    String.append_assoc]
  exact run

mutual

theorem Statement.realizes (s : Statement) :
    Realizes σ fuel s.lower fun state => s.run σ.division fuel state := by
  match s with
  | .empty => exact realizes_nothing
  | .compound body => exact Statement.realizes body
  | .sequence items => exact Statement.realizesAll items
  | .assign x v => exact realizes_assignment x v
  | .ifThen c yes =>
    exact realizes_conditional (Statement.realizes yes) realizes_nothing yes.tidy tidy_nothing
  | .ifElse c yes no =>
    exact realizes_conditional (Statement.realizes yes) (Statement.realizes no) yes.tidy no.tidy
  | .whileDo left op right body =>
    exact realizes_repeating (fun _ => ⟨trivial, trivial⟩) (Statement.realizes body) body.tidy
  | .forDo x v dir limit body =>
    have change := tidy_assign x (dir.advance x)
    have round := realizes_andThen (Statement.realizes body)
      (realizes_assignment x (dir.advance x)) change
    refine realizes_andThen (realizes_assignment x v)
      (realizes_repeating (fun _ => ⟨trivial, trivial⟩) round (body.tidy.andThen change)) ?_
    exact tidy_repeating (fun _ => ⟨trivial, trivial⟩) (Term.tidy _) (body.tidy.andThen change)
  | .writeln items => exact realizes_writeln items

theorem Statement.realizesAll (items : List Statement) :
    Realizes σ fuel (Statement.lowerAll items)
      fun state => Statement.runAll σ.division fuel items state := by
  match items with
  | [] => exact realizes_nothing
  | s :: rest =>
    exact realizes_andThen (Statement.realizes s) (Statement.realizesAll rest)
      (Statement.tidyAll rest)

end

end Lowered

end PascalStack.ControlFlow
