import PascalStack.Proofs.ControlFlow.Labels

/-!
# When there is code

A statement reads and writes variables in the order of its text. There is code for it exactly if
every variable that is read is written before, and every number can be written.
-/

namespace PascalStack.ControlFlow

open Code List
open Lowering

/-- A use of a variable in the text of a statement. -/
inductive Access where
  | reads (x : String)
  | writes (x : String)
  deriving DecidableEq

def Term.accesses : Term → List Access
  | name x => [.reads x]
  | number _ => []
  | operation a _ b => a.accesses ++ b.accesses

def assignAccesses (x : String) : Source → List Access
  | .truth _ => [.writes x]
  | .term (.name y) => [.writes x, .reads y]
  | .term t => t.accesses ++ [.writes x]

def Source.numbers : Source → List Int
  | truth _ => []
  | term t => t.numbers

def Item.accesses : Item → List Access
  | quotation _ => []
  | name x => [.reads x]

mutual

def Statement.accesses : Statement → List Access
  | .empty => []
  | .compound body => body.accesses
  | .sequence items => Statement.accessesAll items
  | .assign x v => assignAccesses x v
  | .ifThen c yes => c.term.accesses ++ yes.accesses
  | .ifElse c yes no => c.term.accesses ++ (yes.accesses ++ no.accesses)
  | .whileDo l _ r body => l.accesses ++ r.accesses ++ body.accesses
  | .forDo x v _ limit body => assignAccesses x v ++ (limit.term.accesses ++ body.accesses)
  | .writeln items => items.flatMap Item.accesses

def Statement.accessesAll : List Statement → List Access
  | [] => []
  | s :: rest => s.accesses ++ Statement.accessesAll rest

end

mutual

def Statement.numbers : Statement → List Int
  | .empty => []
  | .compound body => body.numbers
  | .sequence items => Statement.numbersAll items
  | .assign _ v => v.numbers
  | .ifThen c yes => c.term.numbers ++ yes.numbers
  | .ifElse c yes no => c.term.numbers ++ (yes.numbers ++ no.numbers)
  | .whileDo l _ r body => l.numbers ++ r.numbers ++ body.numbers
  | .forDo _ v _ limit body => v.numbers ++ (limit.term.numbers ++ body.numbers)
  | .writeln _ => []

def Statement.numbersAll : List Statement → List Int
  | [] => []
  | s :: rest => s.numbers ++ Statement.numbersAll rest

end

structure Statement.Ready (s : Statement) : Prop where
  written : ∀ before x after, s.accesses = before ++ .reads x :: after → .writes x ∈ before
  short : ∀ n ∈ s.numbers, Writable n

def Covered (known : List String) : List Access → Prop
  | [] => True
  | .reads x :: rest => x ∈ known ∧ Covered known rest
  | .writes x :: rest => Covered (x :: known) rest

def targets (uses : List Access) : List String :=
  uses.filterMap fun
    | .writes x => some x
    | .reads _ => none

variable {known known' : List String} {uses uses' : List Access} {x : String}

theorem targets_append : targets (uses ++ uses') = targets uses ++ targets uses' :=
  filterMap_append

theorem Covered.mono (subset : known ⊆ known') (covered : Covered known uses) :
    Covered known' uses := by
  induction uses generalizing known known' with
  | nil => trivial
  | cons use rest ih =>
    cases use with
    | reads x => exact ⟨subset covered.1, ih subset covered.2⟩
    | writes x => exact ih (cons_subset_cons x subset) covered

theorem covered_append :
    Covered known (uses ++ uses') ↔ Covered known uses ∧ Covered (targets uses ++ known) uses' := by
  induction uses generalizing known with
  | nil => simp [Covered, targets]
  | cons use rest ih =>
    cases use with
    | reads x =>
      simp only [cons_append, Covered, ih, and_assoc]
      rfl
    | writes x =>
      simp only [cons_append, Covered, ih]
      refine and_congr_right fun _ => ⟨Covered.mono ?_, Covered.mono ?_⟩ <;>
        · intro y
          simp only [targets, filterMap_cons, mem_append, mem_cons]
          tauto

theorem covered_iff :
    Covered known uses ↔ ∀ before x after, uses = before ++ .reads x :: after →
      x ∈ known ∨ .writes x ∈ before := by
  induction uses generalizing known with
  | nil => simp [Covered]
  | cons use rest ih =>
    cases use with
    | reads y =>
      simp only [Covered, ih]
      constructor
      · rintro ⟨member, later⟩ before x after shape
        cases before with
        | nil =>
          cases shape
          exact .inl member
        | cons first before =>
          cases shape
          exact (later before x after rfl).imp_right (mem_cons_of_mem _)
      · intro all
        refine ⟨by simpa using all [] y rest rfl, fun before x after shape => ?_⟩
        simpa using all (.reads y :: before) x after (by rw [shape]; rfl)
    | writes y =>
      simp only [Covered, ih]
      constructor
      · intro later before x after shape
        cases before with
        | nil => cases shape
        | cons first before =>
          cases shape
          have found := later before x after rfl
          simp only [mem_cons, Access.writes.injEq] at found ⊢
          tauto
      · intro all before x after shape
        have found := all (.writes y :: before) x after (by rw [shape]; rfl)
        simp only [mem_cons, Access.writes.injEq] at found ⊢
        tauto

/-! ## Code -/

/-- There is code for a lowering exactly if its uses are covered and its numbers can be written;
then the variables that it writes have cells. -/
structure Describes (uses : List Access) (numbers : List Int) (low : Lowering) : Prop where
  defined : ∀ l, (∃ result, low l = some result) ↔
    Covered l.names uses ∧ ∀ n ∈ numbers, Writable n
  names : ∀ l code l', low l = some (code, l') →
    ∀ x, x ∈ l'.names ↔ x ∈ targets uses ∨ x ∈ l.names

variable {numbers numbers' : List Int} {a b : Lowering}

theorem Describes.andThen (first : Describes uses numbers a) (second : Describes uses' numbers' b) :
    Describes (uses ++ uses') (numbers ++ numbers') (a.andThen b) := by
  -- What the second piece finds is what the first has left.
  have covers : ∀ {l code l'}, a l = some (code, l') →
      (Covered l'.names uses' ↔ Covered (targets uses ++ l.names) uses') := by
    intro l code l' lowered
    constructor <;> refine Covered.mono fun x member => ?_
    · exact mem_append.mpr ((first.names l code l' lowered x).mp member)
    · exact (first.names l code l' lowered x).mpr (mem_append.mp member)
  constructor
  · intro l
    rw [covered_append, forall_mem_append]
    constructor
    · rintro ⟨⟨code, l''⟩, lowered⟩
      obtain ⟨code, l', code', one, two, rfl⟩ := andThen_eq_some.mp lowered
      have here := (first.defined l).mp ⟨_, one⟩
      have later := (second.defined l').mp ⟨_, two⟩
      exact ⟨⟨here.1, (covers one).mp later.1⟩, here.2, later.2⟩
    · rintro ⟨⟨here, later⟩, short, short'⟩
      obtain ⟨⟨code, l'⟩, one⟩ := (first.defined l).mpr ⟨here, short⟩
      obtain ⟨⟨code', l''⟩, two⟩ := (second.defined l').mpr ⟨(covers one).mpr later, short'⟩
      exact ⟨_, andThen_eq_some.mpr ⟨code, l', code', one, two, rfl⟩⟩
  · intro l code l'' lowered x
    obtain ⟨code, l', code', one, two, rfl⟩ := andThen_eq_some.mp lowered
    rw [second.names l' code' l'' two, first.names l code l' one, targets_append, mem_append]
    tauto

theorem describes_write (code : List Instruction) : Describes [] [] (write code) := by
  constructor
  · intro l
    simp [write, Covered]
  · rintro l _ _ ⟨⟩ x
    simp [targets]

theorem describes_load (x : String) : Describes [.reads x] [] (load x) := by
  constructor
  · intro l
    by_cases known : x ∈ l.names <;> simp [load, known, Covered]
  · intro l code l' lowered y
    simp only [load] at lowered
    split at lowered <;> cases lowered
    simp [targets]

theorem describes_push (n : Int) : Describes [] [n] (push n) := by
  constructor
  · intro l
    by_cases writable : Writable n <;> simp [push, writable, Covered]
  · intro l code l' lowered x
    simp only [push] at lowered
    split at lowered <;> cases lowered
    simp [targets]

theorem Layout.mem_names_give (l : Layout) (x y : String) :
    y ∈ (l.give x).names ↔ y = x ∨ y ∈ l.names := by
  unfold give
  split
  · rename_i member
    exact ⟨.inr, fun h => h.elim (fun equal => equal ▸ member) id⟩
  · simp [or_comm]

theorem describes_store (x : String) : Describes [.writes x] [] (store x) := by
  constructor
  · intro l
    simp [store, Covered]
  · rintro l _ _ ⟨⟩ y
    simp [targets, Layout.mem_names_give]

theorem Term.describes (t : Term) : Describes t.accesses t.numbers t.lower := by
  induction t with
  | name x => exact describes_load x
  | number n => exact describes_push n
  | operation left op right left_ih right_ih =>
    have described := left_ih.andThen (right_ih.andThen (describes_write [.operate op.operation]))
    simp only [append_nil] at described
    exact described

theorem describes_assign (x : String) (v : Source) :
    Describes (assignAccesses x v) v.numbers (assignLowering x v) := by
  cases v with
  | truth b =>
    constructor
    · intro l
      have writable : Writable (StackMachine.truth (b = true)) := by
        cases b
        · exact writable_zero
        · exact writable_one
      simp [assignAccesses, Source.numbers, assignLowering, andThen, push, store, writable, Covered]
    · intro l code l' lowered y
      obtain ⟨_, _, _, one, ⟨⟩, rfl⟩ := andThen_eq_some.mp lowered
      have same := (describes_push _).names l _ _ one y
      rw [Layout.mem_names_give, same]
      simp [assignAccesses, targets]
  | term t =>
    cases t with
    | name y =>
      have described := (describes_load y).andThen (describes_store x)
      constructor
      · intro l
        refine (described.defined (l.give x)).trans ?_
        simp [assignAccesses, Source.numbers, Term.numbers, Covered, Layout.mem_names_give]
      · intro l code l' lowered z
        rw [described.names (l.give x) code l' lowered z, Layout.mem_names_give]
        simp [assignAccesses, targets]
    | number n => exact (describes_push n).andThen (describes_store x)
    | operation left op right =>
      have described := (Term.describes (.operation left op right)).andThen (describes_store x)
      simp only [append_nil] at described
      exact described

theorem describes_items (items : List Item) :
    Describes (items.flatMap Item.accesses) [] (itemsLowering items) := by
  induction items with
  | nil => exact describes_write []
  | cons item rest ih =>
    cases item with
    | quotation q => exact (describes_write _).andThen ih
    | name x => exact ((describes_load x).andThen (describes_write _)).andThen ih

theorem describes_withLoop {f : Nat → Lowering} (each : ∀ n, Describes uses numbers (f n)) :
    Describes uses numbers (withLoop f) := by
  constructor
  · intro l
    exact (each l.loops).defined { l with loops := l.loops + 1 }
  · intro l
    exact (each l.loops).names { l with loops := l.loops + 1 }

theorem describes_withIf {f : Nat → Lowering} (each : ∀ n, Describes uses numbers (f n)) :
    Describes uses numbers (withIf f) := by
  constructor
  · intro l
    exact (each l.ifs).defined { l with ifs := l.ifs + 1 }
  · intro l
    exact (each l.ifs).names { l with ifs := l.ifs + 1 }

theorem describes_conditional {test yes no : Lowering} {tested left right : List Access}
    {tested' left' right' : List Int} (tests : Describes tested tested' test)
    (first : Describes left left' yes) (second : Describes right right' no) :
    Describes (tested ++ (left ++ right)) (tested' ++ (left' ++ right')) (conditional test yes no) := by
  refine tests.andThen (describes_withIf fun n => ?_)
  have described := (describes_write [.jumpZero (.elseBranch n)]).andThen <|
    first.andThen <| (describes_write [.jump (.ifEnd n)]).andThen <|
    (describes_write [.label (.elseBranch n)]).andThen <| second.andThen <|
    describes_write [.label (.ifEnd n)]
  simpa using described

theorem describes_repeating {start stop : Nat → Label} {test body : Lowering}
    {tested inner : List Access} {tested' inner' : List Int} (tests : Describes tested tested' test)
    (inside : Describes inner inner' body) :
    Describes (tested ++ inner) (tested' ++ inner') (repeating start stop test body) := by
  refine describes_withLoop fun n => ?_
  have described := (describes_write [.label (start n)]).andThen <| tests.andThen <|
    (describes_write [.jumpZero (stop n)]).andThen <| inside.andThen <|
    (describes_write [.jump (start n)]).andThen <| describes_write [.label (stop n)]
  simpa using described

theorem mem_targets_assign (x : String) (v : Source) : x ∈ targets (assignAccesses x v) := by
  rcases v with b | t
  · simp [assignAccesses, targets]
  · cases t <;> simp [assignAccesses, targets]

theorem describes_counted {x : String} {v : Source} {dir : Direction} {limit : Limit} {body : Lowering}
    (inside : Describes uses numbers body) :
    Describes (assignAccesses x v ++ (limit.term.accesses ++ uses))
      (v.numbers ++ (limit.term.numbers ++ numbers))
      ((assignLowering x v).andThen <|
        repeating .forStart .forEnd (Term.operation (.name x) dir.relation limit.term).lower
          (body.andThen (assignLowering x (dir.advance x)))) := by
  have tests := Term.describes (.operation (.name x) dir.relation limit.term)
  have round : Describes _ _ (repeating .forStart .forEnd _ _) :=
    describes_repeating tests (inside.andThen (describes_assign x (dir.advance x)))
  have described := (describes_assign x v).andThen round
  have target := mem_targets_assign x v
  have change : assignAccesses x (dir.advance x) = [.reads x, .writes x] := rfl
  have one : (dir.advance x).numbers = [1] := rfl
  simp only [Term.accesses, Term.numbers, change, one] at described
  constructor
  · intro l
    refine (described.defined l).trans (and_congr ?_ ?_)
    · simp only [covered_append, Covered, mem_append, target, targets_append, true_or, true_and,
        and_true, or_true]
      simp [targets]
    · simp only [forall_mem_append, nil_append, forall_mem_singleton, writable_one,
        and_true]
  · intro l code l' lowered y
    rw [described.names l code l' lowered y]
    simp only [targets_append, mem_append]
    by_cases same : y = x
    · simp [same, target]
    · simp [targets, same]

mutual

theorem Statement.describes (s : Statement) : Describes s.accesses s.numbers s.lower := by
  match s with
  | .empty => exact describes_write []
  | .compound body => exact body.describes
  | .sequence items => exact Statement.describesAll items
  | .assign x v => exact describes_assign x v
  | .ifThen c yes =>
    have described := describes_conditional c.term.describes yes.describes (describes_write [])
    simp only [append_nil] at described
    exact described
  | .ifElse c yes no =>
    exact describes_conditional c.term.describes yes.describes no.describes
  | .whileDo left op right body =>
    exact describes_repeating (Term.describes (.operation left op right)) body.describes
  | .forDo x v dir limit body => exact describes_counted body.describes
  | .writeln items =>
    have described := (describes_items items).andThen (describes_write [.writeLine])
    simp only [append_nil] at described
    exact described

theorem Statement.describesAll (items : List Statement) :
    Describes (Statement.accessesAll items) (Statement.numbersAll items)
      (Statement.lowerAll items) := by
  match items with
  | [] => exact describes_write []
  | s :: rest => exact s.describes.andThen (Statement.describesAll rest)

end

theorem Statement.ready_iff (s : Statement) : s.Ready ↔ ∃ result, s.lower {} = some result := by
  rw [s.describes.defined {}, covered_iff]
  constructor
  · intro ready
    exact ⟨fun before x after shape => .inr (ready.written before x after shape), ready.short⟩
  · rintro ⟨written, short⟩
    exact ⟨fun before x after shape => (written before x after shape).resolve_left (by simp), short⟩

end PascalStack.ControlFlow
