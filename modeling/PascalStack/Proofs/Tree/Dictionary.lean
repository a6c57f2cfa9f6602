import PascalStack.Tree.Dictionary

/-!
# Dictionaries whose keys are texts

A text is equal to itself and to no other tree, so a dictionary that only texts were put into
answers as a table of names does.
-/

namespace PascalStack

theorem mem_of_lookup {α β : Type} [BEq α] [LawfulBEq α] {key : α} {value : β}
    {entries : List (α × β)} (h : entries.lookup key = some value) : (key, value) ∈ entries := by
  obtain ⟨before, after, rfl, _⟩ := List.lookup_eq_some_iff.mp h
  simp

namespace Tree

variable {x y : String} {t : Tree}

theorem same_str (x y : String) : Tree.same (.str x) (.str y) = (x == y) := by
  simp [Tree.same, Tree.sameAtom, Tree.number?]

theorem same_str_right : Tree.same t (.str x) = true ↔ t = .str x := by
  constructor
  · intro same
    cases t <;> simp [Tree.same, Tree.sameAtom, Tree.number?] at same ⊢
    exact same
  · rintro rfl
    simp [same_str]

theorem same_str_left : Tree.same (.str x) t = true ↔ t = .str x := by
  constructor
  · intro same
    cases t <;> simp [Tree.same, Tree.sameAtom, Tree.number?] at same ⊢
    exact same.symm
  · rintro rfl
    simp [same_str]

theorem checkKey_str (x : String) : (Tree.str x).checkKey = .ok () := rfl

end Tree

namespace Dictionary

variable {α : Type} {d : Dictionary α} {names : List String} {x : String} {key : Tree}

theorem find?_insert_str (d : Dictionary α) (x : String) (value : α) (key : Tree) :
    (d.insert (.str x) value).find? key =
      if Tree.same (.str x) key then some value else d.find? key := by
  simp only [Dictionary.find?]
  induction d with
  | nil => by_cases hit : Tree.same (.str x) key = true <;> simp [Dictionary.insert, hit]
  | cons entry rest ih =>
    rw [Dictionary.insert]
    by_cases old : Tree.same entry.1 (.str x) = true
    · have entry_key : entry.1 = .str x := Tree.same_str_right.mp old
      by_cases hit : Tree.same (.str x) key = true <;> simp [entry_key, hit, Tree.same_str]
    · simp only [old]
      by_cases found : Tree.same entry.1 key = true
      · have differ : ¬ Tree.same (.str x) key = true := by
          intro hit
          rw [Tree.same_str_left.mp hit] at found
          exact old found
        simp [found, differ]
      · simpa [List.find?_cons, found] using ih

theorem find?_insert_self (d : Dictionary α) (x : String) (value : α) :
    (d.insert (.str x) value).find? (.str x) = some value := by
  simp [find?_insert_str, Tree.same_str]

theorem find?_of_get {value : α} (h : d.get (.str x) = .ok value) :
    d.find? (.str x) = some value := by
  cases found : d.find? (.str x) with
  | some other =>
    simp only [Dictionary.get, found] at h
    cases h
    rfl
  | none =>
    simp only [Dictionary.get, found] at h
    cases h

def Keyed (d : Dictionary α) (names : List String) : Prop :=
  ∀ key, (d.find? key).isSome = true ↔ ∃ x ∈ names, key = .str x

theorem keyed_nil : Keyed ([] : Dictionary α) [] := by
  intro key
  simp [Dictionary.find?]

theorem Keyed.insert (h : Keyed d names) (x : String) (value : α) :
    Keyed (d.insert (.str x) value) (x :: names) := by
  intro key
  rw [find?_insert_str]
  by_cases hit : Tree.same (.str x) key = true
  · obtain rfl : key = .str x := Tree.same_str_left.mp hit
    simp [Tree.same_str]
  · have differ : key ≠ .str x := fun equal => hit (Tree.same_str_left.mpr equal)
    simp only [hit, List.mem_cons, exists_eq_or_imp, differ, false_or]
    exact h key

theorem Keyed.of_mem (h : Keyed d names) (member : x ∈ names) : Keyed d (x :: names) := by
  intro key
  rw [h key]
  constructor
  · rintro ⟨y, known, rfl⟩
    exact ⟨y, List.mem_cons_of_mem x known, rfl⟩
  · rintro ⟨y, known, rfl⟩
    rcases List.mem_cons.mp known with rfl | known
    · exact ⟨y, member, rfl⟩
    · exact ⟨y, known, rfl⟩

theorem Keyed.has_str (h : Keyed d names) (x : String) :
    d.has (.str x) = .ok (decide (x ∈ names)) := by
  have found := h (.str x)
  simp only [Tree.str.injEq, exists_eq_right'] at found
  simp only [Dictionary.has, Tree.checkKey_str, bind, Except.bind, pure, Except.pure]
  congr 1
  by_cases known : x ∈ names
  · simpa [known] using found.mpr known
  · cases value : d.find? (.str x) with
    | none => simp [known]
    | some v => exact absurd (found.mp (by simp [value])) known

theorem Keyed.get_ok (h : Keyed d names) (known : x ∈ names) : ∃ value, d.get (.str x) = .ok value := by
  obtain ⟨value, found⟩ := Option.isSome_iff_exists.mp ((h (.str x)).mpr ⟨x, known, rfl⟩)
  refine ⟨value, ?_⟩
  simp only [Dictionary.get, Tree.checkKey_str, found]
  rfl

theorem Keyed.get_error (h : Keyed d names) (unknown : ∀ x ∈ names, key ≠ .str x) :
    ∃ f, d.get key = .error f := by
  have missing : d.find? key = none := by
    cases value : d.find? key with
    | none => rfl
    | some v =>
      obtain ⟨x, known, equal⟩ := (h key).mp (by simp [value])
      exact absurd equal (unknown x known)
  simp only [Dictionary.get, missing]
  cases checked : key.checkKey with
  | error f => exact ⟨f, rfl⟩
  | ok _ =>
    cases shown : key.shown with
    | error f => exact ⟨f, by simp [bind, Except.bind]⟩
    | ok text => exact ⟨.missingKey text, rfl⟩

theorem Keyed.get_error_str (h : Keyed d names) (unknown : x ∉ names) :
    ∃ f, d.get (.str x) = .error f := by
  refine h.get_error fun y known equal => unknown ?_
  rwa [Tree.str.inj equal]

theorem Keyed.has_eq_false (h : Keyed d names) (unknown : ∀ x ∈ names, key ≠ .str x) :
    (∃ f, d.has key = .error f) ∨ d.has key = .ok false := by
  have missing : (d.find? key).isSome = false := by
    rw [Bool.eq_false_iff]
    intro found
    obtain ⟨x, known, equal⟩ := (h key).mp found
    exact unknown x known equal
  simp only [Dictionary.has, missing]
  cases checked : key.checkKey with
  | error f => exact .inl ⟨f, rfl⟩
  | ok _ => exact .inr rfl

end Dictionary

end PascalStack
