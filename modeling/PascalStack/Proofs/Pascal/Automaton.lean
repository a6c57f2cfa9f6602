import PascalStack.Pascal.Table
import PascalStack.Proofs.Pascal.Derivation
import PascalStack.Proofs.Tree.Dictionary

/-!
# The automaton of the table

The states of the table with the moves between them, and the items of each state: the rules that
may be under way in it. The stack of a run is a path of the automaton, and the items say which
parts are on top of it.
-/

namespace PascalStack.Pascal

open LR

variable {p q r : Nat} {t : Terminal TokenKind} {k : TokenKind} {X : Part}

theorem mem_zipIdx_of_getD {α : Type} {rows : Array (List α)} {entry : α}
    (h : entry ∈ rows.getD p []) : ∃ row, (row, p) ∈ rows.toList.zipIdx ∧ entry ∈ row := by
  rw [Array.getD_eq_getD_getElem?] at h
  cases found : rows[p]? with
  | none => simp [found] at h
  | some row =>
    rw [found] at h
    refine ⟨row, ?_, h⟩
    rw [List.mem_zipIdx_iff_getElem?]
    simpa using found

theorem forall_actions {P : Nat → Terminal TokenKind → Action → Bool}
    (checked : (actionRows.toList.zipIdx.all fun row => row.1.all fun entry => P row.2 entry.1 entry.2) = true)
    {a : Action} (h : action p t = some a) : P p t a = true := by
  unfold action at h
  obtain ⟨row, member, entry⟩ := mem_zipIdx_of_getD (mem_of_lookup h)
  exact List.all_eq_true.mp (List.all_eq_true.mp checked _ member) _ entry

theorem forall_gotos {P : Nat → Phrase → Nat → Bool}
    (checked : (gotoRows.toList.zipIdx.all fun row => row.1.all fun entry => P row.2 entry.1 entry.2) = true)
    {n : Phrase} (h : goto p n = some q) : P p n q = true := by
  unfold goto at h
  obtain ⟨row, member, entry⟩ := mem_zipIdx_of_getD (mem_of_lookup h)
  exact List.all_eq_true.mp (List.all_eq_true.mp checked _ member) _ entry

@[irreducible] def move (p : Nat) : Part → Option Nat
  | .token k =>
    match action p (.token k) with
    | some (.shift q) => some q
    | _ => none
  | .phrase n => goto p n

@[simp] theorem move_phrase (p : Nat) (n : Phrase) : move p (.phrase n) = goto p n := by
  rw [move]

theorem action_of_move (h : move p (.token k) = some q) :
    action p (.token k) = some (.shift q) := by
  simp only [move] at h
  split at h
  case h_1 found => rw [found, Option.some_inj.mp h]
  case h_2 => cases h

theorem move_of_action (h : action p (.token k) = some (.shift q)) :
    move p (.token k) = some q := by
  simp [move, h]

theorem forall_moves {P : Nat → Part → Nat → Bool}
    (shifts : (actionRows.toList.zipIdx.all fun row => row.1.all fun entry => match entry with | (.token k, .shift q) => P row.2 (.token k) q | _ => true) = true)
    (gotos : (gotoRows.toList.zipIdx.all fun row => row.1.all fun entry => P row.2 (.phrase entry.1) entry.2) = true)
    (h : move p X = some q) : P p X q = true := by
  cases X with
  | token k =>
    exact forall_actions (P := fun p t a =>
      match (t, a) with
      | (.token k, .shift q) => P p (.token k) q
      | _ => true) shifts (action_of_move h)
  | phrase n =>
    rw [move_phrase] at h
    exact forall_gotos (P := fun p n q => P p (.phrase n) q) gotos h

/-- For each state the rules under way in it, with the number of parts that are already there.
Rules of which no part is there yet are not listed. -/
def items : List (List (Nat × Nat)) := [
  [], [], [(1, 1)], [(2, 1)], [(1, 2)], [(2, 2)], [(1, 3)], [(3, 1), (4, 1)], [(5, 1)], [(1, 4)],
  [(3, 2), (4, 2)], [(14, 1)], [(16, 1)], [(17, 1)], [(18, 1)], [(21, 1)], [(19, 1), (20, 1)],
  [(22, 1), (23, 1), (24, 1)], [(5, 2), (7, 1)], [(8, 1)], [(9, 1)],
  [(10, 1), (11, 1), (12, 1), (13, 1)], [(4, 3)], [(3, 3)], [(35, 1)], [(14, 2)], [(18, 2)],
  [(21, 2)], [(19, 2), (20, 2)], [(22, 2)], [(23, 2), (24, 2)], [(28, 1)], [(29, 1)], [(30, 1)],
  [(31, 1)], [(32, 1)], [(33, 1)], [(7, 2)], [(9, 2)], [(11, 2), (13, 2)], [(12, 2)], [(4, 4)],
  [(35, 2)], [(36, 1), (37, 1)], [(38, 1)], [(39, 1)], [(40, 1)], [(41, 1)], [(42, 1)], [(43, 1)],
  [(44, 1)], [(45, 1)], [(46, 1)], [(47, 1)], [(48, 1)], [(49, 1)],
  [(68, 1), (69, 1), (70, 1), (80, 1), (81, 1), (82, 1)], [(74, 1), (75, 1)], [(76, 1)],
  [(77, 1)], [(78, 1), (79, 1)], [(58, 1), (59, 1)], [(60, 1), (61, 1)], [(62, 1), (63, 1)],
  [(64, 1), (65, 1)], [(66, 1)], [(67, 1)], [(51, 1)], [(14, 3)], [(18, 3)], [(21, 3)], [(20, 3)],
  [(23, 3)], [(24, 3)], [(33, 2)], [(9, 3)], [(68, 1), (69, 1), (70, 1), (104, 1), (111, 1)],
  [(11, 3), (13, 3), (83, 1)], [(84, 1), (86, 1)], [(85, 1), (88, 1)], [(87, 1)], [(105, 1)],
  [(106, 1)], [(107, 1)], [(108, 1)], [(109, 1)], [(110, 1)], [(112, 1)], [(103, 1)], [(12, 3)],
  [(35, 3)], [(36, 2)], [(80, 2), (81, 2)], [(82, 2)], [(68, 2), (69, 2)],
  [(74, 2), (75, 2), (83, 1)], [(76, 2), (83, 1)], [(77, 2)], [(78, 2), (79, 2)],
  [(80, 1), (81, 1), (82, 1)], [(58, 2), (59, 2)], [(60, 2), (61, 2)], [(62, 2), (63, 2)],
  [(64, 2), (65, 2)], [(51, 2), (83, 1)], [(27, 1)], [(20, 4)], [(25, 1), (26, 1)], [(23, 4)],
  [(24, 4)], [(33, 3)], [(34, 1), (83, 1)], [(9, 4)], [(111, 2)], [(11, 4), (13, 4)], [(83, 2)],
  [(89, 1)], [(90, 1)], [(86, 2)], [(93, 1)], [(94, 1)], [(95, 1)], [(96, 1)], [(97, 1)],
  [(98, 1)], [(99, 1)], [(100, 1)], [(101, 1)], [(102, 1)], [(88, 2)], [(91, 1)], [(92, 1)],
  [(83, 1), (108, 2)], [(109, 2)], [(103, 2)], [(36, 3)],
  [(68, 1), (69, 1), (70, 1), (104, 1), (111, 1)], [(80, 3), (83, 1)], [(81, 3), (112, 1)],
  [(82, 3), (83, 1)], [(68, 3), (71, 1)], [(69, 3)], [(72, 1)], [(73, 1), (83, 1)],
  [(74, 3), (75, 3)], [(76, 3)], [(77, 3)], [(78, 3)], [(79, 3)], [(58, 3), (71, 1)], [(59, 3)],
  [(60, 3), (71, 1)], [(61, 3)], [(62, 3)], [(63, 3)], [(64, 3)], [(65, 3)], [(51, 3)], [(27, 2)],
  [(20, 5)], [(25, 2)], [(24, 5)], [(33, 4)], [(34, 2)], [(83, 1), (111, 3)], [(13, 5)],
  [(83, 3), (86, 1)], [(86, 3), (88, 1)], [(88, 3)], [(108, 3)], [(83, 1), (103, 3)], [(82, 4)],
  [(68, 4)], [(71, 2)], [(74, 4), (75, 4)], [(76, 4)], [(77, 4), (83, 1)], [(78, 4), (83, 1)],
  [(79, 4), (83, 1)], [(58, 4)], [(60, 4)], [(62, 4)], [(64, 4)], [(51, 4)], [(52, 1), (53, 1)],
  [(54, 1)], [(55, 1)], [(56, 1)], [(57, 1)], [(27, 3)], [(25, 3)], [(24, 6)], [(33, 5)],
  [(34, 3), (83, 1)], [(111, 4)], [(13, 6)], [(103, 4)], [(82, 5)], [(71, 3)], [(74, 5)],
  [(78, 5)], [(79, 5)], [(51, 5)], [(52, 2), (53, 2)], [(54, 2)], [(55, 2)], [(56, 2)], [(57, 2)],
  [(24, 7)], [(33, 6)], [(82, 6), (83, 1)], [(74, 6)], [(78, 6)], [(79, 6)], [(52, 3)], [(54, 3)],
  [(55, 3)], [(56, 3)], [(57, 3)]]

def partAt (r d : Nat) : Option Part := (rule? r).bind fun rule => rule.parts[d]?

/-- The first `d` parts of rule `r` may have brought the automaton to state `p`. A rule may start
where its phrase may. -/
@[irreducible] def hasItem (p r : Nat) : Nat → Bool
  | 0 =>
    match rule? r with
    | some rule => (goto p rule.makes).isSome
    | none => false
  | d + 1 => (items[p]?.getD []).contains (r, d + 1)

theorem hasItem_of_move {d : Nat} (moved : move p X = some q) (item : hasItem q r (d + 1) = true) :
    partAt r d = some X ∧ hasItem p r d = true := by
  have checked := forall_moves (P := fun p X q => (items[q]?.getD []).all fun item =>
    partAt item.1 (item.2 - 1) == some X && hasItem p item.1 (item.2 - 1))
    (by decide +kernel) (by decide +kernel) moved
  rw [hasItem] at item
  have both := List.all_eq_true.mp checked (r, d + 1) (List.contains_iff_mem.mp item)
  simpa using both

def reducedBy : Action → Option Rule
  | .reduce r => rule? r
  | _ => none

def isComplete (p : Nat) : Action → Bool
  | .reduce r => (rule? r).any fun rule => hasItem p r rule.parts.length
  | _ => true

theorem hasItem_of_reduce (h : action p t = some (.reduce r)) :
    ∃ rule, rule? r = some rule ∧ hasItem p r rule.parts.length = true := by
  have checked := forall_actions (P := fun p _ a => isComplete p a) (by decide +kernel) h
  exact (Option.any_eq_true _ _).mp checked

theorem exists_item_of_move (moved : move p X = some q) :
    q ≠ 0 ∧ (p = 0 ∧ X = .phrase .program ∧ q = 1 ∨
      q ≠ 1 ∧ ∃ r d, hasItem q r (d + 1) = true) := by
  have checked := forall_moves (P := fun p X q => q != 0 &&
    (p == 0 && X == .phrase .program && q == 1 ||
      q != 1 && (items[q]?.getD []).any fun item => item.2 != 0))
    (by decide +kernel) (by decide +kernel) moved
  simp only [Bool.and_eq_true, Bool.or_eq_true, bne_iff_ne, ne_eq, beq_iff_eq,
    List.any_eq_true] at checked
  refine ⟨checked.1, ?_⟩
  rcases checked.2 with ⟨⟨start, program⟩, final⟩ | ⟨inside, ⟨r, d⟩, member, started⟩
  · exact .inl ⟨start, program, final⟩
  · refine .inr ⟨inside, r, d - 1, ?_⟩
    rw [Nat.sub_add_cancel (Nat.pos_of_ne_zero started)]
    cases d with
    | zero => exact absurd rfl started
    | succ d =>
      rw [hasItem]
      exact List.contains_iff_mem.mpr member

theorem state_of_accept (h : action p t = some .accept) : p = 1 ∧ t = .finish := by
  have checked := forall_actions (P := fun p t a => a != .accept || p == 1 && t == .finish)
    (by decide +kernel) h
  simpa using checked

def shiftsToken : Terminal TokenKind → Action → Bool
  | .token _, _ => true
  | _, .shift _ => false
  | _, _ => true

theorem token_of_shift (h : action p t = some (.shift q)) : ∃ k, t = .token k := by
  have checked := forall_actions (P := fun _ t a => shiftsToken t a) (by decide +kernel) h
  cases t with
  | token k => exact ⟨k, rfl⟩
  | finish => cases checked
  | error => cases checked

theorem action_error (p : Nat) : action p .error = none := by
  cases found : action p .error with
  | none => rfl
  | some a =>
    have checked := forall_actions (P := fun _ t _ => t != .error) (by decide +kernel) found
    cases checked

theorem action_of_settled (h : settled p = some r) :
    (∃ t, action p t = some (.reduce r)) ∧
      ∀ t a, action p t = some a → a = .reduce r := by
  unfold settled at h
  split at h
  case h_1 t rule row =>
    cases h
    unfold action
    rw [row]
    refine ⟨⟨t, List.lookup_cons_self⟩, fun t' a found => ?_⟩
    have member := mem_of_lookup found
    rw [List.mem_singleton] at member
    exact (Prod.mk.inj member).2
  case h_2 => cases h

theorem move_of_settled (h : settled p = some r) (X : Part) : move p X = none := by
  cases moved : move p X with
  | none => rfl
  | some q =>
    have checked := forall_moves (P := fun p _ _ => settled p == none)
      (by decide +kernel) (by decide +kernel) moved
    rw [h] at checked
    cases checked

end PascalStack.Pascal
