import PascalStack.Number.Arithmetic
import PascalStack.Number.Numeral

/-!
# Numerals that are read can be written

A numeral has no more digits than `Fault.digitLimit` when it is read, so the number is small enough
to be written. So is the whole part of a double.
-/

namespace PascalStack.Number

theorem digitValue?_lt {c : Char} {d : Nat} (h : Text.digitValue? c = some d) : d < 10 := by
  obtain ⟨base, -, found⟩ := List.exists_of_findSome?_eq_some h
  split at found
  · cases found
    omega
  · cases found

theorem digitsFrom_lt (inside : Bool) (cs : List Char) : ∀ d ∈ (digitsFrom inside cs).1, d < 10 := by
  fun_induction digitsFrom inside cs with
  | case1 => simp
  | case2 inside c rest d value digits after _ ih => simp_all [digitValue?_lt value]
  | case3 inside c rest none goes ih => exact ih
  | case4 => simp

theorem one_lt_limit : 1 < tenTo Fault.digitLimit :=
  Nat.lt_of_lt_of_le (by decide +kernel : 1 < tenTo 1) (tenTo_le (by decide))

theorem foldl_digits_lt (ds : List Nat) (digits : ∀ d ∈ ds, d < 10) (n : Nat) :
    ds.foldl (fun n d => 10 * n + d) n < (n + 1) * tenTo ds.length := by
  induction ds generalizing n with
  | nil =>
    rw [List.length_nil, tenTo_zero, Nat.mul_one]
    exact n.lt_succ_self
  | cons d ds ih =>
    obtain ⟨digit, digits⟩ := List.forall_mem_cons.mp digits
    calc ds.foldl (fun n d => 10 * n + d) (10 * n + d)
        < (10 * n + d + 1) * tenTo ds.length := ih digits _
      _ ≤ (10 * (n + 1)) * tenTo ds.length := Nat.mul_le_mul_right _ (by omega)
      _ = (n + 1) * tenTo (ds.length + 1) := by
        rw [tenTo_succ, Nat.mul_comm 10, Nat.mul_assoc, Nat.mul_comm 10]

theorem natAbs_lt_of_readInteger {text : String} {n : Int} (read : readInteger text = .ok n) :
    n.natAbs < tenTo Fault.digitLimit := by
  simp only [readInteger] at read
  generalize digits_eq : takeDigits _ = parsed at read
  obtain ⟨ds, rest⟩ := parsed
  have digits : ∀ d ∈ ds, d < 10 := by
    have all := digitsFrom_lt false (takeSign (Text.trim Text.isSpace text.toList)).2
    rw [takeDigits] at digits_eq
    rwa [digits_eq] at all
  split at read
  · cases read
  · split at read
    · cases read
    · rename_i short
      have size : tenTo ds.length ≤ tenTo Fault.digitLimit := tenTo_le (Nat.not_lt.mp short)
      have bound : ofDigits ds < tenTo Fault.digitLimit := by
        have below := foldl_digits_lt ds digits 0
        rw [Nat.zero_add, Nat.one_mul] at below
        exact Nat.lt_of_lt_of_le below size
      cases read
      split
      · rwa [Int.natAbs_neg]
      · exact bound

theorem integerText_of_readInteger {text : String} {n : Int} (read : readInteger text = .ok n) :
    integerText n = .ok (toString n) :=
  if_pos (natAbs_lt_of_readInteger read)

theorem twoTo_add (k l : Nat) : twoTo (k + l) = twoTo k * twoTo l := Nat.pow_add 2 k l

theorem twoTo_le {k l : Nat} (h : k ≤ l) : twoTo k ≤ twoTo l :=
  Nat.pow_le_pow_right (by decide) h

theorem twoTo_pos (k : Nat) : 0 < twoTo k := Nat.two_pow_pos k

theorem bounds_of_decode {x : Float} {negative : Bool} {m : Nat} {e : Int}
    (h : decode x = .finite negative m e) : m < twoTo 53 ∧ e ≤ 971 := by
  have fraction : x.toBits.toNat % twoTo 52 < twoTo 52 := Nat.mod_lt _ (twoTo_pos 52)
  have double : twoTo 53 = twoTo 52 + twoTo 52 := by rw [← Nat.mul_two]; rfl
  have field : x.toBits.toNat / twoTo 52 % 2048 < 2048 := Nat.mod_lt _ (by decide)
  simp only [decode] at h
  split at h
  · split at h <;> cases h
  · split at h
    · cases h
      omega
    · cases h
      omega

theorem natAbs_lt_of_truncate {x : Float} {i : Int} (h : (real x).truncate = .ok i) :
    i.natAbs < tenTo Fault.digitLimit := by
  cases decoded : decode x with
  | nan | infinite _ => simp [truncate, decoded] at h
  | finite negative m e =>
    obtain ⟨mantissa, exponent⟩ := bounds_of_decode decoded
    simp only [truncate, decoded, Except.ok.injEq] at h
    have size : (magnitudeRatio m e).1 / (magnitudeRatio m e).2 < twoTo 53 * twoTo 971 := by
      unfold magnitudeRatio
      split
      · rw [Nat.div_one]
        exact Nat.mul_lt_mul_of_lt_of_le mantissa (twoTo_le (by omega)) (twoTo_pos 971)
      · calc m / twoTo (-e).toNat ≤ m := Nat.div_le_self _ _
          _ < twoTo 53 := mantissa
          _ ≤ twoTo 53 * twoTo 971 := Nat.le_mul_of_pos_right _ (twoTo_pos 971)
    have limit : twoTo 53 * twoTo 971 ≤ tenTo Fault.digitLimit := by
      calc twoTo 53 * twoTo 971 = twoTo 1024 := (twoTo_add 53 971).symm
        _ ≤ tenTo 1024 := twoTo_le_tenTo 1024
        _ ≤ tenTo Fault.digitLimit := tenTo_le (by decide)
    have whole : (wholePart negative m e).natAbs =
        (magnitudeRatio m e).1 / (magnitudeRatio m e).2 := by
      cases negative with
      | true => exact Int.natAbs_neg _
      | false => rfl
    rw [← h, whole]
    exact Nat.lt_of_lt_of_le size limit

end PascalStack.Number
