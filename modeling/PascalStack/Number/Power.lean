/-!
# Powers of two and ten

The scales of binary and decimal notation.
-/

namespace PascalStack.Number

/-- A power of two. -/
def twoTo (k : Nat) : Nat := Nat.pow 2 k

/-- A power of ten. -/
@[irreducible] def tenTo (k : Nat) : Nat := Nat.pow 10 k

-- The bound on numbers has thousands of digits. It is known by these lemmas, and never computed when
-- terms are compared.

theorem tenTo_zero : tenTo 0 = 1 := by rw [tenTo]

theorem tenTo_succ (k : Nat) : tenTo (k + 1) = tenTo k * 10 := by
  rw [tenTo, tenTo]
  rfl

theorem tenTo_le {k l : Nat} (h : k ≤ l) : tenTo k ≤ tenTo l := by
  rw [tenTo, tenTo]
  exact Nat.pow_le_pow_right (by decide) h

theorem twoTo_le_tenTo (k : Nat) : twoTo k ≤ tenTo k := by
  rw [tenTo]
  exact Nat.pow_le_pow_left (by decide) k

end PascalStack.Number
