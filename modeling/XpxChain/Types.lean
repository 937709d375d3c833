import Mathlib

/-! The fixed-width identifiers of the chain. -/

namespace XpxChain

abbrev Key := Fin (2 ^ 256)
abbrev Hash256 := Fin (2 ^ 256)
abbrev Signature := BitVec 512

/-! The instances of the identifiers, named here once for the modules that use them. -/

instance transOrd256 : Std.TransOrd (Fin (2 ^ 256)) := inferInstance
instance transOrd64 : Std.TransOrd (Fin (2 ^ 64)) := inferInstance
instance lawfulEqOrd256 : Std.LawfulEqOrd (Fin (2 ^ 256)) := inferInstance
instance lawfulBEq256 : LawfulBEq (Fin (2 ^ 256)) := inferInstance
instance neZero256 : NeZero (2 ^ 256) := inferInstance
instance neZero64 : NeZero (2 ^ 64) := inferInstance
instance neZero32 : NeZero (2 ^ 32) := inferInstance

abbrev Timestamp := ℕ

abbrev Height := ℕ

/-- Subtraction of `size_t` values, which wraps below zero. -/
def sizeSub (a b : ℕ) : ℕ := if b ≤ a then a - b else a + 2 ^ 64 - b

lemma sizeSub_of_le {a b : ℕ} (h : b ≤ a) : sizeSub a b = a - b := if_pos h

end XpxChain
