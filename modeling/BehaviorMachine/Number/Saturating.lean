/-!
Arithmetic on words that stays at the greatest word instead of wrapping around.
-/
namespace BehaviorMachine

/-- The word of a number, or the greatest word. -/
def word64 (n : Nat) : UInt64 := .ofNat (min n (UInt64.size - 1))

/-- The 32-bit word of a number, or the greatest one. -/
def word32 (n : Nat) : UInt32 := .ofNat (min n (UInt32.size - 1))

theorem toNat_word64 (n : Nat) : (word64 n).toNat = min n (UInt64.size - 1) := by
  rw [word64, UInt64.toNat_ofNat', UInt64.size]
  omega

theorem toNat_word32 (n : Nat) : (word32 n).toNat = min n (UInt32.size - 1) := by
  rw [word32, UInt32.toNat_ofNat', UInt32.size]
  omega

def addSaturating (a b : UInt64) : UInt64 := word64 (a.toNat + b.toNat)

theorem le_addSaturating (a b : UInt64) : a ≤ addSaturating a b := by
  have ha := a.toNat_lt_size
  rw [UInt64.le_iff_toNat_le, addSaturating, toNat_word64]
  omega

def mulSaturating (a b : UInt64) : UInt64 := word64 (a.toNat * b.toNat)

def addSaturating32 (a b : UInt32) : UInt32 := word32 (a.toNat + b.toNat)

end BehaviorMachine
