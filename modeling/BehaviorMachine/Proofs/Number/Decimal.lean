import Mathlib.Tactic.FieldSimp
import Mathlib.Tactic.Ring
import Mathlib.Tactic.NormNum
import BehaviorMachine.Proofs.Number.Rounding
import BehaviorMachine.Proofs.Text.Digit

/-!
# Decimals

A decimal rounds by its value, and the shortest decimal of a magnitude reads back as that magnitude
(`reads_shortestDecimal`), whatever the digits it is written with (`Decimal.round_of_reads`).
-/
namespace BehaviorMachine

theorem digits_lt (n : Nat) : n < 10 ^ digitCount n := by
  have hle := Nat.le_refl (Nat.toDigits 10 n).length
  exact (Nat.length_toDigits_le_iff (by decide) Nat.length_toDigits_pos).mp hle

theorem digits_ge {n : Nat} (hn : 0 < n) : 10 ^ (digitCount n - 1) ≤ n := by
  apply Nat.le_of_not_lt
  intro hlt
  have hpos : 0 < digitCount n := Nat.length_toDigits_pos
  by_cases hone : digitCount n = 1
  · rw [hone,Nat.sub_self,Nat.pow_zero] at hlt
    omega
  · have hle := (Nat.length_toDigits_le_iff (b := 10) (n := n) (by decide)
      (by omega : 0 < digitCount n - 1)).mpr hlt
    rw [← digitCount] at hle
    omega

namespace Decimal

def value (d : Decimal) : ℚ := d.digits * 10 ^ d.exponent

theorem ratio_snd_pos (d : Decimal) : 0 < d.ratio.2 :=
  Nat.pow_pos (by decide)

theorem ratio_neg (digits n : Nat) : (mk digits (-n)).ratio = (digits,10 ^ n) := by
  simp [ratio,powerOfTen]

theorem value_eq (d : Decimal) : d.value = d.ratio.1 / d.ratio.2 := by
  rcases d with ⟨digits,e | e⟩
  · simp [value,ratio,powerOfTen]
  · simp [value,ratio,powerOfTen,zpow_negSucc,div_eq_mul_inv]

theorem nearestRank_of_value {d d' : Decimal} (h : d.value = d'.value) :
    nearestRank (d.ratio.1 <<< 1074) d.ratio.2 = nearestRank (d'.ratio.1 <<< 1074) d'.ratio.2 := by
  have hd := d.ratio_snd_pos
  have hd' := d'.ratio_snd_pos
  have hcross : d.ratio.1 * d'.ratio.2 = d'.ratio.1 * d.ratio.2 := by
    rw [value_eq,value_eq,div_eq_div_iff] at h
    · exact_mod_cast h
    · exact_mod_cast hd.ne'
    · exact_mod_cast hd'.ne'
  apply nearestRank_congr hd hd'
  rw [Nat.shiftLeft_eq,Nat.shiftLeft_eq,Nat.mul_right_comm,hcross,Nat.mul_right_comm]

theorem trim_value (fuel : Nat) (d : Decimal) : (d.trim fuel).value = d.value := by
  induction fuel generalizing d with
  | zero => rfl
  | succ fuel ih =>
    rw [trim]
    split
    · next h =>
      have hdigits : (d.digits : ℚ) = ((d.digits / 10 : Nat) : ℚ) * 10 := by
        exact_mod_cast (Nat.div_mul_cancel (Nat.dvd_of_mod_eq_zero h)).symm
      rw [ih,value,value,zpow_add_one₀ (by norm_num),hdigits]
      ring
    · rfl

end Decimal

namespace Shortest

theorem reads_iff {rank : Nat} {d : Decimal} :
    reads rank d = true ↔ nearestRank (d.ratio.1 <<< 1074) d.ratio.2 = rank := by
  rw [reads,decide_eq_true_iff]

theorem reads_of_value {rank : Nat} {d d' : Decimal} (h : d.value = d'.value)
    (hr : reads rank d = true) : reads rank d' = true := by
  rw [reads_iff] at hr ⊢
  rw [← Decimal.nearestRank_of_value h,hr]

theorem reads_neighbour? {rank below : Nat} {step : Int} {upper : Bool} {d : Decimal}
    (h : neighbour? rank below step upper = some d) : reads rank d = true := by
  rw [neighbour?] at h
  split at h
  · next hl =>
    split at h
    · next hu =>
      rw [← Option.some.inj h]
      exact hu.2
    · rw [← Option.some.inj h]
      exact hl
  · split at h
    · next hu =>
      rw [← Option.some.inj h]
      exact hu
    · cases h

theorem reads_withDigits? {tie : Tie} {rank n : Nat} {d : Decimal}
    (h : withDigits? tie rank n = some d) : reads rank d = true :=
  reads_neighbour? h

theorem nearestRank_scaled (units n : Nat) :
    nearestRank ((Decimal.mk (units * Nat.pow 5 n) (-n)).ratio.1 <<< n)
      (Decimal.mk (units * Nat.pow 5 n) (-n)).ratio.2 = nearestRank units 1 := by
  have hten : 10 ^ n = Nat.pow 5 n * 2 ^ n := Nat.mul_pow 5 2 n
  have hpos : 0 < 10 ^ n := Nat.pow_pos (by decide)
  rw [Decimal.ratio_neg,Nat.shiftLeft_eq,Nat.mul_assoc,← hten,Nat.mul_comm units]
  calc nearestRank (10 ^ n * units) (10 ^ n)
      = nearestRank (10 ^ n * units) (10 ^ n * 1) := by rw [Nat.mul_one]
    _ = nearestRank units 1 := nearestRank_scale hpos units 1

theorem reads_exact (rank : Nat) : reads rank (exact rank) = true := by
  -- a variable in place of the exponent keeps the power of 5 from being computed
  obtain ⟨n,hn⟩ : ∃ n, n = 1074 := ⟨_,rfl⟩
  have hexponent : (-1074 : Int) = -(n : Int) := by rw [hn]; rfl
  rw [reads_iff,exact,hexponent,← hn,nearestRank_scaled,nearestRank_units]

end Shortest

open Shortest

/-- The shortest decimal reads back. -/
theorem reads_shortestDecimal (tie : Tie) (rank : Nat) :
    reads rank (shortestDecimal tie rank) = true := by
  apply reads_of_value (Decimal.trim_value _ _).symm
  cases hfound : (List.range 17).findSome? fun n => withDigits? tie rank (n + 1) with
  | none => exact reads_exact rank
  | some d =>
    obtain ⟨n,-,hn⟩ := List.exists_of_findSome?_eq_some hfound
    exact reads_withDigits? hn

namespace Decimal

theorem tiny_quotient {n d digits a b : Nat} (hn : n < 10 ^ digits) (hd : 10 ^ (digits + b) ≤ d)
    (hpow : 2 ^ (a + 1) ≤ 10 ^ b) : 2 * (n <<< a) < d := by
  calc 2 * (n <<< a) = n * 2 ^ (a + 1) := by
        rw [Nat.shiftLeft_eq,Nat.pow_succ]
        ring
    _ ≤ n * 10 ^ b := Nat.mul_le_mul_left n hpow
    _ < 10 ^ digits * 10 ^ b := Nat.mul_lt_mul_of_pos_right hn (Nat.pow_pos (by decide))
    _ = 10 ^ (digits + b) := (Nat.pow_add _ _ _).symm
    _ ≤ d := hd

theorem nearestRank_huge {n digits a b c : Nat} (hn : 10 ^ (c + digits) ≤ n)
    (hpow : 2 ^ b ≤ 10 ^ c) (hab : 2099 ≤ b + a) : magnitudes ≤ nearestRank (n <<< a) (10 ^ digits) := by
  refine nearestRank_large (Nat.pow_pos (by decide)) hab ?_
  calc 2 ^ (b + a) * 10 ^ digits = 2 ^ b * 10 ^ digits * 2 ^ a := by rw [Nat.pow_add]; ring
    _ ≤ 10 ^ c * 10 ^ digits * 2 ^ a := Nat.mul_le_mul_right _ (Nat.mul_le_mul_right _ hpow)
    _ = 10 ^ (c + digits) * 2 ^ a := by rw [Nat.pow_add]
    _ ≤ n * 2 ^ a := Nat.mul_le_mul_right _ hn
    _ = n <<< a := (Nat.shiftLeft_eq _ _).symm

theorem reads_zero {d : Decimal} {rank : Nat} (hr : reads rank d = true) (h : d.digits = 0) :
    rank = 0 := by
  rw [← reads_iff.mp hr]
  apply nearestRank_small
  rw [ratio,h,Nat.zero_mul,Nat.zero_shiftLeft]
  exact d.ratio_snd_pos

theorem reads_tiny {d : Decimal} {rank : Nat} (hr : reads rank d = true)
    (h : d.exponent + digitCount d.digits < -330) : rank = 0 := by
  have hdigits : d.ratio.1 < 10 ^ (digitCount d.digits + d.exponent.toNat) := by
    rw [Nat.pow_add]
    exact Nat.mul_lt_mul_of_pos_right (digits_lt d.digits) (Nat.pow_pos (by decide))
  have hexponent : digitCount d.digits + d.exponent.toNat + 331 ≤ (-d.exponent).toNat := by omega
  have hpow : 2 ^ (1074 + 1) ≤ 10 ^ 331 := by decide +kernel
  rw [← reads_iff.mp hr]
  apply nearestRank_small
  exact tiny_quotient hdigits (Nat.pow_le_pow_right (by decide) hexponent) hpow

theorem reads_huge {d : Decimal} {rank : Nat} (hr : reads rank d = true) (hd : 0 < d.digits)
    (h : 330 < d.exponent + digitCount d.digits) : magnitudes ≤ rank := by
  have hdigits : 10 ^ (digitCount d.digits - 1 + d.exponent.toNat) ≤ d.ratio.1 := by
    rw [Nat.pow_add]
    exact Nat.mul_le_mul_right _ (digits_ge hd)
  have hpos : 0 < digitCount d.digits := Nat.length_toDigits_pos
  have hexponent : 330 + (-d.exponent).toNat ≤ digitCount d.digits - 1 + d.exponent.toNat := by omega
  have hpow : 2 ^ 1025 ≤ 10 ^ 330 := by decide +kernel
  rw [← reads_iff.mp hr]
  exact nearestRank_huge ((Nat.pow_le_pow_right (by decide) hexponent).trans hdigits) hpow (Nat.le_refl _)

theorem ofRatio_finite {n d rank : Nat} (negative : Bool) (h : rank < magnitudes)
    (hr : nearestRank (n <<< 1074) d = rank) :
    Extended.ofRatio negative n d = .finite ⟨negative,rank,h⟩ := by
  subst hr
  rw [Extended.ofRatio,Extended.ofQuotient,dif_pos h]

/-- A decimal that reads back as a magnitude of the format rounds to it. -/
theorem round_of_reads {d : Decimal} {rank : Nat} (negative : Bool) (h : rank < magnitudes)
    (hr : reads rank d = true) : d.round negative = .finite ⟨negative,rank,h⟩ := by
  simp only [round]
  split
  · next hzero =>
    have hrank : rank = 0 := by
      rcases hzero with hz | hz
      · exact reads_zero hr hz
      · exact reads_tiny hr hz
    apply ofRatio_finite
    rw [hrank]
    exact nearestRank_small (by decide)
  · next hnonzero =>
    obtain ⟨hdigits,htop⟩ := not_or.mp hnonzero
    split
    · next hhuge =>
      have hle := reads_huge hr (Nat.pos_of_ne_zero hdigits) hhuge
      omega
    · exact ofRatio_finite negative h (reads_iff.mp hr)

end Decimal

end BehaviorMachine
