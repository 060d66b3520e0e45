import BehaviorMachine.Number.Decimal
import Mathlib.Tactic.Ring

/-!
# Rounding

The rank nearest to a quotient depends on the value of the quotient only (`nearestRank_congr`), every
magnitude is nearest to itself, and beyond both ends of the format the nearest rank is known without
a division.
-/
namespace BehaviorMachine

theorem divNearestEven_scale {k : Nat} (hk : 0 < k) (n d : Nat) :
    divNearestEven (k * n) (k * d) = divNearestEven n d := by
  have hcmp (a b : Nat) : 2 * (k * a) < k * b ↔ 2 * a < b := by
    rw [Nat.mul_left_comm]
    exact Nat.mul_lt_mul_left hk
  have hcmp' (a b : Nat) : k * b < 2 * (k * a) ↔ b < 2 * a := by
    rw [Nat.mul_left_comm]
    exact Nat.mul_lt_mul_left hk
  simp only [divNearestEven,Nat.mul_div_mul_left n d hk,Nat.mul_mod_mul_left,hcmp,hcmp']

theorem nearestRank_scale {k : Nat} (hk : 0 < k) (n d : Nat) :
    nearestRank (k * n) (k * d) = nearestRank n d := by
  simp only [nearestRank,Nat.mul_div_mul_left n d hk,Nat.shiftLeft_eq,Nat.mul_assoc,
    divNearestEven_scale hk]

theorem nearestRank_congr {n d n' d' : Nat} (hd : 0 < d) (hd' : 0 < d') (h : n * d' = n' * d) :
    nearestRank n d = nearestRank n' d' := by
  calc nearestRank n d = nearestRank (d' * n) (d' * d) := (nearestRank_scale hd' n d).symm
    _ = nearestRank (d * n') (d * d') := by
      rw [Nat.mul_comm d' n,h,Nat.mul_comm n' d,Nat.mul_comm d' d]
    _ = nearestRank n' d' := nearestRank_scale hd n' d'

theorem divNearestEven_mul {d : Nat} (hd : 0 < d) (q : Nat) : divNearestEven (q * d) d = q := by
  have hdiv : q * d / d = q := Nat.mul_div_cancel q hd
  have hmod : q * d % d = 0 := Nat.mul_mod_left q d
  simp only [divNearestEven,hdiv,hmod]
  rw [if_pos (by omega)]

theorem log2_eq {n k : Nat} (hl : 2 ^ k ≤ n) (hu : n < 2 ^ (k+1)) : n.log2 = k := by
  have hn : n ≠ 0 := by
    have hpos : 0 < 2 ^ k := Nat.two_pow_pos k
    omega
  apply Nat.le_antisymm
  · exact Nat.lt_succ_iff.mp ((Nat.log2_lt hn).mpr hu)
  · exact (Nat.le_log2 hn).mpr hl

theorem nearestRank_mantissa {m : Nat} (e : Nat) (hl : binade ≤ m) (hu : m < 2 * binade) :
    nearestRank (m * 2 ^ e) 1 = e * binade + m := by
  have hbinade : binade = 2 ^ 52 := by rfl
  have hlog : (m * 2 ^ e).log2 = 52 + e := by
    apply log2_eq
    · rw [Nat.pow_add,← hbinade]
      exact Nat.mul_le_mul_right _ hl
    · rw [Nat.add_right_comm,Nat.pow_add,Nat.pow_succ,← hbinade]
      apply Nat.mul_lt_mul_of_pos_right _ (Nat.two_pow_pos e)
      omega
  have hexcess : 52 + e - 52 = e := by omega
  simp only [nearestRank,Nat.div_one,hlog,hexcess,Nat.shiftLeft_eq,Nat.one_mul,
    divNearestEven_mul (Nat.two_pow_pos e)]

/-- Every magnitude has its own rank. -/
theorem nearestRank_units (rank : Nat) : nearestRank (unitsOfRank rank) 1 = rank := by
  rw [unitsOfRank]
  split
  · next hr =>
    have hlog : rank.log2 - 52 = 0 := by
      by_cases hz : rank = 0
      · rw [hz]
        rfl
      · have hlt := (Nat.log2_lt (k := 53) hz).mpr hr
        omega
    simp only [nearestRank,Nat.div_one,hlog,Nat.zero_mul,Nat.zero_add,Nat.shiftLeft_zero]
    have hone := divNearestEven_mul Nat.one_pos rank
    rwa [Nat.mul_one] at hone
  · next hr =>
    have hpos : 0 < binade := by decide
    have hquot : 2 ≤ rank / binade := (Nat.le_div_iff_mul_le hpos).mpr (Nat.not_lt.mp hr)
    have hmod := Nat.mod_lt rank hpos
    have hdecomposed := Nat.div_add_mod rank binade
    rw [Nat.shiftLeft_eq,nearestRank_mantissa (rank / binade - 1) (Nat.le_add_right _ _) (by omega),
      Nat.sub_mul,Nat.one_mul]
    have hle : binade ≤ rank / binade * binade := Nat.le_mul_of_pos_left binade (by omega)
    rw [Nat.mul_comm] at hdecomposed
    omega

theorem nearestRank_small {n d : Nat} (h : 2 * n < d) : nearestRank n d = 0 := by
  have hdiv : n / d = 0 := Nat.div_eq_of_lt (by omega)
  have hmod : n % d = n := Nat.mod_eq_of_lt (by omega)
  have hlog : (n / d).log2 - 52 = 0 := by
    rw [hdiv]
    rfl
  simp only [nearestRank,hlog,Nat.zero_mul,Nat.zero_add,Nat.shiftLeft_zero]
  simp only [divNearestEven,hdiv,hmod,if_pos h]

/-- Nothing from `2 ^ 2099` units on lies within the format. -/
theorem nearestRank_large {n d k : Nat} (hd : 0 < d) (hk : 2099 ≤ k) (h : 2 ^ k * d ≤ n) :
    magnitudes ≤ nearestRank n d := by
  have hquot : 2 ^ k ≤ n / d := (Nat.le_div_iff_mul_le hd).mpr h
  have hne : n / d ≠ 0 := by
    have hpos : 0 < 2 ^ k := Nat.two_pow_pos k
    omega
  have hlog : k ≤ (n / d).log2 := (Nat.le_log2 hne).mpr hquot
  have hexcess : 2047 ≤ (n / d).log2 - 52 := by omega
  calc magnitudes = 2047 * binade := rfl
    _ ≤ ((n / d).log2 - 52) * binade := Nat.mul_le_mul_right binade hexcess
    _ ≤ nearestRank n d := Nat.le_add_right _ _

section

variable {n k : Nat}

theorem mantissa_bounds (hl : 2 ^ k ≤ n) (hu : n < 2 ^ (k+1)) (hk : k ≤ 52) :
    binade ≤ n * 2 ^ (52-k) ∧ n * 2 ^ (52-k) < 2 * binade := by
  have hbinade : 2 ^ k * 2 ^ (52-k) = binade := by
    rw [← Nat.pow_add,Nat.add_sub_cancel' hk]
    rfl
  rw [← hbinade,← Nat.mul_assoc,← Nat.pow_succ']
  exact ⟨Nat.mul_le_mul_right _ hl,Nat.mul_lt_mul_of_pos_right hu (Nat.two_pow_pos _)⟩

/-- Up to 53 binary digits of a whole number are kept. -/
theorem nearestRank_whole (hl : 2 ^ k ≤ n) (hu : n < 2 ^ (k+1)) (hk : k ≤ 52) :
    nearestRank (n <<< 1074) 1 = (1022+k) * binade + n * 2 ^ (52-k) := by
  obtain ⟨hl',hu'⟩ := mantissa_bounds hl hu hk
  have hn : n <<< 1074 = n * 2 ^ (52-k) * 2 ^ (1022+k) := by
    rw [Nat.shiftLeft_eq,Nat.mul_assoc,← Nat.pow_add]
    congr 2
    omega
  rw [hn,nearestRank_mantissa (1022+k) hl' hu']

end

theorem nearestRank_whole_mono {a b : Nat} (hab : a ≤ b) (hb : b < 2 ^ 53) :
    nearestRank (a <<< 1074) 1 ≤ nearestRank (b <<< 1074) 1 := by
  rcases Nat.eq_zero_or_pos a with rfl | ha
  · rw [nearestRank_small (by decide)]
    exact Nat.zero_le _
  have hne : a ≠ 0 := Nat.ne_of_gt ha
  have hne' : b ≠ 0 := by omega
  have hk : a.log2 ≤ 52 := Nat.lt_succ_iff.mp ((Nat.log2_lt hne).mpr (by omega))
  have hk' : b.log2 ≤ 52 := Nat.lt_succ_iff.mp ((Nat.log2_lt hne').mpr hb)
  have hl := Nat.log2_self_le hne
  have hl' := Nat.log2_self_le hne'
  rw [nearestRank_whole hl Nat.lt_log2_self hk,nearestRank_whole hl' Nat.lt_log2_self hk']
  have hlog : a.log2 ≤ b.log2 := (Nat.le_log2 hne').mpr (hl.trans hab)
  rcases Nat.eq_or_lt_of_le hlog with heq | hlt
  · rw [heq]
    exact Nat.add_le_add_left (Nat.mul_le_mul_right _ hab) _
  · obtain ⟨-,ha⟩ := mantissa_bounds hl Nat.lt_log2_self hk
    obtain ⟨hb,-⟩ := mantissa_bounds hl' Nat.lt_log2_self hk'
    have hbinades : (1022 + a.log2 + 1) * binade ≤ (1022 + b.log2) * binade :=
      Nat.mul_le_mul_right binade (by omega)
    rw [Nat.succ_mul] at hbinades
    omega

theorem nearestRank_whole_lt {n : Nat} (hn : n < 2 ^ 53) :
    nearestRank (n <<< 1074) 1 < magnitudes := by
  have hmax : nearestRank ((2 ^ 53 - 1) <<< 1074) 1 < magnitudes := by decide +kernel
  exact Nat.lt_of_le_of_lt (nearestRank_whole_mono (by omega) (by decide)) hmax

theorem Binary64.ofWord_mono {a b : UInt32} (hab : a ≤ b) :
    (ofWord false a.toUInt64).signedRank ≤ (ofWord false b.toUInt64).signedRank := by
  have hword (n : UInt32) : n.toUInt64.toNat < 2 ^ 53 :=
    Nat.lt_trans n.toNat_lt (by decide)
  have hrank (n : UInt32) : (ofWord false n.toUInt64).signedRank =
      nearestRank (n.toUInt64.toNat <<< 1074) 1 := by
    rw [ofWord,Extended.ofRatio,Extended.ofQuotient,dif_pos (nearestRank_whole_lt (hword n))]
    rfl
  rw [hrank,hrank]
  exact Int.ofNat_le.mpr (nearestRank_whole_mono (UInt32.le_iff_toNat_le.mp hab) (hword b))

end BehaviorMachine
