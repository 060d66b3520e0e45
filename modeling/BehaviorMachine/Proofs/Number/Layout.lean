import BehaviorMachine.Proofs.Number.Decimal

/-!
# Written numbers

A magnitude is written as a numeral, whose parts are whole digits, digits after a point, and an
exponent. In every layout the numeral of a magnitude reads back (`magnitude_numeral`).
-/
namespace BehaviorMachine

/-- The parts of a written number. -/
structure Numeral where
  whole : List Char
  fraction : List Char
  exponent : Option Int

namespace Numeral

def fractionText (digits : List Char) : List Char := if digits.isEmpty then [] else '.' :: digits

def exponentText : Option Int → List Char
  | none => []
  | some e => 'e' :: (if e < 0 then '-' else '+') :: Nat.toDigits 10 e.natAbs

def text (n : Numeral) : List Char :=
  n.whole ++ (fractionText n.fraction ++ exponentText n.exponent)

/-- The number that a numeral stands for. -/
def decimal (n : Numeral) : Decimal :=
  ⟨numeralValue 10 (n.whole ++ n.fraction),n.exponent.getD 0 - n.fraction.length⟩

/-- All parts are digits, and a leading zero stands alone. -/
structure Regular (n : Numeral) : Prop where
  whole : AllDigits n.whole
  fraction : AllDigits n.fraction
  nonempty : n.whole ≠ []
  leading : n.whole.head? = some '0' → n.whole = ['0']

end Numeral

theorem Decimal.value_scale (k digits : Nat) (exponent : Int) :
    (Decimal.mk (10 ^ k * digits) exponent).value = (Decimal.mk digits (exponent + k)).value := by
  simp only [value,Nat.cast_mul,Nat.cast_pow,Nat.cast_ofNat]
  rw [zpow_add₀ (by norm_num),zpow_natCast]
  ring

namespace NumberLayout

open Numeral Shortest

variable {digits : List Char} {point : Int}

theorem place_small (layout : NumberLayout) (hd : AllDigits digits) (hn : digits ≠ [])
    (hp : point ≤ 0) : ∃ n : Numeral, n.Regular ∧ layout.place digits point = n.text ∧
      n.decimal = ⟨numeralValue 10 digits,point - digits.length⟩ ∧ n.fraction ≠ [] := by
  have hzeros := allDigits_replicate (-point).toNat
  have hzero : AllDigits ['0'] := allDigits_replicate 1
  have hne : List.replicate (-point).toNat '0' ++ digits ≠ [] := by simp [hn]
  refine ⟨⟨['0'],List.replicate (-point).toNat '0' ++ digits,none⟩,⟨hzero,hzeros.append hd,by simp,
    fun _ => rfl⟩,?_,?_,hne⟩
  · rw [place,if_pos hp]
    simp [Numeral.text,fractionText,exponentText,hn]
  · have hvalue : numeralValue 10 (['0'] ++ (List.replicate (-point).toNat '0' ++ digits)) =
        numeralValue 10 digits := by
      rw [numeralValue_append hzero (hzeros.append hd),numeralValue_append hzeros hd,
        numeralValue_replicate]
      have hz : numeralValue 10 ['0'] = 0 := numeralValue_replicate 1
      rw [hz]
      omega
    simp only [decimal,hvalue,Option.getD_none,List.length_append,List.length_replicate,
      Decimal.mk.injEq,true_and]
    omega

theorem place_large (layout : NumberLayout) (hd : AllDigits digits) (hn : digits ≠ [])
    (hz : digits.head? ≠ some '0') (hp : 0 < point) (hle : digits.length ≤ point.toNat) :
    ∃ n : Numeral, n.Regular ∧ layout.place digits point = n.text ∧
      n.decimal.value = (Decimal.mk (numeralValue 10 digits) (point - digits.length)).value ∧
      (layout.fraction = true → n.fraction ≠ []) := by
  have hzeros := allDigits_replicate (point.toNat - digits.length)
  have hlast : AllDigits (if layout.fraction then ['0'] else []) := by
    split
    · exact allDigits_replicate 1
    · exact allDigits_replicate 0
  refine ⟨⟨digits ++ List.replicate (point.toNat - digits.length) '0',
    if layout.fraction then ['0'] else [],none⟩,⟨hd.append hzeros,hlast,by simp [hn],?_⟩,?_,?_,?_⟩
  · intro hh
    rw [List.head?_append_of_ne_nil _ hn] at hh
    exact absurd hh hz
  · rw [place,if_neg (by omega)]
    dsimp only
    rw [if_pos hle]
    cases layout.fraction <;> simp [Numeral.text,fractionText,exponentText]
  · have hvalue : numeralValue 10 (digits ++ List.replicate (point.toNat - digits.length) '0') =
        10 ^ (point.toNat - digits.length) * numeralValue 10 digits := by
      rw [numeralValue_append hd hzeros,numeralValue_replicate,List.length_replicate,Nat.add_zero]
    have hexponent : (0 : Int) + (point.toNat - digits.length : Nat) = point - digits.length := by omega
    cases layout.fraction with
    | false =>
      simp only [decimal,Bool.false_eq_true,if_false,List.append_nil,hvalue,Option.getD_none,
        List.length_nil,Int.natCast_zero,Int.sub_zero]
      rw [Decimal.value_scale,hexponent]
    | true =>
      have hone : AllDigits ['0'] := allDigits_replicate 1
      have hz' : numeralValue 10 ['0'] = 0 := numeralValue_replicate 1
      simp only [decimal,if_true,numeralValue_append (hd.append hzeros) hone,hvalue,hz',
        Option.getD_none,List.length_singleton,Nat.add_zero]
      rw [Decimal.value_scale,Decimal.value_scale]
      congr 2
  · intro hf
    simp [hf]

theorem place_between (layout : NumberLayout) (hd : AllDigits digits)
    (hz : digits.head? ≠ some '0') (hp : 0 < point) (hlt : point.toNat < digits.length) :
    ∃ n : Numeral, n.Regular ∧ layout.place digits point = n.text ∧
      n.decimal = ⟨numeralValue 10 digits,point - digits.length⟩ ∧ n.fraction ≠ [] := by
  have htake : digits.take point.toNat ≠ [] := by
    intro he
    have hlength := congrArg List.length he
    rw [List.length_take,List.length_nil] at hlength
    omega
  have hdrop : digits.drop point.toNat ≠ [] := by
    intro he
    have hlength := congrArg List.length he
    rw [List.length_drop,List.length_nil] at hlength
    omega
  refine ⟨⟨digits.take point.toNat,digits.drop point.toNat,none⟩,⟨?_,?_,htake,?_⟩,?_,?_,hdrop⟩
  · exact fun c hc => hd c (List.mem_of_mem_take hc)
  · exact fun c hc => hd c (List.mem_of_mem_drop hc)
  · intro hh
    rw [List.head?_take,if_neg (by omega)] at hh
    exact absurd hh hz
  · rw [place,if_neg (by omega)]
    dsimp only
    rw [if_neg (by omega)]
    simp [Numeral.text,fractionText,exponentText,hlt]
  · simp only [decimal,List.take_append_drop,Option.getD_none,List.length_drop,Decimal.mk.injEq,
      true_and]
    omega

theorem scientific_numeral (point : Int) (hd : AllDigits digits) (hn : digits ≠ [])
    (hz : digits.head? ≠ some '0') : ∃ n : Numeral, n.Regular ∧ scientific digits point = n.text ∧
      n.decimal = ⟨numeralValue 10 digits,point - digits.length⟩ ∧ n.exponent ≠ none := by
  have hlength : 0 < digits.length := List.length_pos_of_ne_nil hn
  refine ⟨⟨digits.take 1,digits.drop 1,some (point - 1)⟩,⟨?_,?_,?_,?_⟩,?_,?_,by simp⟩
  · exact fun c hc => hd c (List.mem_of_mem_take hc)
  · exact fun c hc => hd c (List.mem_of_mem_drop hc)
  · simp [hn]
  · intro hh
    rw [List.head?_take,if_neg (by decide)] at hh
    exact absurd hh hz
  · simp only [scientific,Numeral.text,fractionText,exponentText,List.isEmpty_iff,List.drop_eq_nil_iff,
      List.append_assoc]
  · simp only [decimal,List.take_append_drop,Option.getD_some,List.length_drop,Decimal.mk.injEq,
      true_and]
    omega

theorem place_numeral (layout : NumberLayout) (point : Int) (hd : AllDigits digits)
    (hn : digits ≠ []) (hz : digits.head? ≠ some '0') :
    ∃ n : Numeral, n.Regular ∧ layout.place digits point = n.text ∧
      n.decimal.value = (Decimal.mk (numeralValue 10 digits) (point - digits.length)).value ∧
      (layout.fraction = true → n.fraction ≠ []) := by
  by_cases hp : point ≤ 0
  · obtain ⟨n,hr,ht,hv,hf⟩ := layout.place_small hd hn hp
    exact ⟨n,hr,ht,by rw [hv],fun _ => hf⟩
  · by_cases hle : digits.length ≤ point.toNat
    · exact layout.place_large hd hn hz (Int.not_le.mp hp) hle
    · obtain ⟨n,hr,ht,hv,hf⟩ := layout.place_between hd hz (Int.not_le.mp hp) (Nat.not_le.mp hle)
      exact ⟨n,hr,ht,by rw [hv],fun _ => hf⟩

theorem zero_numeral (layout : NumberLayout) : ∃ n : Numeral, n.Regular ∧
    layout.place ['0'] 1 = n.text ∧ reads 0 n.decimal = true ∧
      (layout.fraction = true → n.fraction ≠ []) := by
  have hzero : AllDigits ['0'] := allDigits_replicate 1
  cases hf : layout.fraction with
  | false =>
    refine ⟨⟨['0'],[],none⟩,⟨hzero,allDigits_replicate 0,by simp,fun _ => rfl⟩,?_,by decide,by simp⟩
    simp [place,hf,Numeral.text,fractionText,exponentText]
  | true =>
    refine ⟨⟨['0'],['0'],none⟩,⟨hzero,hzero,by simp,fun _ => rfl⟩,?_,by decide,by simp⟩
    simp [place,hf,Numeral.text,fractionText,exponentText]

theorem decimal_numeral (layout : NumberLayout) {d : Decimal} (hpos : 0 < d.digits) :
    ∃ n : Numeral, n.Regular ∧
      (if layout.positional (d.exponent + (Nat.toDigits 10 d.digits).length) then
        layout.place (Nat.toDigits 10 d.digits) (d.exponent + (Nat.toDigits 10 d.digits).length)
      else scientific (Nat.toDigits 10 d.digits) (d.exponent + (Nat.toDigits 10 d.digits).length)) =
        n.text ∧ n.decimal.value = d.value ∧
      (layout.fraction = true → n.fraction ≠ [] ∨ n.exponent ≠ none) := by
  have hd := allDigits_toDigits d.digits
  have hn : Nat.toDigits 10 d.digits ≠ [] := Nat.toDigits_ne_nil
  have hz := head_toDigits hpos
  have hexponent : d.exponent + (Nat.toDigits 10 d.digits).length -
      (Nat.toDigits 10 d.digits).length = d.exponent := by omega
  split
  · obtain ⟨n,hr,ht,hv,hf⟩ := layout.place_numeral
      (d.exponent + (Nat.toDigits 10 d.digits).length) hd hn hz
    rw [numeralValue_toDigits,hexponent] at hv
    exact ⟨n,hr,ht,hv,fun h => .inl (hf h)⟩
  · obtain ⟨n,hr,ht,hv,hf⟩ := scientific_numeral
      (d.exponent + (Nat.toDigits 10 d.digits).length) hd hn hz
    rw [numeralValue_toDigits,hexponent] at hv
    exact ⟨n,hr,ht,by rw [hv],fun _ => .inr hf⟩

/-- A magnitude is written as a numeral that reads back. -/
theorem magnitude_numeral (layout : NumberLayout) (rank : Nat) : ∃ n : Numeral, n.Regular ∧
    layout.magnitude rank = n.text ∧ reads rank n.decimal = true ∧
      (layout.fraction = true → n.fraction ≠ [] ∨ n.exponent ≠ none) := by
  by_cases hrank : rank = 0
  · obtain ⟨n,hr,ht,hv,hf⟩ := layout.zero_numeral
    rw [magnitude,if_pos hrank]
    exact ⟨n,hr,ht,by rw [hrank]; exact hv,fun h => .inl (hf h)⟩
  · have hreads := reads_shortestDecimal layout.tie rank
    have hpos : 0 < (shortestDecimal layout.tie rank).digits := by
      apply Nat.pos_of_ne_zero
      intro hzero
      exact hrank (Decimal.reads_zero hreads hzero)
    obtain ⟨n,hr,ht,hv,hf⟩ := layout.decimal_numeral hpos
    rw [magnitude,if_neg hrank]
    exact ⟨n,hr,ht,reads_of_value hv.symm hreads,hf⟩

end NumberLayout

end BehaviorMachine
