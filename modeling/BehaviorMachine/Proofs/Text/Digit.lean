import BehaviorMachine.Text.Digit
import Mathlib.Tactic.Ring

/-!
# Numerals

What digits stand for, for those that numbers are written with. The numeral of a positive number has
no leading zero.
-/
namespace BehaviorMachine

theorem isDigit_eq (c : Char) : isDigit c = c.isDigit := by
  rfl

theorem isDigit_iff {c : Char} : isDigit c = true ↔ 48 ≤ c.toNat ∧ c.toNat ≤ 57 := by
  rw [isDigit,Bool.and_eq_true,decide_eq_true_iff,decide_eq_true_iff]
  rfl

theorem hexValue?_digit {c : Char} (hc : isDigit c = true) : hexValue? c = some (c.toNat - 48) := by
  rw [isDigit,Bool.and_eq_true,decide_eq_true_iff,decide_eq_true_iff] at hc
  rw [hexValue?,if_pos hc]
  rfl

/-- The digits of a list are read in base ten. -/
def AllDigits (digits : List Char) : Prop := ∀ c ∈ digits, isDigit c = true

theorem AllDigits.append {first last : List Char} (hf : AllDigits first) (hl : AllDigits last) :
    AllDigits (first ++ last) := by
  intro c hc
  rcases List.mem_append.mp hc with hc | hc
  · exact hf c hc
  · exact hl c hc

theorem allDigits_toDigits (n : Nat) : AllDigits (Nat.toDigits 10 n) := by
  intro c hc
  rw [isDigit_eq]
  exact Nat.isDigit_of_mem_toDigits (by decide) (by decide) hc

theorem allDigits_replicate (n : Nat) : AllDigits (List.replicate n '0') := by
  intro c hc
  rw [List.eq_of_mem_replicate hc]
  decide

theorem foldl_digits {digits : List Char} (hd : AllDigits digits) (n : Nat) :
    digits.foldl (fun n c => n * 10 + (hexValue? c).getD 0) n = Nat.ofDigitChars 10 digits n := by
  induction digits generalizing n with
  | nil => rfl
  | cons c rest ih =>
    have hc := hexValue?_digit (hd c List.mem_cons_self)
    have hrest := ih fun c hc => hd c (List.mem_cons_of_mem _ hc)
    rw [List.foldl_cons,hrest,Nat.ofDigitChars_cons,hc,Option.getD_some,Nat.mul_comm]
    rfl

theorem numeralValue_eq {digits : List Char} (hd : AllDigits digits) :
    numeralValue 10 digits = Nat.ofDigitChars 10 digits 0 :=
  foldl_digits hd 0

theorem numeralValue_append {first last : List Char} (hf : AllDigits first) (hl : AllDigits last) :
    numeralValue 10 (first ++ last) =
      10 ^ last.length * numeralValue 10 first + numeralValue 10 last := by
  rw [numeralValue_eq (hf.append hl),numeralValue_eq hf,numeralValue_eq hl,
    Nat.ofDigitChars_append,Nat.ofDigitChars_eq_ofDigitChars_zero]

theorem numeralValue_replicate (n : Nat) : numeralValue 10 (List.replicate n '0') = 0 := by
  rw [numeralValue_eq (allDigits_replicate n),Nat.ofDigitChars_replicate_zero,Nat.mul_zero]

theorem numeralValue_toDigits (n : Nat) : numeralValue 10 (Nat.toDigits 10 n) = n := by
  rw [numeralValue_eq (allDigits_toDigits n),Nat.ofDigitChars_ten_toDigits]

theorem head_toDigits {n : Nat} (hn : 0 < n) : (Nat.toDigits 10 n).head? ≠ some '0' := by
  induction n using Nat.strongRecOn with
  | ind n ih =>
    by_cases hlt : n < 10
    · rw [Nat.toDigits_of_lt_base hlt,List.head?_cons]
      intro he
      have hz := Nat.digitChar_eq_zero.mp (Option.some.inj he)
      omega
    · have hquot := ih (n / 10) (by omega) (by omega)
      rw [Nat.toDigits_of_base_le (by decide) (by omega)]
      cases hdigits : Nat.toDigits 10 (n / 10) with
      | nil => exact absurd hdigits Nat.toDigits_ne_nil
      | cons c rest =>
        rw [hdigits] at hquot
        exact hquot

end BehaviorMachine
