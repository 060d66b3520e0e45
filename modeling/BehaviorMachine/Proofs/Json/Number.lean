import BehaviorMachine.Json.Token
import BehaviorMachine.Json.Writer
import BehaviorMachine.Proofs.Number.Layout

/-!
# Numbers in JSON text

A number that is written in a document is read back as itself, up to the end of its text: whole
numbers of a word, and binary64 numbers whenever the layout shows that they are no whole numbers.
-/
namespace BehaviorMachine.Json

open Numeral Token

def NoDigit (rest : List Char) : Prop := ∀ c, rest.head? = some c → isDigit c = false

def Ends (rest : List Char) : Prop :=
  ∀ c, rest.head? = some c → isDigit c = false ∧ c ≠ '.' ∧ c ≠ 'e' ∧ c ≠ 'E'

theorem ends_nil : Ends [] := by
  intro c hc
  cases hc

theorem ends_cons {c : Char} {rest : List Char} (hd : isDigit c = false) (hp : c ≠ '.')
    (he : c ≠ 'e') (hE : c ≠ 'E') : Ends (c :: rest) := by
  intro c' hc
  obtain rfl := Option.some.inj hc
  exact ⟨hd,hp,he,hE⟩

theorem Ends.noDigit {rest : List Char} (he : Ends rest) : NoDigit rest :=
  fun c hc => (he c hc).1

theorem span_digits {digits rest : List Char} (hd : AllDigits digits) (hr : NoDigit rest) :
    (digits ++ rest).span isDigit = (digits,rest) := by
  have htake : rest.takeWhile isDigit = [] ∧ rest.dropWhile isDigit = rest := by
    cases rest with
    | nil => exact ⟨rfl,rfl⟩
    | cons c rest =>
      have hc := hr c rfl
      simp [hc]
  rw [List.span_eq_takeWhile_dropWhile,List.takeWhile_append_of_pos hd,
    List.dropWhile_append_of_pos hd,htake.1,htake.2,List.append_nil]

theorem fraction?_text {digits rest : List Char} (hd : AllDigits digits) (hr : NoDigit rest)
    (hp : rest.head? ≠ some '.') : fraction? (fractionText digits ++ rest) = some (digits,rest) := by
  rw [fractionText]
  cases digits with
  | nil =>
    cases rest with
    | nil => rfl
    | cons c rest =>
      have hc : c ≠ '.' := fun h => hp (congrArg some h)
      simp [fraction?,hc]
  | cons c digits =>
    simp only [List.isEmpty_cons,Bool.false_eq_true,if_false,List.cons_append,fraction?]
    rw [← List.cons_append,span_digits hd hr]

theorem exponent?_text {exponent : Option Int} {rest : List Char} (he : Ends rest) :
    exponent? (exponentText exponent ++ rest) = some (exponent,rest) := by
  cases exponent with
  | none =>
    cases rest with
    | nil => rfl
    | cons c rest =>
      obtain ⟨-,-,hc,hC⟩ := he c rfl
      simp [exponentText,exponent?,hc,hC]
  | some e =>
    have hspan := span_digits (allDigits_toDigits e.natAbs) he.noDigit
    have hvalue := numeralValue_toDigits e.natAbs
    have hne : Nat.toDigits 10 e.natAbs ≠ [] := Nat.toDigits_ne_nil
    rw [exponentText]
    generalize Nat.toDigits 10 e.natAbs = digits at hspan hvalue hne
    obtain ⟨c,digits,rfl⟩ := List.exists_cons_of_ne_nil hne
    by_cases hneg : e < 0
    · have habs : -(e.natAbs : Int) = e := by omega
      simp only [hneg,if_true,List.cons_append,exponent?,true_or] at hspan ⊢
      simp only [hspan,hvalue,habs]
    · have habs : (e.natAbs : Int) = e := by omega
      simp only [hneg,if_false,List.cons_append,exponent?,true_or,if_true] at hspan ⊢
      simp only [hspan,hvalue,Bool.false_eq_true,if_false,habs]

theorem ends_exponentText {exponent : Option Int} {rest : List Char} (he : Ends rest) :
    NoDigit (exponentText exponent ++ rest) ∧ (exponentText exponent ++ rest).head? ≠ some '.' := by
  cases exponent with
  | none =>
    refine ⟨he.noDigit,?_⟩
    intro hc
    exact (he '.' hc).2.1 rfl
  | some e =>
    refine ⟨?_,by simp [exponentText]⟩
    intro c hc
    obtain rfl := Option.some.inj hc
    rfl

theorem noDigit_fractionText {digits rest : List Char} (hr : NoDigit rest) :
    NoDigit (fractionText digits ++ rest) := by
  rw [fractionText]
  split
  · exact hr
  · intro c hc
    obtain rfl := Option.some.inj hc
    rfl

theorem number?_digits (negative : Bool) {digits rest : List Char} (hd : AllDigits digits)
    (hn : digits ≠ []) (hz : digits.head? = some '0' → digits = ['0']) (hr : NoDigit rest) :
    number? negative (digits ++ rest) = (do
      let (fraction,rest) ← fraction? rest
      let (exponent,rest) ← exponent? rest
      if fraction.isEmpty ∧ exponent.isNone then
        return (whole negative (numeralValue 10 digits),rest)
      match Decimal.round negative
          ⟨numeralValue 10 (digits ++ fraction),exponent.getD 0 - fraction.length⟩ with
      | .finite x => return (.number (.real x),rest)
      | .infinite _ => return (.unreadable,rest)) := by
  obtain ⟨c,digits,rfl⟩ := List.exists_cons_of_ne_nil hn
  by_cases hc : c = '0'
  · subst hc
    obtain rfl : digits = [] := (List.cons.inj (hz rfl)).2
    rfl
  · have hspan := span_digits hd hr
    rw [List.cons_append] at hspan ⊢
    unfold number?
    split
    · next heq => exact absurd (List.cons.inj heq).1 hc
    · rw [hspan]
      rfl

theorem number?_text (negative : Bool) {n : Numeral} {rest : List Char} (hn : n.Regular)
    (hr : Ends rest) : number? negative (n.text ++ rest) =
      if n.fraction.isEmpty ∧ n.exponent.isNone then
        some (whole negative (numeralValue 10 n.whole),rest)
      else
        match n.decimal.round negative with
        | .finite x => some (.number (.real x),rest)
        | .infinite _ => some (.unreadable,rest) := by
  have ⟨hdigit,hpoint⟩ : NoDigit (exponentText n.exponent ++ rest) ∧ _ := ends_exponentText hr
  rw [Numeral.text,List.append_assoc,List.append_assoc,number?_digits negative hn.whole hn.nonempty
    hn.leading (noDigit_fractionText hdigit),fraction?_text hn.fraction hdigit hpoint,
    Option.bind_eq_bind,Option.bind_some]
  dsimp only
  rw [exponent?_text hr,Option.bind_eq_bind,Option.bind_some]
  dsimp only
  split
  · rfl
  · rw [decimal]
    split <;> rfl

/-- A magnitude in a layout that tells it from whole numbers. -/
theorem number?_magnitude (negative : Bool) {layout : NumberLayout} (hf : layout.fraction = true)
    {rank : Nat} (h : rank < magnitudes) {rest : List Char} (hr : Ends rest) :
    number? negative (layout.magnitude rank ++ rest) =
      some (.number (.real ⟨negative,rank,h⟩),rest) := by
  obtain ⟨n,hn,ht,hreads,hreal⟩ := layout.magnitude_numeral rank
  have hnot : ¬ (n.fraction.isEmpty = true ∧ n.exponent.isNone = true) := by
    rintro ⟨hfraction,hexponent⟩
    rcases hreal hf with hne | hne
    · exact hne (List.isEmpty_iff.mp hfraction)
    · exact hne (Option.isNone_iff_eq_none.mp hexponent)
  rw [ht,number?_text negative hn hr,if_neg hnot,Decimal.round_of_reads negative h hreads]

theorem number?_whole (negative : Bool) (n : Nat) {rest : List Char} (hr : Ends rest) :
    number? negative (Nat.toDigits 10 n ++ rest) = some (whole negative n,rest) := by
  have hn : Numeral.Regular ⟨Nat.toDigits 10 n,[],none⟩ := by
    refine ⟨allDigits_toDigits n,allDigits_replicate 0,Nat.toDigits_ne_nil,?_⟩
    intro hz
    by_cases hpos : 0 < n
    · exact absurd hz (head_toDigits hpos)
    · obtain rfl : n = 0 := by omega
      rfl
  have htext := number?_text negative hn hr
  rw [Numeral.text] at htext
  simp only [fractionText,exponentText,List.isEmpty_nil,if_true,List.append_nil,Option.isNone_none,
    and_self,numeralValue_toDigits] at htext
  exact htext

theorem number?_natural (n : UInt64) {rest : List Char} (hr : Ends rest) :
    number? false (Number.write documentNumbers (.natural n) ++ rest) =
      some (.number (.natural n),rest) := by
  rw [Number.write,number?_whole false _ hr,Token.whole,if_pos ⟨rfl,n.toNat_lt_size⟩,
    UInt64.ofNat_toNat]

theorem number?_negative (n : Fin 0x8000000000000000) {rest : List Char} (hr : Ends rest) :
    number? true (Nat.toDigits 10 (n.val + 1) ++ rest) = some (.number (.negative n),rest) := by
  have hn : true = true ∧ n.val + 1 - 1 < 0x8000000000000000 ∧ 0 < n.val + 1 :=
    ⟨rfl,n.isLt,Nat.succ_pos n.val⟩
  rw [number?_whole true _ hr,Token.whole,if_neg (by simp),dif_pos hn]
  rfl

end BehaviorMachine.Json
