import BehaviorMachine.Condition.Evaluation
import BehaviorMachine.Proofs.Number.Rounding
import BehaviorMachine.Proofs.Text.Lowercase

/-!
# Counting items

The total of the items that a pattern matches is their exact count, as far as a word can hold it
(`itemTotal_toNat`). An item whose name contains the pattern as it is written is counted if the
capital sigmas of the pattern end words in the name as they do in the pattern (`contained_counted`).
It may be missing otherwise (`contained_uncounted`).
-/
namespace BehaviorMachine

theorem Operator.compare_greaterOrEqual {supported : List Operator}
    (hs : .greaterOrEqual ∈ supported) (left : Extended) (right : Binary64) :
    Operator.greaterOrEqual.compare supported left right =
      decide (right.signedRank ≤ left.signedRank) := by
  rw [Operator.compare.eq_def,decide_eq_true hs,Bool.true_and]

theorem Operator.compare_less {supported : List Operator} (hs : .less ∈ supported)
    (left : Extended) (right : Binary64) : Operator.less.compare supported left right =
      decide (left.signedRank < right.signedRank) := by
  rw [Operator.compare.eq_def,decide_eq_true hs,Bool.true_and]

theorem toNat_foldl_addSaturating32 {α : Type} (count : α → UInt32) (items : List α)
    (total : UInt32) :
    (items.foldl (fun total item => addSaturating32 total (count item)) total).toNat =
      min (total.toNat + (items.map fun item => (count item).toNat).sum) (UInt32.size - 1) := by
  induction items generalizing total with
  | nil =>
    have ht := total.toNat_lt_size
    simp only [List.foldl_nil,List.map_nil,List.sum_nil]
    omega
  | cons item items ih =>
    rw [List.foldl_cons,ih,addSaturating32,toNat_word32,List.map_cons,List.sum_cons]
    omega

/-- The lower case of a name has that of a part in its place if the sigmas of the part agree. -/
theorem occursIn_lowercase {name pattern : String} {before after : List Char}
    (hname : name.toList = before ++ (pattern.toList ++ after))
    (hk : KeepsSigmas before.reverse after pattern.toList) :
    occursIn (lowercase pattern) (lowercase name) = true := by
  rw [occursIn_iff,lowercase,lowercase,hname,lowercaseAfter_append,lowercaseAfter_append,
    List.append_nil,lowercaseWithin_eq_iff.mpr hk]
  exact List.infix_append' _ _ _

namespace WorldSnapshot

variable {w : WorldSnapshot} {pattern : String} {item : ItemStack}

/-- The exact count of the items that a pattern matches. -/
def matchingCount (w : WorldSnapshot) (pattern : String) : Nat :=
  ((w.matchingItems pattern).map fun item => item.count.toNat).sum

theorem itemTotal_toNat (w : WorldSnapshot) (pattern : String) :
    (w.itemTotal pattern).toNat = min (w.matchingCount pattern) (UInt32.size - 1) := by
  rw [itemTotal,toNat_foldl_addSaturating32,matchingCount,UInt32.toNat_zero,Nat.zero_add]

theorem matchingCount_split {first last : List ItemStack} (hw : w.items = first ++ item :: last)
    (hm : occursIn (lowercase pattern) (lowercase item.name) = true) :
    w.matchingCount pattern =
      item.count.toNat + { w with items := first ++ last }.matchingCount pattern := by
  simp only [matchingCount,matchingItems,hw,List.filter_append,List.filter_cons,hm,if_true,
    List.map_append,List.map_cons,List.sum_append,List.sum_cons]
  omega

/-- In a name that contains the pattern as it is written, the part that is the pattern has the lower
case of the pattern exactly if each of its capital sigmas ends a word in the name when it does so in
the pattern. That is so if it has none, and if the pattern stands apart in the name. Then the item is
counted: its count is part of the total, once. A condition that asks for no more than its count holds,
and one that asks for less than that does not. -/
theorem contained_counted (w : WorldSnapshot) (pattern : String) (item : ItemStack)
    (first last : List ItemStack) (before after : List Char)
    (hw : w.items = first ++ item :: last)
    (hname : item.name.toList = before ++ (pattern.toList ++ after)) :
    (lowercase item.name = lowercaseWithin [] (pattern.toList ++ after) before ++
        (lowercaseWithin before.reverse after pattern.toList ++
          lowercaseAfter (pattern.toList.reverse ++ before.reverse) after) ∧
      (lowercaseWithin before.reverse after pattern.toList = lowercase pattern ↔
        KeepsSigmas before.reverse after pattern.toList)) ∧
    ('Σ' ∉ pattern.toList ∨ meetsCased before.reverse = false ∧ meetsCased after = false →
      KeepsSigmas before.reverse after pattern.toList) ∧
    (KeepsSigmas before.reverse after pattern.toList →
      item ∈ w.matchingItems pattern ∧
      (w.itemTotal pattern).toNat = min
        (item.count.toNat + { w with items := first ++ last }.matchingCount pattern)
        (UInt32.size - 1) ∧
      ∀ (value : Binary64) (session : SessionState) (now : Timestamp),
        value.signedRank ≤ (Binary64.ofWord false item.count.toUInt64).signedRank →
          (Condition.itemCount pattern .greaterOrEqual value).holds (some w) session now = true ∧
          (Condition.itemCount pattern .less value).holds (some w) session now = false) := by
  refine ⟨⟨?_,lowercaseWithin_eq_iff⟩,?_,?_⟩
  · rw [lowercase,hname,lowercaseAfter_append,lowercaseAfter_append,List.append_nil]
  · rintro (hnone | ⟨hbefore,hafter⟩)
    · exact keepsSigmas_of_notMem hnone
    · exact keepsSigmas_of_apart hbefore hafter
  · intro hk
    have hm := occursIn_lowercase hname hk
    have htotal := itemTotal_toNat w pattern
    rw [matchingCount_split hw hm] at htotal
    refine ⟨?_,htotal,?_⟩
    · rw [matchingItems,hw]
      exact List.mem_filter.mpr ⟨List.mem_append_right first List.mem_cons_self,hm⟩
    · intro value session now hvalue
      have hcount : item.count ≤ w.itemTotal pattern := by
        have hword := item.count.toNat_lt_size
        rw [UInt32.le_iff_toNat_le,htotal]
        omega
      have hle := hvalue.trans (Binary64.ofWord_mono hcount)
      constructor
      · exact (Operator.compare_greaterOrEqual (by decide) _ _).trans (decide_eq_true hle)
      · exact (Operator.compare_less (by decide) _ _).trans (decide_eq_false (Int.not_lt.mpr hle))

/-- A chandler's stock. The word for light stands alone in the one name, and begins the other. -/
def chandlery : WorldSnapshot :=
  { WorldSnapshot.empty with items := [⟨"ΦΩΣΦΟΡΟΣ",7⟩,⟨"ΛΥΧΝΟΣ (ΦΩΣ)",2⟩] }

theorem contained_counted_lamp : ∃ item ∈ chandlery.items, "ΦΩΣ".toList <:+: item.name.toList ∧
    item ∈ chandlery.matchingItems "ΦΩΣ" ∧ (chandlery.itemTotal "ΦΩΣ").toNat = 2 ∧
    (Condition.itemCount "ΦΩΣ" .greaterOrEqual (.ofWord false 2)).holds (some chandlery)
      (.start none (.logical 0)) (.logical 0) = true := by
  have hname : "ΛΥΧΝΟΣ (ΦΩΣ)".toList = "ΛΥΧΝΟΣ (".toList ++ ("ΦΩΣ".toList ++ ")".toList) := by
    decide +kernel
  obtain ⟨-,hkeeps,hcounted⟩ := contained_counted chandlery "ΦΩΣ" ⟨"ΛΥΧΝΟΣ (ΦΩΣ)",2⟩
    [⟨"ΦΩΣΦΟΡΟΣ",7⟩] [] _ _ rfl hname
  obtain ⟨hm,htotal,hholds⟩ := hcounted (hkeeps (.inr ⟨by decide +kernel,by decide +kernel⟩))
  refine ⟨_,List.mem_cons_of_mem _ List.mem_cons_self,by decide +kernel,hm,?_,?_⟩
  · exact htotal.trans (by decide +kernel)
  · exact (hholds _ _ _ (Int.le_refl _)).1

/-- A name may contain the pattern as it is written without being counted. -/
theorem contained_uncounted : ¬ ∀ (w : WorldSnapshot) (pattern : String) (item : ItemStack),
    item ∈ w.items → pattern.toList <:+: item.name.toList → item.count ≤ w.itemTotal pattern := by
  intro hall
  have hcount := hall chandlery "ΦΩΣ" ⟨"ΦΩΣΦΟΡΟΣ",7⟩ List.mem_cons_self (by decide +kernel)
  have htotal : chandlery.itemTotal "ΦΩΣ" = 2 := by decide +kernel
  rw [htotal] at hcount
  exact absurd hcount (by decide)

end WorldSnapshot

end BehaviorMachine
