import BehaviorMachine.Proofs.Condition.ItemCount
import Mathlib.Algebra.Order.BigOperators.Group.List

/-!
# Stacks of items

The total of a pattern stays at the greatest word once it gets there, so it tells the exact count up
to that word whatever the order of the stacks (`itemTotal_eq_capped`). Whether a stack is counted is
told by its name. So conditions do not see how the same items are stacked.
-/
namespace BehaviorMachine

/-- The name of the items contains a pattern, both in lower case. -/
def ItemStack.Matches (item : ItemStack) (pattern : String) : Prop :=
  lowercase pattern <:+: lowercase item.name

instance (item : ItemStack) (pattern : String) : Decidable (item.Matches pattern) :=
  inferInstanceAs (Decidable (lowercase pattern <:+: lowercase item.name))

def exactCount (pattern : String) (items : List ItemStack) : Nat :=
  ((items.filter fun item => item.Matches pattern).map fun item => item.count.toNat).sum

/-- The same items in other stacks: in another order, with two stacks of one name put together, or
with one taken apart. A stack holds no more than a word can count. -/
inductive Restacked : List ItemStack → List ItemStack → Prop where
  | reorder {items items' : List ItemStack} (hp : items.Perm items') : Restacked items items'
  | merge (name : String) (a b : UInt32) (rest : List ItemStack) :
      Restacked (⟨name,a⟩ :: ⟨name,b⟩ :: rest) (⟨name,addSaturating32 a b⟩ :: rest)
  | symm {items items' : List ItemStack} (hr : Restacked items items') : Restacked items' items
  | trans {items items' items'' : List ItemStack} (hr : Restacked items items')
      (hr' : Restacked items' items'') : Restacked items items''

section

variable {pattern : String} {items items' : List ItemStack}

theorem exactCount_cons (item : ItemStack) : exactCount pattern (item :: items) =
    (if item.Matches pattern then item.count.toNat else 0) + exactCount pattern items := by
  rw [exactCount,exactCount,List.filter_cons]
  by_cases hm : item.Matches pattern
  · rw [if_pos (decide_eq_true hm),if_pos hm,List.map_cons,List.sum_cons]
  · rw [if_neg (by simpa using hm),if_neg hm,Nat.zero_add]

theorem exactCount_perm (hp : items.Perm items') :
    exactCount pattern items = exactCount pattern items' :=
  ((hp.filter _).map _).sum_eq

theorem exactCount_sublist (hs : items.Sublist items') :
    exactCount pattern items ≤ exactCount pattern items' :=
  ((hs.filter _).map _).sum_le_sum fun _ _ => Nat.zero_le _

theorem exactCount_subperm (hs : items.Subperm items') :
    exactCount pattern items ≤ exactCount pattern items' := by
  obtain ⟨kept,hp,hs⟩ := hs
  rw [← exactCount_perm hp]
  exact exactCount_sublist hs

/-- The same items have the same count, as far as a word tells. A merged stack may lose items, but
only where the count is beyond the greatest word already. -/
theorem Restacked.exactCount_capped (hr : Restacked items items') :
    min (exactCount pattern items) (UInt32.size - 1) =
      min (exactCount pattern items') (UInt32.size - 1) := by
  induction hr with
  | reorder hp => rw [exactCount_perm hp]
  | merge name a b rest =>
    have hmerged : (addSaturating32 a b).toNat = min (a.toNat + b.toNat) (UInt32.size - 1) :=
      toNat_word32 _
    -- all three stacks have one name, so they match the same patterns
    have hsame (count : UInt32) : (ItemStack.mk name count).Matches pattern ↔
        (ItemStack.mk name a).Matches pattern := Iff.rfl
    simp only [exactCount_cons,hsame b,hsame (addSaturating32 a b)]
    split
    · omega
    · omega
  | symm _ ih => exact ih.symm
  | trans _ _ ih ih' => exact ih.trans ih'

end

namespace WorldSnapshot

variable {w : WorldSnapshot} {pattern : String} {items : List ItemStack}

theorem matchingCount_eq (w : WorldSnapshot) (pattern : String) :
    w.matchingCount pattern = exactCount pattern w.items := by
  have hm (item : ItemStack) : occursIn (lowercase pattern) (lowercase item.name) =
      decide (item.Matches pattern) := by
    rw [Bool.eq_iff_iff,occursIn_iff,decide_eq_true_iff]
    rfl
  simp only [matchingCount,matchingItems,exactCount,hm]

theorem itemTotal_eq_capped (w : WorldSnapshot) (pattern : String) :
    (w.itemTotal pattern).toNat = min (exactCount pattern w.items) (UInt32.size - 1) := by
  rw [itemTotal_toNat,matchingCount_eq]

theorem itemTotal_restacked (hr : Restacked w.items items) (pattern : String) :
    { w with items := items }.itemTotal pattern = w.itemTotal pattern := by
  apply UInt32.toNat_inj.mp
  rw [itemTotal_eq_capped,itemTotal_eq_capped]
  exact hr.exactCount_capped.symm

/-- Items are seen through the totals of patterns only. -/
theorem holds_congr_items (ht : ∀ pattern, { w with items := items }.itemTotal pattern =
      w.itemTotal pattern) (c : Condition) (session : SessionState) (now : Timestamp) :
    c.holds (some { w with items := items }) session now = c.holds (some w) session now := by
  cases c with
  | itemCount pattern operator value => simp only [Condition.holds,ht pattern]
  | behaviorComplete | always | timer | inventoryPercentFull | healthPercent | skillLevel
  | unrecognized => rfl

/-- The total of a pattern is the exact sum of the counts of the stacks that it matches, or the
greatest word where that is less: it never wraps. How the same items are stacked changes neither a
total nor the truth of any condition, and a world with further stacks, put anywhere among the others,
has no lower total. -/
theorem itemTotal_cappedSum (w : WorldSnapshot) (pattern : String) :
    (w.itemTotal pattern).toNat = min (2 ^ 32 - 1)
      ((w.items.filter fun item => item.Matches pattern).map fun item => item.count.toNat).sum ∧
    (∀ items, Restacked w.items items →
      { w with items := items }.itemTotal pattern = w.itemTotal pattern ∧
      ∀ (c : Condition) (session : SessionState) (now : Timestamp),
        c.holds (some { w with items := items }) session now = c.holds (some w) session now) ∧
    ∀ items, w.items.Subperm items →
      w.itemTotal pattern ≤ { w with items := items }.itemTotal pattern := by
  refine ⟨?_,?_,?_⟩
  · rw [itemTotal_eq_capped,Nat.min_comm]
    rfl
  · intro items hr
    exact ⟨itemTotal_restacked hr pattern,holds_congr_items (itemTotal_restacked hr)⟩
  · intro items hs
    have hle : exactCount pattern w.items ≤ exactCount pattern items := exactCount_subperm hs
    rw [UInt32.le_iff_toNat_le,itemTotal_eq_capped,itemTotal_eq_capped]
    exact min_le_min_right _ hle

/-- A store with more oats than a word can count, in two stacks. -/
def granary : WorldSnapshot :=
  { WorldSnapshot.empty with items := [⟨"Oats",4000000000⟩,⟨"Rye",7⟩,⟨"Oats",300000000⟩] }

theorem granary_restacked : Restacked granary.items [⟨"Rye",7⟩,⟨"Oats",4294967295⟩] := by
  have hmerge := Restacked.merge "Oats" 4000000000 300000000 [⟨"Rye",7⟩]
  have hfull : addSaturating32 4000000000 300000000 = 4294967295 := by decide
  rw [hfull] at hmerge
  have hbefore : granary.items.Perm [⟨"Oats",4000000000⟩,⟨"Oats",300000000⟩,⟨"Rye",7⟩] :=
    .cons _ (.swap _ _ _)
  exact ((Restacked.reorder hbefore).trans hmerge).trans (.reorder (.swap _ _ _))

theorem itemTotal_cappedSum_granary : (granary.itemTotal "oat").toNat = 2 ^ 32 - 1 ∧
    (∀ (c : Condition) (session : SessionState) (now : Timestamp),
      c.holds (some { granary with items := [⟨"Rye",7⟩,⟨"Oats",4294967295⟩] }) session now =
        c.holds (some granary) session now) ∧
    granary.itemTotal "oat" ≤
      { granary with items := ⟨"Oats",1⟩ :: granary.items }.itemTotal "oat" := by
  obtain ⟨htotal,hrestacked,hadded⟩ := itemTotal_cappedSum granary "oat"
  refine ⟨?_,(hrestacked _ granary_restacked).2,hadded _ (List.sublist_cons_self _ _).subperm⟩
  exact htotal.trans (by decide +kernel)

end WorldSnapshot

end BehaviorMachine
