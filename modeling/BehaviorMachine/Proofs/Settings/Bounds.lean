import BehaviorMachine.Proofs.Checks
import BehaviorMachine.Proofs.Text.Blank
import BehaviorMachine.Proofs.Text.Utf8

/-!
# Bounds of the settings

Budgets are accepted exactly if they keep their bounds, and so are all settings.
-/
namespace BehaviorMachine

def BudgetInBounds (value : UInt32) : Prop := 0 < value ∧ value ≤ maxBudget

structure Budgets.InBounds (b : Budgets) : Prop where
  retryWait : BudgetInBounds b.retryWaitTicks
  idleWait : BudgetInBounds b.idleWaitTicks
  yield : BudgetInBounds b.yieldTicks
  maxTransitions : BudgetInBounds b.maxTransitionsPerTick
  idle_lt_retry : b.idleWaitTicks < b.retryWaitTicks

theorem checkBudget_eq_ok {name : BudgetName} {value : UInt32} :
    checkBudget name value = .ok () ↔ BudgetInBounds value := by
  rw [checkBudget,check_bind_eq_ok,refuseIf_eq_ok,refuseIf_eq_ok,BudgetInBounds,UInt32.not_lt]
  rw [UInt32.pos_iff_ne_zero]

theorem Budgets.validate_eq_ok {b : Budgets} : b.validate = .ok () ↔ b.InBounds := by
  simp only [validate,check_bind_eq_ok,checkBudget_eq_ok,refuseIf_eq_ok,UInt32.not_le]
  exact ⟨fun ⟨hr,hi,hy,hm,hlt⟩ => ⟨hr,hi,hy,hm,hlt⟩,
    fun h => ⟨h.retryWait,h.idleWait,h.yield,h.maxTransitions,h.idle_lt_retry⟩⟩

namespace Settings

variable {s : Settings}

/-- Settings that a run can rely on. The filter is taken without the blanks around it. -/
structure InBounds (s : Settings) : Prop where
  idle_pos : 0 < s.budgets.idleWaitTicks
  idle_lt_retry : s.budgets.idleWaitTicks < s.budgets.retryWaitTicks
  retry_le : s.budgets.retryWaitTicks ≤ 100000
  yield : 0 < s.budgets.yieldTicks ∧ s.budgets.yieldTicks ≤ 100000
  maxTransitions : 0 < s.budgets.maxTransitionsPerTick ∧ s.budgets.maxTransitionsPerTick ≤ 100000
  profileLimit : 0 < s.maxProfileBytes ∧ s.maxProfileBytes ≤ 16 * 1024 * 1024
  filter : ∃ part, Trimmed s.filter.toList part ∧ part ≠ [] ∧
    (String.ofList part).utf8ByteSize ≤ 1024

theorem InBounds.budgets (hs : s.InBounds) : s.budgets.InBounds where
  retryWait := ⟨UInt32.lt_trans hs.idle_pos hs.idle_lt_retry,hs.retry_le⟩
  idleWait := ⟨hs.idle_pos,UInt32.le_trans (UInt32.le_of_lt hs.idle_lt_retry) hs.retry_le⟩
  yield := hs.yield
  maxTransitions := hs.maxTransitions
  idle_lt_retry := hs.idle_lt_retry

theorem validate_eq_ok : s.validate = .ok () ↔ s.InBounds := by
  simp only [validate,check_bind_eq_ok,Budgets.validate_eq_ok,refuseIf_eq_ok,UInt64.not_lt,
    Nat.not_lt,utf8Length_eq]
  constructor
  · rintro ⟨hb,hpos,hle,hblank,hlength⟩
    exact ⟨hb.idleWait.1,hb.idle_lt_retry,hb.retryWait.2,hb.yield,hb.maxTransitions,
      ⟨UInt64.pos_iff_ne_zero.mpr hpos,hle⟩,_,trimBlanks_trimmed _,hblank,hlength⟩
  · intro hs
    obtain ⟨part,htrimmed,hblank,hlength⟩ := hs.filter
    rw [← htrimmed.eq_trimBlanks]
    exact ⟨hs.budgets,UInt64.pos_iff_ne_zero.mp hs.profileLimit.1,hs.profileLimit.2,hblank,hlength⟩

theorem budgets_inBounds (hv : s.validate = .ok ()) : s.budgets.InBounds :=
  (validate_eq_ok.mp hv).budgets

theorem default_inBounds : default.InBounds := validate_eq_ok.mp (by rfl)

end Settings

end BehaviorMachine
