import BehaviorMachine.Proofs.Run.Path

/-!
# Timers

The time between two readings of one clock is told exactly, as long as it fits the word of the
clock. On a clock of signed milliseconds a longer time is not told at all, and a timer that has run
out comes to hold no longer (`elapsed_exact`, `timer_rewinds`).
-/
namespace BehaviorMachine

namespace Timestamp

inductive Clock where
  | unix
  | logical
  deriving DecidableEq

def clock : Timestamp → Clock
  | .unixMillis _ => .unix
  | .logical _ => .logical

def reading : Timestamp → Int
  | .unixMillis millis => millis.toInt
  | .logical millis => millis.toNat

/-- More time has passed on a signed clock than its word tells. -/
def Overruns (now earlier : Timestamp) : Prop :=
  now.clock = .unix ∧ 0x8000000000000000 ≤ now.reading - earlier.reading

instance (now earlier : Timestamp) : Decidable (now.Overruns earlier) :=
  inferInstanceAs (Decidable (_ ∧ _))

variable {now earlier : Timestamp}

theorem millisSince_eq_some_iff {elapsed : UInt64} : now.millisSince earlier = some elapsed ↔
    now.clock = earlier.clock ∧ ¬ now.Overruns earlier ∧
      now.reading - earlier.reading = elapsed.toNat := by
  have he := elapsed.toNat_lt_size
  cases now with
  | unixMillis now =>
    cases earlier with
    | unixMillis earlier =>
      have hmax : Int64.maxValue.toInt = 0x7fffffffffffffff := rfl
      simp only [millisSince,clock,reading,Overruns,Option.ite_none_right_eq_some,hmax,true_and,
        Option.some.injEq,← UInt64.toNat_inj,UInt64.toNat_ofNat']
      omega
    | logical earlier => simp [millisSince,clock]
  | logical now =>
    cases earlier with
    | unixMillis earlier => simp [millisSince,clock]
    | logical earlier =>
      simp only [millisSince,clock,reading,Overruns,Option.ite_none_right_eq_some,reduceCtorEq,
        false_and,not_false_eq_true,true_and,Option.some.injEq]
      constructor
      · rintro ⟨hle,rfl⟩
        have hn := UInt64.le_iff_toNat_le.mp hle
        rw [UInt64.toNat_sub_of_le _ _ hle]
        omega
      · intro hd
        have hle : earlier ≤ now := by
          rw [UInt64.le_iff_toNat_le]
          omega
        refine ⟨hle,?_⟩
        apply UInt64.toNat_inj.mp
        rw [UInt64.toNat_sub_of_le _ _ hle]
        omega

/-- The time between two readings of one clock is told if it does not overrun. -/
theorem isSome_millisSince_iff : (now.millisSince earlier).isSome ↔
    now.clock = earlier.clock ∧ earlier.reading ≤ now.reading ∧ ¬ now.Overruns earlier := by
  constructor
  · intro hs
    obtain ⟨elapsed,he⟩ := Option.isSome_iff_exists.mp hs
    obtain ⟨hc,ho,hd⟩ := millisSince_eq_some_iff.mp he
    exact ⟨hc,by omega,ho⟩
  · rintro ⟨hc,hle,ho⟩
    have hsize : now.reading - earlier.reading < 0x10000000000000000 := by
      cases now with
      | unixMillis now =>
        have hfits : ¬ 0x8000000000000000 ≤ reading (.unixMillis now) - earlier.reading :=
          fun h => ho ⟨rfl,h⟩
        omega
      | logical now =>
        have hnow := now.toNat_lt
        cases earlier with
        | unixMillis earlier => cases hc
        | logical earlier =>
          simp only [reading]
          omega
    have hword : (now.reading - earlier.reading).toNat < UInt64.size := by
      simp only [UInt64.size]
      omega
    have hd : now.reading - earlier.reading =
        (UInt64.ofNat (now.reading - earlier.reading).toNat).toNat := by
      rw [UInt64.toNat_ofNat_of_lt' hword]
      omega
    rw [millisSince_eq_some_iff.mpr ⟨hc,ho,hd⟩]
    rfl

end Timestamp

namespace Condition

variable {duration : UInt64} {w w' : WorldSnapshot} {session later : SessionState}
  {now now' : Timestamp}

theorem timer_holds_iff : (timer duration).holds (some w) session now = true ↔
    now.clock = session.enteredAt.clock ∧ ¬ now.Overruns session.enteredAt ∧
      duration.toNat ≤ now.reading - session.enteredAt.reading := by
  have hiff : (timer duration).holds (some w) session now = true ↔
      ∃ elapsed, now.millisSince session.enteredAt = some elapsed ∧ duration ≤ elapsed := by
    simp [holds,Option.any_eq_true]
  simp only [hiff,Timestamp.millisSince_eq_some_iff,UInt64.le_iff_toNat_le]
  constructor
  · rintro ⟨elapsed,⟨hc,ho,hd⟩,hle⟩
    exact ⟨hc,ho,by omega⟩
  · rintro ⟨hc,ho,hle⟩
    obtain ⟨elapsed,he⟩ := Option.isSome_iff_exists.mp
      (Timestamp.isSome_millisSince_iff.mpr ⟨hc,by omega,ho⟩)
    obtain ⟨-,-,hd⟩ := Timestamp.millisSince_eq_some_iff.mp he
    exact ⟨elapsed,⟨hc,ho,hd⟩,by omega⟩

theorem timer_stays (hs : later.enteredAt = session.enteredAt) (hc : now'.clock = now.clock)
    (hle : now.reading ≤ now'.reading) (ht : (timer duration).holds (some w) session now = true) :
    (timer duration).holds (some w') later now' = true ↔ ¬ now'.Overruns session.enteredAt := by
  obtain ⟨hclock,-,hd⟩ := timer_holds_iff.mp ht
  rw [timer_holds_iff,hs]
  constructor
  · exact fun h => h.2.1
  · intro ho
    exact ⟨hc.trans hclock,ho,by omega⟩

end Condition

namespace Machine

variable {σ β : Type} {m : Machine} {h : Host σ β} {x : Execution σ β}

theorem after_position {n : Nat} (hc : (m.after h n x).changes = x.changes) :
    (m.after h n x).session.position = x.session.position := by
  induction n with
  | zero => rfl
  | succ n ih =>
    have hn := changes_of_after hc
    have hmoves := (step_iteration m h (m.after h n x)).moves
    rw [← ih hn]
    generalize (m.step h (m.after h n x)).1 = flow at hmoves
    cases hmoves with
    | stays hc' hp => exact hp
    | enters hw hs hc' hp ht ha =>
      rw [← after,hc,hn] at hc'
      exact absurd hc' (List.ne_cons_self (a := _) (l := _))

/-- Elapsed time is told exactly, and in a run a timer that has run out stays so until its state is
left. Both end where the time on a signed clock overruns its word. -/
theorem elapsed_exact (m : Machine) (h : Host σ β) (x : Execution σ β) (now earlier : Timestamp) :
    ((now.millisSince earlier).isSome ↔
      now.clock = earlier.clock ∧ earlier.reading ≤ now.reading ∧ ¬ now.Overruns earlier) ∧
    (∀ elapsed, now.millisSince earlier = some elapsed →
      now.reading - earlier.reading = elapsed.toNat) ∧
    ∀ n duration w w' (later : Timestamp), (m.after h n x).changes = x.changes →
      later.clock = now.clock → now.reading ≤ later.reading →
      (Condition.timer duration).holds (some w) x.session now = true →
      ((Condition.timer duration).holds (some w') (m.after h n x).session later = true ↔
        ¬ later.Overruns x.session.enteredAt) := by
  refine ⟨Timestamp.isSome_millisSince_iff,?_,?_⟩
  · intro elapsed he
    obtain ⟨-,-,hd⟩ := Timestamp.millisSince_eq_some_iff.mp he
    exact hd
  · intro n duration w w' later hn hc hle ht
    have hs : (m.after h n x).session.enteredAt = x.session.enteredAt :=
      congrArg Position.since (after_position hn)
    exact Condition.timer_stays hs hc hle ht

open Replay in
theorem elapsed_exact_sentry :
    let now := Timestamp.unixMillis 250
    let earlier := Timestamp.unixMillis (-50)
    let x := sentry.begin Replay.host none guardhouse
    let y := sentry.after Replay.host 2 x
    now.millisSince earlier = some 300 ∧ now.reading - earlier.reading = (300 : UInt64).toNat ∧
      y.changes = x.changes ∧
      (Condition.timer 100).holds (some .empty) x.session (.logical 100) = true ∧
      (Condition.timer 100).holds (some .empty) y.session (.logical 200) = true := by
  intro now earlier x y
  have hd : now.millisSince earlier = some 300 := by decide +kernel
  obtain ⟨-,hexact,-⟩ := elapsed_exact sentry Replay.host x now earlier
  have hc : y.changes = x.changes := by decide +kernel
  have ht : (Condition.timer 100).holds (some .empty) x.session (.logical 100) = true := by
    decide +kernel
  obtain ⟨-,-,hstays⟩ := elapsed_exact sentry Replay.host x (.logical 100) (.logical 0)
  have hy := hstays 2 100 .empty .empty (.logical 200) hc rfl (by decide) ht
  exact ⟨hd,hexact 300 hd,hc,ht,hy.mpr (by decide +kernel)⟩

/-- After 2 ^ 63 milliseconds of a signed clock, no time is told, though the clock has gone forward,
and a timer that has run out a millisecond before no longer holds. -/
theorem timer_rewinds :
    let entered := Timestamp.unixMillis (-1)
    let now := Timestamp.unixMillis 9223372036854775806
    let later := Timestamp.unixMillis 9223372036854775807
    now.clock = later.clock ∧ later.clock = entered.clock ∧ entered.reading ≤ now.reading ∧
      now.reading ≤ later.reading ∧ later.reading - entered.reading = 0x8000000000000000 ∧
      later.millisSince entered = none ∧
      (Condition.timer 1000).holds (some .empty) (.start none entered) now = true ∧
      (Condition.timer 1000).holds (some .empty) (.start none entered) later = false := by
  decide +kernel

end Machine

end BehaviorMachine
