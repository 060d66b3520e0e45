import BehaviorMachine.Proofs.Run.Clock

/-!
# Readings of a simulated clock

An iteration reads the clock once at most, after it has polled for interrupts. In a simulation no
reading is before an earlier one, and none is before the time at which the current state was entered
(`clock_neverBehind`), so a timer always knows how long it has run.
-/
namespace BehaviorMachine

namespace Machine

variable {σ β : Type}

/-- An iteration reads the clock: where it follows an interrupt, and before it looks at conditions. -/
inductive Reads (m : Machine) (h : Host σ β) (x : Execution σ β) : Execution σ β → Prop where
  | redirected {s : StateSpec} {y : Execution σ β} {i : Interrupt} {target : StateId} {host : σ}
      (hs : m.currentState? x.session = some s) (hy : Ready m h x y)
      (hp : h.poll y.host = (some i,host)) (hr : m.profile.reaction s i.type = .enter target) :
      Reads m h x { y with host }
  | considers {s : StateSpec} {z : Execution σ β} (hz : Considers m h x s z) : Reads m h x z

section

variable {m : Machine} {h : Host σ β} {x y y' z z' : Execution σ β}

theorem Ready.unique (hy : Ready m h x y) (hy' : Ready m h x y') : y' = y := by
  cases hy with
  | within hb =>
    cases hy' with
    | within hb' => rfl
    | yielded hb' hw' => exact absurd hb' hb
  | yielded hb hw =>
    cases hy' with
    | within hb' => exact absurd hb hb'
    | yielded hb' hw' =>
      cases hw.symm.trans hw'
      rfl

theorem Reads.polled (hz : Reads m h x z) :
    ∃ y, Ready m h x y ∧ z = { y with host := (h.poll y.host).2 } := by
  cases hz with
  | redirected hs hy hp hr => exact ⟨_,hy,by rw [hp]⟩
  | considers hz =>
    obtain ⟨hs,hy,hu⟩ := hz
    refine ⟨_,hy,?_⟩
    cases hu with
    | quiet hp => rw [hp]
    | ignored hp hr => rw [hp]

theorem Reads.unique (hz : Reads m h x z) (hz' : Reads m h x z') : z' = z := by
  obtain ⟨y,hy,rfl⟩ := hz.polled
  obtain ⟨y',hy',rfl⟩ := hz'.polled
  rw [hy.unique hy']

end

open Replay

section

variable {m : Machine} {x z z' : Execution Replay ScriptedBehavior}

theorem Reads.follows (hz : Reads m Replay.host x z) : Follows x.host z.host := by
  obtain ⟨y,hy,rfl⟩ := hz.polled
  have hready := (goingOn x.host).keeps_ready (goingOn_keeps.mpr (.refl x.host)) hy
  exact (goingOn_keeps.mp hready).trans (follows_poll _)

theorem Reads.follows_step (hz : Reads m Replay.host x z) :
    Follows z.host (m.step Replay.host x).2.host := by
  have hkeeps : (goingOn z.host).Keeps z := goingOn_keeps.mpr (.refl z.host)
  apply goingOn_keeps.mp
  cases hz with
  | redirected hs hy hp hr =>
    rw [(Iteration.redirected hs hy hp hr).step_eq]
    exact (goingOn _).keeps_enter _ _ _ _ hkeeps
  | @considers s z hz =>
    obtain ⟨hs,hy,hu⟩ := hz
    cases ht : m.profile.firing? s (Replay.host.world z.host) z.session (Replay.host.now z.host) with
    | some t =>
      rw [(Iteration.fired hs hy hu ht).step_eq]
      exact (goingOn _).keeps_enter _ _ _ _ hkeeps
    | none =>
      obtain ⟨ticks,w,hd⟩ := exists_driven m Replay.host s z
      have hdriven := (goingOn _).keeps_driven hkeeps hd
      rcases hw : Replay.host.wait ticks w.host with ⟨_|_,host⟩
      · rw [(Iteration.denied hs hy hu ht hd hw).step_eq]
        apply (goingOn _).keeps_pause
        exact (goingOn _).keeps_wait hdriven hw
      · rw [(Iteration.continued hs hy hu ht hd hw).step_eq]
        exact (goingOn _).keeps_wait hdriven hw

theorem follows_after (m : Machine) (x : Execution Replay ScriptedBehavior) {n k : Nat} (hn : n ≤ k) :
    Follows (m.after Replay.host n x).host (m.after Replay.host k x).host := by
  induction hn with
  | refl => exact .refl _
  | @step k hn ih =>
    have hkeeps := goingOn_keeps.mpr (.refl (m.after Replay.host k x).host)
    exact ih.trans (goingOn_keeps.mp ((goingOn _).keeps_iteration hkeeps (step_iteration m _ _)))

/-- Of two readings the clock has not gone back at the later one. -/
theorem Reads.follows_read {n k : Nat} (hn : n ≤ k)
    (hz : Reads m Replay.host (m.after Replay.host n x) z)
    (hz' : Reads m Replay.host (m.after Replay.host k x) z') : Follows z.host z'.host := by
  rcases Nat.eq_or_lt_of_le hn with rfl | hlt
  · rw [hz.unique hz']
    exact .refl _
  · exact (hz.follows_step.trans (follows_after m x hlt)).trans hz'.follows

theorem Since.notAhead {r : Replay} {entered : UInt64} (hx : Since (.logical entered) r x)
    (he : entered ≤ r.startMs) : ∃ entered, x.session.enteredAt = .logical entered ∧
      entered ≤ timeAt r.startMs r.tickMs x.host.tick := by
  cases hc : x.changes with
  | nil => exact ⟨entered,hx.unchanged hc,UInt64.le_trans he (le_timeAt _ _ _)⟩
  | cons c rest =>
    obtain ⟨hentered,ticks,hle,htime⟩ := hx.changed c (by rw [hc]; rfl)
    exact ⟨_,hentered.symm.trans htime,timeAt_mono hle _ _⟩

end

/-- A simulation starts in its state no earlier than the state was entered. -/
theorem simulationStart_entered (m : Machine) (script : HostScript) {session : Option SessionState}
    (hs : ∀ s ∈ session, ∃ entered, s.enteredAt = .logical entered) :
    ∃ entered ≤ simulationStart script session,
      (m.begin Replay.host session ((Replay.start script).startingAt
        (simulationStart script session))).session.enteredAt = .logical entered := by
  cases session with
  | none => exact ⟨_,UInt64.le_refl _,congrArg Timestamp.logical (timeAt_zero _ _)⟩
  | some s =>
    obtain ⟨entered,he⟩ := hs s rfl
    exact ⟨entered,(simulationStart_logical he).1,he⟩

/-- In a simulation with a session of a logical clock, or with none, the clock shows the ticks passed
since its start. It is never behind the time at which the current state was entered, so the time passed
since then is always told, and no reading is before an earlier one, even where the clock has come to
the end of time. -/
theorem clock_neverBehind (m : Machine) (script : HostScript) {session : Option SessionState}
    (hs : ∀ s ∈ session, ∃ entered, s.enteredAt = .logical entered) :
    let start := simulationStart script session
    let x := m.begin Replay.host session ((Replay.start script).startingAt start)
    x.host.now = .logical start ∧
    (∀ n s z, m.Considers Replay.host (m.after Replay.host n x) s z →
      ∃ now entered, z.host.now = .logical now ∧ z.session.enteredAt = .logical entered ∧
        entered ≤ now ∧ z.host.now.millisSince z.session.enteredAt = some (now - entered)) ∧
    (∀ n z, m.Reads Replay.host (m.after Replay.host n x) z →
      z.host.now = .logical (timeAt start script.tickMs z.host.tick)) ∧
    ∀ n k z z', n ≤ k → m.Reads Replay.host (m.after Replay.host n x) z →
      m.Reads Replay.host (m.after Replay.host k x) z' →
      ∃ now later, z.host.now = .logical now ∧ z'.host.now = .logical later ∧
        start ≤ now ∧ now ≤ later := by
  intro start x
  have hnow : ∀ n z, m.Reads Replay.host (m.after Replay.host n x) z →
      z.host.now = .logical (timeAt start script.tickMs z.host.tick) := by
    intro n z hz
    have hfollows := (follows_after m x (Nat.zero_le n)).trans hz.follows
    rw [now_eq,hfollows.startMs,hfollows.tickMs]
    rfl
  refine ⟨congrArg Timestamp.logical (timeAt_zero start script.tickMs),?_,hnow,?_⟩
  · intro n s z hz
    obtain ⟨first,hfirst,hbegin⟩ := simulationStart_entered m script hs
    have hsince : Since x.session.enteredAt ((Replay.start script).startingAt start)
        (m.after Replay.host n x) := after_since (begin_since m session _) n
    rw [hbegin] at hsince
    obtain ⟨entered,hentered,hle⟩ := hsince.notAhead hfirst
    have hread := hnow n z (.considers hz)
    have hpassed : entered ≤ timeAt start script.tickMs z.host.tick :=
      UInt64.le_trans hle (timeAt_mono (Reads.considers hz).follows.tick _ _)
    rw [← hz.session] at hentered
    refine ⟨_,entered,hread,hentered,hpassed,?_⟩
    rw [hread,hentered]
    exact if_pos hpassed
  · intro n k z z' hn hz hz'
    refine ⟨_,_,hnow n z hz,hnow k z' hz',le_timeAt _ _ _,?_⟩
    exact timeAt_mono (hz.follows_read hn hz').tick _ _

/-- The session of a kettle that has been put on. -/
def putOn : SessionState := .start (some ⟨"boil"⟩) (.logical 7)

/-- The kettle is put on again at a time of 7, and at the first tick its clock is at the end of time. -/
theorem clock_neverBehind_kettle :
    let script := { HostScript.kitchen 4 with tickMs := 0xFFFFFFFFFFFFFFFF }
    let x := kettle.begin Replay.host (some putOn) ((Replay.start script).startingAt 7)
    ∃ s s' z z', kettle.Considers Replay.host x s z ∧
      kettle.Considers Replay.host (kettle.after Replay.host 1 x) s' z' ∧
      z.host.now = .logical 7 ∧ z'.host.now = .logical 0xFFFFFFFFFFFFFFFF ∧
      z'.host.now.millisSince z'.session.enteredAt = some 0xFFFFFFFFFFFFFFF8 := by
  intro script x
  have hs : ∀ s ∈ some putOn, ∃ entered, s.enteredAt = .logical entered := by
    rintro _ ⟨⟩
    exact ⟨7,rfl⟩
  obtain ⟨-,hconsidered,hread,-⟩ := clock_neverBehind kettle script hs
  obtain ⟨s,hfirst⟩ := considers_quiet (m := kettle) (h := Replay.host) (x := x) (by decide +kernel)
    (by decide +kernel) (by decide +kernel)
  obtain ⟨s',hlater⟩ := considers_quiet (m := kettle) (h := Replay.host)
    (x := kettle.after Replay.host 1 x) (by decide +kernel) (by decide +kernel) (by decide +kernel)
  obtain ⟨now,entered,hnow,hentered,-,hpassed⟩ := hconsidered 1 s' _ hlater
  have hend := (hread 1 _ (.considers hlater)).trans
    (show _ = Timestamp.logical 0xFFFFFFFFFFFFFFFF by decide +kernel)
  refine ⟨s,s',_,_,hfirst,hlater,?_,hend,?_⟩
  · exact (hread 0 _ (.considers hfirst)).trans (by decide +kernel)
  · obtain rfl := Timestamp.logical.inj (hnow.symm.trans hend)
    obtain rfl : entered = 7 := Timestamp.logical.inj (hentered.symm.trans (by decide +kernel))
    exact hpassed.trans (by decide +kernel)

end Machine

end BehaviorMachine
