import BehaviorMachine.Proofs.Host.Replay
import BehaviorMachine.Proofs.Run.Protocol
import BehaviorMachine.Run.Simulation

/-!
# Clocks of resumed simulations

A session tells when its state was entered, not when its run was suspended. The clock of the next
simulation therefore starts where the last change of state was, goes on from there, and shows again
whatever time had passed since (`resumed_clock`).
-/
namespace BehaviorMachine

namespace Replay

def timeAt (startMs tickMs ticks : UInt64) : UInt64 :=
  addSaturating startMs (mulSaturating ticks tickMs)

theorem le_timeAt (startMs tickMs ticks : UInt64) : startMs ≤ timeAt startMs tickMs ticks :=
  le_addSaturating startMs _

theorem timeAt_zero (startMs tickMs : UInt64) : timeAt startMs tickMs 0 = startMs := by
  have hs := startMs.toNat_lt_size
  apply UInt64.toNat_inj.mp
  simp only [timeAt,addSaturating,mulSaturating,toNat_word64,UInt64.toNat_zero,Nat.zero_mul]
  omega

theorem timeAt_mono {ticks ticks' : UInt64} (h : ticks ≤ ticks') (startMs tickMs : UInt64) :
    timeAt startMs tickMs ticks ≤ timeAt startMs tickMs ticks' := by
  have hmul := Nat.mul_le_mul_right tickMs.toNat (UInt64.le_iff_toNat_le.mp h)
  simp only [timeAt,UInt64.le_iff_toNat_le,addSaturating,mulSaturating,toNat_word64]
  omega

/-- A host that has gone on from another one: its clock has the same scale and is not behind. -/
structure Follows (r r' : Replay) : Prop where
  startMs : r'.startMs = r.startMs
  tickMs : r'.tickMs = r.tickMs
  tick : r.tick ≤ r'.tick

variable {r r' r'' : Replay}

theorem Follows.refl (r : Replay) : Follows r r := ⟨rfl,rfl,UInt64.le_refl _⟩

theorem Follows.trans (h : Follows r r') (h' : Follows r' r'') : Follows r r'' where
  startMs := h'.startMs.trans h.startMs
  tickMs := h'.tickMs.trans h.tickMs
  tick := UInt64.le_trans h.tick h'.tick

theorem follows_poll (r : Replay) : Follows r r.poll.2 := by
  rw [poll_frame]
  exact ⟨rfl,rfl,UInt64.le_refl _⟩

theorem follows_resolve {name : BehaviorName} {token : Option ResumeToken} {b : Option ScriptedBehavior}
    (hr : r.resolve name token = (b,r')) : Follows r r' := by
  rw [resolve] at hr
  split at hr
  · cases hr
    exact .refl r
  · cases hr
    exact ⟨rfl,rfl,UInt64.le_refl _⟩

theorem follows_step {context : StepContext} {b b' : ScriptedBehavior} {s : StateSpec}
    {values values' : PortValues} {result : StepResult}
    (hs : (Replay.step context b r).run s values = ((result,b',r'),values')) : Follows r r' := by
  have hr := run_step context b r s values
  rw [hs] at hr
  cases hr
  exact ⟨rfl,rfl,UInt64.le_refl _⟩

theorem follows_wait (ticks : UInt32) (r : Replay) : Follows r (r.wait ticks).2 := by
  rcases hw : r.wait ticks with ⟨_|_,r'⟩
  · rw [wait_denied hw]
    exact .refl r
  · have hframe := wait_frame ticks r
    rw [hw] at hframe
    obtain ⟨htick,-,-⟩ := wait_granted hw
    have hr := r.tick.toNat_lt_size
    refine ⟨by rw [hframe],by rw [hframe],?_⟩
    rw [UInt64.le_iff_toNat_le,htick]
    omega

def goingOn (r : Replay) : Protocol Replay.host where
  quiet := Follows r
  fresh _ := Follows r
  live _ := Follows r
  refuse hr hn := hr.trans (follows_resolve hn)
  resolve hr hb := hr.trans (follows_resolve hb)
  wait_quiet hr := hr.trans (follows_wait _ _)
  wait_live hr := hr.trans (follows_wait _ _)
  poll_quiet hr := hr.trans (follows_poll _)
  poll_live hr := hr.trans (follows_poll _)
  step_running hr hs := hr.elim (·.trans (follows_step hs)) (·.trans (follows_step hs))
  step_ended hr hs _ := hr.elim (·.trans (follows_step hs)) (·.trans (follows_step hs))
  pause hr := hr.trans ⟨rfl,rfl,UInt64.le_refl _⟩
  cancel hr := hr.trans ⟨rfl,rfl,UInt64.le_refl _⟩

theorem goingOn_keeps {x : Execution Replay ScriptedBehavior} :
    (goingOn r).Keeps x ↔ Follows r x.host := by
  rw [Protocol.Keeps]
  cases x.active <;> rfl

theorem now_eq (r : Replay) : r.now = .logical (timeAt r.startMs r.tickMs r.tick) := rfl

end Replay

namespace Machine

open Replay

/-- Where a run may ask for the time: when it begins, and after it has polled for interrupts. -/
inductive Asks {σ β : Type} (m : Machine) (h : Host σ β) (x : Execution σ β) : Execution σ β → Prop where
  | begins : Asks m h x x
  | polls {n : Nat} {s : StateSpec} {y : Execution σ β} (hl : m.Lasts h n x)
      (hs : m.currentState? (m.after h n x).session = some s) (hy : Ready m h (m.after h n x) y) :
      Asks m h x { y with host := (h.poll y.host).2 }

variable {m : Machine} {x y z : Execution Replay ScriptedBehavior}

theorem Asks.follows (hz : m.Asks Replay.host x z) : Follows x.host z.host := by
  cases hz with
  | begins => exact .refl x.host
  | polls hl hs hy =>
    have hx : (goingOn x.host).Keeps x := goingOn_keeps.mpr (.refl x.host)
    have hready := (goingOn x.host).keeps_ready ((goingOn x.host).after_keeps m hx _) hy
    exact (goingOn_keeps.mp hready).trans (follows_poll _)

/-- A run is in its state since its last change, which its clock has shown, or since before it. -/
structure Since (first : Timestamp) (r : Replay) (x : Execution Replay ScriptedBehavior) : Prop where
  host : Follows r x.host
  unchanged : x.changes = [] → x.session.enteredAt = first
  changed : ∀ c ∈ x.changes.head?, c.time = x.session.enteredAt ∧
    ∃ ticks ≤ x.host.tick, c.time = .logical (timeAt r.startMs r.tickMs ticks)

variable {first : Timestamp} {r : Replay}

theorem Since.stays (hx : Since first r x) (hh : Follows x.host y.host) (hc : y.changes = x.changes)
    (hp : y.session.enteredAt = x.session.enteredAt) : Since first r y where
  host := hx.host.trans hh
  unchanged := by
    rw [hc,hp]
    exact hx.unchanged
  changed := by
    rw [hc,hp]
    intro c hm
    obtain ⟨ht,ticks,hle,hticks⟩ := hx.changed c hm
    exact ⟨ht,ticks,UInt64.le_trans hle hh.tick,hticks⟩

theorem Since.enters (hz : Follows r z.host) (source target : StateId) (cause : ChangeCause) :
    Since first r (z.enter Replay.host source target cause z.host.now) := by
  have hcancel := goingOn_keeps.mp ((goingOn z.host).keeps_enter source target cause z.host.now
    (goingOn_keeps.mpr (.refl z.host)))
  refine ⟨hz.trans hcancel,?_,?_⟩
  · rw [enter_changes]
    exact fun hn => nomatch hn
  · rw [enter_changes,enter_session]
    intro c hc
    cases hc
    refine ⟨rfl,z.host.tick,hcancel.tick,?_⟩
    rw [now_eq,hz.startMs,hz.tickMs]

theorem Iteration.since {flow : Flow} (hi : Iteration m Replay.host x flow y) (hx : Since first r x) :
    Since first r y := by
  have hkeeps := (goingOn x.host).keeps_iteration (goingOn_keeps.mpr (.refl x.host)) hi
  have hfollows := goingOn_keeps.mp hkeeps
  have hready {y} (hy : Ready m Replay.host x y) : Follows x.host y.host :=
    goingOn_keeps.mp ((goingOn x.host).keeps_ready (goingOn_keeps.mpr (.refl x.host)) hy)
  cases hi with
  | idle hs => exact hx.stays hfollows rfl rfl
  | terminated hs hr => exact hx.stays hfollows rfl rfl
  | yieldDenied hs hb hw => exact hx.stays hfollows (by rw [pause_frame]) (by rw [pause_frame])
  | @redirected s y i target host hs hy hp hr =>
    have hpoll : Follows y.host host := by
      have hf := follows_poll y.host
      rwa [show y.host.poll = (some i,host) from hp] at hf
    exact Since.enters (z := { y with host }) (hx.host.trans ((hready hy).trans hpoll)) _ _ _
  | interrupted hs hy hp hr =>
    exact hx.stays hfollows (by rw [pause_frame,hy.frame]) (by rw [pause_frame,hy.frame])
  | @fired s y z t hs hy hz ht =>
    have hu := (goingOn x.host).keeps_undisturbed
      ((goingOn x.host).keeps_ready (goingOn_keeps.mpr (.refl x.host)) hy) hz
    exact Since.enters (hx.host.trans (goingOn_keeps.mp hu)) _ _ _
  | denied hs hy hz ht hd hw =>
    exact hx.stays hfollows (by rw [pause_frame,hd.frame,hz.frame,hy.frame])
      (by rw [pause_frame,hd.frame,hz.frame,hy.frame])
  | continued hs hy hz ht hd hw =>
    exact hx.stays hfollows (by rw [hd.frame,hz.frame,hy.frame]) (by rw [hd.frame,hz.frame,hy.frame])

theorem after_since (hx : Since first r x) (n : Nat) : Since first r (m.after Replay.host n x) :=
  after_induction hx (fun y hy => (step_iteration m Replay.host y).since hy) n

theorem begin_since (m : Machine) (session : Option SessionState) (r : Replay) :
    Since (m.begin Replay.host session r).session.enteredAt r (m.begin Replay.host session r) where
  host := .refl r
  unchanged _ := rfl
  changed _ hc := nomatch hc

theorem Asks.enteredAt (hz : m.Asks Replay.host x z) (hx : x.changes = []) (hc : z.changes = []) :
    z.session.enteredAt = x.session.enteredAt := by
  cases hz with
  | begins => rfl
  | @polls n s y hl hs hy =>
    have hsince : Since x.session.enteredAt x.host (m.after Replay.host n x) :=
      after_since ⟨.refl x.host,fun _ => rfl,by simp [hx]⟩ n
    have hy' : y.changes = [] := hc
    rw [hy.frame] at hy' ⊢
    exact hsince.unchanged hy'

end Machine

theorem le_simulationStart (script : HostScript) (session : Option SessionState) :
    script.startMs ≤ simulationStart script session := by
  rw [simulationStart]
  split
  · split
    · exact UInt64.le_refl _
    · next hn => exact UInt64.not_lt.mp hn
  · exact UInt64.le_refl _

theorem simulationStart_logical {script : HostScript} {session : SessionState} {entered : UInt64}
    (he : session.enteredAt = .logical entered) :
    entered ≤ simulationStart script (some session) ∧
      (script.startMs ≤ entered → simulationStart script (some session) = entered) := by
  simp only [simulationStart,Option.bind_some,he,Timestamp.logical?]
  split
  · next hlt => exact ⟨UInt64.le_of_lt hlt,fun hle => absurd hlt (UInt64.not_lt.mpr hle)⟩
  · exact ⟨UInt64.le_refl _,fun _ => rfl⟩

namespace Machine

open Replay

/-- A simulation that changes no state leaves the start of its clock, and one that does leaves the time
of its last change. -/
theorem restart_eq {m : Machine} {script : HostScript} {session : Option SessionState}
    {report : SimulationReport} (hr : m.simulate script session = some report) :
    (report.outcome.history = [] →
      simulationStart script (some report.outcome.session) = simulationStart script session) ∧
    (∀ c ∈ report.outcome.history.getLast?, ∃ ticks ≤ report.ticksElapsed,
      simulationStart script (some report.outcome.session) =
          timeAt (simulationStart script session) script.tickMs ticks ∧
        c.time = .logical (simulationStart script (some report.outcome.session))) := by
  obtain ⟨⟨outcome,host⟩,hrun,rfl⟩ := Option.map_eq_some_iff.mp hr
  obtain ⟨n,status,-,-,hf⟩ := loop_eq_some_iff.mp hrun
  have hsince := after_since (m := m)
    (begin_since m session ((Replay.start script).startingAt (simulationStart script session))) (n + 1)
  generalize m.after Replay.host (n + 1) _ = x at hf hsince
  have hsession : x.session = outcome.session := congrArg RunOutcome.session (congrArg Prod.fst hf)
  have hhistory : x.changes.reverse = outcome.history :=
    congrArg RunOutcome.history (congrArg Prod.fst hf)
  have htick : x.host.tick ≤ host.tick := by
    have hcancel := (goingOn x.host).quiet_cancel (goingOn_keeps.mpr (.refl x.host))
    have hhost : (x.cancel Replay.host).host = host := congrArg Prod.snd hf
    rw [← hhost]
    exact hcancel.tick
  rw [← hsession,← hhistory]
  constructor
  · intro hnone
    have hentered := hsince.unchanged (List.reverse_eq_nil_iff.mp hnone)
    cases session with
    | none =>
      have hfresh : x.session.enteredAt = .logical script.startMs := by
        rw [hentered]
        exact congrArg Timestamp.logical (timeAt_zero script.startMs script.tickMs)
      exact (simulationStart_logical hfresh).2 (UInt64.le_refl _)
    | some s =>
      rw [simulationStart,simulationStart,Option.bind_some,Option.bind_some,hentered]
      rfl
  · intro c hc
    rw [List.getLast?_reverse] at hc
    obtain ⟨hentered,ticks,hle,htime⟩ := hsince.changed c hc
    have hstart : script.startMs ≤ timeAt (simulationStart script session) script.tickMs ticks :=
      UInt64.le_trans (le_simulationStart script session) (le_timeAt _ _ _)
    have hrestart := (simulationStart_logical (hentered.symm.trans htime)).2 hstart
    exact ⟨ticks,UInt64.le_trans hle htick,hrestart,by rw [hrestart]; exact htime⟩

/-- The clock of the simulation that takes up a session starts at the last change of state of the one
that left it, or where that one had started, and does not go back from there. Timers see the time from
then on. Whether it ever shows a time before the end of the earlier simulation depends on whether any
time had passed since. -/
theorem resumed_clock (m m' : Machine) (script : HostScript) (session : Option SessionState)
    {report : SimulationReport} (hr : m.simulate script session = some report) :
    let start := simulationStart script session
    let stop := timeAt start script.tickMs report.ticksElapsed
    let restart := simulationStart script (some report.outcome.session)
    let x := m'.begin Replay.host (some report.outcome.session)
      ((Replay.start script).startingAt restart)
    (report.outcome.history = [] → restart = start) ∧
    (∀ c ∈ report.outcome.history.getLast?, c.time = .logical restart) ∧
    start ≤ restart ∧ restart ≤ stop ∧ x.host.now = .logical restart ∧
    (∀ z, m'.Asks Replay.host x z → ∃ now, z.host.now = .logical now ∧ restart ≤ now ∧
      (z.changes = [] → ∀ entered, report.outcome.session.enteredAt = .logical entered →
        z.host.now.millisSince z.session.enteredAt = some (now - entered) ∧
          restart - entered ≤ now - entered)) ∧
    ((∀ z, m'.Asks Replay.host x z → ∃ now, z.host.now = .logical now ∧ stop ≤ now) ↔
      restart = stop) := by
  intro start stop restart x
  obtain ⟨hsame,hlast⟩ := restart_eq hr
  have hbounds : start ≤ restart ∧ restart ≤ stop := by
    cases hh : report.outcome.history.getLast? with
    | none =>
      have hrestart : restart = start := hsame (List.getLast?_eq_none_iff.mp hh)
      rw [hrestart]
      exact ⟨UInt64.le_refl _,le_timeAt _ _ _⟩
    | some c =>
      obtain ⟨ticks,hle,hrestart,-⟩ := hlast c hh
      have hrestart : restart = timeAt start script.tickMs ticks := hrestart
      rw [hrestart]
      exact ⟨le_timeAt _ _ _,timeAt_mono hle _ _⟩
  have hbegin : x.host.now = .logical restart :=
    congrArg Timestamp.logical (timeAt_zero restart script.tickMs)
  have hnow {z : Execution Replay ScriptedBehavior} (hz : m'.Asks Replay.host x z) :
      ∃ now, z.host.now = .logical now ∧ restart ≤ now := by
    refine ⟨_,now_eq z.host,?_⟩
    rw [hz.follows.startMs]
    exact le_timeAt _ _ _
  refine ⟨hsame,?_,hbounds.1,hbounds.2,hbegin,?_,?_⟩
  · intro c hc
    obtain ⟨-,-,-,htime⟩ := hlast c hc
    exact htime
  · intro z hz
    obtain ⟨now,hz',hle⟩ := hnow hz
    refine ⟨now,hz',hle,?_⟩
    intro hc entered he
    have hentered : z.session.enteredAt = .logical entered := (hz.enteredAt rfl hc).trans he
    have hrestart : entered ≤ restart := (simulationStart_logical he).1
    have hgone : entered ≤ now := UInt64.le_trans hrestart hle
    refine ⟨?_,?_⟩
    · rw [hz',hentered]
      exact if_pos hgone
    · rw [UInt64.le_iff_toNat_le,UInt64.toNat_sub_of_le _ _ hrestart,UInt64.toNat_sub_of_le _ _ hgone]
      exact Nat.sub_le_sub_right (UInt64.le_iff_toNat_le.mp hle) _
  · constructor
    · intro hall
      obtain ⟨now,hn,hle⟩ := hall x .begins
      rw [hbegin] at hn
      cases hn
      exact UInt64.le_antisymm hbounds.2 hle
    · intro he z hz
      rw [← he]
      exact hnow hz

/-- A kettle, which is taken off once it has boiled for a quarter of a second. -/
def kettle : Machine where
  profile := ⟨⟨"kettle"⟩,"kettle",none,some ⟨"boil"⟩,
    [⟨⟨"boil"⟩,"boil",⟨"boil"⟩,∅,[],[],[]⟩,⟨⟨"pour"⟩,"pour",⟨"pour"⟩,∅,[],[],[]⟩],
    [⟨⟨"whistle"⟩,⟨"boil"⟩,⟨"pour"⟩,.timer 250,0,none⟩],[]⟩
  budgets := .default

end Machine

/-- Some tenths of a second in the kitchen. -/
def HostScript.kitchen (maxTicks : UInt64) : HostScript :=
  { empty with
    maxTicks
    behaviors := NameMap.insert (NameMap.insert ∅ "boil" ⟨none,none,[],[]⟩) "pour" ⟨none,none,[],[]⟩ }

namespace Machine

open Replay HostScript

theorem simulate_of_lasts (m : Machine) (script : HostScript) (session : Option SessionState) (n : Nat)
    (status : RunStatus) :
    let x := m.begin Replay.host session
      ((start script).startingAt (simulationStart script session))
    let y := (m.after Replay.host (n + 1) x).finish Replay.host status
    m.Lasts Replay.host n x → (m.step Replay.host (m.after Replay.host n x)).1 = .exit status →
      m.simulate script session = some ⟨y.1,y.2.tick,y.2.events⟩ := by
  intro x y hl he
  exact congrArg (Option.map _) (run_of_lasts m Replay.host session _ n status hl he)

theorem resumed_clock_kettle : ∃ report, kettle.simulate (kitchen 4) none = some report ∧
    report.outcome.history.map StateChange.time = [.logical 300] ∧
    timeAt (simulationStart (kitchen 4) none) (kitchen 4).tickMs report.ticksElapsed = 400 ∧
    let x := kettle.begin Replay.host (some report.outcome.session)
      ((start (kitchen 4)).startingAt (simulationStart (kitchen 4) (some report.outcome.session)))
    x.host.now = .logical 300 ∧
      ∀ z, kettle.Asks Replay.host x z → ∃ now, z.host.now = .logical now ∧ 300 ≤ now := by
  have hr := simulate_of_lasts kettle (kitchen 4) none 5 (.suspended .hostDenied) (by decide +kernel)
    (by decide +kernel)
  obtain ⟨-,-,-,-,hbegin,hall,-⟩ := resumed_clock kettle kettle (kitchen 4) none hr
  generalize he : SimulationReport.mk _ _ _ = report at hr hbegin hall
  have hhistory : report.outcome.history.map StateChange.time = [.logical 300] := by
    rw [← he]
    decide +kernel
  have helapsed : timeAt (simulationStart (kitchen 4) none) (kitchen 4).tickMs report.ticksElapsed =
      400 := by
    rw [← he]
    decide +kernel
  have hrestart : simulationStart (kitchen 4) (some report.outcome.session) = 300 := by
    rw [← he]
    decide +kernel
  refine ⟨report,hr,hhistory,helapsed,hbegin.trans (congrArg _ hrestart),?_⟩
  intro z hz
  obtain ⟨now,hn,hle,-⟩ := hall z hz
  rw [hrestart] at hle
  exact ⟨now,hn,hle⟩

/-- The kettle is looked at for a fifth of a second, twice. The second time its clock starts over, so
it is not taken off, though it has boiled for longer than a quarter of a second. -/
theorem clock_goes_back : ∃ report report', kettle.simulate (kitchen 2) none = some report ∧
    report.outcome.status = .suspended .hostDenied ∧
    timeAt (simulationStart (kitchen 2) none) (kitchen 2).tickMs report.ticksElapsed = 200 ∧
    (Timestamp.logical 200).millisSince report.outcome.session.enteredAt = some 200 ∧
    (let x := kettle.begin Replay.host (some report.outcome.session)
      ((start (kitchen 2)).startingAt (simulationStart (kitchen 2) (some report.outcome.session)))
    kettle.Asks Replay.host x x ∧ x.host.now = .logical 0 ∧
      x.host.now.millisSince x.session.enteredAt = some 0) ∧
    kettle.simulate (kitchen 2) (some report.outcome.session) = some report' ∧
    report'.outcome.history = [] ∧ report'.ticksElapsed = 2 := by
  have hr := simulate_of_lasts kettle (kitchen 2) none 2 (.suspended .hostDenied) (by decide +kernel)
    (by decide +kernel)
  have hr' := simulate_of_lasts kettle (kitchen 2) (some (kettle.after Replay.host 3
    (kettle.begin Replay.host none ((start (kitchen 2)).startingAt 0))).session) 2
    (.suspended .hostDenied) (by decide +kernel) (by decide +kernel)
  refine ⟨_,_,hr,rfl,?_,?_,⟨.begins,?_,?_⟩,hr',?_,?_⟩
  all_goals decide +kernel

end Machine

end BehaviorMachine
