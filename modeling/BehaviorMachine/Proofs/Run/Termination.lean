import BehaviorMachine.Proofs.Host.Replay
import BehaviorMachine.Proofs.Run.Protocol
import BehaviorMachine.Proofs.Settings.Bounds
import BehaviorMachine.Run.Simulation

/-!
# Scripted simulations end

Cycles of transitions and of interrupts consume no ticks. They consume the budget of state changes,
which only a granted wait renews, and a script grants a limited number of ticks. What has been spent
of both together rises with every iteration that goes on.
-/
namespace BehaviorMachine

variable {σ β : Type}

namespace Machine

theorem loop_ends {m : Machine} {h : Host σ β} {P : Execution σ β → Prop}
    {measure : Execution σ β → Nat} {limit : Nat} (hbound : ∀ x, P x → measure x ≤ limit)
    (hagain : ∀ x y, P x → Iteration m h x .again y → P y ∧ measure x < measure y)
    {x : Execution σ β} (hx : P x) : ∃ r, m.loop h x = some r := by
  induction hn : limit - measure x using Nat.strongRecOn generalizing x with
  | ind n ih =>
    cases hs : (m.step h x).1 with
    | exit status => exact ⟨_,loop_exit hs⟩
    | again =>
      obtain ⟨hy,hlt⟩ := hagain x _ hx (iteration_of_flow hs)
      have hle := hbound _ hy
      rw [loop_again hs]
      exact ih _ (by omega) hy rfl

end Machine

namespace Replay

def InTime (maxTicks : UInt64) (r : Replay) : Prop := r.maxTicks = maxTicks ∧ r.tick ≤ maxTicks

variable {maxTicks : UInt64} {r r' : Replay}

theorem InTime.still (hr : InTime maxTicks r) (hs : Still r r') : InTime maxTicks r' := by
  rw [InTime,hs.1,hs.2]
  exact hr

theorem InTime.wait (hr : InTime maxTicks r) (ticks : UInt32) :
    InTime maxTicks (r.wait ticks).2 := by
  rcases hw : r.wait ticks with ⟨_|_,r'⟩
  · rw [Replay.wait_denied hw]
    exact hr
  · obtain ⟨-,hmax,htick⟩ := Replay.wait_granted hw
    exact ⟨hmax.trans hr.1,by rw [← hr.1,← hmax]; exact htick⟩

/-- A scripted host never exceeds its ticks. -/
def timekeeping (maxTicks : UInt64) : Protocol Replay.host where
  quiet := InTime maxTicks
  fresh _ := InTime maxTicks
  live _ := InTime maxTicks
  refuse hr hn := hr.still (resolve_still hn)
  resolve hr hb := hr.still (resolve_still hb)
  wait_quiet hr := hr.wait _
  wait_live hr := hr.wait _
  poll_quiet hr := hr.still (poll_still rfl)
  poll_live hr := hr.still (poll_still rfl)
  step_running hr hs := hr.elim (·.still (step_still hs)) (·.still (step_still hs))
  step_ended hr hs _ := hr.elim (·.still (step_still hs)) (·.still (step_still hs))
  pause hr := hr.still ⟨rfl,rfl⟩
  cancel hr := hr.still ⟨rfl,rfl⟩

theorem timekeeping_keeps {x : Execution Replay ScriptedBehavior} :
    (timekeeping maxTicks).Keeps x ↔ InTime maxTicks x.host := by
  rw [Protocol.Keeps]
  cases x.active <;> rfl

end Replay

namespace Machine

open Replay

variable {m : Machine} {maxTicks : UInt64} {x y z : Execution Replay ScriptedBehavior}

/-- The budgets of state changes that the granted ticks have renewed, and what has been taken from
the present one. -/
def spent (m : Machine) (x : Execution Replay ScriptedBehavior) : Nat :=
  x.host.tick.toNat * m.budgets.maxTransitionsPerTick.toNat + x.changesSinceWait.toNat

/-- The state changes are covered by what has been spent. -/
structure Covered (m : Machine) (maxTicks : UInt64) (x : Execution Replay ScriptedBehavior) :
    Prop where
  time : InTime maxTicks x.host
  since : x.changesSinceWait.toNat ≤ m.budgets.maxTransitionsPerTick.toNat
  changes : x.changes.length ≤ m.spent x

theorem Covered.spent_le (hx : Covered m maxTicks x) :
    m.spent x ≤ (maxTicks.toNat + 1) * m.budgets.maxTransitionsPerTick.toNat := by
  have htick : x.host.tick.toNat ≤ maxTicks.toNat := UInt64.le_iff_toNat_le.mp hx.time.2
  have hticks := Nat.mul_le_mul_right m.budgets.maxTransitionsPerTick.toNat htick
  have hsince := hx.since
  rw [spent,Nat.succ_mul]
  omega

theorem Covered.still (hx : Covered m maxTicks x) (hs : Still x.host y.host)
    (hc : y.changes = x.changes) (hn : y.changesSinceWait = x.changesSinceWait) :
    Covered m maxTicks y ∧ m.spent y = m.spent x := by
  have he : m.spent y = m.spent x := by rw [spent,spent,hs.1,hn]
  refine ⟨⟨hx.time.still hs,?_,?_⟩,he⟩
  · rw [hn]
    exact hx.since
  · rw [hc,he]
    exact hx.changes

theorem Covered.granted {ticks : UInt32} (hx : Covered m maxTicks x)
    (hmax : maxTicks.toNat < UInt64.size - 1) (ht : 0 < ticks.toNat)
    (hw : x.host.wait ticks = (true,y.host)) (hc : y.changes = x.changes)
    (hn : y.changesSinceWait = 0) :
    Covered m maxTicks y ∧ m.spent x + m.budgets.maxTransitionsPerTick.toNat ≤
      m.spent y + x.changesSinceWait.toNat := by
  obtain ⟨htick,hgrant,hle⟩ := Replay.wait_granted hw
  have htime : InTime maxTicks y.host := by
    refine ⟨hgrant.trans hx.time.1,?_⟩
    rw [← hx.time.1,← hgrant]
    exact hle
  have hbound : y.host.tick.toNat ≤ maxTicks.toNat := UInt64.le_iff_toNat_le.mp htime.2
  -- the clock has not come to the end of time, so that the ticks are added in full
  have hnext : x.host.tick.toNat + 1 ≤ y.host.tick.toNat := by omega
  have hmul := Nat.mul_le_mul_right m.budgets.maxTransitionsPerTick.toNat hnext
  have hzero : y.changesSinceWait.toNat = 0 := by rw [hn]; rfl
  have hsince := hx.since
  have hchanges := hx.changes
  rw [Nat.succ_mul] at hmul
  rw [spent] at hchanges
  refine ⟨⟨htime,by omega,?_⟩,?_⟩
  · rw [hc,spent]
    omega
  · rw [spent,spent]
    omega

theorem Covered.ready (hx : Covered m maxTicks x) (hmax : maxTicks.toNat < UInt64.size - 1)
    (hb : m.budgets.InBounds) (hy : Ready m Replay.host x y) : Covered m maxTicks y ∧
      y.changesSinceWait.toNat < m.budgets.maxTransitionsPerTick.toNat ∧ m.spent x ≤ m.spent y := by
  have hpos : 0 < m.budgets.maxTransitionsPerTick.toNat :=
    UInt32.lt_iff_toNat_lt.mp hb.maxTransitions.1
  cases hy with
  | within hn => exact ⟨hx,UInt32.lt_iff_toNat_lt.mp (UInt32.not_le.mp hn),Nat.le_refl _⟩
  | @yielded host hn hw =>
    obtain ⟨hy,hspent⟩ := hx.granted (y := { x with host, changesSinceWait := 0 }) hmax
      (UInt32.lt_iff_toNat_lt.mp hb.yield.1) hw rfl rfl
    have hsince := hx.since
    exact ⟨hy,hpos,by omega⟩

theorem Covered.undisturbed {s : StateSpec} (hx : Covered m maxTicks x)
    (hy : Undisturbed m Replay.host s x y) : Covered m maxTicks y ∧ m.spent y = m.spent x := by
  cases hy with
  | quiet hp => exact hx.still (poll_still hp) rfl rfl
  | ignored hp hr => exact hx.still (poll_still hp) rfl rfl

theorem Covered.enter (hx : Covered m maxTicks x)
    (hlt : x.changesSinceWait.toNat < m.budgets.maxTransitionsPerTick.toNat)
    (source target : StateId) (cause : ChangeCause) (now : Timestamp) :
    Covered m maxTicks (x.enter Replay.host source target cause now) ∧
      m.spent (x.enter Replay.host source target cause now) = m.spent x + 1 := by
  have hs : Still x.host (x.cancel Replay.host).host := by
    rw [Execution.cancel]
    cases x.active <;> exact ⟨rfl,rfl⟩
  have hword := m.budgets.maxTransitionsPerTick.toNat_lt_size
  have hnext : (addSaturating32 x.changesSinceWait 1).toNat = x.changesSinceWait.toNat + 1 := by
    rw [addSaturating32,toNat_word32,UInt32.toNat_one]
    omega
  have hspent : m.spent (x.enter Replay.host source target cause now) = m.spent x + 1 := by
    rw [enter_eq,spent,spent]
    dsimp only
    rw [hs.1,hnext,Nat.add_assoc]
  refine ⟨⟨?_,?_,?_⟩,hspent⟩
  · rw [enter_eq]
    exact hx.time.still hs
  · rw [enter_eq]
    dsimp only
    omega
  · rw [hspent,enter_changes,List.length_cons]
    exact Nat.succ_le_succ hx.changes

theorem advance_still (s : StateSpec) (params : BehaviorParams) (b : ScriptedBehavior)
    (x : Execution Replay ScriptedBehavior) :
    Still x.host (advance Replay.host s params b x).host := by
  rw [advance]
  rcases hs : (Replay.host.step ⟨s.id,params,x.session.ticksInState⟩ b x.host).run s
    x.session.portValues with ⟨⟨_|_|e,b',r⟩,values⟩
  all_goals exact step_still hs

theorem Driven.still {s : StateSpec} {ticks : UInt32} (hd : Driven m Replay.host s x ticks y) :
    Still x.host y.host := by
  cases hd with
  | completed hc => exact ⟨rfl,rfl⟩
  | unresolved hc ha hr => exact resolve_still hr
  | @resolved b host hc ha hr =>
    have hs : Still x.host host := resolve_still hr
    have ha := advance_still s (m.profile.effectiveParams s x.session.portValues) b
      { x with host, session := { x.session with resumeToken := none } }
    exact ⟨ha.1.trans hs.1,ha.2.trans hs.2⟩
  | live hc ha => exact advance_still s _ _ x

theorem Driven.ticks_pos {h : Host σ β} {x y : Execution σ β} {s : StateSpec} {ticks : UInt32}
    (hb : m.budgets.InBounds) (hd : Driven m h s x ticks y) : 0 < ticks.toNat := by
  cases hd with
  | completed hc => exact UInt32.lt_iff_toNat_lt.mp hb.idleWait.1
  | unresolved hc ha hr => exact UInt32.lt_iff_toNat_lt.mp hb.retryWait.1
  | resolved hc ha hr => exact UInt32.lt_iff_toNat_lt.mp hb.yield.1
  | live hc ha => exact UInt32.lt_iff_toNat_lt.mp hb.yield.1

/-- Every iteration that goes on spends something, and its state change is covered. -/
theorem Covered.again (hx : Covered m maxTicks x) (hmax : maxTicks.toNat < UInt64.size - 1)
    (hb : m.budgets.InBounds) (hi : Iteration m Replay.host x .again y) :
    Covered m maxTicks y ∧ m.spent x < m.spent y := by
  cases hi with
  | @redirected s y i target host hs hy hp hr =>
    obtain ⟨hcovered,hlt,hle⟩ := hx.ready hmax hb hy
    obtain ⟨hpolled,he⟩ := hcovered.still (y := { y with host }) (poll_still hp) rfl rfl
    obtain ⟨hentered,hone⟩ := hpolled.enter hlt s.id target (.interrupt i.type) (Replay.host.now host)
    exact ⟨hentered,by omega⟩
  | @fired s y z t hs hy hz ht =>
    obtain ⟨hcovered,hlt,hle⟩ := hx.ready hmax hb hy
    obtain ⟨hpolled,he⟩ := hcovered.undisturbed hz
    have hsince : z.changesSinceWait = y.changesSinceWait := by rw [hz.frame]
    obtain ⟨hentered,hone⟩ := hpolled.enter (by rw [hsince]; exact hlt) s.id t.toStateId
      (.transition t.id) (Replay.host.now z.host)
    exact ⟨hentered,by omega⟩
  | @continued s y z w ticks host hs hy hz ht hd hw =>
    obtain ⟨hcovered,hlt,hle⟩ := hx.ready hmax hb hy
    obtain ⟨hpolled,he⟩ := hcovered.undisturbed hz
    obtain ⟨hdriven,he'⟩ := hpolled.still hd.still (by rw [hd.frame]) (by rw [hd.frame])
    have hsince : w.changesSinceWait = y.changesSinceWait := by rw [hd.frame,hz.frame]
    obtain ⟨hgranted,hspent⟩ := hdriven.granted (y := { w with
      host
      changesSinceWait := 0
      session := { w.session with
        ticksInState := addSaturating w.session.ticksInState 1 } }) hmax (hd.ticks_pos hb) hw rfl rfl
    rw [hsince] at hspent
    exact ⟨hgranted,by omega⟩

theorem lasts_covered {n : Nat} (hx : Covered m maxTicks x)
    (hmax : maxTicks.toNat < UInt64.size - 1) (hb : m.budgets.InBounds)
    (hl : m.Lasts Replay.host n x) : Covered m maxTicks (m.after Replay.host n x) := by
  induction n with
  | zero => exact hx
  | succ n ih =>
    have hagain := hl n (Nat.lt_succ_self n)
    exact ((ih (lasts_mono (Nat.le_succ n) hl)).again hmax hb (iteration_of_flow hagain)).1

/-- From a state that is covered a run comes to an end, and its changes remain covered. -/
theorem Covered.loop (hx : Covered m maxTicks x) (hmax : maxTicks.toNat < UInt64.size - 1)
    (hb : m.budgets.InBounds) : ∃ o r, m.loop Replay.host x = some (o,r) ∧ r.tick ≤ maxTicks ∧
      o.history.length ≤ (maxTicks.toNat + 1) * m.budgets.maxTransitionsPerTick.toNat := by
  obtain ⟨⟨o,r⟩,hr⟩ := loop_ends (P := Covered m maxTicks) (fun _ hy => hy.spent_le)
    (fun _ _ hy hi => hy.again hmax hb hi) hx
  refine ⟨o,r,hr,?_⟩
  obtain ⟨n,status,hl,he,hf⟩ := loop_eq_some_iff.mp hr
  have hlast := lasts_covered hx hmax hb hl
  have hchanges := (iteration_of_flow he).exit_changes
  have htime := (timekeeping maxTicks).keeps_iteration (timekeeping_keeps.mpr hlast.time)
    (iteration_of_flow he)
  have hquiet := (timekeeping maxTicks).quiet_cancel htime
  cases hf
  refine ⟨hquiet.2,?_⟩
  rw [Execution.history,List.length_reverse,after,hchanges]
  exact Nat.le_trans hlast.changes hlast.spent_le

theorem covered_begin (m : Machine) (session : Option SessionState) {r : Replay}
    (hr : r.tick = 0) : Covered m r.maxTicks (m.begin Replay.host session r) := by
  have htime : InTime r.maxTicks r := ⟨rfl,by rw [hr]; exact UInt64.zero_le⟩
  exact ⟨htime,Nat.zero_le _,Nat.zero_le _⟩

/-- A run with valid settings ends on every script whose ticks are less than the greatest word. It is
granted no more ticks than the script has at any time, and it changes the state at most as often as
the budget allows for each tick and once at the beginning. So do simulations. -/
theorem run_ends (m : Machine) (settings : Settings) (script : HostScript)
    (session : Option SessionState) (hv : settings.validate = .ok ())
    (hb : m.budgets = settings.budgets) (hmax : script.maxTicks.toNat < UInt64.size - 1) :
    (∃ o r, m.run Replay.host session (.start script) = some (o,r) ∧ r.tick ≤ script.maxTicks ∧
      o.history.length ≤ (script.maxTicks.toNat + 1) * m.budgets.maxTransitionsPerTick.toNat) ∧
    (∀ n, (m.after Replay.host n (m.begin Replay.host session (.start script))).host.tick ≤
      script.maxTicks) ∧
    ∃ report, m.simulate script session = some report ∧ report.ticksElapsed ≤ script.maxTicks ∧
      report.outcome.history.length ≤
        (script.maxTicks.toNat + 1) * m.budgets.maxTransitionsPerTick.toNat := by
  have hbounds : m.budgets.InBounds := by
    rw [hb]
    exact Settings.budgets_inBounds hv
  refine ⟨?_,?_,?_⟩
  · exact (covered_begin m session rfl).loop hmax hbounds
  · intro n
    have hstart := (covered_begin m session (r := .start script) rfl).time
    have hn := (timekeeping script.maxTicks).after_keeps m (timekeeping_keeps.mpr hstart) n
    exact (timekeeping_keeps.mp hn).2
  · obtain ⟨o,r,hr,htick,hlength⟩ := (covered_begin m session (r := (Replay.start script).startingAt
      (simulationStart script session)) rfl).loop hmax hbounds
    refine ⟨⟨o,r.tick,r.events⟩,?_,htick,hlength⟩
    rw [simulate,run,hr]
    rfl

/-- Two states that change into one another at any time. -/
def pendulum : Machine where
  profile := ⟨⟨"pendulum"⟩,"pendulum",none,some ⟨"left"⟩,
    [⟨⟨"left"⟩,"left",⟨"swing"⟩,∅,[],[],[]⟩,⟨⟨"right"⟩,"right",⟨"swing"⟩,∅,[],[],[]⟩],
    [⟨⟨"there"⟩,⟨"left"⟩,⟨"right"⟩,.always,0,none⟩,⟨⟨"back"⟩,⟨"right"⟩,⟨"left"⟩,.always,0,none⟩],[]⟩
  budgets := ⟨20,5,1,4⟩

theorem run_ends_pendulum : { Settings.default with budgets := pendulum.budgets }.validate = .ok () ∧
    ∃ o r, pendulum.run Replay.host none (.start { HostScript.empty with maxTicks := 3 }) =
      some (o,r) ∧ r.tick ≤ 3 ∧ o.history.length ≤ 16 := by
  have hv : { Settings.default with budgets := pendulum.budgets }.validate = .ok () := by rfl
  exact ⟨hv,(run_ends pendulum { Settings.default with budgets := pendulum.budgets }
    { HostScript.empty with maxTicks := 3 } none hv rfl (by decide)).1⟩

example : (pendulum.after Replay.host 17 (pendulum.begin Replay.host none
    (.start { HostScript.empty with maxTicks := 3 }))).changes.length = 16 := by
  decide +kernel

end Machine

end BehaviorMachine
