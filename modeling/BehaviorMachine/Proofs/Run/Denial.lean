import BehaviorMachine.Proofs.Run.Protocol

/-!
# Denied waits and chains of runs

A host may deny waits that it could grant. The run is suspended then, and the next one takes its
session up in the state that the host would have been in. A chain consists of such runs. All that it
loses is the count of the iterations that were denied at their end, and a tally of its runs puts the
count right.
-/
namespace BehaviorMachine

variable {σ β α γ : Type}

/-- A host's state, with the number of waits that it was ready to grant. -/
structure Denying (σ : Type) where
  state : σ
  waits : Nat
  /-- The state after the last wait, if that was denied without need. -/
  granted : Option σ

/-- A host that denies some of the waits that it could grant. -/
def Host.denying (h : Host σ β) (deny : Nat → Bool) : Host (Denying σ) β where
  resolve name params token d :=
    let (b,s) := h.resolve name params token d.state
    (b,{ d with state := s })
  wait ticks d :=
    match h.wait ticks d.state with
    | (false,s) => (false,{ d with state := s })
    | (true,s) => (!deny d.waits,⟨s,d.waits+1,if deny d.waits then some s else none⟩)
  poll d :=
    let (answer,s) := h.poll d.state
    (answer,{ d with state := s })
  world d := h.world d.state
  now d := h.now d.state
  step context b d :=
    (h.step context b d.state).map fun (result,b',s) => (result,b',{ d with state := s })
  pause b d :=
    let (token,s) := h.pause b d.state
    (token,{ d with state := s })
  cancel b d := { d with state := h.cancel b d.state }

/-- A run of a chain, with the iterations lost at its end. -/
structure Leg where
  outcome : RunOutcome
  lost : Nat

namespace Machine

/-- The execution before the last iteration of a run. -/
def last (m : Machine) (h : Host σ β) (x : Execution σ β) : Option (Execution σ β) :=
  match m.step h x with
  | (.again,x) => m |>.last h x
  | (.exit _,_) => some x
partial_fixpoint

/-- The iteration ends before it has begun: the wait for a new budget of state changes is denied. -/
def yieldDenied (m : Machine) (h : Host σ β) (x : Execution σ β) : Bool :=
  decide (m.budgets.maxTransitionsPerTick ≤ x.changesSinceWait) &&
    !(h.wait m.budgets.yieldTicks x.host).1

/-- The iterations lost when a run ends in a denied wait. -/
def lost (m : Machine) (h : Host σ β) (x : Execution σ β) : Nat :=
  if (m.last h x).any (m.yieldDenied h) then 0 else 1

/-- Runs one after the other, as long as waits are denied without need. -/
def chain (m : Machine) (h : Host σ β) (deny : Nat → Bool) (session : Option SessionState)
    (d : Denying σ) : Option (List Leg × RunOutcome × Denying σ) :=
  match m.run (h.denying deny) session d with
  | none => none
  | some (o,d') =>
    match d'.granted with
    | none => some ([],o,d')
    | some s => do
      let (legs,rest) ← m |>.chain h deny (some o.session) ⟨s,d'.waits,none⟩
      return (⟨o,m.lost (h.denying deny) (m.begin (h.denying deny) session d)⟩ :: legs,rest)
partial_fixpoint

/-- A chain whose first run is in progress. -/
def onward (m : Machine) (h : Host σ β) (deny : Nat → Bool) (y : Execution (Denying σ) β) :
    Option (List Leg × RunOutcome × Denying σ) :=
  match m.loop (h.denying deny) y with
  | none => none
  | some (o,d') =>
    match d'.granted with
    | none => some ([],o,d')
    | some s => do
      let (legs,rest) ← m.chain h deny (some o.session) ⟨s,d'.waits,none⟩
      return (⟨o,m.lost (h.denying deny) y⟩ :: legs,rest)

theorem chain_onward (m : Machine) (h : Host σ β) (deny : Nat → Bool)
    (session : Option SessionState) (d : Denying σ) : m.chain h deny session d =
      m.onward h deny (m.begin (h.denying deny) session d) := by
  rw [chain,run,onward]

/-- The first run of a chain ends in a wait that is denied without need, and the second one in some
other way. -/
theorem chain_of_lasts (m : Machine) (h : Host σ β) (deny : Nat → Bool)
    (session : Option SessionState) (d : Denying σ) (n n' : Nat) (status status' : RunStatus) (s : σ) :
    let x := m.begin (h.denying deny) session d
    let r := (m.after (h.denying deny) (n+1) x).finish (h.denying deny) status
    let y := m.begin (h.denying deny) (some r.1.session) ⟨s,r.2.waits,none⟩
    let r' := (m.after (h.denying deny) (n'+1) y).finish (h.denying deny) status'
    m.Lasts (h.denying deny) n x →
      (m.step (h.denying deny) (m.after (h.denying deny) n x)).1 = .exit status →
      r.2.granted = some s → m.Lasts (h.denying deny) n' y →
      (m.step (h.denying deny) (m.after (h.denying deny) n' y)).1 = .exit status' →
      r'.2.granted = none →
      m.chain h deny session d = some ([⟨r.1,m.lost (h.denying deny) x⟩],r') := by
  intro x r y r' hl he hg hl' he' hg'
  have hr : m.run (h.denying deny) session d = some r := run_of_lasts _ _ _ _ n status hl he
  have hr' : m.run (h.denying deny) (some r.1.session) ⟨s,r.2.waits,none⟩ = some r' :=
    run_of_lasts _ _ _ _ n' status' hl' he'
  have hrest : m.chain h deny (some r.1.session) ⟨s,r.2.waits,none⟩ = some ([],r') := by
    rw [chain,hr']
    simp only [hg']
  rw [chain,hr]
  simp only [hg,hrest]
  rfl

theorem lost_again {m : Machine} {h : Host σ β} {x y : Execution σ β}
    (hs : m.step h x = (.again,y)) : m.lost h x = m.lost h y := by
  rw [lost,last,hs,lost]

theorem lost_exit {m : Machine} {h : Host σ β} {x : Execution σ β} {status : RunStatus}
    (hs : (m.step h x).1 = .exit status) :
    m.lost h x = if m.yieldDenied h x then 0 else 1 := by
  have hx : m.step h x = (.exit status,(m.step h x).2) := Prod.ext hs rfl
  rw [lost,last,hx]
  rfl

variable {m : Machine} {h : Host σ β} {deny : Nat → Bool}

/-- Some runs of a chain end on the way from one execution to another. -/
def Leads (m : Machine) (h : Host σ β) (deny : Nat → Bool) (x : Execution (Denying σ) β)
    (legs : List Leg) (y : Execution (Denying σ) β) : Prop :=
  m.onward h deny x = (m.onward h deny y).map fun r => (legs ++ r.1,r.2)

theorem Leads.refl (m : Machine) (h : Host σ β) (deny : Nat → Bool)
    (x : Execution (Denying σ) β) : m.Leads h deny x [] x := by
  simp [Leads]

theorem Leads.trans {x y z : Execution (Denying σ) β} {legs legs' : List Leg}
    (h₁ : m.Leads h deny x legs y) (h₂ : m.Leads h deny y legs' z) :
    m.Leads h deny x (legs ++ legs') z := by
  rw [Leads] at h₁ h₂ ⊢
  rw [h₁,h₂,Option.map_map]
  apply congrArg (Option.map · _)
  funext r
  simp only [Function.comp_apply,List.append_assoc]

theorem leads_again {x y : Execution (Denying σ) β}
    (hs : m.step (h.denying deny) x = (.again,y)) : m.Leads h deny x [] y := by
  rw [Leads,onward,loop_again (by rw [hs]),lost_again hs,hs,← onward]
  exact Leads.refl m h deny y

theorem onward_last {x y : Execution (Denying σ) β} {status : RunStatus}
    (hs : m.step (h.denying deny) x = (.exit status,y)) (ha : y.active = none)
    (hg : y.host.granted = none) :
    m.onward h deny x = some ([],⟨status,y.session,y.history⟩,y.host) := by
  have hx : (m.step (h.denying deny) x).1 = .exit status := by rw [hs]
  rw [onward,loop_exit hx,hs,finish_quiet _ _ ha]
  simp only [hg]

/-- The next run of a chain starts where the host would have been. -/
theorem leads_resumed {x y : Execution (Denying σ) β} {status : RunStatus} {s : σ}
    (hs : m.step (h.denying deny) x = (.exit status,y)) (ha : y.active = none)
    (hg : y.host.granted = some s) : m.Leads h deny x
      [⟨⟨status,y.session,y.history⟩,if m.yieldDenied (h.denying deny) x then 0 else 1⟩]
      (m.begin (h.denying deny) (some y.session) ⟨s,y.host.waits,none⟩) := by
  have hx : (m.step (h.denying deny) x).1 = .exit status := by rw [hs]
  rw [Leads,← chain_onward,onward,loop_exit hx,hs,finish_quiet _ _ ha,lost_exit hx]
  simp only [hg]
  cases m.chain h deny (some y.session) ⟨s,y.host.waits,none⟩ <;> rfl

end Machine

def raised (ticks : UInt64) (n : Nat) : UInt64 := word64 (ticks.toNat + n)

theorem raised_zero (ticks : UInt64) : raised ticks 0 = ticks := by
  apply UInt64.toNat_inj.mp
  have hb := ticks.toNat_lt_size
  rw [raised,toNat_word64]
  omega

theorem raised_raised (ticks : UInt64) (m n : Nat) :
    raised (raised ticks m) n = raised ticks (m+n) := by
  apply UInt64.toNat_inj.mp
  simp only [raised,toNat_word64]
  omega

theorem addSaturating_one (ticks : UInt64) : addSaturating ticks 1 = raised ticks 1 := rfl

/-- Raise the count of iterations at the first of some state changes. -/
def credit (n : Nat) : List StateChange → List StateChange
  | [] => []
  | c :: rest => { c with ticksInState := raised c.ticksInState n } :: rest

/-- What the runs of a chain amount to. -/
structure Tally where
  history : List StateChange
  /-- The iterations lost in the current state. -/
  owed : Nat

namespace Tally

def start : Tally := ⟨[],0⟩

/-- The iterations lost in the state that some changes lead to. -/
def due (t : Tally) : List StateChange → Nat
  | [] => t.owed
  | _ :: _ => 0

def add (t : Tally) (leg : Leg) : Tally where
  history := t.history ++ credit t.owed leg.outcome.history
  owed := t.due leg.outcome.history + leg.lost

def close (t : Tally) (o : RunOutcome) : RunOutcome where
  status := o.status
  session :=
    { o.session with ticksInState := raised o.session.ticksInState (t.due o.history) }
  history := t.history ++ credit t.owed o.history

theorem credit_append (t : Tally) (changes : List StateChange) (c : StateChange) :
    credit t.owed (changes ++ [c]) = credit t.owed changes ++
      [{ c with ticksInState := raised c.ticksInState (t.due changes) }] := by
  cases changes with
  | nil => rfl
  | cons c' rest => simp only [credit,due,List.cons_append,raised_zero]

theorem due_append (t : Tally) (changes : List StateChange) (c : StateChange) :
    t.due (changes ++ [c]) = 0 := by
  cases changes <;> rfl

end Tally

def StateChange.occasion (c : StateChange) : StateId × StateId × ChangeCause × Timestamp :=
  (c.source,c.target,c.cause,c.time)

def RunOutcome.occasions (o : RunOutcome) : List (StateId × StateId × ChangeCause × Timestamp) :=
  o.history.map StateChange.occasion

/-- A chain comes to the same as an uninterrupted run, but for the ticks of the states in which it was
interrupted. -/
structure Unnoticed (o : RunOutcome) (legs : List Leg) (last : RunOutcome) : Prop where
  status : o.status = last.status
  session : o.session = { last.session with ticksInState := o.session.ticksInState }
  occasions : o.occasions = legs.flatMap (fun leg => leg.outcome.occasions) ++ last.occasions
  /-- The ticks are short by the iterations that were lost in their state. -/
  tally : o = (legs.foldl Tally.add .start).close last

theorem credit_occasion (n : Nat) (changes : List StateChange) :
    (credit n changes).map StateChange.occasion = changes.map StateChange.occasion := by
  cases changes <;> rfl

theorem tally_occasion (t : Tally) (legs : List Leg) :
    (legs.foldl Tally.add t).history.map StateChange.occasion =
      t.history.map StateChange.occasion ++ legs.flatMap (fun leg => leg.outcome.occasions) := by
  induction legs generalizing t with
  | nil => exact (List.append_nil _).symm
  | cons leg rest ih =>
    rw [List.foldl_cons,ih,List.flatMap_cons,Tally.add,List.map_append,credit_occasion,
      List.append_assoc,RunOutcome.occasions]

theorem unnoticed_close {o last : RunOutcome} {legs : List Leg}
    (ho : o = (legs.foldl Tally.add .start).close last) : Unnoticed o legs last where
  status := by rw [ho,Tally.close]
  session := by rw [ho,Tally.close]
  occasions := by
    rw [ho,RunOutcome.occasions,Tally.close,List.map_append,tally_occasion,credit_occasion]
    rfl
  tally := ho

end BehaviorMachine
