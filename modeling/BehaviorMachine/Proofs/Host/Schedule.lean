import BehaviorMachine.Proofs.Host.Replay
import BehaviorMachine.Proofs.Profile.Rearrangement
import Mathlib.Data.List.TakeWhile

/-!
# The schedule of a script

A script lists worlds and interrupts by tick, in any order. However its host is asked to wait and is
polled, the world that it shows depends on the tick alone, and it delivers the interrupts one after
another in the order of their ticks, none too early and none later than asked for
(`start_keepsSchedule`).
-/
namespace BehaviorMachine

/-- A list put in the order of ticks. Elements of one tick keep their order. -/
structure ByTick {α : Type} (atTick : α → UInt64) (listed sorted : List α) : Prop where
  perm : sorted.Perm listed
  inOrder : sorted.Pairwise fun a b => atTick a ≤ atTick b
  ties : ∀ tick, sorted.filter (fun a => atTick a = tick) = listed.filter (fun a => atTick a = tick)

section

variable {α : Type} (atTick : α → UInt64)

theorem atTick_trans (a b c : α) : decide (atTick a ≤ atTick b) = true →
    decide (atTick b ≤ atTick c) = true → decide (atTick a ≤ atTick c) = true := by
  simpa using UInt64.le_trans

theorem atTick_total (a b : α) :
    (decide (atTick a ≤ atTick b) || decide (atTick b ≤ atTick a)) = true := by
  simpa using UInt64.le_total (atTick a) (atTick b)

theorem tied_atTick (a b : α) :
    tied (fun a b => decide (atTick a ≤ atTick b)) a b = decide (atTick b = atTick a) := by
  rw [tied,← Bool.decide_and,decide_eq_decide]
  constructor
  · exact fun h => UInt64.le_antisymm h.2 h.1
  · intro h
    rw [h]
    exact ⟨UInt64.le_refl _,UInt64.le_refl _⟩

theorem byTick_mergeSort (listed : List α) :
    ByTick atTick listed (listed.mergeSort fun a b => atTick a ≤ atTick b) where
  perm := List.mergeSort_perm listed _
  inOrder :=
    (List.pairwise_mergeSort (atTick_trans atTick) (atTick_total atTick) listed).imp of_decide_eq_true
  ties := by
    intro tick
    by_cases hn : ∃ a ∈ listed, atTick a = tick
    · obtain ⟨a,-,rfl⟩ := hn
      have htied := filter_mergeSort (l := listed) (atTick_trans atTick) (atTick_total atTick) a
      rwa [funext (tied_atTick atTick a)] at htied
    · have hother : ∀ a ∈ listed, ¬ decide (atTick a = tick) = true := by
        intro a ha ht
        exact hn ⟨a,ha,of_decide_eq_true ht⟩
      rw [List.filter_eq_nil_iff.mpr hother,List.filter_eq_nil_iff]
      exact fun a ha => hother a (List.mem_mergeSort.mp ha)

variable {atTick}

theorem lt_of_mem_dropWhile {tick : UInt64} {l : List α} {a : α}
    (hl : l.Pairwise fun a b => atTick a ≤ atTick b)
    (ha : a ∈ l.dropWhile fun b => atTick b ≤ tick) : tick < atTick a := by
  induction l with
  | nil => cases ha
  | cons b l ih =>
    obtain ⟨hb,hrest⟩ := List.pairwise_cons.mp hl
    by_cases hdue : atTick b ≤ tick
    · rw [List.dropWhile_cons_of_pos (by simpa using hdue)] at ha
      exact ih hrest ha
    · rw [List.dropWhile_cons_of_neg (by simpa using hdue)] at ha
      have hlt : tick < atTick b := UInt64.not_le.mp hdue
      rcases List.mem_cons.mp ha with rfl | hm
      · exact hlt
      · exact UInt64.lt_of_lt_of_le hlt (hb a hm)

end

/-- The frame that is in force at a tick: of those that are due the one with the greatest tick, and of
several with this tick the one declared last. -/
structure InForce (frames : List WorldFrame) (tick : UInt64) (f : WorldFrame) : Prop where
  due : f.atTick ≤ tick
  declared : ∃ before after, frames = before ++ f :: after ∧
    (∀ g ∈ before, g.atTick ≤ tick → g.atTick ≤ f.atTick) ∧
    ∀ g ∈ after, g.atTick ≤ tick → g.atTick < f.atTick

/-- The world of a script at a tick. -/
inductive HostScript.Shows (script : HostScript) (tick : UInt64) : Option WorldSnapshot → Prop where
  | initial (hn : ∀ f ∈ script.worldFrames, tick < f.atTick) : Shows script tick script.world
  | frame {f : WorldFrame} (hf : InForce script.worldFrames tick f) : Shows script tick (some f.world)

section

variable {frames passed rest : List WorldFrame} {tick : UInt64} {f g : WorldFrame}

theorem InForce.mem (hf : InForce frames tick f) : f ∈ frames := by
  obtain ⟨before,after,hsplit,-,-⟩ := hf.declared
  simp [hsplit]

theorem eq_of_inForce {before between after after' : List WorldFrame} (hf : f.atTick ≤ tick)
    (hg : g.atTick ≤ tick) (hafter : ∀ d ∈ after, d.atTick ≤ tick → d.atTick < f.atTick)
    (hbefore : ∀ d ∈ before ++ between, d.atTick ≤ tick → d.atTick ≤ g.atTick)
    (hsplit : f :: after = between ++ g :: after') : g = f := by
  cases between with
  | nil => exact (List.cons.inj hsplit).1.symm
  | cons d between =>
    obtain ⟨rfl,rfl⟩ := List.cons.inj hsplit
    have hlt := hafter g (by simp) hg
    exact absurd hlt (UInt64.not_lt.mpr (hbefore f (by simp) hf))

theorem InForce.unique (hf : InForce frames tick f) (hg : InForce frames tick g) : g = f := by
  obtain ⟨before,after,hsplit,hbefore,hafter⟩ := hf.declared
  obtain ⟨before',after',hsplit',hbefore',hafter'⟩ := hg.declared
  rcases List.append_eq_append_iff.mp (hsplit.symm.trans hsplit') with
    ⟨between,rfl,hrest⟩ | ⟨between,rfl,hrest⟩
  · exact eq_of_inForce hf.due hg.due hafter hbefore' hrest
  · exact (eq_of_inForce hg.due hf.due hafter' hbefore hrest).symm

theorem HostScript.Shows.unique {script : HostScript} {world world' : Option WorldSnapshot}
    (hw : script.Shows tick world) (hw' : script.Shows tick world') : world' = world := by
  cases hw with
  | initial hn =>
    cases hw' with
    | initial hn' => rfl
    | frame hf' => exact absurd hf'.due (UInt64.not_le.mpr (hn _ hf'.mem))
  | frame hf =>
    cases hw' with
    | initial hn' => exact absurd hf.due (UInt64.not_le.mpr (hn' _ hf.mem))
    | frame hf' => rw [hf.unique hf']

/-- Of frames in order, the last that is due is in force. -/
theorem ByTick.inForce (hs : ByTick WorldFrame.atTick frames (passed ++ f :: rest))
    (hf : f.atTick ≤ tick) (hr : ∀ g ∈ rest, tick < g.atTick) : InForce frames tick f := by
  have hgreatest : ∀ g ∈ frames, g.atTick ≤ tick → g.atTick ≤ f.atTick := by
    intro g hg hdue
    have hm := hs.perm.mem_iff.mpr hg
    simp only [List.mem_append,List.mem_cons] at hm
    rcases hm with hm | rfl | hm
    · exact (List.pairwise_append.mp hs.inOrder).2.2 g hm f List.mem_cons_self
    · exact UInt64.le_refl _
    · exact absurd hdue (UInt64.not_le.mpr (hr g hm))
  -- among the frames of its tick it is the last one, as they were declared
  have hnone : rest.filter (fun g => g.atTick = f.atTick) = [] := by
    rw [List.filter_eq_nil_iff]
    intro g hg ht
    have hlt := UInt64.lt_of_le_of_lt hf (hr g hg)
    exact absurd (of_decide_eq_true ht) (UInt64.ne_of_lt hlt).symm
  have hties := (hs.ties f.atTick).symm
  rw [List.filter_append,List.filter_cons_of_pos (by simp),hnone,List.filter_eq_append_iff] at hties
  obtain ⟨first,last,rfl,-,hlast⟩ := hties
  obtain ⟨between,after,rfl,-,-,hafter⟩ := List.filter_eq_cons_iff.mp hlast
  refine ⟨hf,first ++ between,after,by simp,?_,?_⟩
  · intro g hg
    apply hgreatest g
    rcases List.mem_append.mp hg with hg | hg
    · simp [hg]
    · simp [hg]
  · intro g hg hdue
    refine UInt64.lt_of_le_of_ne (hgreatest g (by simp [hg]) hdue) ?_
    intro ht
    exact List.filter_eq_nil_iff.mp hafter g hg (by simp [ht])

end

namespace Replay

inductive Request where
  | wait (ticks : UInt32)
  | poll

/-- An interrupt, and the tick at which it was delivered. -/
structure Delivery where
  tick : UInt64
  interrupt : Interrupt
  deriving DecidableEq

def serve (r : Replay) : Request → Option Delivery × Replay
  | .wait ticks => (none,(r.wait ticks).2)
  | .poll => (r.poll.1.map (⟨r.tick,·⟩),r.poll.2)

def serveAll (r : Replay) : List Request → List Delivery × Replay
  | [] => ([],r)
  | request :: rest =>
    let (delivery,r) := r.serve request
    let (deliveries,r) := r.serveAll rest
    (delivery.toList ++ deliveries,r)

/-- A scheduled interrupt is delivered, and not too early. -/
def Delivery.Fulfils (d : Delivery) (i : ScheduledInterrupt) : Prop :=
  d.interrupt = ⟨i.type⟩ ∧ i.atTick ≤ d.tick

/-- The frames up to the present tick are past, and the last of them gives the world. -/
inductive UpToDate (script : HostScript) (r : Replay) : Prop where
  | intro {passed : List WorldFrame}
      (hs : ByTick WorldFrame.atTick script.worldFrames (passed ++ r.frames))
      (hp : ∀ f ∈ passed, f.atTick ≤ r.tick) (hr : ∀ f ∈ r.frames, r.tick < f.atTick)
      (hw : r.world = (passed.getLast?.map WorldFrame.world).or script.world) : UpToDate script r

variable {script : HostScript} {r r' : Replay}

theorem UpToDate.shows (hu : UpToDate script r) : script.Shows r.tick r.world := by
  obtain @⟨passed,hs,hp,hr,hw⟩ := hu
  rw [hw]
  cases hl : passed.getLast? with
  | none =>
    rw [List.getLast?_eq_none_iff.mp hl,List.nil_append] at hs
    exact .initial fun f hf => hr f (hs.perm.mem_iff.mpr hf)
  | some f =>
    obtain ⟨init,rfl⟩ := List.getLast?_eq_some_iff.mp hl
    rw [List.append_assoc,List.singleton_append] at hs
    exact .frame (hs.inForce (hp f (by simp)) hr)

/-- When the tick has moved on, the frames that have become due are passed. -/
theorem upToDate_applyFrames (passed : List WorldFrame)
    (hs : ByTick WorldFrame.atTick script.worldFrames (passed ++ r.frames))
    (hp : ∀ f ∈ passed, f.atTick ≤ r.tick)
    (hw : r.world = (passed.getLast?.map WorldFrame.world).or script.world) :
    UpToDate script r.applyFrames := by
  refine @UpToDate.intro _ _ (passed ++ r.frames.takeWhile (·.atTick ≤ r.tick)) ?_ ?_ ?_ ?_
  · rw [applyFrames,List.append_assoc,List.takeWhile_append_dropWhile]
    exact hs
  · intro f hf
    rcases List.mem_append.mp hf with hf | hf
    · exact hp f hf
    · have hdue := List.mem_takeWhile_imp hf
      exact of_decide_eq_true hdue
  · intro f hf
    exact lt_of_mem_dropWhile (List.pairwise_append.mp hs.inOrder).2.1 hf
  · rw [applyFrames,List.getLast?_append,hw]
    cases (r.frames.takeWhile (·.atTick ≤ r.tick)).getLast? with
    | none => rfl
    | some f => rfl

/-- Where a host is in its schedule, after it has delivered the first interrupts of a queue. -/
structure OnSchedule (script : HostScript) (queue : List ScheduledInterrupt)
    (deliveries : List Delivery) (r : Replay) : Prop where
  maxTicks : r.maxTicks = script.maxTicks
  inBudget : r.tick ≤ r.maxTicks
  upToDate : UpToDate script r
  delivered : ∃ given, queue = given ++ r.interrupts ∧ List.Forall₂ Delivery.Fulfils deliveries given

variable {queue : List ScheduledInterrupt} {deliveries : List Delivery}

theorem OnSchedule.wait (hr : OnSchedule script queue deliveries r) (ticks : UInt32) :
    OnSchedule script queue deliveries (r.wait ticks).2 := by
  rw [Replay.wait]
  split
  · exact hr
  · next hn =>
    obtain @⟨passed,hs,hp,-,hw⟩ := hr.upToDate
    refine ⟨hr.maxTicks,UInt64.not_lt.mp hn,upToDate_applyFrames passed hs ?_ hw,hr.delivered⟩
    intro f hf
    exact UInt64.le_trans (hp f hf) (le_addSaturating _ _)

theorem OnSchedule.poll (hr : OnSchedule script queue deliveries r) :
    OnSchedule script queue (deliveries ++ (r.poll.1.map (⟨r.tick,·⟩)).toList) r.poll.2 := by
  rw [Replay.poll]
  split
  · simpa using hr
  · next i rest hi =>
    split
    · next hdue =>
      obtain ⟨given,hqueue,hgiven⟩ := hr.delivered
      obtain @⟨passed,hs,hp,hrest,hw⟩ := hr.upToDate
      refine ⟨hr.maxTicks,hr.inBudget,⟨hs,hp,hrest,hw⟩,given ++ [i],?_,?_⟩
      · rw [hqueue,hi,List.append_assoc,List.singleton_append]
      · exact List.rel_append hgiven (.cons ⟨rfl,hdue⟩ .nil)
    · simpa using hr

theorem OnSchedule.serveAll (hr : OnSchedule script queue deliveries r) (requests : List Request) :
    OnSchedule script queue (deliveries ++ (r.serveAll requests).1) (r.serveAll requests).2 := by
  induction requests generalizing r deliveries with
  | nil => simpa [Replay.serveAll] using hr
  | cons request rest ih =>
    cases request with
    | wait ticks => exact ih (hr.wait ticks)
    | poll =>
      have hrest := ih hr.poll
      rw [List.append_assoc] at hrest
      exact hrest

theorem start_onSchedule (script : HostScript) : OnSchedule script
    (script.interrupts.mergeSort fun a b => a.atTick ≤ b.atTick) [] (start script) where
  maxTicks := rfl
  inBudget := UInt64.zero_le
  upToDate := upToDate_applyFrames [] (byTick_mergeSort _ _) nofun rfl
  delivered := ⟨[],rfl,.nil⟩

/-- However a host is asked to wait and is polled, it follows its script. It grants the waits that end
within its ticks and lets the others have no effect; it shows the world of the script at its tick,
however this has been reached; and it delivers the interrupts in order, each once and when it is due,
and answers that there is none only while none of the others is. -/
theorem start_keepsSchedule (script : HostScript) :
    ∃ queue, ByTick ScheduledInterrupt.atTick script.interrupts queue ∧
      ∀ requests, let served := (start script).serveAll requests
        let r := served.2
        r.tick ≤ script.maxTicks ∧
        (∀ ticks, let next := addSaturating r.tick ticks.toUInt64
          (next ≤ script.maxTicks → (r.wait ticks).1 = true ∧ (r.wait ticks).2.tick = next) ∧
          (script.maxTicks < next → r.wait ticks = (false,r))) ∧
        script.Shows r.tick r.world ∧
        (∀ requests', ((start script).serveAll requests').2.tick = r.tick →
          ((start script).serveAll requests').2.world = r.world) ∧
        ∃ given rest, queue = given ++ rest ∧ List.Forall₂ Delivery.Fulfils served.1 given ∧
          (r.poll.1 = none ↔ ∀ i ∈ rest, r.tick < i.atTick) := by
  have hqueue := byTick_mergeSort ScheduledInterrupt.atTick script.interrupts
  refine ⟨_,hqueue,?_⟩
  intro requests served r
  have hr : OnSchedule script _ served.1 r := (start_onSchedule script).serveAll requests
  refine ⟨hr.maxTicks ▸ hr.inBudget,?_,hr.upToDate.shows,?_,?_⟩
  · intro ticks next
    rw [Replay.wait,hr.maxTicks]
    constructor
    · intro hle
      rw [if_neg (UInt64.not_lt.mpr hle)]
      exact ⟨rfl,rfl⟩
    · exact fun hlt => if_pos hlt
  · intro requests' htick
    have hr' := ((start_onSchedule script).serveAll requests').upToDate.shows
    rw [htick] at hr'
    exact hr.upToDate.shows.unique hr'
  · obtain ⟨given,hsplit,hgiven⟩ := hr.delivered
    refine ⟨given,r.interrupts,hsplit,hgiven,?_⟩
    rw [hsplit] at hqueue
    exact poll_eq_none_iff (List.pairwise_append.mp hqueue.inOrder).2.1

end Replay

/-- The world of someone who carries some things. -/
def WorldSnapshot.laden (slots : UInt32) : WorldSnapshot := { empty with occupiedSlots := slots }

/-- A journey of three ticks, told out of order. -/
def HostScript.journey : HostScript :=
  { empty with
    maxTicks := 3
    worldFrames := [⟨3,.laden 10⟩,⟨1,.laden 20⟩,⟨3,.laden 30⟩,⟨5,.laden 0⟩]
    interrupts := [⟨2,.combat⟩,⟨0,.playerNearby⟩,⟨2,.lowHealth⟩] }

namespace Replay

open HostScript

theorem start_journey : start journey =
    { tickMs := 100
      maxTicks := 3
      startMs := 0
      tick := 0
      world := some .empty
      frames := [⟨1,.laden 20⟩,⟨3,.laden 10⟩,⟨3,.laden 30⟩,⟨5,.laden 0⟩]
      interrupts := [⟨0,.playerNearby⟩,⟨2,.combat⟩,⟨2,.lowHealth⟩]
      behaviors := ∅
      recorded := [] } := by
  have hframes : journey.worldFrames.mergeSort (fun a b => a.atTick ≤ b.atTick) =
      [⟨1,.laden 20⟩,⟨3,.laden 10⟩,⟨3,.laden 30⟩,⟨5,.laden 0⟩] := by
    simp [journey,List.mergeSort]
  have hinterrupts : journey.interrupts.mergeSort (fun a b => a.atTick ≤ b.atTick) =
      [⟨0,.playerNearby⟩,⟨2,.combat⟩,⟨2,.lowHealth⟩] := by
    simp [journey,List.mergeSort]
  rw [start,hframes,hinterrupts]
  rfl

/-- On the way a wait of five ticks is denied. -/
theorem start_keepsSchedule_journey :
    let requests := [Request.poll,.wait 2,.poll,.wait 5,.poll,.wait 1]
    let r := ((start journey).serveAll requests).2
    ((start journey).serveAll requests).1 =
        [⟨0,⟨.playerNearby⟩⟩,⟨2,⟨.combat⟩⟩,⟨2,⟨.lowHealth⟩⟩] ∧
      r.tick = 3 ∧ journey.Shows 3 (some (.laden 30)) ∧
      ((start journey).serveAll [.wait 3]).2.world = some (.laden 30) ∧
      r.poll.1 = none ∧ r.wait 1 = (false,r) := by
  intro requests r
  obtain ⟨queue,-,hall⟩ := start_keepsSchedule journey
  obtain ⟨-,hwait,hshows,hsame,-⟩ := hall requests
  have hserved : ((start journey).serveAll requests).1 =
        [⟨0,⟨.playerNearby⟩⟩,⟨2,⟨.combat⟩⟩,⟨2,⟨.lowHealth⟩⟩] ∧
      r.tick = 3 ∧ r.world = some (.laden 30) ∧ r.poll.1 = none ∧
      ((start journey).serveAll [.wait 3]).2.tick = 3 := by
    simp only [r,start_journey]
    decide +kernel
  obtain ⟨hdelivered,htick,hworld,hpoll,htick'⟩ := hserved
  refine ⟨hdelivered,htick,?_,?_,hpoll,?_⟩
  · rw [← htick,← hworld]
    exact hshows
  · exact (hsame [.wait 3] (htick'.trans htick.symm)).trans hworld
  · refine (hwait 1).2 ?_
    rw [show ((start journey).serveAll requests).2.tick = 3 from htick]
    decide +kernel

end Replay

end BehaviorMachine
