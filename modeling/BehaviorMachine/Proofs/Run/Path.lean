import BehaviorMachine.Proofs.Run.Episode

/-!
# Histories are paths

The state changes of a run form a path through its profile, from where its session stands at the
beginning to where it stands at the end. Each change has its grounds in the profile: a transition
whose condition held at that time, or the first handler of an interrupt that was delivered. Over the
runs of one session the paths join.
-/
namespace BehaviorMachine

variable {σ β : Type}

/-- Changes that follow one upon the other: each leaves the state that the one before has entered,
and has its grounds given the time at which that was. -/
inductive Path (Grounds : Timestamp → StateChange → Prop) :
    Position → List StateChange → Position → Prop where
  | stay (q : Position) : Path Grounds q [] q
  | go {q r : Position} {changes : List StateChange} {c : StateChange}
      (hp : Path Grounds q changes r) (hs : r.state = some c.source) (hc : Grounds r.since c) :
      Path Grounds q (changes ++ [c]) ⟨some c.target,c.time⟩

namespace Path

variable {G G' : Timestamp → StateChange → Prop} {q r t : Position}

theorem mono {changes : List StateChange} (hp : Path G q changes r)
    (hg : ∀ since c, G since c → G' since c) : Path G' q changes r := by
  induction hp with
  | stay => exact .stay _
  | go hp hs hc ih => exact .go ih hs (hg _ _ hc)

theorem append {first last : List StateChange} (h₁ : Path G q first r) (h₂ : Path G r last t) :
    Path G q (first ++ last) t := by
  induction h₂ with
  | stay =>
    rw [List.append_nil]
    exact h₁
  | go hp hs hc ih =>
    rw [← List.append_assoc]
    exact .go ih hs hc

theorem grounds {changes : List StateChange} {c : StateChange} (hp : Path G q changes r)
    (hc : c ∈ changes) : ∃ since, G since c := by
  induction hp with
  | stay => cases hc
  | go hp hs hg ih =>
    rcases List.mem_append.mp hc with hc | hc
    · exact ih hc
    · obtain rfl := List.mem_singleton.mp hc
      exact ⟨_,hg⟩

end Path

theorem Condition.timer_holds {duration : UInt64} {world : Option WorldSnapshot}
    {session : SessionState} {now : Timestamp}
    (hc : (Condition.timer duration).holds world session now = true) :
    ∃ elapsed, now.millisSince session.enteredAt = some elapsed ∧ duration ≤ elapsed := by
  cases world with
  | none => simp [holds] at hc
  | some w => simpa [holds,Option.any_eq_true] using hc

namespace Machine

/-- One of the iterations of a run makes a change in a state that it has been in since a given time,
on grounds in its profile. -/
def Makes (m : Machine) (h : Host σ β) (start : Execution σ β) (since : Timestamp)
    (c : StateChange) : Prop :=
  ∃ n, m.Lasts h n start ∧
    let x := m.after h n start
    (m.step h x).2.changes = c :: x.changes ∧ x.session.enteredAt = since ∧ m.Warranted h x c

/-- The changes made so far lead from the first position of a run to its present one. -/
theorem after_path {m : Machine} {h : Host σ β} {x : Execution σ β} {n : Nat} (hx : x.changes = [])
    (hl : ∀ k < n, m.Lasts h k x) : Path (m.Makes h x) x.session.position (m.after h n x).history
      (m.after h n x).session.position := by
  induction n with
  | zero =>
    have hh : (m.after h 0 x).history = [] := congrArg List.reverse hx
    rw [hh]
    exact .stay _
  | succ n ih =>
    have ih := ih fun k hk => hl k (Nat.lt_succ_of_lt hk)
    rw [after,Execution.history]
    have hmoves := (step_iteration m h (m.after h n x)).moves
    generalize (m.step h (m.after h n x)).1 = flow at hmoves
    cases hmoves with
    | stays hc hp =>
      rw [hc,hp]
      exact ih
    | enters hw hs hc hp ht ha =>
      rw [hc,hp,List.reverse_cons]
      exact .go ih hs ⟨n,hl n (Nat.lt_succ_self n),hc,rfl,hw⟩

end Machine

namespace Episode

open Machine

variable {p : Profile}

def Makes (e : Episode p) : Timestamp → StateChange → Prop := e.machine.Makes e.host e.start

def MadeIn (episodes : List (Episode p)) (since : Timestamp) (c : StateChange) : Prop :=
  ∃ e ∈ episodes, e.Makes since c

theorem path (e : Episode p) : Path e.Makes e.start.session.position e.outcome.history
    e.outcome.session.position := by
  obtain ⟨n,hl,hsession,hhistory⟩ := e.last_iteration
  rw [← hsession,← hhistory]
  exact after_path rfl fun k hk => lasts_mono (Nat.le_of_lt_succ hk) hl

theorem start_position {e : Episode p} {session : SessionState} (hs : e.session = some session) :
    e.start.session.position = session.position := by
  rw [start,hs]
  rfl

end Episode

namespace Machine

/-- The history of a run is a path through its profile, from the position of the session at the
beginning to that at the end. A fired timer has run as long as it has to. The histories of the runs
of one session, one after the other, are one such path. -/
theorem history_isPath :
    (∀ {σ β : Type} (m : Machine) (h : Host σ β) session host o host',
      m.run h session host = some (o,host') →
      let start := m.begin h session host
      Path (m.Makes h start) start.session.position o.history o.session.position) ∧
    (∀ duration world session now,
      (Condition.timer duration).holds world session now = true →
      ∃ elapsed, now.millisSince session.enteredAt = some elapsed ∧ duration ≤ elapsed) ∧
    ∀ {p : Profile} (e : Episode p) (later : List (Episode p)), Consecutive (e :: later) →
      Path (Episode.MadeIn (e :: later)) e.start.session.position ((e :: later).flatMap
          fun run => run.outcome.history)
        (later.getLast?.getD e).outcome.session.position := by
  refine ⟨?_,fun _ _ _ _ hc => Condition.timer_holds hc,?_⟩
  · intro σ β m h session host o host' hr start
    let e : Episode m.profile := ⟨m.budgets,h,session,host,o,host',hr⟩
    exact e.path
  · intro p e later hc
    induction later generalizing e with
    | nil =>
      rw [List.flatMap_singleton]
      exact e.path.mono fun since c hm => ⟨e,by simp,hm⟩
    | cons next later ih =>
      obtain ⟨hn,hc⟩ := List.isChain_cons_cons.mp hc
      have hfirst : Path (Episode.MadeIn (e :: next :: later)) _ _ _ :=
        e.path.mono fun since c hm => ⟨e,by simp,hm⟩
      have hrest : Path (Episode.MadeIn (e :: next :: later)) _ _ _ :=
        (ih next hc).mono fun since c ⟨run,hmem,hm⟩ => ⟨run,List.mem_cons_of_mem e hmem,hm⟩
      rw [Episode.start_position hn] at hrest
      rw [List.flatMap_cons,List.getLast?_cons,Option.getD_some]
      exact hfirst.append hrest

open Replay in
theorem history_isPath_sentry :
    (∃ o r, sentry.run Replay.host none guardhouse = some (o,r) ∧ o.history.length = 1 ∧
      Path (sentry.Makes Replay.host (sentry.begin Replay.host none guardhouse))
        ⟨some ⟨"watch"⟩,.logical 0⟩ o.history ⟨some ⟨"rest"⟩,.logical 200⟩) ∧
    (∃ elapsed, (Timestamp.logical 5).millisSince (.logical 2) = some elapsed ∧ 3 ≤ elapsed) ∧
    Consecutive [Episode.watch,Episode.relief] ∧
    Path (Episode.MadeIn [Episode.watch,Episode.relief]) ⟨some ⟨"watch"⟩,.logical 0⟩
      [⟨⟨"watch"⟩,⟨"rest"⟩,.transition ⟨"relief"⟩,.logical 0,1⟩] ⟨some ⟨"rest"⟩,.logical 0⟩ := by
  obtain ⟨hrun,htimer,hjoin⟩ := history_isPath
  refine ⟨?_,?_,List.isChain_pair.mpr rfl,?_⟩
  · have hr := run_of_lasts sentry Replay.host none guardhouse 4 (.suspended .hostDenied)
      (by decide +kernel) (by decide +kernel)
    have hend : (sentry.after Replay.host 5
        (sentry.begin Replay.host none guardhouse)).session.position =
          ⟨some ⟨"rest"⟩,.logical 200⟩ := by
      decide +kernel
    have hp := hrun sentry Replay.host none guardhouse _ _ hr
    refine ⟨_,_,hr,by decide +kernel,?_⟩
    rw [← hend]
    exact hp
  · exact htimer 3 (some .empty) (.start none (.logical 2)) (.logical 5) (by decide +kernel)
  · have hp := hjoin Episode.watch [Episode.relief] (List.isChain_pair.mpr rfl)
    have hhistory : [Episode.watch,Episode.relief].flatMap (fun run => run.outcome.history) =
        [⟨⟨"watch"⟩,⟨"rest"⟩,.transition ⟨"relief"⟩,.logical 0,1⟩] := by
      decide +kernel
    have hend : Episode.relief.outcome.session.position = ⟨some ⟨"rest"⟩,.logical 0⟩ := by
      decide +kernel
    rw [← hhistory,← hend]
    exact hp

end Machine

end BehaviorMachine
