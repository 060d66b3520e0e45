import BehaviorMachine.Proofs.Run.Episode
import BehaviorMachine.Proofs.Run.Stored

/-!
# Runs that share a store

A run through a store touches it twice, when it loads its session and when it saves it. Runs of
different identifiers may do so in any order: they end as they do one after the other
(`Pair.interleave_eq`). Together with the events of a store, each of which happens as a whole or not
at all, this is `shared_store_atomic`.
-/
namespace BehaviorMachine

/-- Where a run through a store stands: before it loads, before it saves, or at its end. -/
inductive Stage (σ : Type) where
  | begins
  | ran (outcome : RunOutcome) (host : σ)
  | ended (result : Except StoredRunError RunOutcome) (host : σ)

namespace StoredTask

def advance (k : StoredTask) : Stage k.σ → SessionTable → Option (Stage k.σ × SessionTable)
  | .begins, t =>
    match if k.strict then k.machine.profile.validate else .ok () with
    | .error e => some (.ended (.error (.invalid e)) k.before,t)
    | .ok () =>
      match k.refusals.store.load k.id t with
      | .error e => some (.ended (.error (.store e)) k.before,t)
      | .ok session =>
        (k.machine.run k.host session k.before).map fun (outcome,host) => (.ran outcome host,t)
  | .ran outcome host, t =>
    match k.refusals.store.save k.id outcome.session t with
    | .error e => some (.ended (.error (.store e)) host,t)
    | .ok t => some (.ended (.ok outcome) host,t)
  | .ended result host, t => some (.ended result host,t)

theorem perform_advance (k : StoredTask) (t : SessionTable) :
    ((k.advance .begins t).bind fun x => k.advance x.1 x.2) =
      (k.perform t).map fun r => (.ended r.result r.host,r.store) := by
  rw [perform,Machine.runStored,advance]
  rcases (if k.strict then k.machine.profile.validate else .ok ()) with e | ⟨⟩
  · rfl
  · rcases k.refusals.store.load k.id t with e | session
    · rfl
    · dsimp only
      rcases k.machine.run k.host session k.before with _ | ⟨outcome,host⟩
      · rfl
      · simp only [Option.map_some,Option.bind_some,advance]
        cases k.refusals.store.save k.id outcome.session t <;> rfl

/-- The next stage after one, given the session that is kept for the run, and the session to keep. -/
def next (k : StoredTask) : Stage k.σ → Option SessionState → Option (Stage k.σ × Option SessionState)
  | .begins, session =>
    match k.rejection? with
    | some e => some (.ended (.error e) k.before,none)
    | none => (k.machine.run k.host session k.before).map fun (outcome,host) => (.ran outcome host,none)
  | .ran outcome host, _ =>
    match k.refusals.save with
    | some reason => some (.ended (.error (.store ⟨reason⟩)) host,none)
    | none => some (.ended (.ok outcome) host,some outcome.session)
  | .ended result host, _ => some (.ended result host,none)

def keep (k : StoredTask) (t : SessionTable) : Option SessionState → SessionTable
  | none => t
  | some session => t.save k.id session

/-- A stage depends on the run's own entry only, and changes no other. -/
theorem advance_eq (k : StoredTask) (stage : Stage k.σ) (t : SessionTable) :
    k.advance stage t = (k.next stage (t.load k.id)).map fun x => (x.1,k.keep t x.2) := by
  cases stage with
  | begins =>
    rw [advance,next,rejection?]
    cases if k.strict then k.machine.profile.validate else .ok () with
    | error e => rfl
    | ok _ =>
      simp only [Refusals.store_load]
      cases k.refusals.load with
      | some reason => rfl
      | none =>
        simp only [Option.map_none,Option.map_map]
        rfl
  | ran outcome host =>
    simp only [advance,next,Refusals.store_save]
    cases k.refusals.save <;> rfl
  | ended result host => rfl

theorem load_keep {k : StoredTask} {id : RunId} (hn : id ≠ k.id) (t : SessionTable)
    (session : Option SessionState) : (k.keep t session).load id = t.load id := by
  cases session with
  | none => rfl
  | some session => rw [keep,SessionTable.load_save,if_neg hn]

theorem keep_comm {a b : StoredTask} (hn : a.id ≠ b.id) (t : SessionTable)
    (session session' : Option SessionState) :
    b.keep (a.keep t session) session' = a.keep (b.keep t session') session := by
  cases session <;> cases session'
  · rfl
  · rfl
  · rfl
  · exact SessionTable.save_comm hn t _ _

end StoredTask

structure Pair (a b : StoredTask) where
  first : Stage a.σ
  second : Stage b.σ
  store : SessionTable

namespace Pair

variable {a b : StoredTask}

def moveFirst (x : Pair a b) : Option (Pair a b) :=
  (a.advance x.first x.store).map fun (stage,store) => { x with first := stage, store }

def moveSecond (x : Pair a b) : Option (Pair a b) :=
  (b.advance x.second x.store).map fun (stage,store) => { x with second := stage, store }

/-- Go on with the runs in a given order, where true stands for the first. -/
def interleave : List Bool → Pair a b → Option (Pair a b)
  | [], x => some x
  | true :: rest, x => x.moveFirst.bind (interleave rest)
  | false :: rest, x => x.moveSecond.bind (interleave rest)

theorem moveFirst_eq (x : Pair a b) :
    x.moveFirst = (a.next x.first (x.store.load a.id)).map fun y =>
      ⟨y.1,x.second,a.keep x.store y.2⟩ := by
  rw [moveFirst,StoredTask.advance_eq,Option.map_map]
  rfl

theorem moveSecond_eq (x : Pair a b) :
    x.moveSecond = (b.next x.second (x.store.load b.id)).map fun y =>
      ⟨x.first,y.1,b.keep x.store y.2⟩ := by
  rw [moveSecond,StoredTask.advance_eq,Option.map_map]
  rfl

/-- The stages of different runs may be exchanged. -/
theorem move_comm (hn : a.id ≠ b.id) (x : Pair a b) :
    x.moveFirst.bind moveSecond = x.moveSecond.bind moveFirst := by
  rw [moveFirst_eq,moveSecond_eq]
  cases ha : a.next x.first (x.store.load a.id) with
  | none =>
    cases hb : b.next x.second (x.store.load b.id) with
    | none => rfl
    | some y =>
      simp only [Option.map_none,Option.map_some,Option.bind_none,Option.bind_some,moveFirst_eq,
        StoredTask.load_keep hn,ha]
  | some y =>
    cases hb : b.next x.second (x.store.load b.id) with
    | none =>
      simp only [Option.map_none,Option.map_some,Option.bind_none,Option.bind_some,moveSecond_eq,
        StoredTask.load_keep hn.symm,hb]
    | some z =>
      simp only [Option.map_some,Option.bind_some,moveFirst_eq,moveSecond_eq,
        StoredTask.load_keep hn,StoredTask.load_keep hn.symm,ha,hb,StoredTask.keep_comm hn]

/-- It does not matter in which order the runs go on, but only how far. -/
theorem interleave_perm (hn : a.id ≠ b.id) {schedule schedule' : List Bool}
    (hp : schedule.Perm schedule') (x : Pair a b) : interleave schedule x = interleave schedule' x := by
  induction hp generalizing x with
  | nil => rfl
  | cons turn hp ih => cases turn <;> simp only [interleave,funext ih]
  | swap turn turn' rest =>
    have hc := congrArg (Option.bind · (interleave rest)) (move_comm hn x)
    simp only [Option.bind_assoc] at hc
    cases turn <;> cases turn' <;> simp only [interleave]
    · exact hc
    · exact hc.symm
  | trans hp hp' ih ih' => exact (ih x).trans (ih' x)

theorem perform_first (t : SessionTable) (second : Stage b.σ) :
    (⟨.begins,second,t⟩ : Pair a b).moveFirst.bind moveFirst =
      (a.perform t).map fun r => ⟨.ended r.result r.host,second,r.store⟩ := by
  have hp := congrArg (Option.map fun y => (⟨y.1,second,y.2⟩ : Pair a b)) (a.perform_advance t)
  rw [Option.map_bind,Option.map_map] at hp
  rw [moveFirst,Option.bind_map]
  exact hp

theorem perform_second (t : SessionTable) (first : Stage a.σ) :
    (⟨first,.begins,t⟩ : Pair a b).moveSecond.bind moveSecond =
      (b.perform t).map fun r => ⟨first,.ended r.result r.host,r.store⟩ := by
  have hp := congrArg (Option.map fun y => (⟨first,y.1,y.2⟩ : Pair a b)) (b.perform_advance t)
  rw [Option.map_bind,Option.map_map] at hp
  rw [moveSecond,Option.bind_map]
  exact hp

def EachTwice (schedule : List Bool) : Prop := schedule.Perm [true,true,false,false]

instance (schedule : List Bool) : Decidable (EachTwice schedule) :=
  inferInstanceAs (Decidable (schedule.Perm _))

variable {schedule : List Bool}

/-- Interleaved runs end as they do when the first is over before the second begins. -/
theorem interleave_eq (hn : a.id ≠ b.id) (ht : EachTwice schedule) (t : SessionTable) :
    interleave schedule (⟨.begins,.begins,t⟩ : Pair a b) = (a.perform t).bind fun r =>
      (b.perform r.store).map fun r' =>
        ⟨.ended r.result r.host,.ended r'.result r'.host,r'.store⟩ := by
  have hfirst := congrArg (Option.bind · fun x => x.moveSecond.bind moveSecond)
    (perform_first (a := a) (b := b) t .begins)
  simp only [Option.bind_assoc,Option.bind_map,Function.comp_def,perform_second] at hfirst
  rw [interleave_perm hn ht,← hfirst]
  simp only [interleave,Option.bind_fun_some]

theorem interleave_eq_reversed (hn : a.id ≠ b.id) (ht : EachTwice schedule) (t : SessionTable) :
    interleave schedule (⟨.begins,.begins,t⟩ : Pair a b) = (b.perform t).bind fun r' =>
      (a.perform r'.store).map fun r =>
        ⟨.ended r.result r.host,.ended r'.result r'.host,r.store⟩ := by
  have hsecond := congrArg (Option.bind · fun x => x.moveFirst.bind moveFirst)
    (perform_second (a := a) (b := b) t .begins)
  simp only [Option.bind_assoc,Option.bind_map,Function.comp_def,perform_first] at hsecond
  have hreversed : schedule.Perm [false,false,true,true] := List.Perm.trans ht (by decide)
  rw [interleave_perm hn hreversed,← hsecond]
  simp only [interleave,Option.bind_fun_some]

end Pair

/-- However a store is shared, every operation on it happens as a whole or not at all, a run goes on from
the session that was kept for it last, and runs of different identifiers leave the same sessions in
whatever order they load and save. -/
theorem shared_store_atomic {t t' : SessionTable} {events : List StoreEvent}
    (hs : Serves t events t') :
    (∀ first e rest, events = first ++ e :: rest → ∃ s s', Serves t first s ∧ Serves s' rest t' ∧
      e.Atomic s s') ∧
    (∀ first task outcome between later rest,
      events = first ++ ⟨.run task,.ok (.ran outcome)⟩ :: (between ++ later :: rest) →
      (∀ e ∈ between, ∀ session, e.put? ≠ some (task.id,session)) →
      later.Continues task.id outcome.session) ∧
    ∀ (a b : StoredTask), a.id ≠ b.id → ∀ schedule, Pair.EachTwice schedule →
      let x : Pair a b := ⟨.begins,.begins,t'⟩
      (x.interleave schedule = (a.perform t').bind fun r => (b.perform r.store).map fun r' =>
        ⟨.ended r.result r.host,.ended r'.result r'.host,r'.store⟩) ∧
      x.interleave schedule = (b.perform t').bind fun r' => (a.perform r'.store).map fun r =>
        ⟨.ended r.result r.host,.ended r'.result r'.host,r.store⟩ := by
  refine ⟨?_,?_,?_⟩
  · rintro first e rest rfl
    obtain ⟨s,hfirst,hlast⟩ := hs.split
    cases hlast with
    | cons hp hrest => exact ⟨s,_,hfirst,hrest,StoreEvent.atomic_of_perform hp⟩
  · rintro first task outcome between later rest rfl hn
    obtain ⟨s,-,hlast⟩ := hs.split
    cases hlast with
    | @cons _ s' _ _ _ hp hrest =>
      have hkept : s'.load task.id = some outcome.session :=
        ((StoreEvent.atomic_of_perform hp).succeeded task outcome rfl rfl).2.1
      obtain ⟨r,hbetween,hlater⟩ := hrest.split
      cases hlater with
      | cons hp' _ =>
        apply StoreEvent.continues_of_perform hp'
        rw [hbetween.load_of_unchanged hn]
        exact hkept
  · intro a b hn schedule ht x
    exact ⟨Pair.interleave_eq hn ht t',Pair.interleave_eq_reversed hn ht t'⟩

namespace Episode

variable {p : Profile} {f : Refusals} {t : SessionTable}

def stored (e : Episode p) (id : RunId) (f : Refusals) : StoredTask :=
  ⟨e.machine,true,id,e.host,e.before,f⟩

theorem rejection?_stored (e : Episode p) (hv : p.validate = .ok ()) (id : RunId) :
    (e.stored id f).rejection? = f.load.map fun reason => .store ⟨reason⟩ := by
  simp only [StoredTask.rejection?,stored,machine,if_true,hv]

theorem perform_stored (e : Episode p) (hv : p.validate = .ok ()) (id : RunId) (hf : f.load = none)
    (hl : t.load id = e.session) : (e.stored id f).perform t = some (match f.save with
      | some reason => ⟨.error (.store ⟨reason⟩),t,e.after⟩
      | none => ⟨.ok e.outcome,t.save id e.outcome.session,e.after⟩) := by
  have hr : (e.stored id f).rejection? = none := by
    rw [e.rejection?_stored hv id,hf]
    rfl
  have hrun : (e.stored id f).machine.run (e.stored id f).host (t.load id) (e.stored id f).before =
      some (e.outcome,e.after) := by
    rw [hl]
    exact e.run_eq
  rw [StoredTask.perform_accepted hr]
  exact congrArg (Option.map _) hrun

theorem perform_refused (e : Episode p) (hv : p.validate = .ok ()) (id : RunId) {reason : String}
    (hf : f.load = some reason) :
    (e.stored id f).perform t = some ⟨.error (.store ⟨reason⟩),t,e.before⟩ := by
  have hr : (e.stored id f).rejection? = some (.store ⟨reason⟩) := by
    rw [e.rejection?_stored hv id,hf]
    rfl
  exact StoredTask.perform_rejected hr t

end Episode

namespace StoreEvent

def gate : RunId := ⟨"gate"⟩

/-- The first session of the sentry at the gate is lost to a full disk. -/
def lost : StoreEvent :=
  ⟨.run (Episode.watch.stored gate ⟨none,some "disk full"⟩),.error (.store ⟨"disk full"⟩)⟩

def watched : StoreEvent :=
  ⟨.run (Episode.watch.stored gate .none),.ok (.ran Episode.watch.outcome)⟩

def offline : StoreEvent :=
  ⟨.run (Episode.relief.stored gate ⟨some "offline",none⟩),.error (.store ⟨"offline"⟩)⟩

def relieved : StoreEvent :=
  ⟨.run (Episode.relief.stored gate .none),.ok (.ran Episode.relief.outcome)⟩

end StoreEvent

open StoreEvent Episode in
theorem shared_store_atomic_sentry :
    ∃ t, Serves ∅ [lost,watched,offline,relieved] t ∧ lost.Atomic ∅ ∅ ∧
      relieved.Continues gate watch.outcome.session ∧
      ∃ x, Pair.interleave [true,false,false,true]
          (⟨.begins,.begins,t⟩ : Pair (watch.stored ⟨"tower"⟩ .none) (watch.stored ⟨"wall"⟩ .none)) =
        some x ∧
        x.store = (t.save ⟨"tower"⟩ watch.outcome.session).save ⟨"wall"⟩ watch.outcome.session := by
  have hv : Machine.sentry.profile.validate = .ok () := by decide +kernel
  let t₁ : SessionTable := SessionTable.save gate watch.outcome.session ∅
  let t₂ : SessionTable := SessionTable.save gate relief.outcome.session t₁
  have hgate : t₁.load gate = relief.session := (SessionTable.load_save _ _ _ _).trans (if_pos rfl)
  have hother {id : RunId} (hn : id ≠ gate) : t₂.load id = none := by
    rw [SessionTable.load_save,if_neg hn,SessionTable.load_save,if_neg hn]
    rfl
  have hlost : lost.operation.perform ∅ = some (lost.result,∅) :=
    congrArg (Option.map _) (watch.perform_stored hv gate rfl rfl)
  have hwatched : watched.operation.perform ∅ = some (watched.result,t₁) :=
    congrArg (Option.map _) (watch.perform_stored hv gate rfl rfl)
  have hoffline : offline.operation.perform t₁ = some (offline.result,t₁) := by
    have hr := relief.perform_refused hv gate (f := ⟨some "offline",none⟩) (t := t₁) rfl
    exact congrArg (Option.map fun r => (r.result.map StoreAnswer.ran,r.store)) hr
  have hrelieved : relieved.operation.perform t₁ = some (relieved.result,t₂) :=
    congrArg (Option.map _) (relief.perform_stored hv gate rfl hgate)
  have hserves : Serves ∅ [lost,watched,offline,relieved] t₂ :=
    .cons hlost (.cons hwatched (.cons hoffline (.cons hrelieved (.nil t₂))))
  obtain ⟨hatomic,hcontinues,hinterleave⟩ := shared_store_atomic hserves
  refine ⟨t₂,hserves,?_,?_,?_⟩
  · obtain ⟨s,s',hs,-,ha⟩ := hatomic [] lost _ rfl
    cases hs
    cases ha.failed _ rfl
    exact ha
  · exact hcontinues [lost] _ _ [offline] relieved [] rfl (by simp [offline,put?])
  · obtain ⟨hi,-⟩ := hinterleave (watch.stored ⟨"tower"⟩ .none) (watch.stored ⟨"wall"⟩ .none)
      (by decide) [true,false,false,true] (by decide)
    have hw := watch.perform_stored hv ⟨"tower"⟩ (f := .none) rfl (hother (by decide))
    have hw' := watch.perform_stored hv ⟨"wall"⟩ (f := .none)
      (t := t₂.save ⟨"tower"⟩ watch.outcome.session) rfl
      ((SessionTable.load_save _ _ _ _).trans ((if_neg (by decide)).trans (hother (by decide))))
    rw [hw] at hi
    exact ⟨_,hi.trans (congrArg (Option.map _) hw'),rfl⟩

end BehaviorMachine
