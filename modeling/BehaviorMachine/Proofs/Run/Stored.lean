import BehaviorMachine.Proofs.NameMap
import BehaviorMachine.Proofs.Run.Observation
import BehaviorMachine.Run.Stored

/-!
# Runs through a store

A run through a store is either rejected before its host is asked anything, or goes on from the session
that is kept (`perform_rejected`, `perform_accepted`). Over any sequence of operations a store keeps
for each run what was last put there by an operation that succeeded (`Serves.load_eq`).
-/
namespace BehaviorMachine

namespace SessionTable

theorem load_save (t : SessionTable) (id other : RunId) (session : SessionState) :
    (t.save id session).load other = if other = id then some session else t.load other := by
  simp only [load,save,NameMap.get?_insert,Identifier.text_inj]

theorem load_remove (t : SessionTable) (id other : RunId) :
    (t.remove id).2.load other = if other = id then none else t.load other := by
  simp only [load,remove,NameMap.get?_erase,Identifier.text_inj]

theorem save_comm {a b : RunId} (hn : a ≠ b) (t : SessionTable) (session session' : SessionState) :
    save b session' (save a session t) = save a session (save b session' t) := by
  apply NameMap.insert_comm
  intro he
  exact hn (Identifier.text_inj.mp he)

end SessionTable

/-- What a store is made to refuse during one operation, and with which reason. -/
structure Refusals where
  load : Option String
  save : Option String
  deriving DecidableEq

namespace Refusals

def none : Refusals := ⟨.none,.none⟩

def store (f : Refusals) : SessionStore SessionTable :=
  let loading := match f.load with
    | some reason => SessionStore.memory.refusingLoad reason
    | .none => .memory
  match f.save with
  | some reason => loading.refusingSave reason
  | .none => loading

theorem store_load (f : Refusals) (id : RunId) (t : SessionTable) :
    f.store.load id t = match f.load with
      | some reason => .error ⟨reason⟩
      | .none => .ok (t.load id) := by
  rcases f with ⟨_|_,_|_⟩ <;> rfl

theorem store_save (f : Refusals) (id : RunId) (session : SessionState) (t : SessionTable) :
    f.store.save id session t = match f.save with
      | some reason => .error ⟨reason⟩
      | .none => .ok (t.save id session) := by
  rcases f with ⟨_|_,_|_⟩ <;> rfl

end Refusals

structure StoredTask where
  {σ β : Type}
  machine : Machine
  strict : Bool
  id : RunId
  host : Host σ β
  before : σ
  refusals : Refusals

namespace StoredTask

def perform (k : StoredTask) (t : SessionTable) : Option (StoredRun SessionTable k.σ) :=
  k.machine.runStored k.strict k.refusals.store k.id k.host t k.before

/-- Why a run does not begin: its profile is malformed and that is checked, or its session cannot be
loaded. -/
def rejection? (k : StoredTask) : Option StoredRunError :=
  match if k.strict then k.machine.profile.validate else .ok () with
  | .error e => some (.invalid e)
  | .ok () => k.refusals.load.map fun reason => .store ⟨reason⟩

theorem perform_rejected {k : StoredTask} {e : StoredRunError} (hr : k.rejection? = some e)
    (t : SessionTable) : k.perform t = some ⟨.error e,t,k.before⟩ := by
  rw [rejection?] at hr
  rw [perform,Machine.runStored]
  cases hv : (if k.strict then k.machine.profile.validate else .ok ()) with
  | error error =>
    rw [hv] at hr
    cases hr
    rfl
  | ok _ =>
    rw [hv] at hr
    obtain ⟨reason,hload,rfl⟩ := Option.map_eq_some_iff.mp hr
    simp only [Refusals.store_load,hload]

/-- Other runs begin with the session that is kept, and their session is kept unless that is refused. -/
theorem perform_accepted {k : StoredTask} (hr : k.rejection? = none) (t : SessionTable) :
    k.perform t = (k.machine.run k.host (t.load k.id) k.before).map fun (outcome,host) =>
      match k.refusals.save with
      | some reason => ⟨.error (.store ⟨reason⟩),t,host⟩
      | none => ⟨.ok outcome,t.save k.id outcome.session,host⟩ := by
  rw [rejection?] at hr
  rw [perform,Machine.runStored]
  cases hv : (if k.strict then k.machine.profile.validate else .ok ()) with
  | error error =>
    rw [hv] at hr
    cases hr
  | ok _ =>
    rw [hv] at hr
    have hload := Option.map_eq_none_iff.mp hr
    simp only [Refusals.store_load,hload]
    congr 1
    funext ⟨outcome,host⟩
    rw [Refusals.store_save]
    cases k.refusals.save <;> rfl

end StoredTask

inductive StoreOperation where
  | load (id : RunId) (refusals : Refusals)
  | save (id : RunId) (session : SessionState) (refusals : Refusals)
  | remove (id : RunId)
  | run (task : StoredTask)

inductive StoreAnswer where
  | loaded (session : Option SessionState)
  | saved
  | removed (session : Option SessionState)
  | ran (outcome : RunOutcome)

namespace StoreOperation

/-- Carry out an operation. None if it is a run that does not end. -/
def perform : StoreOperation → SessionTable →
    Option (Except StoredRunError StoreAnswer × SessionTable)
  | .load id f, t =>
    match f.store.load id t with
    | .error e => some (.error (.store e),t)
    | .ok session => some (.ok (.loaded session),t)
  | .save id session f, t =>
    match f.store.save id session t with
    | .error e => some (.error (.store e),t)
    | .ok t => some (.ok .saved,t)
  | .remove id, t => some (.ok (.removed (t.remove id).1),(t.remove id).2)
  | .run task, t => (task.perform t).map fun r => (r.result.map .ran,r.store)

def put? : StoreOperation → StoreAnswer → Option (RunId × Option SessionState)
  | .save id session _, _ => some (id,some session)
  | .remove id, _ => some (id,none)
  | .run task, .ran outcome => some (task.id,some outcome.session)
  | _, _ => none

end StoreOperation

structure StoreEvent where
  operation : StoreOperation
  result : Except StoredRunError StoreAnswer

namespace StoreEvent

def put? (e : StoreEvent) : Option (RunId × Option SessionState) :=
  match e.result with
  | .error _ => none
  | .ok answer => e.operation.put? answer

def kept (id : RunId) (session : Option SessionState) (e : StoreEvent) : Option SessionState :=
  match e.put? with
  | some (changed,put) => if id = changed then put else session
  | none => session

end StoreEvent

namespace StoreOperation

variable {t t' : SessionTable} {operation : StoreOperation}

theorem perform_run {task : StoredTask} {result : Except StoredRunError StoreAnswer}
    (hp : (StoreOperation.run task).perform t = some (result,t')) :
    (∃ e, task.rejection? = some e ∧ result = .error e ∧ t' = t) ∨
    task.rejection? = none ∧ ∃ outcome host,
      task.machine.run task.host (t.load task.id) task.before = some (outcome,host) ∧
      ((∃ reason, task.refusals.save = some reason ∧ result = .error (.store ⟨reason⟩) ∧ t' = t) ∨
        task.refusals.save = none ∧ result = .ok (.ran outcome) ∧
          t' = t.save task.id outcome.session) := by
  obtain ⟨r,hr,he⟩ := Option.map_eq_some_iff.mp hp
  cases he
  cases hrejection : task.rejection? with
  | some e =>
    rw [StoredTask.perform_rejected hrejection] at hr
    cases hr
    exact .inl ⟨e,rfl,rfl,rfl⟩
  | none =>
    rw [StoredTask.perform_accepted hrejection] at hr
    obtain ⟨⟨outcome,host⟩,hrun,rfl⟩ := Option.map_eq_some_iff.mp hr
    refine .inr ⟨rfl,outcome,host,hrun,?_⟩
    cases hsave : task.refusals.save with
    | some reason => exact .inl ⟨reason,rfl,rfl,rfl⟩
    | none => exact .inr ⟨rfl,rfl,rfl⟩

/-- An operation changes what is kept for one run, or nothing if it fails. -/
theorem perform_kept {result : Except StoredRunError StoreAnswer}
    (hp : operation.perform t = some (result,t')) (id : RunId) :
    t'.load id = (StoreEvent.mk operation result).kept id (t.load id) := by
  cases operation with
  | load other f =>
    simp only [perform,Refusals.store_load] at hp
    cases hf : f.load <;> simp only [hf] at hp <;> cases hp <;> rfl
  | save other session f =>
    simp only [perform,Refusals.store_save] at hp
    cases hf : f.save <;> simp only [hf] at hp <;> cases hp
    · exact t.load_save other id session
    · rfl
  | remove other =>
    cases hp
    exact t.load_remove other id
  | run task =>
    rcases perform_run hp with ⟨e,-,rfl,rfl⟩ | ⟨-,outcome,host,-,⟨reason,-,rfl,rfl⟩ | ⟨-,rfl,rfl⟩⟩
    · rfl
    · rfl
    · exact t.load_save task.id id outcome.session

theorem perform_failed {e : StoredRunError} (hp : operation.perform t = some (.error e,t')) :
    t' = t := by
  cases operation with
  | load other f =>
    simp only [perform,Refusals.store_load] at hp
    cases hf : f.load <;> simp only [hf] at hp <;> cases hp
    rfl
  | save other session f =>
    simp only [perform,Refusals.store_save] at hp
    cases hf : f.save <;> simp only [hf] at hp <;> cases hp
    rfl
  | remove other => cases hp
  | run task =>
    rcases perform_run hp with ⟨e,-,-,ht⟩ | ⟨-,outcome,host,-,⟨reason,-,-,ht⟩ | ⟨-,hr,-⟩⟩
    · exact ht
    · exact ht
    · cases hr

end StoreOperation

inductive Serves : SessionTable → List StoreEvent → SessionTable → Prop where
  | nil (t : SessionTable) : Serves t [] t
  | cons {t t' t'' : SessionTable} {e : StoreEvent} {events : List StoreEvent}
      (hp : e.operation.perform t = some (e.result,t')) (hs : Serves t' events t'') :
      Serves t (e :: events) t''

namespace Serves

variable {t t' : SessionTable}

theorem split {first last : List StoreEvent} (hs : Serves t (first ++ last) t') :
    ∃ s, Serves t first s ∧ Serves s last t' := by
  induction first generalizing t with
  | nil => exact ⟨t,.nil t,hs⟩
  | cons e rest ih =>
    cases hs with
    | cons hp hs =>
      obtain ⟨s,hrest,hlast⟩ := ih hs
      exact ⟨s,.cons hp hrest,hlast⟩

/-- The store keeps what has been put there last. -/
theorem load_eq {events : List StoreEvent} (hs : Serves t events t') (id : RunId) :
    t'.load id = events.foldl (StoreEvent.kept id) (t.load id) := by
  induction hs with
  | nil t => rfl
  | @cons t t' t'' e events hp hs ih => rw [ih,List.foldl_cons,StoreOperation.perform_kept hp id]

theorem load_of_unchanged {events : List StoreEvent} (hs : Serves t events t') {id : RunId}
    (hn : ∀ e ∈ events, ∀ session, e.put? ≠ some (id,session)) : t'.load id = t.load id := by
  rw [hs.load_eq]
  clear hs
  induction events with
  | nil => rfl
  | cons e rest ih =>
    have hkept : e.kept id (t.load id) = t.load id := by
      rw [StoreEvent.kept]
      split
      · next changed put he =>
        apply if_neg
        rintro rfl
        exact hn e List.mem_cons_self put he
      · rfl
    rw [List.foldl_cons,hkept]
    exact ih fun e he => hn e (List.mem_cons_of_mem _ he)

end Serves

namespace StoreEvent

/-- An event between two states of a store has happened as a whole or not at all. -/
structure Atomic (e : StoreEvent) (t t' : SessionTable) : Prop where
  performed : e.operation.perform t = some (e.result,t')
  failed : ∀ error, e.result = .error error → t' = t
  /-- A run that succeeds has gone on from the session kept for it, and its own one is kept instead. -/
  succeeded : ∀ task outcome, e.operation = .run task → e.result = .ok (.ran outcome) →
    (∃ host, task.machine.run task.host (t.load task.id) task.before = some (outcome,host)) ∧
      t'.load task.id = some outcome.session ∧ ∀ other ≠ task.id, t'.load other = t.load other
  /-- A run that is rejected leaves any host as it is, so it asks none anything. -/
  rejected : ∀ task error, e.operation = .run task → task.rejection? = some error →
    e.result = .error error ∧ ∀ {σ β : Type} (h : Host σ β) (before : σ),
      task.machine.runStored task.strict task.refusals.store task.id h t before =
        some ⟨.error error,t,before⟩
  /-- A run that fails otherwise has had its session refused in the end. -/
  refused : ∀ task error, e.operation = .run task → e.result = .error error →
    task.rejection? = none → ∃ reason, task.refusals.save = some reason ∧ error = .store ⟨reason⟩

theorem atomic_of_perform {e : StoreEvent} {t t' : SessionTable}
    (hp : e.operation.perform t = some (e.result,t')) : e.Atomic t t' := by
  obtain ⟨operation,result⟩ := e
  refine ⟨hp,?_,?_,?_,?_⟩
  · rintro error rfl
    exact StoreOperation.perform_failed hp
  · rintro task outcome rfl rfl
    rcases StoreOperation.perform_run hp with ⟨e,-,he,-⟩ | ⟨-,found,host,hrun,⟨reason,-,he,-⟩ | ⟨-,he,rfl⟩⟩
    · cases he
    · cases he
    · cases he
      refine ⟨⟨host,hrun⟩,?_,?_⟩
      · rw [SessionTable.load_save,if_pos rfl]
      · intro other hn
        rw [SessionTable.load_save,if_neg hn]
  · rintro task error rfl hr
    constructor
    · rcases StoreOperation.perform_run hp with ⟨e,he,hresult,-⟩ | ⟨hnone,-⟩
      · cases hr.symm.trans he
        exact hresult
      · cases hr.symm.trans hnone
    · intro σ β h before
      exact StoredTask.perform_rejected
        (k := ⟨task.machine,task.strict,task.id,h,before,task.refusals⟩) hr t
  · rintro task error rfl rfl hnone
    rcases StoreOperation.perform_run hp with ⟨e,he,-,-⟩ | ⟨-,found,host,-,⟨reason,hs,he,-⟩ | ⟨-,he,-⟩⟩
    · cases hnone.symm.trans he
    · cases he
      exact ⟨reason,hs,rfl⟩
    · cases he

/-- A load of a run returns a session unless it is refused, and a run goes on from it unless it is
rejected. -/
structure Continues (e : StoreEvent) (id : RunId) (session : SessionState) : Prop where
  load : ∀ f, e.operation = .load id f → e.result = match f.load with
    | some reason => .error (.store ⟨reason⟩)
    | none => .ok (.loaded (some session))
  run : ∀ task, e.operation = .run task → task.id = id → task.rejection? = none → ∃ outcome host,
    task.machine.run task.host (some session) task.before = some (outcome,host) ∧
      e.result = match task.refusals.save with
        | some reason => .error (.store ⟨reason⟩)
        | none => .ok (.ran outcome)

theorem continues_of_perform {e : StoreEvent} {t t' : SessionTable} {id : RunId}
    {session : SessionState} (hp : e.operation.perform t = some (e.result,t'))
    (hl : t.load id = some session) : e.Continues id session := by
  obtain ⟨operation,result⟩ := e
  refine ⟨?_,?_⟩
  · rintro f rfl
    simp only [StoreOperation.perform,Refusals.store_load,hl] at hp
    cases hf : f.load <;> simp only [hf] at hp <;> cases hp <;> rfl
  · rintro task rfl rfl hnone
    rcases StoreOperation.perform_run hp with ⟨e,he,-,-⟩ | ⟨-,outcome,host,hrun,hend⟩
    · cases hnone.symm.trans he
    · rw [hl] at hrun
      refine ⟨outcome,host,hrun,?_⟩
      rcases hend with ⟨reason,hs,he,-⟩ | ⟨hs,he,-⟩
      · rw [hs]
        exact he
      · rw [hs]
        exact he

end StoreEvent

end BehaviorMachine
