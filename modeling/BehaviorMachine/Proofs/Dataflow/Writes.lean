import BehaviorMachine.Proofs.Run.Observation

/-!
# Writes to output ports

Port values are the result of the writes that have been made: replaying a log of them gives each port
the value of the last write that went to it (`value?_replay`). A program does to the port values
what its writes do, at each point on its way (`PortProgram.Reaches.replay`).
-/
namespace BehaviorMachine

namespace PortValues

variable (values : PortValues) (state state' : StateId) (port port' : PortId) (value : ParamValue)

theorem get?_set : (values.set state port value).get? state'.text =
    if state' = state then some (((values.get? state.text).getD ∅).insert port.text value)
    else values.get? state'.text := by
  simp only [set,NameMap.get?_insert,Identifier.text_inj]

theorem value?_set : (values.set state port value).value? state' port' =
    if state' = state ∧ port' = port then some value else values.value? state' port' := by
  rw [value?,get?_set]
  by_cases hs : state' = state
  · subst hs
    have hrest : ((values.get? state'.text).getD ∅).get? port'.text = values.value? state' port' := by
      rw [value?]
      cases values.get? state'.text <;> rfl
    by_cases hp : port' = port
    · simp [hp,NameMap.get?_insert]
    · simp [hp,NameMap.get?_insert,Identifier.text_inj,hrest]
  · simp [hs,value?]

end PortValues

structure StateWrite where
  state : StateId
  write : PortWrite
  deriving DecidableEq

def Call.writes : Call → List StateWrite
  | .step _ context writes _ => writes.map fun write => ⟨context.state,write⟩
  | _ => []

namespace Profile

variable (p : Profile)

def output? (state : StateId) (name : String) : Option Port :=
  (p.state? state).bind (·.outputNamed? name)

/-- The port that a write has gone to, if it was successful. -/
def target? (e : StateWrite) : Option PortId :=
  if e.write.written then (p.output? e.state e.write.name).map Port.id else none

/-- The value of the last successful write to a port of a state. -/
def lastWritten? (log : List StateWrite) (state : StateId) (port : PortId) : Option ParamValue :=
  (log.reverse.find? fun e => e.state = state ∧ p.target? e = some port).map (·.write.value)

def applyWrite (values : PortValues) (e : StateWrite) : PortValues :=
  match p.target? e with
  | some port => values.set e.state port e.write.value
  | none => values

def replay (log : List StateWrite) (values : PortValues) : PortValues :=
  log.foldl p.applyWrite values

variable {p} {log : List StateWrite} {values : PortValues} {e : StateWrite}

theorem lastWritten?_append (new : List StateWrite) (state : StateId) (port : PortId) :
    p.lastWritten? (log ++ new) state port =
      (p.lastWritten? new state port).or (p.lastWritten? log state port) := by
  rw [lastWritten?,List.reverse_append,List.find?_append,Option.map_or]
  rfl

theorem replay_append (new : List StateWrite) :
    p.replay (log ++ new) values = p.replay new (p.replay log values) :=
  List.foldl_append

theorem applyWrite_refused (hw : e.write.written = false) : p.applyWrite values e = values := by
  rw [applyWrite,target?,if_neg (by simp [hw])]

theorem applyWrite_elsewhere {state : StateId} (hs : e.write.written = true → e.state ≠ state) :
    (p.applyWrite values e).get? state.text = values.get? state.text := by
  by_cases hw : e.write.written = true
  · rw [applyWrite]
    split
    · rw [PortValues.get?_set,if_neg (Ne.symm (hs hw))]
    · rfl
  · rw [applyWrite_refused (by simpa using hw)]

theorem value?_applyWrite (state : StateId) (port : PortId) :
    (p.applyWrite values e).value? state port =
      (p.lastWritten? [e] state port).or (values.value? state port) := by
  rw [applyWrite,lastWritten?,List.reverse_singleton,List.find?_singleton]
  cases ht : p.target? e with
  | none => simp
  | some target =>
    have hiff : (e.state = state ∧ some target = some port) ↔ (state = e.state ∧ port = target) := by
      rw [Option.some.injEq,eq_comm,eq_comm (a := target)]
    rw [PortValues.value?_set]
    simp only [hiff]
    by_cases hs : state = e.state ∧ port = target <;> simp [hs]

theorem value?_replay (log : List StateWrite) (values : PortValues) (state : StateId)
    (port : PortId) : (p.replay log values).value? state port =
      (p.lastWritten? log state port).or (values.value? state port) := by
  induction log generalizing values with
  | nil => rfl
  | cons e log ih =>
    have hsplit : p.lastWritten? ([e] ++ log) state port =
        (p.lastWritten? log state port).or (p.lastWritten? [e] state port) :=
      lastWritten?_append log state port
    rw [List.singleton_append] at hsplit
    rw [replay,List.foldl_cons,← replay,ih,value?_applyWrite,hsplit,Option.or_assoc]

theorem replay_refused (hl : ∀ e ∈ log, e.write.written = false) : p.replay log values = values := by
  induction log generalizing values with
  | nil => rfl
  | cons e log ih =>
    obtain ⟨he,hl⟩ := List.forall_mem_cons.mp hl
    rw [replay,List.foldl_cons,← replay,ih hl,applyWrite_refused he]

theorem replay_elsewhere {state : StateId}
    (hl : ∀ e ∈ log, e.write.written = true → e.state ≠ state) :
    (p.replay log values).get? state.text = values.get? state.text := by
  induction log generalizing values with
  | nil => rfl
  | cons e log ih =>
    obtain ⟨he,hl⟩ := List.forall_mem_cons.mp hl
    rw [replay,List.foldl_cons,← replay,ih hl,applyWrite_elsewhere he]

theorem isSome_get?_replay {state : StateId} (hs : (values.get? state.text).isSome) :
    ((p.replay log values).get? state.text).isSome := by
  induction log generalizing values with
  | nil => exact hs
  | cons e log ih =>
    rw [replay,List.foldl_cons,← replay]
    apply ih
    rw [applyWrite]
    split
    · rw [PortValues.get?_set]
      split
      · rfl
      · exact hs
    · exact hs

theorem isSome_value?_replay {state : StateId} {port : PortId}
    (hs : (values.value? state port).isSome) :
    ((p.replay log values).value? state port).isSome := by
  rw [value?_replay,Option.isSome_or,hs,Bool.or_true]

theorem lastWritten?_declared {state : StateId} {port : PortId} {value : ParamValue}
    (hl : p.lastWritten? log state port = some value) :
    ∃ s, p.state? state = some s ∧ ∃ o ∈ s.ports, o.side = .output ∧ o.id = port := by
  obtain ⟨e,he,-⟩ := Option.map_eq_some_iff.mp hl
  have hfound := List.find?_some he
  rw [decide_eq_true_iff] at hfound
  obtain ⟨rfl,ht⟩ := hfound
  rw [target?] at ht
  split at ht
  · obtain ⟨o,ho,rfl⟩ := Option.map_eq_some_iff.mp ht
    obtain ⟨s,hs,ho⟩ := Option.bind_eq_some_iff.mp ho
    have hside := List.find?_some ho
    rw [decide_eq_true_iff] at hside
    exact ⟨s,hs,o,List.mem_of_find?_eq_some ho,hside.1,rfl⟩
  · cases ht

end Profile

namespace PortProgram

variable {α : Type} {p : Profile} {s : StateSpec} {program rest : PortProgram α}
  {values values' : PortValues} {writes : List PortWrite}

/-- Carried out in a state, a program has made some writes and has a rest still to go. -/
inductive Reaches (s : StateSpec) (program : PortProgram α) (values : PortValues) :
    List PortWrite → PortProgram α → PortValues → Prop where
  | start : Reaches s program values [] program values
  | written {writes : List PortWrite} {name : String} {value : ParamValue}
      {next : Bool → PortProgram α} {values' values'' : PortValues}
      (hr : Reaches s program values writes (.write name value next) values')
      (hw : s.write? values' name value = some values'') :
      Reaches s program values (writes ++ [⟨name,value,true⟩]) (next true) values''
  | refused {writes : List PortWrite} {name : String} {value : ParamValue}
      {next : Bool → PortProgram α} {values' : PortValues}
      (hr : Reaches s program values writes (.write name value next) values')
      (hw : s.write? values' name value = none) :
      Reaches s program values (writes ++ [⟨name,value,false⟩]) (next false) values'
  | read {writes : List PortWrite} {name : String} {next : Option ParamValue → PortProgram α}
      {values' : PortValues} (hr : Reaches s program values writes (.read name next) values') :
      Reaches s program values writes (next (s.read? values' name)) values'

theorem Reaches.trans {first : List PortWrite} {middle : PortProgram α} {values'' : PortValues}
    (h₁ : Reaches s program values first middle values'')
    (h₂ : Reaches s middle values'' writes rest values') :
    Reaches s program values (first ++ writes) rest values' := by
  induction h₂ with
  | start =>
    rw [List.append_nil]
    exact h₁
  | written hr hw ih =>
    rw [← List.append_assoc]
    exact .written ih hw
  | refused hr hw ih =>
    rw [← List.append_assoc]
    exact .refused ih hw
  | read hr ih => exact .read ih

theorem reaches_run (s : StateSpec) (program : PortProgram α) (values : PortValues) :
    Reaches s program values (program.writes s values) (.done (program.run s values).1)
      (program.run s values).2 := by
  induction program generalizing values with
  | done result => exact .start
  | write name value next ih =>
    rw [writes,run]
    cases hw : s.write? values name value with
    | none => exact (Reaches.refused .start hw).trans (ih false values)
    | some written => exact (Reaches.written .start hw).trans (ih true written)
  | read name next ih => exact (Reaches.read .start).trans (ih _ values)

/-- The writes so far have made the port values, and they were answered by the ports that the state
declares. -/
theorem Reaches.replay (hs : p.state? s.id = some s)
    (hr : Reaches s program values writes rest values') :
    values' = p.replay (writes.map fun write => ⟨s.id,write⟩) values ∧
      ∀ w ∈ writes, w.written = (s.outputNamed? w.name).isSome := by
  induction hr with
  | start => exact ⟨rfl,by simp⟩
  | @written writes name value next values' values'' hr hw ih =>
    obtain ⟨port,hport,rfl⟩ := Option.map_eq_some_iff.mp hw
    obtain ⟨rfl,hwrites⟩ := ih
    have htarget : p.target? ⟨s.id,⟨name,value,true⟩⟩ = some port.id := by
      simp [Profile.target?,Profile.output?,hs,hport]
    constructor
    · rw [List.map_append,Profile.replay_append,List.map_singleton]
      simp only [Profile.replay,List.foldl_cons,List.foldl_nil,Profile.applyWrite,htarget]
    · exact List.forall_mem_append.mpr ⟨hwrites,by simp [hport]⟩
  | @refused writes name value next values' hr hw ih =>
    have hport : s.outputNamed? name = none := Option.map_eq_none_iff.mp hw
    obtain ⟨rfl,hwrites⟩ := ih
    constructor
    · rw [List.map_append,Profile.replay_append,List.map_singleton]
      exact (Profile.replay_refused (by simp)).symm
    · exact List.forall_mem_append.mpr ⟨hwrites,by simp [hport]⟩
  | read hr ih => exact ih

theorem Reaches.refused_writes (hr : Reaches s program values writes rest values')
    (hw : ∀ w ∈ writes, w.written = false) : values' = values := by
  induction hr with
  | start => rfl
  | written hr hw' ih =>
    have := hw ⟨_,_,true⟩ (List.mem_append_right _ List.mem_cons_self)
    cases this
  | refused hr hw' ih => exact ih fun w hm => hw w (List.mem_append_left _ hm)
  | read hr ih => exact ih hw

end PortProgram

end BehaviorMachine
