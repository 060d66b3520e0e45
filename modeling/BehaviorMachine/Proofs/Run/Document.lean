import BehaviorMachine.Host.Replay
import BehaviorMachine.Proofs.Host.Document
import BehaviorMachine.Proofs.Run.Observation

/-!
# Runs in documents

Statuses and changes of state are read back from their documents. Since profiles and scripts are read
back too, a run does not notice that its profile and its script went through documents
(`documents_lossless`).
-/
namespace BehaviorMachine

open Json

theorem SuspendReason.ofTagged?_toJson (r : SuspendReason) : ofTagged? r.toJson = some r := by
  cases r with
  | interrupt type => cases type <;> rfl
  | hostDenied => rfl

theorem SuspendReason.depth_toJson (r : SuspendReason) : r.toJson.depth ≤ 1 := by
  cases r with
  | interrupt type => exact Nat.le_refl 1
  | hostDenied => exact Nat.zero_le 1

namespace RunStatus

theorem ofJson?_toJson (s : RunStatus) : ofJson? s.toJson = some s := by
  cases s with
  | idle =>
    rw [ofJson?,toJson,members,tagged?_object (by simp) rfl]
    rfl
  | suspended reason =>
    have hr : readableMembers [("reason",reason.toJson)] = true := by
      cases reason <;> rfl
    rw [ofJson?,toJson,members,tagged?_object (by simp) hr]
    simp [label,fields?,field?,required,SuspendReason.ofTagged?_toJson]
  | terminated state =>
    rw [ofJson?,toJson,members,tagged?_object (by simp) rfl]
    simp [label,fields?,field?,required,Identifier.toJson,Identifier.ofJson?,asString?]

theorem depth_toJson (s : RunStatus) : s.toJson.depth ≤ 2 := by
  cases s with
  | idle => exact Nat.le_succ 1
  | suspended reason =>
    have hr := reason.depth_toJson
    simp only [toJson,members,depth,depthMembers]
    omega
  | terminated state => exact Nat.le_succ 1

theorem lossless (s : RunStatus) : Lossless toJson ofJson? s :=
  lossless_of_depth s.ofJson?_toJson (Nat.le_trans s.depth_toJson (by decide))

end RunStatus

theorem ChangeCause.ofJson?_toJson (c : ChangeCause) : ofJson? c.toJson = some c := by
  cases c with
  | transition id =>
    simp [ofJson?,toJson,kindAndPayload?,fields?,field?,unitName?,Identifier.toJson,
      Identifier.ofJson?,asString?]
  | interrupt type =>
    simp [ofJson?,toJson,kindAndPayload?,fields?,field?,unitName?,payloadFirst,InterruptType.toJson,
      InterruptType.ofJson?_spelling]

namespace StateChange

theorem ofJson?_toJson (c : StateChange) : ofJson? c.toJson = some c := by
  simp [ofJson?,toJson,fields?,field?,required,Identifier.toJson,Identifier.ofJson?,asString?,
    ChangeCause.ofJson?_toJson,Timestamp.ofJson?_toJson,ofUInt64,asUInt64?]

theorem depth_toJson (c : StateChange) : c.toJson.depth ≤ 2 := by
  have hcause : c.cause.toJson.depth ≤ 1 := by
    cases c.cause <;> exact Nat.le_refl 1
  have htime := SessionState.depth_timestamp c.time
  simp only [toJson,depth,depthMembers,depth_ofUInt64,Identifier.toJson]
  omega

theorem lossless (c : StateChange) : Lossless toJson ofJson? c :=
  lossless_of_depth c.ofJson?_toJson (Nat.le_trans c.depth_toJson (by decide))

end StateChange

/-- The run of a profile on a script: its outcome, the calls that it makes, and the host it leaves. -/
def replayed (budgets : Budgets) (session : Option SessionState) (p : Profile) (script : HostScript) :
    Option (RunOutcome × Observed Replay) :=
  (⟨p,budgets⟩ : Machine).run Replay.host.observed session (.start (Replay.start script))

/-- Documents keep what they are written from, in every layout, so the run of a profile on a script is
the run of what their documents are read as. -/
theorem documents_lossless :
    (∀ p, Lossless Profile.toJson Profile.ofJson? p) ∧
    (∀ s, Lossless HostScript.toJson HostScript.ofJson? s) ∧
    (∀ c, Lossless StateChange.toJson StateChange.ofJson? c) ∧
    (∀ e, Lossless HostEvent.toJson HostEvent.ofJson? e) ∧
    (∀ s, Lossless RunStatus.toJson RunStatus.ofJson? s) ∧
    ∀ (p : Profile) (script : HostScript) (layout layout' : Layout),
      ∃ p' script', (layout.reread p.toJson).bind Profile.ofJson? = some p' ∧
        (layout'.reread script.toJson).bind HostScript.ofJson? = some script' ∧
        ∀ budgets session, replayed budgets session p' script' = replayed budgets session p script := by
  refine ⟨Profile.lossless,HostScript.lossless,StateChange.lossless,HostEvent.lossless,
    RunStatus.lossless,?_⟩
  intro p script layout layout'
  exact ⟨p,script,p.lossless layout,script.lossless layout',fun _ _ => rfl⟩

end BehaviorMachine
