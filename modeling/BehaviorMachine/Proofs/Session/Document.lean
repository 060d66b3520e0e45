import BehaviorMachine.Proofs.Json.Nesting
import BehaviorMachine.Proofs.Json.Reading
import BehaviorMachine.Proofs.Json.Record
import BehaviorMachine.Proofs.Run.Token

/-!
# Sessions in documents

The document of a session keeps all of it but a token whose payload is null, for a null member stands
for no token. The text of the document keeps the session if moreover the payload is not nested too
deeply (`document_keeps_iff`), and every token that was read from a text is so (`keepsToken_of_read`).
-/
namespace BehaviorMachine

open Json

theorem Timestamp.ofJson?_toJson (t : Timestamp) : Timestamp.ofJson? t.toJson = some t := by
  cases t with
  | unixMillis millis =>
    have hf : (Timestamp.unixMillis millis).toJson.kindAndPayload? =
        some ("unix_millis",Json.ofInt64 millis) := by
      simp [toJson,kindAndPayload?,fields?,field?,unitName?]
    simp [ofJson?,hf,asInt64?_ofInt64]
  | logical millis =>
    have hf : (Timestamp.logical millis).toJson.kindAndPayload? =
        some ("logical",Json.ofUInt64 millis) := by
      simp [toJson,kindAndPayload?,fields?,field?,unitName?]
    simp [ofJson?,hf,ofUInt64,asUInt64?]

theorem ParamValue.ofJson?_toJson (v : ParamValue) : ParamValue.ofJson? v.toJson = some v := by
  cases v <;> rfl

theorem PortValues.ofJson?_toJson (values : PortValues) :
    PortValues.ofJson? values.toJson = some values :=
  asMap?_ofMap (asMap?_ofMap ParamValue.ofJson?_toJson) values

theorem HashDigest.ofJson?_toJson (d : HashDigest) : HashDigest.ofJson? d.toJson = some d := by
  simp [ofJson?,toJson,fields?,field?,required,asString?]

theorem HashDigest.toJson_ne_null (d : HashDigest) : d.toJson ≠ .null := by simp [toJson]

namespace ResumeToken

theorem ofJson?_payload (t : ResumeToken) : ofJson? t.payload = some t := by
  have hs : t.payload.sorted = t.payload := sorted_plain t.payload t.isPlain_payload
  simp [ofJson?,hs,t.isPlain_payload]

theorem optional_some {field : Option Json} {t : ResumeToken}
    (hf : Json.optional field ofJson? = some (some t)) :
    ∃ v, field = some v ∧ t.payload ≠ .null ∧ t.payload.depth ≤ v.depth := by
  unfold Json.optional at hf
  split at hf
  · cases hf
  · cases hf
  · next v hv =>
    obtain ⟨found,hfound,he⟩ := Option.map_eq_some_iff.mp hf
    cases he
    rw [ofJson?] at hfound
    split at hfound
    · cases hfound
      refine ⟨v,rfl,?_,depth_sorted v⟩
      intro hn
      cases v with
      | null => exact hv rfl
      | _ => cases hn
    · cases hfound

def isNull (t : ResumeToken) : Bool :=
  match t.payload with
  | .null => true
  | _ => false

theorem isNull_eq_true_iff {t : ResumeToken} : t.isNull = true ↔ t.payload = .null := by
  rw [isNull]
  cases t.payload <;> simp

end ResumeToken

namespace SessionState

def reloaded (s : SessionState) : SessionState :=
  { s with resumeToken := s.resumeToken.filter (!·.isNull) }

theorem fields_toJson (s : SessionState) :
    s.toJson.fields? ["currentStateId","enteredAt","ticksInState","subBehaviorComplete","resumeToken",
        "portValues","profileHash"] =
      some [some (Json.ofOption Identifier.toJson s.currentStateId),some s.enteredAt.toJson,
        some (Json.ofUInt64 s.ticksInState),some (.bool s.subBehaviorComplete),
        s.resumeToken.map ResumeToken.payload,some s.portValues.toJson,
        s.profileHash.map HashDigest.toJson] := by
  cases ht : s.resumeToken <;> cases hp : s.profileHash <;>
    simp [toJson,fields?,field?,present,ht,hp]

theorem optional_currentStateId (current : Option StateId) :
    Json.optional (some (Json.ofOption Identifier.toJson current)) Identifier.ofJson? =
      some current := by
  cases current <;> rfl

theorem optional_resumeToken (token : Option ResumeToken) :
    Json.optional (token.map ResumeToken.payload) ResumeToken.ofJson? =
      some (token.filter (!·.isNull)) := by
  cases token with
  | none => rfl
  | some t =>
    have hb := t.ofJson?_payload
    by_cases hn : t.payload = .null
    · have hdrop : (some t).filter (!·.isNull) = none := by
        simp [Option.filter_some,ResumeToken.isNull_eq_true_iff.mpr hn]
      rw [Option.map_some,hn,hdrop]
      rfl
    · have hkeep : (some t).filter (!·.isNull) = some t := by
        simp [Option.filter_some,ResumeToken.isNull_eq_true_iff,hn]
      rw [Option.map_some,hkeep,Json.optional,hb]
      · rfl
      · exact hn

theorem ofJson?_toJson (s : SessionState) : ofJson? s.toJson = some s.reloaded := by
  simp only [ofJson?,fields_toJson,Option.bind_eq_bind,Option.bind_some,optional_currentStateId,
    optional_resumeToken,optional_map HashDigest.ofJson?_toJson HashDigest.toJson_ne_null,
    required,defaulted,Timestamp.ofJson?_toJson,PortValues.ofJson?_toJson,ofUInt64,asUInt64?,asBool?]
  rfl

theorem reloaded_eq_iff {s : SessionState} :
    s.reloaded = s ↔ ∀ t, s.resumeToken = some t → t.payload ≠ .null := by
  obtain ⟨current,entered,ticks,complete,token,values,hash⟩ := s
  cases token with
  | none => simp [reloaded]
  | some t => simp [reloaded,Option.filter_some,← ResumeToken.isNull_eq_true_iff]

theorem depth_portValues (values : PortValues) : values.toJson.depth ≤ 2 := by
  have hv : ∀ v : ParamValue, v.toJson.depth ≤ 0 := by
    intro v
    cases v <;> exact Nat.le_refl 0
  exact depth_ofMap (depth_ofMap hv) values

theorem depth_timestamp (t : Timestamp) : t.toJson.depth = 1 := by
  cases t with
  | unixMillis millis =>
    have hm : (Json.ofInt64 millis).depth = 0 := by
      rw [ofInt64]
      split <;> rfl
    simp [Timestamp.toJson,depth,depthMembers,hm]
  | logical millis => rfl

/-- Only a token can nest a session deeply. -/
theorem depth_toJson {s : SessionState} {n : Nat} (hn : 2 ≤ n)
    (ht : ∀ t, s.resumeToken = some t → t.payload.depth ≤ n) : s.toJson.depth ≤ n + 1 := by
  have hcurrent : (Json.ofOption Identifier.toJson s.currentStateId).depth = 0 := by
    cases s.currentStateId <;> rfl
  have htoken : depthMembers (present "resumeToken" ResumeToken.payload s.resumeToken) ≤ n := by
    cases hs : s.resumeToken with
    | none => exact Nat.zero_le n
    | some t => exact Nat.max_le.mpr ⟨ht t hs,Nat.zero_le n⟩
  have hhash : depthMembers (present "profileHash" HashDigest.toJson s.profileHash) ≤ 1 := by
    cases s.profileHash with
    | none => exact Nat.zero_le 1
    | some d => exact Nat.le_refl 1
  have hvalues := depth_portValues s.portValues
  have hentered := depth_timestamp s.enteredAt
  have hticks : (Json.ofUInt64 s.ticksInState).depth = 0 := rfl
  have hcomplete : (Json.bool s.subBehaviorComplete).depth = 0 := rfl
  rw [toJson,depth]
  simp only [depthMembers_append,depthMembers]
  omega

def KeepsToken (s : SessionState) : Prop :=
  ∀ t, s.resumeToken = some t → t.payload ≠ .null ∧ t.payload.depth < nestingLimit

/-- A token that was read is not null, and it is nested less deeply than its document. -/
theorem token_of_ofJson? {v : Json} {s : SessionState} (hs : ofJson? v = some s) {t : ResumeToken}
    (ht : s.resumeToken = some t) : t.payload ≠ .null ∧ t.payload.depth < v.depth := by
  obtain ⟨fields,hfields,hs⟩ := Option.bind_eq_some_iff.mp hs
  split at hs
  · next token _ _ =>
    simp only [Option.bind_eq_bind,Option.bind_eq_some_iff] at hs
    obtain ⟨_,-,_,-,_,-,_,-,found,hfound,_,-,_,-,he⟩ := hs
    cases he
    cases ht
    obtain ⟨field,rfl,hnull,hdepth⟩ := ResumeToken.optional_some hfound
    have hlt : field.depth < v.depth := depth_fields? hfields (by simp)
    exact ⟨hnull,Nat.lt_of_le_of_lt hdepth hlt⟩
  · cases hs

theorem keepsToken_of_read {text : List Char} {s : SessionState}
    (hr : (readChars text).bind ofJson? = some s) : s.KeepsToken := by
  obtain ⟨v,hv,hs⟩ := Option.bind_eq_some_iff.mp hr
  intro t ht
  obtain ⟨hnull,hdepth⟩ := token_of_ofJson? hs ht
  exact ⟨hnull,Nat.lt_of_lt_of_le hdepth (depth_readChars hv)⟩

theorem KeepsToken.reloaded {s : SessionState} (hk : s.KeepsToken) : s.reloaded = s :=
  reloaded_eq_iff.mpr fun t ht => (hk t ht).1

theorem KeepsToken.depth_toJson {s : SessionState} (hk : s.KeepsToken) :
    s.toJson.depth ≤ nestingLimit :=
  SessionState.depth_toJson (n := nestingLimit - 1) (by decide) fun t ht => Nat.le_of_lt_succ (hk t ht).2

theorem read_write_iff {s : SessionState} :
    (readChars s.toJson.write).bind ofJson? = some s ↔ s.KeepsToken := by
  refine ⟨keepsToken_of_read,?_⟩
  intro hk
  rw [readChars_write hk.depth_toJson,Option.bind_some,ofJson?_toJson,hk.reloaded]

theorem read_printed_iff {s : SessionState} :
    (readChars (s.toJson.indented 0 ++ ['\n'])).bind ofJson? = some s ↔ s.KeepsToken := by
  refine ⟨keepsToken_of_read,?_⟩
  intro hk
  rw [readChars_printed hk.depth_toJson,Option.bind_some,ofJson?_toJson,hk.reloaded]

/-- A document stands for its session without a token of null. Its texts, on one line or on several,
keep the session exactly if the token is not null and not nested too deeply. -/
theorem document_keeps_iff (s : SessionState) :
    ofJson? s.toJson = some s.reloaded ∧
    (ofJson? s.toJson = some s ↔ ∀ t, s.resumeToken = some t → t.payload ≠ .null) ∧
    ((readChars s.toJson.write).bind ofJson? = some s ↔ s.KeepsToken) ∧
    ((readChars (s.toJson.indented 0 ++ ['\n'])).bind ofJson? = some s ↔ s.KeepsToken) := by
  refine ⟨s.ofJson?_toJson,?_,read_write_iff,read_printed_iff⟩
  rw [ofJson?_toJson,Option.some_inj]
  exact reloaded_eq_iff

theorem document_keeps_sentry :
    let s := atRest false (some (.ofStep 7))
    ofJson? s.toJson = some s ∧
      (readChars (s.toJson.indented 0 ++ ['\n'])).bind ofJson? = some s := by
  have hk : (atRest false (some (.ofStep 7))).KeepsToken := by
    intro t ht
    cases ht
    exact ⟨by simp [ResumeToken.ofStep],by decide⟩
  obtain ⟨-,hvalue,-,htext⟩ := document_keeps_iff (atRest false (some (.ofStep 7)))
  exact ⟨hvalue.mpr fun t ht => (hk t ht).1,htext.mpr hk⟩

open Machine Replay in
/-- A token of null is handed to the behavior that resumes, but is not there any more after the session
was written and read. -/
theorem null_token_lost :
    let s := atRest false (some ⟨.null,rfl⟩)
    let handed (session : Option SessionState) :=
      (sentry.step Replay.host.observed (sentry.begin Replay.host.observed session
        (.start guardhouse))).2.host.calls.filterMap Call.token?
    ofJson? s.toJson = some (atRest false none) ∧ ofJson? s.toJson ≠ some s ∧
      (handed (some s)).map (·.map ResumeToken.isNull) = [some true] ∧
      (handed (ofJson? s.toJson)).map (·.map ResumeToken.isNull) = [none] := by
  have hd : ofJson? (atRest false (some ⟨.null,rfl⟩)).toJson = some (atRest false none) := rfl
  refine ⟨hd,?_,?_,?_⟩
  · rw [hd]
    intro he
    cases he
  · decide +kernel
  · rw [hd]
    decide +kernel

end SessionState

end BehaviorMachine
