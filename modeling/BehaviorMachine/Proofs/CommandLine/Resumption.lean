import BehaviorMachine.Proofs.Checks
import BehaviorMachine.Proofs.CommandLine.Work
import BehaviorMachine.Proofs.Run.Handover
import BehaviorMachine.Proofs.Session.Document
import Mathlib.Tactic.Linarith

/-!
# Resuming from a file

A simulation goes on from the session that another one has left in a file.
-/
namespace BehaviorMachine

open Json

theorem size_toUTF8 (text : List Char) : (String.ofList text).toUTF8.size = String.utf8Len text :=
  String.utf8ByteSize_ofList text

theorem documentOf_text {α : Type} {kind : DocumentKind} {limit : Nat} {read : Json → Option α}
    {text : List Char} {document : Json} {a : α} (path : String)
    (ht : readChars text = some document) (hr : read document = some a)
    (hs : (String.ofList text).toUTF8.size ≤ limit) :
    documentOf kind limit read path (.bytes (String.ofList text).toUTF8) = .ok a := by
  rw [documentOf,if_neg (Nat.not_lt.mpr hs),readBytes?_toUTF8,ht,Option.bind_some,hr]

theorem documentOf_printed {α : Type} {kind : DocumentKind} {limit : Nat} {read : Json → Option α}
    {document : Json} {a : α} (path : String) (hd : document.depth ≤ nestingLimit)
    (hr : read document = some a) (hs : (printedDocument document).toUTF8.size ≤ limit) :
    documentOf kind limit read path (.bytes (printedDocument document).toUTF8) = .ok a :=
  documentOf_text path (readChars_printed hd) hr hs

theorem documentOf_tooLarge {α : Type} (kind : DocumentKind) {limit : Nat} (read : Json → Option α)
    (path : String) {content : ByteArray} (hs : limit < content.size) :
    documentOf kind limit read path (.bytes content) =
      .error (.tooLarge kind path content.size limit) := by
  rw [documentOf,if_pos hs]

theorem keepsToken_of_documentOf {limit : Nat} {path : String} {content : FileContent}
    {s : SessionState}
    (hd : documentOf .session limit SessionState.ofJson? path content = .ok s) : s.KeepsToken := by
  unfold documentOf at hd
  split at hd
  · cases hd
  · cases hd
  · split at hd
    · cases hd
    · split at hd
      · next hr =>
        cases hd
        exact SessionState.keepsToken_of_read hr
      · cases hd

theorem keepsToken_of_storedSession {content : FilePath → FileContent} {path : Option String}
    {s : SessionState} (hs : storedSession content path = .ok (some s)) : s.KeepsToken := by
  cases path with
  | none => cases hs
  | some path =>
    rw [storedSession] at hs
    cases hd : documentOf .session maxSessionBytes SessionState.ofJson? path (content path) with
    | error e =>
      rw [hd] at hs
      cases hs
    | ok found =>
      rw [hd] at hs
      cases hs
      exact keepsToken_of_documentOf hd

theorem Replay.pause_keepsToken {b : ScriptedBehavior} {r : Replay} {t : ResumeToken}
    (ht : (Replay.host.pause b r).1 = some t) : t.payload ≠ .null ∧ t.payload.depth < nestingLimit := by
  cases ht
  have hd : (ResumeToken.ofStep b.steps).payload.depth = 1 := rfl
  exact ⟨by simp [ResumeToken.ofStep],by rw [hd]; decide⟩

/-- A simulation from a session that was read leaves a session that documents keep. -/
theorem handover_simulate {m : Machine} {script : HostScript} {content : FilePath → FileContent}
    {path : Option String} {stored : Option SessionState} {report : SimulationReport}
    (hs : storedSession content path = .ok stored) (hr : m.simulate script stored = some report) :
    report.outcome.session.Handover fun t => t.payload ≠ .null ∧ t.payload.depth < nestingLimit := by
  obtain ⟨⟨o,r⟩,hrun,he⟩ := Option.map_eq_some_iff.mp hr
  cases he
  refine Machine.run_handover (fun _ _ _ => Replay.pause_keepsToken) ?_ hrun
  rintro s t rfl ht
  exact keepsToken_of_storedSession hs t ht

structure Documents (settings : Settings) (profilePath scriptPath : String)
    (content : FilePath → FileContent) (p : Profile) (script : HostScript) : Prop where
  profile : documentOf .profile settings.maxProfileBytes.toNat Profile.ofJson? profilePath
    (content profilePath) = .ok p
  valid : settings.strictValidation = true → checkProfile p = .ok ()
  script : documentOf .script maxScriptBytes HostScript.ofJson? scriptPath (content scriptPath) =
    .ok script

variable {settings : Settings} {profilePath scriptPath path : String}
  {content content' : FilePath → FileContent} {p : Profile} {script : HostScript}

theorem Documents.congr (hd : Documents settings profilePath scriptPath content p script)
    (hp : content' profilePath = content profilePath)
    (hs : content' scriptPath = content scriptPath) :
    Documents settings profilePath scriptPath content' p script where
  profile := by rw [hp]; exact hd.profile
  valid := hd.valid
  script := by rw [hs]; exact hd.script

theorem Documents.simulated_eq (hd : Documents settings profilePath scriptPath content p script)
    (sessionPath : Option String) : simulated settings profilePath scriptPath sessionPath content =
      storedSession content sessionPath >>= reported ⟨p,settings.budgets⟩ script := by
  rw [simulated,hd.profile]
  change (if settings.strictValidation then _ else _) = _
  split
  · next hv =>
    rw [hd.valid hv,hd.script]
    rfl
  · rw [hd.script]
    rfl

theorem reported_eq_ok {m : Machine} {stored : Option SessionState} {report : SimulationReport} :
    reported m script stored = .ok report ↔ m.simulate script stored = some report := by
  rw [reported]
  cases m.simulate script stored <;> simp

theorem simulated_ok {sessionPath : Option String} {report : SimulationReport}
    (hs : simulated settings profilePath scriptPath sessionPath content = .ok report) :
    ∃ p script stored, Documents settings profilePath scriptPath content p script ∧
      storedSession content sessionPath = .ok stored ∧
      (Machine.mk p settings.budgets).simulate script stored = some report := by
  have hrest {p : Profile} (hr : (do
      let script ← documentOf .script maxScriptBytes HostScript.ofJson? scriptPath (content scriptPath)
      let session ← storedSession content sessionPath
      reported ⟨p,settings.budgets⟩ script session) = .ok report) : ∃ script stored,
      documentOf .script maxScriptBytes HostScript.ofJson? scriptPath (content scriptPath) = .ok script ∧
      storedSession content sessionPath = .ok stored ∧
      (Machine.mk p settings.budgets).simulate script stored = some report := by
    obtain ⟨script,hscript,hr⟩ := bind_eq_ok.mp hr
    obtain ⟨stored,hstored,hr⟩ := bind_eq_ok.mp hr
    exact ⟨script,stored,hscript,hstored,reported_eq_ok.mp hr⟩
  obtain ⟨p,hp,hs⟩ := bind_eq_ok.mp hs
  by_cases hv : settings.strictValidation = true
  · simp only [if_pos hv] at hs
    obtain ⟨_,hvalid,hs⟩ := bind_eq_ok.mp hs
    obtain ⟨script,stored,hscript,hstored,hr⟩ := hrest hs
    exact ⟨p,script,stored,⟨hp,fun _ => hvalid,hscript⟩,hstored,hr⟩
  · simp only [if_neg hv] at hs
    obtain ⟨script,stored,hscript,hstored,hr⟩ := hrest hs
    exact ⟨p,script,stored,⟨hp,fun h => absurd h hv,hscript⟩,hstored,hr⟩

/-- How simulations go on from a session whose document was written to a file. -/
structure Resumable (settings : Settings) (m : Machine) (script : HostScript) (s : SessionState)
    (profilePath scriptPath path : String) (t : FileTree) : Prop where
  found : t.read path = .bytes (printedDocument s.toJson).toUTF8
  read : (printedDocument s.toJson).toUTF8.size ≤ maxSessionBytes →
    (readDocument .session maxSessionBytes SessionState.ofJson? path).runOn t = (.ok s,t)
  resumed : (printedDocument s.toJson).toUTF8.size ≤ maxSessionBytes →
    (simulate settings profilePath scriptPath (some path)).runOn t = (reported m script (some s),t)
  begins : ∀ r, (m.begin Replay.host (some s) r).session = s
  refused : maxSessionBytes < (printedDocument s.toJson).toUTF8.size →
    (simulate settings profilePath scriptPath (some path)).runOn t =
      (.error (.tooLarge .session path (printedDocument s.toJson).toUTF8.size maxSessionBytes),t)

/-- A run may begin with a session if its document keeps it and it has a digest. -/
theorem resumable {t : FileTree} {s : SessionState}
    (hd : Documents settings profilePath scriptPath t.read p script) (hkeeps : s.KeepsToken)
    (hdigest : s.profileHash.isSome)
    (hf : t.read path = .bytes (printedDocument s.toJson).toUTF8) :
    Resumable settings ⟨p,settings.budgets⟩ script s profilePath scriptPath path t := by
  have hread : SessionState.ofJson? s.toJson = some s := by
    rw [SessionState.ofJson?_toJson,hkeeps.reloaded]
  refine ⟨hf,?_,?_,?_,?_⟩
  · intro hsize
    rw [runOn_readDocument,hf,documentOf_printed path hkeeps.depth_toJson hread hsize]
  · intro hsize
    rw [simulate_runOn,hd.simulated_eq,storedSession,hf,
      documentOf_printed path hkeeps.depth_toJson hread hsize]
    rfl
  · intro r
    exact Machine.resumedSession_eq _ hdigest
  · intro hsize
    rw [simulate_runOn,hd.simulated_eq,storedSession,hf,documentOf_tooLarge .session _ path hsize]
    rfl

/-- A simulation that succeeds has written its session, from which any later simulation of the same
profile with the same script goes on, whatever its settings. If the file is not too large, the session
is read and the run begins with it as it was; a larger file is refused, with its size and the limit.
Where the session has a file of its own, the same command can follow at once. -/
theorem simulate_leavesResumable {environment config sessionPath : Option String}
    {profilePath scriptPath path : String} {t t' : FileTree} {printed : Printed}
    (hrun : (Invocation.perform environment
      (.command config (.simulate profilePath scriptPath sessionPath (some path)))).run t = (printed,t'))
    (hok : printed.exitCode = 0) :
    ∃ settings p script stored report,
      (loadSettings config environment).runOn t = (.ok settings,t) ∧
      Documents settings profilePath scriptPath t.read p script ∧
      storedSession t.read sessionPath = .ok stored ∧
      (Machine.mk p settings.budgets).simulate script stored = some report ∧
      printed = ⟨0,printedDocument report.toJson,""⟩ ∧
      (∀ settings' profilePath' scriptPath' later, later.read path = t'.read path →
        Documents settings' profilePath' scriptPath' later.read p script →
        Resumable settings' ⟨p,settings'.budgets⟩ script report.outcome.session profilePath'
          scriptPath' path later) ∧
      ((∀ other ∈ [(Settings.choosePath (config.map .ofString) environment).1,profilePath,scriptPath],
          t.place? other ≠ t.place? path) →
        (loadSettings config environment).runOn t' = (.ok settings,t') ∧
        Documents settings profilePath scriptPath t'.read p script) := by
  rw [perform_command,Work.runOn_bind,loadSettings_runOn (rfl : t.read _ = t.read _)] at hrun
  rcases hsettings : ((loadSettings config environment).runOn t).1 with e | settings
  · simp only [hsettings,Prod.mk.injEq] at hrun
    rw [← hrun.1] at hok
    cases hok
  simp only [hsettings] at hrun
  rcases hreport : simulated settings profilePath scriptPath sessionPath t.read with e | report
  · simp only [perform_simulate_error hreport,Prod.mk.injEq] at hrun
    rw [← hrun.1] at hok
    cases hok
  rw [perform_simulate_ok hreport] at hrun
  rcases hwrite : t.write? path (printedDocument report.outcome.session.toJson).toUTF8
    with _ | written
  · simp only [hwrite,Prod.mk.injEq] at hrun
    rw [← hrun.1] at hok
    cases hok
  simp only [hwrite,Prod.mk.injEq] at hrun
  obtain ⟨rfl,rfl⟩ := hrun
  obtain ⟨p,script,stored,hd,hstored,hr⟩ := simulated_ok hreport
  refine ⟨settings,p,script,stored,report,?_,hd,hstored,hr,rfl,?_,?_⟩
  · rw [loadSettings_runOn (rfl : t.read _ = t.read _),hsettings]
  · intro settings' profilePath' scriptPath' later hlater hd'
    have hhandover := handover_simulate hstored hr
    exact resumable hd' hhandover.token hhandover.digest (hlater.trans (FileTree.read_write hwrite))
  · intro hapart
    have hsame := fun other hm => FileTree.read_write_other hwrite (hapart other hm)
    refine ⟨?_,hd.congr (hsame profilePath (by simp)) (hsame scriptPath (by simp))⟩
    rw [loadSettings_runOn (hsame _ List.mem_cons_self),hsettings]

/-! A simulation of the sentry in a directory of its own. -/

/-- A script for a sentry at rest, who is granted no tick. -/
def HostScript.curfew : HostScript :=
  { HostScript.empty with
    maxTicks := 0
    behaviors := NameMap.insert ∅ "rest" ⟨none,none,[],[]⟩ }

/-- A directory with the profile of the sentry, his script, and a session. -/
def FileTree.guardroom (s : SessionState) : FileTree where
  files := [([(FilePath.ofString "profile.json").bytes],
      (printedDocument Machine.sentry.profile.toJson).toUTF8),
    ([(FilePath.ofString "script.json").bytes],(printedDocument HostScript.curfew.toJson).toUTF8),
    ([(FilePath.ofString "session.json").bytes],(String.ofList s.toJson.write).toUTF8)]
  workingDirectory := []

namespace FileTree

theorem guardroom_place (s : SessionState) : ∀ name ∈ ["profile.json","script.json","session.json",
    "out.json","behavior-profile.toml"],
    (guardroom s).place? name = some [(FilePath.ofString name).bytes] := by
  intro name hm
  apply place?_name <;> decide +kernel +revert

theorem guardroom_read (s : SessionState) :
    (guardroom s).read "profile.json" =
      .bytes (printedDocument Machine.sentry.profile.toJson).toUTF8 ∧
    (guardroom s).read "script.json" = .bytes (printedDocument HostScript.curfew.toJson).toUTF8 ∧
    (guardroom s).read "session.json" = .bytes (String.ofList s.toJson.write).toUTF8 ∧
    (guardroom s).read "behavior-profile.toml" = .missing := by
  have hp := guardroom_place s
  simp only [List.forall_mem_cons] at hp
  obtain ⟨hprofile,hscript,hsession,-,hsettings,-⟩ := hp
  simp only [read,hprofile,hscript,hsession,hsettings]
  simp [guardroom,isDirectory]

theorem guardroom_settings (s : SessionState) :
    (loadSettings none none).runOn (guardroom s) = (.ok Settings.default,guardroom s) := by
  have hmissing := (guardroom_read s).2.2.2
  have hdefault := Settings.load_eq_ok.mpr (.inl ⟨rfl,rfl,rfl,hmissing⟩)
  rw [runOn_loadSettings,Option.map_none,hdefault]
  rfl

theorem guardroom_documents (s : SessionState) : Documents Settings.default "profile.json" "script.json"
    (guardroom s).read Machine.sentry.profile HostScript.curfew := by
  obtain ⟨hprofile,hscript,-,-⟩ := guardroom_read s
  refine ⟨?_,fun hv => (nomatch hv),?_⟩
  · rw [hprofile]
    refine documentOf_printed _ (by decide) rfl ?_
    rw [printedDocument,size_toUTF8]
    decide +kernel
  · rw [hscript]
    refine documentOf_printed _ (by decide) rfl ?_
    rw [printedDocument,size_toUTF8]
    decide +kernel

theorem guardroom_session {s : SessionState} (hk : s.KeepsToken)
    (hs : String.utf8Len s.toJson.write ≤ maxSessionBytes) :
    storedSession (guardroom s).read (some "session.json") = .ok (some s) := by
  have hread : SessionState.ofJson? s.toJson = some s := by
    rw [SessionState.ofJson?_toJson,hk.reloaded]
  rw [storedSession,(guardroom_read s).2.2.1,
    documentOf_text _ (readChars_write hk.depth_toJson) hread (by rw [size_toUTF8]; exact hs)]
  rfl

theorem guardroom_simulate {s : SessionState} {report : SimulationReport} (hk : s.KeepsToken)
    (hs : String.utf8Len s.toJson.write ≤ maxSessionBytes)
    (hr : (Machine.mk Machine.sentry.profile Settings.default.budgets).simulate .curfew (some s) =
      some report) :
    ∃ t', (Invocation.perform none (.command none (.simulate "profile.json" "script.json"
        (some "session.json") (some "out.json")))).run (guardroom s) =
          (⟨0,printedDocument report.toJson,""⟩,t') ∧
      t'.read "out.json" = .bytes (printedDocument report.outcome.session.toJson).toUTF8 ∧
      ∀ other ∈ ["behavior-profile.toml","profile.json","script.json"],
        t'.read other = (guardroom s).read other := by
  have hreport : simulated Settings.default "profile.json" "script.json" (some "session.json")
      (guardroom s).read = .ok report := by
    rw [(guardroom_documents s).simulated_eq,guardroom_session hk hs]
    exact reported_eq_ok.mpr hr
  have hplace := guardroom_place s
  have hwrite : ∃ t', (guardroom s).write? "out.json"
      (printedDocument report.outcome.session.toJson).toUTF8 = some t' := by
    rw [write?,hplace _ (by simp)]
    simp [guardroom,isDirectory]
  obtain ⟨t',hwrite⟩ := hwrite
  have hdone := perform_simulate_ok hreport "out.json"
  rw [hwrite] at hdone
  refine ⟨t',perform_command_ok (guardroom_settings s) hdone,read_write hwrite,?_⟩
  intro other hm
  apply read_write_other hwrite
  rw [hplace "out.json" (by simp)]
  simp only [List.mem_cons,List.not_mem_nil,or_false] at hm
  rcases hm with rfl | rfl | rfl
  · rw [hplace _ (by simp)]
    simp
  · rw [hplace _ (by simp)]
    simp
  · rw [hplace _ (by simp)]
    simp

end FileTree

open FileTree Machine in
theorem simulate_leavesResumable_guardroom :
    let s := { SessionState.atRest false (some (.ofStep 7)) with profileHash := some ⟨"sha256","0"⟩ }
    ∃ printed t' report,
      (Invocation.perform none (.command none (.simulate "profile.json" "script.json"
        (some "session.json") (some "out.json")))).run (guardroom s) = (printed,t') ∧
      printed.exitCode = 0 ∧
      (Machine.mk sentry.profile Settings.default.budgets).simulate .curfew (some s) = some report ∧
      report.outcome.session.resumeToken.bind ResumeToken.step? = some 8 ∧
      (simulate Settings.default "profile.json" "script.json" (some "out.json")).runOn t' =
        (reported ⟨sentry.profile,Settings.default.budgets⟩ .curfew (some report.outcome.session),t') := by
  intro s
  have hk : s.KeepsToken := by
    intro t ht
    cases ht
    exact ⟨by simp [ResumeToken.ofStep],by decide⟩
  have hrun := run_of_lasts ⟨sentry.profile,Settings.default.budgets⟩ Replay.host (some s)
    ((Replay.start .curfew).startingAt (simulationStart .curfew (some s))) 0 (.suspended .hostDenied)
    (by decide +kernel) (by decide +kernel)
  have hr := congrArg (Option.map fun (r : RunOutcome × Replay) =>
    SimulationReport.mk r.1 r.2.tick r.2.events) hrun
  obtain ⟨t',ht',-,hsame⟩ := guardroom_simulate hk (by decide +kernel) hr
  obtain ⟨settings,p,script,stored,report,hsettings,hd,hstored,hreport,-,hlater,-⟩ :=
    simulate_leavesResumable ht' rfl
  -- there is only one report, as all that was read is known
  rw [guardroom_settings] at hsettings
  cases hsettings
  have hdocuments := guardroom_documents s
  cases hd.profile.symm.trans hdocuments.profile
  cases hd.script.symm.trans hdocuments.script
  cases hstored.symm.trans (guardroom_session hk (by decide +kernel))
  cases hreport.symm.trans hr
  have hlater := hlater Settings.default "profile.json" "script.json" t' rfl
    (hdocuments.congr (hsame _ (by simp)) (hsame _ (by simp)))
  refine ⟨_,t',_,ht',rfl,hr,by decide +kernel,hlater.resumed ?_⟩
  rw [printedDocument,size_toUTF8]
  decide +kernel

/-- An idle session that holds a text. -/
def SessionState.hoard (text : String) : SessionState :=
  { SessionState.start none (.logical 0) with
    portValues := NameMap.insert ∅ "watch" (NameMap.insert ∅ "sight" (.text text))
    profileHash := some ⟨"sha256","0"⟩ }

namespace SessionState

open String

theorem toJson_hoard (text : String) : (hoard text).toJson = .object [("currentStateId",.null),
    ("enteredAt",.object [("kind",.string "logical"),("value",.number (.natural 0))]),
    ("ticksInState",.number (.natural 0)),("subBehaviorComplete",.bool false),
    ("portValues",.object [("watch",.object [("sight",.string text)])]),
    ("profileHash",.object [("algorithm",.string "sha256"),("value",.string "0")])] := rfl

theorem utf8Len_write_hoard (text : String) :
    utf8Len (hoard text).toJson.write = utf8Len (writeString text) + 192 := by
  have hempty : utf8Len (hoard "").toJson.write = 194 := by decide +kernel
  have hquotes : utf8Len (writeString "") = 2 := by decide
  rw [toJson_hoard] at hempty ⊢
  simp only [write,writeMembers,separated,writeLeaf,utf8Len_append,utf8Len_cons,utf8Len_nil,
    List.cons_append,hquotes] at hempty ⊢
  linarith only [hempty]

theorem utf8Len_printed_hoard (text : String) :
    utf8Len ((hoard text).toJson.indented 0 ++ ['\n']) = utf8Len (writeString text) + 270 := by
  have hempty : utf8Len ((hoard "").toJson.indented 0 ++ ['\n']) = 272 := by decide +kernel
  have hquotes : utf8Len (writeString "") = 2 := by decide
  rw [toJson_hoard] at hempty ⊢
  simp only [indented,indentedMembers,block,separated,writeLeaf,List.isEmpty_cons,Bool.false_eq_true,
    if_false,utf8Len_append,utf8Len_cons,utf8Len_nil,List.cons_append,hquotes] at hempty ⊢
  linarith only [hempty]

theorem utf8Len_writeString_replicate (n : Nat) :
    utf8Len (writeString (.ofList (List.replicate n 'x'))) = n + 2 := by
  have hx : utf8Len ((List.replicate n 'x').flatMap writeChar) = n := by
    induction n with
    | zero => rfl
    | succ n ih =>
      rw [List.replicate_succ,List.flatMap_cons,utf8Len_append,ih,Nat.add_comm]
      rfl
  rw [writeString,utf8Len_append,utf8Len_cons,String.toList_ofList,hx]
  rfl

theorem keepsToken_hoard (text : String) : (hoard text).KeepsToken := by
  intro t ht
  cases ht

theorem simulate_hoard (m : Machine) (script : HostScript) (text : String) : ∃ report,
    m.simulate script (some (hoard text)) = some report ∧ report.outcome.session = hoard text := by
  have hc (r : Replay) : m.currentState? (m.begin Replay.host (some (hoard text)) r).session = none :=
    rfl
  exact ⟨_,congrArg (Option.map _) (Machine.run_unresolved (hc _)),rfl⟩

end SessionState

open FileTree Machine SessionState

theorem hoard_refused {n : Nat} (hline : n + 194 ≤ maxSessionBytes)
    (hlines : maxSessionBytes < n + 272) :
    let s := hoard (.ofList (List.replicate n 'x'))
    ∃ printed t',
      (Invocation.perform none (.command none (.simulate "profile.json" "script.json"
        (some "session.json") (some "out.json")))).run (guardroom s) = (printed,t') ∧
      printed.exitCode = 0 ∧
      t'.read "out.json" = .bytes (printedDocument s.toJson).toUTF8 ∧
      (∀ other ∈ ["behavior-profile.toml","profile.json","script.json"],
        t'.read other = (guardroom s).read other) ∧
      (Invocation.perform none (.command none (.simulate "profile.json" "script.json"
        (some "out.json") none))).run t' =
        (⟨1,"",(CommandError.tooLarge .session "out.json" (n+272) maxSessionBytes).message ++ "\n"⟩,
          t') := by
  intro s
  have hinput : String.utf8Len s.toJson.write ≤ maxSessionBytes := by
    rw [utf8Len_write_hoard,utf8Len_writeString_replicate]
    omega
  have hsize : (printedDocument s.toJson).toUTF8.size = n+272 := by
    rw [printedDocument,size_toUTF8,utf8Len_printed_hoard,utf8Len_writeString_replicate]
  obtain ⟨report,hr,hs⟩ := simulate_hoard ⟨sentry.profile,Settings.default.budgets⟩ .curfew
    (.ofList (List.replicate n 'x'))
  obtain ⟨t',hrun,hfound,hsame⟩ := guardroom_simulate (keepsToken_hoard _) hinput hr
  rw [hs] at hfound
  have hdocuments := (guardroom_documents s).congr (hsame _ (by simp)) (hsame _ (by simp))
  have hrefused : simulated Settings.default "profile.json" "script.json" (some "out.json") t'.read =
      .error (.tooLarge .session "out.json" (n+272) maxSessionBytes) := by
    rw [hdocuments.simulated_eq,storedSession,hfound,
      documentOf_tooLarge .session _ "out.json" (by rw [hsize]; exact hlines),hsize]
    rfl
  have hsettings : (loadSettings none none).runOn t' = (.ok Settings.default,t') := by
    rw [loadSettings_runOn (hsame _ List.mem_cons_self),guardroom_settings]
  exact ⟨_,t',hrun,rfl,hfound,hsame,
    perform_command_error hsettings (perform_simulate_error hrefused none)⟩

theorem session_outgrows_limit :
    let s := hoard (.ofList (List.replicate 1048376 'x'))
    ∃ printed t',
      (Invocation.perform none (.command none (.simulate "profile.json" "script.json"
        (some "session.json") (some "out.json")))).run (guardroom s) = (printed,t') ∧
      printed.exitCode = 0 ∧
      t'.read "out.json" = .bytes (printedDocument s.toJson).toUTF8 ∧
      (∀ other ∈ ["behavior-profile.toml","profile.json","script.json"],
        t'.read other = (guardroom s).read other) ∧
      (Invocation.perform none (.command none (.simulate "profile.json" "script.json"
        (some "out.json") none))).run t' =
        (⟨1,"","failed to read session out.json: file is 1048648 bytes, limit is 1048576\n"⟩,t') := by
  have hmessage : (CommandError.tooLarge .session "out.json" (1048376+272) maxSessionBytes).message ++
      "\n" = "failed to read session out.json: file is 1048648 bytes, limit is 1048576\n" := by
    decide +kernel
  rw [← hmessage]
  exact hoard_refused (by decide) (by decide)

end BehaviorMachine
