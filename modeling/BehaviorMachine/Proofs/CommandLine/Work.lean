import BehaviorMachine.CommandLine.Execution
import BehaviorMachine.Proofs.Settings.Loading

/-!
# Work on a tree of files

What work gives on a tree of files, and the tree that it leaves. A simulation only reads: what it
gives depends on the contents of its files (`simulate_runOn`).
-/
namespace BehaviorMachine

namespace Work

variable {α γ : Type} {t t' : FileTree} {w : Work α} {f : α → Work γ}

/-- What work gives on a tree of files, and the tree that it leaves. -/
def runOn (w : Work α) (t : FileTree) : Except CommandError α × FileTree := w.run.run t

theorem runOn_bind (w : Work α) (f : α → Work γ) (t : FileTree) : (w >>= f).runOn t =
    match w.runOn t with
    | (.ok a,t') => (f a).runOn t'
    | (.error e,t') => (.error e,t') := by
  have hb : (w >>= f).runOn t = (w.run.bind (ExceptT.bindCont f)).run t := rfl
  rw [hb,FileProgram.run_bind,runOn]
  rcases w.run.run t with ⟨_|_,t'⟩ <;> rfl

theorem reads_bind {result : Except CommandError α} {g : α → Except CommandError γ}
    (hw : w.runOn t = (result,t)) (hf : ∀ a, (f a).runOn t = (g a,t)) :
    (w >>= f).runOn t = (result >>= g,t) := by
  rw [runOn_bind,hw]
  cases result with
  | error e => rfl
  | ok a => exact hf a

theorem reads_map {result : Except CommandError α} (hw : w.runOn t = (result,t)) (g : α → γ) :
    (g <$> w).runOn t = (result.map g,t) := by
  cases result with
  | error e => exact reads_bind (g := fun a => .ok (g a)) hw fun _ => rfl
  | ok a => exact reads_bind (g := fun a => .ok (g a)) hw fun _ => rfl

end Work

theorem runOn_readDocument {α : Type} (kind : DocumentKind) (limit : Nat) (read : Json → Option α)
    (path : String) (t : FileTree) : (readDocument kind limit read path).runOn t =
      (documentOf kind limit read path (t.read path),t) := rfl

def storedSession (content : FilePath → FileContent) :
    Option String → Except CommandError (Option SessionState)
  | none => .ok none
  | some path =>
    (documentOf .session maxSessionBytes SessionState.ofJson? path (content path)).map some

def reported (m : Machine) (script : HostScript) (session : Option SessionState) :
    Except CommandError SimulationReport :=
  match m.simulate script session with
  | some report => .ok report
  | none => .error (.endless m.profile.id)

/-- What a simulation gives by the contents of the files that it reads. -/
def simulated (settings : Settings) (profilePath scriptPath : String) (sessionPath : Option String)
    (content : FilePath → FileContent) : Except CommandError SimulationReport := do
  let p ← documentOf .profile settings.maxProfileBytes.toNat Profile.ofJson? profilePath
    (content profilePath)
  if settings.strictValidation then checkProfile p
  let script ← documentOf .script maxScriptBytes HostScript.ofJson? scriptPath (content scriptPath)
  let session ← storedSession content sessionPath
  reported ⟨p,settings.budgets⟩ script session

theorem simulate_runOn (settings : Settings) (profilePath scriptPath : String)
    (sessionPath : Option String) (t : FileTree) :
    (simulate settings profilePath scriptPath sessionPath).runOn t =
      (simulated settings profilePath scriptPath sessionPath t.read,t) := by
  have hreport (p : Profile) (script : HostScript) (session : Option SessionState) :
      (match (Machine.mk p settings.budgets).simulate script session with
        | some report => return report
        | none => throw (.endless p.id) : Work SimulationReport).runOn t =
        (reported ⟨p,settings.budgets⟩ script session,t) := by
    rw [reported]
    cases (Machine.mk p settings.budgets).simulate script session <;> rfl
  have hrest (p : Profile) : (do
      let script ← readDocument .script maxScriptBytes HostScript.ofJson? scriptPath
      let session ←
        match sessionPath with
        | none => pure none
        | some path => some <$> readDocument .session maxSessionBytes SessionState.ofJson? path
      match (Machine.mk p settings.budgets).simulate script session with
      | some report => return report
      | none => throw (.endless p.id) : Work SimulationReport).runOn t = (do
      let script ← documentOf .script maxScriptBytes HostScript.ofJson? scriptPath (t.read scriptPath)
      let session ← storedSession t.read sessionPath
      reported ⟨p,settings.budgets⟩ script session,t) := by
    refine Work.reads_bind (runOn_readDocument ..) fun script => ?_
    cases sessionPath with
    | none => exact Work.reads_bind rfl (hreport p script)
    | some path => exact Work.reads_bind (Work.reads_map (runOn_readDocument ..) some) (hreport p script)
  refine Work.reads_bind (runOn_readDocument ..) fun p => ?_
  by_cases hs : settings.strictValidation = true
  · simp only [if_pos hs]
    exact Work.reads_bind rfl fun _ => hrest p
  · simp only [if_neg hs]
    exact hrest p

theorem runOn_loadSettings (argument environment : Option String) (t : FileTree) :
    (loadSettings argument environment).runOn t =
      (((Settings.load (argument.map .ofString) environment).answer t.read).mapError .settings,t) := by
  have hrun : (loadSettings argument environment).runOn t =
      ((Settings.load (argument.map .ofString) environment).bind fun loaded =>
        .done (loaded.mapError .settings)).run t := rfl
  rw [hrun,FileProgram.run_bind,Settings.load_run]
  rfl

theorem loadSettings_runOn {argument environment : Option String} {t t' : FileTree}
    (hs : t'.read (Settings.choosePath (argument.map .ofString) environment).1 =
      t.read (Settings.choosePath (argument.map .ofString) environment).1) :
    (loadSettings argument environment).runOn t' =
      (((loadSettings argument environment).runOn t).1,t') := by
  rw [Settings.choosePath_eq] at hs
  rw [runOn_loadSettings,runOn_loadSettings,Settings.load_answer,Settings.load_answer,hs]

theorem writeDocument_runOn (path : String) (document : Json) (t : FileTree) :
    (writeDocument path document).runOn t =
      match t.write? path (printedDocument document).toUTF8 with
      | some t' => (.ok (),t')
      | none => (.error (.unwritable path),t) := by
  change (FileProgram.write _ _ _).run t = _
  rw [FileProgram.run]
  cases t.write? path (printedDocument document).toUTF8 <;> rfl

section Performing

variable {settings : Settings} {profilePath scriptPath : String} {sessionPath : Option String}
  {t : FileTree}

theorem perform_simulate_error {e : CommandError}
    (hs : simulated settings profilePath scriptPath sessionPath t.read = .error e)
    (sessionOut : Option String) :
    ((Command.simulate profilePath scriptPath sessionPath sessionOut).perform settings).runOn t =
      (.error e,t) := by
  rw [Command.perform,Work.runOn_bind,simulate_runOn,hs]

theorem perform_simulate_ok {report : SimulationReport}
    (hs : simulated settings profilePath scriptPath sessionPath t.read = .ok report) (path : String) :
    ((Command.simulate profilePath scriptPath sessionPath (some path)).perform settings).runOn t =
      match t.write? path (printedDocument report.outcome.session.toJson).toUTF8 with
      | some t' => (.ok (printedDocument report.toJson),t')
      | none => (.error (.unwritable path),t) := by
  rw [Command.perform,Work.runOn_bind,simulate_runOn,hs]
  simp only [Work.runOn_bind,writeDocument_runOn]
  cases t.write? path (printedDocument report.outcome.session.toJson).toUTF8 <;> rfl

end Performing

theorem perform_command (environment config : Option String) (demanded : Command) (t : FileTree) :
    (Invocation.perform environment (.command config demanded)).run t =
      match (loadSettings config environment >>= demanded.perform).runOn t with
      | (.ok output,t') => (⟨0,output,""⟩,t')
      | (.error e,t') => (⟨1,"",e.message ++ "\n"⟩,t') := by
  rw [Invocation.perform,Work.runOn]
  refine (FileProgram.run_bind _ _ t).trans ?_
  rcases (loadSettings config environment >>= demanded.perform).run.run t with ⟨_|_,t'⟩ <;> rfl

section

variable {environment config : Option String} {settings : Settings} {demanded : Command}
  {t t' : FileTree}

theorem perform_command_ok {output : String}
    (hs : (loadSettings config environment).runOn t = (.ok settings,t))
    (hd : (demanded.perform settings).runOn t = (.ok output,t')) :
    (Invocation.perform environment (.command config demanded)).run t = (⟨0,output,""⟩,t') := by
  rw [perform_command,Work.runOn_bind,hs]
  simp only [hd]

theorem perform_command_error {e : CommandError}
    (hs : (loadSettings config environment).runOn t = (.ok settings,t))
    (hd : (demanded.perform settings).runOn t = (.error e,t')) :
    (Invocation.perform environment (.command config demanded)).run t =
      (⟨1,"",e.message ++ "\n"⟩,t') := by
  rw [perform_command,Work.runOn_bind,hs]
  simp only [hd]

end

end BehaviorMachine
