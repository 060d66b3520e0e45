import BehaviorMachine.Proofs.Files
import BehaviorMachine.Proofs.Settings.Bounds
import BehaviorMachine.Settings.Load

/-!
# Loading settings

What loading accepts: the settings in the file at the path that is read, if the path, the file and
the settings keep their limits, and the default settings only where no path was given and the default
file is missing (`load_eq_ok`). So whatever is loaded keeps its bounds (`load_failsClosed`).
-/
namespace BehaviorMachine

namespace Settings

variable {argument : Option FilePath} {environment : Option String} {files : FilePath → FileContent}
  {path : FilePath} {text : String} {s c : Settings}

def parse? (text : String) : Option Settings := (Toml.read? text).bind ofEntries?

theorem ofToml_eq_ok : ofToml text = .ok c ↔ parse? text = some c ∧ c.InBounds := by
  rw [ofToml,← validate_eq_ok,parse?]
  cases (Toml.read? text).bind ofEntries? with
  | none => simp
  | some s =>
    simp only [Option.some.injEq]
    rw [bind_eq_ok]
    constructor
    · rintro ⟨⟨⟩,hv,hc⟩
      cases hc
      exact ⟨rfl,hv⟩
    · rintro ⟨rfl,hv⟩
      exact ⟨(),hv,rfl⟩

theorem InBounds.withSource (hs : s.InBounds) (source : Option FilePath) :
    { s with source := source }.InBounds :=
  ⟨hs.idle_pos,hs.idle_lt_retry,hs.retry_le,hs.yield,hs.maxTransitions,hs.profileLimit,hs.filter⟩

/-- A file of at most 64 KiB in UTF-8 whose text reads as settings. -/
def HeldIn (s : Settings) (content : FileContent) : Prop :=
  ∃ text : String, content = .bytes text.toUTF8 ∧ text.utf8ByteSize ≤ 64 * 1024 ∧
    parse? text = some s

theorem ofBytes_eq_ok {content : ByteArray} : ofBytes path content = .ok c ↔
    ∃ s : Settings, s.HeldIn (.bytes content) ∧ s.InBounds ∧ c = { s with source := some path } := by
  rw [ofBytes,bind_eq_ok]
  constructor
  · rintro ⟨⟨⟩,hsize,hrest⟩
    rw [refuseIf_eq_ok,Nat.not_lt] at hsize
    split at hrest
    · cases hrest
    · next text hd =>
      rw [bind_eq_ok] at hrest
      obtain ⟨s,hs,hc⟩ := hrest
      obtain ⟨hparse,hbounds⟩ := ofToml_eq_ok.mp hs
      cases hc
      rw [fromUTF8?_eq_some.mp hd] at hsize ⊢
      exact ⟨s,⟨text,rfl,hsize,hparse⟩,hbounds,rfl⟩
  · rintro ⟨s,⟨text,hcontent,hsize,hparse⟩,hbounds,rfl⟩
    cases hcontent
    refine ⟨(),refuseIf_eq_ok.mpr (Nat.not_lt.mpr hsize),?_⟩
    rw [fromUTF8?_eq_some.mpr rfl]
    exact bind_eq_ok.mpr ⟨s,ofToml_eq_ok.mpr ⟨hparse,hbounds⟩,rfl⟩

theorem ofContent_eq_ok {askedFor : Bool} {content : FileContent} :
    ofContent path askedFor content = .ok c ↔
      (askedFor = false ∧ content = .missing ∧ c = default) ∨
      ∃ s : Settings, s.HeldIn content ∧ s.InBounds ∧ c = { s with source := some path } := by
  cases content with
  | bytes content =>
    rw [ofContent,ofBytes_eq_ok]
    simp
  | missing =>
    -- the default settings are checked as well, and pass
    have hdefault : default.validate = .ok () := validate_eq_ok.mpr default_inBounds
    cases askedFor with
    | true => simp [ofContent,HeldIn]
    | false => simp [ofContent,HeldIn,hdefault,bind,Except.bind,pure,Except.pure,eq_comm]
  | unreadable => simp [ofContent,HeldIn]

/-- A path that is not too long and has no name that is, as they are printed. -/
structure PathInBounds (path : FilePath) : Prop where
  length : path.text.utf8ByteSize ≤ 4096
  names : ∀ name ∈ path.names, (lossyText name).utf8ByteSize ≤ 255

theorem checkPath_eq_ok : checkPath path = .ok () ↔ PathInBounds path := by
  rw [checkPath,check_bind_eq_ok,refuseIf_eq_ok,refuseIf_eq_ok,Nat.not_lt]
  simp only [not_exists,not_and,Nat.not_lt]
  exact ⟨fun ⟨hlength,hnames⟩ => ⟨hlength,hnames⟩,fun h => ⟨h.length,h.names⟩⟩

theorem pathInBounds_name {name : String} (hs : FilePath.slash ∉ (FilePath.ofString name).bytes)
    (hl : name.utf8ByteSize ≤ 255) : PathInBounds name := by
  have htext : (FilePath.ofString name).text = name := FilePath.text_ofString name
  constructor
  · rw [htext]
    exact hl.trans (by decide)
  · rw [FilePath.names_name hs,List.forall_mem_singleton]
    rw [← htext] at hl
    exact hl

theorem defaultPath_inBounds : PathInBounds defaultPath :=
  pathInBounds_name (by decide +kernel) (by decide +kernel)

/-- The path that is read: that of the argument, or else of the environment, or else the default. -/
def resolvedPath : Option FilePath → Option String → FilePath
  | some path, _ => path
  | none, some path => path
  | none, none => defaultPath

theorem choosePath_eq (argument : Option FilePath) (environment : Option String) :
    choosePath argument environment =
      (resolvedPath argument environment,argument.isSome || environment.isSome) := by
  cases argument <;> cases environment <;> rfl

/-- Loading reads one file. -/
theorem load_answer (argument : Option FilePath) (environment : Option String)
    (files : FilePath → FileContent) : (load argument environment).answer files = (do
      checkPath (resolvedPath argument environment)
      ofContent (resolvedPath argument environment) (argument.isSome || environment.isSome)
        (files (resolvedPath argument environment))) := by
  simp only [load,choosePath_eq]
  cases checkPath (resolvedPath argument environment) <;> rfl

theorem load_run (argument : Option FilePath) (environment : Option String) (t : FileTree) :
    (load argument environment).run t = ((load argument environment).answer t.read,t) := by
  simp only [load,choosePath_eq]
  cases checkPath (resolvedPath argument environment) <;> rfl

theorem load_eq_ok : (load argument environment).answer files = .ok c ↔
    (c = default ∧ argument = none ∧ environment = none ∧ files defaultPath = .missing) ∨
    (PathInBounds (resolvedPath argument environment) ∧ ∃ s : Settings,
      s.HeldIn (files (resolvedPath argument environment)) ∧ s.InBounds ∧
      c = { s with source := some (resolvedPath argument environment) }) := by
  have hasked : (argument.isSome || environment.isSome) = false ↔
      argument = none ∧ environment = none := by
    rw [Bool.or_eq_false_iff,Option.isSome_eq_false_iff,Option.isSome_eq_false_iff,
      Option.isNone_iff_eq_none,Option.isNone_iff_eq_none]
  rw [load_answer,bind_eq_ok]
  simp only [ofContent_eq_ok,hasked]
  constructor
  · rintro ⟨⟨⟩,hp,⟨⟨rfl,rfl⟩,hmissing,rfl⟩ | hheld⟩
    · exact .inl ⟨rfl,rfl,rfl,hmissing⟩
    · exact .inr ⟨checkPath_eq_ok.mp hp,hheld⟩
  · rintro (⟨rfl,rfl,rfl,hmissing⟩ | ⟨hp,hheld⟩)
    · exact ⟨(),checkPath_eq_ok.mpr defaultPath_inBounds,.inl ⟨⟨rfl,rfl⟩,hmissing,rfl⟩⟩
    · exact ⟨(),checkPath_eq_ok.mpr hp,.inr hheld⟩

theorem load_missing (hasked : argument ≠ none ∨ environment ≠ none)
    (hmissing : files (resolvedPath argument environment) = .missing) :
    ∃ e, (load argument environment).answer files = .error e ∧
      (PathInBounds (resolvedPath argument environment) → e = .io "no such file") := by
  have hasked : (argument.isSome || environment.isSome) = true := by
    simpa [Option.isSome_iff_ne_none] using hasked
  rw [load_answer,hmissing,hasked]
  cases hp : checkPath (resolvedPath argument environment) with
  | error e =>
    refine ⟨e,rfl,fun hbounds => ?_⟩
    rw [checkPath_eq_ok.mpr hbounds] at hp
    cases hp
  | ok => exact ⟨_,rfl,fun _ => rfl⟩

/-- Loading fails closed, however paths are read. What it accepts keeps its bounds, and is the default
settings, if no path was given and the default file is missing, or else what the file at the resolved
path holds, with that path as its source. Whatever such a file holds is accepted if it keeps its
bounds and the path its limits. A file that was asked for and is missing is an error. On a tree of
files, paths are read there, and nothing changes. -/
theorem load_failsClosed (argument : Option FilePath) (environment : Option String) :
    (∀ (files : FilePath → FileContent) c, (load argument environment).answer files = .ok c →
      c.InBounds) ∧
    (∀ (files : FilePath → FileContent) c, (load argument environment).answer files = .ok c ↔
      (c = default ∧ argument = none ∧ environment = none ∧ files defaultPath = .missing) ∨
      (PathInBounds (resolvedPath argument environment) ∧ ∃ s : Settings,
        s.HeldIn (files (resolvedPath argument environment)) ∧ s.InBounds ∧
        c = { s with source := some (resolvedPath argument environment) })) ∧
    (∀ files : FilePath → FileContent, argument ≠ none ∨ environment ≠ none →
      files (resolvedPath argument environment) = .missing →
      ∃ e, (load argument environment).answer files = .error e ∧
        (PathInBounds (resolvedPath argument environment) → e = .io "no such file")) ∧
    ∀ t : FileTree, (load argument environment).run t =
      ((load argument environment).answer t.read,t) := by
  refine ⟨?_,fun files c => load_eq_ok,fun files => load_missing,load_run argument environment⟩
  intro files c hc
  rcases load_eq_ok.mp hc with ⟨rfl,-⟩ | ⟨-,s,-,hs,rfl⟩
  · exact default_inBounds
  · exact hs.withSource _

/-- A workshop that keeps settings for its kiln, with one of the waits longer than by default. -/
def workshop : FileTree where
  files := [((FilePath.ofString "workshop/kiln.toml").names,
    "[interpreter]\nretry_wait_ticks = 40\n".toUTF8)]
  workingDirectory := (FilePath.ofString "workshop").names

def kiln : Settings := { default with budgets := { default.budgets with retryWaitTicks := 40 } }

/-- Paths to the kiln from the workshop. -/
def kilnPaths : List String := ["kiln.toml","/workshop/kiln.toml"]

theorem kiln_heldIn : ∀ path ∈ kilnPaths, kiln.HeldIn (workshop.read path) := by
  intro path hm
  have hplace : workshop.place? path = some (FilePath.ofString "workshop/kiln.toml").names := by
    decide +kernel +revert
  refine ⟨"[interpreter]\nretry_wait_ticks = 40\n",?_,by decide +kernel,by decide +kernel⟩
  rw [FileTree.read,hplace]
  simp [workshop]

theorem kiln_pathInBounds : ∀ path ∈ kilnPaths, PathInBounds path := by
  intro path hm
  constructor <;> decide +kernel +revert

theorem oven_missing : workshop.read "/oven.toml" = .missing := by
  have hplace : workshop.place? "/oven.toml" = some (FilePath.ofString "oven.toml").names := by
    decide +kernel
  have hfile : workshop.files.find? (·.1 = (FilePath.ofString "oven.toml").names) = none := by
    decide +kernel
  have hdirectory : workshop.isDirectory (FilePath.ofString "oven.toml").names = false := by
    decide +kernel
  simp [FileTree.read,hplace,hfile,hdirectory]

/-- The file of the environment is read, unless another one is asked for. -/
theorem load_failsClosed_workshop :
    (load none (some "kiln.toml")).run workshop =
      (.ok { kiln with source := some "kiln.toml" },workshop) ∧
    (load (some "/workshop/kiln.toml") none).run workshop =
      (.ok { kiln with source := some "/workshop/kiln.toml" },workshop) ∧
    { kiln with source := some "/workshop/kiln.toml" }.InBounds ∧
    (load (some "/oven.toml") (some "kiln.toml")).run workshop =
      (.error (.io "no such file"),workshop) := by
  obtain ⟨-,hnear,-,hnearRun⟩ := load_failsClosed none (some "kiln.toml")
  obtain ⟨hbounds,hfar,-,hfarRun⟩ := load_failsClosed (some "/workshop/kiln.toml") none
  obtain ⟨-,-,hrefuses,hovenRun⟩ := load_failsClosed (some "/oven.toml") (some "kiln.toml")
  have hkiln : kiln.InBounds := validate_eq_ok.mp (by rfl)
  have hnear := (hnear workshop.read _).mpr (.inr ⟨kiln_pathInBounds _ (by decide),kiln,
    kiln_heldIn _ (by decide),hkiln,rfl⟩)
  have hfar := (hfar workshop.read _).mpr (.inr ⟨kiln_pathInBounds _ (by decide),kiln,
    kiln_heldIn _ (by decide),hkiln,rfl⟩)
  have hovenPath : PathInBounds "/oven.toml" := by constructor <;> decide +kernel
  obtain ⟨e,he,hio⟩ := hrefuses workshop.read (.inl (Option.some_ne_none _)) oven_missing
  rw [hio hovenPath] at he
  rw [hnearRun,hfarRun,hovenRun,hnear,hfar,he]
  exact ⟨rfl,rfl,hbounds _ _ hfar,rfl⟩

end Settings

end BehaviorMachine
