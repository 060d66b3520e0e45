import BehaviorMachine.Files
import BehaviorMachine.Proofs.Text.Utf8
import Mathlib.Data.List.Find

/-!
# Files that are written and read

A file is written into a directory that is there, so a write makes no directory and takes none away
(`isDirectory_write`). What was written to a path is read from it (`read_write`), and all else is read
as before (`read_write_other`).
-/
namespace BehaviorMachine

namespace FilePath

theorem names_name {path : FilePath} (hs : slash ∉ path.bytes) : path.names = [path.bytes] := by
  refine List.splitOnP_eq_singleton fun b hb => ?_
  exact beq_eq_false_iff_ne.mpr fun he => hs (he ▸ hb)

theorem text_ofString (s : String) : (ofString s).text = s := lossyText_toUTF8 s

@[simp]
theorem bytes_ofString_inj {s s' : String} : (ofString s).bytes = (ofString s').bytes ↔ s = s' := by
  constructor
  · intro he
    rw [← text_ofString s,← text_ofString s',text,text,he]
  · rintro rfl
    rfl

end FilePath

namespace FileTree

variable {t t' : FileTree} {path : FilePath} {content : ByteArray}

/-- All that a place lies in is a directory. -/
def Grounded (t : FileTree) (place : List FileName) : Prop :=
  ∀ n < place.length, t.isDirectory (place.take n) = true

theorem Grounded.dropLast {place : List FileName} (hg : t.Grounded place) :
    t.Grounded place.dropLast := by
  intro n hn
  rw [List.length_dropLast] at hn
  have htake : place.dropLast.take n = place.take n := by
    rw [List.dropLast_eq_take,List.take_take,Nat.min_eq_left (Nat.le_of_lt hn)]
  rw [htake]
  exact hg n (by omega)

theorem Grounded.concat {place : List FileName} (hg : t.Grounded place)
    (hd : t.isDirectory place = true) (name : FileName) : t.Grounded (place ++ [name]) := by
  intro n hn
  rw [List.length_append,List.length_singleton] at hn
  rw [List.take_append_of_le_length (by omega)]
  by_cases he : n = place.length
  · rw [he,List.take_length]
    exact hd
  · exact hg n (by omega)

theorem grounded_follow? {place found : List FileName} {names : List FileName} (hg : t.Grounded place)
    (hf : t.follow? place names = some found) : t.Grounded found := by
  induction names generalizing place with
  | nil =>
    cases hf
    exact hg
  | cons name rest ih =>
    rw [follow?] at hf
    split at hf
    · next hd =>
      split at hf
      · exact ih hg hf
      · split at hf
        · exact ih hg.dropLast hf
        · split at hf
          · exact ih (hg.concat hd name) hf
          · cases hf
    · cases hf

theorem grounded_workingDirectory (t : FileTree) : t.Grounded t.workingDirectory := by
  intro n _
  rw [isDirectory,List.isPrefixOf_iff_prefix.mpr (List.take_prefix n _),Bool.true_or]

theorem grounded_place? {place : List FileName} (hp : t.place? path = some place) :
    t.Grounded place := by
  rw [place?] at hp
  split at hp
  · cases hp
  · refine grounded_follow? ?_ hp
    split
    · exact fun n hn => absurd hn (Nat.not_lt_zero n)
    · exact grounded_workingDirectory t

theorem write?_some (hw : t.write? path content = some t') : ∃ place, t.place? path = some place ∧
    t' = { t with files := (place,content) :: t.files.filter (·.1 ≠ place) } := by
  rw [write?] at hw
  split at hw
  · cases hw
  · next place hp =>
    split at hw
    · cases hw
    · cases hw
      exact ⟨place,hp,rfl⟩

theorem isDirectory_iff {place : List FileName} : t.isDirectory place = true ↔
    place <+: t.workingDirectory ∨
      ∃ f ∈ t.files, place.length < f.1.length ∧ f.1.take place.length = place := by
  simp [isDirectory]

/-- A write makes no directory and takes none away. -/
theorem isDirectory_write (hw : t.write? path content = some t') (place : List FileName) :
    t'.isDirectory place = t.isDirectory place := by
  obtain ⟨written,hp,rfl⟩ := write?_some hw
  apply Bool.eq_iff_iff.mpr
  constructor
  · intro hd
    rcases isDirectory_iff.mp hd with hd | ⟨f,hf,hlen,htake⟩
    · exact isDirectory_iff.mpr (.inl hd)
    · rcases List.mem_cons.mp hf with rfl | hf
      · rw [← htake]
        exact grounded_place? hp _ hlen
      · exact isDirectory_iff.mpr (.inr ⟨f,(List.mem_filter.mp hf).1,hlen,htake⟩)
  · intro hd
    rcases isDirectory_iff.mp hd with hd | ⟨f,hf,hlen,htake⟩
    · exact isDirectory_iff.mpr (.inl hd)
    · apply isDirectory_iff.mpr
      by_cases he : f.1 = written
      · rw [he] at hlen htake
        exact .inr ⟨_,List.mem_cons_self,hlen,htake⟩
      · have hkeep : f ∈ t.files.filter (·.1 ≠ written) :=
          List.mem_filter.mpr ⟨hf,decide_eq_true he⟩
        exact .inr ⟨f,List.mem_cons_of_mem _ hkeep,hlen,htake⟩

theorem workingDirectory_write (hw : t.write? path content = some t') :
    t'.workingDirectory = t.workingDirectory := by
  obtain ⟨written,-,rfl⟩ := write?_some hw
  rfl

theorem follow?_write (hw : t.write? path content = some t') (place names : List FileName) :
    t'.follow? place names = t.follow? place names := by
  induction names generalizing place with
  | nil => rfl
  | cons name rest ih => simp only [follow?,isDirectory_write hw,ih]

theorem place?_write (hw : t.write? path content = some t') (other : FilePath) :
    t'.place? other = t.place? other := by
  simp only [place?,follow?_write hw,workingDirectory_write hw]

theorem read_write (hw : t.write? path content = some t') : t'.read path = .bytes content := by
  obtain ⟨place,hp,he⟩ := write?_some hw
  rw [read,place?_write hw,hp,he]
  simp only [List.find?_cons,decide_true]

theorem read_write_other (hw : t.write? path content = some t') {other : FilePath}
    (hn : t.place? other ≠ t.place? path) : t'.read other = t.read other := by
  obtain ⟨written,hp,he⟩ := write?_some hw
  rw [read,read,place?_write hw]
  cases hfound : t.place? other with
  | none => rfl
  | some found =>
    have hne : found ≠ written := by
      rintro rfl
      exact hn (hfound.trans hp.symm)
    have hkeep : t'.files.find? (·.1 = found) = t.files.find? (·.1 = found) := by
      rw [he,List.find?_cons,decide_eq_false (Ne.symm hne),List.find?_filter]
      apply List.find?_congr
      intro f _
      by_cases hf : f.1 = found
      · simp [hf,hne]
      · simp [hf]
    simp only [hkeep,isDirectory_write hw]

theorem place?_name (t : FileTree) {name : FilePath} (hs : FilePath.slash ∉ name.bytes)
    (hn : name.bytes ∉ [[],dot,dotDot]) (hl : name.bytes.length ≤ nameLimit) :
    t.place? name = some (t.workingDirectory ++ [name.bytes]) := by
  simp only [List.mem_cons,List.not_mem_nil,or_false,not_or] at hn
  obtain ⟨hempty,hdot,hdotDot⟩ := hn
  have hpath : ¬ (name.bytes = [] ∨ pathLimit < name.bytes.length) := by
    rw [nameLimit] at hl
    rw [pathLimit]
    exact not_or.mpr ⟨hempty,by omega⟩
  have hrelative : ¬ name.isAbsolute = true := by
    intro ha
    rw [FilePath.isAbsolute,decide_eq_true_eq] at ha
    exact hs (List.mem_of_head? ha)
  have hstart : t.isDirectory t.workingDirectory = true :=
    isDirectory_iff.mpr (.inl List.prefix_rfl)
  rw [place?,if_neg hpath,if_neg hrelative,FilePath.names_name hs,follow?,if_pos hstart,
    if_neg (not_or.mpr ⟨hempty,hdot⟩),if_neg hdotDot,if_pos hl]
  rfl

end FileTree

namespace FileProgram

variable {α γ : Type}

/-- The result of a program where paths are read in some way and nothing can be written. -/
def answer (files : FilePath → FileContent) : FileProgram α → α
  | .done result => result
  | .read path next => (next (files path)).answer files
  | .write _ _ next => (next false).answer files

theorem run_bind (p : FileProgram α) (f : α → FileProgram γ) (t : FileTree) :
    (p.bind f).run t = (f (p.run t).1).run (p.run t).2 := by
  induction p generalizing t with
  | done result => rfl
  | read path next ih => exact ih (t.read path) t
  | write path content next ih =>
    rw [bind,run,run]
    cases t.write? path content with
    | none => exact ih false t
    | some written => exact ih true written

end FileProgram

end BehaviorMachine
