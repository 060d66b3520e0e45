/-!
Finite maps from names to values, kept in ascending order of the names. Names are ordered by code
point, which is also the order of their UTF-8 bytes. Two maps are equal exactly when they hold the
same values under the same names.
-/
namespace BehaviorMachine

variable {α β : Type}

/-- Insert or replace in an ascending list of entries. -/
def insertEntry (name : String) (value : α) : List (String × α) → List (String × α)
  | [] => [(name, value)]
  | (n, v) :: rest =>
    if name < n then (name, value) :: (n, v) :: rest
    else if n < name then (n, v) :: insertEntry name value rest
    else (name, value) :: rest

/-- The names strictly ascend, so no name stands twice. -/
abbrev Ascending (entries : List (String × α)) : Prop :=
  entries.Pairwise fun a b => a.1 < b.1

theorem eq_of_not_lt {a b : String} (h : ¬ a < b) (h' : ¬ b < a) : a = b :=
  String.le_antisymm (String.not_lt.mp h') (String.not_lt.mp h)

theorem mem_insertEntry {name : String} {value : α} {e : String × α} {entries : List (String × α)}
    (h : e ∈ insertEntry name value entries) : e = (name, value) ∨ e ∈ entries := by
  induction entries with
  | nil => simpa [insertEntry] using h
  | cons head rest ih =>
    rw [insertEntry] at h
    split at h
    · exact List.mem_cons.mp h
    · split at h
      · rcases List.mem_cons.mp h with rfl | h
        · exact .inr (List.mem_cons_self ..)
        · exact (ih h).imp_right (List.mem_cons_of_mem _)
      · exact (List.mem_cons.mp h).imp_right (List.mem_cons_of_mem _)

theorem ascending_insertEntry (name : String) (value : α) {entries : List (String × α)}
    (h : Ascending entries) : Ascending (insertEntry name value entries) := by
  induction entries with
  | nil => simp [insertEntry]
  | cons e rest ih =>
    obtain ⟨n, v⟩ := e
    obtain ⟨hn, hr⟩ := List.pairwise_cons.mp h
    rw [insertEntry]
    split
    · next lt =>
      refine List.pairwise_cons.mpr ⟨fun e he => ?_, h⟩
      rcases List.mem_cons.mp he with rfl | he
      · exact lt
      · exact String.lt_trans lt (hn e he)
    · split
      · next lt =>
        refine List.pairwise_cons.mpr ⟨fun e he => ?_, ih hr⟩
        rcases mem_insertEntry he with rfl | he
        · exact lt
        · exact hn e he
      · next ge le =>
        obtain rfl := eq_of_not_lt ge le
        exact List.pairwise_cons.mpr ⟨hn, hr⟩

/-- A finite map from names to values. -/
structure NameMap (α : Type) where
  entries : List (String × α)
  ascending : Ascending entries
  deriving DecidableEq

namespace NameMap

def empty : NameMap α := ⟨[], .nil⟩

instance : EmptyCollection (NameMap α) := ⟨empty⟩
instance : Inhabited (NameMap α) := ⟨empty⟩

def get? (m : NameMap α) (name : String) : Option α :=
  (m.entries.find? (·.1 = name)).map Prod.snd

def insert (m : NameMap α) (name : String) (value : α) : NameMap α :=
  ⟨insertEntry name value m.entries, ascending_insertEntry name value m.ascending⟩

def erase (m : NameMap α) (name : String) : NameMap α :=
  ⟨m.entries.filter (·.1 ≠ name), m.ascending.filter _⟩

def size (m : NameMap α) : Nat := m.entries.length

/-- Of several values for one name the last counts. -/
def ofList (entries : List (String × α)) : NameMap α :=
  entries.foldl (fun m e => m.insert e.1 e.2) ∅

/-- Keep the entries whose value has an image. -/
def filterMap (f : α → Option β) (m : NameMap α) : NameMap β where
  entries := m.entries.filterMap fun e => (f e.2).map (e.1, ·)
  ascending := by
    refine List.pairwise_filterMap.mpr (m.ascending.imp fun h b hb b' hb' => ?_)
    obtain ⟨_, _, rfl⟩ := Option.map_eq_some_iff.mp hb
    obtain ⟨_, _, rfl⟩ := Option.map_eq_some_iff.mp hb'
    exact h

theorem ext_entries {m m' : NameMap α} (h : m.entries = m'.entries) : m = m' := by
  cases m; cases m'; congr

theorem get?_insert (m : NameMap α) (name n : String) (value : α) :
    (m.insert name value).get? n = if n = name then some value else m.get? n := by
  obtain ⟨entries, h⟩ := m
  induction entries with
  | nil =>
    by_cases hn : n = name
    · simp [insert, insertEntry, get?, hn]
    · simp [insert, insertEntry, get?, hn, Ne.symm hn]
  | cons e rest ih =>
    obtain ⟨k, v⟩ := e
    have ih := ih (List.pairwise_cons.mp h).2
    simp only [insert, get?, insertEntry] at ih ⊢
    by_cases hn : n = name
    · subst hn
      split
      · simp
      · split
        · next lt =>
          have : k ≠ n := fun eq => String.lt_irrefl n (eq ▸ lt)
          simpa [this] using ih
        · simp
    · split
      · simp [Ne.symm hn]
      · split
        · by_cases hk : k = n
          · simp [hk]
          · simpa [hk, hn] using ih
        · next ge le =>
          obtain rfl := eq_of_not_lt ge le
          simp [Ne.symm hn]

end NameMap

end BehaviorMachine
