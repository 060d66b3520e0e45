import BehaviorMachine.NameMap
import Mathlib.Data.List.Nodup

/-!
# Maps built from entries

A map is built again from its own entries (`ofList_entries`), and building one adds no entry
(`mem_ofList`). Maps are equal if they hold the same values (`ext_get?`), so insertions under different
names commute, and distinct entries make one map in any order (`ofList_perm`).
-/
namespace BehaviorMachine

variable {α β γ : Type}

theorem insertEntry_greatest {name : String} {entries : List (String × α)}
    (hg : ∀ e ∈ entries, e.1 < name) (value : α) :
    insertEntry name value entries = entries ++ [(name,value)] := by
  induction entries with
  | nil => rfl
  | cons e rest ih =>
    obtain ⟨n,v⟩ := e
    have hn : n < name := hg (n,v) List.mem_cons_self
    have hrest := ih fun e he => hg e (List.mem_cons_of_mem _ he)
    rw [insertEntry,if_neg (String.lt_asymm hn),if_pos hn,hrest,List.cons_append]

namespace NameMap

theorem foldl_insert {m : NameMap α} {entries : List (String × α)}
    (ha : Ascending (m.entries ++ entries)) :
    (entries.foldl (fun m e => m.insert e.1 e.2) m).entries = m.entries ++ entries := by
  induction entries generalizing m with
  | nil => exact (List.append_nil _).symm
  | cons e rest ih =>
    have hg : ∀ d ∈ m.entries, d.1 < e.1 := by
      intro d hd
      exact (List.pairwise_append.mp ha).2.2 d hd e List.mem_cons_self
    have he : (m.insert e.1 e.2).entries = m.entries ++ [e] := insertEntry_greatest hg e.2
    have hrest : Ascending ((m.insert e.1 e.2).entries ++ rest) := by
      rw [he,List.append_assoc]
      exact ha
    rw [List.foldl_cons,ih hrest,he,List.append_assoc]
    rfl

theorem entries_ofList {entries : List (String × α)} (ha : Ascending entries) :
    (ofList entries).entries = entries :=
  foldl_insert ha

theorem ofList_entries (m : NameMap α) : ofList m.entries = m :=
  ext_entries (entries_ofList m.ascending)

theorem mem_ofList {e : String × α} {entries : List (String × α)}
    (he : e ∈ (ofList entries).entries) : e ∈ entries := by
  have hfold : ∀ m : NameMap α, e ∈ (entries.foldl (fun m e => m.insert e.1 e.2) m).entries →
      e ∈ m.entries ∨ e ∈ entries := by
    clear he
    induction entries with
    | nil => exact fun m hm => .inl hm
    | cons d rest ih =>
      intro m hm
      rcases ih _ hm with hm | hm
      · rcases mem_insertEntry hm with rfl | hm
        · exact .inr List.mem_cons_self
        · exact .inl hm
      · exact .inr (List.mem_cons_of_mem _ hm)
  exact (hfold ∅ he).resolve_left List.not_mem_nil

theorem get?_erase (m : NameMap α) (name n : String) :
    (m.erase name).get? n = if n = name then none else m.get? n := by
  obtain ⟨entries,h⟩ := m
  simp only [erase,get?,List.find?_filter]
  split
  · next hn =>
    subst hn
    simp
  · next hn =>
    congr 2
    funext e
    by_cases he : e.1 = n
    · simp [he,hn]
    · simp [he]

theorem mem_entries_iff {m : NameMap α} {name : String} {value : α} :
    (name,value) ∈ m.entries ↔ m.get? name = some value := by
  obtain ⟨entries,h⟩ := m
  rw [get?]
  induction entries with
  | nil => simp
  | cons e rest ih =>
    have hrest := ih (List.pairwise_cons.mp h).2
    have hlater : ∀ d ∈ rest, d.1 ≠ e.1 := by
      intro d hd he
      have hlt := (List.pairwise_cons.mp h).1 d hd
      rw [he] at hlt
      exact String.lt_irrefl _ hlt
    by_cases hn : e.1 = name
    · simp only [List.mem_cons,List.find?_cons,hn,decide_true,Option.map_some,Option.some.injEq]
      constructor
      · rintro (he | he)
        · rw [← he]
        · exact absurd hn.symm (hlater _ he)
      · intro he
        exact .inl (Prod.ext hn.symm he.symm)
    · simp only [List.mem_cons,List.find?_cons,hn,decide_false,hrest]
      constructor
      · rintro (he | he)
        · exact absurd (congrArg Prod.fst he).symm hn
        · exact he
      · exact .inr

theorem ext_get? {m m' : NameMap α} (h : ∀ name, m.get? name = m'.get? name) : m = m' := by
  have hne (m : NameMap α) : m.entries.Nodup := by
    apply m.ascending.imp
    rintro a b hlt rfl
    exact String.lt_irrefl _ hlt
  have hp : m.entries.Perm m'.entries := by
    apply (List.perm_ext_iff_of_nodup (hne m) (hne m')).mpr
    intro e
    rw [mem_entries_iff,mem_entries_iff,h]
  apply ext_entries
  refine hp.eq_of_pairwise ?_ m.ascending m'.ascending
  intro a b _ _ hab hba
  exact absurd hba (String.lt_asymm hab)

theorem insert_comm {name n : String} (hn : name ≠ n) (m : NameMap α) (value v : α) :
    (m.insert name value).insert n v = (m.insert n v).insert name value := by
  apply ext_get?
  intro k
  simp only [get?_insert]
  by_cases hk : k = n
  · simp [hk,Ne.symm hn]
  · simp [hk]

def map (g : α → β) (m : NameMap α) : NameMap β := m.filterMap fun a => some (g a)

theorem entries_map (g : α → β) (m : NameMap α) :
    (m.map g).entries = m.entries.map fun e => (e.1,g e.2) :=
  congrFun List.filterMap_eq_map m.entries

theorem map_same (m : NameMap α) : (m.map fun a => a) = m := by
  apply ext_entries
  rw [entries_map]
  exact List.map_id' _

theorem filterMap_map (k : β → Option γ) (g : α → β) (m : NameMap α) :
    (m.map g).filterMap k = m.filterMap fun a => k (g a) := by
  apply ext_entries
  simp only [filterMap,entries_map,List.filterMap_map]
  rfl

theorem get?_filterMap (f : α → Option β) (m : NameMap α) (name : String) :
    (m.filterMap f).get? name = (m.get? name).bind f := by
  apply Option.ext
  intro b
  rw [← mem_entries_iff,Option.bind_eq_some_iff]
  simp only [← mem_entries_iff,filterMap,List.mem_filterMap,Option.map_eq_some_iff,Prod.mk.injEq]
  constructor
  · rintro ⟨⟨n,a⟩,ha,b,hb,rfl,rfl⟩
    exact ⟨a,ha,hb⟩
  · rintro ⟨a,ha,hb⟩
    exact ⟨(name,a),ha,b,hb,rfl,rfl⟩

theorem filterMap_ofList {f : α → Option β} {entries others : List (String × α)}
    (h : (entries.map fun e => (e.1,f e.2)) = others.map fun e => (e.1,f e.2)) :
    (ofList entries).filterMap f = (ofList others).filterMap f := by
  have hfold : ∀ m n : NameMap α, (∀ name, (m.get? name).bind f = (n.get? name).bind f) →
      ∀ name, ((entries.foldl (fun m e => m.insert e.1 e.2) m).get? name).bind f =
        ((others.foldl (fun m e => m.insert e.1 e.2) n).get? name).bind f := by
    induction entries generalizing others with
    | nil =>
      intro m n hm
      rw [List.map_eq_nil_iff.mp h.symm]
      exact hm
    | cons e rest ih =>
      intro m n hm
      cases others with
      | nil => cases h
      | cons d others =>
        obtain ⟨hed,hrest⟩ := List.cons.inj h
        obtain ⟨hname,hvalue⟩ := Prod.mk.inj hed
        apply ih hrest
        intro name
        rw [get?_insert,get?_insert,hname]
        by_cases hn : name = d.1
        · simp [hn,hvalue]
        · simp [hn,hm]
  apply ext_get?
  intro name
  rw [get?_filterMap,get?_filterMap]
  exact hfold ∅ ∅ (fun _ => rfl) name

theorem nodup_names (m : NameMap α) : (m.entries.map Prod.fst).Nodup := by
  rw [List.Nodup,List.pairwise_map]
  apply m.ascending.imp
  intro a b hlt he
  rw [he] at hlt
  exact String.lt_irrefl _ hlt

/-- Distinct entries make one map in any order. -/
theorem ofList_perm {entries found : List (String × α)} (hp : found.Perm entries)
    (hd : (entries.map Prod.fst).Nodup) : ofList found = ofList entries := by
  refine hp.foldl_eq' ?_ ∅
  intro e he d hd' m
  by_cases hn : e.1 = d.1
  · have hsame : e = d :=
      List.inj_on_of_nodup_map hd (hp.subset he) (hp.subset hd') hn
    rw [hsame]
  · exact insert_comm hn m e.2 d.2

end NameMap

end BehaviorMachine
