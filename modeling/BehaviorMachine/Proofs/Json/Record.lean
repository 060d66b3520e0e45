import BehaviorMachine.Json.Record
import BehaviorMachine.Proofs.Json.Depth

/-!
# Reading written fields

Whole numbers, maps and optional fields are read back as they were written. A field is nested less
deeply than its record (`depth_fields?`).
-/
namespace BehaviorMachine.Json

variable {α : Type}

theorem asInt64?_ofInt64 (n : Int64) : (ofInt64 n).asInt64? = some n := by
  have hlow := n.le_toInt
  have hhigh := n.toInt_lt
  rw [ofInt64]
  split
  · next hn =>
    have hlt : n.toInt.toNat < 2 ^ 63 := by omega
    have hval : (UInt64.ofNat n.toInt.toNat).toNat = n.toInt.toNat :=
      UInt64.toNat_ofNat_of_lt' (Nat.lt_trans hlt (by decide))
    have hback : Int64.ofNat n.toInt.toNat = n := by
      apply Int64.toInt_inj.mp
      rw [Int64.toInt_ofNat_of_lt hlt]
      omega
    have hread : asInt64? (.number (.natural (UInt64.ofNat n.toInt.toNat))) =
        some (.ofNat (UInt64.ofNat n.toInt.toNat).toNat) := if_pos (by rw [hval]; exact hlt)
    rw [hread,hval,hback]
  · next hn =>
    have hback : -((n.toInt.natAbs - 1 + 1 : Nat) : Int) = n.toInt := by omega
    rw [asInt64?,hback,Int64.ofInt_toInt]

theorem asList?_ofList {read : Json → Option α} {write : α → Json}
    (hr : ∀ a, read (write a) = some a) (items : List α) :
    (ofList write items).asList? read = some items := by
  rw [ofList,asList?]
  induction items with
  | nil => rfl
  | cons a rest ih =>
    rw [List.map_cons,List.mapM_cons,hr,ih]
    rfl

theorem asMap?_ofMap {read : Json → Option α} {write : α → Json}
    (hr : ∀ a, read (write a) = some a) (m : NameMap α) : (ofMap write m).asMap? read = some m := by
  have hall : ∀ entries : List (String × α), (entries.map fun e => (e.1,write e.2)).mapM
      (fun member => (read member.2).map (member.1,·)) = some entries := by
    intro entries
    induction entries with
    | nil => rfl
    | cons e rest ih =>
      rw [List.map_cons,List.mapM_cons,ih,hr]
      rfl
  have hread := congrArg (Option.map NameMap.ofList) (hall m.entries)
  rw [Option.map_some,NameMap.ofList_entries] at hread
  exact hread

theorem optional_map {read : Json → Option α} {write : α → Json}
    (hr : ∀ a, read (write a) = some a) (hn : ∀ a, write a ≠ .null) (value : Option α) :
    optional (value.map write) read = some value := by
  cases value with
  | none => rfl
  | some a =>
    rw [Option.map_some,optional,hr]
    · rfl
    · exact hn a

theorem asUInt32?_ofUInt32 (n : UInt32) : (ofUInt32 n).asUInt32? = some n := by
  have hn : n.toUInt64.toNat = n.toNat := UInt32.toNat_toUInt64 n
  rw [ofUInt32,asUInt32?,hn,if_pos n.toNat_lt_size,UInt32.ofNat_toNat]

theorem optional_ofOption {read : Json → Option α} {write : α → Json}
    (hr : ∀ a, read (write a) = some a) (hn : ∀ a, write a ≠ .null) (value : Option α) :
    optional (some (ofOption write value)) read = some value := by
  cases value with
  | none => rfl
  | some a => exact optional_map hr hn (some a)

theorem mem_mapM {β : Type} {f : α → Option β} {list : List α} {images : List β} {b : β}
    (hm : list.mapM f = some images) (hb : b ∈ images) : ∃ a ∈ list, f a = some b := by
  induction list generalizing images with
  | nil =>
    cases hm
    cases hb
  | cons a rest ih =>
    simp only [List.mapM_cons,Option.bind_eq_bind,Option.bind_eq_some_iff] at hm
    obtain ⟨head,ha,tail,ht,he⟩ := hm
    cases he
    rcases List.mem_cons.mp hb with rfl | hb
    · exact ⟨a,List.mem_cons_self,ha⟩
    · obtain ⟨c,hc,hf⟩ := ih ht hb
      exact ⟨c,List.mem_cons_of_mem _ hc,hf⟩

theorem mem_field? {members : List (String × Json)} {name : String} {v : Json}
    (hf : field? members name = some (some v)) : ∃ m ∈ members, m.2 = v := by
  rw [field?] at hf
  split at hf
  · cases hf
  · next m hm =>
    cases hf
    have hmem : m ∈ members.filter (·.1 = name) := by
      rw [hm]
      exact List.mem_cons_self
    exact ⟨m,(List.mem_filter.mp hmem).1,rfl⟩
  · cases hf

theorem depth_fields? {v field : Json} {names : List String} {fields : List (Option Json)}
    (hf : v.fields? names = some fields) (hmem : some field ∈ fields) : field.depth < v.depth := by
  cases v with
  | object members =>
    obtain ⟨name,-,hname⟩ := mem_mapM hf hmem
    obtain ⟨m,hm,rfl⟩ := mem_field? hname
    rw [depth,Nat.lt_succ_iff]
    exact depthMembers_le_iff.mp (Nat.le_refl _) m hm
  | array items =>
    rw [fields?] at hf
    split at hf
    · cases hf
      have hitem : field ∈ items := by simpa using hmem
      rw [depth,Nat.lt_succ_iff]
      exact depthItems_le_iff.mp (Nat.le_refl _) field hitem
    · cases hf
  | _ => cases hf

theorem depth_ofMap {write : α → Json} {n : Nat} (hw : ∀ a, (write a).depth ≤ n) (m : NameMap α) :
    (ofMap write m).depth ≤ n + 1 := by
  rw [ofMap,depth]
  apply Nat.succ_le_succ
  apply depthMembers_le_iff.mpr
  intro member hmem
  obtain ⟨e,-,rfl⟩ := List.mem_map.mp hmem
  exact hw e.2

theorem depth_ofList {write : α → Json} {n : Nat} (hw : ∀ a, (write a).depth ≤ n)
    (items : List α) : (ofList write items).depth ≤ n + 1 := by
  rw [ofList,depth]
  apply Nat.succ_le_succ
  apply depthItems_le_iff.mpr
  intro v hv
  obtain ⟨a,-,rfl⟩ := List.mem_map.mp hv
  exact hw a

theorem depth_ofOption {write : α → Json} {n : Nat} (hw : ∀ a, (write a).depth ≤ n)
    (value : Option α) : (ofOption write value).depth ≤ n := by
  cases value with
  | none => exact Nat.zero_le n
  | some a => exact hw a

theorem depth_present {write : α → Json} {n : Nat} (hw : ∀ a, (write a).depth ≤ n)
    (name : String) (value : Option α) : depthMembers (present name write value) ≤ n := by
  apply depthMembers_le_iff.mpr
  intro m hm
  cases value with
  | none => cases hm
  | some a =>
    obtain rfl := List.mem_singleton.mp hm
    exact hw a

theorem depth_nonempty {write : α → Json} {n : Nat} (hw : ∀ a, (write a).depth ≤ n)
    (name : String) (items : List α) : depthMembers (nonempty name write items) ≤ n + 1 := by
  apply depthMembers_le_iff.mpr
  intro m hm
  cases items with
  | nil => cases hm
  | cons a rest =>
    obtain rfl := List.mem_singleton.mp hm
    exact depth_ofList hw (a :: rest)

@[simp]
theorem depth_ofUInt64 (n : UInt64) : (ofUInt64 n).depth = 0 := rfl

@[simp]
theorem depth_ofUInt32 (n : UInt32) : (ofUInt32 n).depth = 0 := rfl

@[simp]
theorem depth_ofBinary64 (x : Binary64) : (ofBinary64 x).depth = 0 := rfl

@[simp]
theorem depth_ofInt64 (n : Int64) : (ofInt64 n).depth = 0 := by
  rw [ofInt64]
  split <;> rfl

end BehaviorMachine.Json
