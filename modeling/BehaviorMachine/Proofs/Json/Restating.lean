import BehaviorMachine.Proofs.Json.Record

/-!
# Restated documents

A document is restated when its members are put in another order and its binary64 numbers are written
in another way. Readers of records do not notice the order (`fields?_perm`), and from a restated
document they read what they read from the document itself, up to the numbers.
-/
namespace BehaviorMachine.Json

variable {α β : Type}

theorem field?_perm {found members : List (String × Json)} (hp : found.Perm members)
    (name : String) : field? found name = field? members name := by
  have hf := hp.filter fun m => decide (m.1 = name)
  rw [field?,field?]
  generalize found.filter _ = a at hf ⊢
  generalize members.filter _ = b at hf ⊢
  rcases b with _ | ⟨m,_ | ⟨n,rest⟩⟩
  · rw [hf.eq_nil]
  · rw [List.perm_singleton.mp hf]
  · have hl := hf.length_eq
    rcases a with _ | ⟨c,_ | ⟨d,list⟩⟩
    · simp at hl
    · simp at hl
    · rfl

theorem fields?_perm {found members : List (String × Json)} (hp : found.Perm members)
    (names : List String) :
    (Json.object found).fields? names = (Json.object members).fields? names := by
  have hf : field? found = field? members := funext (field?_perm hp)
  rw [fields?,fields?,hf]

theorem field?_map (f : Json → Json) (members : List (String × Json)) (name : String) :
    field? (members.map fun m => (m.1,f m.2)) name = (field? members name).map (Option.map f) := by
  have hf : (members.map fun m => (m.1,f m.2)).filter (fun m => decide (m.1 = name)) =
      (members.filter fun m => decide (m.1 = name)).map fun m => (m.1,f m.2) := by
    rw [List.filter_map]
    rfl
  rw [field?,field?,hf]
  generalize members.filter _ = list
  rcases list with _ | ⟨m,_ | ⟨n,rest⟩⟩
  · rfl
  · rfl
  · rfl

theorem fields?_map (f : Json → Json) (members : List (String × Json)) (names : List String) :
    (Json.object (members.map fun m => (m.1,f m.2))).fields? names =
      ((Json.object members).fields? names).map (List.map (Option.map f)) := by
  simp only [fields?,funext (field?_map f members)]
  induction names with
  | nil => rfl
  | cons name rest ih =>
    rw [List.mapM_cons,List.mapM_cons,ih]
    cases field? members name with
    | none => rfl
    | some v => cases rest.mapM (field? members) <;> rfl

theorem readableItems_iff {items : List Json} :
    readableItems items = true ↔ ∀ v ∈ items, v.readable = true := by
  induction items with
  | nil => simp [readableItems]
  | cons v rest ih => rw [readableItems,Bool.and_eq_true,ih,List.forall_mem_cons]

theorem readableMembers_iff {members : List (String × Json)} :
    readableMembers members = true ↔ ∀ m ∈ members, m.2.readable = true := by
  induction members with
  | nil => simp [readableMembers]
  | cons m rest ih => rw [readableMembers,Bool.and_eq_true,ih,List.forall_mem_cons]

theorem mapM_perm {f : α → Option β} {found list : List α} (hp : found.Perm list)
    {images : List β} (hm : list.mapM f = some images) :
    ∃ others, others.Perm images ∧ found.mapM f = some others := by
  induction hp generalizing images with
  | nil => exact ⟨images,.refl _,hm⟩
  | cons a _ ih =>
    simp only [List.mapM_cons,Option.bind_eq_bind,Option.bind_eq_some_iff] at hm
    obtain ⟨b,hb,rest,hrest,he⟩ := hm
    cases he
    obtain ⟨others,ho,hs⟩ := ih hrest
    refine ⟨b :: others,ho.cons b,?_⟩
    rw [List.mapM_cons,hb,hs]
    rfl
  | swap a c list =>
    simp only [List.mapM_cons,Option.bind_eq_bind,Option.bind_eq_some_iff] at hm
    obtain ⟨b,hb,tail,⟨d,hd,rest,hrest,ht⟩,he⟩ := hm
    cases ht
    cases he
    refine ⟨d :: b :: rest,.swap b d rest,?_⟩
    rw [List.mapM_cons,List.mapM_cons,hb,hd,hrest]
    rfl
  | trans _ _ ih ih' =>
    obtain ⟨others,ho,hs⟩ := ih' hm
    obtain ⟨more,hmore,hs⟩ := ih hs
    exact ⟨more,hmore.trans ho,hs⟩

section Tagged

variable {tag : String} {members : List (String × Json)} (ht : ∀ m ∈ members, m.1 ≠ tag)
include ht

theorem filter_tag (v : Json) :
    ((tag,v) :: members).filter (fun m => decide (m.1 ≠ tag)) = members := by
  simp only [List.filter_cons,ne_eq,not_true_eq_false,decide_false,Bool.false_eq_true,if_false]
  exact List.filter_eq_self.mpr fun m hm => decide_eq_true (ht m hm)

theorem field?_tag (v : Json) : field? ((tag,v) :: members) tag = some (some v) := by
  have hnone : members.filter (fun m => decide (m.1 = tag)) = [] :=
    List.filter_eq_nil_iff.mpr fun m hm => by simpa using ht m hm
  rw [field?,List.filter_cons,if_pos (by simp),hnone]

theorem tagged?_object {name : String} (hr : readableMembers members = true) :
    (Json.object ((tag,.string name) :: members)).tagged? tag = some (name,.object members) := by
  have hreadable : (Json.object ((tag,.string name) :: members)).readable = true := by
    rw [readable,readableMembers,hr]
    rfl
  rw [tagged?,if_pos hreadable]
  simp only [field?_tag ht,filter_tag ht]

end Tagged

/-- How documents may be restated. Binary64 numbers are read with a change. -/
structure Restates (f : Json → Json) (change : Binary64 → Binary64) : Prop where
  null : f .null = .null
  bool : ∀ b, f (.bool b) = .bool b
  string : ∀ s, f (.string s) = .string s
  natural : ∀ n, f (.number (.natural n)) = .number (.natural n)
  negative : ∀ n, f (.number (.negative n)) = .number (.negative n)
  real : ∀ x, ∃ n, f (.number (.real x)) = .number n ∧ n.toBinary64 = change x
  array : ∀ items, f (.array items) = .array (items.map f)
  object : ∀ members, ∃ order : List (String × Json), order.Perm members ∧
    f (.object members) = .object (order.map fun m => (m.1,f m.2))

theorem restates_same : Restates (fun v => v) (fun x => x) where
  null := rfl
  bool _ := rfl
  string _ := rfl
  natural _ := rfl
  negative _ := rfl
  real x := ⟨.real x,rfl,rfl⟩
  array items := by rw [List.map_id']
  object members := ⟨members,.refl _,by rw [List.map_id']⟩

namespace Restates

variable {f : Json → Json} {change : Binary64 → Binary64}

theorem readable_number (h : Restates f change) (n : Number) : (f (.number n)).readable = true := by
  cases n with
  | natural n => rw [h.natural]; rfl
  | negative n => rw [h.negative]; rfl
  | real x =>
    obtain ⟨n,hn,-⟩ := h.real x
    rw [hn]
    rfl

mutual

theorem readable (h : Restates f change) : (v : Json) → v.readable = true → (f v).readable = true
  | .null, _ => by rw [h.null]; rfl
  | .bool b, _ => by rw [h.bool]; rfl
  | .string s, _ => by rw [h.string]; rfl
  | .number n, _ => readable_number h n
  | .array items, hv => by
    rw [h.array,Json.readable,readableItems_iff,List.forall_mem_map]
    exact readable_items h items hv
  | .object members, hv => by
    obtain ⟨order,ho,he⟩ := h.object members
    rw [he,Json.readable,readableMembers_iff,List.forall_mem_map]
    intro m hm
    exact readable_members h members hv m (ho.subset hm)
  | .unreadable, hv => nomatch hv

theorem readable_items (h : Restates f change) : (items : List Json) →
    readableItems items = true → ∀ v ∈ items, (f v).readable = true
  | [], _ => by simp
  | v :: rest, hv => by
    rw [readableItems,Bool.and_eq_true] at hv
    exact List.forall_mem_cons.mpr ⟨readable h v hv.1,readable_items h rest hv.2⟩

theorem readable_members (h : Restates f change) : (members : List (String × Json)) →
    readableMembers members = true → ∀ m ∈ members, (f m.2).readable = true
  | [], _ => by simp
  | (n,v) :: rest, hv => by
    rw [readableMembers,Bool.and_eq_true] at hv
    exact List.forall_mem_cons.mpr ⟨readable h v hv.1,readable_members h rest hv.2⟩

end

variable (h : Restates f change)
include h

theorem fields? (members : List (String × Json)) (names : List String) :
    (f (.object members)).fields? names =
      ((Json.object members).fields? names).map (List.map (Option.map f)) := by
  obtain ⟨order,ho,he⟩ := h.object members
  rw [he,fields?_map,fields?_perm ho]

theorem tagged? {tag name : String} {members : List (String × Json)}
    (ht : ∀ m ∈ members, m.1 ≠ tag)
    (hr : (Json.object ((tag,.string name) :: members)).readable = true) :
    ∃ rest : List (String × Json),
      (f (.object ((tag,.string name) :: members))).tagged? tag = some (name,.object rest) ∧
      ∀ names, (Json.object rest).fields? names =
        ((Json.object members).fields? names).map (List.map (Option.map f)) := by
  have hreadable := h.readable _ hr
  obtain ⟨order,ho,he⟩ := h.object ((tag,.string name) :: members)
  rw [he] at hreadable
  refine ⟨(order.map fun m => (m.1,f m.2)).filter (·.1 ≠ tag),?_,?_⟩
  · have hfield : field? (order.map fun m => (m.1,f m.2)) tag = some (some (.string name)) := by
      rw [field?_map,field?_perm ho,field?_tag ht,Option.map_some,Option.map_some,h.string]
    rw [he,Json.tagged?,if_pos hreadable]
    simp only [hfield]
  · intro names
    have hf : (order.map fun m => (m.1,f m.2)).filter (fun m => decide (m.1 ≠ tag)) =
        (order.filter fun m => decide (m.1 ≠ tag)).map fun m => (m.1,f m.2) := by
      rw [List.filter_map]
      rfl
    have hp := ho.filter fun m => decide (m.1 ≠ tag)
    rw [filter_tag ht] at hp
    rw [hf,fields?_map,fields?_perm hp]

theorem asBinary64? (x : Binary64) : (f (ofBinary64 x)).asBinary64? = some (change x) := by
  obtain ⟨n,hn,hv⟩ := h.real x
  rw [ofBinary64,hn,Json.asBinary64?,hv]

theorem asUInt64? (n : UInt64) : (f (ofUInt64 n)).asUInt64? = some n := by
  rw [ofUInt64,h.natural]
  rfl

theorem asInt64? (n : Int64) : (f (ofInt64 n)).asInt64? = some n := by
  have hf : f (ofInt64 n) = ofInt64 n := by
    rw [ofInt64]
    split
    · exact h.natural _
    · exact h.negative _
  rw [hf,asInt64?_ofInt64]

theorem asList? {read : Json → Option β} {write : α → Json} {g : α → β}
    (hr : ∀ a, read (f (write a)) = some (g a)) (items : List α) :
    (f (ofList write items)).asList? read = some (items.map g) := by
  rw [ofList,h.array,Json.asList?]
  induction items with
  | nil => rfl
  | cons a rest ih =>
    rw [List.map_cons,List.map_cons,List.mapM_cons,hr,ih]
    rfl

theorem asMap? {read : Json → Option β} {write : α → Json} {g : α → β}
    (hr : ∀ a, read (f (write a)) = some (g a)) (m : NameMap α) :
    (f (ofMap write m)).asMap? read = some (m.map g) := by
  obtain ⟨order,ho,he⟩ := h.object (m.entries.map fun e => (e.1,write e.2))
  have hread : ∀ entries : List (String × α),
      ((entries.map fun e => (e.1,write e.2)).map fun m => (m.1,f m.2)).mapM
        (fun member => (read member.2).map (member.1,·)) = some (entries.map fun e => (e.1,g e.2)) := by
    intro entries
    induction entries with
    | nil => rfl
    | cons e rest ih =>
      simp only [List.map_cons,List.mapM_cons,hr,ih]
      rfl
  obtain ⟨others,hothers,hm⟩ := mapM_perm (ho.map fun m => (m.1,f m.2)) (hread m.entries)
  rw [← NameMap.entries_map] at hothers
  have hmap : NameMap.ofList others = m.map g := by
    rw [NameMap.ofList_perm hothers (m.map g).nodup_names,NameMap.ofList_entries]
  rw [ofMap,he,Json.asMap?,hm,Option.map_some,hmap]

end Restates

end BehaviorMachine.Json
