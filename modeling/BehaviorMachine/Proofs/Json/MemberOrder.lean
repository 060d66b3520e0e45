import BehaviorMachine.Proofs.Json.Restating
import Mathlib.Data.List.Forall2

/-!
# Member order

Two values may differ in the order of the members of their objects, at any depth. Where no object
repeats a name, the fields of records and the parts of tagged values do not depend on it
(`Reordered.fields?`, `Reordered.tagged?`), and then neither does what is read from them.
-/
namespace BehaviorMachine.Json

mutual

/-- Values without repeated names that differ in the order of members only, at any depth. -/
inductive Reordered : Json → Json → Prop where
  | null : Reordered .null .null
  | bool (b : Bool) : Reordered (.bool b) (.bool b)
  | number (n : Number) : Reordered (.number n) (.number n)
  | string (s : String) : Reordered (.string s) (.string s)
  | unreadable : Reordered .unreadable .unreadable
  | array {items others : List Json} (h : ReorderedItems items others) :
      Reordered (.array items) (.array others)
  | object {members found others : List (String × Json)} (hn : (members.map Prod.fst).Nodup)
      (h : ReorderedMembers members found) (hp : found.Perm others) :
      Reordered (.object members) (.object others)

inductive ReorderedItems : List Json → List Json → Prop where
  | nil : ReorderedItems [] []
  | cons {v w : Json} {items others : List Json} (hv : Reordered v w)
      (h : ReorderedItems items others) : ReorderedItems (v :: items) (w :: others)

inductive ReorderedMembers : List (String × Json) → List (String × Json) → Prop where
  | nil : ReorderedMembers [] []
  | cons {name : String} {v w : Json} {members others : List (String × Json)} (hv : Reordered v w)
      (h : ReorderedMembers members others) :
      ReorderedMembers ((name,v) :: members) ((name,w) :: others)

end

mutual

theorem Reordered.readable {v w : Json} (h : Reordered v w) : v.readable = w.readable := by
  cases h with
  | array h => rw [Json.readable,Json.readable,h.readable]
  | object hn h hp =>
    rw [Json.readable,Json.readable,h.readable,Bool.eq_iff_iff,readableMembers_iff,
      readableMembers_iff]
    exact ⟨fun hf m hm => hf m (hp.mem_iff.mpr hm),fun hf m hm => hf m (hp.mem_iff.mp hm)⟩
  | _ => rfl

theorem ReorderedItems.readable {items others : List Json} (h : ReorderedItems items others) :
    readableItems items = readableItems others := by
  cases h with
  | nil => rfl
  | cons hv h => rw [readableItems,readableItems,hv.readable,h.readable]

theorem ReorderedMembers.readable {members others : List (String × Json)}
    (h : ReorderedMembers members others) : readableMembers members = readableMembers others := by
  cases h with
  | nil => rfl
  | cons hv h => rw [readableMembers,readableMembers,hv.readable,h.readable]

end

theorem ReorderedItems.forall₂ {items others : List Json} (h : ReorderedItems items others) :
    List.Forall₂ Reordered items others := by
  induction items generalizing others with
  | nil =>
    cases h
    exact .nil
  | cons v rest ih =>
    cases h with
    | cons hv h => exact .cons hv (ih h)

namespace ReorderedMembers

variable {members others : List (String × Json)}

theorem filter (h : ReorderedMembers members others) (keep : String → Bool) :
    ReorderedMembers (members.filter fun m => keep m.1) (others.filter fun m => keep m.1) := by
  induction members generalizing others with
  | nil =>
    cases h
    exact .nil
  | cons m rest ih =>
    cases h with
    | @cons name v w _ others hv h =>
      by_cases hk : keep name
      · simp only [List.filter_cons,hk,if_true]
        exact .cons hv (ih h)
      · simp only [List.filter_cons,hk]
        exact ih h

theorem names (h : ReorderedMembers members others) :
    members.map Prod.fst = others.map Prod.fst := by
  induction members generalizing others with
  | nil =>
    cases h
    rfl
  | cons m rest ih =>
    cases h with
    | cons hv h => rw [List.map_cons,List.map_cons,ih h]

theorem field? (h : ReorderedMembers members others) (name : String) :
    Option.Rel (Option.Rel Reordered) (field? members name) (field? others name) := by
  have hf := h.filter fun n => decide (n = name)
  rw [Json.field?,Json.field?]
  generalize members.filter _ = a at hf ⊢
  generalize others.filter _ = b at hf ⊢
  cases hf with
  | nil => exact .some .none
  | cons hv hf =>
    cases hf with
    | nil => exact .some (.some hv)
    | cons hv' hf => exact .none

end ReorderedMembers

/-- The fields of a record do not depend on the order of members, except in their own parts. -/
theorem Reordered.fields? {v w : Json} (h : Reordered v w) (names : List String) :
    Option.Rel (List.Forall₂ (Option.Rel Reordered)) (v.fields? names) (w.fields? names) := by
  cases h with
  | array h =>
    have hf := h.forall₂
    rw [Json.fields?,Json.fields?,← hf.length_eq]
    split
    · refine .some (List.rel_append ?_ ?_)
      · exact List.rel_map (fun _ _ hv => .some hv) hf
      · exact List.forall₂_same.mpr fun _ hm => by
          rw [List.eq_of_mem_replicate hm]
          exact .none
    · exact .none
  | @object members found others hn h hp =>
    rw [← fields?_perm hp,Json.fields?,Json.fields?]
    induction names with
    | nil => exact .some .nil
    | cons name rest ih =>
      rw [List.mapM_cons,List.mapM_cons]
      have hname := h.field? name
      generalize Json.field? members name = a at hname ⊢
      generalize Json.field? found name = b at hname ⊢
      cases hname with
      | none => exact .none
      | some hab =>
        generalize List.mapM (Json.field? members) rest = as at ih ⊢
        generalize List.mapM (Json.field? found) rest = bs at ih ⊢
        cases ih with
        | none => exact .none
        | some hrest => exact .some (.cons hab hrest)
  | _ => exact .none

theorem Reordered.isUnit {v w : Json} (h : Reordered v w) : v.isUnit = w.isUnit := by
  cases h with
  | array h =>
    cases h with
    | nil => rfl
    | cons hv h => rfl
  | _ => rfl

theorem Reordered.tagged? {v w : Json} (h : Reordered v w) (tag : String) :
    Option.Rel (fun a b => a.1 = b.1 ∧ Reordered a.2 b.2) (v.tagged? tag) (w.tagged? tag) := by
  have hr := h.readable
  unfold Json.tagged?
  rw [← hr]
  split
  · cases h with
    | array h =>
      cases h with
      | nil => exact .none
      | cons hv h =>
        cases hv with
        | string s => exact .some ⟨rfl,.array h⟩
        | _ => exact .none
    | @object members found others hn h hp =>
      have hfield := h.field? tag
      rw [field?_perm hp] at hfield
      have hrest : Reordered (.object (members.filter (·.1 ≠ tag)))
          (.object (others.filter (·.1 ≠ tag))) :=
        .object (hn.sublist (List.filter_sublist.map Prod.fst)) (h.filter fun n => n ≠ tag)
          (hp.filter _)
      dsimp only
      generalize Json.field? members tag = a at hfield ⊢
      generalize Json.field? others tag = b at hfield ⊢
      cases hfield with
      | none => exact .none
      | some hfield =>
        cases hfield with
        | none => exact .none
        | some hname =>
          cases hname with
          | string s => exact .some ⟨rfl,hrest⟩
          | _ => exact .none
    | _ => exact .none
  · exact .none

theorem Reordered.single? {v w : Json} (h : Reordered v w) :
    Option.Rel (fun a b => a.1 = b.1 ∧ Reordered a.2 b.2) v.single? w.single? := by
  cases h with
  | @object members found others hn h hp =>
    cases h with
    | nil =>
      rw [hp.symm.eq_nil]
      exact .none
    | cons hv h =>
      cases h with
      | nil =>
        rw [List.perm_singleton.mp hp.symm]
        exact .some ⟨rfl,hv⟩
      | cons hv' h =>
        have hl := hp.length_eq
        rcases others with _ | ⟨m,_ | ⟨n,rest⟩⟩
        · simp at hl
        · simp at hl
        · exact .none
  | _ => exact .none

theorem bind_member {α : Type} {a b : Option (String × Json)} {f : String × Json → Option α}
    (h : Option.Rel (fun a b => a.1 = b.1 ∧ Reordered a.2 b.2) a b)
    (hf : ∀ name v w, Reordered v w → f (name,v) = f (name,w)) : a.bind f = b.bind f := by
  cases h with
  | none => rfl
  | @some m n hm =>
    obtain ⟨name,v⟩ := m
    obtain ⟨name',w⟩ := n
    obtain ⟨rfl,hv⟩ := hm
    exact hf _ _ _ hv

theorem unitName?_object (members : List (String × Json)) :
    (Json.object members).unitName? = (Json.object members).single?.bind fun m =>
      match m.2 with
      | .null => some m.1
      | _ => none := by
  rcases members with _ | ⟨⟨name,v⟩,rest⟩
  · rfl
  · cases v <;> cases rest <;> rfl

theorem taggedUnitName?_object (members : List (String × Json)) :
    (Json.object members).taggedUnitName? = (Json.object members).single?.bind fun m =>
      match m.2 with
      | .null => some m.1
      | .object [] => some m.1
      | _ => none := by
  rcases members with _ | ⟨⟨name,v⟩,rest⟩
  · rfl
  · cases v with
    | object members => cases members <;> cases rest <;> rfl
    | _ => cases rest <;> rfl

/-- A reader to which the order of members makes no difference. -/
def IgnoresOrder {α : Type} (read : Json → Option α) : Prop :=
  ∀ v w, Reordered v w → read v = read w

section

variable {α β : Type} {read : Json → Option α}

theorem IgnoresOrder.bind (h : IgnoresOrder read) (f : α → Option β) :
    IgnoresOrder fun v => (read v).bind f :=
  fun v w hv => congrArg (fun a => a.bind f) (h v w hv)

theorem IgnoresOrder.map (h : IgnoresOrder read) (f : α → β) :
    IgnoresOrder fun v => (read v).map f :=
  fun v w hv => congrArg (Option.map f) (h v w hv)

theorem ReorderedMembers.map_read {members others : List (String × Json)}
    (hm : ReorderedMembers members others) (h : IgnoresOrder read) :
    (members.map fun m => (m.1,read m.2)) = others.map fun m => (m.1,read m.2) := by
  induction members generalizing others with
  | nil =>
    cases hm
    rfl
  | cons m rest ih =>
    cases hm with
    | cons hv hm => rw [List.map_cons,List.map_cons,h _ _ hv,ih hm]

theorem asMap?_some (members : List (String × Json)) :
    (Json.object members).asMap? some = some (.ofList members) := by
  have hm : (members.mapM fun m => (some m.2).map (m.1,·)) = some members := by
    induction members with
    | nil => rfl
    | cons m rest ih =>
      rw [List.mapM_cons,ih]
      rfl
  rw [asMap?,hm,Option.map_some]

theorem ignoresOrder_asString? : IgnoresOrder asString? := by
  intro v w h
  cases h <;> rfl

theorem ignoresOrder_asUInt64? : IgnoresOrder asUInt64? := by
  intro v w h
  cases h <;> rfl

theorem ignoresOrder_asInt64? : IgnoresOrder asInt64? := by
  intro v w h
  cases h <;> rfl

theorem ignoresOrder_asBinary64? : IgnoresOrder asBinary64? := by
  intro v w h
  cases h <;> rfl

theorem ignoresOrder_unitName? : IgnoresOrder unitName? := by
  intro v w h
  have hs := h.single?
  cases h with
  | @object members found others hn h hp =>
    rw [unitName?_object,unitName?_object]
    apply bind_member hs
    intro name v w hv
    cases hv <;> rfl
  | _ => rfl

theorem ignoresOrder_taggedUnitName? : IgnoresOrder taggedUnitName? := by
  intro v w h
  have hs := h.single?
  cases h with
  | @object members found others hn h hp =>
    rw [taggedUnitName?_object,taggedUnitName?_object]
    apply bind_member hs
    intro name v w hv
    cases hv with
    | @object members found others hn h hp =>
      have hl := hp.length_eq
      cases h with
      | nil => rw [hp.symm.eq_nil]
      | cons hv h =>
        cases others with
        | nil => simp at hl
        | cons m rest => rfl
    | _ => rfl
  | _ => rfl

theorem ignoresOrder_asList? (h : IgnoresOrder read) : IgnoresOrder (asList? read) := by
  intro v w hv
  cases hv with
  | array hi =>
    have hf := hi.forall₂
    rw [asList?,asList?]
    clear hi
    induction hf with
    | nil => rfl
    | cons hv _ ih => rw [List.mapM_cons,List.mapM_cons,h _ _ hv,ih]
  | _ => rfl

theorem ignoresOrder_entries (h : IgnoresOrder read) :
    IgnoresOrder fun v => (v.asMap? some).map (·.filterMap read) := by
  intro v w hv
  cases hv with
  | @object members found others hn hm hp =>
    have hvalues : (members.map fun m => (m.1,read m.2)) = found.map fun m => (m.1,read m.2) :=
      hm.map_read h
    have hothers : (others.map Prod.fst).Nodup := (hp.map Prod.fst).nodup_iff.mp (hm.names ▸ hn)
    simp only [asMap?_some,Option.map_some,NameMap.filterMap_ofList hvalues,
      NameMap.ofList_perm hp hothers]
  | _ => rfl

section

variable {a b : Option Json} (hab : Option.Rel Reordered a b) (h : IgnoresOrder read)
include hab h

theorem required_reordered : required a read = required b read := by
  cases hab with
  | none => rfl
  | some hv => exact h _ _ hv

theorem defaulted_reordered (default : α) :
    defaulted default a read = defaulted default b read := by
  cases hab with
  | none => rfl
  | some hv => exact h _ _ hv

theorem optional_reordered : optional a read = optional b read := by
  cases hab with
  | none => rfl
  | some hv =>
    have hread := h _ _ hv
    cases hv with
    | null => rfl
    | _ => exact congrArg (Option.map some) hread

end

/-- Reading a record ignores the order of members if reading its fields does. -/
theorem ignoresOrder_record (names : List String) {body : List (Option Json) → Option α}
    (hb : ∀ fields others, List.Forall₂ (Option.Rel Reordered) fields others →
      body fields = body others) : IgnoresOrder fun v => (v.fields? names).bind body := by
  intro v w hv
  have hf := hv.fields? names
  change (v.fields? names).bind body = (w.fields? names).bind body
  generalize v.fields? names = a at hf ⊢
  generalize w.fields? names = b at hf ⊢
  cases hf with
  | none => rfl
  | some hf => exact hb _ _ hf

end

end BehaviorMachine.Json
