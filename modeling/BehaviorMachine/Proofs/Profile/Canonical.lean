import BehaviorMachine.Proofs.Json.Canonical
import BehaviorMachine.Proofs.Profile.Document

/-!
# Digests of profiles

The canonical text of a profile is read as the profile with one zero only, so it is the text of no
other profile. Digests therefore tell profiles apart unless two texts collide (`hash_identifies`).
-/
namespace BehaviorMachine

open Json

namespace Sha256

theorem digits_inj {m n m' n' : Nat} (hm : m < 16) (hn : n < 16) (hm' : m' < 16) (hn' : n' < 16)
    (h : [Nat.digitChar m,Nat.digitChar n] = [Nat.digitChar m',Nat.digitChar n']) :
    m = m' ∧ n = n' := by
  have hinj : ∀ a < 16, ∀ b < 16, Nat.digitChar a = Nat.digitChar b → a = b := by decide
  simp only [List.cons.injEq,and_true] at h
  exact ⟨hinj m hm m' hm' h.1,hinj n hn n' hn' h.2⟩

theorem hex_eq_iff {text text' : String} : hex text = hex text' ↔ hash text.toUTF8 = hash text'.toUTF8 := by
  have hbytes : ∀ bytes bytes' : List UInt8,
      (bytes.flatMap fun b => [Nat.digitChar (b.toNat / 16),Nat.digitChar (b.toNat % 16)]) =
        (bytes'.flatMap fun b => [Nat.digitChar (b.toNat / 16),Nat.digitChar (b.toNat % 16)]) →
      bytes = bytes' := by
    intro bytes
    induction bytes with
    | nil =>
      intro bytes' h
      cases bytes' with
      | nil => rfl
      | cons b' rest' => simp at h
    | cons b rest ih =>
      intro bytes' h
      cases bytes' with
      | nil => simp at h
      | cons b' rest' =>
        rw [List.flatMap_cons,List.flatMap_cons] at h
        obtain ⟨hhead,hrest⟩ := List.append_inj h rfl
        have hlt := b.toNat_lt
        have hlt' := b'.toNat_lt
        obtain ⟨hdiv,hmod⟩ := digits_inj (by omega) (by omega) (by omega) (by omega) hhead
        have hb : b = b' := UInt8.toNat_inj.mp (by omega)
        rw [hb,ih rest' hrest]
  rw [hex,hex]
  constructor
  · intro h
    exact hbytes _ _ (String.ofList_injective h)
  · intro h
    rw [h]

end Sha256

section MapReals

variable (change : Binary64 → Binary64)

theorem mapReals_ofList {α : Type} {write : α → Json} {k : α → α}
    (hw : ∀ a, mapReals change (write a) = write (k a)) (items : List α) :
    mapReals change (ofList write items) = ofList write (items.map k) := by
  rw [ofList,ofList,mapReals_array,List.map_map,List.map_map]
  simp only [Function.comp_def,hw]

theorem mapReals_present {α : Type} {write : α → Json}
    (hw : ∀ a, mapReals change (write a) = write a) (name : String) (value : Option α) :
    (present name write value).map (fun m => (m.1,mapReals change m.2)) = present name write value := by
  cases value with
  | none => rfl
  | some a => simp [present,hw]

theorem mapReals_nonempty {α : Type} {write : α → Json}
    (hw : ∀ a, mapReals change (write a) = write a) (name : String) (items : List α) :
    (nonempty name write items).map (fun m => (m.1,mapReals change m.2)) = nonempty name write items := by
  cases items with
  | nil => rfl
  | cons a rest =>
    have hlist := mapReals_ofList (k := fun a => a) change hw (a :: rest)
    rw [List.map_id'] at hlist
    simp only [nonempty,List.map_cons,List.map_nil,hlist]

theorem mapReals_ofInt64 (n : Int64) : mapReals change (ofInt64 n) = ofInt64 n := by
  rw [ofInt64]
  split <;> rfl

theorem ParamValue.toJson_mapNumbers (v : ParamValue) :
    mapReals change v.toJson = (v.mapNumbers change).toJson := by
  cases v <;> rfl

theorem BehaviorParams.toJson_mapNumbers (params : BehaviorParams) :
    mapReals change params.toJson = (params.mapNumbers change).toJson := by
  simp [toJson,mapNumbers,ofMap,mapReals_object,NameMap.entries_map,ParamValue.toJson_mapNumbers]

theorem Condition.toJson_mapNumbers (c : Condition) :
    mapReals change c.toJson = (c.mapNumbers change).toJson := by
  cases c <;> rfl

theorem Port.mapReals_toJson (p : Port) : mapReals change p.toJson = p.toJson := rfl

theorem ParamBinding.mapReals_toJson (b : ParamBinding) : mapReals change b.toJson = b.toJson := rfl

theorem DataConnection.mapReals_toJson (c : DataConnection) : mapReals change c.toJson = c.toJson :=
  rfl

theorem InterruptHandler.mapReals_toJson (i : InterruptHandler) :
    mapReals change i.toJson = i.toJson := by
  obtain ⟨type,action,target⟩ := i
  cases target <;> rfl

theorem StateSpec.toJson_mapNumbers (s : StateSpec) :
    mapReals change s.toJson = (s.mapNumbers change).toJson := by
  have hhandlers := mapReals_ofList (k := fun i => i) change (InterruptHandler.mapReals_toJson change)
  have hports := mapReals_nonempty change (Port.mapReals_toJson change)
  have hbindings := mapReals_nonempty change (ParamBinding.mapReals_toJson change)
  simp [toJson,mapNumbers,mapReals_object,hhandlers,hports,hbindings,
    BehaviorParams.toJson_mapNumbers,Identifier.toJson,mapReals]

theorem Transition.toJson_mapNumbers (t : Transition) :
    mapReals change t.toJson = (t.mapNumbers change).toJson := by
  have htext : ∀ s, mapReals change (.string s) = .string s := fun _ => rfl
  have hlabel := mapReals_present change htext
  simp [toJson,mapNumbers,mapReals_object,hlabel,Condition.toJson_mapNumbers,mapReals_ofInt64,
    Identifier.toJson,mapReals]

theorem Profile.toJson_mapNumbers (p : Profile) :
    mapReals change p.toJson = (p.mapNumbers change).toJson := by
  have htext : ∀ s, mapReals change (.string s) = .string s := fun _ => rfl
  have hid : ∀ s : StateId, mapReals change s.toJson = s.toJson := fun _ => rfl
  have hdescription := mapReals_present change htext
  have hinitial := mapReals_present change hid
  have hstates := mapReals_ofList change (StateSpec.toJson_mapNumbers change)
  have htransitions := mapReals_ofList change (Transition.toJson_mapNumbers change)
  have hconnections := mapReals_ofList (k := fun c => c) change (DataConnection.mapReals_toJson change)
  simp [toJson,mapNumbers,mapReals_object,hdescription,hinitial,hstates,htransitions,hconnections,
    Identifier.toJson,mapReals]

end MapReals

namespace Profile

/-- The canonical text of a profile is read as the profile, with one zero only. -/
theorem read_canonicalText (p : Profile) :
    (readChars p.canonicalText.toList).bind ofJson? = some (p.mapNumbers Binary64.oneZero) := by
  obtain ⟨g,hg⟩ := exists_canonizes
  have hd : p.toJson.depth ≤ nestingLimit := Nat.le_trans p.depth_toJson (by decide)
  rw [canonicalText,HashDigest.canonicalText,String.toList_ofList,readChars_canonical hg hd,
    Option.bind_some,ofJson?_restated hg.restates]

theorem canonicalText_eq_iff {p q : Profile} :
    p.canonicalText = q.canonicalText ↔
      p.mapNumbers Binary64.oneZero = q.mapNumbers Binary64.oneZero := by
  constructor
  · intro h
    have hp := p.read_canonicalText
    rw [h,read_canonicalText] at hp
    exact (Option.some.inj hp).symm
  · intro h
    have htext (r : Profile) : (r.mapNumbers Binary64.oneZero).toJson.canonical = r.toJson.canonical := by
      rw [← toJson_mapNumbers,canonical_mapReals]
    rw [canonicalText,canonicalText,HashDigest.canonicalText,HashDigest.canonicalText,← htext p,h,htext q]

/-- Two profiles have one canonical text exactly if they are equal up to the sign of zeros. They have
one digest only if they are so, or SHA-256 maps their different texts to the same bytes. -/
theorem hash_identifies (p q : Profile) :
    (p.canonicalText = q.canonicalText ↔
      p.mapNumbers Binary64.oneZero = q.mapNumbers Binary64.oneZero) ∧
    (p.hash = q.hash ↔
      p.mapNumbers Binary64.oneZero = q.mapNumbers Binary64.oneZero ∨
      p.canonicalText.toUTF8 ≠ q.canonicalText.toUTF8 ∧
        Sha256.hash p.canonicalText.toUTF8 = Sha256.hash q.canonicalText.toUTF8) := by
  refine ⟨canonicalText_eq_iff,?_⟩
  have hhash : p.hash = q.hash ↔
      Sha256.hash p.canonicalText.toUTF8 = Sha256.hash q.canonicalText.toUTF8 := by
    simp [hash,HashDigest.ofDocument,canonicalText,Sha256.hex_eq_iff]
  rw [hhash,← canonicalText_eq_iff,ne_eq,String.toUTF8,String.toUTF8,String.toByteArray_inj]
  by_cases he : p.canonicalText = q.canonicalText
  · simp [he]
  · simp [he]

end Profile

end BehaviorMachine
