import BehaviorMachine.Proofs.Json.Reading
import BehaviorMachine.Proofs.Json.Restating

/-!
# Canonical text

Canonical text is read as a restatement of the value: members stand in the order of their written
names, whole numbers are read as such, and the negative zero as zero (`readChars_canonical`). Nothing
else is lost, and nothing else is told apart (`canonical_mapReals`).
-/
namespace BehaviorMachine

open Json Token Shortest

/-- Both zeros are taken for one. -/
def Binary64.oneZero (x : Binary64) : Binary64 := if x.rank = 0 then zero else x

namespace Json

theorem whole_reads {k rank : Nat} (negative : Bool) (h : rank < magnitudes)
    (hr : reads rank ⟨k,0⟩ = true) :
    ∃ m : Number, whole negative k = .number m ∧ m.toBinary64 = ⟨negative,rank,h⟩ := by
  have hrank : nearestRank (k <<< 1074) 1 = rank := by
    have hreads := reads_iff.mp hr
    simpa [Decimal.ratio,powerOfTen] using hreads
  have hword {n : UInt64} (hn : n.toNat = k) (sign : Bool) :
      Binary64.ofWord sign n = ⟨sign,rank,h⟩ := by
    rw [Binary64.ofWord,hn,Decimal.ofRatio_finite sign h hrank]
    rfl
  rw [whole]
  split
  · next hn =>
    refine ⟨_,rfl,?_⟩
    rw [hn.1]
    exact hword (UInt64.toNat_ofNat_of_lt' hn.2) false
  · split
    · next hn =>
      obtain ⟨rfl,hlt,hpos⟩ := hn
      refine ⟨_,rfl,?_⟩
      apply hword _ true
      have hsize : k - 1 + 1 < UInt64.size := Nat.lt_of_le_of_lt hlt (by decide)
      rw [UInt64.toNat_ofNat_of_lt' hsize]
      omega
    · rw [Decimal.round_of_reads negative h hr]
      exact ⟨.real ⟨negative,rank,h⟩,rfl,rfl⟩

theorem number?_reads (negative : Bool) (layout : NumberLayout) {rank : Nat} (h : rank < magnitudes) :
    ∃ m : Number, m.toBinary64 = ⟨negative,rank,h⟩ ∧ ∀ rest, Ends rest →
      number? negative (layout.magnitude rank ++ rest) = some (.number m,rest) := by
  obtain ⟨n,hn,ht,hreads,-⟩ := layout.magnitude_numeral rank
  by_cases hwhole : n.fraction.isEmpty = true ∧ n.exponent.isNone = true
  · have hdecimal : n.decimal = ⟨numeralValue 10 n.whole,0⟩ := by
      rw [Numeral.decimal,List.isEmpty_iff.mp hwhole.1,Option.isNone_iff_eq_none.mp hwhole.2,
        List.append_nil]
      rfl
    rw [hdecimal] at hreads
    obtain ⟨m,hm,hx⟩ := whole_reads negative h hreads
    refine ⟨m,hx,?_⟩
    intro rest hr
    rw [ht,number?_text negative hn hr,if_pos hwhole,hm]
  · refine ⟨.real ⟨negative,rank,h⟩,rfl,?_⟩
    intro rest hr
    rw [ht,number?_text negative hn hr,if_neg hwhole,Decimal.round_of_reads negative h hreads]

theorem spells_canonicalReal (x : Binary64) :
    ∃ m : Number, m.toBinary64 = x.oneZero ∧
      Spells (Number.write canonicalNumbers (.real x)) [.scalar (.number m)] := by
  rcases x with ⟨negative,rank,h⟩
  by_cases hneg : negative = true ∧ rank ≠ 0
  · obtain ⟨m,hm,hread⟩ := number?_reads true canonicalNumbers h
    refine ⟨m,?_,?_⟩
    · rw [hm,Binary64.oneZero,if_neg hneg.2,hneg.1]
    · have htext : Number.write canonicalNumbers (.real ⟨negative,rank,h⟩) =
          '-' :: canonicalNumbers.magnitude rank := by
        simp [Number.write,NumberLayout.text,hneg]
      rw [htext]
      exact spells_minus hread
  · obtain ⟨m,hm,hread⟩ := number?_reads false canonicalNumbers h
    refine ⟨m,?_,?_⟩
    · rw [hm,Binary64.oneZero]
      cases negative with
      | false =>
        split
        · next hz =>
          have hrank : rank = 0 := hz
          subst hrank
          rfl
        · rfl
      | true =>
        have hrank : rank = 0 := by simpa using hneg
        subst hrank
        rfl
    · have htext : Number.write canonicalNumbers (.real ⟨negative,rank,h⟩) =
          canonicalNumbers.magnitude rank := by
        simp only [Number.write,NumberLayout.text,canonicalNumbers,Bool.false_eq_true,or_false,hneg,
          if_false]
      rw [htext]
      exact spells_digits (magnitude_head canonicalNumbers rank) hread

structure Canonizes (g : Number → Number) : Prop where
  natural : ∀ n, g (.natural n) = .natural n
  negative : ∀ n, g (.negative n) = .negative n
  real : ∀ x, (g (.real x)).toBinary64 = x.oneZero
  spells : ∀ n, Spells (n.write canonicalNumbers) [.scalar (.number (g n))]

theorem exists_canonizes : ∃ g, Canonizes g := by
  choose k hx hs using spells_canonicalReal
  refine ⟨fun n => match n with | .real x => k x | n => n,fun _ => rfl,fun _ => rfl,hx,?_⟩
  intro n
  cases n with
  | natural n => exact spells_number (.natural n)
  | negative n => exact spells_number (.negative n)
  | real x => exact hs x

/-- Members in the order of their written names. -/
def byWrittenName {α : Type} (members : List (String × α)) : List (String × α) :=
  members.mergeSort fun a b =>
    decide (String.ofList (writeString a.1) ≤ String.ofList (writeString b.1))

mutual

/-- The value that canonical text is read as. -/
def recast (g : Number → Number) : Json → Json
  | .number n => .number (g n)
  | .array items => .array (recastItems g items)
  | .object members => .object (byWrittenName (recastMembers g members))
  | v => v

def recastItems (g : Number → Number) : List Json → List Json
  | [] => []
  | v :: rest => recast g v :: recastItems g rest

def recastMembers (g : Number → Number) : List (String × Json) → List (String × Json)
  | [] => []
  | (n,v) :: rest => (n,recast g v) :: recastMembers g rest

end

theorem byWrittenName_map {α β : Type} (f : α → β) (members : List (String × α)) :
    byWrittenName (members.map fun m => (m.1,f m.2)) =
      (byWrittenName members).map fun m => (m.1,f m.2) := by
  rw [byWrittenName,byWrittenName,List.map_mergeSort]
  intro a _ b _
  rfl

theorem recastItems_eq (g : Number → Number) (items : List Json) :
    recastItems g items = items.map (recast g) := by
  induction items with
  | nil => rfl
  | cons v rest ih => rw [recastItems,ih,List.map_cons]

theorem recastMembers_eq (g : Number → Number) (members : List (String × Json)) :
    recastMembers g members = members.map fun m => (m.1,recast g m.2) := by
  induction members with
  | nil => rfl
  | cons m rest ih => rw [recastMembers,ih,List.map_cons]

theorem recast_object (g : Number → Number) (members : List (String × Json)) :
    recast g (.object members) =
      .object ((byWrittenName members).map fun m => (m.1,recast g m.2)) := by
  rw [recast,recastMembers_eq,byWrittenName_map]

theorem canonicalItems_eq (items : List Json) : canonicalItems items = items.map canonical := by
  induction items with
  | nil => rfl
  | cons v rest ih => rw [canonicalItems,ih,List.map_cons]

theorem canonical_object (members : List (String × Json)) :
    canonical (.object members) =
      '{' :: separated [',']
        ((byWrittenName members).map fun m => writeString m.1 ++ ':' :: m.2.canonical) ++ ['}'] := by
  have hparts : canonicalMembers members =
      members.map fun m => (String.ofList (writeString m.1),m.2.canonical) := by
    induction members with
    | nil => rfl
    | cons m rest ih => rw [canonicalMembers,ih,List.map_cons]
  have hsort : (canonicalMembers members).mergeSort (fun a b => decide (a.1 ≤ b.1)) =
      (byWrittenName members).map fun m => (String.ofList (writeString m.1),m.2.canonical) := by
    rw [hparts,byWrittenName,List.map_mergeSort]
    intro a _ b _
    rfl
  simp only [canonical,hsort,List.map_map,Function.comp_def,String.toList_ofList]

theorem memberTokens_eq (members : List (String × Json)) :
    memberTokens members =
      members.map fun m => Token.literal (some m.1) :: .colon :: tokens m.2 := by
  induction members with
  | nil => rfl
  | cons m rest ih => rw [memberTokens,ih,List.map_cons]

theorem itemTokens_eq (items : List Json) : itemTokens items = items.map tokens := by
  induction items with
  | nil => rfl
  | cons v rest ih => rw [itemTokens,ih,List.map_cons]

section Recast

variable {g : Number → Number}

mutual

theorem spells_canonical (hg : Canonizes g) : (v : Json) → Spells v.canonical (tokens (recast g v))
  | .null => spells_leaf .null
  | .bool true => spells_leaf (.bool true)
  | .bool false => spells_leaf (.bool false)
  | .string s => spells_leaf (.string s)
  | .unreadable => spells_leaf .unreadable
  | .number n => hg.spells n
  | .array items => by
    have hparts : List.Forall₂ Spells (canonicalItems items) (itemTokens (recastItems g items)) := by
      rw [canonicalItems_eq,recastItems_eq,itemTokens_eq,List.map_map,List.forall₂_map_left_iff,
        List.forall₂_map_right_iff]
      exact List.forall₂_same.mpr (spells_canonicalItems hg items)
    exact spells_line marks_bracket.1 marks_bracket.2 stops_bracket hparts
  | .object members => by
    rw [canonical_object,recast_object,tokens,memberTokens_eq,List.map_map]
    apply spells_line marks_brace.1 marks_brace.2 stops_brace
    rw [List.forall₂_map_left_iff,List.forall₂_map_right_iff]
    apply List.forall₂_same.mpr
    intro m hm
    have hv := spells_canonicalMembers hg members m ((List.mergeSort_perm _ _).subset hm)
    exact spells_member m.1 [] (by simp) hv

theorem spells_canonicalItems (hg : Canonizes g) : (items : List Json) →
    ∀ v ∈ items, Spells v.canonical (tokens (recast g v))
  | [] => by simp
  | v :: rest => List.forall_mem_cons.mpr ⟨spells_canonical hg v,spells_canonicalItems hg rest⟩

theorem spells_canonicalMembers (hg : Canonizes g) : (members : List (String × Json)) →
    ∀ m ∈ members, Spells m.2.canonical (tokens (recast g m.2))
  | [] => by simp
  | (_,v) :: rest =>
    List.forall_mem_cons.mpr ⟨spells_canonical hg v,spells_canonicalMembers hg rest⟩

end

mutual

theorem depth_recast (g : Number → Number) : (v : Json) → (recast g v).depth ≤ v.depth
  | .null => Nat.le_refl _
  | .bool _ => Nat.le_refl _
  | .string _ => Nat.le_refl _
  | .unreadable => Nat.le_refl _
  | .number _ => Nat.le_refl _
  | .array items => by
    rw [recast,depth,depth]
    exact Nat.succ_le_succ (depth_recastItems g items)
  | .object members => by
    rw [recast,depth,depth]
    apply Nat.succ_le_succ
    apply depthMembers_le_iff.mpr
    intro m hm
    have hall := depthMembers_le_iff.mp (depth_recastMembers g members)
    exact hall m ((List.mergeSort_perm _ _).subset hm)

theorem depth_recastItems (g : Number → Number) : (items : List Json) →
    depthItems (recastItems g items) ≤ depthItems items
  | [] => Nat.le_refl _
  | v :: rest => by
    rw [recastItems,depthItems,depthItems]
    have hv := depth_recast g v
    have hrest := depth_recastItems g rest
    omega

theorem depth_recastMembers (g : Number → Number) : (members : List (String × Json)) →
    depthMembers (recastMembers g members) ≤ depthMembers members
  | [] => Nat.le_refl _
  | (_,v) :: rest => by
    rw [recastMembers,depthMembers,depthMembers]
    have hv := depth_recast g v
    have hrest := depth_recastMembers g rest
    omega

end

theorem Canonizes.restates (hg : Canonizes g) : Restates (recast g) Binary64.oneZero where
  null := rfl
  bool _ := rfl
  string _ := rfl
  natural n := by rw [recast,hg.natural]
  negative n := by rw [recast,hg.negative]
  real x := ⟨g (.real x),rfl,hg.real x⟩
  array items := by rw [recast,recastItems_eq]
  object members := ⟨byWrittenName members,List.mergeSort_perm _ _,recast_object g members⟩

/-- Canonical text is read as a restatement of its value. -/
theorem readChars_canonical (hg : Canonizes g) {v : Json} (hd : v.depth ≤ nestingLimit) :
    readChars v.canonical = some (recast g v) :=
  readChars_of_spells (spells_canonical hg v) (Nat.le_trans (depth_recast g v) hd)

end Recast

mutual

def mapReals (change : Binary64 → Binary64) : Json → Json
  | .number (.real x) => .number (.real (change x))
  | .array items => .array (mapRealsItems change items)
  | .object members => .object (mapRealsMembers change members)
  | v => v

def mapRealsItems (change : Binary64 → Binary64) : List Json → List Json
  | [] => []
  | v :: rest => mapReals change v :: mapRealsItems change rest

def mapRealsMembers (change : Binary64 → Binary64) : List (String × Json) → List (String × Json)
  | [] => []
  | (n,v) :: rest => (n,mapReals change v) :: mapRealsMembers change rest

end

theorem mapReals_array (change : Binary64 → Binary64) (items : List Json) :
    mapReals change (.array items) = .array (items.map (mapReals change)) := by
  have hitems : mapRealsItems change items = items.map (mapReals change) := by
    induction items with
    | nil => rfl
    | cons v rest ih => rw [mapRealsItems,ih,List.map_cons]
  rw [mapReals,hitems]

theorem mapReals_object (change : Binary64 → Binary64) (members : List (String × Json)) :
    mapReals change (.object members) =
      .object (members.map fun m => (m.1,mapReals change m.2)) := by
  have hmembers : mapRealsMembers change members =
      members.map fun m => (m.1,mapReals change m.2) := by
    induction members with
    | nil => rfl
    | cons m rest ih => rw [mapRealsMembers,ih,List.map_cons]
  rw [mapReals,hmembers]

theorem canonical_oneZero (x : Binary64) :
    canonicalNumbers.text x.oneZero = canonicalNumbers.text x := by
  rcases x with ⟨negative,rank,h⟩
  by_cases hz : rank = 0
  · subst hz
    cases negative <;> rfl
  · rw [Binary64.oneZero,if_neg hz]

mutual

theorem canonical_mapReals : (v : Json) → (mapReals Binary64.oneZero v).canonical = v.canonical
  | .null => rfl
  | .bool _ => rfl
  | .string _ => rfl
  | .unreadable => rfl
  | .number (.natural _) => rfl
  | .number (.negative _) => rfl
  | .number (.real x) => canonical_oneZero x
  | .array items => by
    rw [mapReals,canonical,canonical,canonicalItems_mapReals items]
  | .object members => by
    rw [mapReals,canonical,canonical,canonicalMembers_mapReals members]

theorem canonicalItems_mapReals : (items : List Json) →
    canonicalItems (mapRealsItems Binary64.oneZero items) = canonicalItems items
  | [] => rfl
  | v :: rest => by
    rw [mapRealsItems,canonicalItems,canonicalItems,canonical_mapReals v,canonicalItems_mapReals rest]

theorem canonicalMembers_mapReals : (members : List (String × Json)) →
    canonicalMembers (mapRealsMembers Binary64.oneZero members) = canonicalMembers members
  | [] => rfl
  | (n,v) :: rest => by
    rw [mapRealsMembers,canonicalMembers,canonicalMembers,canonical_mapReals v,
      canonicalMembers_mapReals rest]

end

end Json

end BehaviorMachine
