import BehaviorMachine.Json.Basic
import BehaviorMachine.Proofs.NameMap

/-!
# Nesting of values

How deep containers are nested in a value. Putting members in order nests nothing deeper
(`depth_sorted`), and leaves plain values as they are (`sorted_plain`).
-/
namespace BehaviorMachine.Json

mutual

/-- How deep containers are nested in a value. -/
def depth : Json → Nat
  | .array items => depthItems items + 1
  | .object members => depthMembers members + 1
  | _ => 0

def depthItems : List Json → Nat
  | [] => 0
  | v :: rest => max v.depth (depthItems rest)

def depthMembers : List (String × Json) → Nat
  | [] => 0
  | (_,v) :: rest => max v.depth (depthMembers rest)

end

theorem depthItems_le_iff {items : List Json} {n : Nat} :
    depthItems items ≤ n ↔ ∀ v ∈ items, v.depth ≤ n := by
  induction items with
  | nil => simp [depthItems]
  | cons v rest ih => rw [depthItems,Nat.max_le,ih,List.forall_mem_cons]

theorem depthMembers_le_iff {members : List (String × Json)} {n : Nat} :
    depthMembers members ≤ n ↔ ∀ m ∈ members, m.2.depth ≤ n := by
  induction members with
  | nil => simp [depthMembers]
  | cons m rest ih => rw [depthMembers,Nat.max_le,ih,List.forall_mem_cons]

theorem depthMembers_append (first last : List (String × Json)) :
    depthMembers (first ++ last) = max (depthMembers first) (depthMembers last) := by
  induction first with
  | nil => exact (Nat.zero_max _).symm
  | cons m rest ih => rw [List.cons_append,depthMembers,depthMembers,ih,Nat.max_assoc]

theorem depthMembers_eq (members : List (String × Json)) :
    depthMembers members = depthItems (members.map Prod.snd) := by
  induction members with
  | nil => rfl
  | cons m rest ih => rw [depthMembers,List.map_cons,depthItems,ih]

theorem depthItems_reverse (items : List Json) : depthItems items.reverse = depthItems items := by
  apply Nat.le_antisymm
  · have hall := depthItems_le_iff.mp (Nat.le_refl (depthItems items))
    exact depthItems_le_iff.mpr fun v hv => hall v (List.mem_reverse.mp hv)
  · have hall := depthItems_le_iff.mp (Nat.le_refl (depthItems items.reverse))
    exact depthItems_le_iff.mpr fun v hv => hall v (List.mem_reverse.mpr hv)

theorem depthMembers_ofList (members : List (String × Json)) :
    depthMembers (NameMap.ofList members).entries ≤ depthMembers members := by
  have hall := depthMembers_le_iff.mp (Nat.le_refl (depthMembers members))
  exact depthMembers_le_iff.mpr fun m hm => hall m (NameMap.mem_ofList hm)

mutual

theorem depth_sorted : (v : Json) → v.sorted.depth ≤ v.depth
  | .array items => by
    rw [sorted,depth,depth]
    exact Nat.succ_le_succ (depth_sortedItems items)
  | .object members => by
    rw [sorted,depth,depth]
    have hm := depthMembers_ofList (sortedMembers members)
    exact Nat.succ_le_succ (Nat.le_trans hm (depth_sortedMembers members))
  | .null => Nat.le_refl _
  | .bool _ => Nat.le_refl _
  | .number _ => Nat.le_refl _
  | .string _ => Nat.le_refl _
  | .unreadable => Nat.le_refl _

theorem depth_sortedItems : (items : List Json) → depthItems (sortedItems items) ≤ depthItems items
  | [] => Nat.le_refl _
  | v :: rest => by
    rw [sortedItems,depthItems,depthItems]
    have hv := depth_sorted v
    have hrest := depth_sortedItems rest
    omega

theorem depth_sortedMembers : (members : List (String × Json)) →
    depthMembers (sortedMembers members) ≤ depthMembers members
  | [] => Nat.le_refl _
  | (n,v) :: rest => by
    rw [sortedMembers,depthMembers,depthMembers]
    have hv := depth_sorted v
    have hrest := depth_sortedMembers rest
    omega

end

mutual

theorem sorted_plain : (v : Json) → v.isPlain = true → v.sorted = v
  | .array items, hp => by rw [sorted,sortedItems_plain items hp]
  | .object members, hp => by
    rw [isPlain,Bool.and_eq_true] at hp
    rw [sorted,sortedMembers_plain members hp.2,NameMap.entries_ofList (of_decide_eq_true hp.1)]
  | .null, _ => rfl
  | .bool _, _ => rfl
  | .number _, _ => rfl
  | .string _, _ => rfl
  | .unreadable, hp => nomatch hp

theorem sortedItems_plain : (items : List Json) → plainItems items = true → sortedItems items = items
  | [], _ => rfl
  | v :: rest, hp => by
    rw [plainItems,Bool.and_eq_true] at hp
    rw [sortedItems,sorted_plain v hp.1,sortedItems_plain rest hp.2]

theorem sortedMembers_plain : (members : List (String × Json)) → plainMembers members = true →
    sortedMembers members = members
  | [], _ => rfl
  | (n,v) :: rest, hp => by
    rw [plainMembers,Bool.and_eq_true] at hp
    rw [sortedMembers,sorted_plain v hp.1,sortedMembers_plain rest hp.2]

end

end BehaviorMachine.Json
