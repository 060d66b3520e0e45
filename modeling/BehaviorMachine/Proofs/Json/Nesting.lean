import BehaviorMachine.Json.Reader
import BehaviorMachine.Proofs.Json.Depth

/-!
# Nesting of read values

Values that are read are nested no deeper than the limit (`depth_readChars`): scalars are not nested,
and each container on the reader's stack leaves room for those around it.
-/
namespace BehaviorMachine.Json

namespace Token

/-- A scalar is not nested. -/
def Flat : Token → Prop
  | .scalar v => v.depth = 0
  | _ => True

theorem depth_whole (negative : Bool) (n : Nat) : (whole negative n).depth = 0 := by
  unfold whole
  split
  · rfl
  · split
    · rfl
    · split <;> rfl

theorem depth_number? {negative : Bool} {text rest : List Char} {v : Json}
    (hn : number? negative text = some (v,rest)) : v.depth = 0 := by
  simp only [number?,Option.bind_eq_bind] at hn
  split at hn
  all_goals
    rw [Option.bind_some] at hn
    split at hn
    · cases hn
    · simp only [Option.bind_eq_some_iff] at hn
      obtain ⟨⟨fraction,_⟩,-,⟨exponent,_⟩,-,hn⟩ := hn
      split at hn
      · cases hn
        exact depth_whole negative _
      · split at hn <;> cases hn <;> rfl

theorem flat_next? {text rest : List Char} {t : Token} (hn : next? text = some (t,rest)) : t.Flat := by
  unfold next? at hn
  split at hn
  case h_10 =>
    simp only [Option.bind_eq_bind,Option.bind_eq_some_iff] at hn
    obtain ⟨_,-,hn⟩ := hn
    cases hn
    trivial
  case h_11 =>
    obtain ⟨⟨v,_⟩,hv,he⟩ := Option.map_eq_some_iff.mp hn
    cases he
    exact depth_number? hv
  case h_12 =>
    obtain ⟨⟨v,_⟩,hv,he⟩ := Option.map_eq_some_iff.mp hn
    cases he
    exact depth_number? hv
  case h_7 | h_8 | h_9 =>
    cases hn
    rfl
  all_goals
    cases hn
    trivial

theorem flat_scan {fuel : Nat} {text : List Char} {found tokens : List Token}
    (hf : ∀ t ∈ found, t.Flat) (hs : scan fuel text found = some tokens) : ∀ t ∈ tokens, t.Flat := by
  induction fuel generalizing text found with
  | zero =>
    cases text with
    | nil =>
      cases hs
      exact fun t ht => hf t (List.mem_reverse.mp ht)
    | cons c rest => cases hs
  | succ fuel ih =>
    cases text with
    | nil =>
      cases hs
      exact fun t ht => hf t (List.mem_reverse.mp ht)
    | cons c rest =>
      rw [scan] at hs
      split at hs
      · exact ih hf hs
      · split at hs
        · next hn => exact ih (List.forall_mem_cons.mpr ⟨flat_next? hn,hf⟩) hs
        · cases hs

end Token

def Frame.depth : Frame → Nat
  | .array items => depthItems items
  | .object members => depthItems (members.map Prod.snd)
  | .pending members _ => depthItems (members.map Prod.snd)

/-- Each container leaves room for itself and for those that it lies in. -/
def Shallow : List Frame → Prop
  | [] => True
  | f :: stack => f.depth ≤ nestingLimit - (stack.length + 1) ∧ Shallow stack

namespace Reading

def Bounded : Reading → Prop
  | .value stack => Shallow stack
  | .firstItem stack => Shallow stack
  | .key stack => Shallow stack
  | .firstKey stack => Shallow stack
  | .colon _ stack => Shallow stack
  | .more stack => Shallow stack
  | .done v => v.depth ≤ nestingLimit

theorem bounded_put {v : Json} {stack : List Frame} {r : Reading} (hs : Shallow stack)
    (hv : v.depth ≤ nestingLimit - stack.length) (hp : put v stack = some r) : r.Bounded := by
  cases stack with
  | nil =>
    cases hp
    exact hv
  | cons f stack =>
    obtain ⟨hf,hs⟩ := hs
    cases f with
    | array items =>
      cases hp
      exact ⟨Nat.max_le.mpr ⟨hv,hf⟩,hs⟩
    | pending members name =>
      cases hp
      exact ⟨Nat.max_le.mpr ⟨hv,hf⟩,hs⟩
    | object members => cases hp

theorem depth_nested {stack : List Frame} {v : Json}
    (hv : v.depth ≤ nestingLimit - (stack.length + 1) + 1) :
    (nested stack v).depth ≤ nestingLimit - stack.length := by
  rw [nested]
  split
  · omega
  · exact Nat.zero_le _

theorem values_mapM {members : List (Option String × Json)} {found : List (String × Json)}
    (hm : members.mapM (fun member => member.1.map (·,member.2)) = some found) :
    found.map Prod.snd = members.map Prod.snd := by
  induction members generalizing found with
  | nil =>
    cases hm
    rfl
  | cons member rest ih =>
    simp only [List.mapM_cons,Option.bind_eq_bind,Option.bind_eq_some_iff,Option.map_eq_some_iff] at hm
    obtain ⟨_,⟨name,-,rfl⟩,tail,ht,he⟩ := hm
    cases he
    rw [List.map_cons,List.map_cons,ih ht]

theorem depth_object (members : List (Option String × Json)) :
    (object members).depth ≤ depthItems (members.map Prod.snd) + 1 := by
  rw [object]
  split
  · next named hm =>
    have hdepth : (Json.object named).depth = depthItems (members.map Prod.snd) + 1 := by
      rw [depth,depthMembers_eq,values_mapM hm]
    exact Nat.le_of_eq hdepth
  · exact Nat.zero_le _

theorem bounded_close {stack : List Frame} {r : Reading} (hs : Shallow stack)
    (hc : close stack = some r) : r.Bounded := by
  cases stack with
  | nil => cases hc
  | cons f stack =>
    obtain ⟨hf,hs⟩ := hs
    cases f with
    | array items =>
      have hd : depth (.array items.reverse) ≤ nestingLimit - (stack.length + 1) + 1 := by
        rw [depth,depthItems_reverse]
        exact Nat.succ_le_succ hf
      exact bounded_put hs (depth_nested hd) hc
    | object members =>
      have hd : (object members.reverse).depth ≤ nestingLimit - (stack.length + 1) + 1 := by
        have ho := depth_object members.reverse
        rw [List.map_reverse,depthItems_reverse] at ho
        exact Nat.le_trans ho (Nat.succ_le_succ hf)
      exact bounded_put hs (depth_nested hd) hc
    | pending members name => cases hc

theorem bounded_begin {stack : List Frame} {t : Token} {r : Reading} (hs : Shallow stack)
    (ht : t.Flat) (hb : begin stack t = some r) : r.Bounded := by
  cases t with
  | beginArray =>
    cases hb
    exact ⟨Nat.zero_le _,hs⟩
  | beginObject =>
    cases hb
    exact ⟨Nat.zero_le _,hs⟩
  | literal text =>
    have hd : ((text.map Json.string).getD .unreadable).depth = 0 := by cases text <;> rfl
    exact bounded_put hs (by omega) hb
  | scalar v => exact bounded_put hs (Nat.le_trans (Nat.le_of_eq ht) (Nat.zero_le _)) hb
  | _ => cases hb

theorem bounded_step {r r' : Reading} {t : Token} (hr : r.Bounded) (ht : t.Flat)
    (hs : step r t = some r') : r'.Bounded := by
  unfold step at hs
  split at hs
  · exact bounded_close hr hs
  · exact bounded_begin hr ht hs
  · exact bounded_begin hr ht hs
  · exact bounded_close hr hs
  · cases hs
    exact hr
  · cases hs
    exact hr
  · cases hs
    exact hr
  · cases hs
    exact hr
  · exact bounded_close hr hs
  · cases hs
    exact hr
  · exact bounded_close hr hs
  · cases hs

theorem bounded_foldlM {tokens : List Token} {r r' : Reading} (hr : r.Bounded)
    (ht : ∀ t ∈ tokens, t.Flat) (hf : tokens.foldlM step r = some r') : r'.Bounded := by
  induction tokens generalizing r with
  | nil =>
    cases hf
    exact hr
  | cons t tokens ih =>
    obtain ⟨hhead,htail⟩ := List.forall_mem_cons.mp ht
    rw [List.foldlM_cons] at hf
    obtain ⟨next,hs,hf⟩ := Option.bind_eq_some_iff.mp hf
    exact ih (bounded_step hr hhead hs) htail hf

end Reading

/-- What is read is nested no deeper than the limit. -/
theorem depth_readChars {text : List Char} {v : Json} (hr : readChars text = some v) :
    v.depth ≤ nestingLimit := by
  simp only [readChars,Option.bind_eq_bind,Option.bind_eq_some_iff] at hr
  obtain ⟨tokens,hscan,r,hfold,hr⟩ := hr
  have hflat := Token.flat_scan (by simp) hscan
  have hb := Reading.bounded_foldlM (r := .value []) trivial hflat hfold
  cases r with
  | done w =>
    cases hr
    exact hb
  | _ => cases hr

end BehaviorMachine.Json
