import BehaviorMachine.Proofs.Json.Depth
import BehaviorMachine.Proofs.Json.Lexing
import BehaviorMachine.Proofs.Text.Utf8

/-!
# Reading written values

The tokens of a value that is not nested too deeply lead the reader to this value
(`leads_tokens`). So a document is read back from both of its layouts (`readChars_write`,
`readChars_printed`).
-/
namespace BehaviorMachine.Json

open Token Reading

/-- Tokens lead the reader from one state to another. -/
def Leads (r : Reading) (ts : List Token) (r' : Reading) : Prop := ts.foldlM step r = some r'

theorem leads_nil (r : Reading) : Leads r [] r := rfl

theorem leads_cons {r r' r'' : Reading} {t : Token} {ts : List Token} (ht : step r t = some r')
    (hl : Leads r' ts r'') : Leads r (t :: ts) r'' := by
  rw [Leads,List.foldlM_cons,ht]
  exact hl

theorem leads_single {r r' : Reading} {t : Token} (ht : step r t = some r') : Leads r [t] r' :=
  leads_cons ht (leads_nil r')

theorem Leads.append {r r' r'' : Reading} {ts us : List Token} (hf : Leads r ts r')
    (hl : Leads r' us r'') : Leads r (ts ++ us) r'' := by
  rw [Leads] at hf
  rw [Leads,List.foldlM_append,hf]
  exact hl

theorem tokens_head (v : Json) : ∃ t rest, tokens v = t :: rest ∧ t ≠ .endArray := by
  cases v with
  | array items => exact ⟨.beginArray,_,rfl,by simp⟩
  | object members => exact ⟨.beginObject,_,rfl,by simp⟩
  | _ => exact ⟨_,_,rfl,by simp⟩

theorem commaTokens_cons (part : List Token) (rest : List (List Token)) :
    commaTokens (part :: rest) = part ++ rest.flatMap (.comma :: ·) := by
  induction rest generalizing part with
  | nil => exact (List.append_nil part).symm
  | cons next rest ih =>
    rw [commaTokens,ih,List.flatMap_cons]
    · rfl
    · simp

theorem leads_firstItem {v : Json} {ts : List Token} {stack : List Frame} {r : Reading}
    (hl : Leads (.value stack) (tokens v ++ ts) r) :
    Leads (.firstItem stack) (tokens v ++ ts) r := by
  obtain ⟨t,us,he,ht⟩ := tokens_head v
  have hstep : step (.firstItem stack) t = step (.value stack) t := by
    cases t with
    | endArray => exact absurd rfl ht
    | _ => rfl
  rw [Leads,he,List.cons_append,List.foldlM_cons] at hl ⊢
  rw [hstep]
  exact hl

def named (members : List (String × Json)) : List (Option String × Json) :=
  members.map fun m => (some m.1,m.2)

theorem object_named (members : List (String × Json)) :
    Reading.object (named members) = .object members := by
  have hmap : (named members).mapM
      (fun member : Option String × Json => member.1.map (·,member.2)) = some members := by
    induction members with
    | nil => rfl
    | cons m rest ih =>
      rw [named,List.map_cons,List.mapM_cons,← named,ih]
      rfl
  rw [Reading.object,hmap]

theorem close_array {stack : List Frame} (hs : stack.length < nestingLimit) (items : List Json) :
    close (.array items.reverse :: stack) = put (.array items) stack := by
  rw [close,List.reverse_reverse,nested,if_pos hs]

theorem close_object {stack : List Frame} (hs : stack.length < nestingLimit)
    (members : List (String × Json)) :
    close (.object (named members).reverse :: stack) = put (.object members) stack := by
  rw [close,List.reverse_reverse,object_named,nested,if_pos hs]

mutual

/-- The tokens of a value place it in the innermost container. -/
theorem leads_tokens : (v : Json) → (stack : List Frame) → (r : Reading) →
    v.depth + stack.length ≤ nestingLimit → put v stack = some r → Leads (.value stack) (tokens v) r
  | .array [], stack, r, hd, hp => by
    have hs : stack.length < nestingLimit := by
      rw [depth,depthItems] at hd
      omega
    have hclose : step (.firstItem (.array [] :: stack)) .endArray = some r :=
      (close_array hs []).trans hp
    exact leads_cons rfl (leads_single hclose)
  | .array (v :: rest), stack, r, hd, hp => by
    -- the level that the array has beyond its items is spent on its frame
    rw [depth,depthItems] at hd
    have hs : stack.length < nestingLimit := by omega
    have hv := leads_tokens v (.array [] :: stack) _ (by rw [List.length_cons]; omega) rfl
    have hrest := leads_items rest [v] stack (by omega)
    have hclose : step (.more (.array (rest.reverse ++ [v]) :: stack)) .endArray = some r := by
      rw [← List.reverse_cons]
      exact (close_array hs (v :: rest)).trans hp
    have hlast := hrest.append (leads_single hclose)
    have hall := leads_firstItem (hv.append hlast)
    rw [tokens,itemTokens,commaTokens_cons,List.cons_append,List.append_assoc]
    exact leads_cons rfl hall
  | .object [], stack, r, hd, hp => by
    have hs : stack.length < nestingLimit := by
      rw [depth,depthMembers] at hd
      omega
    have hclose : step (.firstKey (.object [] :: stack)) .endObject = some r :=
      (close_object hs []).trans hp
    exact leads_cons rfl (leads_single hclose)
  | .object ((n,v) :: rest), stack, r, hd, hp => by
    rw [depth,depthMembers] at hd
    have hs : stack.length < nestingLimit := by omega
    have hv := leads_tokens v (.pending [] (some n) :: stack) _ (by rw [List.length_cons]; omega) rfl
    have hrest := leads_members rest [(some n,v)] stack (by omega)
    have hclose : step (.more (.object ((named rest).reverse ++ [(some n,v)]) :: stack)) .endObject =
        some r := by
      rw [← List.reverse_cons]
      exact (close_object hs ((n,v) :: rest)).trans hp
    have hlast := hrest.append (leads_single hclose)
    rw [tokens,memberTokens,commaTokens_cons,List.cons_append,List.append_assoc]
    exact leads_cons rfl (leads_cons rfl (leads_cons rfl (hv.append hlast)))
  | .null, _, _, _, hp => leads_single hp
  | .bool _, _, _, _, hp => leads_single hp
  | .number _, _, _, _, hp => leads_single hp
  | .string _, _, _, _, hp => leads_single hp
  | .unreadable, _, _, _, hp => leads_single hp

theorem leads_items : (rest items : List Json) → (stack : List Frame) →
    depthItems rest + stack.length < nestingLimit →
      Leads (.more (.array items :: stack)) ((itemTokens rest).flatMap (.comma :: ·))
        (.more (.array (rest.reverse ++ items) :: stack))
  | [], items, stack, hd => leads_nil _
  | v :: rest, items, stack, hd => by
    rw [depthItems] at hd
    have hv := leads_tokens v (.array items :: stack) _ (by rw [List.length_cons]; omega) rfl
    have hrest := leads_items rest (v :: items) stack (by omega)
    rw [itemTokens,List.flatMap_cons,List.reverse_cons,List.append_assoc]
    exact leads_cons rfl (hv.append hrest)

theorem leads_members : (rest : List (String × Json)) → (found : List (Option String × Json)) →
    (stack : List Frame) → depthMembers rest + stack.length < nestingLimit →
      Leads (.more (.object found :: stack)) ((memberTokens rest).flatMap (.comma :: ·))
        (.more (.object ((named rest).reverse ++ found) :: stack))
  | [], found, stack, hd => leads_nil _
  | (n,v) :: rest, found, stack, hd => by
    rw [depthMembers] at hd
    have hv := leads_tokens v (.pending found (some n) :: stack) _ (by rw [List.length_cons]; omega) rfl
    have hrest := leads_members rest ((some n,v) :: found) stack (by omega)
    have he : (named ((n,v) :: rest)).reverse ++ found =
        (named rest).reverse ++ (some n,v) :: found := by simp [named]
    rw [memberTokens,List.flatMap_cons,he]
    exact leads_cons rfl (leads_cons rfl (leads_cons rfl (hv.append hrest)))

end

theorem readChars_of_spells {text : List Char} {v : Json} (hs : Spells text (tokens v))
    (hd : v.depth ≤ nestingLimit) : readChars text = some v := by
  have hl : Leads (.value []) (tokens v) (.done v) := leads_tokens v [] _ hd rfl
  rw [Leads] at hl
  simp only [readChars,scan_of_spells hs,hl,Option.bind_eq_bind,Option.bind_some]

/-- A value is read back from one line. -/
theorem readChars_write {v : Json} (hd : v.depth ≤ nestingLimit) : readChars v.write = some v :=
  readChars_of_spells (spells_write v) hd

theorem stops_newline : Stops ['\n'] :=
  stops_cons (by decide) (by decide) (by decide) (by decide)

/-- A value is read back from its printed lines. -/
theorem readChars_printed {v : Json} (hd : v.depth ≤ nestingLimit) :
    readChars (v.indented 0 ++ ['\n']) = some v := by
  have hend : Marks ['\n'] [] := marks_blanks (List.forall_mem_singleton.mpr rfl)
  have hs := (spells_indented 0 v).append hend.spells stops_newline
  rw [List.append_nil] at hs
  exact readChars_of_spells hs hd

theorem textOfBytes_toUTF8 (mark : List Char) (text : String) :
    textOfBytes mark text.toUTF8 = text.toList := by
  rw [textOfBytes,fromUTF8?_eq_some.mpr rfl]

theorem readBytes?_toUTF8 (text : List Char) :
    readBytes? (String.ofList text).toUTF8 = readChars text := by
  rw [readBytes?,textOfBytes_toUTF8,String.toList_ofList]

theorem readBytes?_write {v : Json} (hd : v.depth ≤ nestingLimit) :
    readBytes? (String.ofList v.write).toUTF8 = some v := by
  rw [readBytes?_toUTF8,readChars_write hd]

/-- How a document is kept: as a value, or as text on one line or on several. -/
inductive Layout where
  | value
  | line
  | printed

def Layout.reread : Layout → Json → Option Json
  | .value, v => some v
  | .line, v => readChars v.write
  | .printed, v => readChars (v.indented 0 ++ ['\n'])

theorem Layout.reread_eq (layout : Layout) {v : Json} (hd : v.depth ≤ nestingLimit) :
    layout.reread v = some v := by
  cases layout with
  | value => rfl
  | line => exact readChars_write hd
  | printed => exact readChars_printed hd

/-- A value is read back from its document in every layout. -/
def Lossless {α : Type} (write : α → Json) (read : Json → Option α) (a : α) : Prop :=
  ∀ layout : Layout, (layout.reread (write a)).bind read = some a

theorem lossless_of_depth {α : Type} {write : α → Json} {read : Json → Option α} {a : α}
    (hv : read (write a) = some a) (hd : (write a).depth ≤ nestingLimit) :
    Lossless write read a := by
  intro layout
  rw [layout.reread_eq hd,Option.bind_some,hv]

end BehaviorMachine.Json
