import BehaviorMachine.Text.Blank
import BehaviorMachine.Text.Utf8
import Mathlib.Data.String.Basic

/-!
# Bytes of a text

A text is decoded from its own bytes and from no others, and its length in bytes is that of its
characters. Nothing is replaced in bytes that are a text.
-/
namespace BehaviorMachine

theorem fromUTF8?_eq_some {content : ByteArray} {text : String} :
    String.fromUTF8? content = some text ↔ content = text.toUTF8 := by
  constructor
  · intro hd
    rw [String.fromUTF8?] at hd
    split at hd
    · cases hd
      rfl
    · cases hd
  · rintro rfl
    have hv : text.toUTF8.IsValidUTF8 := text.isValidUTF8
    rw [String.fromUTF8?,dif_pos hv]
    rfl

theorem lossyText_toUTF8 (text : String) : lossyText text.toUTF8.data.toList = text := by
  rw [lossyText,fromUTF8?_eq_some.mpr rfl]

/-- What begins a character is replaced as a whole. -/
example : lossyText [0x66,0xE2,0x82,0x6F,0xFF] = "f\uFFFDo\uFFFD" := by decide +kernel

theorem utf8Length_eq (text : List Char) : utf8Length text = (String.ofList text).utf8ByteSize := by
  rw [String.utf8ByteSize_ofList]
  induction text with
  | nil => rfl
  | cons c rest ih =>
    rw [utf8Length,List.foldr_cons,String.utf8Len_cons,← ih,Nat.add_comm]
    rfl

end BehaviorMachine
