import BehaviorMachine.Text.Blank
import Mathlib.Data.List.DropRight

/-!
# Trimming

Every text has a part that neither begins nor ends with a blank and has only blanks around it, which
is what trimming gives (`trimBlanks_trimmed`), and it has no other one (`Trimmed.eq_trimBlanks`).
-/
namespace BehaviorMachine

/-- A part of a text that neither begins nor ends with a blank and has only blanks around it. -/
structure Trimmed (text part : List Char) : Prop where
  around : ∃ before after, text = before ++ (part ++ after) ∧
    (∀ c ∈ before, isBlank c = true) ∧ ∀ c ∈ after, isBlank c = true
  head : ∀ hne : part ≠ [], isBlank (part.head hne) = false
  last : ∀ hne : part ≠ [], isBlank (part.getLast hne) = false

theorem trimBlanks_eq (text : List Char) :
    trimBlanks text = (text.dropWhile isBlank).rdropWhile isBlank := rfl

theorem trimBlanks_trimmed (text : List Char) : Trimmed text (trimBlanks text) := by
  rw [trimBlanks_eq]
  refine ⟨⟨text.takeWhile isBlank,(text.dropWhile isBlank).rtakeWhile isBlank,?_,?_,?_⟩,?_,?_⟩
  · rw [List.rdropWhile_append_rtakeWhile,List.takeWhile_append_dropWhile]
  · exact fun c hc => List.mem_takeWhile_imp hc
  · exact fun c hc => List.mem_rtakeWhile_imp hc
  · intro hne
    rw [(List.rdropWhile_prefix isBlank _).head hne]
    exact List.head_dropWhile_not isBlank _
  · intro hne
    exact Bool.eq_false_iff.mpr (List.rdropWhile_last_not isBlank _ hne)

theorem rdropWhile_append_of_blank {part after : List Char}
    (ha : ∀ c ∈ after, isBlank c = true) :
    (part ++ after).rdropWhile isBlank = part.rdropWhile isBlank := by
  have hreversed : ∀ c ∈ after.reverse, isBlank c = true := fun c hc => ha c (List.mem_reverse.mp hc)
  rw [List.rdropWhile,List.reverse_append,List.dropWhile_append_of_pos hreversed,List.rdropWhile]

theorem Trimmed.eq_trimBlanks {text part : List Char} (ht : Trimmed text part) :
    part = trimBlanks text := by
  obtain ⟨⟨before,after,rfl,hbefore,hafter⟩,hhead,hlast⟩ := ht
  rw [trimBlanks_eq,List.dropWhile_append_of_pos hbefore]
  cases part with
  | nil => rw [List.nil_append,List.dropWhile_eq_nil_iff.mpr hafter,List.rdropWhile_nil]
  | cons c rest =>
    have hc : ¬ isBlank c = true := Bool.eq_false_iff.mp (hhead (List.cons_ne_nil c rest))
    have hkept : (c :: rest).rdropWhile isBlank = c :: rest :=
      List.rdropWhile_eq_self_iff.mpr fun hne => Bool.eq_false_iff.mp (hlast hne)
    rw [List.cons_append,List.dropWhile_cons_of_neg hc,← List.cons_append,
      rdropWhile_append_of_blank hafter,hkept]

end BehaviorMachine
