import BehaviorMachine.Text.Lowercase

/-!
# Lower case in context

All letters but the capital sigma have the same lower case wherever they stand. So a part of a text
keeps the lower case that it has alone exactly if each of its capital sigmas ends a word in the text
when it does so in the part (`lowercaseWithin_eq_iff`).
-/
namespace BehaviorMachine

/-- A capital sigma between these characters ends a word; those before it are given nearest first. -/
def endsWord (before after : List Char) : Bool := meetsCased before && !meetsCased after

def lowercaseBetween (before : List Char) (c : Char) (after : List Char) : List Char :=
  if c = 'Σ' then [if endsWord before after then 'ς' else 'σ'] else lowercaseLetter c

/-- Lower case of a part of a text, given the characters before it, nearest first, and after it. -/
def lowercaseWithin (before after : List Char) : List Char → List Char
  | [] => []
  | c :: rest =>
    lowercaseBetween before c (rest ++ after) ++ lowercaseWithin (c :: before) after rest

/-- Each capital sigma of a part of a text ends a word in the text exactly if it does in the part. -/
def KeepsSigmas (before after part : List Char) : Prop :=
  ∀ first last, part = first ++ 'Σ' :: last →
    endsWord (first.reverse ++ before) (last ++ after) = endsWord first.reverse last

section

variable {before before' after after' part : List Char}

theorem lowercaseAfter_cons (before : List Char) (c : Char) (rest : List Char) :
    lowercaseAfter before (c :: rest) =
      lowercaseBetween before c rest ++ lowercaseAfter (c :: before) rest :=
  rfl

theorem lowercaseAfter_append (before part after : List Char) :
    lowercaseAfter before (part ++ after) =
      lowercaseWithin before after part ++ lowercaseAfter (part.reverse ++ before) after := by
  induction part generalizing before with
  | nil => rfl
  | cons c rest ih =>
    rw [List.cons_append,lowercaseAfter_cons,ih,lowercaseWithin,List.append_assoc,List.reverse_cons,
      List.append_assoc,List.singleton_append]

theorem lowercaseAfter_eq_within (before part : List Char) :
    lowercaseAfter before part = lowercaseWithin before [] part := by
  have happend := lowercaseAfter_append before part []
  rw [List.append_nil] at happend
  rw [happend]
  exact List.append_nil _

theorem forall_sigma_cons {c : Char} {P : List Char → List Char → Prop} :
    (∀ first last, c :: part = first ++ 'Σ' :: last → P first last) ↔
      (c = 'Σ' → P [] part) ∧ ∀ first last, part = first ++ 'Σ' :: last → P (c :: first) last := by
  constructor
  · intro h
    refine ⟨?_,?_⟩
    · rintro rfl
      exact h [] part rfl
    · rintro first last rfl
      exact h (c :: first) last rfl
  · rintro ⟨hhead,htail⟩ first last hsplit
    cases first with
    | nil =>
      obtain ⟨rfl,rfl⟩ := List.cons.inj hsplit
      exact hhead rfl
    | cons d first =>
      obtain ⟨rfl,hrest⟩ := List.cons.inj hsplit
      exact htail first last hrest

theorem lowercaseBetween_sigma (before after : List Char) :
    lowercaseBetween before 'Σ' after = [if endsWord before after then 'ς' else 'σ'] :=
  if_pos rfl

theorem lowercaseBetween_ne {c : Char} (hc : c ≠ 'Σ') (before after : List Char) :
    lowercaseBetween before c after = lowercaseLetter c :=
  if_neg hc

theorem finalForm_inj {e e' : Bool} :
    (if e then 'ς' else 'σ') = (if e' then 'ς' else 'σ') ↔ e = e' := by
  cases e <;> cases e' <;> decide

/-- A part has the same lower case at two places exactly if its capital sigmas do. -/
theorem lowercaseWithin_eq_within_iff :
    lowercaseWithin before after part = lowercaseWithin before' after' part ↔
      ∀ first last, part = first ++ 'Σ' :: last →
        endsWord (first.reverse ++ before) (last ++ after) =
          endsWord (first.reverse ++ before') (last ++ after') := by
  -- what stands before grows with each character, at both places
  induction part generalizing before before' with
  | nil => simp [lowercaseWithin]
  | cons c rest ih =>
    simp only [lowercaseWithin,forall_sigma_cons,List.reverse_cons,List.append_assoc,
      List.singleton_append,List.reverse_nil,List.nil_append,← ih]
    by_cases hc : c = 'Σ'
    · subst hc
      simp only [lowercaseBetween_sigma,List.singleton_append,List.cons.injEq,finalForm_inj,
        true_implies]
    · simp only [lowercaseBetween_ne hc,List.append_cancel_left_eq,hc,false_implies,true_and]

theorem lowercaseWithin_eq_iff :
    lowercaseWithin before after part = lowercaseAfter [] part ↔ KeepsSigmas before after part := by
  rw [lowercaseAfter_eq_within,lowercaseWithin_eq_within_iff]
  simp only [List.append_nil,KeepsSigmas]

theorem keepsSigmas_of_notMem (hp : 'Σ' ∉ part) : KeepsSigmas before after part := by
  rintro first last rfl
  exact absurd (List.mem_append_right first List.mem_cons_self) hp

theorem meetsCased_cons (c : Char) (rest : List Char) :
    meetsCased (c :: rest) = if isCaseIgnorable c then meetsCased rest else isCased c := by
  cases hc : isCaseIgnorable c <;> simp [meetsCased,hc]

theorem meetsCased_append (hafter : meetsCased after = false) (part : List Char) :
    meetsCased (part ++ after) = meetsCased part := by
  induction part with
  | nil => exact hafter
  | cons c rest ih => rw [List.cons_append,meetsCased_cons,meetsCased_cons,ih]

theorem keepsSigmas_of_apart (hbefore : meetsCased before = false)
    (hafter : meetsCased after = false) : KeepsSigmas before after part := by
  intro first last _
  rw [endsWord,meetsCased_append hbefore,meetsCased_append hafter,endsWord]

end

theorem occursIn_iff {pattern text : List Char} : occursIn pattern text = true ↔ pattern <:+: text := by
  induction text with
  | nil => rw [occursIn,List.isEmpty_iff,List.infix_nil]
  | cons c rest ih =>
    rw [occursIn,Bool.or_eq_true,List.isPrefixOf_iff_prefix,ih,List.infix_cons_iff]

end BehaviorMachine
