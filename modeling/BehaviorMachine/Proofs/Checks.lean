import BehaviorMachine.Profile.Validity
import BehaviorMachine.Settings.Basic

/-!
# Checks in sequence

A check accepts by returning nothing and stops at the first violation. What a sequence of checks
accepts is what each of them accepts.
-/
namespace BehaviorMachine

variable {ε α γ κ : Type}

theorem bind_eq_ok {x : Except ε α} {f : α → Except ε γ} {c : γ} :
    (x >>= f) = .ok c ↔ ∃ a, x = .ok a ∧ f a = .ok c := by
  cases x with
  | error e => simp [bind,Except.bind]
  | ok a => simp [bind,Except.bind]

theorem check_bind_eq_ok {x : Except ε Unit} {f : Unit → Except ε Unit} :
    (x >>= f) = .ok () ↔ x = .ok () ∧ f () = .ok () := by
  rw [bind_eq_ok]
  exact ⟨fun ⟨(),hx,hf⟩ => ⟨hx,hf⟩,fun ⟨hx,hf⟩ => ⟨(),hx,hf⟩⟩

theorem forM_eq_ok {check : α → Except ε Unit} {items : List α} :
    items.forM check = .ok () ↔ ∀ a ∈ items, check a = .ok () := by
  induction items with
  | nil => simp [List.forM,pure,Except.pure]
  | cons a rest ih =>
    have hcons : (a :: rest).forM check = (check a >>= fun _ => rest.forM check) := rfl
    rw [hcons,check_bind_eq_ok,ih,List.forall_mem_cons]

theorem refuseIf_eq_ok {bad : Prop} [Decidable bad] {fault : SettingsFault} :
    refuseIf bad fault = .ok () ↔ ¬ bad := by
  rw [refuseIf]
  split
  · next hb => simp [hb]
  · next hb => simp [hb]

/-- The keys of a list are distinct and differ from those seen before. -/
def Fresh (key : α → κ) (seen : List κ) (items : List α) : Prop :=
  (items.map key).Nodup ∧ ∀ a ∈ items, key a ∉ seen

theorem fresh_nil {key : α → κ} {seen : List κ} : Fresh key seen [] :=
  ⟨List.nodup_nil,by simp⟩

theorem fresh_iff_nodup {key : α → κ} {items : List α} :
    Fresh key [] items ↔ (items.map key).Nodup := by
  simp [Fresh]

theorem fresh_cons {key : α → κ} {seen : List κ} {a : α} {rest : List α} :
    Fresh key seen (a :: rest) ↔ key a ∉ seen ∧ Fresh key (key a :: seen) rest := by
  rw [Fresh,Fresh,List.map_cons,List.nodup_cons,List.forall_mem_cons]
  simp only [List.mem_map,List.mem_cons (l := seen),not_or,not_exists,not_and]
  constructor
  · rintro ⟨⟨ha,hd⟩,hn,hs⟩
    exact ⟨hn,hd,fun b hb => ⟨ha b hb,hs b hb⟩⟩
  · rintro ⟨hn,hd,hs⟩
    exact ⟨⟨fun b hb => (hs b hb).1,hd⟩,hn,fun b hb => (hs b hb).2⟩

theorem firstRepeated?_eq_none [DecidableEq κ] {key : α → κ} {seen : List κ} {items : List α} :
    firstRepeated? key seen items = none ↔ Fresh key seen items := by
  induction items generalizing seen with
  | nil => simp [firstRepeated?,fresh_nil]
  | cons a rest ih =>
    rw [firstRepeated?,fresh_cons]
    split
    · next hm => simp [hm]
    · next hn => simp [hn,ih]

theorem checkDistinct_eq_ok [DecidableEq κ] {key : α → κ} {error : κ → ProfileError}
    {items : List α} : checkDistinct key error items = .ok () ↔ (items.map key).Nodup := by
  rw [← fresh_iff_nodup,← firstRepeated?_eq_none,checkDistinct]
  cases firstRepeated? key [] items with
  | none => simp
  | some a => simp

end BehaviorMachine
