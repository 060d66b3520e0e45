import BehaviorMachine.Proofs.Run.Protocol

/-!
# The life of a behavior

A behavior that has been resolved is stepped at once and then again and again, until a step ends it or
it is given up, by a pause or by a cancellation. A log is orderly if it consists of such lives, one
after the other, and perhaps the beginning of one more. Every host with a ledger of what is done to
its behaviors keeps an orderly log.
-/
namespace BehaviorMachine

variable {σ β κ : Type}

/-- What is done to a behavior; the flag of a step tells that it completed or failed. -/
inductive Deed (κ : Type) where
  | refused
  | resolved (k : κ)
  | stepped (k : κ) (ended : Bool)
  | paused (k : κ)
  | cancelled (k : κ)
  deriving DecidableEq

def begun (k : κ) (n : Nat) : List (Deed κ) := .resolved k :: List.replicate n (.stepped k false)

inductive Life (k : κ) : List (Deed κ) → Prop where
  | ended (n : Nat) : Life k (begun k n ++ [.stepped k true])
  | paused (n : Nat) : Life k (begun k (n+1) ++ [.paused k])
  | cancelled (n : Nat) : Life k (begun k (n+1) ++ [.cancelled k])

/-- Whole lives one after the other; a resolution may also be refused between two of them. -/
inductive Lives : List (Deed κ) → Prop where
  | none : Lives []
  | refused {ds : List (Deed κ)} (hl : Lives ds) : Lives (ds ++ [.refused])
  | life {ds life : List (Deed κ)} {k : κ} (hl : Lives ds) (hk : Life k life) : Lives (ds ++ life)

/-- A log of whole lives, and of the life in progress of the live behavior if there is one. -/
def Orderly (ds : List (Deed κ)) : Option κ → Prop
  | none => Lives ds
  | some k => ∃ past n, Lives past ∧ ds = past ++ begun k (n+1)

theorem begun_succ (k : κ) (n : Nat) : begun k (n+1) = begun k n ++ [.stepped k false] := by
  rw [begun,List.replicate_succ',begun,List.cons_append]

theorem orderly_stepped {past ds : List (Deed κ)} {k : κ} {n : Nat} (hl : Lives past)
    (hd : ds = past ++ begun k n) : Orderly (ds ++ [.stepped k false]) (some k) := by
  refine ⟨past,n,hl,?_⟩
  rw [hd,begun_succ,List.append_assoc]

theorem lives_ended {past ds : List (Deed κ)} {k : κ} {n : Nat} (hl : Lives past)
    (hd : ds = past ++ begun k n) : Lives (ds ++ [.stepped k true]) := by
  rw [hd,List.append_assoc]
  exact hl.life (.ended n)

theorem lives_paused {ds : List (Deed κ)} {k : κ} (hd : Orderly ds (some k)) :
    Lives (ds ++ [.paused k]) := by
  obtain ⟨past,n,hl,rfl⟩ := hd
  rw [List.append_assoc]
  exact hl.life (.paused n)

theorem lives_cancelled {ds : List (Deed κ)} {k : κ} (hd : Orderly ds (some k)) :
    Lives (ds ++ [.cancelled k]) := by
  obtain ⟨past,n,hl,rfl⟩ := hd
  rw [List.append_assoc]
  exact hl.life (.cancelled n)

/-- A log that a host keeps of what is done to its behaviors, which have names or numbers in it. -/
structure Ledger (h : Host σ β) (κ : Type) where
  log : σ → List (Deed κ)
  key : β → κ
  sound : σ → Prop
  known : β → Prop
  refuse : ∀ {name params token s t}, sound s → h.resolve name params token s = (none,t) →
    sound t ∧ (log t = log s ∨ log t = log s ++ [.refused])
  resolve : ∀ {name params token s b t}, sound s → h.resolve name params token s = (some b,t) →
    sound t ∧ known b ∧ log t = log s ++ [.resolved (key b)]
  wait : ∀ {ticks s}, sound s → sound (h.wait ticks s).2 ∧ log (h.wait ticks s).2 = log s
  poll : ∀ {s}, sound s → sound (h.poll s).2 ∧ log (h.poll s).2 = log s
  step : ∀ {context b s spec values result b' t values'}, sound s → known b →
    (h.step context b s).run spec values = ((result,b',t),values') →
    sound t ∧ known b' ∧ key b' = key b ∧
      log t = log s ++ [.stepped (key b) (decide (result ≠ .running))]
  pause : ∀ {b s}, sound s → known b →
    sound (h.pause b s).2 ∧ log (h.pause b s).2 = log s ++ [.paused (key b)]
  cancel : ∀ {b s}, sound s → known b →
    sound (h.cancel b s) ∧ log (h.cancel b s) = log s ++ [.cancelled (key b)]

namespace Ledger

variable {h : Host σ β}

def protocol (L : Ledger h κ) : Protocol h where
  quiet s := L.sound s ∧ Lives (L.log s)
  fresh b s := L.sound s ∧ L.known b ∧ ∃ past, Lives past ∧ L.log s = past ++ begun (L.key b) 0
  live b s := L.sound s ∧ L.known b ∧ Orderly (L.log s) (some (L.key b))
  refuse := by
    intro name params token s t hx hr
    obtain ⟨hs,hl⟩ := hx
    obtain ⟨ht,he | he⟩ := L.refuse hs hr
    · exact ⟨ht,by rwa [he]⟩
    · exact ⟨ht,by rw [he]; exact hl.refused⟩
  resolve := by
    intro name params token s b t hx hr
    obtain ⟨hs,hl⟩ := hx
    obtain ⟨ht,hb,he⟩ := L.resolve hs hr
    exact ⟨ht,hb,_,hl,he⟩
  wait_quiet := by
    intro ticks s hx
    obtain ⟨hs,hl⟩ := hx
    obtain ⟨ht,he⟩ := L.wait hs
    exact ⟨ht,by rwa [he]⟩
  wait_live := by
    intro ticks b s hx
    obtain ⟨hs,hb,hl⟩ := hx
    obtain ⟨ht,he⟩ := L.wait hs
    exact ⟨ht,hb,by rwa [he]⟩
  poll_quiet := by
    intro s hx
    obtain ⟨hs,hl⟩ := hx
    obtain ⟨ht,he⟩ := L.poll hs
    exact ⟨ht,by rwa [he]⟩
  poll_live := by
    intro b s hx
    obtain ⟨hs,hb,hl⟩ := hx
    obtain ⟨ht,he⟩ := L.poll hs
    exact ⟨ht,hb,by rwa [he]⟩
  step_running := by
    intro context b s spec values b' t values' hx hr
    rcases hx with ⟨hs,hb,past,hl,hd⟩ | ⟨hs,hb,past,n,hl,hd⟩
    all_goals
      obtain ⟨ht,hb',hk,he⟩ := L.step hs hb hr
      refine ⟨ht,hb',?_⟩
      rw [he,hk]
      exact orderly_stepped hl hd
  step_ended := by
    intro context b s spec values result b' t values' hx hr hn
    rcases hx with ⟨hs,hb,past,hl,hd⟩ | ⟨hs,hb,past,n,hl,hd⟩
    all_goals
      obtain ⟨ht,hb',hk,he⟩ := L.step hs hb hr
      refine ⟨ht,?_⟩
      rw [he,decide_eq_true hn]
      exact lives_ended hl hd
  pause := by
    intro b s hx
    obtain ⟨hs,hb,hl⟩ := hx
    obtain ⟨ht,he⟩ := L.pause hs hb
    exact ⟨ht,by rw [he]; exact lives_paused hl⟩
  cancel := by
    intro b s hx
    obtain ⟨hs,hb,hl⟩ := hx
    obtain ⟨ht,he⟩ := L.cancel hs hb
    exact ⟨ht,by rw [he]; exact lives_cancelled hl⟩

theorem keeps_orderly (L : Ledger h κ) {x : Execution σ β} (hx : L.protocol.Keeps x) :
    Orderly (L.log x.host) (x.active.map L.key) := by
  cases ha : x.active with
  | none => exact ((L.protocol.keeps_none ha).mp hx).2
  | some b => exact ((L.protocol.keeps_some ha).mp hx).2.2

theorem keeps_sound (L : Ledger h κ) {x : Execution σ β} (hx : L.protocol.Keeps x) :
    L.sound x.host := by
  cases ha : x.active with
  | none => exact ((L.protocol.keeps_none ha).mp hx).1
  | some b => exact ((L.protocol.keeps_some ha).mp hx).1

theorem keeps_begin (L : Ledger h κ) (m : Machine) (session : Option SessionState) {host : σ}
    (hs : L.sound host) (hl : L.log host = []) : L.protocol.Keeps (m.begin h session host) :=
  ⟨hs,by rw [show (m.begin h session host).host = host from rfl,hl]; exact .none⟩

end Ledger

end BehaviorMachine
