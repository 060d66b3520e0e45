import BehaviorMachine.Proofs.Run.Moves

/-!
# The course of a run

The executions that a run passes through are numbered by its iterations. A run has an outcome exactly
when one of its iterations is the first to end it (`loop_eq_some_iff`), and what every iteration
keeps holds all along (`after_induction`).
-/
namespace BehaviorMachine

namespace Machine

variable {σ β : Type}

/-- The execution after a number of iterations, even past the end of its run. -/
def after (m : Machine) (h : Host σ β) : Nat → Execution σ β → Execution σ β
  | 0, x => x
  | n+1, x => (m.step h (m.after h n x)).2

def Lasts (m : Machine) (h : Host σ β) (n : Nat) (x : Execution σ β) : Prop :=
  ∀ i < n, (m.step h (m.after h i x)).1 = .again

instance (m : Machine) (h : Host σ β) (n : Nat) (x : Execution σ β) : Decidable (m.Lasts h n x) :=
  inferInstanceAs (Decidable (∀ i < n, (m.step h (m.after h i x)).1 = .again))

theorem after_next (m : Machine) (h : Host σ β) (n : Nat) (x : Execution σ β) :
    m.after h n (m.step h x).2 = m.after h (n+1) x := by
  induction n with
  | zero => rfl
  | succ n ih => rw [after,ih]; rfl

theorem after_induction {m : Machine} {h : Host σ β} {P : Execution σ β → Prop} {x : Execution σ β}
    (hx : P x) (hs : ∀ y, P y → P (m.step h y).2) (n : Nat) : P (m.after h n x) := by
  induction n with
  | zero => exact hx
  | succ n ih => exact hs _ ih

theorem lasts_succ_iff {m : Machine} {h : Host σ β} {n : Nat} {x : Execution σ β} :
    m.Lasts h (n+1) x ↔ (m.step h x).1 = .again ∧ m.Lasts h n (m.step h x).2 := by
  constructor
  · intro hl
    refine ⟨hl 0 (Nat.succ_pos n),?_⟩
    intro i hi
    rw [after_next]
    exact hl (i+1) (Nat.succ_lt_succ hi)
  · rintro ⟨h0,hl⟩ i hi
    cases i with
    | zero => exact h0
    | succ i =>
      rw [← after_next]
      exact hl i (Nat.lt_of_succ_lt_succ hi)

theorem lasts_mono {m : Machine} {h : Host σ β} {n k : Nat} {x : Execution σ β} (hk : k ≤ n)
    (hl : m.Lasts h n x) : m.Lasts h k x :=
  fun i hi => hl i (Nat.lt_of_lt_of_le hi hk)

theorem loop_again {m : Machine} {h : Host σ β} {x : Execution σ β}
    (hs : (m.step h x).1 = .again) : m.loop h x = m.loop h (m.step h x).2 := by
  rw [loop]
  rcases he : m.step h x with ⟨flow,y⟩
  rw [he] at hs
  obtain rfl : flow = .again := hs
  rfl

theorem loop_exit {m : Machine} {h : Host σ β} {x : Execution σ β} {status : RunStatus}
    (hs : (m.step h x).1 = .exit status) :
    m.loop h x = some ((m.step h x).2.finish h status) := by
  rw [loop]
  rcases he : m.step h x with ⟨flow,y⟩
  rw [he] at hs
  obtain rfl : flow = .exit status := hs
  rfl

theorem loop_of_lasts {m : Machine} {h : Host σ β} {n : Nat} {x : Execution σ β}
    (hl : m.Lasts h n x) : m.loop h x = m.loop h (m.after h n x) := by
  induction n with
  | zero => rfl
  | succ n ih =>
    rw [ih (lasts_mono (Nat.le_succ n) hl),after]
    exact loop_again (hl n (Nat.lt_succ_self n))

/-- A run ends exactly if one of its iterations does not go on. -/
theorem loop_eq_some_iff {m : Machine} {h : Host σ β} {x : Execution σ β} {r : RunOutcome × σ} :
    m.loop h x = some r ↔ ∃ n status, m.Lasts h n x ∧
      (m.step h (m.after h n x)).1 = .exit status ∧ (m.after h (n+1) x).finish h status = r := by
  constructor
  -- a loop that does not end has no outcome, so it is enough to follow one round
  · refine loop.partial_correctness m h (fun x r => ∃ n status, m.Lasts h n x ∧
      (m.step h (m.after h n x)).1 = .exit status ∧ (m.after h (n+1) x).finish h status = r) ?_ x r
    intro next ih x r hr
    rcases hs : m.step h x with ⟨_|status,y⟩
    · rw [hs] at hr
      obtain ⟨n,status,hl,he,hf⟩ := ih y r hr
      have hy : (m.step h x).2 = y := by rw [hs]
      subst hy
      rw [after_next] at he hf
      exact ⟨n+1,status,lasts_succ_iff.mpr ⟨by rw [hs],hl⟩,he,hf⟩
    · rw [hs] at hr
      refine ⟨0,status,fun i hi => absurd hi (Nat.not_lt_zero i),?_,?_⟩
      · rw [after,hs]
      · rw [after,after,hs]
        exact Option.some.inj hr
  · rintro ⟨n,status,hl,he,rfl⟩
    rw [loop_of_lasts hl,loop_exit he,after]

theorem run_of_lasts (m : Machine) (h : Host σ β) (session : Option SessionState) (host : σ)
    (n : Nat) (status : RunStatus) (hl : m.Lasts h n (m.begin h session host))
    (he : (m.step h (m.after h n (m.begin h session host))).1 = .exit status) :
    m.run h session host = some ((m.after h (n+1) (m.begin h session host)).finish h status) :=
  loop_eq_some_iff.mpr ⟨n,status,hl,he,rfl⟩

theorem lasts_next {m : Machine} {h : Host σ β} {n : Nat} {x : Execution σ β} :
    m.Lasts h (n+1) x ↔ m.Lasts h n x ∧ (m.step h (m.after h n x)).1 = .again := by
  constructor
  · intro hl
    exact ⟨lasts_mono (Nat.le_succ n) hl,hl n (Nat.lt_succ_self n)⟩
  · rintro ⟨hl,hn⟩ i hi
    rcases Nat.lt_succ_iff_lt_or_eq.mp hi with hi | rfl
    · exact hl i hi
    · exact hn

section

variable {τ γ : Type} {m m' : Machine} {h : Host σ β} {h' : Host τ γ}
  {f : Execution σ β → Execution τ γ}

/-- Runs end alike if they go side by side for as long as the first of them goes on. -/
theorem loop_alongside {ρ : Type} {R : Execution σ β → Execution τ γ → Prop} {x : Execution σ β}
    {x' : Execution τ γ} {report : RunOutcome × σ → ρ} {report' : RunOutcome × τ → ρ} (hx : R x x')
    (hs : ∀ n y', m.Lasts h n x → R (m.after h n x) y' →
      (m'.step h' y').1 = (m.step h (m.after h n x)).1 ∧
        R (m.after h (n+1) x) (m'.step h' y').2)
    (hf : ∀ y y' status, R y y' → report' (y'.finish h' status) = report (y.finish h status)) :
    (m'.loop h' x').map report' = (m.loop h x).map report := by
  have hside : ∀ n, (m'.Lasts h' n x' ↔ m.Lasts h n x) ∧
      (m.Lasts h n x → R (m.after h n x) (m'.after h' n x')) := by
    intro n
    induction n with
    | zero => exact ⟨by simp [Lasts],fun _ => hx⟩
    | succ n ih =>
      obtain ⟨hiff,hrel⟩ := ih
      constructor
      · rw [lasts_next,lasts_next,hiff]
        refine and_congr_right fun hl => ?_
        rw [(hs n _ hl (hrel hl)).1]
      · intro hl
        have hl := lasts_mono (Nat.le_succ n) hl
        exact (hs n _ hl (hrel hl)).2
  apply Option.ext
  intro r
  simp only [Option.map_eq_some_iff,loop_eq_some_iff]
  constructor
  · rintro ⟨_,⟨n,status,hl,he,rfl⟩,rfl⟩
    have hl := (hside n).1.mp hl
    obtain ⟨hflow,hnext⟩ := hs n _ hl ((hside n).2 hl)
    exact ⟨_,⟨n,status,hl,hflow.symm.trans he,rfl⟩,(hf _ _ status hnext).symm⟩
  · rintro ⟨_,⟨n,status,hl,he,rfl⟩,rfl⟩
    obtain ⟨hflow,hnext⟩ := hs n _ hl ((hside n).2 hl)
    exact ⟨_,⟨n,status,(hside n).1.mpr hl,hflow.trans he,rfl⟩,hf _ _ status hnext⟩

theorem after_map (hs : ∀ x, m'.step h' (f x) = ((m.step h x).1,f (m.step h x).2)) (n : Nat)
    (x : Execution σ β) : m'.after h' n (f x) = f (m.after h n x) := by
  induction n with
  | zero => rfl
  | succ n ih => rw [after,ih,hs,after]

theorem loop_map {g : RunOutcome × σ → RunOutcome × τ}
    (hs : ∀ x, m'.step h' (f x) = ((m.step h x).1,f (m.step h x).2))
    (hf : ∀ x status, (f x).finish h' status = g (x.finish h status)) (x : Execution σ β) :
    m'.loop h' (f x) = (m.loop h x).map g := by
  rw [← Option.map_id_apply (x := m'.loop h' (f x))]
  refine loop_alongside (R := fun y y' => y' = f y) rfl ?_ ?_
  · rintro n _ - rfl
    rw [hs]
    exact ⟨rfl,rfl⟩
  · rintro y _ status rfl
    exact hf y status

end

theorem history_of_changes {x y : Execution σ β} (hc : y.changes = x.changes) :
    y.history = x.history := by
  rw [Execution.history,Execution.history,hc]

theorem history_enter {h : Host σ β} {x z : Execution σ β} (hz : z.changes = x.changes)
    (source target : StateId) (cause : ChangeCause) (now : Timestamp) :
    (z.enter h source target cause now).history =
      x.history ++ [⟨source,target,cause,now,z.session.ticksInState⟩] := by
  rw [Execution.history,Execution.history,enter_changes,hz,List.reverse_cons]

theorem Iteration.changes {m : Machine} {h : Host σ β} {x y : Execution σ β} {flow : Flow}
    (hi : Iteration m h x flow y) : x.changes <:+ y.changes := by
  cases hi.moves with
  | stays hc hp => simp only [hc,List.suffix_refl]
  | enters hw hs hc hp ht ha =>
    rw [hc]
    exact List.suffix_cons _ x.changes

theorem step_changes (m : Machine) (h : Host σ β) (x : Execution σ β) :
    x.changes <:+ (m.step h x).2.changes :=
  (step_iteration m h x).changes

theorem after_changes (m : Machine) (h : Host σ β) (n : Nat) (x : Execution σ β) :
    x.changes <:+ (m.after h n x).changes :=
  after_induction (P := fun y => x.changes <:+ y.changes) (List.suffix_refl _)
    (fun y hy => hy.trans (step_changes m h y)) n

theorem changes_of_after {m : Machine} {h : Host σ β} {n : Nat} {x : Execution σ β}
    (hc : (m.after h (n+1) x).changes = x.changes) : (m.after h n x).changes = x.changes := by
  have hs := step_changes m h (m.after h n x)
  rw [← after,hc] at hs
  exact hs.eq_of_length_le (after_changes m h n x).length_le

/-- A sentry, who watches until he is relieved and rests from then on. -/
def sentry : Machine where
  profile := ⟨⟨"sentry"⟩,"sentry",none,some ⟨"watch"⟩,
    [⟨⟨"watch"⟩,"watch",⟨"watch"⟩,∅,[],[],[]⟩,⟨⟨"rest"⟩,"rest",⟨"rest"⟩,∅,[],[],[]⟩],
    [⟨⟨"relief"⟩,⟨"watch"⟩,⟨"rest"⟩,.behaviorComplete,0,none⟩],[]⟩
  budgets := ⟨1,1,1,1⟩

/-- A lookout, who notes what he sees on his watch and reports it in the end. -/
def lookout : Machine where
  profile := ⟨⟨"lookout"⟩,"lookout",none,some ⟨"watch"⟩,
    [⟨⟨"watch"⟩,"watch",⟨"watch"⟩,∅,
        [⟨.combat,.ignore,none⟩,⟨.death,.transition,some ⟨"report"⟩⟩],
        [⟨⟨"sight"⟩,"sight",.output,.text⟩,⟨⟨"place"⟩,"place",.output,.location⟩],[]⟩,
      ⟨⟨"report"⟩,"report",⟨"report"⟩,∅,[],
        [⟨⟨"sight"⟩,"sight",.input,.text⟩,⟨⟨"place"⟩,"place",.input,.location⟩],
        [⟨"sight",⟨"sight"⟩⟩,⟨"place",⟨"place"⟩⟩]⟩],
    [⟨⟨"relief"⟩,⟨"watch"⟩,⟨"report"⟩,.behaviorComplete,0,none⟩,
      ⟨⟨"return"⟩,⟨"report"⟩,⟨"watch"⟩,.behaviorComplete,0,none⟩],
    [⟨⟨"sight"⟩,⟨"watch"⟩,⟨"sight"⟩,⟨"report"⟩,⟨"sight"⟩⟩,
      ⟨⟨"place"⟩,⟨"watch"⟩,⟨"place"⟩,⟨"report"⟩,⟨"place"⟩⟩]⟩
  budgets := ⟨1,1,1,1⟩

end Machine

/-- A host for the sentry. The watch takes two steps, the rest has no end, and there are four ticks. -/
def Replay.guardhouse : Replay :=
  .start { HostScript.empty with
    maxTicks := 4
    behaviors := NameMap.insert (NameMap.insert ∅ "watch" ⟨some 2,none,[],[]⟩) "rest"
      ⟨none,none,[],[]⟩ }

def SessionState.atRest (complete : Bool) (token : Option ResumeToken) : SessionState :=
  { SessionState.start (some ⟨"rest"⟩) (.logical 0) with
    subBehaviorComplete := complete
    resumeToken := token }

end BehaviorMachine
