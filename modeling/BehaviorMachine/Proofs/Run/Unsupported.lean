import BehaviorMachine.Proofs.Dataflow.Contribution
import BehaviorMachine.Proofs.Profile.WellFormed
import BehaviorMachine.Proofs.Run.Path
import BehaviorMachine.Proofs.Run.Precedence

/-!
# What is not supported

A profile may hold kinds of conditions, operators and types of values that are not known here. It runs
all the same, and they have no effect (`unsupported_failsClosed`): a transition that the check of the
profile would refuse never fires, and a binding whose value would pass a port of such a type is left
out.
-/
namespace BehaviorMachine

variable {σ β : Type}

theorem Operator.mem_of_compare {operator : Operator} {supported : List Operator} {left : Extended}
    {right : Binary64} (hc : operator.compare supported left right = true) :
    operator ∈ supported := by
  rw [Operator.compare.eq_def,Bool.and_eq_true,decide_eq_true_iff] at hc
  exact hc.1

/-- Nothing holds without a world, and in a world only what is supported. -/
theorem Condition.holds_supported {c : Condition} {world : Option WorldSnapshot}
    {session : SessionState} {now : Timestamp} (hc : c.holds world session now = true) :
    world.isSome ∧ c.isSupported = true := by
  cases world with
  | none => cases hc
  | some w =>
    refine ⟨rfl,?_⟩
    cases c with
    | behaviorComplete => rfl
    | always => rfl
    | timer duration => rfl
    | inventoryPercentFull operator value => exact decide_eq_true (Operator.mem_of_compare hc)
    | healthPercent operator value =>
      obtain ⟨percent,-,hc⟩ := (Option.any_eq_true _ _).mp hc
      exact decide_eq_true (Operator.mem_of_compare hc)
    | itemCount pattern operator value => exact decide_eq_true (Operator.mem_of_compare hc)
    | skillLevel name operator value =>
      obtain ⟨level,-,hc⟩ := (Option.any_eq_true _ _).mp hc
      exact decide_eq_true (Operator.mem_of_compare hc)
    | unrecognized => cases hc

namespace Profile

variable {p : Profile} {s : StateSpec} {values : PortValues} {b : ParamBinding}

/-- The value of a binding would pass a port of a type that is not known: the port of the binding, or
the one that the first connection into it starts from. -/
def passesUnrecognized (p : Profile) (s : StateSpec) (b : ParamBinding) : Bool :=
  (s.port? b.portId).any (·.valueType = .unrecognized) ||
    ((p.connectionsInto s.id b.portId).head?.bind fun c => p.port? c.fromStateId c.fromPortId).any
      (·.valueType = .unrecognized)

/-- The state without the bindings whose values would pass a port of a type that is not known. -/
def recognized (p : Profile) (s : StateSpec) : StateSpec :=
  { s with paramBindings := s.paramBindings.filter fun b => !p.passesUnrecognized s b }

theorem not_contributes_unrecognized (hb : p.passesUnrecognized s b = true) (value : ParamValue) :
    ¬ Contributes p s values b value := by
  rintro ⟨hport,-,hc,hs,-⟩
  rw [← port?_eq_some_iff] at hport
  rw [← connectionsInto_head?] at hc
  obtain ⟨hstate,houtput,-,-⟩ := supplies_iff.mp hs
  have hfed := hs.known
  -- the type of the output is that of the input
  have hinput := hfed
  rw [hs.type] at hinput
  simp [passesUnrecognized,hport,hc,port?,hstate,houtput,hfed,hinput] at hb

theorem effectiveParams_recognized (p : Profile) (s : StateSpec) (values : PortValues) :
    p.effectiveParams (p.recognized s) values = p.effectiveParams s values := by
  rw [effectiveParams,effectiveParams,recognized,List.foldl_filter]
  congr 1
  funext params b
  cases hb : p.passesUnrecognized s b with
  | true =>
    rw [boundValue?_eq_none_iff.mpr (not_contributes_unrecognized hb)]
    rfl
  | false => rfl

end Profile

def Call.params? : Call → Option BehaviorParams
  | .resolve _ params _ _ => some params
  | .step _ context _ _ => some context.params
  | _ => none

namespace Machine

variable {m : Machine} {h : Host σ β} {x y : Execution σ β} {c : StateChange}

/-- A transition of the profile makes the state change. The host shows a world in which its condition
holds at that time, and the check of the profile has nothing against it. -/
structure Vetted (m : Machine) (h : Host σ β) (x : Execution σ β) (c : StateChange)
    (t : Transition) : Prop where
  declared : t ∈ m.profile.transitions
  cause : c.cause = .transition t.id
  source : t.fromStateId = c.source
  target : t.toStateId = c.target
  holds : ∃ s z world, Considers m h x s z ∧ h.world z.host = some world ∧ h.now z.host = c.time ∧
    t.condition.holds (some world) x.session c.time = true
  checked : m.profile.checkTransition t = .ok ()

/-- A change that is the work of a transition is vetted when it is made. -/
theorem Iteration.vetted {flow : Flow} {id : TransitionId} (hi : Iteration m h x flow y)
    (hchanges : y.changes = c :: x.changes) (hcause : c.cause = .transition id) :
    ∃ t, Vetted m h x c t := by
  cases hi.moves with
  | stays hc hp =>
    rw [hchanges] at hc
    exact absurd hc (List.cons_ne_self c x.changes)
  | enters hw hcurrent hc hp ht ha =>
    obtain rfl := (List.cons.inj (hchanges.symm.trans hc)).1
    cases hw with
    | @transition s _ z t hs hy hz ht htcause hsource htarget hr htime hholds =>
      obtain ⟨hworld,hsupported⟩ := Condition.holds_supported hholds
      obtain ⟨world,hworld⟩ := Option.isSome_iff_exists.mp hworld
      rw [hworld] at hholds
      refine ⟨t,ht,htcause,hsource,htarget,⟨s,z,world,.intro hs hy hz,hworld,htime,hholds⟩,?_⟩
      obtain ⟨hid,hstate⟩ := currentState?_some hs
      refine Profile.checkTransition_eq_ok.mpr ⟨?_,by rw [htarget]; exact hr,hsupported⟩
      rw [hsource,← Option.some.inj (hid.symm.trans hcurrent),hstate]
      rfl
    | interrupt hs hy hp hicause hn hsource hh ha htarget hr htime =>
      rw [hcause] at hicause
      cases hicause

/-- Each change of a history that is the work of a transition has been vetted in the iteration that
made it. -/
def VettedHistory (m : Machine) (h : Host σ β) (start : Execution σ β)
    (history : List StateChange) : Prop :=
  ∀ c ∈ history, ∀ id, c.cause = .transition id → ∃ n t, m.Lasts h n start ∧
    (m.step h (m.after h n start)).2.changes = c :: (m.after h n start).changes ∧
    Vetted m h (m.after h n start) c t

theorem vettedHistory_path {q r : Position} {start : Execution σ β} {history : List StateChange}
    (hp : Path (m.Makes h start) q history r) : m.VettedHistory h start history := by
  intro c hc id hcause
  obtain ⟨since,n,hl,hchanges,-,-⟩ := hp.grounds hc
  obtain ⟨t,ht⟩ := (step_iteration m h (m.after h n start)).vetted hchanges hcause
  exact ⟨n,t,hl,hchanges,ht⟩

theorem Considers.blind {s : StateSpec} {z : Execution σ β} (hz : Considers m h x s z)
    (hw : h.world z.host = none) : (m.step h x).2.history = x.history := by
  obtain ⟨hs,hy,hu⟩ := hz
  refine history_of_changes (step_stays hs hy hu ?_)
  rw [Profile.firing?_eq_none_iff,hw]
  intro i t ht
  cases ht.condition

/-- A call hands over the parameters that are effective in the iteration that makes it. -/
theorem after_params {x : Execution (Observed σ) (Nat × β)} (hx : x.host.calls = []) (n : Nat) :
    ∀ c ∈ (m.after h.observed n x).host.calls, ∀ params, c.params? = some params →
      ∃ k < n, ∃ s, m.currentState? (m.after h.observed k x).session = some s ∧
        params = m.profile.effectiveParams s (m.after h.observed k x).session.portValues := by
  induction n with
  | zero =>
    intro c hc
    rw [after,hx] at hc
    cases hc
  | succ n ih =>
    intro c hc params hparams
    obtain ⟨new,hcalls,hnew⟩ :=
      (step_iteration m h.observed (m.after h.observed n x)).works.grows
    rw [after,hcalls] at hc
    rcases List.mem_append.mp hc with hc | hc
    · obtain ⟨k,hk,hs⟩ := ih c hc params hparams
      exact ⟨k,Nat.lt_succ_of_lt hk,hs⟩
    · rcases hnew c hc with hpassive | ⟨s,hs,hdrive⟩
      · cases c with
        | resolve => exact hpassive.elim
        | step => exact hpassive.elim
        | _ => cases hparams
      · refine ⟨n,Nat.lt_succ_self n,s,hs,?_⟩
        cases hdrive with
        | resolve token found => exact (Option.some.inj hparams).symm
        | step number ticks writes result => exact (Option.some.inj hparams).symm

/-- What is not supported has no effect. A condition holds in a world only, and only if it is
supported. So the transitions that have changed the state of a run are among those that the check of
the profile accepts, and where no world is shown none fires. A binding whose value would pass a port
of a type that is not known contributes nothing, and the parameters that a run hands to behaviors are
those of its states without such bindings. -/
theorem unsupported_failsClosed :
    (∀ (c : Condition) (world : Option WorldSnapshot) (session : SessionState) (now : Timestamp),
      c.holds world session now = true → world.isSome ∧ c.isSupported = true) ∧
    (∀ {σ β : Type} (m : Machine) (h : Host σ β) (session : Option SessionState) (host : σ),
      let start := m.begin h session host
      (∀ n, m.Lasts h n start → m.VettedHistory h start (m.after h n start).history) ∧
      ∀ o host', m.run h session host = some (o,host') → m.VettedHistory h start o.history) ∧
    (∀ {σ β : Type} (m : Machine) (h : Host σ β) (x : Execution σ β) s z, Considers m h x s z →
      h.world z.host = none → (m.step h x).2.history = x.history) ∧
    (∀ (p : Profile) (s : StateSpec) (values : PortValues) (b : ParamBinding),
      p.passesUnrecognized s b = true → ∀ value, ¬ Contributes p s values b value) ∧
    ∀ {σ β : Type} (m : Machine) (h : Host σ β) (session : Option SessionState) (host : σ) n,
      let x := m.begin h.observed session (.start host)
      ∀ c ∈ (m.after h.observed n x).host.calls, ∀ params, c.params? = some params →
        ∃ k < n, ∃ s, m.currentState? (m.after h.observed k x).session = some s ∧
          params = m.profile.effectiveParams (m.profile.recognized s)
            (m.after h.observed k x).session.portValues := by
  refine ⟨fun _ _ _ _ hc => Condition.holds_supported hc,?_,fun _ _ _ _ _ hz hw => hz.blind hw,
    fun _ _ _ _ hb => Profile.not_contributes_unrecognized hb,?_⟩
  · intro σ β m h session host start
    constructor
    · intro n hl
      exact vettedHistory_path (after_path rfl fun k hk => lasts_mono (Nat.le_of_lt hk) hl)
    · intro o host' hr
      let e : Episode m.profile := ⟨m.budgets,h,session,host,o,host',hr⟩
      exact vettedHistory_path e.path
  · intro σ β m h session host n x c hc params hparams
    obtain ⟨k,hk,s,hs,he⟩ := after_params rfl n c hc params hparams
    refine ⟨k,hk,s,hs,?_⟩
    rw [Profile.effectiveParams_recognized]
    exact he

/-- A lookout who watches for omens too, but ports for omens are not known here. With empty hands he
would return from his report, but this condition has an operator that does not go with it. -/
def stargazer : Machine where
  profile := ⟨⟨"stargazer"⟩,"stargazer",none,some ⟨"watch"⟩,
    [⟨⟨"watch"⟩,"watch",⟨"watch"⟩,∅,[],
        [⟨⟨"sight"⟩,"sight",.output,.text⟩,⟨⟨"omen"⟩,"omen",.output,.unrecognized⟩],[]⟩,
      ⟨⟨"report"⟩,"report",⟨"report"⟩,.insert ∅ "omen" (.text "none"),[],
        [⟨⟨"sight"⟩,"sight",.input,.text⟩,⟨⟨"omen"⟩,"omen",.input,.unrecognized⟩],
        [⟨"sight",⟨"sight"⟩⟩,⟨"omen",⟨"omen"⟩⟩]⟩],
    [⟨⟨"relief"⟩,⟨"watch"⟩,⟨"report"⟩,.behaviorComplete,0,none⟩,
      ⟨⟨"return"⟩,⟨"report"⟩,⟨"watch"⟩,.inventoryPercentFull .lessOrEqual .zero,0,none⟩],
    [⟨⟨"sight"⟩,⟨"watch"⟩,⟨"sight"⟩,⟨"report"⟩,⟨"sight"⟩⟩,
      ⟨⟨"omen"⟩,⟨"watch"⟩,⟨"omen"⟩,⟨"report"⟩,⟨"omen"⟩⟩]⟩
  budgets := ⟨1,1,1,1⟩

/-- A host for the stargazer, who sees a comet and takes it for an omen at the only step of his
watch. -/
def observatory : Replay :=
  .start { HostScript.empty with
    maxTicks := 3
    behaviors := NameMap.insert (NameMap.insert ∅ "watch" ⟨some 1,none,[],
      [⟨"sight",.text "comet",none⟩,⟨"omen",.text "doom",none⟩]⟩) "report" ⟨none,none,[],[]⟩ }

/-- The session of a stargazer whose watch is over. -/
def watched : SessionState :=
  { SessionState.start (some ⟨"watch"⟩) (.logical 0) with
    subBehaviorComplete := true
    portValues := .set ∅ ⟨"watch"⟩ ⟨"omen"⟩ (.text "doom") }

theorem unsupported_failsClosed_stargazer :
    (∃ o r, stargazer.run Replay.host none observatory = some (o,r) ∧
      o.history.map StateChange.cause = [.transition ⟨"relief"⟩] ∧
      stargazer.VettedHistory Replay.host (stargazer.begin Replay.host none observatory) o.history) ∧
    (∃ c : Condition, c.holds (some .empty) watched (.logical 0) = true ∧ c.isSupported = true) ∧
    (∃ s z, stargazer.Considers Replay.host
        (stargazer.begin Replay.host (some watched) { observatory with world := none }) s z ∧
      (stargazer.step Replay.host (stargazer.begin Replay.host (some watched)
        { observatory with world := none })).2.history = []) ∧
    (∃ s ∈ stargazer.profile.states,
      stargazer.profile.passesUnrecognized s ⟨"omen",⟨"omen"⟩⟩ = true ∧
      ∀ value, ¬ Contributes stargazer.profile s watched.portValues ⟨"omen",⟨"omen"⟩⟩ value) ∧
    ∃ c ∈ (stargazer.after Replay.host.observed 3
        (stargazer.begin Replay.host.observed none (.start observatory))).host.calls,
      ∃ params, c.params? = some params ∧ params.get? "sight" = some (.text "comet") ∧
        params.get? "omen" = some (.text "none") ∧ ∃ s values,
          params = stargazer.profile.effectiveParams (stargazer.profile.recognized s) values := by
  obtain ⟨hcondition,hruns,hblind,hbinding,hparams⟩ := unsupported_failsClosed
  refine ⟨?_,?_,?_,?_,?_⟩
  · have hr := run_of_lasts stargazer Replay.host none observatory 3 (.suspended .hostDenied)
      (by decide +kernel) (by decide +kernel)
    exact ⟨_,_,hr,by decide +kernel,(hruns stargazer Replay.host none observatory).2 _ _ hr⟩
  · have hc : (Condition.inventoryPercentFull .less (.ofWord false 50)).holds (some .empty) watched
        (.logical 0) = true := by
      decide +kernel
    exact ⟨_,hc,(hcondition _ _ _ _ hc).2⟩
  · obtain ⟨s,hz⟩ := considers_quiet (m := stargazer) (h := Replay.host)
      (x := stargazer.begin Replay.host (some watched) { observatory with world := none })
      (by decide +kernel) (by decide +kernel) (by decide +kernel)
    exact ⟨s,_,hz,hblind stargazer Replay.host _ s _ hz (by decide +kernel)⟩
  · exact ⟨stargazer.profile.states.get ⟨1,by decide⟩,List.get_mem _ _,by decide +kernel,
      hbinding _ _ _ _ (by decide +kernel)⟩
  · have hreport : ∃ c ∈ (stargazer.after Replay.host.observed 3
        (stargazer.begin Replay.host.observed none (.start observatory))).host.calls,
        c.params?.any (fun params => params.get? "sight" = some (.text "comet") ∧
          params.get? "omen" = some (.text "none")) = true := by
      decide +kernel
    obtain ⟨c,hc,hany⟩ := hreport
    obtain ⟨params,hp,hget⟩ := (Option.any_eq_true _ _).mp hany
    obtain ⟨hsight,homen⟩ := of_decide_eq_true hget
    obtain ⟨k,-,s,-,he⟩ := hparams stargazer Replay.host none observatory 3 c hc params hp
    exact ⟨c,hc,params,hp,hsight,homen,s,_,he⟩

end Machine

end BehaviorMachine
