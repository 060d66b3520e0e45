import BehaviorMachine.Profile.Validity
import BehaviorMachine.Run.Loop
import BehaviorMachine.Store
/-!
Runs that go on from the session kept in a store and leave theirs there, whatever their status. With
strict checking, a malformed profile is rejected before anything is touched.
-/
namespace BehaviorMachine

inductive StoredRunError where
  | invalid (error : ProfileError)
  | store (error : StoreError)
  deriving DecidableEq

def StoredRunError.message : StoredRunError → String
  | .invalid error => s!"profile rejected: {error.message}"
  | .store error => error.message

/-- What a run through a store leaves: its outcome, the store, and the host. -/
structure StoredRun (τ σ : Type) where
  result : Except StoredRunError RunOutcome
  store : τ
  host : σ

/-- Load the session of a run, run the machine, and save the session. None if the run does not end. -/
def Machine.runStored {τ σ β : Type} (m : Machine) (strict : Bool) (store : SessionStore τ)
    (id : RunId) (h : Host σ β) (t : τ) (host : σ) : Option (StoredRun τ σ) :=
  match if strict then m.profile.validate else .ok () with
  | .error e => some ⟨.error (.invalid e), t, host⟩
  | .ok () =>
    match store.load id t with
    | .error e => some ⟨.error (.store e), t, host⟩
    | .ok session =>
      (m.run h session host).map fun (outcome, host) =>
        match store.save id outcome.session t with
        | .error e => ⟨.error (.store e), t, host⟩
        | .ok t => ⟨.ok outcome, t, host⟩

end BehaviorMachine
