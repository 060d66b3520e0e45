import BehaviorMachine.Session
/-!
Stores keep the sessions of runs by run identifier. A store is given by its operations on a state of
its own, and a store in memory never fails.
-/
namespace BehaviorMachine

/-- A store reports that it cannot carry out an operation. -/
structure StoreError where
  reason : String
  deriving DecidableEq

def StoreError.message (e : StoreError) : String := s!"session store error: {e.reason}"

/-- The operations of a store with states `τ`. -/
structure SessionStore (τ : Type) where
  /-- The session kept for a run. -/
  load : RunId → τ → Except StoreError (Option SessionState)
  /-- Keep a session for a run in place of an earlier one. -/
  save : RunId → SessionState → τ → Except StoreError τ

/-- Sessions in memory. -/
abbrev SessionTable := NameMap SessionState

namespace SessionTable

def load (id : RunId) (t : SessionTable) : Option SessionState := t.get? id.text

def save (id : RunId) (session : SessionState) (t : SessionTable) : SessionTable :=
  t.insert id.text session

/-- Forget the session of a run, and return it. -/
def remove (id : RunId) (t : SessionTable) : Option SessionState × SessionTable :=
  (t.load id, t.erase id.text)

end SessionTable

namespace SessionStore

variable {τ : Type}

def memory : SessionStore SessionTable where
  load id t := .ok (t.load id)
  save id session t := .ok (t.save id session)

/-- A store that refuses to load. -/
def refusingLoad (reason : String) (store : SessionStore τ) : SessionStore τ :=
  { store with load := fun _ _ => .error ⟨reason⟩ }

/-- A store that refuses to save. -/
def refusingSave (reason : String) (store : SessionStore τ) : SessionStore τ :=
  { store with save := fun _ _ _ => .error ⟨reason⟩ }

end SessionStore

end BehaviorMachine
