import AiStp.Library.Json

/-!
# Jobs

A job is one row of the queue table. Moments are counted in microseconds. A row that is settled for
good keeps its payload without the credentials that the handler needed (`scrubSettledPayload`).

A session writes back what it changed: `Job.flush` updates the columns whose value differs from the
one that the session loaded, and leaves the others as the table has them.
-/

set_option autoImplicit false

namespace AiStp.Queue

open Library

abbrev Moment := Int

def microseconds (seconds : Nat) : Int := seconds * 1000000

/-! ### States -/

inductive JobState where
  | queued
  | running
  | retryScheduled
  | deadLetter
  | succeeded
  | cancelled
deriving DecidableEq, Repr

def claimableStates : List JobState := [.queued, .retryScheduled]

def terminalStates : List JobState := [.succeeded, .deadLetter, .cancelled]

/-! ### Payloads -/

abbrev Payload := List (String × Json)

/-- Payload keys that are credentials in transit. -/
def sensitivePayloadKeys : List String :=
  ["accept_token", "invitation_token", "refresh_token", "access_token", "secret", "password"]

/-- What stands for a credential that was delivered. -/
def delivered : Json := .string "[delivered]"

/-- The payload with its credential-bearing keys replaced by a marker. -/
def scrubSettledPayload (payload : Payload) : Payload :=
  payload.map fun field ↦
    (field.1, if field.1 ∈ sensitivePayloadKeys then delivered else field.2)

theorem scrubSettledPayload_scrubSettledPayload (payload : Payload) :
    scrubSettledPayload (scrubSettledPayload payload) = scrubSettledPayload payload := by
  unfold scrubSettledPayload
  rw [List.map_map]
  congr 1
  ext field
  · rfl
  · by_cases hkey : field.1 ∈ sensitivePayloadKeys
    · simp [hkey]
    · simp [hkey]

/-! ### Rows -/

structure Job where
  id : Nat
  payload : Payload
  organizationId : Option String
  state : JobState
  priority : Int
  attempts : Nat
  maxAttempts : Int
  runAfter : Moment
  idempotencyKey : String
  lockedBy : Option String
  lockedAt : Option Moment
  lastError : Option String
deriving DecidableEq

/-- A column after a session that loaded one value and left another one is flushed. -/
def flushed {Value : Type} [DecidableEq Value] (loaded written current : Value) : Value :=
  if written = loaded then current else written

theorem flushed_of_ne {Value : Type} [DecidableEq Value] {loaded written : Value}
    (h : written ≠ loaded) (current : Value) : flushed loaded written current = written :=
  if_neg h

@[simp] theorem flushed_self {Value : Type} [DecidableEq Value] (loaded current : Value) :
    flushed loaded loaded current = current :=
  if_pos rfl

/-- A column that the table has as it was loaded takes the written value. -/
@[simp] theorem flushed_loaded {Value : Type} [DecidableEq Value] (loaded written : Value) :
    flushed loaded written loaded = written := by
  unfold flushed
  split_ifs with h
  · exact h.symm
  · rfl

/-- The row of the table after the object of a session is flushed to it. -/
def Job.flush (loaded written current : Job) : Job where
  id := current.id
  payload := flushed loaded.payload written.payload current.payload
  organizationId := flushed loaded.organizationId written.organizationId current.organizationId
  state := flushed loaded.state written.state current.state
  priority := flushed loaded.priority written.priority current.priority
  attempts := flushed loaded.attempts written.attempts current.attempts
  maxAttempts := flushed loaded.maxAttempts written.maxAttempts current.maxAttempts
  runAfter := flushed loaded.runAfter written.runAfter current.runAfter
  idempotencyKey := flushed loaded.idempotencyKey written.idempotencyKey current.idempotencyKey
  lockedBy := flushed loaded.lockedBy written.lockedBy current.lockedBy
  lockedAt := flushed loaded.lockedAt written.lockedAt current.lockedAt
  lastError := flushed loaded.lastError written.lastError current.lastError

/-- Bounded exponential backoff for an attempt count, in seconds. -/
def backoffSeconds (attempts : Nat) : Nat :=
  min 300 (2 ^ attempts)

end AiStp.Queue
