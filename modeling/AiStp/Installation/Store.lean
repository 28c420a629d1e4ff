import AiStp.Installation.Model

/-!
# The operations database

The rows of one target. Every function is one transaction, and is `none` where it fails.
-/

set_option autoImplicit false

namespace AiStp.Installation

open Foundation Library

open Custody (Identity)

/-! ### Reading -/

/-- The row of exactly this request. Another request under its id is refused. -/
def Store.record (store : Store) (admission : Admission) : Option (Option Record) :=
  match store.operations.get? admission.operationId with
  | none => some none
  | some record =>
    if record.admission = admission ∧ (record.phase = .completed → record.outcome.isSome) then
      some (some record)
    else none

def Store.hasActive (store : Store) : Bool :=
  store.operations.any (·.2.active)

/-- The total number of desired bytes. -/
def payload (changes : List Change) : Nat :=
  (changes.map fun change ↦ (change.after.map (·.bytes.length)).getD 0).sum

/-- What the readers and writers of the rows of `changes` check of one list. -/
def storable (changes : List Change) : Bool :=
  changes.length ≤ changeLimit && payload changes ≤ payloadLimit &&
    changes.all fun change ↦ change.after.all Content.validate

/-- The changes of an operation. -/
def Store.held (store : Store) (id : String) : List Change :=
  (store.changes.get? id).getD []

def Store.changesOf (store : Store) (id : String) : Option (List Change) :=
  if storable (store.held id) then some (store.held id) else none

/-! ### Writing -/

def Store.insertChanges (system : System) (store : Store) (id : String)
    (changes : List Change) : Option Store :=
  if changes.length + (store.held id).length ≤ changeLimit ∧ storable changes ∧
      (changes.map (·.path)).Nodup ∧ ∀ change ∈ changes, system.validPath change.path then
    some { store with changes := store.changes.insert id (store.held id ++ changes) }
  else none

/-- Update the row of an operation where it meets a condition. -/
def Store.update (store : Store) (id : String) (allowed : Record → Bool)
    (change : Record → Record) : Option Store :=
  match store.operations.get? id with
  | some record =>
    if allowed record then
      some { store with operations := store.operations.insert id (change record) }
    else none
  | none => none

/-- Add the row of an operation whose id is new. -/
def Store.add (store : Store) (record : Record) : Option Store :=
  match store.operations.get? record.admission.operationId with
  | some _ => none
  | none =>
    some { store with
      operations := store.operations.insert record.admission.operationId record }

def Store.deleteChanges (store : Store) (id : String) : Store :=
  { store with changes := store.changes.remove id }

def Store.admitOperation (system : System) (store : Store) (admission : Admission) (context : Json)
    (changes : List Change) (prepared retainedMetadata : Bool) : Option Store := do
  guard (store.hasActive = false)
  guard (system.fits context = true)
  let added ← store.add
    { admission := admission
      context := context
      retainedMetadata := retainedMetadata
      stage := none
      phase := if prepared then .prepared else .applying
      outcome := none }
  added.insertChanges system admission.operationId changes

def Store.start (store : Store) (id : String) : Option Store :=
  store.update id (fun record ↦ record.phase = .prepared && record.stage.isSome)
    ({ · with phase := .applying })

/-- What a finished operation keeps of its context. -/
def Record.terminalContext (record : Record) : Json :=
  if record.retainedMetadata then record.context else .object []

def Record.finished (record : Record) (outcome : Json) : Record :=
  { record with phase := .completed, context := record.terminalContext, outcome := some outcome }

def Store.cancel (store : Store) (admission : Admission) (admitted : Bool) : Option Store :=
  if admitted then
    (store.update admission.operationId
      (fun record ↦ record.admission.planDigest = admission.planDigest &&
        (record.phase = .prepared || record.phase = .applying && record.stage.isNone))
      (·.finished admission.cancellation)).map (·.deleteChanges admission.operationId)
  else
    store.add
      { admission := admission
        context := .object []
        retainedMetadata := false
        stage := none
        phase := .completed
        outcome := some admission.cancellation }

def Store.setStage (store : Store) (id : String) (identity : Identity) : Option Store :=
  store.update id
    (fun record ↦ record.stage.isNone &&
      (record.phase = .prepared || record.phase = .applying))
    ({ · with stage := some identity })

def Store.finish (system : System) (store : Store) (id : String) (changes : List Change)
    (outcome : Json) : Option Store := do
  guard (system.fits outcome = true)
  let inserted ← store.insertChanges system id changes
  inserted.update id (fun record ↦ record.phase = .applying)
    ({ · with phase := .finishing, outcome := some outcome })

def Store.complete (store : Store) (id : String) : Option Store :=
  (store.deleteChanges id).update id
    (fun record ↦ record.phase = .finishing && record.outcome.isSome)
    fun record ↦ { record with phase := .completed, context := record.terminalContext }

/-! ### What a transaction leaves -/

/-- The row of an id. -/
def Store.row (store : Store) (id : String) : Option Record :=
  store.operations.get? id

variable {store : Store}

theorem Store.record_eq_some {admission : Admission} {record : Record}
    (h : store.record admission = some (some record)) :
    store.row admission.operationId = some record ∧ record.admission = admission := by
  unfold Store.record at h
  split at h
  · cases h
  · next held hheld =>
    split_ifs at h with hsame
    obtain rfl := Option.some.inj (Option.some.inj h)
    exact ⟨hheld, hsame.1⟩

theorem Store.record_eq_none {admission : Admission} (h : store.record admission = some none) :
    store.row admission.operationId = none := by
  unfold Store.record at h
  split at h
  · next hnone => exact hnone
  · split_ifs at h
    cases h

variable {id : String}

theorem Store.update_eq_some {next : Store} {allowed : Record → Bool} {change : Record → Record}
    (h : store.update id allowed change = some next) :
    ∃ record, store.row id = some record ∧ allowed record = true ∧
      next.changes = store.changes ∧
      ∀ other, next.row other = if other = id then some (change record) else store.row other := by
  unfold Store.update at h
  split at h
  · next record hrecord =>
    split_ifs at h with hallowed
    obtain rfl := Option.some.inj h
    exact ⟨record, hrecord, hallowed, rfl, fun other ↦ SortedMap.get?_insert⟩
  · cases h

theorem Store.add_eq_some {next : Store} {record : Record} (h : store.add record = some next) :
    store.row record.admission.operationId = none ∧ next.changes = store.changes ∧
      ∀ other, next.row other =
        if other = record.admission.operationId then some record else store.row other := by
  unfold Store.add at h
  split at h
  · cases h
  · next hnone =>
    obtain rfl := Option.some.inj h
    exact ⟨hnone, rfl, fun other ↦ SortedMap.get?_insert⟩

theorem Store.insertChanges_eq_some {system : System} {next : Store} {changes : List Change}
    (h : store.insertChanges system id changes = some next) :
    storable changes = true ∧ next.operations = store.operations ∧
      ∀ other, next.held other =
        if other = id then store.held id ++ changes else store.held other := by
  unfold Store.insertChanges at h
  split_ifs at h with hplace
  obtain rfl := Option.some.inj h
  refine ⟨hplace.2.1, rfl, fun other ↦ ?_⟩
  rw [Store.held, SortedMap.get?_insert]
  split_ifs
  · rfl
  · rfl

theorem Store.hasActive_eq_false (h : store.hasActive = false) {record : Record}
    (hrow : store.row id = some record) : record.active = false := by
  unfold Store.hasActive at h
  rw [List.any_eq_false] at h
  obtain ⟨before, after, hsplit, -⟩ := List.lookup_eq_some_iff.mp hrow
  simpa using h (id, record) (by simp [hsplit])

theorem Store.changesOf_eq_some {changes : List Change} (h : store.changesOf id = some changes) :
    changes = store.held id ∧
      ∀ change ∈ changes, ∀ content ∈ change.after, content.validate = true := by
  unfold Store.changesOf at h
  split_ifs at h with hstorable
  obtain rfl := Option.some.inj h
  refine ⟨rfl, fun change hchange content hcontent ↦ ?_⟩
  simp only [storable, Bool.and_eq_true, List.all_eq_true] at hstorable
  exact (Option.all_eq_true _ _).mp (hstorable.2 change hchange) content hcontent

end AiStp.Installation
