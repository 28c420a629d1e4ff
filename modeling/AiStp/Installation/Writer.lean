import AiStp.Installation.Files
import AiStp.Installation.Store

/-!
# Forward-only configuration transactions

The operations of `Writer`. An operation is admitted with its changes, applied under its journal,
finished with the metadata that records it, and completed; until its publication starts it may be
cancelled. Each is a program, so that a crash may leave any state that it passes.
-/

set_option autoImplicit false

namespace AiStp.Installation

open Foundation Library

open Custody (Identity)

open Program

variable (system : System)

/-! ### Readings -/

/-- One transaction of the database. -/
def commit (change : Store → Option Store) : Writer Unit :=
  act fun world ↦ (change world.store).map ({ world with store := · })

def World.readJournal (world : World) : Option (Option Journal) := do
  let (_, content) ← observeFile system world.control [journalFileName]
  match content with
  | none => some none
  | some content =>
    if content.bytes.length ≤ 64 * 1024 then (system.decodeJournal content.bytes).map some
    else none

def readJournal : Writer (Option Journal) :=
  look (World.readJournal system)

/-- `Writer::read`. -/
def World.read (world : World) (path : Path) : Option (Observation × Option Content) :=
  if system.internalPath path then none else observeFile system world.root path

/-- The file of a change is as it was observed. -/
def World.unchanged (world : World) (change : Change) : Bool :=
  (world.read system change.path).any (·.1 = change.before)

def needUnchanged (changes : List Change) : Writer Unit :=
  look fun world ↦ if changes.all (world.unchanged system) then some () else none

/-- The row of a request that was admitted. -/
def theRecord (admission : Admission) : Writer Record :=
  look fun world ↦ (world.store.record admission).join

def theChanges (admission : Admission) : Writer (List Change) :=
  look fun world ↦ world.store.changesOf admission.operationId

/-- `Writer::change`. -/
def World.bindChange (world : World) (wanted : Path × Option Content) : Option Change := do
  let (before, _) ← world.read system wanted.1
  some { path := wanted.1, before := before, after := wanted.2 }

/-! ### The guard -/

/-- The staging directory, made where no identity of one is recorded. -/
def openStaging (record : Record) (entry : Option Entry) : Writer Identity := do
  need (entry.isSome ∨ record.stage = none)
  ensureDirectory system .control [stagingName] entry

/-- The staging directory is the recorded one, or is empty and recorded now. -/
def bindStage (admission : Admission) (identity : Identity) : Option Identity → Writer Unit
  | some expected => need (identity = expected)
  | none => do
    look fun world ↦ if world.control.children [stagingName] = [] then some () else none
    commit (·.setStage admission.operationId identity)

def guardContent (admission : Admission) : Content :=
  { bytes := system.encodeJournal admission.journal, mode := 0o600 }

def guardChange (admission : Admission) (before : Observation) : Change :=
  { path := [journalFileName], before := before, after := some (guardContent system admission) }

/-- Publish the journal where there is none. -/
def publishGuard (admission : Admission) : Option Journal → Writer Unit
  | some _ => pure ()
  | none => do
    let before ← observe system .control [journalFileName]
    need (before.file = none)
    need ((guardContent system admission).validate = true)
    publish system .control "guard" (guardChange system admission before)

/-- Without its journal an operation has changed no file. -/
def needUntouched (admission : Admission) : Option Journal → Writer Unit
  | some _ => pure ()
  | none => do
    let changes ← theChanges admission
    needUnchanged system changes

def staging (record : Record) : Writer Identity := do
  let journal ← readJournal system
  need (∀ held ∈ journal, held = record.admission.journal)
  needUntouched system record.admission journal
  let entry ← look fun world ↦ some world.staging
  let identity ← openStaging system record entry
  bindStage record.admission identity record.stage
  publishGuard system record.admission journal
  pure identity

/-- The staging directory holds nothing. -/
def needEmpty : Writer Unit :=
  look fun world ↦ if world.control.children [stagingName] = [] then some () else none

/-! ### Completion -/

/-- Remove the staging directory of a record. -/
def removeStaging (record : Record) : Option Entry → Writer Unit
  | none => pure ()
  | some (.directory identity) => do
    need (some identity = record.stage)
    needEmpty
    removeDirectory .control [stagingName]
  | some _ => refuse

def removeJournal : Option Journal → Writer Unit
  | none => pure ()
  | some _ => removeFile .control [journalFileName]

/-- The control state belongs to another operation, or to none. -/
def notItsOwn (record : Record) (hasActive : Bool) : Option Journal → Bool
  | some held => held ≠ record.admission.journal
  | none => record.stage.isNone || hasActive

def clearCompleted (record : Record) : Writer Unit := do
  let journal ← readJournal system
  let hasActive ← look fun world ↦ some world.store.hasActive
  if notItsOwn record hasActive journal then pure ()
  else do
    let entry ← look fun world ↦ some world.staging
    removeStaging record entry
    removeJournal journal

/-! ### Progress -/

inductive Progress where
  | absent
  | prepared (context : Json)
  | applying (context : Json)
  | finishing
  | completed (outcome : Json)
  | cancelled (outcome : Json)
deriving DecidableEq

/-- What `progress` says of a row. -/
def progressOf (admission : Admission) : Option Record → Writer Progress
  | none => pure .absent
  | some record =>
    match record.phase, record.outcome with
    | .prepared, _ => pure (.prepared record.context)
    | .applying, _ => pure (.applying record.context)
    | .finishing, _ => pure .finishing
    | .completed, none => refuse
    | .completed, some outcome => do
      clearCompleted system record
      if outcome = admission.cancellation then pure (.cancelled outcome)
      else pure (.completed outcome)

def progress (admission : Admission) : Writer Progress := do
  need (admission.validate = true)
  let record ← look fun world ↦ world.store.record admission
  progressOf system admission record

/-! ### Admission and preparation -/

def admitInner (admission : Admission) (context : Json) (changes : List Change)
    (prepared retainedMetadata : Bool) : Writer Unit := do
  need (admission.validate = true)
  need (validateChanges system changes = true)
  let journal ← readJournal system
  need (journal = none)
  let entry ← look fun world ↦ some world.staging
  need (entry = none)
  needUnchanged system changes
  commit (·.admitOperation system admission context changes prepared retainedMetadata)

def admitOperation (admission : Admission) (context : Json) (changes : List Change) : Writer Unit :=
  admitInner system admission context changes false false

def preparation (admission : Admission) : Json :=
  .object
    [ ("configuration_changed", .bool false)
    , ("expected_target_digest", .string admission.targetPreconditionDigest)
    , ("operation", .string admission.operation)
    , ("operation_id", .string admission.operationId)
    , ("plan_digest", .string admission.planDigest)
    , ("state", .string "prepared") ]

/-- Finish or replay preparation from its durable record. -/
def prepared (admission : Admission) : Writer Json := do
  let record ← theRecord admission
  need (record.phase = .prepared)
  let changes ← theChanges admission
  needUnchanged system changes
  let _ ← staging system record
  needEmpty
  pure (preparation admission)

/-- `prepare_context`, from the progress of the operation. -/
def prepareFrom (admission : Admission) (context : Json) (changes : List Change) (retain : Bool) :
    Progress → Writer Json
  | .absent => do
    admitInner system admission context changes true retain
    prepared system admission
  | .prepared _ => do
    let record ← theRecord admission
    need (retain = true → record.retainedMetadata = true)
    prepared system admission
  | .completed outcome => pure outcome
  | .cancelled outcome => pure outcome
  | .applying _ => refuse
  | .finishing => refuse

/-- `prepare` and `prepare_retained_metadata`. -/
def prepareContext (admission : Admission) (context : Json) (changes : List Change)
    (retain : Bool) : Writer Json := do
  let current ← progress system admission
  prepareFrom system admission context changes retain current

/-- Close the cancellation window. -/
def start (admission : Admission) : Writer Unit := do
  let _ ← prepared system admission
  commit (·.start admission.operationId)

/-! ### Cancellation -/

/-- No publication of the operation can have started. An interrupted guard publication of a
prepared operation is completed. -/
def notPublished (admission : Admission) (record : Record) : Writer Unit :=
  if record.phase = .prepared then do
    let _ ← prepared system admission
    pure ()
  else do
    need (record.phase = .applying ∧ record.stage = none)
    let journal ← readJournal system
    need (journal = none)
    let entry ← look fun world ↦ some world.staging
    need (entry = none)

/-- What `cancel` asks of the row of the request. -/
def cancellable (admission : Admission) : Option Record → Writer Unit
  | none => pure ()
  | some record => do
    notPublished system admission record
    let changes ← theChanges admission
    needUnchanged system changes

/-- The record is the tombstone of a cancellation. -/
def Record.isTombstone (record : Record) : Bool :=
  record.phase = .completed && record.outcome = some record.admission.cancellation

/-- Commit the cancellation of a request without a tombstone, and clear after it. -/
def cancelRow (admission : Admission) (record : Option Record) : Writer Unit := do
  cancellable system admission record
  commit (·.cancel admission record.isSome)
  let cancelled ← theRecord admission
  clearCompleted system cancelled

def cancelFrom (admission : Admission) (record : Option Record) : Writer Unit :=
  match record.filter (·.isTombstone) with
  | some tombstone => clearCompleted system tombstone
  | none => cancelRow system admission record

def cancel (admission : Admission) : Writer Json := do
  need (admission.validate = true)
  let record ← look fun world ↦ world.store.record admission
  cancelFrom system admission record
  pure admission.cancellation

/-! ### Publication -/

/-- The files of the changes are as desired. -/
def verified (world : World) (change : Change) : Bool :=
  (world.read system change.path).any fun now ↦
    change.before.within now.1 && sameContent system now.1.file change.after

def verify (changes : List Change) : Writer Unit :=
  look fun world ↦ if changes.all (verified system world) then some () else none

/-- One round of the loop of `apply_checked`. -/
def applyOne (identity : Identity) (authorized : Nat → Bool) (item : Change × Nat) :
    Writer Unit := do
  look fun world ↦ if world.staging = some (.directory identity) then some () else none
  need (authorized item.2 = true)
  publish system .root (toString item.2) item.1

/-- `apply_checked`, where the owner's check allows the changes of some indices. -/
def applyChecked (admission : Admission) (authorized : Nat → Bool) : Writer Unit := do
  let record ← theRecord admission
  need (record.phase = .applying ∨ record.phase = .finishing)
  let identity ← staging system record
  let changes ← theChanges admission
  forEach (applyOne system identity authorized) changes.zipIdx
  verify system changes

def apply (admission : Admission) : Writer Unit :=
  applyChecked system admission fun _ ↦ true

def finish (admission : Admission) (changes : List Change) (outcome : Json) : Writer Unit := do
  let record ← theRecord admission
  need (record.phase = .applying)
  let existing ← theChanges admission
  need (validateEffects system changeLimit payloadLimit (existing ++ changes) = true)
  verify system existing
  needUnchanged system changes
  commit (·.finish system admission.operationId changes outcome)

def complete (admission : Admission) : Writer Json := do
  let record ← theRecord admission
  need (record.phase = .finishing)
  let changes ← theChanges admission
  verify system changes
  let _ ← staging system record
  needEmpty
  commit (·.complete admission.operationId)
  let completed ← theRecord admission
  clearCompleted system completed
  look fun _ ↦ completed.outcome

end AiStp.Installation
