import AiStp.Foundation.Canonical
import AiStp.Library.Tables

/-!
# Publication records

The rows of a publication: plans, validation snapshots, catalog versions, the line identities of
components and their ownership revisions. A passport is a JSON document; what the server reads of a
validated one is a `Passport`. `Registry` holds what the server takes from its schema library and
from the name rules, which publication only calls.

`validatePublicationPassport` checks a document against the coordinates of a plan,
`runPlatformChecks` looks at its fields, and `snapshotOutcome` turns check results into a verdict.
-/

set_option autoImplicit false

namespace AiStp.Publication

open Foundation Library

abbrev Moment := Int

inductive ObjectKind where
  | component
  | setup
deriving DecidableEq

def ObjectKind.text : ObjectKind → String
  | .component => "component"
  | .setup => "setup"

/-- Who may find a version in the catalog. -/
inductive Visibility where
  | toEveryone
  | toOwner
deriving DecidableEq

def Visibility.text : Visibility → String
  | .toEveryone => "public"
  | .toOwner => "private"

/-! ### Passports -/

/-- What the server reads of a passport that its schema accepts. -/
structure Passport where
  kind : ObjectKind
  stableId : String
  version : String
  ownerId : String
  hasSource : Bool
  artifactDigest : String
  revisionId : String
  /-- The accepted passport written out again. -/
  document : Json

/-- What publication calls: the passport schemas and the rules of names. -/
structure Registry where
  platform : Platform
  /-- The schema of a kind: the passport, or the places of its errors. -/
  model : ObjectKind → Json → Except (List String) Passport
  verifyRevisionId : Passport → Bool
  canonicalSlug : String → Option String
  submittedDisplayName : String → Option String
  normalizeDisplayKey : String → String
  /-- The SHA-256 of the sorted compact text of a document. -/
  textDigest : Json → String

def passportDigestDomain : String := "ai-stp:passport:v1"

/-- The canonical digest of a passport; a document that has no canonical bytes raises. -/
def passportDigest (registry : Registry) (passport : Passport) : Option String :=
  Canonical.digestCanonical registry.platform passportDigestDomain passport.document

section Validation

variable (registry : Registry)

/-- What the server finds wrong with a passport that fits its schema, in sorted order. -/
def invalidFields (passport : Passport) (objectKind : ObjectKind)
    (stableId version contentDigest : String) (ownerAccountId : Option String)
    (sourceBound : Bool) : List String :=
  (if passport.artifactDigest ≠ contentDigest then ["artifact.digest"] else []) ++
  (if passport.kind ≠ objectKind then ["kind"] else []) ++
  (if ownerAccountId.any (passport.ownerId ≠ ·) then ["owner_id"] else []) ++
  (if registry.verifyRevisionId passport then [] else ["revision_id"]) ++
  (if objectKind = .component ∧ !(passport.hasSource || sourceBound) then ["source"] else []) ++
  (if passport.stableId ≠ stableId then ["stable_id"] else []) ++
  (if passport.version ≠ version then ["version"] else [])

/-- `validate_publication_passport`: the exact immutable passport that the catalog stores. -/
def validatePublicationPassport (document : Json) (objectKind : ObjectKind)
    (stableId version contentDigest : String) (ownerAccountId : Option String)
    (sourceBound : Bool) : Except (List String) Passport :=
  match registry.model objectKind document with
  | .error places => .error places
  | .ok passport =>
    match invalidFields registry passport objectKind stableId version contentDigest
        ownerAccountId sourceBound with
    | [] => .ok passport
    | invalid => .error invalid

variable {registry} {document : Json} {objectKind : ObjectKind}
  {stableId version contentDigest : String} {ownerAccountId : Option String} {sourceBound : Bool}
  {passport : Passport}

theorem validatePublicationPassport_eq_ok
    (h : validatePublicationPassport registry document objectKind stableId version contentDigest
      ownerAccountId sourceBound = .ok passport) :
    registry.model objectKind document = .ok passport ∧
      invalidFields registry passport objectKind stableId version contentDigest ownerAccountId
        sourceBound = [] := by
  unfold validatePublicationPassport at h
  split at h
  · cases h
  · next found hmodel =>
    split at h
    · next hinvalid =>
      obtain rfl : found = passport := Except.ok.inj h
      exact ⟨hmodel, hinvalid⟩
    · cases h

/-- A passport without invalid fields names the bytes of the plan. -/
theorem artifactDigest_of_invalidFields
    (h : invalidFields registry passport objectKind stableId version contentDigest ownerAccountId
      sourceBound = []) : passport.artifactDigest = contentDigest := by
  unfold invalidFields at h
  simp only [List.append_eq_nil_iff] at h
  have hdigest := h.1.1.1.1.1.1
  by_contra hne
  rw [if_pos hne] at hdigest
  cases hdigest

end Validation

/-! ### Platform checks -/

inductive CheckResult where
  | passed
  | warning
  | failed
  | degraded
  | notRun
  | notApplicable
  | skipped
  | running
  | expired
deriving DecidableEq

structure Binding where
  checkId : String
  result : CheckResult
  mandatory : Bool
deriving DecidableEq

/-- The values that a completeness check counts as missing. -/
def isBlank : Json → Bool
  | .null => true
  | .string text => text = ""
  | .array items => items.isEmpty
  | .object fields => fields.isEmpty
  | _ => false

def truthyNumber : Number → Bool
  | .integer value => value ≠ 0
  | .float text =>
    ((Text.units text).takeWhile fun character ↦ character ≠ 'e' ∧ character ≠ 'E').any
      fun character ↦ '1' ≤ character ∧ character ≤ '9'
  | .nonFinite => true

def truthy : Json → Bool
  | .bool value => value
  | .number value => truthyNumber value
  | value => !isBlank value

def sourceParts : List String := ["repository", "commit", "path"]

def isSetupDocument (passport : Json) : Bool :=
  (passport.index "kind").same (.string "setup")

/-- `validate_passport_completeness`: the missing fields. -/
def validatePassportCompleteness (passport : Json) (sourceBound : Bool) : List String :=
  let component := !isSetupDocument passport && !sourceBound
  let required := ["name", "version", "license", "tags", "artifact"] ++
    if component then ["source"] else []
  required.filter (fun key ↦ (passport.get? key).all isBlank) ++
  (if component then
    match passport.index "source" with
    | .object fields =>
      (sourceParts.filter fun key ↦ !truthy ((Json.object fields).index key)).map fun key ↦
        "source." ++ key
    | _ => ["source"]
  else []) ++
  (match passport.index "license" with
    | .object fields =>
      if truthy ((Json.object fields).index "spdx_id") then [] else ["license.spdx_id"]
    | _ => ["license"]) ++
  (match passport.index "tags" with
    | .array (_ :: _) => []
    | _ => ["tags"])

def verdict (passes : Bool) : CheckResult :=
  if passes then .passed else .failed

/-- `run_platform_checks`: the mandatory checks that need no credentials. -/
def runPlatformChecks (passport : Json) (contentDigest : String) (sourceBound : Bool) :
    List Binding :=
  let digestOk := ((passport.index "artifact").index "digest").same (.string contentDigest) &&
    contentDigest ≠ ""
  let licenseOk := truthy ((passport.index "license").index "spdx_id")
  let tagsOk := match passport.index "tags" with
    | .array (_ :: _) => true
    | _ => false
  let sourceOk := match passport.index "source" with
    | .object fields => sourceParts.all fun key ↦ truthy ((Json.object fields).index key)
    | _ => isSetupDocument passport || sourceBound
  [⟨"structure", verdict (validatePassportCompleteness passport sourceBound).isEmpty, true⟩,
    ⟨"digest", verdict digestOk, true⟩, ⟨"license", verdict licenseOk, true⟩,
    ⟨"tags", verdict tagsOk, true⟩, ⟨"source_repo", verdict sourceOk, true⟩]

inductive SnapshotState where
  | passed
  | warning
  | failed
deriving DecidableEq

/-- `snapshot_outcome`: the verdict, and whether the common checks all passed. -/
def snapshotOutcome (bindings : List Binding) : SnapshotState × Bool :=
  let results := (bindings.filter (·.mandatory)).map (·.result)
  if results = [] then (.failed, false)
  else if results.any (· ∈ [.failed, .degraded, .notRun, .expired]) then (.failed, false)
  else if .warning ∈ results then (.warning, false)
  else if results.all (· = .passed) then (.passed, true)
  else (.failed, false)

/-- A verdict that lets a plan go on: every mandatory check has run and none has failed. -/
theorem mandatory_of_snapshotOutcome {bindings : List Binding}
    (h : (snapshotOutcome bindings).1 ≠ .failed) :
    ∀ binding ∈ bindings, binding.mandatory = true →
      binding.result ∉ [.failed, .degraded, .notRun, .expired] := by
  intro binding hbinding hmandatory hresult
  have hmem : binding.result ∈ (bindings.filter (·.mandatory)).map (·.result) :=
    List.mem_map.mpr ⟨binding, List.mem_filter.mpr ⟨hbinding, hmandatory⟩, rfl⟩
  apply h
  unfold snapshotOutcome
  simp only
  rw [if_neg (List.ne_nil_of_mem hmem), if_pos]
  rw [List.any_eq_true]
  exact ⟨binding.result, hmem, decide_eq_true hresult⟩

/-! ### Rows -/

inductive PlanState where
  | draft
  | ready
  | validating
  | publishPlanned
  | published
  | failed
  | cancelled
  | stale
deriving DecidableEq

/-- The states that a plan is meant to end in. -/
def PlanState.terminal : PlanState → Bool
  | .published | .failed | .cancelled | .stale => true
  | _ => false

structure PublicationPlan where
  actorAccountId : String
  deviceId : String
  objectKind : ObjectKind
  stableId : String
  version : String
  contentDigest : String
  artifactInventory : List String
  visibility : Visibility
  sourceBindingId : Option String
  gitlabSourceBindingId : Option String
  policyVersion : String
  planHash : String
  state : PlanState
  passport : Json
  attestations : List Json
  componentVerified : Bool
  idempotencyKey : String
  confirmIdempotencyKey : Option String
  expectedOwnershipRevisionId : Option String
  expiresAt : Moment

structure ValidationSnapshot where
  planId : String
  contentDigest : String
  policyVersion : String
  state : SnapshotState
  componentVerified : Bool
  /-- The evidence bindings of the snapshot, one for each check. -/
  evidence : List Binding

inductive Lifecycle where
  | draft
  | active
  | deprecated
  | hidden
  | blocked
deriving DecidableEq

/-- The identity of a catalog row. -/
structure VersionKey where
  objectKind : ObjectKind
  stableId : String
  version : String
deriving DecidableEq

structure CatalogMetadata where
  ownerAccountId : String
  currentRevisionId : String
  visibility : Visibility
  lifecycleState : Lifecycle
  name : Option String
  publishedAt : Option Moment
  componentVerified : Bool
  passportDigest : Option String
  passportDocument : Option Json

/-- One owned catalog line; the localized names are those of its two locales. -/
structure CatalogIdentity where
  ownerAccountId : String
  canonicalName : String
  displayNameEn : String
  displayNameRu : String
  ownershipRevisionId : String
deriving DecidableEq

structure OwnershipRevision where
  claimId : Option String
  caseId : String
  stableId : String
  fromAccountId : String
  toAccountId : String

inductive CaseState where
  | submitted
  | triaged
  | awaitingAuthor
  | resolved
  | rejected
deriving DecidableEq

structure ReportCase where
  topic : String
  state : CaseState
  stableId : Option String
  recipientAccountId : Option String
  idempotencyKey : String

inductive ClaimState where
  | requested
  | approved
  | denied
deriving DecidableEq

structure OwnershipClaim where
  stableId : String
  toAccountId : String
  state : ClaimState
  idempotencyKey : String

inductive JobType where
  | validate
  | publish
deriving DecidableEq

structure Database where
  plans : Table String PublicationPlan
  snapshots : Table String ValidationSnapshot
  catalog : Table VersionKey CatalogMetadata
  identities : Table String CatalogIdentity
  revisions : Table String OwnershipRevision
  cases : Table String ReportCase
  claims : Table String OwnershipClaim
  /-- Every job that was ever enqueued; the key of a job is its type and its plan. -/
  jobs : List (JobType × String)

def Database.empty : Database :=
  ⟨.empty, .empty, .empty, .empty, .empty, .empty, .empty, []⟩

instance : LawfulBEq (JobType × String) := inferInstance

/-- `enqueue`: a job whose key was used before is not enqueued again. -/
def Database.enqueue (database : Database) (jobType : JobType) (planId : String) : Database :=
  if (jobType, planId) ∈ database.jobs then database
  else { database with jobs := database.jobs ++ [(jobType, planId)] }

/-- The snapshot of a plan. -/
def Database.snapshotOf (database : Database) (planId : String) :
    Option (String × ValidationSnapshot) :=
  database.snapshots.find? fun _ snapshot ↦ snapshot.planId = planId

/-- Some row of a line that another account owns. -/
def Database.foreignRow (database : Database) (objectKind : ObjectKind) (stableId : String)
    (accountId : String) : Option (VersionKey × CatalogMetadata) :=
  database.catalog.find? fun key row ↦
    key.objectKind = objectKind ∧ key.stableId = stableId ∧ row.ownerAccountId ≠ accountId

def VersionKey.of (plan : PublicationPlan) : VersionKey :=
  ⟨plan.objectKind, plan.stableId, plan.version⟩

/-! ### Writing -/

/-- A new version row; a version number is taken once for a stable identity, whatever its kind. -/
def Database.insertVersion? (database : Database) (key : VersionKey) (row : CatalogMetadata) :
    Option Database := do
  guard ((database.catalog.find? fun other _ ↦
    other.stableId = key.stableId ∧ other.version = key.version) = none)
  let catalog ← database.catalog.insert? key row
  return { database with catalog := catalog }

/-- A new snapshot: a plan has one, and a snapshot has one binding for each check. -/
def Database.insertSnapshot? (database : Database) (id : String) (snapshot : ValidationSnapshot) :
    Option Database := do
  guard (database.snapshotOf snapshot.planId = none)
  guard (snapshot.evidence.map (·.checkId)).Nodup
  let snapshots ← database.snapshots.insert? id snapshot
  return { database with snapshots := snapshots }

/-- A new line identity, none of whose names is taken. -/
def Database.insertIdentity? (database : Database) (registry : Registry) (stableId : String)
    (identity : CatalogIdentity) : Option Database := do
  guard ((database.identities.find? fun _ other ↦
    other.canonicalName = identity.canonicalName ∨
      registry.normalizeDisplayKey other.displayNameEn =
        registry.normalizeDisplayKey identity.displayNameEn ∨
      registry.normalizeDisplayKey other.displayNameRu =
        registry.normalizeDisplayKey identity.displayNameRu) = none)
  let identities ← database.identities.insert? stableId identity
  return { database with identities := identities }

/-- A new plan; an account uses an idempotency key once, and a bound source serves one plan. -/
def Database.insertPlan? (database : Database) (id : String) (plan : PublicationPlan) :
    Option Database := do
  guard ((database.plans.find? fun _ other ↦
    (other.actorAccountId = plan.actorAccountId ∧ other.idempotencyKey = plan.idempotencyKey) ∨
      (plan.sourceBindingId.isSome ∧ other.sourceBindingId = plan.sourceBindingId) ∨
      (plan.gitlabSourceBindingId.isSome ∧
        other.gitlabSourceBindingId = plan.gitlabSourceBindingId)) = none)
  let plans ← database.plans.insert? id plan
  return { database with plans := plans }

end AiStp.Publication
