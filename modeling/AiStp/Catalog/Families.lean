import AiStp.Corporate.Members
import AiStp.Library.Attempts
import AiStp.Library.Runs

/-!
# Setup families

A family groups setups of one owner, one for each harness, around a baseline that is one of them.
Families are created and patched by their owner, and by the publication of a setup that was recast
from another: the new setup joins the family of its source, or the two become a family. Every
change of a family leaves a row in its history, under the idempotency key of the request.

A request that an owner sends is rolled back when it fails. A recast goes on when the change of the
family is refused, and keeps whatever was written until then; so the changes are attempts, which
keep what they wrote. A failure that is not a refusal (a constraint of the tables, or a request that
does not validate) fails the recast as well.
-/

set_option autoImplicit false

namespace AiStp.Catalog

open Library
open Corporate (strip)

/-! ### Rows -/

inductive ObjectKind where
  | component
  | setup
deriving DecidableEq

inductive Visibility where
  | isPublic
  | isPrivate
deriving DecidableEq

inductive Lifecycle where
  | draft
  | active
  | deprecated
  | withdrawn
  | blocked
deriving DecidableEq

abbrev Version := Nat × Nat

/-- An exact version of a setup. -/
structure SetupRef where
  stableId : String
  version : Version
  passportDigest : String
deriving DecidableEq

structure SetupVersionPassport where
  harnessId : String
  harnessInvariantDigest : Option String := none
  portedFrom : Option SetupRef := none
deriving DecidableEq

structure CatalogMetadata where
  objectKind : ObjectKind
  stableId : String
  version : Option Version
  ownerAccountId : String
  name : Option String := none
  passportDigest : Option String := none
  /-- The passport of a setup; of a component, that there is one. -/
  passportDocument : Option SetupVersionPassport := none
  visibility : Visibility := .isPrivate
  lifecycleState : Lifecycle := .draft
  publishedAt : Option Nat := none
  trustLane : Option String := none
  /-- The columns that only the search reads: the description, checks, likes and evidence. -/
  searchColumns : List String := []
deriving DecidableEq

inductive FamilyCreatedFrom where
  | recast
  | owner
deriving DecidableEq

structure SetupFamily where
  ownerAccountId : String
  name : String
  baseline : SetupRef
  createdFrom : FamilyCreatedFrom
  revision : Nat
  createIdempotencyKey : String
deriving DecidableEq

structure FamilyMemberRow where
  familyId : String
  harnessId : String
deriving DecidableEq

structure SetupFamilyRevision where
  familyId : String
  revision : Nat
  actorAccountId : String
  reason : String
  previousBaseline : Option SetupRef
  newBaseline : SetupRef
  addedMembers : List String
  removedMembers : List String
deriving DecidableEq

structure Registry where
  catalog : List CatalogMetadata
  families : Table String SetupFamily
  /-- The families of setups. -/
  members : Table String FamilyMemberRow
  /-- The history, under idempotency keys. -/
  history : Table String SetupFamilyRevision

def Registry.empty : Registry := ⟨[], .empty, .empty, .empty⟩

/-! ### Requests -/

structure SetupFamilyCreateRequest where
  name : String
  baseline : SetupRef
  members : List String
  idempotencyKey : String
  reason : String
  baseline_is_a_member : baseline.stableId ∈ members
  unique : members.Nodup

structure SetupFamilyPatchRequest where
  expectedRevision : Nat
  idempotencyKey : String
  name : Option String := none
  baseline : Option SetupRef := none
  addMembers : List String := []
  removeMembers : List String := []
  reason : String
  has_a_mutation : name ≠ none ∨ baseline ≠ none ∨ addMembers ≠ [] ∨ removeMembers ≠ []
  added_unique : addMembers.Nodup
  removed_unique : removeMembers.Nodup
  disjoint : ∀ stableId ∈ addMembers, stableId ∉ removeMembers

/-! ### Failures -/

inductive Failure where
  /-- `FamilyError` -/
  | refused (code message : String)
  /-- A constraint of the tables. -/
  | integrity
  /-- A request that does not validate. -/
  | invalid
deriving DecidableEq

abbrev Change := Attempt Registry Failure

open Attempt

def validationError (message : String) : Failure := .refused "AI_STP_VALIDATION_ERROR" message

def notFound (message : String) : Failure := .refused "AI_STP_NOT_FOUND" message

def conflict (message : String) : Failure := .refused "AI_STP_CONFLICT" message

def catalogIntegrity (message : String) : Failure := .refused "AI_STP_CATALOG_INTEGRITY" message

/-! ### Reading -/

/-- The versions of a setup that an owner has. -/
def Registry.ownedVersions (registry : Registry) (ownerId stableId : String) :
    List CatalogMetadata :=
  registry.catalog.filter fun row ↦ row.objectKind = .setup ∧ row.stableId = stableId ∧
    row.ownerAccountId = ownerId ∧ row.version ≠ none ∧ row.passportDocument ≠ none

/-- The latest version of an owned setup. -/
def Registry.ownedSetup (registry : Registry) (ownerId stableId : String) :
    Option CatalogMetadata :=
  (registry.ownedVersions ownerId stableId).argmax fun row ↦ toLex (row.version.getD (0, 0))

/-- An exact version of an owned setup. -/
def Registry.ownedVersion (registry : Registry) (ownerId : String) (stableId : String)
    (version : Version) : Option CatalogMetadata :=
  ((registry.ownedVersions ownerId stableId).filter (·.version = some version)).head?

def harnessOf (row : CatalogMetadata) : Option String := row.passportDocument.map (·.harnessId)

/-- The setups of a family. -/
def Registry.memberSet (registry : Registry) (familyId : String) : Finset String :=
  ((registry.members.entries.filter (·.2.familyId = familyId)).map Prod.fst).toFinset

def Registry.memberOf (registry : Registry) (familyId stableId : String) : Bool :=
  (registry.members.get? stableId).any (·.familyId = familyId)

/-- A member of the family has the harness. -/
def Registry.harnessTaken (registry : Registry) (familyId harnessId : String) : Bool :=
  registry.members.entries.any fun entry ↦
    entry.2.familyId = familyId ∧ entry.2.harnessId = harnessId

/-- The history of a family, oldest row first. -/
def Registry.historyOf (registry : Registry) (familyId : String) : List SetupFamilyRevision :=
  (registry.history.entries.map Prod.snd).filter (·.familyId = familyId)

/-! ### Writing -/

/-- Adds a member; a setup has one family, and a family one member for each harness. -/
def insertMember (familyId stableId harnessId : String) : Change Unit :=
  write (fun registry ↦
    if registry.harnessTaken familyId harnessId then none
    else (registry.members.insert? stableId ⟨familyId, harnessId⟩).map fun members ↦
      { registry with members := members }) .integrity

def deleteMember (stableId : String) : Change Unit :=
  write (fun registry ↦
    some { registry with members := registry.members.filter fun other _ ↦ other ≠ stableId })
    .integrity

def insertFamily (familyId : String) (family : SetupFamily) : Change Unit :=
  write (fun registry ↦ (registry.families.insert? familyId family).map fun families ↦
    { registry with families := families }) .integrity

def updateFamily (familyId : String) (family : SetupFamily) : Change Unit :=
  write (fun registry ↦ some { registry with families := registry.families.update familyId family })
    .integrity

def insertRevision (idempotencyKey : String) (revision : SetupFamilyRevision) : Change Unit :=
  write (fun registry ↦ (registry.history.insert? idempotencyKey revision).map fun history ↦
    { registry with history := history }) .integrity

/-! ### Creating a family -/

/-- The harness of a setup that may become a member, given the harnesses of those before it. -/
def checkNewMember (ownerId : String) (harnesses : List (String × String)) (stableId : String) :
    Change String := do
  let row ← fetch (·.ownedSetup ownerId stableId) (notFound "family member is not an owned setup")
  check (fun registry ↦ (registry.members.get? stableId).isNone)
    (conflict "a setup belongs to at most one active family")
  let harness ← fetch (fun _ ↦ harnessOf row) .integrity
  check (fun _ ↦ harness ∉ harnesses.map Prod.fst)
    (conflict "a family has at most one member per harness")
  return harness

/-- The harnesses of new members, one after another. -/
def checkNewMembers (ownerId : String) (harnesses : List (String × String)) :
    List String → Change (List (String × String))
  | [] => pure harnesses
  | stableId :: rest => do
    let harness ← checkNewMember ownerId harnesses stableId
    checkNewMembers ownerId (harnesses ++ [(harness, stableId)]) rest

/-- The baseline of a new family. -/
def checkBaseline (ownerId : String) (baseline : SetupRef) : Change Unit := do
  let row ← fetch (·.ownedVersion ownerId baseline.stableId baseline.version)
    (notFound "family baseline is not an accessible owned setup")
  check (fun _ ↦ row.passportDigest = some baseline.passportDigest)
    (catalogIntegrity "family baseline digest does not match")

def newFamily (ownerId : String) (createdFrom : FamilyCreatedFrom)
    (body : SetupFamilyCreateRequest) : SetupFamily where
  ownerAccountId := ownerId
  name := body.name
  baseline := body.baseline
  createdFrom := createdFrom
  revision := 1
  createIdempotencyKey := body.idempotencyKey

def newRevision (ownerId familyId : String) (body : SetupFamilyCreateRequest) :
    SetupFamilyRevision where
  familyId := familyId
  revision := 1
  actorAccountId := ownerId
  reason := body.reason
  previousBaseline := none
  newBaseline := body.baseline
  addedMembers := body.members
  removedMembers := []

/-- Writes a family whose members and baseline were checked. -/
def insertNewFamily (ownerId familyId : String) (createdFrom : FamilyCreatedFrom)
    (body : SetupFamilyCreateRequest) (harnesses : List (String × String)) : Change Unit := do
  insertFamily familyId (newFamily ownerId createdFrom body)
  forEach (fun entry ↦ insertMember familyId entry.2 entry.1) harnesses
  insertRevision body.idempotencyKey (newRevision ownerId familyId body)

def createFresh (ownerId familyId : String) (createdFrom : FamilyCreatedFrom)
    (body : SetupFamilyCreateRequest) : Change String := do
  check (fun _ ↦ 2 ≤ body.members.length)
    (validationError "a family must have at least two members")
  let harnesses ← checkNewMembers ownerId [] body.members
  checkBaseline ownerId body.baseline
  insertNewFamily ownerId familyId createdFrom body harnesses
  return familyId

/-- A family that was created under the key is returned as it is. -/
def createFamily (ownerId familyId : String) (createdFrom : FamilyCreatedFrom)
    (body : SetupFamilyCreateRequest) : Change String := fun registry ↦
  match registry.families.find? fun _ family ↦
      family.createIdempotencyKey = body.idempotencyKey with
  | some (existingId, _) => (.ok existingId, registry)
  | none => createFresh ownerId familyId createdFrom body registry

/-! ### Patching a family -/

def removeMember (familyId stableId : String) : Change Unit := do
  check (·.memberOf familyId stableId) (validationError "removed member is not in the family")
  deleteMember stableId

def addMember (ownerId familyId stableId : String) : Change Unit := do
  check (fun registry ↦ !registry.memberOf familyId stableId)
    (conflict "member is already in the family")
  let row ← fetch (·.ownedSetup ownerId stableId) (notFound "added member is not an owned setup")
  check (fun registry ↦ (registry.members.get? stableId).isNone)
    (conflict "a setup belongs to at most one active family")
  let harness ← fetch (fun _ ↦ harnessOf row) .integrity
  check (fun registry ↦ !registry.harnessTaken familyId harness)
    (conflict "a family has at most one member per harness")
  insertMember familyId stableId harness

/-- The baseline that a patch leaves. -/
def patchedBaseline (ownerId familyId : String) (baseline : SetupRef) :
    Option SetupRef → Change SetupRef
  | some requested => do
    check (·.memberOf familyId requested.stableId)
      (validationError "family baseline must be a member")
    check (fun registry ↦
      (registry.ownedVersion ownerId requested.stableId requested.version).any
        (·.passportDigest = some requested.passportDigest))
      (catalogIntegrity "family baseline digest does not match")
    return requested
  | none => do
    check (·.memberOf familyId baseline.stableId)
      (validationError "family baseline must remain a member")
    return baseline

/-- The family after a patch. -/
def patchedFamily (family : SetupFamily) (body : SetupFamilyPatchRequest) (baseline : SetupRef) :
    SetupFamily :=
  { family with
    name := body.name.getD family.name
    baseline := baseline
    revision := family.revision + 1 }

def patchedRevision (ownerId familyId : String) (family : SetupFamily)
    (body : SetupFamilyPatchRequest) (baseline : SetupRef) : SetupFamilyRevision where
  familyId := familyId
  revision := family.revision + 1
  actorAccountId := ownerId
  reason := body.reason
  previousBaseline := some family.baseline
  newBaseline := baseline
  addedMembers := body.addMembers
  removedMembers := body.removeMembers

def patchFresh (ownerId familyId : String) (family : SetupFamily)
    (body : SetupFamilyPatchRequest) : Change String := do
  check (fun _ ↦ family.revision = body.expectedRevision)
    (conflict "family revision does not match")
  forEach (removeMember familyId) body.removeMembers
  forEach (addMember ownerId familyId) body.addMembers
  check (fun registry ↦ 2 ≤ (registry.memberSet familyId).card)
    (validationError "a family must have at least two members")
  let baseline ← patchedBaseline ownerId familyId family.baseline body.baseline
  updateFamily familyId (patchedFamily family body baseline)
  insertRevision body.idempotencyKey (patchedRevision ownerId familyId family body baseline)
  return familyId

/-- A patch under a key that was used for the family is answered with the family as it is. -/
def patchFamily (ownerId familyId : String) (body : SetupFamilyPatchRequest) : Change String :=
  fun registry ↦
    match registry.history.get? body.idempotencyKey, registry.families.get? familyId with
    | some replay, some _ =>
      if replay.familyId = familyId then (.ok familyId, registry)
      else (.error (conflict "idempotency key is bound to another family"), registry)
    | some _, none => (.error (conflict "idempotency key is bound to another family"), registry)
    | none, some family =>
      if family.ownerAccountId = ownerId then patchFresh ownerId familyId family body registry
      else (.error (notFound "family not found"), registry)
    | none, none => (.error (notFound "family not found"), registry)

/-! ### The publication of a recast setup -/

def recastIdempotencyKey (sourceStableId targetStableId : String) : String :=
  "recast." ++ sourceStableId ++ "." ++ targetStableId

/-- A refused change is skipped, with what it wrote; another failure is a failure. -/
def swallow (change : Change String) : Change (Option String) := fun registry ↦
  match change registry with
  | (.ok familyId, after) => (.ok (some familyId), after)
  | (.error (.refused _ _), after) => (.ok none, after)
  | (.error failure, after) => (.error failure, after)

/-- The request with which a recast setup joins the family of its source. -/
def joinRequest (revision : Nat) (key stableId : String) : SetupFamilyPatchRequest where
  expectedRevision := revision
  idempotencyKey := key
  addMembers := [stableId]
  reason := "recast_join"
  has_a_mutation := by simp
  added_unique := by simp
  removed_unique := by simp
  disjoint := by simp

/-- The request with which a recast setup and its source become a family. -/
def pairRequest (name key stableId : String) (source : SetupRef)
    (hdistinct : source.stableId ≠ stableId) : SetupFamilyCreateRequest where
  name := name
  baseline := source
  members := [source.stableId, stableId]
  idempotencyKey := key
  reason := "recast_create"
  baseline_is_a_member := by simp
  unique := by simp [hdistinct]

/-- The source that a published setup was recast from, if the owner has it. -/
def recastSource (registry : Registry) (published : CatalogMetadata) :
    Option (SetupRef × CatalogMetadata) := do
  guard (published.objectKind = .setup)
  let passport ← published.passportDocument
  let sourceRef ← passport.portedFrom
  let source ← registry.ownedVersion published.ownerAccountId sourceRef.stableId sourceRef.version
  guard (source.passportDigest = some sourceRef.passportDigest)
  return (sourceRef, source)

/-- The name of a family that a recast creates. -/
def recastName (source : CatalogMetadata) : String :=
  let named := match source.name with
    | some name => if name = "" then source.stableId else name
    | none => source.stableId
  let stripped := strip named
  String.ofList ((if stripped = "" then source.stableId else stripped).toList.take 200)

def Registry.familyForSetup (registry : Registry) (stableId : String) :
    Option (String × SetupFamily) :=
  (registry.members.get? stableId).bind fun member ↦
    (registry.families.get? member.familyId).map (member.familyId, ·)

/-- What a recast does that was not carried out before. -/
def recastFresh (published : CatalogMetadata) (familyId : String) (sourceRef : SetupRef)
    (source : CatalogMetadata) (key : String) : Change (Option String) := fun registry ↦
  match registry.familyForSetup sourceRef.stableId, registry.familyForSetup published.stableId with
  | some (sourceFamilyId, _), some (targetFamilyId, _) =>
    (.ok (if sourceFamilyId = targetFamilyId then some sourceFamilyId else none), registry)
  | none, some _ => (.ok none, registry)
  | some (sourceFamilyId, family), none =>
    if family.ownerAccountId = published.ownerAccountId then
      swallow (patchFamily published.ownerAccountId sourceFamilyId
        (joinRequest family.revision key published.stableId)) registry
    else (.ok none, registry)
  | none, none =>
    if hdistinct : sourceRef.stableId ≠ published.stableId then
      swallow (createFamily published.ownerAccountId familyId .recast
        (pairRequest (recastName source) key published.stableId sourceRef hdistinct)) registry
    else (.error .invalid, registry)

def applyRecastFamilyEffect (published : CatalogMetadata) (familyId : String) :
    Change (Option String) := fun registry ↦
  match recastSource registry published with
  | none => (.ok none, registry)
  | some (sourceRef, source) =>
    match registry.history.get? (recastIdempotencyKey sourceRef.stableId published.stableId) with
    | some replay =>
      (.ok ((registry.families.get? replay.familyId).map fun _ ↦ replay.familyId), registry)
    | none => recastFresh published familyId sourceRef source
        (recastIdempotencyKey sourceRef.stableId published.stableId) registry

/-! ### Runs -/

inductive Call where
  | create (ownerId familyId : String) (body : SetupFamilyCreateRequest)
  | patch (ownerId familyId : String) (body : SetupFamilyPatchRequest)
  | recast (published : CatalogMetadata) (familyId : String)

/-- The account that a call is made for. -/
def Call.callerId : Call → String
  | .create ownerId _ _ => ownerId
  | .patch ownerId _ _ => ownerId
  | .recast published _ => published.ownerAccountId

/-- The family that a call returns; a call that fails is rolled back. -/
def Call.attempt : Call → Change (Option String)
  | .create ownerId familyId body => atomically do
    let created ← createFamily ownerId familyId .owner body
    return some created
  | .patch ownerId familyId body => atomically do
    let patched ← patchFamily ownerId familyId body
    return some patched
  | .recast published familyId => atomically (applyRecastFamilyEffect published familyId)

/-- The row of a version keeps what identifies it. -/
def CatalogMetadata.sameVersion (row later : CatalogMetadata) : Bool :=
  later.objectKind = row.objectKind ∧ later.stableId = row.stableId ∧
    later.version = row.version ∧ later.ownerAccountId = row.ownerAccountId ∧
    later.passportDigest = row.passportDigest ∧ later.passportDocument = row.passportDocument

/-- The setups of a catalogue have one owner each. -/
def singleOwner (catalog : List CatalogMetadata) : Bool :=
  catalog.all fun row ↦ catalog.all fun other ↦
    row.objectKind = .setup → other.objectKind = .setup → row.stableId = other.stableId →
      row.ownerAccountId = other.ownerAccountId

/-- What other services may do to the catalogue: versions are added and change their marks. -/
def catalogGrows (catalog later : List CatalogMetadata) : Bool :=
  singleOwner later && catalog.all fun row ↦ later.any row.sameVersion

inductive Event where
  | catalog (later : List CatalogMetadata)
  | call (call : Call)

def Registry.step (registry : Registry) : Event → Registry
  | .catalog later =>
    if catalogGrows registry.catalog later then { registry with catalog := later } else registry
  | .call call => (call.attempt registry).2

end AiStp.Catalog
