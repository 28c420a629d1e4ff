import AiStp.Setups.Definition

/-!
# Resolution of the members of a setup

Before a setup is published the server resolves every component that its definition names: to a row
of the catalog, or to an embedded record, which is checked for redistribution and scanned. A pin is
what is known of one member; a binding is the verdict of one check. The graph of the members is
checked last. The definition has been validated, so what the source reads from its raw document is
what the model of it holds.
-/

set_option autoImplicit false

namespace AiStp.Setups

open Library
open Corporate (strip)

/-! ### Bindings, pins and scans -/

structure Binding where
  checkId : String
  result : String
  reason : Option String := none
deriving DecidableEq

def Binding.failed (binding : Binding) : Bool := binding.result = "failed"

structure SafetyBinding where
  mandatory : Bool
  result : String
deriving DecidableEq

structure SafetyScanResult where
  bindings : List SafetyBinding
  checksSummary : Json
deriving DecidableEq

/-- What was handed to the safety suite, and what it found. -/
structure Scan where
  passport : ComponentVersionPassport
  contentDigest : String
  artifact : Bytes
  result : SafetyScanResult
deriving DecidableEq

structure Pin where
  stableId : String
  version : String
  name : Option String := none
  embedded : Bool := false
  sourceCoordinate : Option String := none
  digest : String
  digestMatches : Bool
  checksSummary : Option Json := none
  failedMandatory : Bool
deriving DecidableEq

structure EmbeddedSetupResolution where
  pins : List Pin
  bindings : List Binding
  scans : List Scan := []
  hasEmbedded : Bool := false

/-- No binding failed and no pin has a failed mandatory check. -/
def EmbeddedSetupResolution.passes (resolution : EmbeddedSetupResolution) : Bool :=
  !resolution.bindings.any Binding.failed && !resolution.pins.any Pin.failedMandatory

structure CatalogRow where
  stableId : String
  name : String
  version : String
  passportDigest : Option String
  checksSummary : Json
  passportDocument : Json
deriving DecidableEq

def CatalogRow.key (row : CatalogRow) : RefKey := (row.stableId, row.version)

/-! ### One member -/

def blockingResults : List String := ["failed", "degraded", "not_run"]

/-- A value as a condition takes it. -/
def truthy : Json → Bool
  | .null => false
  | .bool value => value
  | .number (.integer value) => value ≠ 0
  | .number _ => true
  | .string text => text ≠ ""
  | .array items => items ≠ []
  | .object fields => fields ≠ []

def isBlocking (check : Json) : Bool :=
  check.asObject?.isSome && truthy (check.index "mandatory") &&
    (text? check "result").any fun result ↦ result ∈ blockingResults

/-- `_pin_from_catalog` -/
def pinFromCatalog (row : CatalogRow) (expectedDigest : String) : Pin :=
  let digestMatches := row.passportDigest = some expectedDigest
  let checks := ((row.checksSummary.get? "checks").bind Json.asArray?).getD []
  { stableId := row.stableId
    name := row.name
    version := row.version
    digest := expectedDigest
    digestMatches := digestMatches
    checksSummary := if digestMatches ∧ row.checksSummary.asObject?.isSome then
      some row.checksSummary else none
    failedMandatory := !digestMatches || checks.any isBlocking }

/-- `_pin_from_scan` -/
def pinFromScan (record : EmbeddedRecord) (safety : SafetyScanResult) (name : String)
    (sourceCoordinate : String) : Pin where
  stableId := record.ref.stableId
  version := record.ref.version
  name := name
  embedded := true
  sourceCoordinate := sourceCoordinate
  digest := record.passportDigest
  digestMatches := true
  checksSummary := some safety.checksSummary
  failedMandatory := safety.bindings.any fun binding ↦
    binding.mandatory ∧ binding.result ∈ blockingResults

def unknownSpdx : List String :=
  ["", "NOASSERTION", "NONE", "UNKNOWN", "UNLICENSED", "PROPRIETARY", "ALL-RIGHTS-RESERVED",
    "NO-LICENSE"]

/-- `_redistribution_allowed` -/
def redistributionAllowed (toolkit : Toolkit) (license : Json) : Bool :=
  let spdx := strip ((text? license "spdx_id").getD "")
  spdx ≠ "" ∧ toolkit.upper spdx ∉ unknownSpdx ∧
    license.get? "redistribution_allowed" = some (.bool true)

/-- `_snapshot_publisher` -/
def snapshotPublisher (passport : Json) : String :=
  (text? ((passport.index "facts").index "snapshot_publisher") "value").getD ""

/-- `_foreign_local` -/
def foreignLocal (snapshot : SourceSnapshot) (passport : Json) (publisherId : String) : Bool :=
  snapshot.kind = .path ∧ ((text? passport "owner_id").getD "" ≠ publisherId ∨
    (snapshotPublisher passport ≠ "" ∧ snapshotPublisher passport ≠ publisherId))

/-- What stands after the first occurrence. -/
def after? (part : List Char) : List Char → Option (List Char)
  | [] => if part = [] then some [] else none
  | character :: rest =>
    if part.isPrefixOf (character :: rest) then some ((character :: rest).drop part.length)
    else after? part rest

/-- `_reject_secret_coordinate` -/
def rejectSecretCoordinate (snapshot : SourceSnapshot) : Except SourceErrorCode Unit := do
  let coordinate := snapshot.canonicalCoordinate.toList
  require (((after? "://".toList coordinate).map (List.takeWhile (· ≠ '/'))).all ('@' ∉ ·))
    .invalidSource
  let path := "path:".toList
  let relative := if path.isPrefixOf coordinate then coordinate.drop path.length else coordinate
  require (snapshot.kind ≠ .path ∨ (relative.head? ≠ some '/' ∧ relative.head? ≠ some '\\' ∧
    relative[1]? ≠ some ':')) .invalidSource

/-- `validate_frozen_snapshot` -/
def validateFrozenSnapshot (toolkit : Toolkit) (snapshot : SourceSnapshot) :
    Except SourceErrorCode Unit :=
  match snapshot.kind with
  | .git => require (toolkit.isFullCommit snapshot.exactIdentity) .floatingFrozenSource
  | .package => require snapshot.hasPackageEvidence .floatingFrozenSource
  | .catalog | .path => .ok ()

/-- Who publishes, and how. -/
structure Request where
  publisherId : String
  isPublic : Bool
  skipSafety : Bool := false

abbrev SafetySuite : Type := ComponentVersionPassport → String → Bytes → SafetyScanResult

variable (toolkit : Toolkit) (suite : SafetySuite) (request : Request)

structure Scanned where
  pin : Pin
  extra : List Binding := []
  scan : Option Scan := none
  document : Option Json := none

/-- The artifact, the snapshot and the passport of a record. -/
def openRecord (record : EmbeddedRecord) :
    Except SourceErrorCode (Bytes × SourceSnapshot × ComponentVersionPassport) := do
  let artifact ← found (toolkit.unb64url record.artifactB64) .integrityMismatch
  let snapshot ← found (toolkit.validateSnapshot (record.snapshot.erase "file_paths"))
    .invalidSource
  validateFrozenSnapshot toolkit snapshot
  rejectSecretCoordinate snapshot
  let passport ← found (toolkit.validatePassport record.passport) .invalidSource
  return (artifact, snapshot, passport)

/-- A public setup carries only what its publisher may pass on. -/
def mayRedistribute (snapshot : SourceSnapshot) (passport : ComponentVersionPassport) : Bool :=
  redistributionAllowed toolkit (passport.document.index "license") &&
    !foreignLocal snapshot passport.document request.publisherId

def failedPin (record : EmbeddedRecord) : Pin where
  stableId := record.ref.stableId
  version := record.ref.version
  digest := record.passportDigest
  digestMatches := false
  failedMandatory := true

def skippedSummary : Json :=
  .object [("checks", .array [.object [("check_id", .string "embedded_skip"),
    ("mandatory", .bool true), ("result", .string "passed")]]), ("status", .string "available")]

/-- `_scan_embedded` -/
def scanEmbedded (record : EmbeddedRecord) : Scanned :=
  match openRecord toolkit record with
  | .error code =>
    { pin := failedPin record, extra := [⟨"embedded_integrity", "failed", some code.text⟩] }
  | .ok (artifact, snapshot, passport) =>
    if request.isPublic && !mayRedistribute toolkit request snapshot passport then
      { pin := failedPin record
        extra := [⟨"embedded_redistribution", "failed",
          some SourceErrorCode.prohibitedRedistribution.text⟩]
        document := some passport.document }
    else if request.skipSafety then
      { pin :=
          { failedPin record with
            digestMatches := true, checksSummary := some skippedSummary, failedMandatory := false }
        document := some passport.document }
    else
      let safety := suite passport record.artifactDigest artifact
      { pin := pinFromScan record safety passport.name snapshot.canonicalCoordinate
        scan := some ⟨passport, record.artifactDigest, artifact, safety⟩
        document := some passport.document }

/-! ### The graph -/

structure Dependency where
  stableId : String
  version : String
  digest : Json
deriving DecidableEq

def Dependency.key (dependency : Dependency) : RefKey := (dependency.stableId, dependency.version)

def readDependency (item : Json) : Option Dependency := do
  let stableId ← text? item "stable_id"
  let version ← text? item "version"
  return ⟨stableId, version, item.index "passport_digest"⟩

/-- The components that a passport requires. -/
def requiredComponents (document : Json) : List Dependency :=
  (((document.get? "requires_components").bind Json.asArray?).getD []).filterMap readDependency

def paths (document : Json) (name : String) : List String :=
  (((document.get? name).bind Json.asArray?).getD []).filterMap Json.asString?

/-- A path belongs to one member. -/
def claimPath (owner : RefKey) (managed : List (String × RefKey)) (path : String) :
    Option (List (String × RefKey)) :=
  match managed.lookup path with
  | none => some (managed ++ [(path, owner)])
  | some held => if held = owner then some managed else none

def graphMember (known : List RefKey) (managed : List (String × RefKey)) (member : RefKey × Json) :
    Except String (List (String × RefKey)) :=
  if (requiredComponents member.2).any (·.key ∉ known) then
    .error SourceErrorCode.missingEmbeddedRef.text
  else
    match ((paths member.2 "managed_paths").filter (· ≠ "")).foldlM (claimPath member.1) managed with
    | none => .error "conflict"
    | some managed => .ok managed

def excludes (managed : List (String × RefKey)) (member : RefKey × Json) : Bool :=
  (paths (member.2.index "conflicts") "paths").any fun path ↦
    (managed.lookup path).any (· ≠ member.1)

/-- `_graph_bindings`: an exclusion may name a later member, so all paths are collected first. -/
def graphBindings (members : List (RefKey × Json)) : List Binding :=
  match members.foldlM (graphMember (members.map Prod.fst)) [] with
  | .error reason => [⟨"embedded_graph", "failed", some reason⟩]
  | .ok managed =>
    if members.any (excludes managed) then [⟨"embedded_graph", "failed", some "conflict"⟩]
    else [⟨"embedded_graph", "passed", none⟩]

/-! ### Resolution -/

/-- The members that a definition names, and those that it carries. -/
structure Members where
  rows : List CatalogRow
  embedded : List EmbeddedRecord

/-- The rows of the ids that the definition knows; of two rows of one version the last is taken. -/
def catalogRows (catalog : List CatalogRow) (document : DefinitionDocument) : List CatalogRow :=
  catalog.filter fun row ↦ row.stableId ∈ document.components.map ComponentRef.stableId ∨
    row.stableId ∈ document.embedded.map fun record ↦ record.ref.stableId

def Members.row? (members : Members) (key : RefKey) : Option CatalogRow :=
  (members.rows.filter fun row ↦ row.key = key).getLast?

def Members.record? (members : Members) (key : RefKey) : Option EmbeddedRecord :=
  members.embedded.find? fun record ↦ record.ref.key = key

def Members.catalogIdentities (members : Members) : List String :=
  members.rows.map CatalogRow.stableId

structure Progress where
  pins : List Pin := []
  bindings : List Binding := []
  scans : List Scan := []
  documents : List (RefKey × Json) := []

/-- A later document of one key takes the place of the earlier one. -/
def place (key : RefKey) (document : Json) (documents : List (RefKey × Json)) :
    List (RefKey × Json) :=
  if key ∈ documents.map Prod.fst then
    documents.map fun entry ↦ if entry.1 = key then (key, document) else entry
  else documents ++ [(key, document)]

def Progress.add (progress : Progress) (key : RefKey) (scanned : Scanned) : Progress where
  pins := progress.pins ++ [scanned.pin]
  bindings := progress.bindings ++ scanned.extra
  scans := progress.scans ++ scanned.scan.toList
  documents :=
    match scanned.document with
    | none => progress.documents
    | some document => place key document progress.documents

def lookupFailed (code : SourceErrorCode) : Binding := ⟨"embedded_lookup", "failed", some code.text⟩

def missingMember (ref : ComponentRef) : Scanned where
  pin :=
    { stableId := ref.stableId, version := ref.version, digest := ref.passportDigest,
      digestMatches := false, failedMandatory := true }
  extra := [lookupFailed .missingEmbeddedRef]

def catalogMember (row : CatalogRow) (ref : ComponentRef) : Scanned :=
  let pin := pinFromCatalog row ref.passportDigest
  { pin := pin
    extra := if pin.digestMatches then []
      else [⟨"embedded_integrity", "failed", some SourceErrorCode.integrityMismatch.text⟩]
    document := if row.passportDocument.asObject?.isSome then some row.passportDocument else none }

/-- One round of the loop over the components; an error ends the resolution. -/
def resolveMember (members : Members) (progress : Progress) (ref : ComponentRef) :
    Except Progress Progress :=
  match members.row? ref.key, members.record? ref.key with
  | row, some record =>
    if ref.stableId ∈ members.catalogIdentities then
      .error { progress with bindings := progress.bindings ++ [lookupFailed .catalogCollision] }
    else
      match row with
      | some row => .ok (progress.add ref.key (catalogMember row ref))
      | none => .ok (progress.add ref.key (scanEmbedded toolkit suite request record))
  | some row, none => .ok (progress.add ref.key (catalogMember row ref))
  | none, none => .ok (progress.add ref.key (missingMember ref))

/-- The checks that passed, and the graph, once no binding has failed. -/
def completed (progress : Progress) (hasEmbedded : Bool) : List Binding :=
  progress.bindings ++ [⟨"embedded_lookup", "passed", none⟩] ++
    (if hasEmbedded then [⟨"embedded_integrity", "passed", none⟩] else []) ++
    (if request.isPublic && hasEmbedded then [⟨"embedded_redistribution", "passed", none⟩]
      else []) ++ graphBindings progress.documents

def resolution (hasEmbedded : Bool) : Except Progress Progress → EmbeddedSetupResolution
  | .error progress => ⟨progress.pins, progress.bindings, progress.scans, true⟩
  | .ok progress =>
    if progress.bindings.any Binding.failed then
      ⟨progress.pins, progress.bindings, progress.scans, hasEmbedded⟩
    else ⟨progress.pins, completed request progress hasEmbedded, progress.scans, hasEmbedded⟩

/-- A source error of the second validation, which knows the catalog. -/
def refused (code : SourceErrorCode) (hasEmbedded : Bool) : EmbeddedSetupResolution where
  pins := []
  bindings := [⟨if code = .integrityMismatch then "embedded_integrity" else "embedded_lookup",
    "failed", some code.text⟩]
  hasEmbedded := hasEmbedded

/-- The ids of the components that no embedded record is for. -/
def catalogMemberIds (document : DefinitionDocument) : List String :=
  (document.components.filter fun ref ↦
    ref.key ∉ document.embedded.map fun record ↦ record.ref.key).map ComponentRef.stableId

def resolveDocument (catalog : List CatalogRow) (definitionBytes : Bytes)
    (document : DefinitionDocument) : EmbeddedSetupResolution :=
  if ¬ (document.embedded.map fun record ↦ record.ref.key).Nodup then
    { pins := [], bindings := [lookupFailed .integrityMismatch], hasEmbedded := true }
  else
    match validateSetupDefinition toolkit definitionBytes (catalogMemberIds document) with
    | .error code => refused code (document.embedded ≠ [])
    | .ok _ =>
      let members : Members := ⟨catalogRows catalog document, document.embedded⟩
      resolution request (document.embedded ≠ [])
        (document.components.foldlM (resolveMember toolkit suite request members) {})

/-- Nothing is resolved where the bytes are no setup definition. -/
def resolveEmbeddedSetup (catalog : List CatalogRow) (definitionBytes : Bytes) :
    Option EmbeddedSetupResolution :=
  (tryParseSetupDefinition toolkit definitionBytes).map
    (resolveDocument toolkit suite request catalog definitionBytes)

end AiStp.Setups
