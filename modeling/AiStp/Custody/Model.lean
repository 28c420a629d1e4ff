import AiStp.Client.Passport
import AiStp.Library.SortedMap

/-!
# Custody of shared files

The snapshot of the physical files, and of the keys inside configuration files, that installed
setups own together. An entry is one owned value at an address, with a reference from every subject
that relies on it; a reference carries the locator at which its subject finds the value.

`Environment` is what the coordinator asks of the machine: which roots open, what a locator shows,
which roots contain one another, and how names and digests are computed.
-/

set_option autoImplicit false

namespace AiStp.Custody

open Client Foundation Library

/-- A file or directory identity of the operating system. -/
abbrev Identity := Vector UInt8 25

inductive Scope where
  | global
  | userRoot
  | project
deriving DecidableEq

/-! ### Ownership -/

inductive Ownership where
  | whole
  | contribution (parserId key : String)
deriving DecidableEq

structure Source where
  stableId : String
  version : String
  passportDigest : String
deriving DecidableEq

def Source.validate (platform : Platform) (source : Source) : Bool :=
  Passport.stableId platform source.stableId "component" && Passport.versionNumber source.version &&
    Identity.isDigest source.passportDigest

/-! ### Places -/

structure Root where
  path : String
  identity : Identity
deriving DecidableEq

structure Subject where
  key : String
  harness : String
  scope : Scope
  root : Root
deriving DecidableEq

/-- The harnesses of the bundled catalog. -/
def harnessCatalog : List String :=
  ["antigravity", "claude-code", "codex", "cursor", "grok-build", "opencode", "pi", "undefined"]

structure OwnedValue where
  digest : String
  mode : Option Nat
deriving DecidableEq

/-- A whole file has readable permission bits and a contribution has none. -/
def OwnedValue.validate (value : OwnedValue) (ownership : Ownership) : Bool :=
  Identity.isDigest value.digest &&
    match ownership, value.mode with
    | .whole, some mode => mode ≤ 0o777 && mode &&& 0o400 ≠ 0
    | .contribution _ _, none => true
    | _, _ => false

/-- The deepest directory that exists on the way to a file, what is left of the path, and the file
if there is one. -/
structure Address where
  parent : Identity
  remaining : String
  file : Option Identity
deriving DecidableEq

structure Locator where
  root : Root
  path : String
  ownership : Ownership
deriving DecidableEq

structure Stamp where
  identity : Identity
  digest : String
  length : Nat
  mode : Nat
deriving DecidableEq

/-- One held observation: the directories that lead to a file, and the file. -/
structure Observation where
  parents : SortedMap Identity
  file : Option Stamp
deriving DecidableEq

/-- What a path says after a directory of it. -/
def pathAfter (before path : String) : String :=
  match (before.toList ++ ['/']).isPrefixOf? path.toList with
  | some tail => String.ofList tail
  | none => path

def Observation.address (observation : Observation) (root : Identity) (path : String) : Address :=
  let file := observation.file.map (·.identity)
  match observation.parents.getLast? with
  | none => { parent := root, remaining := path, file := file }
  | some (before, identity) =>
    { parent := identity, remaining := pathAfter before path, file := file }

/-- What a locator shows. -/
structure Observed where
  locator : Locator
  address : Address
  before : Observation
  value : Option OwnedValue
deriving DecidableEq

/-! ### Snapshots -/

structure Reference where
  operationId : Option String
  subject : Subject
  source : Source
  locator : Locator
deriving DecidableEq

structure Entry where
  id : String
  address : Address
  ownership : Ownership
  value : OwnedValue
  references : SortedMap Reference
deriving DecidableEq

structure Snapshot where
  metadataRoot : Identity
  revision : String
  entries : List Entry
deriving DecidableEq

structure Desired where
  observed : Observed
  value : OwnedValue
  source : Source

structure Change where
  subject : Subject
  desired : List Desired

structure Effect where
  /-- The id of the entry that the effect was planned for. -/
  entry : String
  locator : Locator
  before : Option OwnedValue
  after : Option OwnedValue
  observation : Observation
deriving DecidableEq

structure Review where
  operationId : String
  beforeDigest : String
  after : Snapshot
  effects : List Effect
deriving DecidableEq

/-- The proof that a legacy installation owned some paths of a root. -/
structure Adoption where
  root : Identity
  rights : SortedMap Ownership

def Adoption.permits (proof : Adoption) (locator : Locator) : Bool :=
  locator.root.identity = proof.root && proof.rights.get? locator.path = some locator.ownership

/-! ### The machine -/

structure Environment where
  platform : Platform
  /-- The path is absolute on this system. -/
  isAbsolute : String → Bool
  /-- The root opens, and its directory is the one that was captured. -/
  opens : Root → Bool
  observe : Locator → Option Observed
  /-- Neither root contains the other. -/
  disjoint : Root → Root → Bool
  /-- The name that stands for all names that differ in case only. -/
  foldCase : String → String
  /-- The digest of an operation, an address and an ownership, as a claim id. -/
  claimId : String → Address → Ownership → Option String
  stateDigest : Snapshot → String
  /-- The canonical encoding keeps the size limit. -/
  fitsSnapshot : Snapshot → Bool
  fitsReview : Review → Bool

/-- Two addresses that name one file. -/
def Address.sameFile (environment : Environment) (first second : Address) : Prop :=
  first.file.isSome ∧ first.file = second.file ∨
    first.parent = second.parent ∧
      environment.foldCase first.remaining = environment.foldCase second.remaining

instance (environment : Environment) (first second : Address) :
    Decidable (first.sameFile environment second) :=
  inferInstanceAs (Decidable (_ ∨ _))

def Subject.validate (environment : Environment) (subject : Subject) : Bool :=
  subject.harness ∈ harnessCatalog && Identity.isDigest subject.key &&
    subject.harness ≠ "undefined" && environment.isAbsolute subject.root.path &&
    (subject.root.identity[0] = 1 || subject.root.identity[0] = 2)

def Reference.validate (environment : Environment) (entry : Entry) (key : String)
    (reference : Reference) : Bool :=
  reference.subject.validate environment && reference.source.validate environment.platform &&
    reference.operationId.all (Passport.stableId environment.platform · "operation") &&
    key = reference.subject.key && reference.locator.root = reference.subject.root &&
    reference.locator.ownership = entry.ownership

def Entry.validate (environment : Environment) (entry : Entry) : Bool :=
  Passport.stableId environment.platform entry.id "claim" && entry.references ≠ [] &&
    entry.references.length ≤ 512 && entry.value.validate entry.ownership &&
    entry.references.all fun reference ↦ reference.2.validate environment entry reference.1

def Snapshot.validate (environment : Environment) (root : Identity) (snapshot : Snapshot) : Bool :=
  snapshot.metadataRoot = root && snapshot.entries.length ≤ 20000 &&
    (snapshot.revision = "initial" ||
      Passport.stableId environment.platform snapshot.revision "operation") &&
    decide (snapshot.entries.map (·.id)).Nodup &&
    snapshot.entries.all (·.validate environment) && environment.fitsSnapshot snapshot

/-- `Observed::unchanged`. -/
def Observed.unchanged (environment : Environment) (observed : Observed) : Bool :=
  match environment.observe observed.locator with
  | none => false
  | some current =>
    current.before = observed.before && current.address = observed.address &&
      current.value = observed.value

/-- `Review::digest`, for a review without a native plan. -/
def Review.isValid (environment : Environment) (review : Review) : Bool :=
  review.after.revision = review.operationId &&
    Passport.stableId environment.platform review.operationId "operation" &&
    Identity.isDigest review.beforeDigest && review.effects.length ≤ 2000 &&
    environment.fitsReview review

end AiStp.Custody
