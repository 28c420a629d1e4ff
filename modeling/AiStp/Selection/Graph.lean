import AiStp.Client.Passport
import AiStp.Library.Rounds

/-!
# The dependency closure

`resolve` walks breadth-first from exact references through what the objects require. The first
reference to an object pins its version and digest, and a later one must agree. Every refusal is kept,
and one refusal empties the install order. Without a refusal `ordered` sorts the objects by rounds.
-/

set_option autoImplicit false

namespace AiStp.Selection

open Library Foundation AiStp.Client

def maxDepth : Nat := 32

def maxNodes : Nat := 512

def maxEdges : Nat := 8192

/-! ### References -/

/-- An exact version of an object. -/
@[ext]
structure Target where
  stableId : String
  version : String
  passportDigest : String
deriving DecidableEq, Repr

structure Reference extends Target where
  requiredBy : String
  hasVariant : Bool
deriving DecidableEq, Repr

/-- `Reference::from_value`. -/
def fromValue (parent : String) (value : Json) : Reference where
  stableId := (value.index "stable_id").asString?.getD ""
  version := (value.index "version").asString?.getD ""
  passportDigest := (value.index "passport_digest").asString?.getD ""
  requiredBy := parent
  hasVariant := value.index "variant_id" ≠ .null

def exact (platform : Platform) (reference : Reference) : Bool :=
  (Passport.stableId platform reference.stableId "component" ||
      Passport.stableId platform reference.stableId "setup") &&
    Passport.versionNumber reference.version && Identity.isDigest reference.passportDigest

/-- The place of a reference among others. -/
def Reference.place (reference : Reference) :
    String ×ₗ String ×ₗ String ×ₗ String ×ₗ Bool :=
  toLex (reference.stableId, toLex (reference.version, toLex (reference.passportDigest,
    toLex (reference.requiredBy, reference.hasVariant))))

def sorted (references : List Reference) : List Reference :=
  references.insertionSort fun first second ↦ first.place ≤ second.place

/-! ### Objects -/

/-- The objects that a registry holds: `exact_version` of an id, a version and a digest, and the ids
with a tombstone. -/
structure Catalogue where
  exactVersion : String → String → String → Except Failure Json
  deleted : String → Bool

structure Refusal where
  code : String
  summary : String
  stableId : String
  requiredBy : String
  details : List (String × Json)
deriving DecidableEq, Repr

def Reference.refusal (reference : Reference) (code summary : String)
    (details : List (String × Json)) : Refusal where
  code := code
  summary := summary
  stableId := if reference.stableId = "" then "unnamed" else reference.stableId
  requiredBy := reference.requiredBy
  details := details

structure Node where
  reference : Reference
  revision : String
  requires : List Reference
  depth : Nat
deriving DecidableEq, Repr

/-- What the walk makes of an object. -/
inductive Verdict where
  | refused (code summary : String) (details : List (String × Json))
  | node (revision : String) (requires : List Reference)

/-- The references of an object, in their order. -/
def requirements (document : Json) (id : String) : List Reference :=
  let field :=
    if document.index "kind" = .string "setup" then "components" else "requires_components"
  sorted (((document.index field).asArray?.getD []).map (fromValue id))

def lifecycleState (document : Json) : String :=
  match document.get? "lifecycle_state" with
  | none => "complete"
  | some .null => "complete"
  | some value => value.asString?.getD "invalid"

/-- Read the object of a reference. Failures of the registry other than these end the walk. -/
def examine (catalogue : Catalogue) (target : Target) : Except Failure Verdict :=
  match catalogue.exactVersion target.stableId target.version target.passportDigest with
  | .error failure =>
    match failure.kind with
    | .notFound =>
      .ok (.refused "dependency_missing" "this machine does not hold that exact version"
        [("version", .string target.version)])
    | .conflict =>
      .ok (.refused "digest_mismatch"
        "the held version stands for different content than the reference names"
        [("expected", .string target.passportDigest)])
    | .input | .precondition =>
      .ok (.refused "dependency_unreadable" "the revision behind that version cannot be read"
        [("version", .string target.version)])
    | _ => .error failure
  | .ok document =>
    if lifecycleState document ∉ ["complete", "draft", "conflict"] then
      .ok (.refused "dependency_unreadable" "the revision declares an unknown lifecycle state" [])
    else if catalogue.deleted target.stableId || lifecycleState document == "draft" then
      .ok (.refused "dependency_not_registrable"
        "a draft or deleted object is required by this composition"
        [("version", .string target.version)])
    else
      .ok (.node ((document.index "revision_id").asString?.getD "")
        (requirements document target.stableId))

/-! ### The walk -/

/-- The queue of references with their depths, the first references of the objects, the objects and
the refusals, each newest first, and the number of edges. -/
structure Walk where
  frontier : List (Reference × Nat)
  pinned : List Reference
  found : List Node
  refusals : List Refusal
  edges : Nat
  halted : Bool

def Walk.reject (walk : Walk) (refusal : Refusal) : Walk :=
  { walk with refusals := refusal :: walk.refusals }

section Resolve

variable (platform : Platform) (catalogue : Catalogue)

/-- An object that comes up for the first time. -/
def discover (walk : Walk) (reference : Reference) (depth : Nat) : Except Failure Walk :=
  if depth > maxDepth then
    .ok (walk.reject (reference.refusal "closure_too_deep"
      "this dependency chain is longer than the declared bound"
      [("depth", .string (toString depth)), ("limit", .string (toString maxDepth))]))
  else if walk.found.length ≥ maxNodes then
    .ok (walk.reject (reference.refusal "closure_too_large"
      "this closure holds more objects than the declared bound"
      [("limit", .string (toString maxNodes))]))
  else
    match examine catalogue reference.toTarget with
    | .error failure => .error failure
    | .ok (.refused code summary details) =>
      .ok (walk.reject (reference.refusal code summary details))
    | .ok (.node revision requires) =>
      let edges := walk.edges + requires.length
      if edges > maxEdges then
        .ok { walk.reject (reference.refusal "closure_too_large"
                "this closure exceeds the dependency edge bound"
                [("limit", .string (toString maxEdges))]) with
              edges := edges, halted := true }
      else
        .ok { walk with
              frontier := walk.frontier ++ requires.map fun item ↦ (item, depth + 1)
              found := ⟨reference, revision, requires, depth⟩ :: walk.found
              edges := edges }

/-- One reference of the queue. -/
def visit (walk : Walk) (reference : Reference) (depth : Nat) : Except Failure Walk :=
  if reference.hasVariant then
    .ok (walk.reject (reference.refusal "reference_variant_unsupported"
      "native selection does not select a component variant" []))
  else if !exact platform reference then
    .ok (walk.reject (reference.refusal "reference_floating"
      "a dependency does not name an exact version and digest"
      [("version", .string (if reference.version = "" then "none" else reference.version))]))
  else
    match walk.pinned.find? (·.stableId = reference.stableId) with
    | some held =>
      if held.version ≠ reference.version ∨ held.passportDigest ≠ reference.passportDigest then
        .ok (walk.reject (reference.refusal "version_conflict"
          "two paths require different versions of one object"
          [("already", .string held.version), ("also", .string reference.version)]))
      else .ok walk
    | none => discover catalogue { walk with pinned := reference :: walk.pinned } reference depth

/-- The loop, until the queue is empty or an object has too many edges. -/
def loop : Nat → Walk → Except Failure Walk
  | 0, walk => .ok walk
  | fuel + 1, walk =>
    if walk.halted then .ok walk
    else
      match walk.frontier with
      | [] => .ok walk
      | (reference, depth) :: rest =>
        (visit platform catalogue { walk with frontier := rest } reference depth).bind (loop fuel)

def Walk.start (roots : List Reference) : Walk where
  frontier := roots.map fun root ↦ (root, 0)
  pinned := []
  found := []
  refusals := []
  edges := roots.length
  halted := false

/-- The ids that an object requires, of those that were found. -/
def entries (found : List Node) : List (String × List String) :=
  let ids := found.map fun node ↦ node.reference.stableId
  (found.map fun node ↦ (node.reference.stableId,
    ((node.requires.map fun item ↦ item.stableId).filter (· ∈ ids)).dedup)).insertionSort
      fun first second ↦ first.1 ≤ second.1

/-- `ordered`. -/
def ordered (found : List Node) : List String × List String := Rounds.ordered (entries found)

structure Resolution where
  resolved : Bool
  nodes : List Node
  order : List String
  refusals : List Refusal
deriving DecidableEq, Repr

def cycleRefusals (cycle : List String) : List Refusal :=
  if cycle = [] then []
  else
    [⟨"dependency_cycle", "these objects require each other in a cycle", "", "",
      [("members", .string (String.intercalate ", " cycle))]⟩]

def Refusal.place (refusal : Refusal) : String ×ₗ String ×ₗ String :=
  toLex (refusal.code, toLex (refusal.stableId, refusal.requiredBy))

/-- What is reported of a walk. -/
def report (walk : Walk) : Resolution :=
  let (order, cycle) := ordered walk.found
  let refusals := (walk.refusals.reverse ++ cycleRefusals cycle).insertionSort
    fun first second ↦ first.place ≤ second.place
  let nodes :=
    if refusals = [] then
      order.filterMap fun id ↦ walk.found.find? fun node ↦ node.reference.stableId = id
    else []
  { resolved := refusals.isEmpty
    nodes := nodes
    order := nodes.map fun node ↦ node.reference.stableId ++ "@" ++ node.reference.version
    refusals := refusals }

def resolve (roots : List Reference) : Except Failure Resolution :=
  (loop platform catalogue (max roots.length maxEdges) (.start (sorted roots))).map report

end Resolve

end AiStp.Selection
