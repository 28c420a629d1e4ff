import AiStp.Client.Store.Revisions
import AiStp.Library.Distances

/-!
# The merge base of two heads

`distances` walks from a head through the parents of its revisions, and `graph` takes for the base of
a merge the revision that both walks have found and that is nearest: the one with the smallest larger
distance, then the smallest sum of distances, then the least id. Distances are lengths of shortest
paths, so an earlier merge can bring a revision nearer than its own descendants.
-/

set_option autoImplicit false

namespace AiStp.Sync.Client.Merge

open Library Library.Distances Foundation AiStp.Client AiStp.Client.Store

/-- `MAX_GRAPH`. -/
def maxGraph : Nat := 16384

def invalid : Failure :=
  .input "the private revision merge plan or graph is invalid"

structure Graph where
  heads : List String
  documents : List Json
  base : Option Json
  forward : Option Nat

section Walks

variable (platform : Platform) (registry : Registry) (id : String)

/-- The parents that a revision of the object names. -/
def parentsOf (revision : String) : Except Failure (List String) := do
  let document ← registry.revision platform revision
  ensure (document.index "stable_id" == .string id) invalid
  let parents ← present (document.index "parent_revision_ids").asArray? invalid
  parents.mapM fun parent ↦ present parent.asString? invalid

def distances (start : String) : Except Failure (List (String × Nat)) :=
  walk (parentsOf platform registry id)
    (.precondition "the revision graph exceeds the bounded merge walk") maxGraph [(start, 0)] []

/-- The order of common ancestors: the larger distance, the sum of the distances, the id. -/
def rank (left right : Nat) (revision : String) : Nat ×ₗ Nat ×ₗ String :=
  toLex (max left right, toLex (left + right, revision))

/-- The revisions that both walks have found. -/
def common (left right : List (String × Nat)) : List (Nat ×ₗ Nat ×ₗ String) :=
  left.filterMap fun entry ↦
    (right.lookup entry.1).map fun distance ↦ rank entry.2 distance entry.1

/-- The first of them. -/
def nearest (left right : List (String × Nat)) : Option String :=
  (common left right).min?.map fun first ↦ (ofLex (ofLex first).2).2

/-- A private revision of the object. -/
def headDocument (revision : String) : Except Failure Json := do
  let document ← registry.revision platform revision
  ensure (document.index "stable_id" == .string id && document.index "visibility" == .string "private")
    (.precondition "private synchronization requires private revision heads")
  return document

def graph : Except Failure Graph := do
  ensure (["developer", "component", "setup"].any fun kind ↦ Passport.stableId platform id kind)
    invalid
  registry.requireActive id
  let heads := registry.heads id
  ensure (heads ≠ []) ⟨.notFound, "the object has no local revision heads", []⟩
  ensure (heads.length ≤ maxGraph) invalid
  let documents ← heads.mapM (headDocument platform registry id)
  match heads with
  | [first, second] => do
    let left ← distances platform registry id first
    let right ← distances platform registry id second
    let forward :=
      if (left.lookup second).isSome then some 0
      else if (right.lookup first).isSome then some 1
      else none
    match nearest left right with
    | none => return ⟨heads, documents, none, forward⟩
    | some base => do
      let document ← registry.revision platform base
      return ⟨heads, documents, some document, forward⟩
  | _ => return ⟨heads, if heads.length ≤ 2 then documents else [], none, none⟩

/-- A revision of the object names its parent. -/
def ParentLink : String → String → Prop :=
  Link (parentsOf platform registry id)

/-- The length of a shortest path of parents. -/
def Distance (head revision : String) (distance : Nat) : Prop :=
  IsDistance (ParentLink platform registry id) head revision distance

end Walks

section Nearest

variable {platform : Platform} {registry : Registry} {id : String}

theorem mem_distances {start : String} {found : List (String × Nat)}
    (h : distances platform registry id start = .ok found) {revision : String} {distance : Nat} :
    (revision, distance) ∈ found ↔ Distance platform registry id start revision distance :=
  mem_walk_iff h

theorem lookup_distances {start : String} {found : List (String × Nat)}
    (h : distances platform registry id start = .ok found) {revision : String} {distance : Nat} :
    found.lookup revision = some distance ↔
      Distance platform registry id start revision distance :=
  lookup_walk h

/-- The common ancestors of two heads, in the order of the choice. -/
theorem mem_common {first second : String} {left right : List (String × Nat)}
    (hleft : distances platform registry id first = .ok left)
    (hright : distances platform registry id second = .ok right)
    {place : Nat ×ₗ Nat ×ₗ String} :
    place ∈ common left right ↔ ∃ revision near far,
      Distance platform registry id first revision near ∧
        Distance platform registry id second revision far ∧ rank near far revision = place := by
  simp only [common, List.mem_filterMap, Option.map_eq_some_iff, lookup_distances hright,
    Prod.exists, mem_distances hleft]
  constructor
  · rintro ⟨revision, near, hnear, far, hfar, rfl⟩
    exact ⟨revision, near, far, hnear, hfar, rfl⟩
  · rintro ⟨revision, near, far, hnear, hfar, rfl⟩
    exact ⟨revision, near, hnear, far, hfar, rfl⟩

theorem nearest_eq_none {first second : String} {left right : List (String × Nat)}
    (hleft : distances platform registry id first = .ok left)
    (hright : distances platform registry id second = .ok right)
    (h : nearest left right = none) (revision : String) :
    ¬∃ near far, Distance platform registry id first revision near ∧
      Distance platform registry id second revision far := by
  rintro ⟨near, far, hnear, hfar⟩
  have hmem := (mem_common hleft hright).mpr ⟨revision, near, far, hnear, hfar, rfl⟩
  rw [nearest, Option.map_eq_none_iff, List.min?_eq_none_iff] at h
  rw [h] at hmem
  cases hmem

theorem nearest_eq_some {first second base : String} {left right : List (String × Nat)}
    (hleft : distances platform registry id first = .ok left)
    (hright : distances platform registry id second = .ok right)
    (h : nearest left right = some base) :
    ∃ near far, Distance platform registry id first base near ∧
      Distance platform registry id second base far ∧
      ∀ other near' far', Distance platform registry id first other near' →
        Distance platform registry id second other far' →
        rank near far base ≤ rank near' far' other := by
  obtain ⟨place, hplace, rfl⟩ := Option.map_eq_some_iff.mp h
  obtain ⟨hmem, hleast⟩ := List.min?_eq_some_iff.mp hplace
  obtain ⟨revision, near, far, hnear, hfar, rfl⟩ := (mem_common hleft hright).mp hmem
  refine ⟨near, far, hnear, hfar, fun other near' far' hnear' hfar' ↦ ?_⟩
  exact hleast _ ((mem_common hleft hright).mpr ⟨other, near', far', hnear', hfar', rfl⟩)

theorem max_le_of_rank_le {near far near' far' : Nat} {base other : String}
    (h : rank near far base ≤ rank near' far' other) : max near far ≤ max near' far' := by
  rcases Prod.Lex.le_iff.mp h with hlt | ⟨heq, -⟩
  · exact le_of_lt hlt
  · exact le_of_eq heq

/-- How the base of two heads is found. -/
theorem graph_of_two {result : Graph} (h : graph platform registry id = .ok result)
    {first second : String} (hheads : result.heads = [first, second]) :
    ∃ left right, distances platform registry id first = .ok left ∧
      distances platform registry id second = .ok right ∧
      (nearest left right = none ∧ result.base = none ∨
        ∃ base document, nearest left right = some base ∧
          registry.revision platform base = .ok document ∧ result.base = some document) := by
  simp only [graph, bind_eq_ok] at h
  obtain ⟨_, -, _, -, _, -, _, -, documents, -, h⟩ := h
  split at h
  · next head head' hpair =>
    obtain ⟨left, hleft, right, hright, h⟩ := by
      simpa only [bind_eq_ok] using h
    split at h
    · next hnone =>
      obtain rfl := Except.ok.inj h
      obtain ⟨rfl, rfl⟩ : head = first ∧ head' = second := by simpa [hpair] using hheads
      exact ⟨left, right, hleft, hright, .inl ⟨hnone, rfl⟩⟩
    · next base hbase =>
      obtain ⟨document, hdocument, h⟩ := bind_eq_ok.mp h
      obtain rfl := Except.ok.inj h
      obtain ⟨rfl, rfl⟩ : head = first ∧ head' = second := by simpa [hpair] using hheads
      exact ⟨left, right, hleft, hright, .inr ⟨base, document, hbase, hdocument, rfl⟩⟩
  · next hother =>
    obtain rfl := Except.ok.inj h
    exact absurd hheads (hother first second)

/-- An object with two heads has for its merge base the first common ancestor in the order of the
larger distance, the sum of the distances and the id, if there is a common ancestor. A common
ancestor that is a proper descendant of the base is not nearer to both heads than the base. -/
theorem base_nearest {result : Graph} (h : graph platform registry id = .ok result)
    {first second : String} (hheads : result.heads = [first, second]) :
    (result.base = none ↔ ∀ revision, ¬∃ near far,
      Distance platform registry id first revision near ∧
        Distance platform registry id second revision far) ∧
    ∀ document, result.base = some document → ∃ base near far,
      registry.revision platform base = .ok document ∧
      Distance platform registry id first base near ∧
      Distance platform registry id second base far ∧
      ∀ other near' far', Distance platform registry id first other near' →
        Distance platform registry id second other far' →
        rank near far base ≤ rank near' far' other ∧
        ((∃ count, Path (ParentLink platform registry id) other (count + 1) base) →
          near ≤ near' ∨ far ≤ far') := by
  obtain ⟨left, right, hleft, hright, hbase⟩ := graph_of_two h hheads
  rcases hbase with ⟨hnone, hresult⟩ | ⟨base, document, hsome, hdocument, hresult⟩
  · refine ⟨iff_of_true hresult fun revision ↦ nearest_eq_none hleft hright hnone revision, ?_⟩
    intro document hdocument
    rw [hresult] at hdocument
    cases hdocument
  · obtain ⟨near, far, hnear, hfar, hleast⟩ := nearest_eq_some hleft hright hsome
    refine ⟨iff_of_false (by simp [hresult]) fun hall ↦ hall base ⟨near, far, hnear, hfar⟩, ?_⟩
    intro other hother
    obtain rfl : document = other := Option.some.inj (hresult.symm.trans hother)
    refine ⟨base, near, far, hdocument, hnear, hfar, fun other near' far' hnear' hfar' ↦ ?_⟩
    have hrank := hleast other near' far' hnear' hfar'
    refine ⟨hrank, fun _ ↦ ?_⟩
    have hmax := max_le_of_rank_le hrank
    omega

end Nearest

/-! ### An earlier merge -/

namespace Merged

def stableId : String := "developer_01ARZ3NDEKTSV4RRFFQ69G5FAV"

/-- The fork and an early revision follow the root; the right head follows
the fork, and so do a late and a later revision, which the left head has merged with the early one. -/
def root : String :=
  "revision_400592a2bdccb097bdf0df3508ce9b2d440f3d0c52404234951bc6fd50930af2"

def fork : String :=
  "revision_635232a3f671d7a6e86212a3faeff9c89206255a41eff61ec5e9bae6b7810b3d"

def early : String :=
  "revision_9b50c4e95e1dc9a1751d3bb2d83d8c4a49fe0d985646680bffc8c83801b10e1b"

def late : String :=
  "revision_c9c15ffae8c1193374c6fe10f788e41f9fa273841ce02e43343a9534b1d50b96"

def later : String :=
  "revision_e42e1f8289ea122a892133a24f3ea31e89fbc1100be5e8bb6eeeee64451fe261"

def left : String :=
  "revision_c8548d7214fe2a970dfe336c52a67d24705e83785697a4a4ea528a4c42c2973d"

def right : String :=
  "revision_4572ae79b519c8ae81153cfecf2b359312db1b5131a218e4b153d902df6674bc"

/-- A sealed developer passport with a note. -/
def passport (note : String) (parents : List String) (revision : String) : Json :=
  .object
    [("created_at", .string "2026-01-01T00:00:00.000Z"), ("facts", .object []),
      ("kind", .string "developer"), ("note", .string note),
      ("owner_id", .string "account_01ARZ3NDEKTSV4RRFFQ69G5FAV"),
      ("parent_revision_ids", .array (parents.map .string)), ("revision_id", .string revision),
      ("schema_version", .number (.integer 1)), ("stable_id", .string stableId),
      ("visibility", .string "private")]

def row (note : String) (parents : List String) (revision : String) : RevisionRow where
  revisionId := revision
  stableId := stableId
  content := passport note parents revision
  deviceId := ""
  operationId := none
  createdAt := "2026-01-01T00:00:00.000Z"
  parents := parents

def registry : Registry where
  entities := [⟨stableId, "developer", "2026-01-01T00:00:00.000Z"⟩]
  revisions :=
    [row "root" [] root, row "fork" [root] fork, row "early" [root] early,
      row "late" [fork] late, row "later" [late] later, row "left" [later, early] left,
      row "right" [fork] right]
  headRows := [⟨stableId, left⟩, ⟨stableId, right⟩]
  tombstones := []

abbrev Near (head revision : String) (distance : Nat) : Prop :=
  Distance asciiPlatform registry stableId head revision distance

theorem eq_ok_of_toOption {Value : Type} {result : Except Failure Value} {value : Value}
    (h : result.toOption = some value) : result = .ok value := by
  cases result with
  | error failure => cases h
  | ok held => exact congrArg Except.ok (Option.some.inj h)

/-- What the functions of the graph read in the registry. -/
theorem read_registry :
    ((["developer", "component", "setup"].any fun kind ↦
        Passport.stableId asciiPlatform stableId kind) = true ∧
      registry.heads stableId = [right, left] ∧
      (registry.revision asciiPlatform root).toOption = some (passport "root" [] root) ∧
      (parentsOf asciiPlatform registry stableId fork).toOption = some [root]) ∧
    ([right, left].mapM (headDocument asciiPlatform registry stableId)).toOption =
      some [passport "right" [fork] right, passport "left" [later, early] left] ∧
    (distances asciiPlatform registry stableId left).toOption =
      some [(fork, 3), (root, 2), (late, 2), (early, 1), (later, 1), (left, 0)] ∧
    (distances asciiPlatform registry stableId right).toOption =
      some [(root, 2), (fork, 1), (right, 0)] ∧
    nearest [(root, 2), (fork, 1), (right, 0)]
      [(fork, 3), (root, 2), (late, 2), (early, 1), (later, 1), (left, 0)] = some root := by
  decide +kernel

theorem distances_left : distances asciiPlatform registry stableId left =
    .ok [(fork, 3), (root, 2), (late, 2), (early, 1), (later, 1), (left, 0)] :=
  eq_ok_of_toOption read_registry.2.2.1

theorem distances_right : distances asciiPlatform registry stableId right =
    .ok [(root, 2), (fork, 1), (right, 0)] :=
  eq_ok_of_toOption read_registry.2.2.2.1

theorem near_left : Near left fork 3 := (lookup_distances distances_left).mp (by decide)

theorem near_right : Near right fork 1 := (lookup_distances distances_right).mp (by decide)

/-- The graph of the two heads, with its base. -/
theorem graph_merged : ∃ result, graph asciiPlatform registry stableId = .ok result ∧
    result.heads = [right, left] ∧ result.base = some (passport "root" [] root) := by
  obtain ⟨⟨hid, hheads, hroot, -⟩, hdocuments, -, -, hnearest⟩ := read_registry
  have hactive : registry.requireActive stableId = .ok () := rfl
  refine ⟨⟨[right, left], [passport "right" [fork] right, passport "left" [later, early] left],
    some (passport "root" [] root), none⟩, ?_, rfl, rfl⟩
  simp only [graph, bind_eq_ok]
  rw [hheads]
  refine ⟨(), ensure_eq_ok.mpr hid, (), hactive, (), rfl, (), rfl, _,
    eq_ok_of_toOption hdocuments, ?_⟩
  dsimp only
  rw [distances_left, distances_right]
  simp only [bind_eq_ok]
  refine ⟨_, rfl, _, rfl, ?_⟩
  rw [hnearest]
  dsimp only
  rw [eq_ok_of_toOption hroot]
  rfl

theorem base_nearest_merged : ∃ base near far,
    registry.revision asciiPlatform base = .ok (passport "root" [] root) ∧
      Near right base near ∧ Near left base far ∧ max near far ≤ 3 := by
  obtain ⟨result, hgraph, hheads, hbase⟩ := graph_merged
  obtain ⟨base, near, far, hrevision, hnear, hfar, hleast⟩ :=
    (base_nearest hgraph hheads).2 _ hbase
  exact ⟨base, near, far, hrevision, hnear, hfar,
    max_le_of_rank_le (hleast fork 1 3 near_right near_left).1⟩

/-- The base of the two heads is the root, below which both heads have the fork in common. -/
theorem base_not_lowest : ∃ result, graph asciiPlatform registry stableId = .ok result ∧
    result.base = some (passport "root" [] root) ∧ Near left fork 3 ∧ Near right fork 1 ∧
    Path (ParentLink asciiPlatform registry stableId) fork 1 root := by
  obtain ⟨result, hgraph, -, hbase⟩ := graph_merged
  have hparents : parentsOf asciiPlatform registry stableId fork = .ok [root] :=
    eq_ok_of_toOption read_registry.1.2.2.2
  exact ⟨result, hgraph, hbase, near_left, near_right,
    .step .refl ⟨_, hparents, List.mem_singleton_self _⟩⟩

end Merged

end AiStp.Sync.Client.Merge
