import AiStp.Catalog.Search

/-!
# The projection and its rebuild

`searchRow` is the row that an object is to have. A rebuild writes it for every object, though it
reads the families of all rows at once (`rebuild_rows`); an upsert writes it for one object
(`upsert_rows`). The row of a setup hangs on its own versions and on three facts about its family:
which one it is, how many of its members are public, and the digest of its baseline (`familyView`).

An event that replaces some rows keeps the others right if these facts stay: creating a family and
joining one always do, as all members are replaced. They do not when a listed setup is removed from
its family, or when a change of one setup shows in the rows of its siblings.
-/

set_option autoImplicit false

namespace AiStp.Catalog

open Library Runs

/-! ### Rows that objects are to have -/

section Rows

variable {Shown : Type}

/-- All published versions of setups. -/
def Registry.published (registry : Registry) : List CatalogMetadata :=
  publishedSetups registry.catalog fun _ ↦ true

def Registry.accessible (registry : Registry) (stableId : String) : Bool :=
  (publicLatest registry.published stableId).isSome

def Registry.baselineDigest (registry : Registry) (family : SetupFamily) : Option String :=
  invariantOf (publicExact registry.published family.baseline.stableId family.baseline.version)

/-- What the row of a setup shows of its family. -/
def Registry.familyView (registry : Registry) (stableId : String) :
    Option (String × Nat × Option String) :=
  (registry.familyForSetup stableId).map fun found ↦
    (found.1, ((registry.memberSet found.1).filter (registry.accessible ·)).card,
      registry.baselineDigest found.2)

/-- The row of an object, with the columns of its family. -/
def filledRow (registry : Registry) (entry : ObjectKey × CatalogSearchProjection Shown) :
    CatalogSearchProjection Shown :=
  if entry.1.1 = .setup then withFamily registry registry.published entry.1.2 entry.2 else entry.2

def searchRow (read : CatalogMetadata → Option Shown) (registry : Registry) (key : ObjectKey) :
    Option (CatalogSearchProjection Shown) :=
  (readProjection read registry key).map (filledRow registry)

end Rows

/-! ### Filling in families -/

section Filling

variable {Shown : Type} {registry : Registry} {needed : String → Bool} {stableId : String}

theorem publicLatest_needed (hneeded : needed stableId = true) :
    publicLatest (publishedSetups registry.catalog needed) stableId =
      publicLatest registry.published stableId := by
  unfold publicLatest Registry.published publishedSetups
  rw [List.filter_filter, List.filter_filter]
  congr 1
  apply List.filter_congr
  intro row _
  by_cases hrow : row.stableId = stableId
  · simp [hrow, hneeded]
  · simp [hrow]

theorem publicExact_needed {version : Version} (hneeded : needed stableId = true) :
    publicExact (publishedSetups registry.catalog needed) stableId version =
      publicExact registry.published stableId version := by
  unfold publicExact Registry.published publishedSetups
  rw [List.filter_filter, List.filter_filter]
  congr 1
  apply List.filter_congr
  intro row _
  by_cases hrow : row.stableId = stableId
  · simp [hrow, hneeded]
  · simp [hrow]

theorem Registry.mem_of_familyForSetup {found : String × SetupFamily}
    (h : registry.familyForSetup stableId = some found) :
    registry.families.get? found.1 = some found.2 ∧ stableId ∈ registry.memberSet found.1 :=
  Registry.familyForSetup_eq_some h

/-- The families of many rows are filled in as if each were alone. -/
theorem withFamily_needed {ids : List String} {row : CatalogSearchProjection Shown}
    (hid : stableId ∈ ids) :
    withFamily registry (publishedSetups registry.catalog (neededFor registry ids)) stableId row =
      withFamily registry registry.published stableId row := by
  unfold withFamily
  cases hfound : registry.familyForSetup stableId with
  | none => rfl
  | some found =>
    have hneeded : ∀ other, other ∈ registry.memberSet found.1 ∨
        found.2.baseline.stableId = other → neededFor registry ids other = true := by
      intro other hother
      unfold neededFor
      rw [List.any_eq_true]
      refine ⟨stableId, hid, ?_⟩
      rw [hfound, Option.any_some, decide_eq_true_eq, Registry.memberOf_iff]
      exact hother
    have hself := (Registry.mem_of_familyForSetup hfound).2
    dsimp only
    rw [publicLatest_needed (hneeded stableId (.inl hself)),
      publicExact_needed (hneeded _ (.inr rfl))]
    congr 3
    apply Finset.filter_congr
    intro other hother
    rw [publicLatest_needed (hneeded other (.inl hother))]

theorem fillSearchProjectionFamilyFields_eq
    (rows : List (ObjectKey × CatalogSearchProjection Shown)) :
    fillSearchProjectionFamilyFields registry rows =
      rows.map fun entry ↦ (entry.1, filledRow registry entry) := by
  unfold fillSearchProjectionFamilyFields filledRow
  apply List.map_congr_left
  intro entry hentry
  by_cases hsetup : entry.1.1 = .setup
  · rw [if_pos hsetup, if_pos hsetup, withFamily_needed]
    exact List.mem_map_of_mem (List.mem_filter.mpr ⟨hentry, decide_eq_true hsetup⟩)
  · rw [if_neg hsetup, if_neg hsetup]

end Filling

/-! ### Writing rows -/

section Writing

variable {Shown : Type} {read : CatalogMetadata → Option Shown} {registry : Registry}
  {index : SearchIndex Shown}

theorem foldl_set_rows {Key Row : Type} [DecidableEq Key] (wanted : Key → Option Row)
    {entries : List (Key × Row)} (hentries : ∀ entry ∈ entries, wanted entry.1 = some entry.2)
    (table : Table Key Row) (key : Key) :
    (entries.foldl (fun rows entry ↦ rows.set entry.1 entry.2) table).get? key =
      if key ∈ entries.map Prod.fst then wanted key else table.get? key := by
  induction entries generalizing table with
  | nil => rfl
  | cons entry entries ih =>
    have hrest : ∀ later ∈ entries, wanted later.1 = some later.2 :=
      fun later hlater ↦ hentries later (List.mem_cons_of_mem _ hlater)
    rw [List.foldl_cons, ih hrest, Table.get?_set, List.map_cons]
    by_cases hlater : key ∈ entries.map Prod.fst
    · rw [if_pos hlater, if_pos (List.mem_cons_of_mem _ hlater)]
    · rw [if_neg hlater]
      by_cases hkey : key = entry.1
      · rw [if_pos hkey, if_pos (hkey ▸ List.mem_cons_self), hkey]
        exact (hentries entry List.mem_cons_self).symm
      · rw [if_neg hkey, if_neg]
        rw [List.mem_cons, not_or]
        exact ⟨hkey, hlater⟩

theorem readProjection_key {key : ObjectKey} {entry : ObjectKey × CatalogSearchProjection Shown}
    (h : readProjection read registry key = some entry) : entry.1 = key := by
  unfold readProjection at h
  simp only [Option.bind_eq_some_iff, Option.map_eq_some_iff] at h
  obtain ⟨latest, -, shown, -, rfl⟩ := h
  rfl

theorem searchRow_of_readProjection {key : ObjectKey}
    {entry : ObjectKey × CatalogSearchProjection Shown}
    (h : readProjection read registry key = some entry) :
    searchRow read registry entry.1 = some (filledRow registry entry) := by
  unfold searchRow
  rw [readProjection_key h, h]
  rfl

theorem upsert_rows (key other : ObjectKey) :
    (upsertCatalogSearchProjection read key index).rows.get? other =
      if other = key then searchRow read index.registry key else index.rows.get? other := by
  unfold upsertCatalogSearchProjection
  rw [fillSearchProjectionFamilyFields_eq]
  dsimp only
  rw [foldl_set_rows (searchRow read index.registry), Table.get?_filter]
  · by_cases hother : other = key
    · rw [if_pos hother, hother]
      cases hread : readProjection read index.registry key with
      | none =>
        have hrow : searchRow read index.registry key = none := by
          unfold searchRow
          rw [hread]
          rfl
        rw [hrow, if_neg (by simp)]
        simp
      | some entry =>
        rw [if_pos]
        simp [readProjection_key hread]
    · rw [if_neg hother, if_neg]
      · cases index.rows.get? other <;> simp [Option.filter, hother]
      · cases hread : readProjection read index.registry key with
        | none => simp
        | some entry => simpa [readProjection_key hread] using hother
  · intro entry hentry
    obtain ⟨first, hfirst, rfl⟩ := List.mem_map.mp hentry
    exact searchRow_of_readProjection (Option.mem_toList.mp hfirst)

theorem upsert_registry (key : ObjectKey) :
    (upsertCatalogSearchProjection read key index).registry = index.registry := rfl

theorem readProjection_isListed {key : ObjectKey}
    {entry : ObjectKey × CatalogSearchProjection Shown}
    (h : readProjection read registry key = some entry) :
    key ∈ ((registry.catalog.filter (·.isListed)).map (·.key)).dedup := by
  unfold readProjection at h
  obtain ⟨latest, hlatest, -⟩ := Option.bind_eq_some_iff.mp h
  have hmem := List.argmax_mem hlatest
  rw [List.mem_filter, decide_eq_true_eq] at hmem
  obtain ⟨hlatest, hkey, hlisted⟩ := hmem
  rw [List.mem_dedup, List.mem_map]
  exact ⟨latest, List.mem_filter.mpr ⟨hlatest, hlisted⟩, hkey⟩

/-- A rebuild writes the row of every object. -/
theorem rebuild_rows (key : ObjectKey) :
    (rebuildCatalogSearchProjection read index).rows.get? key =
      searchRow read index.registry key := by
  unfold rebuildCatalogSearchProjection
  dsimp only
  rw [fillSearchProjectionFamilyFields_eq]
  rw [foldl_set_rows (searchRow read index.registry)]
  · by_cases hkey : ∃ entry, readProjection read index.registry key = some entry
    · obtain ⟨entry, hentry⟩ := hkey
      rw [if_pos]
      rw [List.map_map]
      refine List.mem_map.mpr ⟨entry, ?_, ?_⟩
      · exact List.mem_filterMap.mpr ⟨key, readProjection_isListed hentry, hentry⟩
      · show entry.1 = key
        exact readProjection_key hentry
    · have hnone : readProjection read index.registry key = none :=
        Option.eq_none_iff_forall_ne_some.mpr fun entry hentry ↦ hkey ⟨entry, hentry⟩
      have hrow : searchRow read index.registry key = none := by
        unfold searchRow
        rw [hnone]
        rfl
      rw [hrow]
      split <;> rfl
  · intro entry hentry
    obtain ⟨first, hfirst, rfl⟩ := List.mem_map.mp hentry
    obtain ⟨other, -, hother⟩ := List.mem_filterMap.mp hfirst
    exact searchRow_of_readProjection hother

theorem foldl_upsert (read : CatalogMetadata → Option Shown) (ids : List String)
    (index : SearchIndex Shown) (key : ObjectKey) :
    let after := ids.foldl (fun index stableId ↦
      upsertCatalogSearchProjection read (.setup, stableId) index) index
    after.registry = index.registry ∧
      after.rows.get? key = if key ∈ ids.map (ObjectKind.setup, ·) then
        searchRow read index.registry key else index.rows.get? key := by
  induction ids generalizing index with
  | nil => exact ⟨rfl, rfl⟩
  | cons id ids ih =>
    obtain ⟨hregistry, hrows⟩ := ih (upsertCatalogSearchProjection read (.setup, id) index)
    refine ⟨hregistry, hrows.trans ?_⟩
    rw [upsert_registry, upsert_rows, List.map_cons]
    by_cases hlater : key ∈ ids.map (ObjectKind.setup, ·)
    · rw [if_pos hlater, if_pos (List.mem_cons_of_mem _ hlater)]
    · rw [if_neg hlater]
      by_cases hkey : key = (.setup, id)
      · rw [if_pos hkey, if_pos (hkey ▸ List.mem_cons_self), hkey]
      · rw [if_neg hkey, if_neg]
        rw [List.mem_cons, not_or]
        exact ⟨hkey, hlater⟩

/-- The rows of a family's members are replaced, and no others. -/
theorem upsertMembers_rows (read : CatalogMetadata → Option Shown) (index : SearchIndex Shown)
    (familyId : String) (key : ObjectKey) :
    (upsertMembers read familyId index).registry = index.registry ∧
      (upsertMembers read familyId index).rows.get? key =
        if key.1 = .setup ∧ key.2 ∈ index.registry.memberSet familyId then
          searchRow read index.registry key else index.rows.get? key := by
  obtain ⟨hregistry, hrows⟩ := foldl_upsert read
    ((index.registry.members.entries.filter (·.2.familyId = familyId)).map Prod.fst) index key
  refine ⟨hregistry, hrows.trans ?_⟩
  congr 1
  unfold Registry.memberSet
  obtain ⟨kind, stableId⟩ := key
  simp only [List.mem_map, Prod.mk.injEq, List.mem_toFinset, eq_iff_iff]
  constructor
  · rintro ⟨id, hid, hkind, rfl⟩
    exact ⟨hkind.symm, hid⟩
  · rintro ⟨rfl, hid⟩
    exact ⟨stableId, hid, rfl, rfl⟩

end Writing

/-! ### What a row hangs on -/

section Dependence

variable {Shown : Type} {read : CatalogMetadata → Option Shown} {before after : Registry}
  {familyId stableId : String} {key : ObjectKey}

/-- The columns of a family from its view. -/
def viewedRow (view : Option (String × Nat × Option String)) (current : Option CatalogMetadata)
    (row : CatalogSearchProjection Shown) : CatalogSearchProjection Shown :=
  match view with
  | none => row
  | some (familyId, count, digest) =>
    { row with
      familyId := some familyId
      familyMemberCount := some count
      familyAlignment := some (alignmentState (invariantOf current) digest current.isSome) }

theorem withFamily_eq_viewedRow (registry : Registry) (stableId : String)
    (row : CatalogSearchProjection Shown) :
    withFamily registry registry.published stableId row =
      viewedRow (registry.familyView stableId) (publicLatest registry.published stableId) row := by
  unfold withFamily Registry.familyView
  cases registry.familyForSetup stableId <;> rfl

/-- The versions of an object are the same. -/
def SameVersions (key : ObjectKey) (before after : Registry) : Prop :=
  after.catalog.filter (·.key = key) = before.catalog.filter (·.key = key)

theorem SameVersions.latest (h : SameVersions key before after) :
    latestPublicMetadata after.catalog key = latestPublicMetadata before.catalog key := by
  have hsplit : ∀ catalog : List CatalogMetadata,
      (catalog.filter fun row ↦ row.key = key ∧ row.isListed) =
        (catalog.filter (·.key = key)).filter (·.isListed) := by
    intro catalog
    rw [List.filter_filter]
    apply List.filter_congr
    intro row _
    by_cases hkey : row.key = key <;> simp [hkey]
  unfold latestPublicMetadata
  rw [hsplit, hsplit, h]

theorem SameVersions.publicLatest (h : SameVersions (.setup, stableId) before after) :
    publicLatest after.published stableId = publicLatest before.published stableId := by
  have hsplit : ∀ catalog : List CatalogMetadata,
      (publishedSetups catalog fun _ ↦ true).filter (·.stableId = stableId) =
        (catalog.filter (·.key = (.setup, stableId))).filter (·.isPublished) := by
    intro catalog
    unfold publishedSetups
    rw [List.filter_filter, List.filter_filter]
    apply List.filter_congr
    intro row _
    by_cases hkind : row.objectKind = .setup <;> by_cases hid : row.stableId = stableId <;>
      simp [CatalogMetadata.key, hkind, hid]
  unfold Catalog.publicLatest Registry.published
  rw [hsplit, hsplit, h]

theorem SameVersions.publicExact (h : SameVersions (.setup, stableId) before after)
    (version : Version) : publicExact after.published stableId version =
      publicExact before.published stableId version := by
  have hsplit : ∀ catalog : List CatalogMetadata,
      ((publishedSetups catalog fun _ ↦ true).filter fun row ↦
        row.stableId = stableId ∧ row.version = some version) =
        (catalog.filter (·.key = (.setup, stableId))).filter fun row ↦
          row.isPublished ∧ row.version = some version := by
    intro catalog
    unfold publishedSetups
    rw [List.filter_filter, List.filter_filter]
    apply List.filter_congr
    intro row _
    by_cases hkind : row.objectKind = .setup <;> by_cases hid : row.stableId = stableId <;>
      simp [CatalogMetadata.key, hkind, hid, and_comm]
  unfold Catalog.publicExact Registry.published
  rw [hsplit, hsplit, h]

/-- The row of an object follows from its versions and the view of its family. -/
theorem searchRow_congr (hsame : SameVersions key before after)
    (hview : key.1 = .setup → after.familyView key.2 = before.familyView key.2) :
    searchRow read after key = searchRow read before key := by
  have hread : readProjection read after key = readProjection read before key := by
    unfold readProjection
    rw [hsame.latest]
  unfold searchRow
  rw [hread]
  cases hentry : readProjection read before key with
  | none => rfl
  | some entry =>
    have hkey := readProjection_key hentry
    rw [Option.map_some, Option.map_some]
    congr 1
    unfold filledRow
    by_cases hsetup : entry.1.1 = .setup
    · rw [if_pos hsetup, if_pos hsetup, withFamily_eq_viewedRow, withFamily_eq_viewedRow]
      have hversions : SameVersions (.setup, entry.1.2) before after := by
        rw [← hsetup, hkey]
        exact hsame
      rw [hversions.publicLatest, hkey, hview (hkey ▸ hsetup)]
    · rw [if_neg hsetup, if_neg hsetup]

/-- A setup is not listed: no version of it is public, or the latest cannot be read. -/
def Unlisted (read : CatalogMetadata → Option Shown) (registry : Registry) (stableId : String) :
    Prop :=
  (readProjection read registry (.setup, stableId)).isNone = true

theorem Unlisted.searchRow_eq (h : Unlisted read before stableId)
    (hsame : SameVersions (.setup, stableId) before after) :
    searchRow read after (.setup, stableId) = searchRow read before (.setup, stableId) := by
  have hnone : readProjection read before (.setup, stableId) = none := Option.isNone_iff_eq_none.mp h
  have hafter : readProjection read after (.setup, stableId) = none := by
    unfold readProjection at hnone ⊢
    rw [hsame.latest]
    exact hnone
  unfold searchRow
  rw [hnone, hafter]
  rfl

end Dependence

/-! ### Changes of an object -/

section Objects

variable {Shown : Type} {read : CatalogMetadata → Option Shown} {registry : Registry}
  {later : List CatalogMetadata} {key other : ObjectKey}

theorem sameVersions_of_ne (helsewhere : sameElsewhere key registry.catalog later = true)
    (hother : other ≠ key) : SameVersions other registry { registry with catalog := later } := by
  have hsplit : ∀ catalog : List CatalogMetadata,
      catalog.filter (·.key = other) = (catalog.filter (·.key ≠ key)).filter (·.key = other) := by
    intro catalog
    rw [List.filter_filter]
    apply List.filter_congr
    intro row _
    by_cases hrow : row.key = other
    · simp [hrow, hother]
    · simp [hrow]
  unfold SameVersions
  rw [hsplit later, hsplit registry.catalog, of_decide_eq_true helsewhere]

/-- A change of a setup does not show in the row of another member of its family. -/
def Unnoticed (read : CatalogMetadata → Option Shown) (registry : Registry)
    (later : List CatalogMetadata) (stableId other : String) (family : SetupFamily) : Prop :=
  Unlisted read registry other ∨
    { registry with catalog := later }.accessible stableId = registry.accessible stableId ∧
      { registry with catalog := later }.baselineDigest family = registry.baselineDigest family

/-- The row of another object stays right, if the change of a setup is not noticed in it. -/
theorem searchRow_of_change (hsound : Sound registry)
    (helsewhere : sameElsewhere key registry.catalog later = true) (hother : other ≠ key)
    (hunnoticed : ∀ found, key.1 = .setup → other.1 = .setup →
      registry.familyForSetup key.2 = some found → other.2 ∈ registry.memberSet found.1 →
        Unnoticed read registry later key.2 other.2 found.2) :
    searchRow read { registry with catalog := later } other = searchRow read registry other := by
  have hsame := sameVersions_of_ne helsewhere hother
  obtain ⟨kind, stableId⟩ := other
  by_cases hunlisted : kind = .setup ∧ Unlisted read registry stableId
  · obtain ⟨rfl, hunlisted⟩ := hunlisted
    exact hunlisted.searchRow_eq hsame
  refine searchRow_congr hsame fun hkind ↦ ?_
  change kind = .setup at hkind
  subst hkind
  unfold Registry.familyView
  show (registry.familyForSetup stableId).map _ = _
  cases hfound : registry.familyForSetup stableId with
  | none => rfl
  | some found =>
    obtain ⟨hfamily, hmember⟩ := Registry.mem_of_familyForSetup hfound
    have hbaseline := (hsound.families found.1 found.2 hfamily).baseline
    -- Only the setup that changed could be seen differently from within the family.
    have hinside : key.1 = .setup → key.2 ∈ registry.memberSet found.1 →
        { registry with catalog := later }.accessible key.2 = registry.accessible key.2 ∧
          { registry with catalog := later }.baselineDigest found.2 =
            registry.baselineDigest found.2 := by
      intro hkeyKind hkey
      obtain ⟨row, hrow, hrowFamily⟩ := Registry.mem_memberSet.mp hkey
      have hkeyFound : registry.familyForSetup key.2 = some found := by
        unfold Registry.familyForSetup
        rw [hrow, Option.bind_some, hrowFamily, hfamily]
        rfl
      rcases hunnoticed found hkeyKind rfl hkeyFound hmember with hnone | hseen
      · exact absurd ⟨rfl, hnone⟩ hunlisted
      · exact hseen
    have hoffside : ∀ member, (ObjectKind.setup, member) ≠ key →
        SameVersions (.setup, member) registry { registry with catalog := later } :=
      fun member hne ↦ sameVersions_of_ne helsewhere hne
    have haccessible : ∀ member ∈ registry.memberSet found.1,
        { registry with catalog := later }.accessible member = registry.accessible member := by
      intro member hin
      by_cases hne : (ObjectKind.setup, member) = key
      · have hkeyMember : key.2 = member := congrArg Prod.snd hne.symm
        rw [← hkeyMember]
        exact (hinside (congrArg Prod.fst hne.symm) (hkeyMember ▸ hin)).1
      · unfold Registry.accessible
        rw [(hoffside member hne).publicLatest]
    have hdigest : { registry with catalog := later }.baselineDigest found.2 =
        registry.baselineDigest found.2 := by
      by_cases hne : (ObjectKind.setup, found.2.baseline.stableId) = key
      · have hkeyMember : key.2 = found.2.baseline.stableId := congrArg Prod.snd hne.symm
        exact (hinside (congrArg Prod.fst hne.symm) (hkeyMember ▸ hbaseline)).2
      · unfold Registry.baselineDigest
        rw [(hoffside _ hne).publicExact]
    rw [Option.map_some, Option.map_some, hdigest]
    congr 3
    show ((registry.memberSet found.1).filter _).card = _
    congr 1
    apply Finset.filter_congr
    intro member hin
    rw [haccessible member hin]

end Objects

/-! ### Changes of a family -/

section Families

variable {Shown : Type} {read : CatalogMetadata → Option Shown} {before after : Registry}
  {familyId : String} {key : ObjectKey}

section

variable (h : Elsewhere familyId before after)
include h

theorem Elsewhere.memberSet_eq {other : String} (hother : other ≠ familyId) :
    after.memberSet other = before.memberSet other := by
  ext stableId
  rw [Registry.mem_memberSet, Registry.mem_memberSet]
  constructor
  · intro ⟨member, hmember, hfamily⟩
    exact ⟨member, (h.members stableId member (hfamily ▸ hother)).mp hmember, hfamily⟩
  · intro ⟨member, hmember, hfamily⟩
    exact ⟨member, (h.members stableId member (hfamily ▸ hother)).mpr hmember, hfamily⟩

/-- A setup that is in the family neither before nor after sees what it saw. -/
theorem Elsewhere.familyView_eq {stableId : String} (hbefore : stableId ∉ before.memberSet familyId)
    (hafter : stableId ∉ after.memberSet familyId) :
    after.familyView stableId = before.familyView stableId := by
  rw [Registry.mem_memberSet] at hbefore hafter
  have hmember : after.members.get? stableId = before.members.get? stableId := by
    apply Option.ext
    intro member
    by_cases hfamily : member.familyId = familyId
    · constructor
      · exact fun hheld ↦ absurd ⟨member, hheld, hfamily⟩ hafter
      · exact fun hheld ↦ absurd ⟨member, hheld, hfamily⟩ hbefore
    · exact h.members stableId member hfamily
  have hfound : after.familyForSetup stableId = before.familyForSetup stableId := by
    unfold Registry.familyForSetup
    rw [hmember]
    cases hheld : before.members.get? stableId with
    | none => rfl
    | some member =>
      have hother : member.familyId ≠ familyId := fun hsame ↦ hbefore ⟨member, hheld, hsame⟩
      rw [Option.bind_some, Option.bind_some, h.families member.familyId hother]
  have hpublished : after.published = before.published := by
    unfold Registry.published
    rw [h.catalog]
  unfold Registry.familyView
  rw [hfound]
  cases hview : before.familyForSetup stableId with
  | none => rfl
  | some found =>
    have hin := (Registry.mem_of_familyForSetup hview).2
    have hother : found.1 ≠ familyId := by
      intro hsame
      exact hbefore (Registry.mem_memberSet.mp (hsame ▸ hin))
    rw [Option.map_some, Option.map_some, h.memberSet_eq hother]
    unfold Registry.accessible Registry.baselineDigest
    rw [hpublished]

/-- The row of a setup that is not in the family stays right, unless it is listed and has left. -/
theorem Elsewhere.searchRow_eq (houtside : key.1 = .setup → key.2 ∉ after.memberSet familyId)
    (hleft : key.1 = .setup → key.2 ∈ before.memberSet familyId → Unlisted read before key.2) :
    searchRow read after key = searchRow read before key := by
  have hsame : SameVersions key before after := by
    unfold SameVersions
    rw [h.catalog]
  obtain ⟨kind, stableId⟩ := key
  by_cases hin : kind = .setup ∧ stableId ∈ before.memberSet familyId
  · obtain ⟨rfl, hin⟩ := hin
    exact (hleft rfl hin).searchRow_eq hsame
  · refine searchRow_congr hsame fun hkind ↦ ?_
    exact h.familyView_eq (fun hmember ↦ hin ⟨hkind, hmember⟩) (houtside hkind)

end

theorem Answered.elsewhere {ownerId answeredKey : String} {removed : List String}
    (h : Answered ownerId answeredKey familyId removed before after) :
    Elsewhere familyId before after := by
  cases h with
  | replayed revision hrevision hfamily hsame => exact hsame ▸ .refl familyId before
  | served hkey hafter howner helsewhere hleft => exact helsewhere

theorem Answered.mem_or_removed {ownerId answeredKey stableId : String} {removed : List String}
    (h : Answered ownerId answeredKey familyId removed before after)
    (hmember : stableId ∈ before.memberSet familyId) :
    stableId ∈ after.memberSet familyId ∨ stableId ∈ removed := by
  cases h with
  | replayed revision hrevision hfamily hsame => exact .inl (hsame ▸ hmember)
  | served hkey hafter howner helsewhere hleft => exact hleft stableId hmember

end Families

/-! ### Runs -/

section Runs

variable {Shown : Type} {read : CatalogMetadata → Option Shown} {index after : SearchIndex Shown}

/-- The families are sound, and every row is the one that a rebuild would write. -/
structure UpToDate (read : CatalogMetadata → Option Shown) (index : SearchIndex Shown) : Prop where
  sound : Sound index.registry
  rows : ∀ key, index.rows.get? key = searchRow read index.registry key

/-- What the events of a run have to leave as it was. A change of a setup is not noticed by the
other members of its family, unless the recast of the setup replaces their rows; and no listed setup
leaves a family. -/
def Bounded (read : CatalogMetadata → Option Shown) (index : SearchIndex Shown) :
    SearchEvent → Prop
  | .change key later => key.1 = .setup → ∀ found ∈ index.registry.familyForSetup key.2,
    ∀ other ∈ index.registry.memberSet found.1, other ≠ key.2 →
      Unnoticed read index.registry later key.2 other found.2
  | .publish published familyId later =>
    ∀ found ∈ index.registry.familyForSetup published.stableId,
      ((Call.recast published familyId).attempt { index.registry with catalog := later }).1 ≠
        .ok (some found.1) →
      ∀ other ∈ index.registry.memberSet found.1, other ≠ published.stableId →
        Unnoticed read index.registry later published.stableId other found.2
  | .create _ _ _ => True
  | .patch ownerId familyId body => ∀ stableId ∈ index.registry.memberSet familyId,
    stableId ∉ ((Call.patch ownerId familyId body).attempt index.registry).2.memberSet familyId →
      Unlisted read index.registry stableId
  | .rebuild => True

instance (index : SearchIndex Shown) (event : SearchEvent) : Decidable (Bounded read index event) := by
  unfold Bounded Unnoticed Unlisted
  cases event <;> infer_instance

/-- After a call on families, the rows of the family that it answers with are right, and the others
are as they were. -/
theorem callFamilies_rows {call : Call}
    (h : callFamilies read call index = some after) :
    after.registry = (call.attempt index.registry).2 ∧
      ∀ key, after.rows.get? key = searchRow read after.registry key ∨
        after.rows.get? key = index.rows.get? key ∧
          ∀ familyId, (call.attempt index.registry).1 = .ok (some familyId) → key.1 = .setup →
            key.2 ∉ after.registry.memberSet familyId := by
  unfold callFamilies at h
  cases hattempt : call.attempt index.registry with
  | mk outcome registry =>
    rw [hattempt] at h
    cases outcome with
    | error failure => cases h
    | ok answered =>
      cases answered with
      | none =>
        obtain rfl := Option.some.inj h
        exact ⟨rfl, fun key ↦ .inr ⟨rfl, fun _ hanswer ↦ by cases hanswer⟩⟩
      | some familyId =>
        obtain rfl := Option.some.inj h
        have hrows := upsertMembers_rows read { index with registry := registry } familyId
        refine ⟨(hrows (.setup, "")).1, fun key ↦ ?_⟩
        obtain ⟨hregistry, hrow⟩ := hrows key
        rw [hregistry]
        by_cases hin : key.1 = .setup ∧ key.2 ∈ registry.memberSet familyId
        · rw [if_pos hin] at hrow
          exact .inl hrow
        · rw [if_neg hin] at hrow
          refine .inr ⟨hrow, fun other hanswer hkind hmember ↦ hin ⟨hkind, ?_⟩⟩
          rw [Option.some.inj (Except.ok.inj hanswer)]
          exact hmember

/-- A call that answers with a family leaves the rows of setups outside it right, if those that it
removes are not listed. -/
theorem searchRow_of_call {call : Call} {registry : Registry} {key : ObjectKey}
    (hsound : Sound registry)
    (houtside : ∀ familyId, (call.attempt registry).1 = .ok (some familyId) → key.1 = .setup →
      key.2 ∉ (call.attempt registry).2.memberSet familyId)
    (hleft : ∀ familyId, (call.attempt registry).1 = .ok (some familyId) → key.1 = .setup →
      key.2 ∈ registry.memberSet familyId → Unlisted read registry key.2) :
    searchRow read (call.attempt registry).2 key = searchRow read registry key := by
  cases hattempt : call.attempt registry with
  | mk outcome later =>
    rw [hattempt] at houtside hleft
    cases outcome with
    | error failure =>
      show searchRow read later key = _
      rw [attempt_eq_error hattempt]
    | ok answered =>
      cases answered with
      | none =>
        show searchRow read later key = _
        rw [attempt_eq_none hsound hattempt]
      | some familyId =>
        obtain ⟨answeredKey, -, hanswered⟩ := attempt_eq_some hsound hattempt
        exact hanswered.elsewhere.searchRow_eq (houtside familyId rfl) (hleft familyId rfl)

theorem callFamilies_upToDate {call : Call} (hindex : UpToDate read index)
    (hleft : ∀ familyId, (call.attempt index.registry).1 = .ok (some familyId) →
      ∀ stableId ∈ index.registry.memberSet familyId,
        stableId ∉ (call.attempt index.registry).2.memberSet familyId →
          Unlisted read index.registry stableId) :
    UpToDate read ((callFamilies read call index).getD index) := by
  cases hcall : callFamilies read call index with
  | none => exact hindex
  | some after =>
    obtain ⟨hregistry, hrows⟩ := callFamilies_rows hcall
    refine ⟨hregistry ▸ attempt_sound hindex.sound call, fun key ↦ ?_⟩
    rcases hrows key with hrow | ⟨hrow, houtside⟩
    · exact hrow
    · show after.rows.get? key = searchRow read after.registry key
      rw [hregistry] at houtside ⊢
      rw [hrow, hindex.rows key]
      refine (searchRow_of_call hindex.sound houtside ?_).symm
      intro familyId hanswer hkind hmember
      exact hleft familyId hanswer key.2 hmember (houtside familyId hanswer hkind)

theorem patch_answer {ownerId familyId answered : String} {body : SetupFamilyPatchRequest}
    {before after : Registry}
    (h : (Call.patch ownerId familyId body).attempt before = (.ok (some answered), after)) :
    answered = familyId := by
  obtain ⟨_, _, hpatched, hreturn⟩ := Attempt.bind_eq_ok.mp (Attempt.atomically_eq_ok.mp h)
  rw [← Option.some.inj (Attempt.pure_eq_ok.mp hreturn).1]
  unfold patchFamily at hpatched
  split at hpatched
  · split_ifs at hpatched
    · exact (Except.ok.inj (Prod.mk.inj hpatched).1).symm
    · cases (Prod.mk.inj hpatched).1
  · cases (Prod.mk.inj hpatched).1
  · next family hreplay hfamily =>
    by_cases howner : family.ownerAccountId = ownerId
    · rw [if_pos howner] at hpatched
      exact (patchFresh_eq_ok hfamily howner hpatched).1
    · rw [if_neg howner] at hpatched
      cases (Prod.mk.inj hpatched).1
  · cases (Prod.mk.inj hpatched).1

/-- A call that removes nobody keeps the rows right. -/
theorem mem_of_removed_nil {call : Call} {registry : Registry} (hsound : Sound registry)
    (hremoved : call.removed = []) {familyId stableId : String}
    (hanswer : (call.attempt registry).1 = .ok (some familyId))
    (hmember : stableId ∈ registry.memberSet familyId) :
    stableId ∈ (call.attempt registry).2.memberSet familyId := by
  have hattempt : call.attempt registry = (.ok (some familyId), (call.attempt registry).2) :=
    Prod.ext hanswer rfl
  obtain ⟨answeredKey, -, hanswered⟩ := attempt_eq_some hsound hattempt
  rcases hanswered.mem_or_removed hmember with hstays | hgone
  · exact hstays
  · rw [hremoved] at hgone
    cases hgone

theorem change_upToDate {key : ObjectKey} {later : List CatalogMetadata}
    (hindex : UpToDate read index)
    (hgrows : catalogGrows index.registry.catalog later = true)
    (helsewhere : sameElsewhere key index.registry.catalog later = true)
    (hbounded : Bounded read index (.change key later)) :
    UpToDate read (changeObject read key later index) := by
  refine ⟨hindex.sound.grow hgrows, fun other ↦ ?_⟩
  unfold changeObject
  rw [upsert_rows, upsert_registry]
  by_cases hother : other = key
  · rw [if_pos hother, hother]
  · rw [if_neg hother]
    refine (hindex.rows other).trans
      (searchRow_of_change hindex.sound helsewhere hother ?_).symm
    intro found hkind hotherKind hfound hmember
    refine hbounded hkind found hfound other.2 hmember fun hsame ↦ hother ?_
    exact Prod.ext (hotherKind.trans hkind.symm) hsame

theorem publish_upToDate {published : CatalogMetadata} {familyId : String}
    {later : List CatalogMetadata} (hindex : UpToDate read index)
    (hgrows : catalogGrows index.registry.catalog later = true)
    (helsewhere : sameElsewhere published.key index.registry.catalog later = true)
    (hbounded : Bounded read index (.publish published familyId later)) :
    UpToDate read ((callFamilies read (.recast published familyId)
      (changeObject read published.key later index)).getD index) := by
  have hsound := hindex.sound.grow hgrows
  cases hcall : callFamilies read (.recast published familyId)
      (changeObject read published.key later index) with
  | none => exact hindex
  | some after =>
    obtain ⟨hregistry, hrows⟩ := callFamilies_rows hcall
    change after.registry = ((Call.recast published familyId).attempt
      { index.registry with catalog := later }).2 at hregistry
    refine ⟨hregistry ▸ attempt_sound hsound _, fun key ↦ ?_⟩
    show after.rows.get? key = searchRow read after.registry key
    rcases hrows key with hrow | ⟨hrow, houtside⟩
    · exact hrow
    -- The row of an object that the recast does not replace is the one from before it.
    rw [hregistry] at houtside ⊢
    have hstays := fun answered hanswer hkind hmember ↦ houtside answered hanswer hkind
      (mem_of_removed_nil hsound rfl hanswer hmember)
    rw [searchRow_of_call hsound houtside
      fun answered hanswer hkind hmember ↦ absurd hmember (hstays answered hanswer hkind), hrow]
    unfold changeObject
    rw [upsert_rows]
    by_cases hkey : key = published.key
    · rw [if_pos hkey, hkey]
    · rw [if_neg hkey]
      refine (hindex.rows key).trans (searchRow_of_change hindex.sound helsewhere hkey ?_).symm
      intro found hpublished hkind hfound hmember
      refine hbounded found hfound ?_ key.2 hmember fun hsame ↦ hkey ?_
      · exact fun hanswer ↦ hstays found.1 hanswer hkind hmember
      · exact Prod.ext (hkind.trans hpublished.symm) hsame

theorem step_upToDate (index : SearchIndex Shown) (event : SearchEvent)
    (hindex : UpToDate read index) (hbounded : Bounded read index event) :
    UpToDate read (index.step read event) := by
  cases event with
  | change key later =>
    simp only [SearchIndex.step]
    split
    · next hguard => exact change_upToDate hindex hguard.1 hguard.2 hbounded
    · exact hindex
  | publish published familyId later =>
    simp only [SearchIndex.step]
    split
    · next hguard => exact publish_upToDate hindex hguard.1 hguard.2.1 hbounded
    · exact hindex
  | create ownerId familyId body =>
    refine callFamilies_upToDate hindex fun answered hanswer stableId hmember hgone ↦ ?_
    exact absurd (mem_of_removed_nil hindex.sound rfl hanswer hmember) hgone
  | patch ownerId familyId body =>
    refine callFamilies_upToDate hindex fun answered hanswer stableId hmember hgone ↦ ?_
    have hnamed : answered = familyId := patch_answer (Prod.ext hanswer rfl)
    subst hnamed
    exact hbounded stableId hmember hgone
  | rebuild => exact ⟨hindex.sound, rebuild_rows⟩

theorem upToDate_empty : UpToDate read ⟨.empty, .empty⟩ := ⟨sound_empty, fun _ ↦ rfl⟩

end Runs

def exampleListed (stableId harnessId : String) (visibility : Visibility) : CatalogMetadata :=
  { exampleSetup "anna" stableId harnessId with
    visibility := visibility
    lifecycleState := .active
    publishedAt := some 1
    trustLane := some "experimental" }

def exampleCatalog (visibility : Visibility) : List CatalogMetadata :=
  [exampleListed "setup-a" "codex" .isPublic, exampleListed "setup-b" "cursor" visibility]

/-- Two setups are published, and their owner makes a family of them. -/
def exampleFamily : List SearchEvent :=
  [.change (.setup, "setup-a") [exampleListed "setup-a" "codex" .isPublic],
    .change (.setup, "setup-b") (exampleCatalog .isPublic),
    .create "anna" "family-1" (exampleRequest "Anna" "setup-a" "setup-b" (by decide))]

end AiStp.Catalog
