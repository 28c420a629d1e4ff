import AiStp.Catalog.Families

/-!
# The members of families

Every change of a family reshapes its members (`Reshaped`), moves its revision by one and leaves one
row of history that says how (`Changed`). A change of one family leaves the others as they were, so
the invariants of every family are kept by it (`Changed.sound`).
-/

set_option autoImplicit false

namespace AiStp.Catalog

open Library Attempt

/-! ### Invariants -/

/-- The members that a history adds up to. -/
def foldHistory (history : List SetupFamilyRevision) : Finset String :=
  history.foldl (fun members revision ↦
    members \ revision.removedMembers.toFinset ∪ revision.addedMembers.toFinset) ∅

def Registry.Owns (registry : Registry) (ownerId stableId : String) : Prop :=
  ∃ row, row ∈ registry.ownedVersions ownerId stableId

/-- A family has one member for each harness. -/
def Registry.HarnessOnce (registry : Registry) (familyId : String) : Prop :=
  ∀ first second one two, registry.members.get? first = some one →
    registry.members.get? second = some two → one.familyId = familyId → two.familyId = familyId →
    one.harnessId = two.harnessId → first = second

structure FamilySound (registry : Registry) (familyId : String) (family : SetupFamily) : Prop where
  two : 2 ≤ (registry.memberSet familyId).card
  harness : registry.HarnessOnce familyId
  baseline : family.baseline.stableId ∈ registry.memberSet familyId
  owned : ∀ stableId ∈ registry.memberSet familyId, registry.Owns family.ownerAccountId stableId
  folded : foldHistory (registry.historyOf familyId) = registry.memberSet familyId
  counted : family.revision = (registry.historyOf familyId).length

structure Sound (registry : Registry) : Prop where
  families : ∀ familyId family, registry.families.get? familyId = some family →
    FamilySound registry familyId family
  members : ∀ stableId member, registry.members.get? stableId = some member →
    ∃ family, registry.families.get? member.familyId = some family
  history : ∀ key revision, registry.history.get? key = some revision →
    ∃ family, registry.families.get? revision.familyId = some family
  keys : ∀ familyId family, registry.families.get? familyId = some family →
    ∃ revision, registry.history.get? family.createIdempotencyKey = some revision ∧
      revision.familyId = familyId
  owners : singleOwner registry.catalog = true

theorem sound_empty : Sound .empty := ⟨nofun, nofun, nofun, nofun, rfl⟩

/-! ### Reading -/

variable {other harnessId : String}

section Reading

variable {registry : Registry} {familyId stableId ownerId : String}

theorem Registry.mem_memberSet : stableId ∈ registry.memberSet familyId ↔
    ∃ member, registry.members.get? stableId = some member ∧ member.familyId = familyId := by
  unfold Registry.memberSet
  simp only [List.mem_toFinset, List.mem_map, List.mem_filter, decide_eq_true_eq, Prod.exists,
    Table.mem_entries]
  constructor
  · rintro ⟨key, member, ⟨hmember, hfamily⟩, rfl⟩
    exact ⟨member, hmember, hfamily⟩
  · rintro ⟨member, hmember, hfamily⟩
    exact ⟨stableId, member, ⟨hmember, hfamily⟩, rfl⟩

theorem Registry.memberOf_iff : registry.memberOf familyId stableId = true ↔
    stableId ∈ registry.memberSet familyId := by
  rw [Registry.mem_memberSet]
  unfold Registry.memberOf
  cases registry.members.get? stableId <;> simp

theorem Registry.harnessTaken_eq_false :
    registry.harnessTaken familyId harnessId = false ↔
      ∀ other member, registry.members.get? other = some member → member.familyId = familyId →
        member.harnessId ≠ harnessId := by
  unfold Registry.harnessTaken
  simp only [List.any_eq_false, decide_eq_true_eq, Prod.forall, Table.mem_entries, not_and]

variable {row : CatalogMetadata}

theorem Registry.owns_of_ownedSetup (h : registry.ownedSetup ownerId stableId = some row) :
    registry.Owns ownerId stableId :=
  ⟨row, List.argmax_mem h⟩

theorem Registry.owns_of_ownedVersion {version : Version}
    (h : registry.ownedVersion ownerId stableId version = some row) :
    registry.Owns ownerId stableId := by
  unfold Registry.ownedVersion at h
  exact ⟨row, (List.mem_filter.mp (List.mem_of_mem_head? h)).1⟩

theorem Registry.mem_ownedVersions :
    row ∈ registry.ownedVersions ownerId stableId ↔ row ∈ registry.catalog ∧
      row.objectKind = .setup ∧ row.stableId = stableId ∧ row.ownerAccountId = ownerId ∧
        row.version ≠ none ∧ row.passportDocument ≠ none := by
  unfold Registry.ownedVersions
  simp only [List.mem_filter, decide_eq_true_eq]

/-- A setup has one owner. -/
theorem Sound.owner_unique (hsound : Sound registry) (h : registry.Owns ownerId stableId)
    (hother : registry.Owns other stableId) : ownerId = other := by
  obtain ⟨row, hrow⟩ := h
  obtain ⟨held, hheld⟩ := hother
  obtain ⟨hrow, hkind, hid, howner, -⟩ := Registry.mem_ownedVersions.mp hrow
  obtain ⟨hheld, hheldKind, hheldId, hheldOwner, -⟩ := Registry.mem_ownedVersions.mp hheld
  have hsingle := hsound.owners
  simp only [singleOwner, List.all_eq_true, decide_eq_true_eq] at hsingle
  rw [← howner, ← hheldOwner]
  exact hsingle row hrow held hheld hkind hheldKind (hid.trans hheldId.symm)

end Reading

/-! ### Reshaping -/

/-- Members leave a family and others join it; nothing else changes. -/
structure Reshaped (familyId : String) (removed added : List String) (before after : Registry) :
    Prop where
  catalog : after.catalog = before.catalog
  families : after.families = before.families
  history : after.history = before.history
  others : ∀ stableId member, member.familyId ≠ familyId →
    (after.members.get? stableId = some member ↔ before.members.get? stableId = some member)
  members : after.memberSet familyId =
    before.memberSet familyId \ removed.toFinset ∪ added.toFinset
  harness : before.HarnessOnce familyId → after.HarnessOnce familyId

section Reshaping

variable {familyId stableId ownerId : String} {before middle after : Registry}

theorem Reshaped.refl (familyId : String) (registry : Registry) :
    Reshaped familyId [] [] registry registry :=
  ⟨rfl, rfl, rfl, fun _ _ _ ↦ Iff.rfl, by simp, id⟩

variable {removed added : List String}

/-- Two changes of a family, one after the other. -/
theorem Reshaped.compose {first second gone new : List String}
    (hfirst : Reshaped familyId first second before middle)
    (hrest : Reshaped familyId gone new middle after)
    (hmembers : ∀ members : Finset String,
      (members \ first.toFinset ∪ second.toFinset) \ gone.toFinset ∪ new.toFinset =
        members \ removed.toFinset ∪ added.toFinset) :
    Reshaped familyId removed added before after where
  catalog := hrest.catalog.trans hfirst.catalog
  families := hrest.families.trans hfirst.families
  history := hrest.history.trans hfirst.history
  others := fun other member hother ↦
    (hrest.others other member hother).trans (hfirst.others other member hother)
  members := by rw [hrest.members, hfirst.members, hmembers]
  harness := fun honce ↦ hrest.harness (hfirst.harness honce)

theorem Reshaped.remove (hfirst : Reshaped familyId [stableId] [] before middle)
    (hrest : Reshaped familyId removed [] middle after) :
    Reshaped familyId (stableId :: removed) [] before after := by
  refine hfirst.compose hrest fun members ↦ ?_
  ext other
  simp only [Finset.mem_union, Finset.mem_sdiff, List.mem_toFinset, List.mem_cons,
    List.not_mem_nil, or_false]
  tauto

theorem Reshaped.add (hfirst : Reshaped familyId removed [stableId] before middle)
    (hrest : Reshaped familyId [] added middle after) :
    Reshaped familyId removed (stableId :: added) before after := by
  refine hfirst.compose hrest fun members ↦ ?_
  ext other
  simp only [Finset.mem_union, Finset.mem_sdiff, List.mem_toFinset, List.mem_cons,
    List.not_mem_nil, or_false, not_false_eq_true, and_true]
  tauto

theorem Reshaped.trans (hfirst : Reshaped familyId removed [] before middle)
    (hrest : Reshaped familyId [] added middle after) :
    Reshaped familyId removed added before after :=
  hfirst.compose hrest fun members ↦ by simp

theorem reshaped_of_delete (hmember : before.memberOf familyId stableId = true) :
    Reshaped familyId [stableId] [] before
      { before with members := before.members.filter fun other _ ↦ other ≠ stableId } := by
  have hget : ∀ other member, (before.members.filter fun other _ ↦ other ≠ stableId).get? other =
      some member ↔ before.members.get? other = some member ∧ other ≠ stableId := by
    intro other member
    rw [Table.get?_filter, Option.filter_eq_some_iff, decide_eq_true_eq]
  obtain ⟨held, hheld, hfamily⟩ :=
    Registry.mem_memberSet.mp (Registry.memberOf_iff.mp hmember)
  constructor
  · rfl
  · rfl
  · rfl
  · intro other member hother
    refine (hget other member).trans ⟨And.left, fun hmem ↦ ⟨hmem, ?_⟩⟩
    rintro rfl
    rw [hheld] at hmem
    exact hother (Option.some.inj hmem ▸ hfamily)
  · ext other
    simp only [Finset.mem_union, Finset.mem_sdiff, List.mem_toFinset, List.mem_cons,
      List.not_mem_nil, or_false, Registry.mem_memberSet]
    constructor
    · rintro ⟨member, hmem, hsame⟩
      obtain ⟨hmem, hother⟩ := (hget other member).mp hmem
      exact ⟨⟨member, hmem, hsame⟩, hother⟩
    · rintro ⟨⟨member, hmem, hsame⟩, hother⟩
      exact ⟨member, (hget other member).mpr ⟨hmem, hother⟩, hsame⟩
  · intro honce first second one two hone htwo
    exact honce first second one two ((hget first one).mp hone).1 ((hget second two).mp htwo).1

theorem reshaped_of_insert {members : Table String FamilyMemberRow}
    (htaken : before.harnessTaken familyId harnessId = false)
    (hinsert : before.members.insert? stableId ⟨familyId, harnessId⟩ = some members) :
    Reshaped familyId [] [stableId] before { before with members := members } := by
  obtain ⟨hfree, hget⟩ := Table.insert?_eq_some hinsert
  have hharness := Registry.harnessTaken_eq_false.mp htaken
  constructor
  · rfl
  · rfl
  · rfl
  · intro other member hother
    show members.get? other = some member ↔ _
    rw [hget]
    by_cases hsame : other = stableId
    · rw [if_pos hsame, hsame, hfree]
      simp only [Option.some.injEq, reduceCtorEq, iff_false]
      rintro rfl
      exact hother rfl
    · rw [if_neg hsame]
  · ext other
    simp only [Finset.mem_union, Finset.mem_sdiff, List.mem_toFinset, List.mem_cons,
      List.not_mem_nil, or_false, not_false_eq_true, and_true, Registry.mem_memberSet, hget]
    by_cases hsame : other = stableId
    · simp [hsame]
    · simp [hsame]
  · intro honce first second one two hone htwo hfirst hsecond hsame
    change members.get? first = some one at hone
    change members.get? second = some two at htwo
    rw [hget] at hone htwo
    by_cases hone' : first = stableId
    · by_cases htwo' : second = stableId
      · exact hone'.trans htwo'.symm
      · rw [if_pos hone'] at hone
        rw [if_neg htwo'] at htwo
        rw [← Option.some.inj hone] at hsame
        exact absurd hsame.symm (hharness second two htwo hsecond)
    · rw [if_neg hone'] at hone
      by_cases htwo' : second = stableId
      · rw [if_pos htwo'] at htwo
        rw [← Option.some.inj htwo] at hsame
        exact absurd hsame (hharness first one hone hfirst)
      · rw [if_neg htwo'] at htwo
        exact honce first second one two hone htwo hfirst hsecond hsame

variable {value : Unit}

theorem insertMember_eq_ok
    (h : insertMember familyId stableId harnessId before = (.ok value, after)) :
    Reshaped familyId [] [stableId] before after := by
  simp only [insertMember, write_eq_ok] at h
  split_ifs at h with htaken
  rw [Option.map_eq_some_iff] at h
  obtain ⟨members, hinsert, rfl⟩ := h
  exact reshaped_of_insert (Bool.eq_false_iff.mpr htaken) hinsert

theorem removeMember_eq_ok (h : removeMember familyId stableId before = (.ok value, after)) :
    Reshaped familyId [stableId] [] before after := by
  simp only [removeMember, deleteMember, Attempt.bind_eq_ok, check_eq_ok, write_eq_ok,
    Option.some.injEq] at h
  obtain ⟨-, middle, ⟨hmember, rfl⟩, rfl⟩ := h
  exact reshaped_of_delete hmember

theorem addMember_eq_ok (h : addMember ownerId familyId stableId before = (.ok value, after)) :
    Reshaped familyId [] [stableId] before after ∧ before.Owns ownerId stableId := by
  simp only [addMember, Attempt.bind_eq_ok, check_eq_ok, fetch_eq_ok] at h
  obtain ⟨_, _, ⟨-, rfl⟩, row, _, ⟨hrow, rfl⟩, _, _, ⟨-, rfl⟩, harness, _, ⟨-, rfl⟩, _, _,
    ⟨-, rfl⟩, hinsert⟩ := h
  exact ⟨insertMember_eq_ok hinsert, Registry.owns_of_ownedSetup hrow⟩

theorem removeMembers_eq_ok
    (h : forEach (removeMember familyId) removed before = (.ok value, after)) :
    Reshaped familyId removed [] before after :=
  forEach_eq_ok (fun removed before after ↦ Reshaped familyId removed [] before after)
    (Reshaped.refl familyId)
    (fun _ _ _ _ _ hfirst hrest ↦ (removeMember_eq_ok hfirst).remove hrest) h

theorem Reshaped.owns {added : List String} (h : Reshaped familyId removed added before after)
    (ownerId stableId : String) : after.Owns ownerId stableId ↔ before.Owns ownerId stableId := by
  unfold Registry.Owns Registry.ownedVersions
  rw [h.catalog]

theorem addMembers_eq_ok {added : List String}
    (h : forEach (addMember ownerId familyId) added before = (.ok value, after)) :
    Reshaped familyId [] added before after ∧
      ∀ stableId ∈ added, before.Owns ownerId stableId := by
  refine forEach_eq_ok (fun added before after ↦ Reshaped familyId [] added before after ∧
    ∀ stableId ∈ added, before.Owns ownerId stableId) ?_ ?_ h
  · exact fun registry ↦ ⟨.refl familyId registry, nofun⟩
  · intro stableId added before middle after hfirst hrest
    obtain ⟨hreshaped, howns⟩ := addMember_eq_ok hfirst
    refine ⟨hreshaped.add hrest.1, fun other hother ↦ ?_⟩
    rcases List.mem_cons.mp hother with rfl | hother
    · exact howns
    · exact (hreshaped.owns ownerId other).mp (hrest.2 other hother)

end Reshaping

/-! ### Changes of a family -/

/-- A family is created or patched: its row, its members and one row of history. -/
structure Changed (familyId : String) (family : SetupFamily) (key : String)
    (revision : SetupFamilyRevision) (before after : Registry) : Prop where
  catalog : after.catalog = before.catalog
  others : ∀ stableId member, member.familyId ≠ familyId →
    (after.members.get? stableId = some member ↔ before.members.get? stableId = some member)
  members : after.memberSet familyId =
    before.memberSet familyId \ revision.removedMembers.toFinset ∪ revision.addedMembers.toFinset
  harness : before.HarnessOnce familyId → after.HarnessOnce familyId
  families : ∀ other, after.families.get? other =
    if other = familyId then some family else before.families.get? other
  history : before.history.insert? key revision = some after.history
  named : revision.familyId = familyId
  two : 2 ≤ (after.memberSet familyId).card
  baseline : family.baseline.stableId ∈ after.memberSet familyId
  added : ∀ stableId ∈ revision.addedMembers, before.Owns family.ownerAccountId stableId

/-- Nothing but one family is another than before. -/
structure Elsewhere (familyId : String) (before after : Registry) : Prop where
  catalog : after.catalog = before.catalog
  families : ∀ other, other ≠ familyId → after.families.get? other = before.families.get? other
  members : ∀ stableId member, member.familyId ≠ familyId →
    (after.members.get? stableId = some member ↔ before.members.get? stableId = some member)

theorem Elsewhere.refl (familyId : String) (registry : Registry) :
    Elsewhere familyId registry registry :=
  ⟨rfl, fun _ _ ↦ rfl, fun _ _ _ ↦ Iff.rfl⟩

section Changes

variable {familyId key : String} {family : SetupFamily} {revision : SetupFamilyRevision}
  {before after : Registry}

section

variable (h : Changed familyId family key revision before after)
include h

theorem Changed.elsewhere : Elsewhere familyId before after :=
  ⟨h.catalog, fun other hother ↦ (h.families other).trans (if_neg hother), h.others⟩

/-- The members that leave are the ones that are removed. -/
theorem Changed.mem_or_removed {stableId : String}
    (hmember : stableId ∈ before.memberSet familyId) :
    stableId ∈ after.memberSet familyId ∨ stableId ∈ revision.removedMembers := by
  by_cases hremoved : stableId ∈ revision.removedMembers
  · exact .inr hremoved
  · left
    rw [h.members, Finset.mem_union, Finset.mem_sdiff, List.mem_toFinset]
    exact .inl ⟨hmember, hremoved⟩

theorem Changed.owns (ownerId stableId : String) :
    after.Owns ownerId stableId ↔ before.Owns ownerId stableId := by
  unfold Registry.Owns Registry.ownedVersions
  rw [h.catalog]

theorem Changed.memberSet_of_ne (hother : other ≠ familyId) :
    after.memberSet other = before.memberSet other := by
  ext stableId
  rw [Registry.mem_memberSet, Registry.mem_memberSet]
  constructor
  · intro ⟨member, hmember, hfamily⟩
    exact ⟨member, (h.others stableId member (hfamily ▸ hother)).mp hmember, hfamily⟩
  · intro ⟨member, hmember, hfamily⟩
    exact ⟨member, (h.others stableId member (hfamily ▸ hother)).mpr hmember, hfamily⟩

theorem Changed.harnessOnce_of_ne (hother : other ≠ familyId) (honce : before.HarnessOnce other) :
    after.HarnessOnce other := by
  intro first second one two hone htwo hfirst hsecond
  exact honce first second one two ((h.others first one (hfirst ▸ hother)).mp hone)
    ((h.others second two (hsecond ▸ hother)).mp htwo) hfirst hsecond

theorem Changed.historyOf (other : String) :
    after.historyOf other =
      before.historyOf other ++ if familyId = other then [revision] else [] := by
  have hentries := Table.entries_of_insert? h.history
  unfold Registry.historyOf
  rw [hentries, List.map_append, List.filter_append]
  congr 1
  by_cases hother : familyId = other
  · simp [h.named, hother]
  · simp [h.named, hother]

end

/-- What was so before the change of a family that is sound after it. -/
structure Ready (registry : Registry) (familyId : String) (family : SetupFamily) : Prop where
  harness : registry.HarnessOnce familyId
  owned : ∀ stableId ∈ registry.memberSet familyId, registry.Owns family.ownerAccountId stableId
  folded : foldHistory (registry.historyOf familyId) = registry.memberSet familyId
  counted : family.revision = (registry.historyOf familyId).length + 1

section

variable (h : Changed familyId family key revision before after)
include h

theorem Changed.familySound (hready : Ready before familyId family) :
    FamilySound after familyId family where
  two := h.two
  harness := h.harness hready.harness
  baseline := h.baseline
  owned := by
    intro stableId hmember
    rw [h.owns]
    rw [h.members, Finset.mem_union, Finset.mem_sdiff, List.mem_toFinset, List.mem_toFinset]
      at hmember
    rcases hmember with ⟨hmember, -⟩ | hadded
    · exact hready.owned stableId hmember
    · exact h.added stableId hadded
  folded := by
    rw [h.historyOf, if_pos rfl, h.members, ← hready.folded]
    unfold foldHistory
    rw [List.foldl_append]
    rfl
  counted := by
    rw [h.historyOf, if_pos rfl, hready.counted]
    simp

theorem Changed.familySound_of_ne {held : SetupFamily} (hother : other ≠ familyId)
    (hsound : FamilySound before other held) :
    FamilySound after other held where
  two := by
    rw [h.memberSet_of_ne hother]
    exact hsound.two
  harness := h.harnessOnce_of_ne hother hsound.harness
  baseline := by
    rw [h.memberSet_of_ne hother]
    exact hsound.baseline
  owned := by
    intro stableId hmember
    rw [h.owns]
    rw [h.memberSet_of_ne hother] at hmember
    exact hsound.owned stableId hmember
  folded := by
    rw [h.historyOf, if_neg hother.symm, List.append_nil, h.memberSet_of_ne hother]
    exact hsound.folded
  counted := by
    rw [h.historyOf, if_neg hother.symm, List.append_nil]
    exact hsound.counted

theorem Changed.keeps_revision {row : SetupFamilyRevision}
    (hrow : before.history.get? other = some row) : after.history.get? other = some row := by
  obtain ⟨hfree, hget⟩ := Table.insert?_eq_some h.history
  rw [hget]
  by_cases hother : other = key
  · rw [hother, hfree] at hrow
    cases hrow
  · rw [if_neg hother]
    exact hrow

/-- The registry stays sound when one of its families is changed. -/
theorem Changed.sound (hsound : Sound before) (hready : Ready before familyId family)
    (hkey : ∃ row, after.history.get? family.createIdempotencyKey = some row ∧
      row.familyId = familyId) : Sound after where
  families := by
    intro other held hheld
    rw [h.families] at hheld
    by_cases hother : other = familyId
    · rw [if_pos hother] at hheld
      rw [hother, ← Option.some.inj hheld]
      exact h.familySound hready
    · rw [if_neg hother] at hheld
      exact h.familySound_of_ne hother (hsound.families other held hheld)
  members := by
    intro stableId member hmember
    rw [h.families]
    by_cases hother : member.familyId = familyId
    · exact ⟨family, if_pos hother⟩
    · rw [if_neg hother]
      exact hsound.members stableId member ((h.others stableId member hother).mp hmember)
  history := by
    intro other row hrow
    obtain ⟨hfree, hget⟩ := Table.insert?_eq_some h.history
    rw [hget] at hrow
    rw [h.families]
    by_cases hother : row.familyId = familyId
    · exact ⟨family, if_pos hother⟩
    · rw [if_neg hother]
      by_cases hsame : other = key
      · rw [if_pos hsame] at hrow
        rw [← Option.some.inj hrow] at hother
        exact absurd h.named hother
      · rw [if_neg hsame] at hrow
        exact hsound.history other row hrow
  keys := by
    intro other held hheld
    rw [h.families] at hheld
    by_cases hother : other = familyId
    · rw [if_pos hother] at hheld
      rw [hother, ← Option.some.inj hheld]
      exact hkey
    · rw [if_neg hother] at hheld
      obtain ⟨row, hrow, hfamily⟩ := hsound.keys other held hheld
      exact ⟨row, h.keeps_revision hrow, hfamily⟩
  owners := by
    rw [h.catalog]
    exact hsound.owners

end

end Changes

end AiStp.Catalog
