import AiStp.Catalog.FamilyCalls

/-!
# Runs of family calls

The publication of a recast setup calls the same operations as owners do, under a key made of the
two setups, and goes on when they refuse. Along every run of calls by any owners with any keys, and
of changes of the catalogue, the families stay sound (`sound_run`).

A call that repeats a key is answered with the family of that key, whoever owns it. `KeyOwn` asks
that its owner is the caller; it decides whether the answer is the caller's own family.
-/

set_option autoImplicit false

namespace AiStp.Catalog

open Library Attempt Runs

/-! ### Recasts -/

section Recasts

variable {published source : CatalogMetadata} {sourceRef : SetupRef}
  {familyId answered key stableId : String} {before after : Registry}

theorem swallow_eq_some {change : Change String}
    (h : swallow change before = (.ok (some answered), after)) :
    change before = (.ok answered, after) := by
  unfold swallow at h
  split at h <;> simp_all

theorem swallow_eq_none {change : Change String}
    (h : swallow change before = (.ok none, after)) :
    ∃ code message, change before = (.error (.refused code message), after) := by
  unfold swallow at h
  split at h <;> simp_all

theorem recastSource_eq_some (h : recastSource before published = some (sourceRef, source)) :
    before.Owns published.ownerAccountId sourceRef.stableId := by
  simp only [recastSource, Option.bind_eq_bind, Option.bind_eq_some_iff, Option.guard_eq_some',
    Option.pure_def, Option.some.injEq, Prod.mk.injEq] at h
  obtain ⟨_, -, passport, -, ported, -, row, hrow, _, -, rfl, -⟩ := h
  exact Registry.owns_of_ownedVersion hrow

theorem Registry.familyForSetup_eq_some {family : SetupFamily}
    (h : before.familyForSetup stableId = some (familyId, family)) :
    before.families.get? familyId = some family ∧ stableId ∈ before.memberSet familyId := by
  simp only [Registry.familyForSetup, Option.bind_eq_some_iff, Option.map_eq_some_iff,
    Prod.mk.injEq] at h
  obtain ⟨member, hmember, held, hheld, rfl, rfl⟩ := h
  exact ⟨hheld, Registry.mem_memberSet.mpr ⟨member, hmember, rfl⟩⟩

theorem recastFresh_eq_some (hsound : Sound before) (hkey : before.history.get? key = none)
    (howns : before.Owns published.ownerAccountId sourceRef.stableId)
    (h : recastFresh published familyId sourceRef source key before = (.ok (some answered), after)) :
    Answered published.ownerAccountId key answered [] before after := by
  unfold recastFresh at h
  split at h
  · next sourceFamilyId family targetFamilyId other hsource htarget =>
    by_cases hsame : sourceFamilyId = targetFamilyId
    · rw [if_pos hsame] at h
      obtain ⟨hanswer, rfl⟩ := Prod.mk.inj h
      obtain ⟨hfamily, hmember⟩ := Registry.familyForSetup_eq_some hsource
      rw [← Option.some.inj (Except.ok.inj hanswer)]
      refine .served hkey hsound ⟨family, hfamily, ?_⟩ (.refl _ _) fun _ ↦ .inl
      exact hsound.owner_unique ((hsound.families _ family hfamily).owned _ hmember) howns
    · rw [if_neg hsame] at h
      cases (Prod.mk.inj h).1
  · cases (Prod.mk.inj h).1
  · next sourceFamilyId family hsource htarget =>
    by_cases howner : family.ownerAccountId = published.ownerAccountId
    · rw [if_pos howner] at h
      exact patchFamily_eq_ok hsound (swallow_eq_some h)
    · rw [if_neg howner] at h
      cases (Prod.mk.inj h).1
  · by_cases hdistinct : sourceRef.stableId ≠ published.stableId
    · rw [dif_pos hdistinct] at h
      exact createFamily_eq_ok hsound (swallow_eq_some h)
    · rw [dif_neg hdistinct] at h
      cases (Prod.mk.inj h).1

/-- A recast whose change is refused has written nothing. -/
theorem recastFresh_eq_none (hsound : Sound before) (hkey : before.history.get? key = none)
    (h : recastFresh published familyId sourceRef source key before = (.ok none, after)) :
    after = before := by
  unfold recastFresh at h
  split at h
  · exact (Prod.mk.inj h).2.symm
  · exact (Prod.mk.inj h).2.symm
  · next sourceFamilyId family hsource htarget =>
    obtain ⟨hfamily, -⟩ := Registry.familyForSetup_eq_some hsource
    by_cases howner : family.ownerAccountId = published.ownerAccountId
    · rw [if_pos howner] at h
      obtain ⟨code, message, hrefused⟩ := swallow_eq_none h
      have hpatch : patchFamily published.ownerAccountId sourceFamilyId
          (joinRequest family.revision key published.stableId) before =
            patchFresh published.ownerAccountId sourceFamilyId family
              (joinRequest family.revision key published.stableId) before := by
        simp only [patchFamily, joinRequest, hkey, hfamily, howner, if_true]
      rw [hpatch] at hrefused
      exact join_refused (hsound.families sourceFamilyId family hfamily) hrefused
    · rw [if_neg howner] at h
      exact (Prod.mk.inj h).2.symm
  · by_cases hdistinct : sourceRef.stableId ≠ published.stableId
    · rw [dif_pos hdistinct] at h
      obtain ⟨code, message, hrefused⟩ := swallow_eq_none h
      unfold createFamily at hrefused
      split at hrefused
      · exact (Prod.mk.inj hrefused).2.symm
      · exact careful_createFresh _ _ _ _ before (.refused code message) after trivial hrefused
    · rw [dif_neg hdistinct] at h
      cases (Prod.mk.inj h).1

theorem applyRecastFamilyEffect_eq_some (hsound : Sound before)
    (h : applyRecastFamilyEffect published familyId before = (.ok (some answered), after)) :
    ∃ sourceRef source, recastSource before published = some (sourceRef, source) ∧
      Answered published.ownerAccountId
        (recastIdempotencyKey sourceRef.stableId published.stableId) answered [] before after := by
  unfold applyRecastFamilyEffect at h
  split at h
  · cases (Prod.mk.inj h).1
  · next sourceRef source hsource =>
    refine ⟨sourceRef, source, hsource, ?_⟩
    split at h
    · next replay hreplay =>
      obtain ⟨hanswer, hafter⟩ := Prod.mk.inj h
      obtain ⟨family, -, hnamed⟩ := Option.map_eq_some_iff.mp (Except.ok.inj hanswer)
      exact .replayed replay hreplay hnamed hafter.symm
    · next hfresh => exact recastFresh_eq_some hsound hfresh (recastSource_eq_some hsource) h

theorem applyRecastFamilyEffect_eq_none (hsound : Sound before)
    (h : applyRecastFamilyEffect published familyId before = (.ok none, after)) :
    after = before := by
  unfold applyRecastFamilyEffect at h
  split at h
  · exact (Prod.mk.inj h).2.symm
  · split at h
    · exact (Prod.mk.inj h).2.symm
    · next hfresh => exact recastFresh_eq_none hsound hfresh h

end Recasts

/-! ### Calls -/

/-- The key under which a call is carried out. -/
def Registry.keyOf (registry : Registry) : Call → Option String
  | .create _ _ body => some body.idempotencyKey
  | .patch _ _ body => some body.idempotencyKey
  | .recast published _ => (recastSource registry published).map fun source ↦
    recastIdempotencyKey source.1.stableId published.stableId

/-- The members that a call asks to remove. -/
def Call.removed : Call → List String
  | .create _ _ _ => []
  | .patch _ _ body => body.removeMembers
  | .recast _ _ => []

/-- A family that has a row of history under the key of the call is the caller's. -/
def Registry.KeyOwn (registry : Registry) (call : Call) : Prop :=
  ∀ key, registry.keyOf call = some key → ∀ revision, registry.history.get? key = some revision →
    registry.OwnedBy call.callerId revision.familyId

section Calls

variable {call : Call} {answered : String} {before after : Registry}

theorem attempt_eq_some (hsound : Sound before)
    (h : call.attempt before = (.ok (some answered), after)) :
    ∃ key, before.keyOf call = some key ∧
      Answered call.callerId key answered call.removed before after := by
  cases call with
  | create ownerId familyId body =>
    obtain ⟨_, _, hcreated, hreturn⟩ := Attempt.bind_eq_ok.mp (atomically_eq_ok.mp h)
    obtain ⟨hsame, rfl⟩ := pure_eq_ok.mp hreturn
    rw [Option.some.inj hsame] at hcreated
    exact ⟨body.idempotencyKey, rfl, createFamily_eq_ok hsound hcreated⟩
  | patch ownerId familyId body =>
    obtain ⟨_, _, hpatched, hreturn⟩ := Attempt.bind_eq_ok.mp (atomically_eq_ok.mp h)
    obtain ⟨hsame, rfl⟩ := pure_eq_ok.mp hreturn
    rw [Option.some.inj hsame] at hpatched
    exact ⟨body.idempotencyKey, rfl, patchFamily_eq_ok hsound hpatched⟩
  | recast published familyId =>
    obtain ⟨sourceRef, source, hsource, hanswered⟩ :=
      applyRecastFamilyEffect_eq_some hsound (atomically_eq_ok.mp h)
    refine ⟨_, ?_, hanswered⟩
    rw [Registry.keyOf, hsource]
    rfl

theorem attempt_eq_none (hsound : Sound before) (h : call.attempt before = (.ok none, after)) :
    after = before := by
  cases call with
  | create ownerId familyId body =>
    obtain ⟨_, _, -, hsame⟩ := Attempt.bind_eq_ok.mp (atomically_eq_ok.mp h)
    cases (pure_eq_ok.mp hsame).1
  | patch ownerId familyId body =>
    obtain ⟨_, _, -, hsame⟩ := Attempt.bind_eq_ok.mp (atomically_eq_ok.mp h)
    cases (pure_eq_ok.mp hsame).1
  | recast published familyId =>
    exact applyRecastFamilyEffect_eq_none hsound (atomically_eq_ok.mp h)

theorem attempt_eq_error {failure : Failure} (h : call.attempt before = (.error failure, after)) :
    after = before := by
  cases call <;> exact atomically_eq_error h

theorem Answered.sound {ownerId key : String} {removed : List String}
    (h : Answered ownerId key answered removed before after)
    (hsound : Sound before) : Sound after := by
  cases h with
  | replayed revision hrevision hfamily hsame => exact hsame ▸ hsound
  | served hkey hafter howner helsewhere hleft => exact hafter

theorem Answered.ownedBy_iff {ownerId key : String} {removed : List String}
    (h : Answered ownerId key answered removed before after) :
    after.OwnedBy ownerId answered ↔ ∀ revision, before.history.get? key = some revision →
      before.OwnedBy ownerId revision.familyId := by
  cases h with
  | replayed revision hrevision hfamily hsame =>
    rw [hsame]
    constructor
    · intro howner other hother
      rw [← Option.some.inj (hrevision.symm.trans hother), hfamily]
      exact howner
    · intro hall
      rw [← hfamily]
      exact hall revision hrevision
  | served hkey hafter howner helsewhere hleft =>
    refine ⟨fun _ revision hrevision ↦ ?_, fun _ ↦ howner⟩
    rw [hkey] at hrevision
    cases hrevision

theorem attempt_sound (hsound : Sound before) (call : Call) : Sound (call.attempt before).2 := by
  cases hattempt : call.attempt before with
  | mk outcome after =>
    show Sound after
    cases outcome with
    | error failure => exact attempt_eq_error hattempt ▸ hsound
    | ok returned =>
      cases returned with
      | none => exact attempt_eq_none hsound hattempt ▸ hsound
      | some answered =>
        obtain ⟨key, -, hanswered⟩ := attempt_eq_some hsound hattempt
        exact hanswered.sound hsound

end Calls

/-! ### Changes of the catalogue -/

section Growth

variable {registry : Registry} {later : List CatalogMetadata}

theorem catalogGrows_owns (hgrows : catalogGrows registry.catalog later = true)
    {ownerId stableId : String} (howns : registry.Owns ownerId stableId) :
    { registry with catalog := later }.Owns ownerId stableId := by
  obtain ⟨row, hrow⟩ := howns
  obtain ⟨hrow, hkind, hid, howner, hversion, hpassport⟩ := Registry.mem_ownedVersions.mp hrow
  simp only [catalogGrows, Bool.and_eq_true, List.all_eq_true, List.any_eq_true] at hgrows
  obtain ⟨kept, hkept, hsame⟩ := hgrows.2 row hrow
  simp only [CatalogMetadata.sameVersion, decide_eq_true_eq] at hsame
  obtain ⟨hkeptKind, hkeptId, hkeptVersion, hkeptOwner, -, hkeptPassport⟩ := hsame
  refine ⟨kept, Registry.mem_ownedVersions.mpr ⟨hkept, hkeptKind.trans hkind, hkeptId.trans hid,
    hkeptOwner.trans howner, ?_, ?_⟩⟩
  · rw [hkeptVersion]
    exact hversion
  · rw [hkeptPassport]
    exact hpassport

theorem Sound.grow (hsound : Sound registry)
    (hgrows : catalogGrows registry.catalog later = true) :
    Sound { registry with catalog := later } where
  families := by
    intro familyId family hfamily
    have hheld := hsound.families familyId family hfamily
    exact ⟨hheld.two, hheld.harness, hheld.baseline,
      fun stableId hmember ↦ catalogGrows_owns hgrows (hheld.owned stableId hmember),
      hheld.folded, hheld.counted⟩
  members := hsound.members
  history := hsound.history
  keys := hsound.keys
  owners := by
    unfold catalogGrows at hgrows
    exact (Bool.and_eq_true_iff.mp hgrows).1

end Growth

theorem step_sound (registry : Registry) (event : Event) (hsound : Sound registry) :
    Sound (registry.step event) := by
  cases event with
  | catalog later =>
    simp only [Registry.step]
    by_cases hgrows : catalogGrows registry.catalog later = true
    · rw [if_pos hgrows]
      exact hsound.grow hgrows
    · rw [if_neg hgrows]
      exact hsound
  | call call => exact attempt_sound hsound call

theorem sound_run (events : List Event) : Sound (run Registry.step .empty events) :=
  run_invariant step_sound .empty sound_empty events

/-- After every run the families are sound and disjoint, a call that is refused changes nothing, and
a call returns a family of its caller exactly if the family of its key, when the key was used
before, is the caller's. -/
theorem memberships_kept (events : List Event) (call : Call) :
    let registry := run Registry.step .empty events
    Sound registry ∧
    (∀ stableId first second, stableId ∈ registry.memberSet first →
      stableId ∈ registry.memberSet second → first = second) ∧
    match call.attempt registry with
    | (.error _, after) => after = registry
    | (.ok none, after) => after = registry
    | (.ok (some familyId), after) =>
      after.OwnedBy call.callerId familyId ↔ registry.KeyOwn call := by
  intro registry
  have hsound : Sound registry := sound_run events
  refine ⟨hsound, ?_, ?_⟩
  · intro stableId first second hfirst hsecond
    obtain ⟨one, hone, rfl⟩ := Registry.mem_memberSet.mp hfirst
    obtain ⟨two, htwo, rfl⟩ := Registry.mem_memberSet.mp hsecond
    rw [Option.some.inj (hone.symm.trans htwo)]
  · split
    · next hattempt => exact attempt_eq_error hattempt
    · next hattempt => exact attempt_eq_none hsound hattempt
    · next familyId after hattempt =>
      obtain ⟨key, hkey, hanswered⟩ := attempt_eq_some hsound hattempt
      rw [hanswered.ownedBy_iff]
      constructor
      · intro hall other hother
        rw [← Option.some.inj (hkey.symm.trans hother)]
        exact hall
      · exact fun hown ↦ hown key hkey

/-! ### A key of another owner -/

def exampleSetup (ownerId stableId harnessId : String) : CatalogMetadata where
  objectKind := .setup
  stableId := stableId
  version := some (1, 0)
  ownerAccountId := ownerId
  passportDigest := some stableId
  passportDocument := some { harnessId := harnessId }

def exampleRequest (name baseline other : String) (hdistinct : other ≠ baseline) :
    SetupFamilyCreateRequest where
  name := name
  baseline := ⟨baseline, (1, 0), baseline⟩
  members := [baseline, other]
  idempotencyKey := "create-family"
  reason := "same work on two harnesses"
  baseline_is_a_member := by simp
  unique := by simp [hdistinct.symm]

/-- Two owners create a family under one key: the second is given the family of the first. -/
theorem another_owners_family :
    let registry := run Registry.step .empty
      [.catalog [exampleSetup "anna" "setup-a" "codex", exampleSetup "anna" "setup-b" "cursor",
        exampleSetup "boris" "setup-c" "codex", exampleSetup "boris" "setup-d" "cursor"],
       .call (.create "anna" "family-1" (exampleRequest "Anna" "setup-a" "setup-b" (by decide)))]
    let call := Call.create "boris" "family-2"
      (exampleRequest "Boris" "setup-c" "setup-d" (by decide))
    (call.attempt registry).1.toOption = some (some "family-1") ∧
      ¬ (call.attempt registry).2.OwnedBy "boris" "family-1" := by
  decide +kernel

end AiStp.Catalog
