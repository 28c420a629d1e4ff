import AiStp.Context.Server

/-!
# The head of a project

A push moves the head to a revision that names it as a parent. A sync plan moves it to whatever
revision the plan selects: where only the local side changed, no search among ancestors stands
between the request and the plan, so a plan may name any stored revision.

`head_moves_forward` says when the ledger keeps its history: in the runs whose admitted plans select
descendants of the head, every parent and every head is stored and every head descends from the ones
before it; and one more request keeps this exactly if it meets that condition too.
-/

set_option autoImplicit false

namespace AiStp.Context

open Relation Library Foundation

/-- `parent` is a recorded parent of `child`. -/
def ParentOf (db : Database) (project : ProjectKey) (child parent : String) : Prop :=
  ∃ row, db.revisions.get? (project, child) = some row ∧ parent ∈ row.parentRevisionIds

def Descends (db : Database) (project : ProjectKey) (descendant ancestor : String) : Prop :=
  ReflTransGen (ParentOf db project) descendant ancestor

/-- Parents and heads are stored. -/
structure Sound (db : Database) : Prop where
  parents : ∀ project child parent, ParentOf db project child parent →
    isStored db project parent = true
  heads : ∀ project head, db.heads.get? project = some head → isStored db project head = true

/-- No revision is lost and every head moves to a descendant. -/
structure Forward (before after : Database) : Prop where
  revisions : before.revisions.Keeps Eq after.revisions
  heads : ∀ project head, before.heads.get? project = some head →
    ∃ later, after.heads.get? project = some later ∧ Descends after project later head

/-- If the request applies a plan that pushes the local side, the plan names a descendant of the
revision that it replaces. -/
def SelectsDescendant (system : System) (server : Server) (call : Call) : Prop :=
  ∀ planId key plan link, call.Admits system server.now planId key plan link →
    plan.action = .localToRemote →
      Descends server.now link.project plan.localRevision plan.remoteRevision

/-! ### Stored revisions -/

variable {revisionId : String}

section Stored

variable {before after : Database} {project : ProjectKey}

theorem isStored_iff {db : Database} :
    isStored db project revisionId = true ↔ ∃ row, db.revisions.get? (project, revisionId) = some row :=
  Option.isSome_iff_exists

section

variable (h : before.revisions.Keeps Eq after.revisions)
include h

theorem isStored_of_keeps (hstored : isStored before project revisionId = true) :
    isStored after project revisionId = true := by
  obtain ⟨row, hrow⟩ := isStored_iff.mp hstored
  obtain ⟨later, hlater, -⟩ := h _ row hrow
  exact isStored_iff.mpr ⟨later, hlater⟩

theorem ParentOf.of_keeps {child parent : String} (hparent : ParentOf before project child parent) :
    ParentOf after project child parent := by
  obtain ⟨row, hrow, hmem⟩ := hparent
  obtain ⟨later, hlater, rfl⟩ := h _ row hrow
  exact ⟨row, hlater, hmem⟩

theorem Descends.of_keeps {descendant ancestor : String}
    (hdescends : Descends before project descendant ancestor) :
    Descends after project descendant ancestor :=
  ReflTransGen.mono (fun _ _ hparent ↦ ParentOf.of_keeps h hparent) _ _ hdescends

end

end Stored

theorem Forward.refl (db : Database) : Forward db db where
  revisions := .refl (fun _ ↦ rfl) _
  heads := fun _ head hhead ↦ ⟨head, hhead, .refl⟩

theorem Forward.trans {first second third : Database} (hfirst : Forward first second)
    (hsecond : Forward second third) : Forward first third where
  revisions := hfirst.revisions.trans (fun _ _ _ h h' ↦ h.trans h') hsecond.revisions
  heads := by
    intro project head hhead
    obtain ⟨middle, hmiddle, hdescends⟩ := hfirst.heads project head hhead
    obtain ⟨later, hlater, hdescends'⟩ := hsecond.heads project middle hmiddle
    exact ⟨later, hlater, hdescends'.trans (hdescends.of_keeps hsecond.revisions)⟩

/-- Writes that leave the revisions and the heads alone. -/
theorem Forward.of_same {before after : Database} (hrevisions : after.revisions = before.revisions)
    (hheads : after.heads = before.heads) : Forward before after where
  revisions := by
    rw [hrevisions]
    exact .refl (fun _ ↦ rfl) _
  heads := by
    intro project head hhead
    exact ⟨head, by rw [hheads, hhead], .refl⟩

theorem Sound.of_same {before after : Database} (h : Sound before)
    (hrevisions : after.revisions = before.revisions) (hheads : after.heads = before.heads) :
    Sound after where
  parents := by
    rintro project child parent ⟨row, hrow, hmem⟩
    unfold isStored
    rw [hrevisions] at hrow ⊢
    exact h.parents project child parent ⟨row, hrow, hmem⟩
  heads := by
    intro project head hhead
    unfold isStored
    rw [hheads] at hhead
    rw [hrevisions]
    exact h.heads project head hhead

/-! ### The invariant -/

/-- The stored revision that a plan selects is in the ledger of its link. -/
def ProjectSyncPlan.Selects (plan : ProjectSyncPlan) (db : Database) : Prop :=
  ∃ link, db.links.get? plan.linkId = some link ∧
    (plan.action = .localToRemote → isStored db link.project plan.localRevision = true) ∧
    (plan.action = .remoteToLocal → isStored db link.project plan.remoteRevision = true)

/-- What every reachable database satisfies, whatever its plans select. -/
structure Ledger (db : Database) : Prop extends Sound db where
  headed : ∀ project revisionId, isStored db project revisionId = true →
    db.heads.get? project ≠ none
  plans : ∀ planId plan, db.syncPlans.get? planId = some plan → plan.Selects db

theorem ledger_empty : Ledger .empty where
  parents := by
    rintro project child parent ⟨row, hrow, -⟩
    cases hrow
  heads := by
    intro project head hhead
    cases hhead
  headed := by
    intro project revisionId hstored
    cases hstored
  plans := by
    intro planId plan hplan
    cases hplan

variable {plan : ProjectSyncPlan}

/-- A plan goes on selecting a stored revision. -/
theorem ProjectSyncPlan.Selects.of_kept {before after : Database} (hkept : Kept before after)
    {later : ProjectSyncPlan} (h : plan.Selects before) (hlater : plan.Later later) :
    later.Selects after := by
  obtain ⟨state, key, rfl⟩ := hlater
  obtain ⟨link, hlink, hlocal, hremote⟩ := h
  obtain ⟨row, hrow, horigin, -⟩ := hkept.links _ link hlink
  refine ⟨row, hrow, ?_, ?_⟩
  · intro haction
    rw [horigin.project]
    exact isStored_of_keeps hkept.revisions (hlocal haction)
  · intro haction
    rw [horigin.project]
    exact isStored_of_keeps hkept.revisions (hremote haction)

/-- A request that leaves the revisions and the heads alone, and whose plans stand. -/
theorem Ledger.of_same {before after : Database} (h : Ledger before)
    (hrevisions : after.revisions = before.revisions) (hheads : after.heads = before.heads)
    (hplans : ∀ planId plan, after.syncPlans.get? planId = some plan → plan.Selects after) :
    Ledger after where
  parents := (h.toSound.of_same hrevisions hheads).parents
  heads := (h.toSound.of_same hrevisions hheads).heads
  headed := by
    intro project revisionId hstored
    unfold isStored at hstored
    rw [hrevisions] at hstored
    rw [hheads]
    exact h.headed project revisionId hstored
  plans := hplans

/-! ### Pushes -/

section Push

variable {seen : Seen} {db after : Database} {linkId : String} {link : ProjectLink}
  {payload : ProjectRevisionPushRequest} {revision : ProjectRevision} {fingerprint : String}
  {body : ProjectRevisionReceipt}

theorem readHead_eq_some {past : Database} {project : ProjectKey} {head : String}
    (h : readHead past db project = some head) : db.heads.get? project = some head := by
  unfold readHead at h
  split at h
  · cases h
  · exact h

/-- An accepted push has read the current head, and replaces it. -/
theorem acceptedHeads_eq_some {past : Database} {project : ProjectKey}
    {heads : Table ProjectKey String}
    (h : acceptedHeads db project (readHead past db project) revisionId = some heads) :
    db.heads.get? project = readHead past db project ∧
      ∀ other, heads.get? other = if other = project then some revisionId
        else db.heads.get? other := by
  cases hread : readHead past db project with
  | none =>
    rw [hread] at h
    exact Table.insert?_eq_some h
  | some head =>
    rw [hread] at h
    have hhead := readHead_eq_some hread
    refine ⟨hhead, ?_⟩
    intro other
    rw [← Option.some.inj h, Table.get?_update, hhead]
    rfl

variable (h : pushWrites seen.revisions db linkId link payload (readHead seen.head db link.project)
  revision fingerprint = some (body, after))

include h in
/-- The heads after a push. -/
theorem push_heads :
    (∀ other, other ≠ link.project → after.heads.get? other = db.heads.get? other) ∧
    ((isFastForward (db.heads.get? link.project) payload = true ∧ body.state = .accepted ∧
        after.heads.get? link.project = some payload.revisionId) ∨
      (isFastForward (readHead seen.head db link.project) payload = false ∧
        body.state = .conflict ∧ after.heads = db.heads)) := by
  obtain ⟨written, hwritten, rfl, -, -, -, hheads, -⟩ := pushWrites_eq_some h
  obtain ⟨-, -, heffect⟩ := pushEffect_eq_some hwritten
  rcases heffect with ⟨hforward, hstate, haccepted⟩ | ⟨hforward, hstate, hsame⟩
  · obtain ⟨hread, hget⟩ := acceptedHeads_eq_some haccepted
    rw [hheads]
    refine ⟨fun other hother ↦ by rw [hget, if_neg hother], .inl ⟨?_, hstate, ?_⟩⟩
    · rw [hread]
      exact hforward
    · rw [hget, if_pos rfl]
  · rw [hheads, hsame]
    exact ⟨fun _ _ ↦ rfl, .inr ⟨hforward, hstate, rfl⟩⟩

include h in
/-- The revisions after a push. -/
theorem push_revisions :
    ∀ key, after.revisions.get? key = if key = (link.project, payload.revisionId) then some revision
      else db.revisions.get? key := by
  obtain ⟨-, -, -, -, hinsert, -⟩ := pushWrites_eq_some h
  exact (Table.insert?_eq_some hinsert).2

end Push

/-! ### One request -/

section Step

variable {system : System} {call : Call} {seen : Seen} {db after : Database}

variable {link : ProjectLink}

/-- A revision that a push stores has stored parents, and its project has a head. -/
theorem pushed_ledger {linkId : String} {payload : ProjectRevisionPushRequest}
    {revision : ProjectRevision} {fingerprint : String} {body : ProjectRevisionReceipt}
    (h : Ledger db) (hseen : seen.revisions.revisions.Keeps Eq db.revisions)
    (hrevision : revision.parentRevisionIds = payload.parentRevisionIds)
    (hparents : ∀ parent ∈ payload.parentRevisionIds,
      isStored seen.revisions link.project parent = true)
    (hexpected : ∀ head, payload.expectedHeadRevisionId = some head →
      isStored seen.revisions link.project head = true) (hkept : Kept db after)
    (hwrites : pushWrites seen.revisions db linkId link payload
      (readHead seen.head db link.project) revision fingerprint = some (body, after)) :
    Ledger after ∧ Forward db after := by
  obtain ⟨hothers, hheads⟩ := push_heads hwrites
  have hrevisions := push_revisions hwrites
  have hstored : isStored after link.project payload.revisionId = true :=
    isStored_iff.mpr ⟨revision, by rw [hrevisions, if_pos rfl]⟩
  have hchild : ∀ parent ∈ payload.parentRevisionIds,
      ParentOf after link.project payload.revisionId parent := by
    intro parent hmem
    exact ⟨revision, by rw [hrevisions, if_pos rfl], by rw [hrevision]; exact hmem⟩
  refine ⟨⟨⟨?_, ?_⟩, ?_, ?_⟩, hkept.revisions, ?_⟩
  · rintro project child parent ⟨row, hrow, hmem⟩
    rw [hrevisions] at hrow
    split_ifs at hrow with hkey
    · obtain ⟨rfl, rfl⟩ := Prod.mk.inj hkey
      rw [← Option.some.inj hrow, hrevision] at hmem
      exact isStored_of_keeps hkept.revisions (isStored_of_keeps hseen (hparents parent hmem))
    · exact isStored_of_keeps hkept.revisions (h.parents project child parent ⟨row, hrow, hmem⟩)
  · intro project head hhead
    by_cases hproject : project = link.project
    · subst hproject
      rcases hheads with ⟨-, -, haccepted⟩ | ⟨-, -, hsame⟩
      · rw [haccepted] at hhead
        rw [← Option.some.inj hhead]
        exact hstored
      · rw [hsame] at hhead
        exact isStored_of_keeps hkept.revisions (h.heads _ head hhead)
    · rw [hothers project hproject] at hhead
      exact isStored_of_keeps hkept.revisions (h.heads project head hhead)
  · intro project revisionId hrevisionStored
    by_cases hproject : project = link.project
    · subst hproject
      rcases hheads with ⟨-, -, haccepted⟩ | ⟨hdiverged, -, hsame⟩
      · rw [haccepted]
        exact Option.some_ne_none _
      · rw [hsame]
        cases hread : readHead seen.head db link.project with
        | some head =>
          rw [readHead_eq_some hread]
          exact Option.some_ne_none _
        | none =>
          -- A first revision names no parent and expects no head: this one names a stored revision.
          rw [hread] at hdiverged
          have hnamed : ∃ named, isStored seen.revisions link.project named = true := by
            cases hfirst : payload.parentRevisionIds with
            | cons parent rest => exact ⟨parent, hparents parent (by rw [hfirst]; simp)⟩
            | nil =>
              cases hnone : payload.expectedHeadRevisionId with
              | some head => exact ⟨head, hexpected head hnone⟩
              | none => simp [isFastForward, hfirst, hnone] at hdiverged
          obtain ⟨named, hnamed⟩ := hnamed
          exact h.headed _ named (isStored_of_keeps hseen hnamed)
    · rw [hothers project hproject]
      have hbefore : isStored db project revisionId = true := by
        obtain ⟨row, hrow⟩ := isStored_iff.mp hrevisionStored
        rw [hrevisions, if_neg fun hkey ↦ hproject (Prod.mk.inj hkey).1] at hrow
        exact isStored_iff.mpr ⟨row, hrow⟩
      exact h.headed project revisionId hbefore
  · obtain ⟨-, -, -, -, -, -, -, -, -, hplans⟩ := pushWrites_eq_some hwrites
    intro planId plan hplan
    rw [hplans] at hplan
    exact (h.plans planId plan hplan).of_kept hkept ⟨_, _, rfl⟩
  · intro project head hhead
    by_cases hproject : project = link.project
    · subst hproject
      rcases hheads with ⟨hforward, -, haccepted⟩ | ⟨-, -, hsame⟩
      · refine ⟨payload.revisionId, haccepted, ReflTransGen.single (hchild head ?_)⟩
        rw [hhead] at hforward
        exact (of_decide_eq_true hforward).2
      · exact ⟨head, by rw [hsame, hhead], .refl⟩
    · exact ⟨head, by rw [hothers project hproject, hhead], .refl⟩

variable {planId : String}

/-- What an applied plan selects: the head as it is, or the local revision of the plan. -/
theorem synced_heads {key : String} :
    ∀ other, (syncWrites db planId plan link key).2.heads.get? other =
      if other = link.project then (selectedHead plan).or (db.heads.get? link.project)
      else db.heads.get? other := by
  intro other
  show (syncHeads db link.project plan).get? other = _
  unfold syncHeads
  cases hselected : selectedHead plan with
  | none =>
    show db.heads.get? other = _
    split_ifs with hother
    · rw [hother]
      rfl
    · rfl
  | some revisionId =>
    show (db.heads.set link.project revisionId).get? other = _
    rw [Table.get?_set]
    rfl

/-- If an admitted plan selects a head, its remote revision is the head. -/
theorem admitted_head (h : Ledger db) (hplan : db.syncPlans.get? planId = some plan)
    (hlink : db.links.get? plan.linkId = some link)
    (hhead : (db.heads.get? link.project).getD "initial" = plan.remoteRevision)
    (hselects : selectedHead plan ≠ none) :
    db.heads.get? link.project = some plan.remoteRevision ∧
      (plan.action = .localToRemote → isStored db link.project plan.localRevision = true) := by
  obtain ⟨held, hheld, hlocal, hremote⟩ := h.plans planId plan hplan
  rw [hlink] at hheld
  rw [← Option.some.inj hheld] at hlocal hremote
  refine ⟨?_, hlocal⟩
  have hsome : db.heads.get? link.project ≠ none := by
    unfold selectedHead at hselects
    split at hselects
    · next haction => exact h.headed _ _ (hlocal haction)
    · next haction => exact h.headed _ _ (hremote haction)
    · exact absurd rfl hselects
  obtain ⟨head, hsome⟩ := Option.ne_none_iff_exists'.mp hsome
  rw [hsome] at hhead ⊢
  exact congrArg some hhead

/-- The head that a plan selects is stored, and descends from the head that it replaces if the local
revision of the plan does. -/
theorem selectedHead_descends (h : Ledger db) (hplan : db.syncPlans.get? planId = some plan)
    (hlink : db.links.get? plan.linkId = some link)
    (hhead : (db.heads.get? link.project).getD "initial" = plan.remoteRevision) {selected : String}
    (hselected : selectedHead plan = some selected) :
    isStored db link.project selected = true ∧
      db.heads.get? link.project = some plan.remoteRevision ∧
      ((plan.action = .localToRemote →
          Descends db link.project plan.localRevision plan.remoteRevision) →
        Descends db link.project selected plan.remoteRevision) := by
  obtain ⟨hcurrent, hlocal⟩ :=
    admitted_head h hplan hlink hhead (by rw [hselected]; exact Option.some_ne_none _)
  unfold selectedHead at hselected
  split at hselected
  · next haction =>
    rw [← Option.some.inj hselected]
    exact ⟨hlocal haction, hcurrent, fun hdescends ↦ hdescends haction⟩
  · next haction =>
    rw [← Option.some.inj hselected]
    exact ⟨h.heads _ _ hcurrent, hcurrent, fun _ ↦ .refl⟩
  · cases hselected

/-- An applied plan, which goes forward if it selects a descendant of the head. -/
theorem synced_ledger (h : Ledger db) {key : String} (hplan : db.syncPlans.get? planId = some plan)
    (hlink : db.links.get? plan.linkId = some link)
    (hhead : (db.heads.get? link.project).getD "initial" = plan.remoteRevision)
    (hkept : Kept db (syncWrites db planId plan link key).2) :
    Ledger (syncWrites db planId plan link key).2 ∧
      ((plan.action = .localToRemote →
          Descends db link.project plan.localRevision plan.remoteRevision) →
        Forward db (syncWrites db planId plan link key).2) := by
  have hheads : ∀ other, (syncWrites db planId plan link key).2.heads.get? other =
      if other = link.project then (selectedHead plan).or (db.heads.get? link.project)
      else db.heads.get? other := synced_heads
  have hselect := fun selected (hselected : selectedHead plan = some selected) ↦
    selectedHead_descends h hplan hlink hhead hselected
  refine ⟨⟨⟨h.parents, ?_⟩, ?_, ?_⟩, fun hdescends ↦ ⟨hkept.revisions, ?_⟩⟩
  · intro project head hafter
    rw [hheads] at hafter
    split_ifs at hafter with hproject
    · subst hproject
      cases hselected : selectedHead plan with
      | none =>
        rw [hselected] at hafter
        exact h.heads _ head hafter
      | some selected =>
        rw [hselected] at hafter
        rw [← Option.some.inj hafter]
        exact (hselect selected hselected).1
    · exact h.heads project head hafter
  · intro project revisionId hstored
    have hbefore := h.headed project revisionId hstored
    rw [hheads]
    split_ifs with hproject
    · subst hproject
      intro hnone
      exact hbefore (Option.or_eq_none_iff.mp hnone).2
    · exact hbefore
  · intro other later hlater
    by_cases hother : other = planId
    · subst hother
      have hself : (syncWrites db other plan link key).2.syncPlans.get? other = some _ :=
        Table.get?_update_self hplan
      rw [hself] at hlater
      rw [← Option.some.inj hlater]
      exact (h.plans other plan hplan).of_kept hkept ⟨_, _, rfl⟩
    · have hrest : (syncWrites db planId plan link key).2.syncPlans.get? other =
          db.syncPlans.get? other := Table.get?_update_of_ne hother
      rw [hrest] at hlater
      exact (h.plans other later hlater).of_kept hkept ⟨_, _, rfl⟩
  · intro project head hbefore
    rw [hheads]
    split_ifs with hproject
    · subst hproject
      cases hselected : selectedHead plan with
      | none => exact ⟨head, hbefore, .refl⟩
      | some selected =>
        obtain ⟨-, hcurrent, hdescent⟩ := hselect selected hselected
        rw [hbefore] at hcurrent
        rw [Option.some.inj hcurrent]
        exact ⟨selected, rfl, hdescent hdescends⟩
    · exact ⟨head, hbefore, .refl⟩

/-- One request, which goes forward if the plan that it applies selects a descendant of the head. -/
theorem change_ledger (h : Ledger db) (hchange : Change system call seen db after)
    (hseen : seen.revisions.revisions.Keeps Eq db.revisions) :
    Ledger after ∧ ((∀ planId key plan link, call.Admits system db planId key plan link →
      plan.action = .localToRemote →
        Descends db link.project plan.localRevision plan.remoteRevision) → Forward db after) := by
  have hkept := change_kept hchange
  have hplans : ∀ planId plan, db.syncPlans.get? planId = some plan → plan.Selects after :=
    fun planId plan hplan ↦ (h.plans planId plan hplan).of_kept hkept ⟨_, _, rfl⟩
  cases hchange with
  | nothing => exact ⟨h, fun _ ↦ .refl db⟩
  | linkPlanned => exact ⟨h.of_same rfl rfl hplans, fun _ ↦ .of_same rfl rfl⟩
  | linked => exact ⟨h.of_same rfl rfl hplans, fun _ ↦ .of_same rfl rfl⟩
  | unlinkPlanned => exact ⟨h.of_same rfl rfl hplans, fun _ ↦ .of_same rfl rfl⟩
  | unlinked => exact ⟨h.of_same rfl rfl hplans, fun _ ↦ .of_same rfl rfl⟩
  | pushed linkId link payload revision fingerprint body after hlink hopen hrevision hparents
      hexpected hwrites =>
    exact (pushed_ledger h hseen hrevision hparents hexpected hkept hwrites).imp_right fun hforward _ ↦
      hforward
  | syncPlanned planId plan link syncPlans hlink hlocal hremote hinsert =>
    refine ⟨h.of_same rfl rfl ?_, fun _ ↦ .of_same rfl rfl⟩
    intro other later hlater
    rw [(Table.insert?_eq_some hinsert).2] at hlater
    split_ifs at hlater with hother
    · rw [← Option.some.inj hlater]
      exact ⟨link, hlink, fun haction ↦ isStored_of_keeps hseen (hlocal haction),
        fun haction ↦ isStored_of_keeps hseen (hremote haction)⟩
    · exact hplans other later hlater
  | synced planId key plan link hadmits hplan hlink hopen hhead =>
    exact (synced_ledger h hplan hlink hhead hkept).imp_right fun hforward hselects ↦
      hforward (hselects planId key plan link hadmits)

/-- A plan that is applied and selects no descendant of the head leaves no descendant there. -/
theorem selects_of_forward (h : Ledger db) (hforward : Forward db (perform system seen db call))
    {key : String} (hadmits : call.Admits system db planId key plan link)
    (haction : plan.action = .localToRemote) :
    Descends db link.project plan.localRevision plan.remoteRevision := by
  obtain ⟨organizationId, linkId, payload, hrequest, rfl, hstanding, hkey⟩ := hadmits
  obtain ⟨hplan, hlink, -, hhead⟩ := syncStanding_admitted hstanding
  have hselected : selectedHead plan = some plan.localRevision := by
    unfold selectedHead
    rw [haction]
  have hperform : perform system seen db call =
      (syncWrites db planId plan link payload.idempotencyKey).2 := by
    unfold perform effect
    rw [hrequest]
    simp only [applySyncPlan, hstanding, require, hkey]
    rfl
  obtain ⟨hcurrent, -⟩ :=
    admitted_head h hplan hlink hhead (by rw [hselected]; exact Option.some_ne_none _)
  rw [hperform] at hforward
  obtain ⟨later, hlater, hdescends⟩ := hforward.heads _ _ hcurrent
  rw [synced_heads, if_pos rfl, hselected] at hlater
  rw [show later = plan.localRevision from (Option.some.inj hlater).symm] at hdescends
  exact hdescends

end Step

/-! ### Runs -/

/-- What a push may do to the heads: only a first answer that accepts the push moves one. -/
def PushKeepsHeads (system : System) (server : Server) (call : Call) : Prop :=
  ∀ organizationId linkId payload resolution,
    call.request = .push organizationId linkId payload resolution →
      match pushProjectRevision system call.surroundings (server.seen call.ages) server.now call.ctx
          organizationId linkId payload resolution with
      | .error _ => (step system server call).now = server.now
      | .ok (receipt, after) =>
        (step system server call).now = after ∧
          (receipt.state = .conflict → after.heads = server.now.heads) ∧
          ∀ link, server.now.links.get? linkId = some link →
            server.now.receipts.get? (link.project, payload.idempotencyKey) ≠ none →
              after = server.now

theorem push_keeps_heads (system : System) (server : Server) (call : Call) :
    PushKeepsHeads system server call := by
  intro organizationId linkId payload resolution hrequest
  have hperform : (step system server call).now =
      match pushProjectRevision system call.surroundings (server.seen call.ages) server.now call.ctx
          organizationId linkId payload resolution with
      | .error _ => server.now
      | .ok answer => answer.2 := by
    show perform system (server.seen call.ages) server.now call = _
    unfold perform effect
    rw [hrequest]
    dsimp only
    cases pushProjectRevision system call.surroundings (server.seen call.ages) server.now call.ctx
      organizationId linkId payload resolution <;> rfl
  cases hresult : pushProjectRevision system call.surroundings (server.seen call.ages) server.now
      call.ctx organizationId linkId payload resolution with
  | error error =>
    rw [hresult] at hperform
    exact hperform
  | ok answer =>
    obtain ⟨receipt, after⟩ := answer
    rw [hresult] at hperform
    refine ⟨hperform, ?_, ?_⟩
    · intro hconflict
      rcases pushProjectRevision_eq_ok hresult with rfl | ⟨link, _, _, -, -, -, -, -, hwrites, -⟩
      · rfl
      · rcases (push_heads hwrites).2 with ⟨-, haccepted, -⟩ | ⟨-, -, hsame⟩
        · rw [haccepted] at hconflict
          cases hconflict
        · exact hsame
    · intro link hlink hreceipt
      rcases pushProjectRevision_eq_ok hresult with rfl | ⟨held, _, _, hheld, -, -, -, -, hwrites, -⟩
      · rfl
      · rw [hlink] at hheld
        obtain rfl := Option.some.inj hheld
        obtain ⟨-, -, -, hfresh, -⟩ := pushWrites_eq_some hwrites
        exact absurd hfresh hreceipt

/-- The ledger of a server, and the way its heads have come. -/
structure Server.Advancing (server : Server) : Prop where
  ordered : server.Ordered
  ledger : Ledger server.now
  forward : ∀ old ∈ server.past, Forward old server.now

theorem initial_advancing : Server.initial.Advancing where
  ordered := by
    intro old hold
    cases hold
  ledger := ledger_empty
  forward := by
    intro old hold
    cases hold

/-- A request that selects a descendant of the head goes on from a sound ledger. -/
theorem step_ledger {system : System} {server : Server} {call : Call} (hordered : server.Ordered)
    (hledger : Ledger server.now) : Ledger (step system server call).now ∧
      (SelectsDescendant system server call → Forward server.now (step system server call).now) := by
  have hchange : Change system call (server.seen call.ages) server.now
      (step system server call).now := perform_change
  exact change_ledger hledger hchange (hordered.atAge call.ages.revisions).revisions

theorem step_advancing {system : System} (server : Server) (call : Call) (h : server.Advancing)
    (hselects : SelectsDescendant system server call) : (step system server call).Advancing where
  ordered := step_ordered system call h.ordered
  ledger := (step_ledger h.ordered h.ledger).1
  forward := by
    intro old hold
    rcases List.mem_cons.mp hold with rfl | hold
    · exact (step_ledger h.ordered h.ledger).2 hselects
    · exact (h.forward old hold).trans ((step_ledger h.ordered h.ledger).2 hselects)

/-- In the runs whose applied plans select descendants of the head, no revision is lost and the head
only moves to descendants; one more request keeps this exactly if it meets the condition. No push
moves the head unless it is accepted and answered for the first time. -/
theorem head_moves_forward (system : System) (calls : List Call)
    (hselects : Runs.StepsMeet (step system) (SelectsDescendant system) .initial calls) :
    Sound (Runs.run (step system) .initial calls).now ∧
      (∀ old ∈ (Runs.run (step system) .initial calls).past,
        Forward old (Runs.run (step system) .initial calls).now) ∧
      (∀ call, SelectsDescendant system (Runs.run (step system) .initial calls) call ↔
        Forward (Runs.run (step system) .initial calls).now
          (step system (Runs.run (step system) .initial calls) call).now) ∧
      ∀ call, PushKeepsHeads system (Runs.run (step system) .initial calls) call := by
  have hrun := Runs.run_invariant_of_stepsMeet step_advancing .initial initial_advancing calls
    hselects
  generalize Runs.run (step system) .initial calls = server at hrun ⊢
  refine ⟨hrun.ledger.toSound, hrun.forward, ?_, push_keeps_heads system server⟩
  intro call
  constructor
  · intro hcall
    exact (step_ledger hrun.ordered hrun.ledger).2 hcall
  · intro hstep planId key plan link hadmits haction
    exact selects_of_forward hrun.ledger hstep hadmits haction

/-! ### A run -/

namespace Example

def system : System where
  platform := asciiPlatform
  planDigest := fun value ↦ "sha256:" ++ asciiPlatform.sha256 "plan" value
  timestamp := fun moment ↦ toString moment

/-- One device of one member, and one remote project. -/
def surroundings : Surroundings where
  devices := (Table.empty).set "device" ⟨"account", true⟩
  member := fun _ _ ↦ true
  projection := fun _ _ ↦
    some ⟨"1", ["project.link", "project.unlink", "project.update", "project.read"]⟩
  linkProject := fun _ _ _ ↦ .ok ()
  identities := (Table.empty).set "remote" ⟨"organization", .remote, .active, 1⟩
  repositoryBindings := []

def call (request : Request) : Call :=
  { ctx := ⟨"account", some "device"⟩, surroundings := surroundings, now := 0, ages := {},
    request := request }

def planRequest : ProjectLinkPlanRequest :=
  ⟨"local", "remote", none, "initial", "initial", none, "1", "plan"⟩

def digest (value : Json) : String :=
  (Canonical.digestCanonical asciiPlatform Canonical.revisionDomain value).getD ""

/-- A revision whose content is a text. -/
def revision (text key : String) (parents : List String) (expected : Option String) :
    ProjectRevisionPushRequest :=
  let projection := .object [("name", .string text)]
  let document := .object [
    ("schema_version", naturalJson 1),
    ("remote_project_id", textJson "remote"),
    ("parent_revision_ids", .array (parents.map textJson)),
    ("operation", textJson "upsert"),
    ("projection", projection)]
  ⟨key, digest document, parents, .upsert, digest projection, projection, expected, "1", key⟩

def first : ProjectRevisionPushRequest := revision "first" "push 1" [] none

def second : ProjectRevisionPushRequest :=
  revision "second" "push 2" [first.revisionId] (some first.revisionId)

/-- The device links its project and pushes two revisions. -/
def pushes : List Call :=
  let plan := linkPlanRow ⟨"account", some "device"⟩ "device" "organization" planRequest 0
  let digest := system.planDigest (linkPlanPreimage system plan)
  [call (.linkPlan "organization" planRequest "plan 1"),
    call (.link "organization" ⟨"plan 1", digest, "1", "link"⟩ "link 1"),
    call (.push "organization" "link 1" first false),
    call (.push "organization" "link 1" second false)]

/-- The server after the requests. -/
def reached (calls : List Call) : Server := Runs.run (step system) .initial calls

/-- It then plans from a revision of its own, and applies the plan. -/
def synced (localRevision : String) : List Call :=
  let planned := call (.syncPlan "organization"
    ⟨"link 1", 3, localRevision, second.revisionId, none, "1", "sync"⟩ "plan 2")
  let plan := (reached (pushes ++ [planned])).now.syncPlans.get? "plan 2"
  pushes ++ [planned, call (.applySync "organization" "plan 2" "link 1"
    ⟨(plan.map (·.planDigest)).getD "", 3, "1", "apply"⟩)]

end Example

/-- Only requests to apply a sync plan are under the condition. -/
theorem selects_of_other {system : System} {server : Server} {call : Call}
    (h : ∀ organizationId planId linkId payload,
      call.request ≠ .applySync organizationId planId linkId payload) :
    SelectsDescendant system server call := by
  rintro planId key plan link ⟨organizationId, linkId, payload, hrequest, -⟩ -
  exact absurd hrequest (h organizationId planId linkId payload)

open Example in
theorem head_moves_forward_second :
    Sound (Runs.run (step system) .initial (synced second.revisionId)).now ∧
      (Runs.run (step system) .initial (synced second.revisionId)).now.heads.get?
        ("organization", "remote") = some second.revisionId := by
  have hfacts : ((reached ((synced second.revisionId).take 5)).now.syncPlans.get? "plan 2").map
      (fun plan ↦ (plan.localRevision, plan.remoteRevision)) =
        some (second.revisionId, second.revisionId) ∧
      (Runs.run (step system) .initial (synced second.revisionId)).now.heads.get?
        ("organization", "remote") = some second.revisionId := by
    decide +kernel
  obtain ⟨hplan, hhead⟩ := hfacts
  have hselects : Runs.StepsMeet (step system) (SelectsDescendant system) .initial
      (synced second.revisionId) := by
    refine ⟨selects_of_other nofun, selects_of_other nofun, selects_of_other nofun,
      selects_of_other nofun, selects_of_other nofun, ?_, trivial⟩
    rintro planId key plan link ⟨organizationId, linkId, payload, hrequest, -, hstanding, -⟩ -
    obtain ⟨-, rfl, -, -⟩ := Request.applySync.inj hrequest
    obtain ⟨hget, -⟩ := syncStanding_admitted hstanding
    change (reached ((synced second.revisionId).take 5)).now.syncPlans.get? "plan 2" = _ at hget
    rw [hget, Option.map_some, Option.some.injEq, Prod.mk.injEq] at hplan
    rw [hplan.1, hplan.2]
    exact .refl
  exact ⟨(head_moves_forward system (synced second.revisionId) hselects).1, hhead⟩

open Example in
/-- The head goes back from the second revision to the first. -/
theorem head_rewinds :
    (Runs.run (step system) .initial pushes).now.heads.get? ("organization", "remote") =
        some second.revisionId ∧
      (Runs.run (step system) .initial (synced first.revisionId)).now.heads.get?
        ("organization", "remote") = some first.revisionId ∧
      ¬ Descends (Runs.run (step system) .initial (synced first.revisionId)).now
        ("organization", "remote") first.revisionId second.revisionId := by
  have hfacts : ((Runs.run (step system) .initial pushes).now.heads.get?
        ("organization", "remote") = some second.revisionId ∧
      (Runs.run (step system) .initial (synced first.revisionId)).now.heads.get?
        ("organization", "remote") = some first.revisionId) ∧
      ((Runs.run (step system) .initial (synced first.revisionId)).now.revisions.get?
        (("organization", "remote"), first.revisionId)).map (·.parentRevisionIds) = some [] ∧
      first.revisionId ≠ second.revisionId := by
    decide +kernel
  obtain ⟨⟨hpushed, hback⟩, hparents, hdistinct⟩ := hfacts
  refine ⟨hpushed, hback, ?_⟩
  intro hdescends
  rcases ReflTransGen.cases_head hdescends with hsame | ⟨parent, ⟨row, hrow, hmem⟩, -⟩
  · exact hdistinct hsame
  · rw [hrow, Option.map_some, Option.some.injEq] at hparents
    rw [hparents] at hmem
    cases hmem

end AiStp.Context
