import AiStp.Context.Heads

/-!
# Conflicts of a link

A push that does not go on from the head is stored all the same, and its link keeps the head and the
pushed revision as the two sides of a conflict. A link in conflict takes no other push: what ends the
conflict is one revision with both sides as parents.

Such a revision is refused as stale once another link of the project has moved the head.
`conflict_resolvable_iff` says that a conflict can be ended exactly while the head is still the side
that was recorded as the server's.
-/

set_option autoImplicit false

namespace AiStp.Context

open Relation Library Foundation

/-- The sides that a link in conflict has recorded. The side of the server is missing if the push
found no head. -/
structure Recorded (db : Database) (link : ProjectLink) : Prop where
  client : ∃ client, link.conflictClientRevision = some client ∧
    isStored db link.project client = true
  server : ∀ head, link.conflictServerRevision = some head →
    isStored db link.project head = true ∧ link.conflictClientRevision ≠ some head
  common : ∀ ancestor, link.conflictCommonAncestor = some ancestor →
    ∀ side, some side = link.conflictServerRevision ∨ some side = link.conflictClientRevision →
      Descends db link.project side ancestor

/-- The sides of a conflict are two revisions. -/
structure Paired (db : Database) (link : ProjectLink) : Prop extends Recorded db link where
  headed : link.conflictServerRevision ≠ none

/-- Every link in conflict has recorded its sides. -/
def Conflicted (db : Database) : Prop :=
  ∀ linkId link, db.links.get? linkId = some link → link.state = .conflict → Recorded db link

theorem Recorded.of_keeps {before after : Database} {link : ProjectLink} (h : Recorded before link)
    (hrevisions : before.revisions.Keeps Eq after.revisions) : Recorded after link where
  client := h.client.imp fun _ ⟨hclient, hstored⟩ ↦ ⟨hclient, isStored_of_keeps hrevisions hstored⟩
  server := fun head hhead ↦ (h.server head hhead).imp_left (isStored_of_keeps hrevisions)
  common := fun ancestor hancestor side hside ↦
    (h.common ancestor hancestor side hside).of_keeps hrevisions

section Step

variable {system : System} {call : Call} {seen : Seen} {db after : Database} {linkId : String}
  {link : ProjectLink} {payload : ProjectRevisionPushRequest} {revision : ProjectRevision}

/-- The sides of a new conflict. -/
theorem conflictEffect_recorded {serverHead : Option String}
    (hledger : Sound db) (hseen : seen.revisions.revisions.Keeps Eq db.revisions)
    (hkept : Kept db after) (hrevision : revision.parentRevisionIds = payload.parentRevisionIds)
    (hinsert : db.revisions.insert? (link.project, payload.revisionId) revision =
      some after.revisions)
    (hhead : ∀ head, serverHead = some head → db.heads.get? link.project = some head) :
    Recorded after (conflictEffect seen.revisions db link payload serverHead).link := by
  obtain ⟨hfree, hget⟩ := Table.insert?_eq_some hinsert
  have hpushed : after.revisions.get? (link.project, payload.revisionId) = some revision := by
    rw [hget, if_pos rfl]
  have hstored : ∀ head, serverHead = some head → isStored db link.project head = true :=
    fun head h ↦ hledger.heads _ head (hhead head h)
  refine ⟨⟨payload.revisionId, rfl, isStored_iff.mpr ⟨revision, hpushed⟩⟩, ?_, ?_⟩
  · intro head h
    refine ⟨isStored_of_keeps hkept.revisions (hstored head h), ?_⟩
    intro hsame
    obtain ⟨row, hrow⟩ := isStored_iff.mp (hstored head h)
    rw [← Option.some.inj hsame, hfree] at hrow
    cases hrow
  · intro ancestor hcommon side hside
    -- The search reads the new revision as it is stored, and the others as an earlier state had them.
    have hparent : ∀ start child parent, Descends after link.project start child →
        parent ∈ (if child = payload.revisionId then payload.parentRevisionIds
          else projectParents seen.revisions.revisions link.project child) →
        Descends after link.project start parent := by
      intro start child parent hdescends hmem
      refine hdescends.tail ?_
      split_ifs at hmem with hchild
      · exact ⟨revision, by rw [hchild, hpushed], by rw [hrevision]; exact hmem⟩
      · unfold projectParents at hmem
        split at hmem
        · next row hrow =>
          exact ParentOf.of_keeps hkept.revisions (ParentOf.of_keeps hseen ⟨row, hrow, hmem⟩)
        · cases hmem
    obtain ⟨hleft, hright⟩ :
        Descends after link.project (serverHead.getD payload.revisionId) ancestor ∧
          Descends after link.project payload.revisionId ancestor :=
      LevelSearch.commonAncestor_held (hparent _) (hparent _) .refl .refl hcommon
    rcases hside with hserver | hclient
    · have hside : serverHead = some side := hserver.symm
      rw [hside] at hleft
      exact hleft
    · rw [Option.some.inj hclient]
      exact hright

/-- A new link is not in conflict. -/
theorem link_links (hcall : call.linkPlan? ≠ none) {id : String} {row : ProjectLink}
    (h : (perform system seen db call).links.get? id = some row) :
    db.links.get? id = some row ∨ row.state = .linked := by
  obtain ⟨ctx, surroundings, now, ages, request⟩ := call
  cases request with
  | link organizationId payload newId =>
    unfold perform at h
    split at h
    · next after hafter =>
      obtain ⟨answer, hafter⟩ := map_snd_eq_ok.mp hafter
      unfold createProjectLink at hafter
      simp only [bind_eq_ok] at hafter
      obtain ⟨deviceId, -, -, -, hafter⟩ := hafter
      split at hafter
      · obtain ⟨answer', -, hafter⟩ := bind_eq_ok.mp hafter
        rw [← (Prod.mk.inj (Except.ok.inj hafter)).2] at h
        exact .inl h
      · simp only [bind_eq_ok, storeLink, require_eq_ok, found_eq_ok] at hafter
        obtain ⟨plan, -, -, -, -, -, -, -, -, -, links, ⟨-, -, hinsert⟩, hafter⟩ := hafter
        rw [← (Prod.mk.inj (Except.ok.inj hafter)).2, (Table.insert?_eq_some hinsert).2] at h
        split_ifs at h with hid
        · rw [← Option.some.inj h]
          exact .inr rfl
        · exact .inl h
    · exact .inl h
  | _ => exact absurd rfl hcall

/-- No plan is applied to a link in conflict. -/
theorem Call.Admits.linked {planId key : String} {plan : ProjectSyncPlan}
    (h : call.Admits system db planId key plan link) : link.state = .linked := by
  obtain ⟨organizationId, linkId, payload, -, -, hstanding, -⟩ := h
  unfold syncStanding at hstanding
  simp only [bind_eq_ok] at hstanding
  obtain ⟨deviceId, -, held, -, -, -, row, -, _, hlinked, -, -, -, -, hstanding⟩ := hstanding
  unfold requireLinked at hlinked
  split_ifs at hstanding
  · cases hstanding
  · unfold admitSyncPlan at hstanding
    simp only [bind_eq_ok] at hstanding
    obtain ⟨-, -, -, -, -, -, -, -, -, -, -, -, -, -, -, -, hstanding⟩ := hstanding
    obtain ⟨-, rfl⟩ := SyncStanding.admitted.inj (Except.ok.inj hstanding)
    simpa using hlinked

/-- One request. -/
theorem perform_conflicted (h : Conflicted db) (hledger : Sound db)
    (hseen : seen.revisions.revisions.Keeps Eq db.revisions) :
    Conflicted (perform system seen db call) := by
  have hchange : Change system call seen db (perform system seen db call) := perform_change
  have hkept := change_kept hchange
  have hold : ∀ id row, db.links.get? id = some row → row.state = .conflict →
      Recorded (perform system seen db call) row :=
    fun id row hrow hconflict ↦ (h id row hrow hconflict).of_keeps hkept.revisions
  intro id row hrow hconflict
  generalize hafter : perform system seen db call = after at hchange hkept hold hrow ⊢
  have hwritten : ∀ {held : ProjectLink} {id' : String} {links : Table String ProjectLink},
      (links.update id' held).get? id = some row → held.state ≠ .conflict →
        links.get? id = some row := by
    intro held id' links hget hstate
    rw [Table.get?_update] at hget
    split_ifs at hget with hid
    · obtain ⟨_, -, rfl⟩ := Option.map_eq_some_iff.mp hget
      exact absurd hconflict hstate
    · exact hget
  cases hchange with
  | nothing => exact hold id row hrow hconflict
  | linkPlanned => exact hold id row hrow hconflict
  | linked planId linkId plan link links hcall =>
    have hplan : call.linkPlan? ≠ none := hcall ▸ Option.some_ne_none _
    rcases link_links hplan (hafter ▸ hrow) with hrow | hstate
    · exact hold id row hrow hconflict
    · rw [hstate] at hconflict
      cases hconflict
  | unlinkPlanned => exact hold id row hrow hconflict
  | unlinked => exact hold id row (hwritten hrow nofun) hconflict
  | pushed linkId link payload revision fingerprint body after hlink hopen hrevision hparents
      hexpected hwrites =>
    obtain ⟨written, hwritten', -, -, hinsert, hlinks, -⟩ := pushWrites_eq_some hwrites
    rw [hlinks, Table.get?_update] at hrow
    split_ifs at hrow with hid
    · obtain ⟨_, -, rfl⟩ := Option.map_eq_some_iff.mp hrow
      unfold pushEffect at hwritten'
      split_ifs at hwritten' with hforward
      · obtain ⟨heads, -, rfl⟩ := Option.map_eq_some_iff.mp hwritten'
        cases hconflict
      · rw [← Option.some.inj hwritten']
        exact conflictEffect_recorded hledger hseen hkept hrevision hinsert
          fun head ↦ readHead_eq_some
    · exact hold id row hrow hconflict
  | syncPlanned => exact hold id row hrow hconflict
  | synced planId key plan link hadmits =>
    refine hold id row (hwritten hrow ?_) hconflict
    show link.state ≠ .conflict
    rw [hadmits.linked]
    exact nofun

/-! ### Requests that end a conflict -/

/-- The caller may push through the link. -/
structure Authorised (surroundings : Surroundings) (ctx : AuthContext) (link : ProjectLink)
    (authorizationRevision : String) : Prop where
  device : ∃ deviceId, requireActiveDevice surroundings ctx = .ok deviceId
  member : surroundings.member link.organizationId ctx.accountId = true
  identity : (identityOf surroundings link.organizationId .remote link.remoteProjectId).isSome = true
  capability : requireCapability surroundings ctx link.organizationId "project.update"
    authorizationRevision = .ok ()

/-- A revision that joins the two sides of the conflict of a link: its digests are right, and its
revision and its key are new. -/
structure Joins (system : System) (db : Database) (link : ProjectLink)
    (authorizationRevision : String) (payload : ProjectRevisionPushRequest) : Prop where
  authorization : payload.authorizationRevision = authorizationRevision
  sides : namesConflict link payload = true
  two : payload.parentRevisionIds.length = 2
  expected : payload.expectedHeadRevisionId = link.conflictServerRevision
  named : namesProject payload.projection link.remoteProjectId = true
  content : system.digestCanonical payload.projection = .ok payload.contentDigest
  sealed : system.digestCanonical (projectRevisionDocument payload link.remoteProjectId) =
    .ok payload.revisionId
  printed : ∃ fingerprint, system.digestCanonical payload.dump = .ok fingerprint
  newRevision : db.revisions.get? (link.project, payload.revisionId) = none
  newKey : db.receipts.get? (link.project, payload.idempotencyKey) = none

/-- The request is a push or a resolution through the link, and it is accepted and ends the conflict
of the link. -/
def Resolves (system : System) (server : Server) (call : Call) (linkId : String) : Prop :=
  ∃ organizationId payload resolution receipt after later,
    call.request = .push organizationId linkId payload resolution ∧
    pushProjectRevision system call.surroundings (server.seen call.ages) server.now call.ctx
      organizationId linkId payload resolution = .ok (receipt, after) ∧
    receipt.state = .accepted ∧ after.links.get? linkId = some later ∧ later.state = .linked

/-- The conflict of a link has ended in a head that descends from both sides and from the head before
it. -/
def Ended (before after : Database) (linkId : String) (link : ProjectLink) : Prop :=
  ∃ later head, after.links.get? linkId = some later ∧ later.state = .linked ∧
    after.heads.get? link.project = some head ∧
    ∀ earlier, some earlier = link.conflictServerRevision ∨
        some earlier = link.conflictClientRevision ∨
        some earlier = before.heads.get? link.project →
      Descends after link.project head earlier

/-- The checks of a resolution. -/
theorem checkPush_resolution {head : Option String} :
    checkPush system seen db link payload true = .ok head ↔
      readHead seen.head db link.project = head ∧
      system.digestCanonical payload.projection = .ok payload.contentDigest ∧
      system.digestCanonical (projectRevisionDocument payload link.remoteProjectId) =
        .ok payload.revisionId ∧
      namesProject payload.projection link.remoteProjectId = true ∧
      (∀ parent ∈ payload.parentRevisionIds,
        isStored seen.revisions link.project parent = true) ∧
      payload.expectedHeadRevisionId.all (isStored seen.revisions link.project) = true ∧
      link.state = .conflict ∧ link.conflictServerRevision ≠ none ∧
      link.conflictClientRevision ≠ none ∧ head = link.conflictServerRevision ∧
      payload.expectedHeadRevisionId = link.conflictServerRevision ∧
      namesConflict link payload = true ∧ payload.parentRevisionIds.length = 2 := by
  simp only [checkPush, checkPushed, checkResolution, bind_eq_ok, require_eq_ok, if_true,
    decide_eq_true_eq, List.all_eq_true]
  constructor
  · rintro ⟨content, hcontent, revision, hrevision, -, hnamed, -, ⟨rfl, rfl⟩, -, hparents, -,
      hexpectedStored, -, ⟨-, ⟨hstate, hserver, hclient⟩, -, hhead, -, hexpected, -, hsides, -, htwo,
      -⟩, hread⟩
    obtain rfl := Except.ok.inj hread
    exact ⟨rfl, hcontent, hrevision, hnamed, hparents, hexpectedStored, hstate, hserver, hclient,
      hhead, hexpected, hsides, htwo⟩
  · rintro ⟨rfl, hcontent, hrevision, hnamed, hparents, hexpectedStored, hstate, hserver, hclient,
      hhead, hexpected, hsides, htwo⟩
    refine ⟨_, hcontent, _, hrevision, (), hnamed, (), ⟨rfl, rfl⟩, (), hparents, (),
      hexpectedStored, (), ⟨(), ⟨hstate, hserver, hclient⟩, (), hhead, (), hexpected, (), hsides,
      (), htwo, ?_⟩, rfl⟩
    rw [hhead]
    exact ⟨hserver, hexpected⟩

theorem namesConflict_iff :
    namesConflict link payload = true ↔ ∀ side, side ∈ payload.parentRevisionIds.map some ↔
      side = link.conflictServerRevision ∨ side = link.conflictClientRevision := by
  unfold namesConflict
  rw [decide_eq_true_eq, Finset.ext_iff]
  simp only [List.mem_toFinset, Finset.mem_insert, Finset.mem_singleton]

theorem mem_sides (h : namesConflict link payload = true) {side : String}
    (hside : some side = link.conflictServerRevision ∨ some side = link.conflictClientRevision) :
    side ∈ payload.parentRevisionIds := by
  obtain ⟨parent, hparent, hsame⟩ := List.mem_map.mp ((namesConflict_iff.mp h (some side)).mpr hside)
  rwa [Option.some.inj hsame] at hparent

variable {surroundings : Surroundings} {ctx : AuthContext} {organizationId : String}
  {answer : ProjectRevisionReceipt}

/-- A push through a link in conflict that is answered repeats an earlier answer, or joins the two
sides while the head is the server's. -/
theorem push_conflict {resolution : Bool} (hlink : db.links.get? linkId = some link)
    (hconflict : link.state = .conflict)
    (h : pushProjectRevision system surroundings seen db ctx organizationId linkId payload
      resolution = .ok (answer, after)) :
    after = db ∨ db.heads.get? link.project = link.conflictServerRevision ∧
      Joins system db link payload.authorizationRevision payload ∧
      requireCapability surroundings ctx link.organizationId "project.update"
        payload.authorizationRevision = .ok () ∧
      Ended db after linkId link := by
  rcases pushProjectRevision_eq_ok h with rfl | ⟨row, revision, fingerprint, hrow, -, hrevision, -, -,
    hwrites, hlinked, hcapability, hfingerprint, hchecked⟩
  · exact .inl rfl
  · right
    rw [hlink] at hrow
    obtain rfl := Option.some.inj hrow
    have hresolution : resolution = true := by
      simpa [requireLinked, hconflict] using hlinked
    subst hresolution
    obtain ⟨-, hcontent, hsealed, hnamed, -, -, -, hserver, -, hread, hexpected, hsides, htwo⟩ :=
      checkPush_resolution.mp hchecked
    obtain ⟨head, hhead⟩ := Option.ne_none_iff_exists'.mp hserver
    rw [hhead] at hread
    have hcurrent := readHead_eq_some hread
    obtain ⟨written, hwritten, -, hfree, hinsert, hlinks, hheads, -⟩ := pushWrites_eq_some hwrites
    obtain ⟨hnew, hrevisions⟩ := Table.insert?_eq_some hinsert
    have hforward : isFastForward (readHead seen.head db link.project) payload = true := by
      rw [hread]
      exact decide_eq_true ⟨hexpected.trans hhead, mem_sides hsides (.inl hhead.symm)⟩
    unfold pushEffect at hwritten
    rw [if_pos hforward] at hwritten
    obtain ⟨heads, haccepted, hwritten⟩ := Option.map_eq_some_iff.mp hwritten
    refine ⟨hcurrent.trans hhead.symm,
      ⟨rfl, hsides, htwo, hexpected, hnamed, hcontent, hsealed, ⟨fingerprint, hfingerprint⟩, hnew,
        hfree⟩, hcapability, written.link, payload.revisionId, ?_, ?_, ?_, ?_⟩
    · rw [hlinks]
      exact Table.get?_update_self hlink
    · rw [← hwritten]
    · rw [hheads, ← hwritten, (acceptedHeads_eq_some haccepted).2, if_pos rfl]
    · intro earlier hearlier
      have hmem : earlier ∈ payload.parentRevisionIds := by
        rcases hearlier with hside | hside | hside
        · exact mem_sides hsides (.inl hside)
        · exact mem_sides hsides (.inr hside)
        · exact mem_sides hsides (.inl (by rw [hside, hcurrent, hhead]))
      exact .single ⟨revision, by rw [hrevisions, if_pos rfl], by rw [hrevision]; exact hmem⟩

theorem exists_insert? {Key Row : Type} [DecidableEq Key] {table : Table Key Row} {key : Key}
    {row : Row} (h : table.get? key = none) : ∃ after, table.insert? key row = some after := by
  unfold Table.insert?
  rw [dif_neg (Table.get?_eq_none.mp h)]
  exact ⟨_, rfl⟩

/-- While the head is the side of the server, every revision that joins the sides is accepted. -/
theorem join_accepted {authorizationRevision : String} (hlink : db.links.get? linkId = some link)
    (hconflict : link.state = .conflict) (hrecorded : Recorded db link) (hledger : Ledger db)
    (hauthorised : Authorised surroundings ctx link authorizationRevision)
    (hhead : db.heads.get? link.project = link.conflictServerRevision)
    (hjoins : Joins system db link authorizationRevision payload) :
    ∃ answer after later, pushProjectRevision system surroundings (Seen.at db) db ctx
        link.organizationId linkId payload true = .ok (answer, after) ∧
      answer.state = .accepted ∧ after.links.get? linkId = some later ∧ later.state = .linked := by
  obtain ⟨deviceId, hdevice⟩ := hauthorised.device
  obtain ⟨fingerprint, hprinted⟩ := hjoins.printed
  obtain ⟨client, hclient, hstored⟩ := hrecorded.client
  obtain ⟨head, hcurrent⟩ := Option.ne_none_iff_exists'.mp (hledger.headed _ client hstored)
  have hserver : link.conflictServerRevision = some head := hhead.symm.trans hcurrent
  have hmember : linkForMember surroundings db.links ctx link.organizationId linkId = .ok link := by
    unfold linkForMember
    rw [found_eq_ok, Option.filter_eq_some_iff]
    exact ⟨hlink, decide_eq_true ⟨rfl, hauthorised.member, hauthorised.identity⟩⟩
  have hread : readHead db db link.project = some head := by
    unfold readHead
    rw [hcurrent]
  have hexpected : payload.expectedHeadRevisionId = some head := hjoins.expected.trans hserver
  have hchecked : checkPush system (Seen.at db) db link payload true = .ok (some head) := by
    refine checkPush_resolution.mpr ⟨hread, hjoins.content, hjoins.sealed, hjoins.named, ?_, ?_,
      hconflict, ?_, ?_, hserver.symm, hjoins.expected, hjoins.sides, hjoins.two⟩
    · intro parent hmem
      rcases (namesConflict_iff.mp hjoins.sides (some parent)).mp (List.mem_map_of_mem hmem) with
        hside | hside
      · exact (hrecorded.server parent hside.symm).1
      · rw [hclient] at hside
        rw [Option.some.inj hside]
        exact hstored
    · rw [hexpected]
      exact (hrecorded.server head hserver).1
    · rw [hserver]
      exact Option.some_ne_none _
    · rw [hclient]
      exact Option.some_ne_none _
  have hforward : isFastForward (some head) payload = true :=
    decide_eq_true ⟨hexpected, mem_sides hjoins.sides (.inl hserver.symm)⟩
  obtain ⟨effect, heffect, hlinked, haccepted⟩ : ∃ effect,
      pushEffect db db link payload (some head) = some effect ∧ effect.link.state = .linked ∧
        effect.body.state = .accepted := by
    simp [pushEffect, hforward, acceptedEffect, acceptedHeads]
  obtain ⟨revisions, hrevisions⟩ : ∃ revisions,
      db.revisions.insert? (link.project, payload.revisionId)
        ⟨payload.parentRevisionIds, payload.operation, payload.contentDigest, payload.projection,
          ctx.accountId, deviceId, payload.eventId⟩ = some revisions :=
    exists_insert? hjoins.newRevision
  obtain ⟨receipts, hreceipts⟩ : ∃ receipts,
      db.receipts.insert? (link.project, payload.idempotencyKey) ⟨fingerprint, effect.body⟩ =
        some receipts :=
    exists_insert? hjoins.newKey
  refine ⟨effect.body, { db with
    links := db.links.update linkId effect.link
    revisions := revisions
    heads := effect.heads
    receipts := receipts }, effect.link, ?_, haccepted, Table.get?_update_self hlink, hlinked⟩
  simp only [pushProjectRevision, bind_eq_ok]
  refine ⟨deviceId, hdevice, link, hmember, (), ?_, (), ?_, fingerprint, hprinted, ?_⟩
  · simp [requireLinked, hconflict]
  · rw [hjoins.authorization]
    exact hauthorised.capability
  · simp only [Seen.at, hjoins.newKey, bind_eq_ok]
    refine ⟨some head, hchecked, ?_⟩
    simp [pushWrites, heffect, hrevisions, hreceipts]

/-- A request that ends the conflict of a link joins its sides. -/
theorem resolves_joins {server : Server} (hlink : server.now.links.get? linkId = some link)
    (hconflict : link.state = .conflict) (h : Resolves system server call linkId) :
    server.now.heads.get? link.project = link.conflictServerRevision ∧
      ∃ payload, Joins system server.now link payload.authorizationRevision payload ∧
        requireCapability call.surroundings call.ctx link.organizationId "project.update"
          payload.authorizationRevision = .ok () := by
  obtain ⟨organizationId, payload, resolution, answer, after, later, -, hpush, -, hlater, hlinked⟩ := h
  rcases push_conflict hlink hconflict hpush with rfl | ⟨hhead, hjoins, hcapability, -⟩
  · rw [hlink] at hlater
    rw [← Option.some.inj hlater, hconflict] at hlinked
    cases hlinked
  · exact ⟨hhead, payload, hjoins, hcapability⟩

/-- The projection of the caller gives its revision. -/
theorem capability_revision {capability first second : String}
    (hfirst : requireCapability surroundings ctx organizationId capability first = .ok ())
    (hsecond : requireCapability surroundings ctx organizationId capability second = .ok ()) :
    first = second := by
  unfold requireCapability at hfirst hsecond
  simp only [bind_eq_ok, require_eq_ok, decide_eq_true_eq] at hfirst hsecond
  obtain ⟨projection, hprojection, -, hfirst, -⟩ := hfirst
  obtain ⟨other, hother, -, hsecond, -⟩ := hsecond
  rw [hprojection] at hother
  rw [hfirst, hsecond, Except.ok.inj hother]

end Step

/-! ### Runs -/

/-- A state of the server that requests lead to. -/
def Reached (system : System) (server : Server) : Prop :=
  ∃ calls, server = Runs.run (step system) .initial calls

theorem reached_standing {system : System} {server : Server} (h : Reached system server) :
    server.Ordered ∧ Ledger server.now ∧ Conflicted server.now := by
  obtain ⟨calls, rfl⟩ := h
  refine Runs.run_invariant (motive := fun server ↦
    server.Ordered ∧ Ledger server.now ∧ Conflicted server.now) ?_ Server.initial ?_ calls
  · rintro server call ⟨hordered, hledger, hconflicted⟩
    exact ⟨step_ordered system call hordered, (step_ledger hordered hledger).1,
      perform_conflicted hconflicted hledger.toSound (hordered.atAge call.ages.revisions).revisions⟩
  · exact ⟨initial_advancing.ordered, ledger_empty, nofun⟩

/-- In every state that requests lead to, a link in conflict has recorded stored sides and an ancestor
of them. The sides are two and a caller with the right to push can end the conflict exactly while the
head is the side of the server and some revision joins the sides. What is accepted through the link
ends the conflict in a head that descends from both sides and from the head before it. -/
theorem conflict_resolvable_iff {system : System} {server : Server} {linkId : String}
    {link : ProjectLink} {surroundings : Surroundings} {ctx : AuthContext}
    {authorizationRevision : String} (hreached : Reached system server)
    (hlink : server.now.links.get? linkId = some link) (hconflict : link.state = .conflict)
    (hauthorised : Authorised surroundings ctx link authorizationRevision) :
    ((Paired server.now link ∧ ∃ call : Call, call.ctx = ctx ∧ call.surroundings = surroundings ∧
        Resolves system server call linkId) ↔
      server.now.heads.get? link.project = link.conflictServerRevision ∧
        ∃ payload, Joins system server.now link authorizationRevision payload) ∧
    Recorded server.now link ∧
    ∀ (call : Call) organizationId payload resolution answer after,
      pushProjectRevision system call.surroundings (server.seen call.ages) server.now call.ctx
        organizationId linkId payload resolution = .ok (answer, after) →
      after = server.now ∨ Ended server.now after linkId link := by
  obtain ⟨-, hledger, hconflicted⟩ := reached_standing hreached
  have hrecorded := hconflicted linkId link hlink hconflict
  refine ⟨⟨?_, ?_⟩, hrecorded, ?_⟩
  · rintro ⟨-, call, rfl, rfl, hresolves⟩
    obtain ⟨hhead, payload, hjoins, hcapability⟩ := resolves_joins hlink hconflict hresolves
    rw [capability_revision hcapability hauthorised.capability] at hjoins
    exact ⟨hhead, payload, hjoins⟩
  · rintro ⟨hhead, payload, hjoins⟩
    obtain ⟨client, hclient, hstored⟩ := hrecorded.client
    obtain ⟨answer, after, later, hpush, haccepted, hlater, hlinked⟩ :=
      join_accepted hlink hconflict hrecorded hledger hauthorised hhead hjoins
    refine ⟨⟨hrecorded, ?_⟩, ⟨ctx, surroundings, 0, {}, .push link.organizationId linkId payload true⟩,
      rfl, rfl, link.organizationId, payload, true, answer, after, later, rfl, hpush, haccepted,
      hlater, hlinked⟩
    rw [← hhead]
    exact hledger.headed _ client hstored
  · intro call organizationId payload resolution answer after hpush
    exact (push_conflict hlink hconflict hpush).imp_right fun h ↦ h.2.2.2

namespace Example

/-- The device links a local project to the remote project. -/
def links (localProjectId planId linkId : String) : List Call :=
  let request := { planRequest with localProjectId := localProjectId, idempotencyKey := planId }
  let plan := linkPlanRow ⟨"account", some "device"⟩ "device" "organization" request 0
  [call (.linkPlan "organization" request planId),
    call (.link "organization" ⟨planId, system.planDigest (linkPlanPreimage system plan), "1", linkId⟩
      linkId)]

def other : ProjectRevisionPushRequest := revision "other" "push 3" [] none

/-- Two first revisions are pushed through two links of one project. -/
def diverged : List Call :=
  links "local" "plan 1" "link 1" ++ links "local 2" "plan 2" "link 2" ++
    [call (.push "organization" "link 1" first false),
      call (.push "organization" "link 2" other false)]

/-- The first link goes on. -/
def moved : List Call := diverged ++ [call (.push "organization" "link 1" second false)]

/-- The revision that joins the sides of the second link. -/
def join : ProjectRevisionPushRequest :=
  revision "joined" "push 4" [first.revisionId, other.revisionId] (some first.revisionId)

theorem toOption_eq_some {Value : Type} {result : Except ApiError Value} {value : Value} :
    result.toOption = some value ↔ result = .ok value := by
  cases result <;> simp [Except.toOption]

theorem authorised {link : ProjectLink} (horganization : link.organizationId = "organization")
    (hremote : link.remoteProjectId = "remote") :
    Authorised surroundings ⟨"account", some "device"⟩ link "1" where
  device := ⟨"device", rfl⟩
  member := rfl
  identity := by
    rw [horganization, hremote]
    rfl
  capability := by
    rw [horganization]
    rfl

end Example

open Example in
theorem conflict_resolvable_diverged :
    ∃ call, Resolves system (reached diverged) call "link 2" := by
  have hlinks : ((reached diverged).now.links.get? "link 2").any (fun link ↦
      link.state = .conflict ∧ link.organizationId = "organization" ∧
        link.remoteProjectId = "remote" ∧ namesConflict link join ∧
        join.expectedHeadRevisionId = link.conflictServerRevision ∧
        (reached diverged).now.heads.get? ("organization", "remote") =
          link.conflictServerRevision) = true := by
    decide +kernel
  have hdigests : (system.digestCanonical join.projection).toOption = some join.contentDigest ∧
      (system.digestCanonical (projectRevisionDocument join "remote")).toOption =
        some join.revisionId ∧
      ((system.digestCanonical join.dump).toOption.isSome = true ∧
        join.parentRevisionIds.length = 2 ∧ namesProject join.projection "remote" = true) ∧
      ((reached diverged).now.revisions.get? (("organization", "remote"), join.revisionId)).isNone =
          true ∧
        ((reached diverged).now.receipts.get? (("organization", "remote"),
          join.idempotencyKey)).isNone = true := by
    decide +kernel
  obtain ⟨link, hlink, hfacts⟩ := (Option.any_eq_true ..).mp hlinks
  obtain ⟨hconflict, horganization, hremote, hsides, hexpected, hhead⟩ := of_decide_eq_true hfacts
  have hproject : link.project = ("organization", "remote") := by
    unfold ProjectLink.project
    rw [horganization, hremote]
  rw [← hproject] at hhead hdigests
  obtain ⟨hcontent, hsealed, ⟨hprinted, htwo, hnamed⟩, hnewRevision, hnewKey⟩ := hdigests
  rw [← hremote] at hsealed hnamed
  have hjoins : Joins system (reached diverged).now link "1" join :=
    ⟨rfl, hsides, htwo, hexpected, hnamed, toOption_eq_some.mp hcontent,
      toOption_eq_some.mp hsealed,
      (Option.isSome_iff_exists.mp hprinted).imp fun _ ↦ toOption_eq_some.mp,
      Option.isNone_iff_eq_none.mp hnewRevision, Option.isNone_iff_eq_none.mp hnewKey⟩
  obtain ⟨-, call, -, -, hresolves⟩ := (conflict_resolvable_iff ⟨diverged, rfl⟩ hlink hconflict
    (authorised horganization hremote)).1.mpr ⟨hhead, join, hjoins⟩
  exact ⟨call, hresolves⟩

open Example in
/-- The first link has moved the head, and nothing ends the conflict of the second link any more. -/
theorem not_conflict_resolvable :
    ¬ ∀ (system : System) (server : Server) (linkId : String) (link : ProjectLink)
      (surroundings : Surroundings) (ctx : AuthContext) (authorizationRevision : String),
      Reached system server → server.now.links.get? linkId = some link → link.state = .conflict →
      Authorised surroundings ctx link authorizationRevision →
      ∃ call, Resolves system server call linkId := by
  intro hresolvable
  have hlinks : ((reached moved).now.links.get? "link 2").any (fun link ↦
      link.state = .conflict ∧ link.organizationId = "organization" ∧
        link.remoteProjectId = "remote" ∧
        (reached moved).now.heads.get? ("organization", "remote") ≠
          link.conflictServerRevision) = true := by
    decide +kernel
  obtain ⟨link, hlink, hfacts⟩ := (Option.any_eq_true ..).mp hlinks
  obtain ⟨hconflict, horganization, hremote, hhead⟩ := of_decide_eq_true hfacts
  obtain ⟨call, hresolves⟩ := hresolvable system (reached moved) "link 2" link surroundings
    ⟨"account", some "device"⟩ "1" ⟨moved, rfl⟩ hlink hconflict (authorised horganization hremote)
  refine hhead ?_
  rw [← (resolves_joins hlink hconflict hresolves).1]
  unfold ProjectLink.project
  rw [horganization, hremote]

end AiStp.Context
