import AiStp.Context.Plans
import AiStp.Library.Runs

/-!
# Requests in any order

A request is one transaction. The rows that it decides on and writes are locked until it commits, so
requests are taken one after another; what a request reads without a lock may come from any earlier
commit (`Call.ages`). A refused request leaves the database as it was.

`Change` lists what a request can write, with what its checks have established: `effect_change` is
the only proof that looks into the requests, and `Kept` says what no request ever changes.
-/

set_option autoImplicit false

namespace AiStp.Context

open Foundation Library

inductive Request where
  | linkPlan (organizationId : String) (payload : ProjectLinkPlanRequest) (newId : String)
  | link (organizationId : String) (payload : ProjectLinkRequest) (newId : String)
  | unlinkPlan (organizationId : String) (payload : ProjectUnlinkPlanRequest) (newId : String)
  | unlink (organizationId linkId : String) (payload : ProjectUnlinkRequest)
  | push (organizationId linkId : String) (payload : ProjectRevisionPushRequest)
      (resolution : Bool)
  | syncPlan (organizationId : String) (payload : ProjectSyncPlanRequest) (newId : String)
  | applySync (organizationId planId linkId : String) (payload : ProjectSyncApplyRequest)

/-- How many commits back the reads without a lock reach. -/
structure Ages where
  replay : Nat := 0
  links : Nat := 0
  head : Nat := 0
  revisions : Nat := 0

structure Call where
  ctx : AuthContext
  surroundings : Surroundings
  now : Int
  ages : Ages
  request : Request

/-- The committed states, the newest first. -/
structure Server where
  now : Database
  past : List Database

def Server.initial : Server := ⟨.empty, []⟩

def Server.atAge (server : Server) (age : Nat) : Database :=
  (server.now :: server.past).getD age server.now

def Server.seen (server : Server) (ages : Ages) : Seen where
  replay := server.atAge ages.replay
  links := server.atAge ages.links
  head := server.atAge ages.head
  revisions := server.atAge ages.revisions

theorem Server.atAge_mem (server : Server) (age : Nat) :
    server.atAge age ∈ server.now :: server.past := by
  unfold Server.atAge
  rw [List.getD_eq_getElem?_getD]
  cases hage : (server.now :: server.past)[age]? with
  | none => exact List.mem_cons_self
  | some db => exact List.mem_of_getElem? hage

/-- The database after a request that is not refused. -/
def effect (system : System) (seen : Seen) (db : Database) (call : Call) :
    Except ApiError Database :=
  match call.request with
  | .linkPlan organizationId payload newId =>
    (createProjectLinkPlan system call.surroundings seen db call.ctx organizationId payload newId
      call.now).map Prod.snd
  | .link organizationId payload newId =>
    (createProjectLink system call.surroundings seen db call.ctx organizationId payload newId
      call.now).map Prod.snd
  | .unlinkPlan organizationId payload newId =>
    (createProjectUnlinkPlan system call.surroundings seen db call.ctx organizationId payload newId
      call.now).map Prod.snd
  | .unlink organizationId linkId payload =>
    (unlinkProjectLink system call.surroundings db call.ctx organizationId linkId payload
      call.now).map Prod.snd
  | .push organizationId linkId payload resolution =>
    (pushProjectRevision system call.surroundings seen db call.ctx organizationId linkId payload
      resolution).map Prod.snd
  | .syncPlan organizationId payload newId =>
    (createSyncPlan system call.surroundings seen db call.ctx organizationId payload newId
      call.now).map Prod.snd
  | .applySync organizationId planId linkId payload =>
    (applySyncPlan system call.surroundings db call.ctx organizationId planId linkId payload
      call.now).map Prod.snd

/-- The database after a request. -/
def perform (system : System) (seen : Seen) (db : Database) (call : Call) : Database :=
  match effect system seen db call with
  | .ok after => after
  | .error _ => db

def step (system : System) (server : Server) (call : Call) : Server where
  now := perform system (server.seen call.ages) server.now call
  past := server.now :: server.past

/-! ### What a request can write -/

/-- The link plan that a request confirms. -/
def Call.linkPlan? (call : Call) : Option String :=
  match call.request with
  | .link _ payload _ => some payload.planId
  | _ => none

/-- The unlink plan that a request confirms. -/
def Call.unlinkPlan? (call : Call) : Option String :=
  match call.request with
  | .unlink _ _ payload => some payload.planId
  | _ => none

/-- The link is the one that a plan promised to its caller. -/
def ProjectLink.isOfPlan (link : ProjectLink) (planId : String) (plan : ProjectLinkPlan) : Prop :=
  link.organizationId = plan.organizationId ∧ link.actorAccountId = plan.actorAccountId ∧
  link.deviceId = plan.deviceId ∧ link.planId = planId ∧ link.planDigest = plan.planDigest ∧
  link.localProjectId = plan.localProjectId ∧ link.remoteProjectId = plan.remoteProjectId ∧
  link.providerProjectId = plan.providerProjectId

/-- The unlink plan names the projects of the link. -/
def ProjectUnlinkPlan.isOfLink (plan : ProjectUnlinkPlan) (link : ProjectLink) : Prop :=
  link.organizationId = plan.organizationId ∧ link.localProjectId = plan.localProjectId ∧
  link.remoteProjectId = plan.remoteProjectId ∧ link.providerProjectId = plan.providerProjectId

/-- A request that applies a plan to a link, with every check passed. -/
def Call.Admits (system : System) (db : Database) (call : Call) (planId key : String)
    (plan : ProjectSyncPlan) (link : ProjectLink) : Prop :=
  ∃ organizationId linkId payload, call.request = .applySync organizationId planId linkId payload ∧
    key = payload.idempotencyKey ∧
    syncStanding system call.surroundings db call.ctx organizationId planId linkId payload
      call.now = .ok (.admitted plan link) ∧
    freeApplyKey db payload.idempotencyKey = true

inductive Change (system : System) (call : Call) (seen : Seen) (db : Database) :
    Database → Prop where
  | nothing : Change system call seen db db
  | linkPlanned (planId : String) (plan : ProjectLinkPlan)
      (linkPlans : Table String ProjectLinkPlan) (hstate : plan.state = .ready)
      (hlink : plan.linkId = none) (hinsert : db.linkPlans.insert? planId plan = some linkPlans) :
      Change system call seen db { db with linkPlans := linkPlans }
  | linked (planId linkId : String) (plan : ProjectLinkPlan) (link : ProjectLink)
      (links : Table String ProjectLink) (hcall : call.linkPlan? = some planId)
      (hplan : db.linkPlans.get? planId = some plan) (hstate : plan.state = .ready)
      (hnow : call.now < plan.expiresAt) (hlink : link.isOfPlan planId plan)
      (hfree : findOpenLink db link.organizationId link.localProjectId = none)
      (hinsert : db.links.insert? linkId link = some links) :
      Change system call seen db { db with
        links := links
        linkPlans := db.linkPlans.update planId
          { plan with state := .applied, linkId := some linkId } }
  | unlinkPlanned (planId : String) (plan : ProjectUnlinkPlan)
      (unlinkPlans : Table String ProjectUnlinkPlan) (link : ProjectLink)
      (hstate : plan.state = .ready) (hkey : plan.confirmationIdempotencyKey = none)
      (hlink : seen.links.links.get? plan.linkId = some link) (hof : plan.isOfLink link)
      (hinsert : db.unlinkPlans.insert? planId plan = some unlinkPlans) :
      Change system call seen db { db with unlinkPlans := unlinkPlans }
  | unlinked (planId key : String) (plan : ProjectUnlinkPlan) (link : ProjectLink)
      (hcall : call.unlinkPlan? = some planId)
      (hplan : db.unlinkPlans.get? planId = some plan) (hstate : plan.state = .ready)
      (hnow : call.now < plan.expiresAt) (hlink : db.links.get? plan.linkId = some link)
      (hopen : link.isOpen = true) (hrevision : link.revision = plan.expectedLinkRevision)
      (hlocal : link.localRevision = plan.localRevision)
      (hremote : link.remoteRevision = plan.remoteRevision)
      (hprovider : link.providerRevision = plan.providerRevision) :
      Change system call seen db (unlinkWrites db planId plan link key).2
  | pushed (linkId : String) (link : ProjectLink) (payload : ProjectRevisionPushRequest)
      (revision : ProjectRevision) (fingerprint : String) (body : ProjectRevisionReceipt)
      (after : Database) (hlink : db.links.get? linkId = some link) (hopen : link.isOpen = true)
      (hrevision : revision.parentRevisionIds = payload.parentRevisionIds)
      (hparents : ∀ parent ∈ payload.parentRevisionIds,
        isStored seen.revisions link.project parent = true)
      (hexpected : ∀ head, payload.expectedHeadRevisionId = some head →
        isStored seen.revisions link.project head = true)
      (hwrites : pushWrites seen.revisions db linkId link payload
        (readHead seen.head db link.project) revision fingerprint = some (body, after)) :
      Change system call seen db after
  | syncPlanned (planId : String) (plan : ProjectSyncPlan) (link : ProjectLink)
      (syncPlans : Table String ProjectSyncPlan) (hlink : db.links.get? plan.linkId = some link)
      (hlocal : plan.action = .localToRemote →
        isStored seen.revisions link.project plan.localRevision = true)
      (hremote : plan.action = .remoteToLocal →
        isStored seen.revisions link.project plan.remoteRevision = true)
      (hinsert : db.syncPlans.insert? planId plan = some syncPlans) :
      Change system call seen db { db with syncPlans := syncPlans }
  | synced (planId key : String) (plan : ProjectSyncPlan) (link : ProjectLink)
      (hadmits : call.Admits system db planId key plan link)
      (hplan : db.syncPlans.get? planId = some plan)
      (hlink : db.links.get? plan.linkId = some link) (hopen : link.isOpen = true)
      (hhead : (db.heads.get? link.project).getD "initial" = plan.remoteRevision) :
      Change system call seen db (syncWrites db planId plan link key).2

variable {payload : ProjectRevisionPushRequest} {link : ProjectLink} {linkId : String}

section Inversion

variable {system : System} {seen : Seen} {db after : Database} {call : Call}

theorem map_snd_eq_ok {First Second : Type} {result : Except ApiError (First × Second)}
    {second : Second} :
    result.map Prod.snd = .ok second ↔ ∃ first, result = .ok (first, second) := by
  cases result with
  | error error => simp [Except.map]
  | ok value => simp [Except.map, Prod.ext_iff]

variable {organizationId : String}

private theorem linkPlan_change {newId : String} {payload : ProjectLinkPlanRequest}
    {answer : String × ProjectLinkPlan}
    (h : createProjectLinkPlan system call.surroundings seen db call.ctx organizationId payload
      newId call.now = .ok (answer, after)) : Change system call seen db after := by
  unfold createProjectLinkPlan at h
  simp only [bind_eq_ok] at h
  obtain ⟨deviceId, -, -, -, h⟩ := h
  split at h
  · obtain ⟨answer', -, h⟩ := bind_eq_ok.mp h
    obtain ⟨-, rfl⟩ := Prod.mk.inj (Except.ok.inj h)
    exact .nothing
  · simp only [bind_eq_ok, storeLinkPlan, require_eq_ok, found_eq_ok] at h
    obtain ⟨-, -, -, -, -, -, -, -, linkPlans, hinsert, h⟩ := h
    obtain ⟨-, rfl⟩ := Prod.mk.inj (Except.ok.inj h)
    exact .linkPlanned newId _ linkPlans rfl rfl hinsert

private theorem link_change {newId : String} {payload : ProjectLinkRequest}
    {answer : String × ProjectLink} (hcall : call.linkPlan? = some payload.planId)
    (h : createProjectLink system call.surroundings seen db call.ctx organizationId payload
      newId call.now = .ok (answer, after)) : Change system call seen db after := by
  unfold createProjectLink at h
  simp only [bind_eq_ok] at h
  obtain ⟨deviceId, -, -, -, h⟩ := h
  split at h
  · obtain ⟨answer', -, h⟩ := bind_eq_ok.mp h
    obtain ⟨-, rfl⟩ := Prod.mk.inj (Except.ok.inj h)
    exact .nothing
  · simp only [bind_eq_ok, checkLinkPlan, storeLink, require_eq_ok, found_eq_ok,
      decide_eq_true_eq] at h
    obtain ⟨plan, hplan, -, ⟨-, horganization, -, hcaller, -, -, -, -, -, -, hready⟩, -, -, -, -,
      -, -, links, ⟨-, hfree, hinsert⟩, h⟩ := h
    obtain ⟨-, rfl⟩ := Prod.mk.inj (Except.ok.inj h)
    refine .linked payload.planId newId plan _ links hcall hplan hready.1 hready.2 ?_ ?_ hinsert
    · exact ⟨horganization.symm, hcaller.1.symm, hcaller.2.symm, rfl, rfl, rfl, rfl, rfl⟩
    · exact Option.isNone_iff_eq_none.mp hfree.2

private theorem unlinkPlan_change {newId : String} {payload : ProjectUnlinkPlanRequest}
    {answer : String × ProjectUnlinkPlan}
    (h : createProjectUnlinkPlan system call.surroundings seen db call.ctx organizationId payload
      newId call.now = .ok (answer, after)) : Change system call seen db after := by
  unfold createProjectUnlinkPlan at h
  simp only [bind_eq_ok] at h
  obtain ⟨deviceId, -, link, hlink, -, -, h⟩ := h
  obtain ⟨hfound, horganization⟩ := linkForMember_eq_ok hlink
  split at h
  · obtain ⟨answer', -, h⟩ := bind_eq_ok.mp h
    obtain ⟨-, rfl⟩ := Prod.mk.inj (Except.ok.inj h)
    exact .nothing
  · simp only [bind_eq_ok, storeUnlinkPlan, require_eq_ok, found_eq_ok] at h
    obtain ⟨-, -, -, -, -, -, unlinkPlans, hinsert, h⟩ := h
    obtain ⟨-, rfl⟩ := Prod.mk.inj (Except.ok.inj h)
    exact .unlinkPlanned newId _ unlinkPlans link rfl rfl hfound
      ⟨horganization, rfl, rfl, rfl⟩ hinsert

private theorem unlink_change {payload : ProjectUnlinkRequest} {answer : ProjectLink}
    (hcall : call.unlinkPlan? = some payload.planId)
    (h : unlinkProjectLink system call.surroundings db call.ctx organizationId linkId payload
      call.now = .ok (answer, after)) : Change system call seen db after := by
  unfold unlinkProjectLink at h
  simp only [bind_eq_ok, found_eq_ok] at h
  obtain ⟨deviceId, -, plan, hplan, -, -, link, hlink, -, -, -, -, -, -, h⟩ := h
  split_ifs at h with hrepeated
  · obtain ⟨-, rfl⟩ := Prod.mk.inj (Except.ok.inj h)
    exact .nothing
  · simp only [bind_eq_ok, checkUnlink, require_eq_ok, decide_eq_true_eq] at h
    obtain ⟨-, ⟨-, hready, -, hopen, hsame⟩, -, -, h⟩ := h
    have hafter : after = (unlinkWrites db payload.planId plan link payload.idempotencyKey).2 :=
      (congrArg Prod.snd (Except.ok.inj h)).symm
    rw [hafter]
    exact .unlinked payload.planId payload.idempotencyKey plan link hcall hplan hready.1 hready.2
      (linkForMember_eq_ok hlink).1 hopen hsame.1 hsame.2.1 hsame.2.2.1 hsame.2.2.2

/-- A push that is answered has written its revision, or repeats an earlier answer. -/
theorem pushProjectRevision_eq_ok {surroundings : Surroundings} {ctx : AuthContext}
    {resolution : Bool} {answer : ProjectRevisionReceipt}
    (h : pushProjectRevision system surroundings seen db ctx organizationId linkId payload
      resolution = .ok (answer, after)) :
    after = db ∨ ∃ link revision fingerprint, db.links.get? linkId = some link ∧
      link.isOpen = true ∧ revision.parentRevisionIds = payload.parentRevisionIds ∧
      (∀ parent ∈ payload.parentRevisionIds,
        isStored seen.revisions link.project parent = true) ∧
      (∀ head, payload.expectedHeadRevisionId = some head →
        isStored seen.revisions link.project head = true) ∧
      pushWrites seen.revisions db linkId link payload (readHead seen.head db link.project)
        revision fingerprint = some (answer, after) ∧
      requireLinked link resolution = .ok () ∧
      requireCapability surroundings ctx link.organizationId "project.update"
        payload.authorizationRevision = .ok () ∧
      system.digestCanonical payload.dump = .ok fingerprint ∧
      checkPush system seen db link payload resolution =
        .ok (readHead seen.head db link.project) := by
  unfold pushProjectRevision at h
  simp only [bind_eq_ok] at h
  obtain ⟨deviceId, -, link, hlink, _, hlinked, _, hcapability, fingerprint, hfingerprint, h⟩ := h
  split at h
  · obtain ⟨body, -, h⟩ := bind_eq_ok.mp h
    exact .inl (Prod.mk.inj (Except.ok.inj h)).2.symm
  · simp only [bind_eq_ok] at h
    obtain ⟨serverHead, hchecked, h⟩ := h
    have hcheck := hchecked
    unfold checkPush at hcheck
    simp only [bind_eq_ok, require_eq_ok] at hcheck
    obtain ⟨-, -, -, -, -, -, -, -, -, hparents, -, hexpected, -, -, hhead⟩ := hcheck
    have hread : serverHead = readHead seen.head db link.project := (Except.ok.inj hhead).symm
    subst hread
    split at h
    · next written hwritten =>
      rw [Except.ok.inj h] at hwritten
      refine .inr ⟨link, _, fingerprint, (linkForMember_eq_ok hlink).1, ?_, rfl, ?_, ?_, hwritten,
        hlinked, hcapability, hfingerprint, hchecked⟩
      · unfold requireLinked at hlinked
        rw [require_eq_ok, decide_eq_true_eq] at hlinked
        unfold ProjectLink.isOpen
        exact decide_eq_true (hlinked.imp_right And.right)
      · exact List.all_eq_true.mp hparents
      · intro head hsome
        rw [hsome] at hexpected
        exact hexpected
    · unfold lostPush at h
      simp only [bind_eq_ok] at h
      obtain ⟨winner, -, body, -, h⟩ := h
      exact .inl (Prod.mk.inj (Except.ok.inj h)).2.symm

private theorem push_change {resolution : Bool} {answer : ProjectRevisionReceipt}
    (h : pushProjectRevision system call.surroundings seen db call.ctx organizationId linkId payload
      resolution = .ok (answer, after)) : Change system call seen db after := by
  rcases pushProjectRevision_eq_ok h with
    rfl | ⟨link, revision, fingerprint, hlink, hopen, hrevision, hparents, hexpected, hwrites, -⟩
  · exact .nothing
  · exact .pushed linkId link payload revision fingerprint answer after hlink hopen hrevision
      hparents hexpected hwrites

/-- What a decision pushes or pulls is a revision that the request changed. -/
theorem decideSync_changed {remote provider : Option ProjectIdentity}
    {payload : ProjectSyncPlanRequest} :
    ((decideSync db link remote provider payload).action = .localToRemote →
      payload.localRevision ∈ changedRevisions link payload) ∧
    ((decideSync db link remote provider payload).action = .remoteToLocal →
      payload.remoteRevision ∈ changedRevisions link payload) := by
  unfold changedRevisions
  by_cases hlocal : payload.localRevision = link.localRevision
  · by_cases hremote : payload.remoteRevision = link.remoteRevision
    · simp only [decideSync, decideBoth, hlocal, hremote]
      split_ifs <;> simp_all
    · simp only [decideSync, decideBoth, hlocal]
      split_ifs <;> simp_all
  · by_cases hremote : payload.remoteRevision = link.remoteRevision
    · simp only [decideSync, decideBoth, hremote]
      split_ifs <;> simp_all
    · simp [hlocal, hremote]

private theorem syncPlan_change {newId : String} {payload : ProjectSyncPlanRequest}
    {answer : String × ProjectSyncPlan}
    (h : createSyncPlan system call.surroundings seen db call.ctx organizationId payload newId
      call.now = .ok (answer, after)) : Change system call seen db after := by
  unfold createSyncPlan at h
  simp only [bind_eq_ok] at h
  obtain ⟨deviceId, -, link, hlink, -, -, -, -, h⟩ := h
  split at h
  · obtain ⟨answer', -, h⟩ := bind_eq_ok.mp h
    obtain ⟨-, rfl⟩ := Prod.mk.inj (Except.ok.inj h)
    exact .nothing
  · simp only [bind_eq_ok, storeSyncPlan, require_eq_ok, found_eq_ok] at h
    obtain ⟨-, -, -, hstored, -, -, syncPlans, hinsert, h⟩ := h
    obtain ⟨-, rfl⟩ := Prod.mk.inj (Except.ok.inj h)
    have hchanged := List.all_eq_true.mp hstored
    refine .syncPlanned newId _ link syncPlans (linkForMember_eq_ok hlink).1 ?_ ?_ hinsert
    · intro haction
      exact hchanged _ (decideSync_changed.1 haction)
    · intro haction
      exact hchanged _ (decideSync_changed.2 haction)

theorem syncStanding_admitted {surroundings : Surroundings} {ctx : AuthContext} {planId : String}
    {payload : ProjectSyncApplyRequest} {now : Int} {plan : ProjectSyncPlan}
    (h : syncStanding system surroundings db ctx organizationId planId linkId payload now =
      .ok (.admitted plan link)) :
    db.syncPlans.get? planId = some plan ∧ db.links.get? plan.linkId = some link ∧
      link.isOpen = true ∧ (db.heads.get? link.project).getD "initial" = plan.remoteRevision := by
  unfold syncStanding at h
  simp only [bind_eq_ok, found_eq_ok] at h
  obtain ⟨deviceId, -, held, hplan, -, -, row, hlink, linked, hlinked, -, -, -, -, h⟩ := h
  split_ifs at h with hrepeated
  · cases h
  · unfold admitSyncPlan at h
    simp only [bind_eq_ok, require_eq_ok, decide_eq_true_eq] at h
    obtain ⟨-, -, -, -, -, -, -, -, -, -, -, -, -, -, -, hhead, h⟩ := h
    obtain ⟨rfl, rfl⟩ := SyncStanding.admitted.inj (Except.ok.inj h)
    refine ⟨hplan, (linkForMember_eq_ok hlink).1, ?_, hhead⟩
    unfold requireLinked at hlinked
    rw [require_eq_ok, decide_eq_true_eq] at hlinked
    unfold ProjectLink.isOpen
    exact decide_eq_true (hlinked.imp_right And.right)

private theorem applySync_change {planId : String} {payload : ProjectSyncApplyRequest}
    {answer : ProjectSyncPlan}
    (hrequest : call.request = .applySync organizationId planId linkId payload)
    (h : applySyncPlan system call.surroundings db call.ctx organizationId planId linkId payload
      call.now = .ok (answer, after)) : Change system call seen db after := by
  unfold applySyncPlan at h
  simp only [bind_eq_ok] at h
  obtain ⟨standing, hstanding, h⟩ := h
  cases standing with
  | replayed plan =>
    obtain ⟨-, rfl⟩ := Prod.mk.inj (Except.ok.inj h)
    exact .nothing
  | admitted plan link =>
    simp only [bind_eq_ok, require_eq_ok] at h
    obtain ⟨-, hkey, h⟩ := h
    have hafter : after = (syncWrites db planId plan link payload.idempotencyKey).2 :=
      (congrArg Prod.snd (Except.ok.inj h)).symm
    obtain ⟨hplan, hlink, hopen, hhead⟩ := syncStanding_admitted hstanding
    rw [hafter]
    exact .synced planId payload.idempotencyKey plan link
      ⟨organizationId, linkId, payload, hrequest, rfl, hstanding, hkey⟩ hplan hlink hopen hhead

/-- What a request that is not refused has done. -/
theorem effect_change (h : effect system seen db call = .ok after) :
    Change system call seen db after := by
  obtain ⟨ctx, surroundings, now, ages, request⟩ := call
  cases request with
  | linkPlan organizationId payload newId =>
    obtain ⟨answer, h⟩ := map_snd_eq_ok.mp h
    exact linkPlan_change h
  | link organizationId payload newId =>
    obtain ⟨answer, h⟩ := map_snd_eq_ok.mp h
    exact link_change rfl h
  | unlinkPlan organizationId payload newId =>
    obtain ⟨answer, h⟩ := map_snd_eq_ok.mp h
    exact unlinkPlan_change h
  | unlink organizationId linkId payload =>
    obtain ⟨answer, h⟩ := map_snd_eq_ok.mp h
    exact unlink_change rfl h
  | push organizationId linkId payload resolution =>
    obtain ⟨answer, h⟩ := map_snd_eq_ok.mp h
    exact push_change h
  | syncPlan organizationId payload newId =>
    obtain ⟨answer, h⟩ := map_snd_eq_ok.mp h
    exact syncPlan_change h
  | applySync organizationId planId linkId payload =>
    obtain ⟨answer, h⟩ := map_snd_eq_ok.mp h
    exact applySync_change rfl h

theorem perform_change : Change system call seen db (perform system seen db call) := by
  unfold perform
  split
  · next hafter => exact effect_change hafter
  · exact .nothing

end Inversion

/-! ### What no request changes -/

/-- The fields that a link has for ever. -/
def ProjectLink.SameOrigin (link later : ProjectLink) : Prop :=
  later.planId = link.planId ∧ later.planDigest = link.planDigest ∧
  later.organizationId = link.organizationId ∧ later.actorAccountId = link.actorAccountId ∧
  later.deviceId = link.deviceId ∧ later.localProjectId = link.localProjectId ∧
  later.remoteProjectId = link.remoteProjectId ∧
  later.providerProjectId = link.providerProjectId ∧
  later.createIdempotencyKey = link.createIdempotencyKey

/-- A link that ended stays as it is. -/
def ProjectLink.Later (link later : ProjectLink) : Prop :=
  link.SameOrigin later ∧ (link.isOpen = false → later = link)

/-- A link plan is applied once. -/
def ProjectLinkPlan.Later (plan later : ProjectLinkPlan) : Prop :=
  later = plan ∨
    plan.state = .ready ∧ ∃ linkId, later = { plan with state := .applied, linkId := some linkId }

/-- An unlink plan is applied once. -/
def ProjectUnlinkPlan.Later (plan later : ProjectUnlinkPlan) : Prop :=
  later = plan ∨ plan.state = .ready ∧
    ∃ key, later = { plan with state := .applied, confirmationIdempotencyKey := some key }

/-- A sync plan keeps its decision. -/
def ProjectSyncPlan.Later (plan later : ProjectSyncPlan) : Prop :=
  ∃ state key, later = { plan with state := state, applyIdempotencyKey := key }

theorem ProjectLink.SameOrigin.project {later : ProjectLink} (h : link.SameOrigin later) :
    later.project = link.project := by
  unfold ProjectLink.project
  rw [h.2.2.1, h.2.2.2.2.2.2.1]

theorem ProjectLink.Later.refl (link : ProjectLink) : link.Later link :=
  ⟨⟨rfl, rfl, rfl, rfl, rfl, rfl, rfl, rfl, rfl⟩, fun _ ↦ rfl⟩

theorem ProjectLink.Later.trans {first second third : ProjectLink} (hfirst : first.Later second)
    (hsecond : second.Later third) : first.Later third := by
  obtain ⟨⟨h1, h2, h3, h4, h5, h6, h7, h8, h9⟩, hclosed⟩ := hfirst
  obtain ⟨⟨k1, k2, k3, k4, k5, k6, k7, k8, k9⟩, hclosed'⟩ := hsecond
  refine ⟨⟨k1.trans h1, k2.trans h2, k3.trans h3, k4.trans h4, k5.trans h5, k6.trans h6,
    k7.trans h7, k8.trans h8, k9.trans h9⟩, ?_⟩
  intro hended
  have hsame := hclosed hended
  rw [hclosed' (by rw [hsame]; exact hended), hsame]

theorem ProjectLinkPlan.Later.trans {first second third : ProjectLinkPlan}
    (hfirst : first.Later second) (hsecond : second.Later third) : first.Later third := by
  rcases hfirst with rfl | ⟨hready, linkId, rfl⟩
  · exact hsecond
  · rcases hsecond with rfl | ⟨happlied, -⟩
    · exact .inr ⟨hready, linkId, rfl⟩
    · cases happlied

theorem ProjectUnlinkPlan.Later.trans {first second third : ProjectUnlinkPlan}
    (hfirst : first.Later second) (hsecond : second.Later third) : first.Later third := by
  rcases hfirst with rfl | ⟨hready, key, rfl⟩
  · exact hsecond
  · rcases hsecond with rfl | ⟨happlied, -⟩
    · exact .inr ⟨hready, key, rfl⟩
    · cases happlied

/-- What stays of a database, whatever is requested. -/
structure Kept (before after : Database) : Prop where
  revisions : before.revisions.Keeps Eq after.revisions
  heads : before.heads.Keeps (fun _ _ ↦ True) after.heads
  links : before.links.Keeps ProjectLink.Later after.links
  linkPlans : before.linkPlans.Keeps ProjectLinkPlan.Later after.linkPlans
  unlinkPlans : before.unlinkPlans.Keeps ProjectUnlinkPlan.Later after.unlinkPlans
  syncPlans : before.syncPlans.Keeps ProjectSyncPlan.Later after.syncPlans

theorem Kept.refl (db : Database) : Kept db db where
  revisions := .refl (fun _ ↦ rfl) _
  heads := .refl (fun _ ↦ trivial) _
  links := .refl ProjectLink.Later.refl _
  linkPlans := .refl (fun _ ↦ .inl rfl) _
  unlinkPlans := .refl (fun _ ↦ .inl rfl) _
  syncPlans := .refl (fun _ ↦ ⟨_, _, rfl⟩) _

theorem Kept.trans {first second third : Database} (hfirst : Kept first second)
    (hsecond : Kept second third) : Kept first third where
  revisions := hfirst.revisions.trans (fun _ _ _ h h' ↦ h.trans h') hsecond.revisions
  heads := hfirst.heads.trans (fun _ _ _ _ _ ↦ trivial) hsecond.heads
  links := hfirst.links.trans (fun _ _ _ h h' ↦ h.trans h') hsecond.links
  linkPlans := hfirst.linkPlans.trans (fun _ _ _ h h' ↦ h.trans h') hsecond.linkPlans
  unlinkPlans := hfirst.unlinkPlans.trans (fun _ _ _ h h' ↦ h.trans h') hsecond.unlinkPlans
  syncPlans := by
    refine hfirst.syncPlans.trans ?_ hsecond.syncPlans
    rintro plan - - ⟨state, key, rfl⟩ ⟨state', key', rfl⟩
    exact ⟨state', key', rfl⟩

variable {serverHead : Option String}

/-- The writes of a push, one by one. -/
theorem pushWrites_eq_some {seen db after : Database} {revision : ProjectRevision}
    {fingerprint : String} {body : ProjectRevisionReceipt}
    (h : pushWrites seen db linkId link payload serverHead revision fingerprint =
      some (body, after)) :
    ∃ written, pushEffect seen db link payload serverHead = some written ∧
      body = written.body ∧ db.receipts.get? (link.project, payload.idempotencyKey) = none ∧
      db.revisions.insert? (link.project, payload.revisionId) revision = some after.revisions ∧
      after.links = db.links.update linkId written.link ∧ after.heads = written.heads ∧
      after.linkPlans = db.linkPlans ∧ after.unlinkPlans = db.unlinkPlans ∧
      after.syncPlans = db.syncPlans := by
  unfold pushWrites at h
  simp only [Option.bind_eq_bind, Option.bind_eq_some_iff, Option.pure_def,
    Option.some.injEq, Prod.mk.injEq] at h
  obtain ⟨revisions, hinsert, written, hwritten, receipts, hreceipts, rfl, rfl⟩ := h
  exact ⟨written, hwritten, rfl, (Table.insert?_eq_some hreceipts).1, hinsert, rfl, rfl, rfl, rfl,
    rfl⟩

/-- A push writes its link and its project's head. -/
theorem pushEffect_eq_some {seen db : Database} {written : PushEffect}
    (h : pushEffect seen db link payload serverHead = some written) :
    link.SameOrigin written.link ∧ written.link.isOpen = true ∧
      ((isFastForward serverHead payload = true ∧ written.body.state = .accepted ∧
          acceptedHeads db link.project serverHead payload.revisionId = some written.heads) ∨
        (isFastForward serverHead payload = false ∧ written.body.state = .conflict ∧
          written.heads = db.heads)) := by
  unfold pushEffect at h
  split_ifs at h with hforward
  · unfold acceptedEffect at h
    obtain ⟨heads, hheads, rfl⟩ := Option.map_eq_some_iff.mp h
    exact ⟨⟨rfl, rfl, rfl, rfl, rfl, rfl, rfl, rfl, rfl⟩, rfl, .inl ⟨hforward, rfl, hheads⟩⟩
  · rw [← Option.some.inj h]
    exact ⟨⟨rfl, rfl, rfl, rfl, rfl, rfl, rfl, rfl, rfl⟩, rfl,
      .inr ⟨Bool.eq_false_iff.mpr hforward, rfl, rfl⟩⟩

theorem acceptedHeads_keeps {db : Database} {project : ProjectKey} {revisionId : String}
    {heads : Table ProjectKey String}
    (h : acceptedHeads db project serverHead revisionId = some heads) :
    db.heads.Keeps (fun _ _ ↦ True) heads := by
  unfold acceptedHeads at h
  split at h
  · exact Table.keeps_insert? (fun _ ↦ trivial) h
  · rw [← Option.some.inj h]
    intro key row hrow
    rw [Table.get?_update]
    split_ifs with hkey
    · subst hkey
      rw [hrow]
      exact ⟨revisionId, rfl, trivial⟩
    · exact ⟨row, hrow, trivial⟩

theorem change_kept {system : System} {call : Call} {seen : Seen} {db after : Database}
    (h : Change system call seen db after) : Kept db after := by
  have hdb := Kept.refl db
  cases h with
  | nothing => exact hdb
  | linkPlanned planId plan linkPlans hstate hlink hinsert =>
    exact { hdb with linkPlans := Table.keeps_insert? (fun _ ↦ .inl rfl) hinsert }
  | linked planId linkId plan link links hcall hplan hstate hnow hlink hfree hinsert =>
    exact { hdb with
      links := Table.keeps_insert? ProjectLink.Later.refl hinsert
      linkPlans := Table.keeps_update (fun _ ↦ .inl rfl) hplan (.inr ⟨hstate, linkId, rfl⟩) }
  | unlinkPlanned planId plan unlinkPlans link hstate hkey hlink hof hinsert =>
    exact { hdb with unlinkPlans := Table.keeps_insert? (fun _ ↦ .inl rfl) hinsert }
  | unlinked planId key plan link hcall hplan hstate hnow hlink hopen =>
    refine { hdb with
      links := Table.keeps_update ProjectLink.Later.refl hlink ?_
      unlinkPlans := Table.keeps_update (fun _ ↦ .inl rfl) hplan (.inr ⟨hstate, key, rfl⟩) }
    refine ⟨⟨rfl, rfl, rfl, rfl, rfl, rfl, rfl, rfl, rfl⟩, ?_⟩
    intro hended
    rw [hopen] at hended
    cases hended
  | pushed linkId link payload revision fingerprint body after hlink hopen hrevision hparents
      hexpected hwrites =>
    obtain ⟨written, hwritten, -, -, hinsert, hlinks, hheads, hlinkPlans, hunlinkPlans,
      hsyncPlans⟩ := pushWrites_eq_some hwrites
    obtain ⟨horigin, -, heffect⟩ := pushEffect_eq_some hwritten
    refine ⟨Table.keeps_insert? (fun _ ↦ rfl) hinsert, ?_, ?_, ?_, ?_, ?_⟩
    · rw [hheads]
      rcases heffect with ⟨-, -, haccepted⟩ | ⟨-, -, hsame⟩
      · exact acceptedHeads_keeps haccepted
      · rw [hsame]
        exact hdb.heads
    · rw [hlinks]
      refine Table.keeps_update ProjectLink.Later.refl hlink ⟨horigin, ?_⟩
      intro hended
      rw [hopen] at hended
      cases hended
    · rw [hlinkPlans]
      exact hdb.linkPlans
    · rw [hunlinkPlans]
      exact hdb.unlinkPlans
    · rw [hsyncPlans]
      exact hdb.syncPlans
  | syncPlanned planId plan link syncPlans hlink hlocal hremote hinsert =>
    exact { hdb with syncPlans := Table.keeps_insert? (fun _ ↦ ⟨_, _, rfl⟩) hinsert }
  | synced planId key plan link hadmits hplan hlink hopen hhead =>
    refine { hdb with
      links := Table.keeps_update ProjectLink.Later.refl hlink ?_
      heads := ?_
      syncPlans := Table.keeps_update (fun _ ↦ ⟨_, _, rfl⟩) hplan ⟨_, _, rfl⟩ }
    · show db.heads.Keeps _ (syncHeads db link.project plan)
      unfold syncHeads
      split
      · exact Table.keeps_set fun _ _ ↦ trivial
      · exact hdb.heads
    · refine ⟨⟨rfl, rfl, rfl, rfl, rfl, rfl, rfl, rfl, rfl⟩, ?_⟩
      intro hended
      rw [hopen] at hended
      cases hended

/-- The committed states of a server, the newest first, each kept by the ones after it. -/
def Server.Ordered (server : Server) : Prop :=
  ∀ old ∈ server.past, Kept old server.now

theorem step_ordered (system : System) {server : Server} (call : Call) (h : server.Ordered) :
    (step system server call).Ordered := by
  have hkept : Kept server.now (step system server call).now := change_kept perform_change
  intro old hold
  rcases List.mem_cons.mp hold with rfl | hold
  · exact hkept
  · exact (h old hold).trans hkept

theorem Server.Ordered.atAge {server : Server} (h : server.Ordered) (age : Nat) :
    Kept (server.atAge age) server.now := by
  rcases List.mem_cons.mp (server.atAge_mem age) with hnow | hpast
  · rw [hnow]
    exact .refl _
  · exact h _ hpast

end AiStp.Context
