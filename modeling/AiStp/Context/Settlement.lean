import AiStp.Context.Server

/-!
# What becomes of link and unlink plans

A plan stands in one of two ways: it is ready and names nothing, or it is applied and names its link,
which still answers for it (`ProjectLinkPlan.Stands`, `ProjectUnlinkPlan.Stands`). A link that ended
is never written again, so an applied plan stands as it is for ever, and an outcome that its author
reads is refused only for lack of authority (`linkOutcome_eq`, `unlinkOutcome_eq`).
-/

set_option autoImplicit false

namespace AiStp.Context

open Foundation Library

/-- A link plan is ready, or applied to a link of its own. -/
inductive ProjectLinkPlan.Stands (db : Database) (planId : String) (plan : ProjectLinkPlan) :
    Prop where
  | ready (hstate : plan.state = .ready) (hlink : plan.linkId = none)
  | applied (linkId : String) (link : ProjectLink) (hstate : plan.state = .applied)
      (hlinkId : plan.linkId = some linkId) (hlink : db.links.get? linkId = some link)
      (hof : link.isOfPlan planId plan)

/-- An unlink plan is ready, or applied to the link that it ended. -/
inductive ProjectUnlinkPlan.Stands (db : Database) (plan : ProjectUnlinkPlan) : Prop where
  | ready (link : ProjectLink) (hstate : plan.state = .ready)
      (hkey : plan.confirmationIdempotencyKey = none)
      (hlink : db.links.get? plan.linkId = some link) (hof : plan.isOfLink link)
  | applied (key : String) (link : ProjectLink) (hstate : plan.state = .applied)
      (hkey : plan.confirmationIdempotencyKey = some key)
      (hlink : linkOfUnlinkPlan db.links plan key = some link)

/-- Two links of one local project of an organization. -/
def ProjectLink.SameLocal (link other : ProjectLink) : Prop :=
  link.organizationId = other.organizationId ∧ link.localProjectId = other.localProjectId

structure Settled (db : Database) : Prop where
  oneOpen : ∀ linkId otherId link other, db.links.get? linkId = some link →
    db.links.get? otherId = some other → link.isOpen = true → other.isOpen = true →
      link.SameLocal other → linkId = otherId
  linkPlans : ∀ planId plan, db.linkPlans.get? planId = some plan → plan.Stands db planId
  links : ∀ linkId link, db.links.get? linkId = some link →
    ∃ plan, db.linkPlans.get? link.planId = some plan ∧ plan.linkId = some linkId
  unlinkPlans : ∀ planId plan, db.unlinkPlans.get? planId = some plan → plan.Stands db

theorem settled_empty : Settled .empty where
  oneOpen := by
    intro linkId otherId link other hlink
    cases hlink
  linkPlans := by
    intro planId plan hplan
    cases hplan
  links := by
    intro linkId link hlink
    cases hlink
  unlinkPlans := by
    intro planId plan hplan
    cases hplan

/-! ### What a later database keeps of a plan -/

variable {plan : ProjectUnlinkPlan} {link : ProjectLink} {linkId : String}

section Later

variable {before after : Database} {planId : String}

theorem ProjectLink.isOfPlan.of_origin {later : ProjectLink} {plan : ProjectLinkPlan}
    (h : link.isOfPlan planId plan) (horigin : link.SameOrigin later) :
    later.isOfPlan planId plan := by
  obtain ⟨h1, h2, h3, h4, h5, h6, h7, h8⟩ := h
  obtain ⟨k1, k2, k3, k4, k5, k6, k7, k8, -⟩ := horigin
  exact ⟨k3.trans h1, k4.trans h2, k5.trans h3, k1.trans h4, k2.trans h5, k6.trans h6, k7.trans h7,
    k8.trans h8⟩

theorem ProjectUnlinkPlan.isOfLink.of_origin {later : ProjectLink} (h : plan.isOfLink link)
    (horigin : link.SameOrigin later) : plan.isOfLink later := by
  obtain ⟨h1, h2, h3, h4⟩ := h
  obtain ⟨-, -, k3, -, -, k6, k7, k8, -⟩ := horigin
  exact ⟨k3.trans h1, k6.trans h2, k7.trans h3, k8.trans h4⟩

theorem ProjectLinkPlan.Stands.of_kept {plan : ProjectLinkPlan} (h : plan.Stands before planId)
    (hkept : Kept before after) : plan.Stands after planId := by
  cases h with
  | ready hstate hlink => exact .ready hstate hlink
  | applied linkId link hstate hlinkId hlink hof =>
    obtain ⟨later, hlater, horigin, -⟩ := hkept.links linkId link hlink
    exact .applied linkId later hstate hlinkId hlater (hof.of_origin horigin)

/-- The link that an unlink plan ended stays as the plan left it. -/
theorem linkOfUnlinkPlan_of_kept {key : String} (hkept : Kept before after)
    (h : linkOfUnlinkPlan before.links plan key = some link) :
    linkOfUnlinkPlan after.links plan key = some link := by
  unfold linkOfUnlinkPlan at h ⊢
  rw [Option.filter_eq_some_iff] at h ⊢
  obtain ⟨hlink, hmeets⟩ := h
  obtain ⟨later, hlater, -, hclosed⟩ := hkept.links _ link hlink
  have hended : link.isOpen = false := by
    have hstate := (of_decide_eq_true hmeets).2.2.2.2.2.2.2.1
    unfold ProjectLink.isOpen
    rw [hstate]
    rfl
  rw [hclosed hended] at hlater
  exact ⟨hlater, hmeets⟩

theorem ProjectUnlinkPlan.Stands.of_kept (h : plan.Stands before) (hkept : Kept before after) :
    plan.Stands after := by
  cases h with
  | ready link hstate hkey hlink hof =>
    obtain ⟨later, hlater, horigin, -⟩ := hkept.links _ link hlink
    exact .ready later hstate hkey hlater (hof.of_origin horigin)
  | applied key link hstate hkey hlink =>
    exact .applied key link hstate hkey (linkOfUnlinkPlan_of_kept hkept hlink)

/-- The links of `after` are those of `before`, and none of them was opened. -/
def LinksFrom (before after : Database) : Prop :=
  ∀ linkId later, after.links.get? linkId = some later →
    ∃ link, before.links.get? linkId = some link ∧ link.SameOrigin later ∧
      (later.isOpen = true → link.isOpen = true)

/-- A request that writes no link but those that it found, and no link plan. -/
theorem Settled.of_links (h : Settled before) (hkept : Kept before after)
    (hlinks : LinksFrom before after) (hlinkPlans : after.linkPlans = before.linkPlans)
    (hunlinkPlans : ∀ planId plan, after.unlinkPlans.get? planId = some plan → plan.Stands after) :
    Settled after where
  oneOpen := by
    intro linkId otherId link other hlink hother hopen hotherOpen hlocal
    obtain ⟨link', hlink', horigin, hopened⟩ := hlinks linkId link hlink
    obtain ⟨other', hother', horigin', hopened'⟩ := hlinks otherId other hother
    refine h.oneOpen linkId otherId link' other' hlink' hother' (hopened hopen)
      (hopened' hotherOpen) ⟨?_, ?_⟩
    · rw [← horigin.2.2.1, ← horigin'.2.2.1]
      exact hlocal.1
    · rw [← horigin.2.2.2.2.2.1, ← horigin'.2.2.2.2.2.1]
      exact hlocal.2
  linkPlans := by
    intro planId plan hplan
    rw [hlinkPlans] at hplan
    exact (h.linkPlans planId plan hplan).of_kept hkept
  links := by
    intro linkId later hlater
    obtain ⟨link, hlink, horigin, -⟩ := hlinks linkId later hlater
    rw [hlinkPlans, horigin.1]
    exact h.links linkId link hlink
  unlinkPlans := hunlinkPlans

/-- No link is written. -/
theorem LinksFrom.of_same (hlinks : after.links = before.links) : LinksFrom before after := by
  intro linkId later hlater
  rw [hlinks] at hlater
  exact ⟨later, hlater, (ProjectLink.Later.refl later).1, fun hopen ↦ hopen⟩

/-- One open link is written. -/
theorem LinksFrom.of_update {written : ProjectLink}
    (hlinks : after.links = before.links.update linkId written)
    (hlink : before.links.get? linkId = some link) (hopen : link.isOpen = true)
    (horigin : link.SameOrigin written) : LinksFrom before after := by
  intro otherId later hlater
  rw [hlinks, Table.get?_update] at hlater
  split_ifs at hlater with hother
  · subst hother
    rw [hlink] at hlater
    rw [← Option.some.inj hlater]
    exact ⟨link, hlink, horigin, fun _ ↦ hopen⟩
  · exact ⟨later, hlater, (ProjectLink.Later.refl later).1, fun hopen ↦ hopen⟩

end Later

/-! ### One request -/

section Step

variable {system : System} {call : Call} {seen : Seen} {db after : Database}

/-- A confirmed link plan. -/
theorem linked_settled (h : Settled db) {planId : String} {plan : ProjectLinkPlan}
    {links : Table String ProjectLink} (hplan : db.linkPlans.get? planId = some plan)
    (hof : link.isOfPlan planId plan)
    (hfree : findOpenLink db link.organizationId link.localProjectId = none)
    (hinsert : db.links.insert? linkId link = some links) (hafter : after = { db with
      links := links
      linkPlans := db.linkPlans.update planId
        { plan with state := .applied, linkId := some linkId } }) (hstate : plan.state = .ready)
    (hkept : Kept db after) : Settled after := by
  obtain ⟨habsent, hget⟩ := Table.insert?_eq_some hinsert
  have hnone := Table.find?_eq_none.mp hfree
  have hlinks : after.links = links := by rw [hafter]
  have hlinkPlans : after.linkPlans = db.linkPlans.update planId
      { plan with state := .applied, linkId := some linkId } := by rw [hafter]
  have hself : after.linkPlans.get? planId =
      some { plan with state := .applied, linkId := some linkId } := by
    rw [hlinkPlans]
    exact Table.get?_update_self hplan
  have hopenNone : ∀ otherId other, db.links.get? otherId = some other → other.isOpen = true →
      ¬ other.SameLocal link := by
    rintro otherId other hother hopen ⟨horganization, hlocal⟩
    have hfalse := hnone otherId other hother
    rw [decide_eq_false_iff_not] at hfalse
    exact hfalse ⟨horganization, hlocal, hopen⟩
  constructor
  · intro firstId secondId first second hfirst hsecond hopen hopen' hlocal
    rw [hlinks, hget] at hfirst hsecond
    split_ifs at hfirst with hfirstNew <;> split_ifs at hsecond with hsecondNew
    · rw [hfirstNew, hsecondNew]
    · obtain rfl := Option.some.inj hfirst
      exact absurd ⟨hlocal.1.symm, hlocal.2.symm⟩ (hopenNone secondId second hsecond hopen')
    · obtain rfl := Option.some.inj hsecond
      exact absurd hlocal (hopenNone firstId first hfirst hopen)
    · exact h.oneOpen firstId secondId first second hfirst hsecond hopen hopen' hlocal
  · intro otherId other hother
    by_cases hsame : otherId = planId
    · subst hsame
      rw [hself] at hother
      rw [← Option.some.inj hother]
      exact .applied linkId link rfl rfl (by rw [hlinks, hget, if_pos rfl]) hof
    · rw [hlinkPlans, Table.get?_update_of_ne hsame] at hother
      exact (h.linkPlans otherId other hother).of_kept hkept
  · intro otherId other hother
    rw [hlinks, hget] at hother
    split_ifs at hother with hsame
    · rw [← Option.some.inj hother, hof.2.2.2.1, hsame]
      exact ⟨_, hself, rfl⟩
    · obtain ⟨held, hheld, hlinkId⟩ := h.links otherId other hother
      have hne : other.planId ≠ planId := by
        intro hsamePlan
        rw [hsamePlan, hplan] at hheld
        obtain rfl := Option.some.inj hheld
        cases h.linkPlans planId plan hplan with
        | ready _ hnoLink =>
          rw [hnoLink] at hlinkId
          cases hlinkId
        | applied _ _ happlied =>
          rw [hstate] at happlied
          cases happlied
      rw [hlinkPlans]
      exact ⟨held, by rw [Table.get?_update_of_ne hne, hheld], hlinkId⟩
  · intro otherId other hother
    have hsame : after.unlinkPlans = db.unlinkPlans := by rw [hafter]
    rw [hsame] at hother
    exact (h.unlinkPlans otherId other hother).of_kept hkept

/-- The link of a confirmed unlink plan is the one that the plan ended. -/
theorem linkOfUnlinkPlan_unlinked {planId key : String}
    (hlink : db.links.get? plan.linkId = some link) (hof : plan.isOfLink link)
    (hrevision : link.revision = plan.expectedLinkRevision)
    (hlocal : link.localRevision = plan.localRevision)
    (hremote : link.remoteRevision = plan.remoteRevision)
    (hprovider : link.providerRevision = plan.providerRevision) :
    linkOfUnlinkPlan (unlinkWrites db planId plan link key).2.links
        { plan with state := .applied, confirmationIdempotencyKey := some key } key =
      some (unlinkWrites db planId plan link key).1 := by
  have hself : (unlinkWrites db planId plan link key).2.links.get? plan.linkId =
      some (unlinkWrites db planId plan link key).1 := Table.get?_update_self hlink
  unfold linkOfUnlinkPlan
  rw [Option.filter_eq_some_iff]
  refine ⟨hself, decide_eq_true ?_⟩
  exact ⟨hof.1, hof.2.1, hof.2.2.1, hof.2.2.2, hlocal, hremote, hprovider, rfl,
    congrArg (· + 1) hrevision, rfl⟩

/-- A confirmed unlink plan. -/
theorem unlinked_settled (h : Settled db) {planId key : String}
    (hplan : db.unlinkPlans.get? planId = some plan) (hstate : plan.state = .ready)
    (hlink : db.links.get? plan.linkId = some link) (hopen : link.isOpen = true)
    (hrevision : link.revision = plan.expectedLinkRevision)
    (hlocal : link.localRevision = plan.localRevision)
    (hremote : link.remoteRevision = plan.remoteRevision)
    (hprovider : link.providerRevision = plan.providerRevision)
    (hkept : Kept db (unlinkWrites db planId plan link key).2) :
    Settled (unlinkWrites db planId plan link key).2 := by
  have hof : plan.isOfLink link := by
    cases h.unlinkPlans planId plan hplan with
    | ready held hready hkey hheld hof =>
      rw [hlink] at hheld
      rw [Option.some.inj hheld]
      exact hof
    | applied key link happlied =>
      rw [hstate] at happlied
      cases happlied
  refine h.of_links hkept
    (.of_update rfl hlink hopen ⟨rfl, rfl, rfl, rfl, rfl, rfl, rfl, rfl, rfl⟩) rfl ?_
  intro otherId other hother
  have hunlinkPlans : (unlinkWrites db planId plan link key).2.unlinkPlans =
      db.unlinkPlans.update planId
        { plan with state := .applied, confirmationIdempotencyKey := some key } := rfl
  by_cases hsame : otherId = planId
  · subst hsame
    rw [hunlinkPlans, Table.get?_update_self hplan] at hother
    rw [← Option.some.inj hother]
    exact .applied key _ rfl rfl
      (linkOfUnlinkPlan_unlinked hlink hof hrevision hlocal hremote hprovider)
  · rw [hunlinkPlans, Table.get?_update_of_ne hsame] at hother
    exact (h.unlinkPlans otherId other hother).of_kept hkept

theorem change_settled (h : Settled db) (hchange : Change system call seen db after)
    (hseen : seen.links.links.Keeps ProjectLink.Later db.links) : Settled after := by
  have hkept := change_kept hchange
  have hunlinkPlans : after.unlinkPlans = db.unlinkPlans →
      ∀ planId plan, after.unlinkPlans.get? planId = some plan → plan.Stands after := by
    intro hsame planId plan hplan
    rw [hsame] at hplan
    exact (h.unlinkPlans planId plan hplan).of_kept hkept
  cases hchange with
  | nothing => exact h
  | linkPlanned planId plan linkPlans hstate hlink hinsert =>
    obtain ⟨habsent, hget⟩ := Table.insert?_eq_some hinsert
    refine ⟨h.oneOpen, ?_, ?_, hunlinkPlans rfl⟩
    · intro otherId other hother
      rw [hget] at hother
      split_ifs at hother with hsame
      · rw [← Option.some.inj hother]
        exact .ready hstate hlink
      · exact (h.linkPlans otherId other hother).of_kept hkept
    · intro linkId link hheld
      obtain ⟨held, hplan, hlinkId⟩ := h.links linkId link hheld
      refine ⟨held, ?_, hlinkId⟩
      rw [hget, if_neg ?_, hplan]
      intro hsame
      rw [hsame, habsent] at hplan
      cases hplan
  | linked planId linkId plan link links hcall hplan hstate hnow hof hfree hinsert =>
    exact linked_settled h hplan hof hfree hinsert rfl hstate hkept
  | unlinkPlanned planId plan unlinkPlans link hstate hkey hlink hof hinsert =>
    refine h.of_links hkept (.of_same rfl) rfl ?_
    intro otherId other hother
    rw [(Table.insert?_eq_some hinsert).2] at hother
    split_ifs at hother with hsame
    · obtain ⟨later, hlater, horigin, -⟩ := hseen _ link hlink
      rw [← Option.some.inj hother]
      exact .ready later hstate hkey hlater (hof.of_origin horigin)
    · exact (h.unlinkPlans otherId other hother).of_kept hkept
  | unlinked planId key plan link hcall hplan hstate hnow hlink hopen hrevision hlocal hremote
      hprovider =>
    exact unlinked_settled h hplan hstate hlink hopen hrevision hlocal hremote hprovider hkept
  | pushed linkId link payload revision fingerprint body after hlink hopen hrevision hparents
      hexpected hwrites =>
    obtain ⟨written, hwritten, -, -, -, hlinks, -, hlinkPlans, hsame, -⟩ :=
      pushWrites_eq_some hwrites
    exact h.of_links hkept (.of_update hlinks hlink hopen (pushEffect_eq_some hwritten).1)
      hlinkPlans (hunlinkPlans hsame)
  | syncPlanned planId plan link syncPlans hlink hlocal hremote hinsert =>
    exact h.of_links hkept (.of_same rfl) rfl (hunlinkPlans rfl)
  | synced planId key plan link hadmits hplan hlink hopen hhead =>
    exact h.of_links hkept
      (.of_update rfl hlink hopen ⟨rfl, rfl, rfl, rfl, rfl, rfl, rfl, rfl, rfl⟩) rfl
      (hunlinkPlans rfl)

end Step

/-! ### Outcomes -/

section Outcome

variable {plans links : Database} {surroundings : Surroundings} {ctx : AuthContext}
  {organizationId planId : String} {now : Int}

/-- The authority that an outcome asks for. -/
def outcomeAuthority (surroundings : Surroundings) (ctx : AuthContext)
    (organizationId capability : String) : Except ApiError CapabilityProjection := do
  let _ ← requireActiveDevice surroundings ctx
  let projection ← remoteProjection surroundings ctx organizationId
  requireCapability surroundings ctx organizationId capability projection.authorizationRevision
  return projection

theorem outcomeAuthority_bind {Value : Type} {capability : String}
    {rest : CapabilityProjection → Except ApiError Value} :
    (do
      let _ ← requireActiveDevice surroundings ctx
      let projection ← remoteProjection surroundings ctx organizationId
      requireCapability surroundings ctx organizationId capability projection.authorizationRevision
      rest projection) = outcomeAuthority surroundings ctx organizationId capability >>= rest := by
  simp only [outcomeAuthority, bind_assoc, pure_bind]

theorem outcomeState_eq_applied {state : PlanState} {expiresAt : Int} :
    outcomeState state expiresAt now = .applied ↔ state = .applied := by
  unfold outcomeState
  split_ifs with hexpired
  · rw [hexpired.1]
    simp
  · rfl

/-- A row that meets the condition of a filter. -/
theorem filter_of_meets {Row : Type} {row : Option Row} {held : Row} {condition : Row → Bool}
    (hrow : row = some held) (hmeets : condition held = true) : row.filter condition = some held :=
  Option.filter_eq_some_iff.mpr ⟨hrow, hmeets⟩

/-- The link that an outcome shows is the one that the plan names. -/
theorem linkOfPlan_eq (h : Settled plans) (hkept : Kept plans links) {plan : ProjectLinkPlan}
    (hplan : plans.linkPlans.get? planId = some plan)
    (hauthor : plan.organizationId = organizationId ∧ plan.actorAccountId = ctx.accountId)
    (now : Int) :
    (if outcomeState plan.state plan.expiresAt now = .applied then
        linkOfPlan links.links planId plan ctx organizationId else none) =
      plan.linkId.bind links.links.get? ∧
    (outcomeState plan.state plan.expiresAt now = .applied ↔
      plan.linkId.bind links.links.get? ≠ none) ∧
    (outcomeState plan.state plan.expiresAt now = .applied ∨ plan.linkId = none) := by
  simp only [outcomeState_eq_applied]
  cases (h.linkPlans planId plan hplan).of_kept hkept with
  | ready hstate hnone => simp [hstate, hnone]
  | applied linkId link hstate hlinkId hlink hof =>
    obtain ⟨horganization, hactor, hrest⟩ := hof
    have hmeets : linkOfPlan links.links planId plan ctx organizationId = some link := by
      unfold linkOfPlan
      refine filter_of_meets (by rw [hlinkId]; exact hlink) (decide_eq_true ?_)
      exact ⟨horganization.trans hauthor.1, hactor.trans hauthor.2, hrest⟩
    simp [hstate, hlinkId, hlink, hmeets]

/-- The outcome of a link plan that its author reads. -/
theorem linkOutcome_eq (h : Settled plans) (hkept : Kept plans links) {plan : ProjectLinkPlan}
    (hplan : plans.linkPlans.get? planId = some plan)
    (hauthor : plan.organizationId = organizationId ∧ plan.actorAccountId = ctx.accountId) :
    projectLinkPlanOutcome surroundings plans links ctx organizationId planId now =
      (outcomeAuthority surroundings ctx organizationId "project.link").map fun projection ↦
        ⟨plan, outcomeState plan.state plan.expiresAt now, plan.linkId.bind links.links.get?,
          projection.authorizationRevision, now⟩ := by
  obtain ⟨hlink, hconsistent⟩ := linkOfPlan_eq h hkept hplan hauthor now
  unfold projectLinkPlanOutcome
  rw [outcomeAuthority_bind, filter_of_meets hplan (decide_eq_true hauthor)]
  cases outcomeAuthority surroundings ctx organizationId "project.link" with
  | error error => rfl
  | ok projection =>
    simp only [found, bind, Except.bind, hlink]
    rw [require, if_pos (decide_eq_true hconsistent)]
    rfl

/-- The link that an applied unlink plan shows. -/
def ProjectUnlinkPlan.shownLink (plan : ProjectUnlinkPlan) (links : Table String ProjectLink) :
    Option ProjectLink :=
  if plan.state = .applied then links.get? plan.linkId else none

theorem linkOfUnlinkPlan_eq (h : Settled plans) (hkept : Kept plans links)
    (hplan : plans.unlinkPlans.get? planId = some plan) (now : Int) :
    (outcomeState plan.state plan.expiresAt now = .applied →
        plan.confirmationIdempotencyKey.isSome = true) ∧
      (if outcomeState plan.state plan.expiresAt now = .applied then
          plan.confirmationIdempotencyKey.bind (linkOfUnlinkPlan links.links plan) else none) =
        plan.shownLink links.links ∧
      (outcomeState plan.state plan.expiresAt now = .applied ↔
        plan.shownLink links.links ≠ none) ∧
      (outcomeState plan.state plan.expiresAt now = .applied ∨
        plan.confirmationIdempotencyKey = none) := by
  simp only [outcomeState_eq_applied, ProjectUnlinkPlan.shownLink]
  cases (h.unlinkPlans planId plan hplan).of_kept hkept with
  | ready link hstate hkey => simp [hstate, hkey]
  | applied key link hstate hkey hlink =>
    have hrow : links.links.get? plan.linkId = some link :=
      (Option.filter_eq_some_iff.mp hlink).1
    simp [hstate, hkey, hlink, hrow]

/-- The outcome of an unlink plan that its author reads. -/
theorem unlinkOutcome_eq (h : Settled plans) (hkept : Kept plans links)
    (hplan : plans.unlinkPlans.get? planId = some plan)
    (hauthor : plan.organizationId = organizationId ∧ plan.actorAccountId = ctx.accountId) :
    projectUnlinkPlanOutcome surroundings plans links ctx organizationId planId now =
      (outcomeAuthority surroundings ctx organizationId "project.unlink").map fun projection ↦
        ⟨plan, outcomeState plan.state plan.expiresAt now, plan.shownLink links.links,
          projection.authorizationRevision, now⟩ := by
  obtain ⟨hkey, hlink, hconsistent⟩ := linkOfUnlinkPlan_eq h hkept hplan now
  unfold projectUnlinkPlanOutcome
  rw [outcomeAuthority_bind, filter_of_meets hplan (decide_eq_true hauthor)]
  cases outcomeAuthority surroundings ctx organizationId "project.unlink" with
  | error error => rfl
  | ok projection =>
    simp only [found, bind, Except.bind, hlink]
    rw [require, if_pos (decide_eq_true hkey), require, if_pos (decide_eq_true hconsistent)]
    rfl

theorem outcomeState_eq_expired {state : PlanState} {expiresAt : Int}
    (h : outcomeState state expiresAt now = .expired) :
    state = .expired ∨ state = .ready ∧ expiresAt ≤ now := by
  unfold outcomeState at h
  split_ifs at h with hexpired
  · exact .inr hexpired
  · exact .inl h

/-- The plan that an outcome shows. -/
theorem linkOutcome_plan {outcome : ProjectLinkPlanOutcome}
    (h : projectLinkPlanOutcome surroundings plans links ctx organizationId planId now =
      .ok outcome) :
    plans.linkPlans.get? planId = some outcome.plan ∧
      outcome.state = outcomeState outcome.plan.state outcome.plan.expiresAt now := by
  unfold projectLinkPlanOutcome at h
  simp only [bind_eq_ok, found_eq_ok] at h
  obtain ⟨deviceId, -, projection, -, -, -, plan, hplan, -, -, h⟩ := h
  rw [← Except.ok.inj h]
  exact ⟨(Option.filter_eq_some_iff.mp hplan).1, rfl⟩

theorem unlinkOutcome_plan {outcome : ProjectUnlinkPlanOutcome}
    (h : projectUnlinkPlanOutcome surroundings plans links ctx organizationId planId now =
      .ok outcome) :
    plans.unlinkPlans.get? planId = some outcome.plan ∧
      outcome.state = outcomeState outcome.plan.state outcome.plan.expiresAt now := by
  unfold projectUnlinkPlanOutcome at h
  simp only [bind_eq_ok, found_eq_ok] at h
  obtain ⟨deviceId, -, projection, -, -, -, plan, hplan, -, -, -, -, h⟩ := h
  rw [← Except.ok.inj h]
  exact ⟨(Option.filter_eq_some_iff.mp hplan).1, rfl⟩

/-- A link plan of a settled database that is found expired is ready, and late. -/
theorem linkOutcome_expired (hsettled : Settled plans) {outcome : ProjectLinkPlanOutcome}
    (h : projectLinkPlanOutcome surroundings plans links ctx organizationId planId now =
      .ok outcome) (hstate : outcome.state = .expired) :
    plans.linkPlans.get? planId = some outcome.plan ∧ outcome.plan.state = .ready ∧
      outcome.plan.expiresAt ≤ now := by
  obtain ⟨hplan, hshown⟩ := linkOutcome_plan h
  rw [hstate] at hshown
  have hstands : outcome.plan.state ≠ .expired := by
    cases hsettled.linkPlans planId _ hplan with
    | ready hready => simp [hready]
    | applied linkId link happlied => simp [happlied]
  exact ⟨hplan, (outcomeState_eq_expired hshown.symm).resolve_left hstands⟩

theorem unlinkOutcome_expired (hsettled : Settled plans) {outcome : ProjectUnlinkPlanOutcome}
    (h : projectUnlinkPlanOutcome surroundings plans links ctx organizationId planId now =
      .ok outcome) (hstate : outcome.state = .expired) :
    plans.unlinkPlans.get? planId = some outcome.plan ∧ outcome.plan.state = .ready ∧
      outcome.plan.expiresAt ≤ now := by
  obtain ⟨hplan, hshown⟩ := unlinkOutcome_plan h
  rw [hstate] at hshown
  have hstands : outcome.plan.state ≠ .expired := by
    cases hsettled.unlinkPlans planId _ hplan with
    | ready link hready => simp [hready]
    | applied key link happlied => simp [happlied]
  exact ⟨hplan, (outcomeState_eq_expired hshown.symm).resolve_left hstands⟩

end Outcome

/-! ### Runs -/

section Runs

variable {system : System} {server : Server} {call : Call}

structure Server.Settles (server : Server) : Prop where
  ordered : server.Ordered
  settled : Settled server.now

theorem initial_settles : Server.initial.Settles where
  ordered := by
    intro old hold
    cases hold
  settled := settled_empty

theorem step_change (system : System) (server : Server) (call : Call) :
    Change system call (server.seen call.ages) server.now (step system server call).now :=
  perform_change

theorem step_settles (system : System) (server : Server) (call : Call) (h : server.Settles) :
    (step system server call).Settles where
  ordered := step_ordered system call h.ordered
  settled := change_settled h.settled (step_change system server call)
    (h.ordered.atAge call.ages.links).links

theorem run_settles (h : server.Settles) (calls : List Call) :
    (Runs.run (step system) server calls).Settles :=
  Runs.run_invariant (step_settles system) server h calls

theorem run_kept (system : System) (server : Server) (calls : List Call) :
    Kept server.now (Runs.run (step system) server calls).now := by
  refine Runs.run_related (fun before after : Server ↦ Kept before.now after.now)
    (fun _ ↦ .refl _) ?_ ?_ server calls
  · intro first middle last hfirst hsecond
    exact hfirst.trans hsecond
  · intro state call
    exact change_kept (step_change system state call)

variable {planId : String}

/-- An applied link plan stays as it is. -/
theorem applied_link_plan {before after : Database} (hkept : Kept before after)
    {plan : ProjectLinkPlan} (hplan : before.linkPlans.get? planId = some plan)
    (hstate : plan.state = .applied) : after.linkPlans.get? planId = some plan := by
  obtain ⟨later, hlater, hsame | ⟨hready, -⟩⟩ := hkept.linkPlans planId plan hplan
  · rw [hlater, hsame]
  · rw [hstate] at hready
    cases hready

/-- An applied unlink plan stays as it is. -/
theorem applied_unlink_plan {before after : Database} (hkept : Kept before after)
    (hplan : before.unlinkPlans.get? planId = some plan) (hstate : plan.state = .applied) :
    after.unlinkPlans.get? planId = some plan := by
  obtain ⟨later, hlater, hsame | ⟨hready, -⟩⟩ := hkept.unlinkPlans planId plan hplan
  · rw [hlater, hsame]
  · rw [hstate] at hready
    cases hready

/-- A link plan changes only when it is confirmed in time. -/
theorem step_link_plan {plan : ProjectLinkPlan}
    (hplan : server.now.linkPlans.get? planId = some plan)
    (hlate : call.linkPlan? = some planId → plan.expiresAt ≤ call.now) :
    (step system server call).now.linkPlans.get? planId = some plan := by
  have hchange := step_change system server call
  generalize (step system server call).now = after at hchange
  cases hchange with
  | linkPlanned otherId other linkPlans hstate hlink hinsert =>
    obtain ⟨held, hheld, rfl⟩ := Table.keeps_insert? (fun _ ↦ rfl) hinsert _ _ hplan
    exact hheld
  | linked otherId linkId other link links hcall hother hstate hnow =>
    have hne : planId ≠ otherId := by
      intro hsame
      subst hsame
      rw [hplan] at hother
      obtain rfl := Option.some.inj hother
      have := hlate hcall
      omega
    show (server.now.linkPlans.update otherId _).get? planId = some plan
    rw [Table.get?_update_of_ne hne, hplan]
  | pushed linkId link payload revision fingerprint body after hlink hopen hrevision hparents
      hexpected hwrites =>
    obtain ⟨-, -, -, -, -, -, -, hlinkPlans, -⟩ := pushWrites_eq_some hwrites
    rw [hlinkPlans, hplan]
  | _ => exact hplan

/-- An unlink plan changes only when it is confirmed in time. -/
theorem step_unlink_plan (hplan : server.now.unlinkPlans.get? planId = some plan)
    (hlate : call.unlinkPlan? = some planId → plan.expiresAt ≤ call.now) :
    (step system server call).now.unlinkPlans.get? planId = some plan := by
  have hchange := step_change system server call
  generalize (step system server call).now = after at hchange
  cases hchange with
  | unlinkPlanned otherId other unlinkPlans link hstate hkey hlink hof hinsert =>
    obtain ⟨held, hheld, rfl⟩ := Table.keeps_insert? (fun _ ↦ rfl) hinsert _ _ hplan
    exact hheld
  | unlinked otherId key other link hcall hother hstate hnow =>
    have hne : planId ≠ otherId := by
      intro hsame
      subst hsame
      rw [hplan] at hother
      obtain rfl := Option.some.inj hother
      have := hlate hcall
      omega
    show (server.now.unlinkPlans.update otherId _).get? planId = some plan
    rw [Table.get?_update_of_ne hne, hplan]
  | pushed linkId link payload revision fingerprint body after hlink hopen hrevision hparents
      hexpected hwrites =>
    obtain ⟨-, -, -, -, -, -, -, -, hunlinkPlans, -⟩ := pushWrites_eq_some hwrites
    rw [hunlinkPlans, hplan]
  | _ => exact hplan

/-! ### What the plans promise -/

/-- The request ends a link. -/
def Ends (system : System) (server : Server) (call : Call) (linkId : String) : Prop :=
  ∃ link later, server.now.links.get? linkId = some link ∧ link.isOpen = true ∧
    (step system server call).now.links.get? linkId = some later ∧ later.isOpen = false

/-- What a request that ends a link has confirmed. -/
theorem ends_unlinked (hends : Ends system server call linkId) :
    ∃ planId plan key, call.unlinkPlan? = some planId ∧
      server.now.unlinkPlans.get? planId = some plan ∧ plan.state = .ready ∧
      plan.linkId = linkId ∧ (step system server call).now.unlinkPlans.get? planId =
        some { plan with state := .applied, confirmationIdempotencyKey := some key } := by
  obtain ⟨link, later, hlink, hopen, hlater, hended⟩ := hends
  have hchange := step_change system server call
  generalize (step system server call).now = after at hchange hlater ⊢
  -- A written link is open, unless the request confirms an unlink plan.
  have hstays : ∀ otherId other written, server.now.links.get? otherId = some other →
      after.links = server.now.links.update otherId written → written.isOpen = true → False := by
    intro otherId other written hother hlinks hwritten
    rw [hlinks, Table.get?_update] at hlater
    split_ifs at hlater with hsame
    · rw [hother] at hlater
      rw [← Option.some.inj hlater, hwritten] at hended
      cases hended
    · rw [hlink] at hlater
      rw [← Option.some.inj hlater, hopen] at hended
      cases hended
  have hsame : after.links.get? linkId = server.now.links.get? linkId → False := by
    intro hsame
    rw [hsame, hlink] at hlater
    rw [← Option.some.inj hlater, hopen] at hended
    cases hended
  cases hchange with
  | linked planId newId plan created links hcall hplan hstate hnow hof hfree hinsert =>
    obtain ⟨held, hheld, rfl⟩ := Table.keeps_insert? (fun _ ↦ rfl) hinsert _ _ hlink
    exact (hsame (hheld.trans hlink.symm)).elim
  | unlinked planId key plan other hcall hplan hstate hnow hother =>
    refine ⟨planId, plan, key, hcall, hplan, hstate, ?_, Table.get?_update_self hplan⟩
    by_contra hne
    exact hsame (Table.get?_update_of_ne (Ne.symm hne))
  | pushed otherId other payload revision fingerprint body after hother hotherOpen hrevision
      hparents hexpected hwrites =>
    obtain ⟨written, hwritten, -, -, -, hlinks, -⟩ := pushWrites_eq_some hwrites
    exact (hstays otherId other written.link hother hlinks
      (pushEffect_eq_some hwritten).2.1).elim
  | synced planId key plan other hadmits hplan hother hotherOpen hhead =>
    exact (hstays plan.linkId other _ hother rfl hotherOpen).elim
  | _ => exact (hsame rfl).elim

/-- A confirmation under the key of a link writes nothing. -/
theorem repeated_link {organizationId newId : String} {payload : ProjectLinkRequest}
    (hrequest : call.request = .link organizationId payload newId)
    (hlink : server.now.links.get? linkId = some link)
    (hkey : link.createIdempotencyKey = payload.idempotencyKey) :
    (step system server call).now = server.now := by
  have htaken : findLinkByKey server.now payload.idempotencyKey ≠ none := by
    intro hnone
    have hfalse := Table.find?_eq_none.mp hnone linkId link hlink
    rw [decide_eq_false_iff_not] at hfalse
    exact hfalse hkey
  show perform system _ server.now call = server.now
  unfold perform
  split
  · next after hafter =>
    unfold effect at hafter
    rw [hrequest] at hafter
    obtain ⟨answer, h⟩ := map_snd_eq_ok.mp hafter
    unfold createProjectLink at h
    simp only [bind_eq_ok] at h
    obtain ⟨deviceId, -, -, -, h⟩ := h
    split at h
    · obtain ⟨answer', -, h⟩ := bind_eq_ok.mp h
      exact ((Prod.mk.inj (Except.ok.inj h)).2).symm
    · simp only [bind_eq_ok, storeLink, require_eq_ok, decide_eq_true_eq] at h
      obtain ⟨plan, -, -, -, -, -, -, -, -, -, links, ⟨-, hfree, -⟩, h⟩ := h
      exact absurd (Option.isNone_iff_eq_none.mp hfree.1) htaken
  · rfl

/-- A confirmation under the key of an applied unlink plan writes nothing. -/
theorem repeated_unlink {organizationId : String} {payload : ProjectUnlinkRequest}
    (hrequest : call.request = .unlink organizationId linkId payload)
    (hplan : server.now.unlinkPlans.get? planId = some plan)
    (hkey : plan.confirmationIdempotencyKey = some payload.idempotencyKey) :
    (step system server call).now = server.now := by
  have htaken : (server.now.unlinkPlans.find? fun _ plan ↦
      plan.confirmationIdempotencyKey = some payload.idempotencyKey) ≠ none := by
    intro hnone
    have hfalse := Table.find?_eq_none.mp hnone planId plan hplan
    rw [decide_eq_false_iff_not] at hfalse
    exact hfalse hkey
  show perform system _ server.now call = server.now
  unfold perform
  split
  · next after hafter =>
    unfold effect at hafter
    rw [hrequest] at hafter
    obtain ⟨answer, h⟩ := map_snd_eq_ok.mp hafter
    unfold unlinkProjectLink at h
    simp only [bind_eq_ok] at h
    obtain ⟨deviceId, -, held, -, -, -, link, -, -, -, -, -, -, -, h⟩ := h
    split_ifs at h with hrepeated
    · exact ((Prod.mk.inj (Except.ok.inj h)).2).symm
    · simp only [bind_eq_ok, freeUnlinkKey, require_eq_ok, decide_eq_true_eq] at h
      obtain ⟨-, -, -, hfree, -⟩ := h
      exact absurd (Option.isNone_iff_eq_none.mp hfree.2) htaken
  · rfl

/-- What a server promises about its plans, whatever is requested next. -/
structure PlansSettle (system : System) (server : Server) : Prop where
  /-- A local project of an organization has one open link. -/
  oneOpen : ∀ linkId otherId link other, server.now.links.get? linkId = some link →
    server.now.links.get? otherId = some other → link.isOpen = true → other.isOpen = true →
      link.SameLocal other → linkId = otherId
  /-- A link plan creates one link. -/
  oneLink : ∀ linkId otherId link other, server.now.links.get? linkId = some link →
    server.now.links.get? otherId = some other → link.planId = other.planId → linkId = otherId
  /-- An unlink plan ends one link. -/
  oneEnd : ∀ call linkId, Ends system server call linkId →
    ∃ planId, call.unlinkPlan? = some planId ∧
      (∀ otherId, Ends system server call otherId → otherId = linkId) ∧
      ∀ calls again otherId, again.unlinkPlan? = some planId →
        ¬ Ends system (Runs.run (step system) (step system server call) calls) again otherId
  /-- The author of a plan is refused only for lack of authority. -/
  linkOutcome : ∀ planId plan, server.now.linkPlans.get? planId = some plan →
    ∀ calls surroundings ctx now, plan.actorAccountId = ctx.accountId →
      projectLinkPlanOutcome surroundings server.now (Runs.run (step system) server calls).now ctx
          plan.organizationId planId now =
        (outcomeAuthority surroundings ctx plan.organizationId "project.link").map fun projection ↦
          ⟨plan, outcomeState plan.state plan.expiresAt now,
            plan.linkId.bind (Runs.run (step system) server calls).now.links.get?,
            projection.authorizationRevision, now⟩
  unlinkOutcome : ∀ planId plan, server.now.unlinkPlans.get? planId = some plan →
    ∀ calls surroundings ctx now, plan.actorAccountId = ctx.accountId →
      projectUnlinkPlanOutcome surroundings server.now (Runs.run (step system) server calls).now ctx
          plan.organizationId planId now =
        (outcomeAuthority surroundings ctx plan.organizationId "project.unlink").map
          fun projection ↦
            ⟨plan, outcomeState plan.state plan.expiresAt now,
              plan.shownLink (Runs.run (step system) server calls).now.links,
              projection.authorizationRevision, now⟩
  /-- A plan that a settlement found expired is never applied, if the later confirmations of that
  plan read a later clock. -/
  linkExpired : ∀ links surroundings ctx organizationId planId now outcome,
    projectLinkPlanOutcome surroundings server.now links ctx organizationId planId now =
        .ok outcome →
      outcome.state = .expired →
        ∀ calls, (∀ call ∈ calls, call.linkPlan? = some planId → now ≤ call.now) →
          ∃ plan, (Runs.run (step system) server calls).now.linkPlans.get? planId = some plan ∧
            plan.state ≠ .applied
  unlinkExpired : ∀ links surroundings ctx organizationId planId now outcome,
    projectUnlinkPlanOutcome surroundings server.now links ctx organizationId planId now =
        .ok outcome →
      outcome.state = .expired →
        ∀ calls, (∀ call ∈ calls, call.unlinkPlan? = some planId → now ≤ call.now) →
          ∃ plan, (Runs.run (step system) server calls).now.unlinkPlans.get? planId = some plan ∧
            plan.state ≠ .applied
  /-- An applied plan is reported with its link for ever. -/
  linkApplied : ∀ planId plan, server.now.linkPlans.get? planId = some plan →
    plan.state = .applied → ∃ linkId, plan.linkId = some linkId ∧ ∀ calls,
      (Runs.run (step system) server calls).now.linkPlans.get? planId = some plan ∧
        (Runs.run (step system) server calls).now.links.get? linkId ≠ none
  unlinkApplied : ∀ planId plan, server.now.unlinkPlans.get? planId = some plan →
    plan.state = .applied → ∃ link, ∀ calls,
      (Runs.run (step system) server calls).now.unlinkPlans.get? planId = some plan ∧
        plan.shownLink (Runs.run (step system) server calls).now.links = some link
  /-- A confirmation under a key that was confirmed changes nothing. -/
  repeatedLink : ∀ linkId link, server.now.links.get? linkId = some link →
    ∀ calls call organizationId payload newId, call.request = .link organizationId payload newId →
      payload.idempotencyKey = link.createIdempotencyKey →
        (step system (Runs.run (step system) server calls) call).now =
          (Runs.run (step system) server calls).now
  repeatedUnlink : ∀ planId plan key, server.now.unlinkPlans.get? planId = some plan →
    plan.confirmationIdempotencyKey = some key →
      ∀ calls call organizationId linkId payload,
        call.request = .unlink organizationId linkId payload → payload.idempotencyKey = key →
          (step system (Runs.run (step system) server calls) call).now =
            (Runs.run (step system) server calls).now

/-- An unlink plan is applied once, and ends the link that it names. -/
theorem ends_once (hends : Ends system server call linkId) :
    ∃ planId, call.unlinkPlan? = some planId ∧
      (∀ otherId, Ends system server call otherId → otherId = linkId) ∧
      ∀ calls again otherId, again.unlinkPlan? = some planId →
        ¬ Ends system (Runs.run (step system) (step system server call) calls) again otherId := by
  obtain ⟨planId, plan, key, hcall, hplan, -, hlinkId, happlied⟩ := ends_unlinked hends
  refine ⟨planId, hcall, ?_, ?_⟩
  · intro otherId hother
    obtain ⟨planId', plan', -, hcall', hplan', -, hlinkId', -⟩ := ends_unlinked hother
    rw [hcall] at hcall'
    rw [← Option.some.inj hcall', hplan] at hplan'
    rw [← hlinkId', ← hlinkId, Option.some.inj hplan']
  · intro calls again otherId hagain hother
    obtain ⟨planId', plan', -, hagain', hplan', hready, -⟩ := ends_unlinked hother
    rw [hagain] at hagain'
    rw [← Option.some.inj hagain', applied_unlink_plan (run_kept system _ calls) happlied rfl]
      at hplan'
    rw [← Option.some.inj hplan'] at hready
    cases hready

/-- A link plan that expired before `now` stays as it is. -/
theorem run_link_plan {plan : ProjectLinkPlan}
    (hplan : server.now.linkPlans.get? planId = some plan) {now : Int}
    (hexpired : plan.expiresAt ≤ now) {calls : List Call}
    (hclock : ∀ call ∈ calls, call.linkPlan? = some planId → now ≤ call.now) :
    (Runs.run (step system) server calls).now.linkPlans.get? planId = some plan := by
  refine Runs.run_invariant_of_stepsMeet
    (motive := fun state : Server ↦ state.now.linkPlans.get? planId = some plan)
    (fun state call hstate hcall ↦ ?_) server hplan calls (Runs.stepsMeet_of_forall hclock)
  exact step_link_plan hstate fun hsame ↦ hexpired.trans (hcall hsame)

/-- An unlink plan that expired before `now` stays as it is. -/
theorem run_unlink_plan (hplan : server.now.unlinkPlans.get? planId = some plan) {now : Int}
    (hexpired : plan.expiresAt ≤ now) {calls : List Call}
    (hclock : ∀ call ∈ calls, call.unlinkPlan? = some planId → now ≤ call.now) :
    (Runs.run (step system) server calls).now.unlinkPlans.get? planId = some plan := by
  refine Runs.run_invariant_of_stepsMeet
    (motive := fun state : Server ↦ state.now.unlinkPlans.get? planId = some plan)
    (fun state call hstate hcall ↦ ?_) server hplan calls (Runs.stepsMeet_of_forall hclock)
  exact step_unlink_plan hstate fun hsame ↦ hexpired.trans (hcall hsame)

/-- An applied plan names a link, which stays. -/
theorem applied_link (h : server.Settles) {plan : ProjectLinkPlan}
    (hplan : server.now.linkPlans.get? planId = some plan) (hstate : plan.state = .applied) :
    ∃ linkId, plan.linkId = some linkId ∧ ∀ calls,
      (Runs.run (step system) server calls).now.linkPlans.get? planId = some plan ∧
        (Runs.run (step system) server calls).now.links.get? linkId ≠ none := by
  cases h.settled.linkPlans planId plan hplan with
  | ready hready =>
    rw [hstate] at hready
    cases hready
  | applied linkId link _ hlinkId hlink =>
    refine ⟨linkId, hlinkId, ?_⟩
    intro calls
    have hkept := run_kept system server calls
    obtain ⟨later, hlater, -⟩ := hkept.links linkId link hlink
    exact ⟨applied_link_plan hkept hplan hstate, by rw [hlater]; exact Option.some_ne_none _⟩

/-- An applied unlink plan shows one link for ever. -/
theorem applied_unlink (h : server.Settles) (hplan : server.now.unlinkPlans.get? planId = some plan)
    (hstate : plan.state = .applied) :
    ∃ link, ∀ calls,
      (Runs.run (step system) server calls).now.unlinkPlans.get? planId = some plan ∧
        plan.shownLink (Runs.run (step system) server calls).now.links = some link := by
  cases h.settled.unlinkPlans planId plan hplan with
  | ready link hready =>
    rw [hstate] at hready
    cases hready
  | applied key link _ hkey hlink =>
    refine ⟨link, ?_⟩
    intro calls
    have hkept := run_kept system server calls
    have hrow := Option.filter_eq_some_iff.mp (linkOfUnlinkPlan_of_kept hkept hlink)
    refine ⟨applied_unlink_plan hkept hplan hstate, ?_⟩
    unfold ProjectUnlinkPlan.shownLink
    rw [if_pos hstate]
    exact hrow.1

/-- Two links do not come from one plan. -/
theorem one_link (h : Settled server.now) {otherId : String} {other : ProjectLink}
    (hlink : server.now.links.get? linkId = some link)
    (hother : server.now.links.get? otherId = some other) (hplan : link.planId = other.planId) :
    linkId = otherId := by
  obtain ⟨plan, hheld, hlinkId⟩ := h.links linkId link hlink
  obtain ⟨plan', hheld', hlinkId'⟩ := h.links otherId other hother
  rw [hplan, hheld'] at hheld
  rw [Option.some.inj hheld, hlinkId] at hlinkId'
  exact Option.some.inj hlinkId'

/-- Link and unlink plans settle truthfully, in every run. -/
theorem plans_settle (system : System) (calls : List Call) :
    PlansSettle system (Runs.run (step system) .initial calls) := by
  have h : (Runs.run (step system) .initial calls).Settles := run_settles initial_settles calls
  generalize Runs.run (step system) .initial calls = server at h ⊢
  exact {
    oneOpen := h.settled.oneOpen
    oneLink := fun linkId otherId link other hlink hother hplan ↦
      one_link h.settled hlink hother hplan
    oneEnd := fun call linkId hends ↦ ends_once hends
    linkOutcome := fun planId plan hplan later surroundings ctx now hauthor ↦
      linkOutcome_eq h.settled (run_kept system server later) hplan ⟨rfl, hauthor⟩
    unlinkOutcome := fun planId plan hplan later surroundings ctx now hauthor ↦
      unlinkOutcome_eq h.settled (run_kept system server later) hplan ⟨rfl, hauthor⟩
    linkExpired := by
      intro links surroundings ctx organizationId planId now outcome houtcome hstate later hclock
      obtain ⟨hplan, hready, hexpired⟩ := linkOutcome_expired h.settled houtcome hstate
      refine ⟨outcome.plan, run_link_plan hplan hexpired hclock, ?_⟩
      rw [hready]
      exact PlanState.noConfusion
    unlinkExpired := by
      intro links surroundings ctx organizationId planId now outcome houtcome hstate later hclock
      obtain ⟨hplan, hready, hexpired⟩ := unlinkOutcome_expired h.settled houtcome hstate
      refine ⟨outcome.plan, run_unlink_plan hplan hexpired hclock, ?_⟩
      rw [hready]
      exact PlanState.noConfusion
    linkApplied := fun planId plan hplan hstate ↦ applied_link h hplan hstate
    unlinkApplied := fun planId plan hplan hstate ↦ applied_unlink h hplan hstate
    repeatedLink := by
      intro linkId link hlink later call organizationId payload newId hrequest hkey
      obtain ⟨row, hrow, horigin, -⟩ := (run_kept system server later).links linkId link hlink
      have hsame : row.createIdempotencyKey = payload.idempotencyKey := by
        rw [horigin.2.2.2.2.2.2.2.2, hkey]
      exact repeated_link hrequest hrow hsame
    repeatedUnlink := by
      intro planId plan key hplan hkey later call organizationId linkId payload hrequest hsame
      have hstate : plan.state = .applied := by
        cases h.settled.unlinkPlans planId plan hplan with
        | ready link hready hnone =>
          rw [hkey] at hnone
          cases hnone
        | applied key link happlied => exact happlied
      have hstays := applied_unlink_plan (run_kept system server later) hplan hstate
      exact repeated_unlink hrequest hstays (by rw [hkey, hsame]) }

end Runs

end AiStp.Context
