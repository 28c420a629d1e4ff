import AiStp.Articles.Imports
import AiStp.Articles.Staff

/-!
# Owners, pairs and generations

All transactions of the content hub hold the repository state locked from before they read until
they commit, so each of them works on the tables as they are (`Relies`). With what a single
transaction does, this gives what holds in every run: owners and revisions stay, articles are served
in both locales or in neither, what the repository serves is the last imported snapshot, and the
generation counts the transactions that changed it.

A request with an outdated generation or digest is refused, unless it takes down an article that is
not served: that one succeeds and changes nothing.
-/

set_option autoImplicit false

namespace AiStp.Articles

open Foundation Library

/-! ### Requests -/

/-- The revisions that an article serves have the digest that a request expects. -/
def Expects (system : System) (content : Content) (articleType slug : String)
    (expected : Option String) : Prop :=
  ∃ known, requireIdentity articleType slug = .ok known ∧
    pairDigest system content (articleIdentity known slug) = .ok expected

/-- A request that expects something else than there is. An import of the current snapshot expects
nothing. -/
def Outdated (system : System) (content : Content) (state : ArticleRepositoryState) :
    Request → Prop
  | .importSnapshot snapshot => state.snapshotDigest ≠ some snapshot.snapshotDigest ∧
      snapshot.expectedGeneration ≠ state.generation
  | .publish articleType slug request _ =>
    ¬ Expects system content articleType slug request.expectedActiveDigest
  | .unpublish articleType slug expected => ¬ Expects system content articleType slug expected

/-- A request that takes down what is not served. -/
def Repeats (content : Content) : Request → Prop
  | .unpublish articleType slug _ =>
    ∀ known, requireIdentity articleType slug = .ok known →
      ∀ locale, content.active.get? (articleIdentity known slug, locale) = none
  | _ => False

/-- The repository serves a verified snapshot with the digest of the state. -/
def ServesSnapshot (system : System) (content : Content) (digest : String) : Prop :=
  ∃ snapshot today, verifySnapshotDigests system snapshot today = .ok () ∧
    snapshot.snapshotDigest = digest ∧ Matches system content snapshot

structure Kept (system : System) (content : Content) : Prop where
  sound : Sound system content
  paired : Paired content
  state : ∃ state, content.state = some state ∧ ∀ digest, state.snapshotDigest = some digest →
    ServesSnapshot system content digest

/-- The generation counts the changes of what the repository serves. -/
def GenerationFollows (before after : Content) : Prop :=
  ∃ state state', before.state = some state ∧ after.state = some state' ∧
    ((∃ page, after.pointer .repository page ≠ before.pointer .repository page) ∧
        state'.generation = state.generation + 1 ∨
      (∀ page, after.pointer .repository page = before.pointer .repository page) ∧
        state'.generation = state.generation)

/-- What an accepted request leaves of the content, if it is an import: what the repository serves
matches the snapshot, and the articles of the staff are as they were. -/
def Accepted (system : System) (before : Content) (state : ArticleRepositoryState)
    (after : Content) : Request → Prop
  | .importSnapshot snapshot =>
    (state.snapshotDigest = some snapshot.snapshotDigest →
      after = before ∧ ServesSnapshot system after snapshot.snapshotDigest) ∧
    (state.snapshotDigest ≠ some snapshot.snapshotDigest → Matches system after snapshot) ∧
    (∀ page, after.pointer .staff page = before.pointer .staff page) ∧
    ∀ id article, after.articles.get? id = some article → article.sourceKind = .staff →
      before.articles.get? id = some article
  | _ => True

section Requests

variable {system : System} {content : Content} {state : ArticleRepositoryState}

theorem GenerationFollows.refl (hstate : content.state = some state) :
    GenerationFollows content content :=
  ⟨state, state, hstate, hstate, .inr ⟨fun _ ↦ rfl, rfl⟩⟩

/-- What a transaction leaves when it is no import of a new snapshot. -/
theorem ServesSnapshot.of_same {after : Content} {digest : String}
    (h : ServesSnapshot system content digest) (hgrows : Grows content after)
    (hpointers : ∀ page, after.pointer .repository page = content.pointer .repository page) :
    ServesSnapshot system after digest := by
  obtain ⟨snapshot, today, hverified, hdigest, hmatches⟩ := h
  refine ⟨snapshot, today, hverified, hdigest, ?_⟩
  constructor
  · intro page
    rw [hpointers]
    exact hmatches.pages page
  · intro entry hentry
    have hshows := hmatches.shows entry hentry
    refine hshows.grows hgrows ?_
    obtain ⟨article, id, -, harticle, hkind, hid, -⟩ := hshows
    have hpage := hpointers entry.page
    rw [Content.pointer_eq (hgrows.articles entry.identity article harticle), if_pos hkind] at hpage
    rw [hpage, Content.pointer_eq harticle, if_pos hkind]

theorem Staffed.kept {Reply : Type} {outcome : Outcome Reply} (h : Staffed system content outcome)
    (hkept : Kept system content) : Kept system outcome.content := by
  refine ⟨h.written.sound, h.written.paired hkept.paired, ?_⟩
  obtain ⟨state, hstate, hserves⟩ := hkept.state
  refine ⟨state, h.state.trans hstate, ?_⟩
  intro digest hdigest
  exact (hserves digest hdigest).of_same h.written.grows h.repository

theorem Staffed.follows {Reply : Type} {outcome : Outcome Reply}
    (h : Staffed system content outcome) (hstate : content.state = some state) :
    GenerationFollows content outcome.content :=
  ⟨state, state, hstate, h.state.trans hstate, .inr ⟨h.repository, rfl⟩⟩

/-- What a handler leaves. -/
structure Handled (system : System) (content : Content) (state : ArticleRepositoryState)
    (request : Request) (after : Content) (effects : List Effect) : Prop where
  kept : Kept system after
  written : Written system content after effects
  follows : GenerationFollows content after
  accepted : Accepted system content state after request
  current : Outdated system content state request → Repeats content request ∧ after = content
  again : ∀ snapshot, request = .importSnapshot snapshot →
    state.snapshotDigest = some snapshot.snapshotDigest → after = content ∧ effects = []

/-- An article that is not stored serves nothing. -/
theorem Sound.expects (hsound : Sound system content) {articleType slug : String}
    {known : ContentType} {expected : Option String}
    (hknown : requireIdentity articleType slug = .ok known)
    (h : expectedPair system content (articleIdentity known slug) = .ok expected) :
    Expects system content articleType slug expected := by
  refine ⟨known, hknown, ?_⟩
  unfold expectedPair at h
  split at h
  · next harticle =>
    have hnone : ∀ locale, content.active.get? (articleIdentity known slug, locale) = none := by
      intro locale
      cases hactive : content.active.get? (articleIdentity known slug, locale) with
      | none => rfl
      | some id =>
        obtain ⟨article, hheld⟩ := hsound.article_of_active hactive
        change content.articles.get? (articleIdentity known slug) = some article at hheld
        rw [harticle] at hheld
        cases hheld
    unfold pairDigest
    rw [hnone, hnone]
    exact h
  · simp only [bind_eq_ok, require_eq_ok] at h
    obtain ⟨-, -, hpair⟩ := h
    exact hpair

theorem importRepositorySnapshot_spec {snapshot : ContentRepositoryImportRequest}
    {now : DateTime} {outcome : Outcome ContentRepositoryImportResponse}
    (hkept : Kept system content) (hstate : content.state = some state)
    (hverify : verifySnapshotDigests system snapshot now.date = .ok ())
    (h : importRepositorySnapshot system content state snapshot now = .ok outcome) :
    Handled system content state (.importSnapshot snapshot) outcome.content outcome.effects := by
  obtain ⟨held, hheld, hserves⟩ := hkept.state
  have hsame : held = state := Option.some.inj (hheld.symm.trans hstate)
  unfold importRepositorySnapshot at h
  by_cases hcurrent : state.snapshotDigest = some snapshot.snapshotDigest
  · rw [if_pos hcurrent] at h
    rw [← Except.ok.inj h]
    constructor
    · exact hkept
    · exact .refl hkept.sound
    · exact .refl hstate
    · refine ⟨fun _ ↦ ⟨rfl, hserves _ (hsame ▸ hcurrent)⟩, fun hne ↦ absurd hcurrent hne,
        fun _ ↦ rfl, fun _ _ harticle _ ↦ harticle⟩
    · rintro ⟨hne, -⟩
      exact absurd hcurrent hne
    · exact fun _ _ _ ↦ ⟨rfl, rfl⟩
  · rw [if_neg hcurrent] at h
    by_cases hgeneration : snapshot.expectedGeneration ≠ state.generation
    · rw [if_pos hgeneration] at h
      cases h
    · rw [if_neg hgeneration] at h
      by_cases hconflicts : conflicts content snapshot.entries = true
      · rw [if_pos hconflicts] at h
        cases h
      · rw [if_neg hconflicts] at h
        have himported := replaceSnapshot_spec hkept.sound (verified_of_verify hverify)
          (unclaimed_of_conflicts (Bool.not_eq_true _ ▸ hconflicts)) h
        obtain ⟨generation, hafter, hcount⟩ := himported.generation
        constructor
        · refine ⟨himported.written.sound, himported.written.paired hkept.paired, _, hafter, ?_⟩
          intro digest hdigest
          exact ⟨snapshot, now.date, hverify, Option.some.inj hdigest, himported.matched⟩
        · exact himported.written
        · exact ⟨state, _, hstate, hafter, hcount⟩
        · refine ⟨fun heq ↦ absurd heq hcurrent, fun _ ↦ himported.matched, himported.staff, ?_⟩
          intro id article harticle hstaff
          rcases himported.owners id article harticle with hold | hnew
          · exact hold
          · rw [hstaff] at hnew
            cases hnew
        · rintro ⟨-, hne⟩
          exact absurd hne hgeneration
        · intro other hrequest heq
          cases hrequest
          exact absurd heq hcurrent

theorem handle_spec {request : Request} {now : DateTime} {outcome : Outcome Reply}
    (hkept : Kept system content) (hstate : content.state = some state)
    (hcheck : request.check system now = .ok ())
    (h : request.handle system now content state = .ok outcome) :
    Handled system content state request outcome.content outcome.effects := by
  cases request with
  | importSnapshot snapshot =>
    cases hrun : importRepositorySnapshot system content state snapshot now with
    | error fault =>
      simp only [Request.handle, hrun, Functor.map, Except.map] at h
      cases h
    | ok result =>
      simp only [Request.handle, hrun, Functor.map, Except.map, Except.ok.injEq] at h
      rw [← h]
      exact importRepositorySnapshot_spec hkept hstate hcheck hrun
  | publish articleType slug body actor =>
    cases hrun : publishStaffArticle system content articleType slug body actor now with
    | error fault =>
      simp only [Request.handle, hrun, Functor.map, Except.map] at h
      cases h
    | ok result =>
      simp only [Request.handle, hrun, Functor.map, Except.map, Except.ok.injEq] at h
      rw [← h]
      obtain ⟨hstaffed, known, hknown, hexpected⟩ := publishStaffArticle_spec hkept.sound hrun
      refine ⟨hstaffed.kept hkept, hstaffed.written, hstaffed.follows hstate, trivial, ?_, ?_⟩
      · intro houtdated
        exact absurd (hkept.sound.expects hknown hexpected) houtdated
      · intro snapshot hrequest
        cases hrequest
  | unpublish articleType slug expected =>
    cases hrun : unpublishStaffArticle system content articleType slug expected now with
    | error fault =>
      simp only [Request.handle, hrun, Functor.map, Except.map] at h
      cases h
    | ok result =>
      simp only [Request.handle, hrun, Functor.map, Except.map, Except.ok.injEq] at h
      rw [← h]
      obtain ⟨hstaffed, known, hknown, hcase⟩ := unpublishStaffArticle_spec hkept.sound hrun
      refine ⟨hstaffed.kept hkept, hstaffed.written, hstaffed.follows hstate, trivial, ?_, ?_⟩
      · intro houtdated
        rcases hcase with ⟨hnone, hsame, -⟩ | ⟨digest, rfl, hpair⟩
        · refine ⟨?_, hsame⟩
          intro other hother
          rw [hknown] at hother
          rw [← Except.ok.inj hother]
          exact hnone
        · exact absurd ⟨known, hknown, hpair⟩ houtdated
      · intro snapshot hrequest
        cases hrequest

end Requests

/-! ### Transactions -/

/-- What a transaction relies on: from the lock on, the tables are those that it has read. -/
def Relies (system : System) (db : Database) (locks : List Lock) : Work → Prop
  | .waiting _ => True
  | .locked call state => .repositoryState ∈ locks ∧ db.content.state = some state ∧
      call.request.check system call.now = .ok ()
  | .read call state content => .repositoryState ∈ locks ∧ db.content.state = some state ∧
      call.request.check system call.now = .ok () ∧ content = db.content

section Transactions

variable {system : System} {db : Database}

theorem relies_of_lockState {call : Call} {locks taken : List Lock} {work : Work}
    (h : lockState system db call = .next taken work) :
    Relies system db (locks ++ taken) work := by
  unfold lockState at h
  split at h
  · next state hcheck hstate =>
    cases h
    exact ⟨by simp, hstate, hcheck⟩
  · cases h

theorem commit_read {work : Work} {taken : List Lock} {after : Database}
    (h : statement system db work () = .commit taken after) :
    ∃ call state content outcome, work = .read call state content ∧
      call.request.handle system call.now content state = .ok outcome ∧
      outcome.effects.foldlM (fun jobs effect ↦
        enqueueArticleSeoEffect system jobs effect call.enqueuedAt) db.jobs = .ok after.jobs ∧
      after.content = outcome.content ∧ taken = [] := by
  cases work with
  | waiting call =>
    change lockState system db call = _ at h
    unfold lockState at h
    split at h <;> cases h
  | locked call state => cases h
  | read call state content =>
    unfold statement at h
    dsimp only at h
    cases hwrite : call.write system state content db.jobs with
    | error fault =>
      rw [hwrite] at h
      cases h
    | ok written =>
      rw [hwrite] at h
      cases h
      simp only [Call.write, bind_eq_ok, pure, Except.pure, Except.ok.injEq] at hwrite
      obtain ⟨outcome, houtcome, jobs, hjobs, rfl⟩ := hwrite
      exact ⟨call, state, content, outcome, rfl, houtcome, hjobs, rfl, rfl⟩

/-- What commits is what the handler makes of the tables as they are. -/
theorem Relies.handled {work : Work} {locks taken : List Lock} {after : Database}
    (hkept : Kept system db.content) (hrelies : Relies system db locks work)
    (h : statement system db work () = .commit taken after) :
    ∃ (call : Call) (state : ArticleRepositoryState) (outcome : Outcome Reply),
      work = .read call state db.content ∧ db.content.state = some state ∧
      .repositoryState ∈ locks ∧ after.content = outcome.content ∧
      outcome.effects.foldlM (fun jobs effect ↦
        enqueueArticleSeoEffect system jobs effect call.enqueuedAt) db.jobs = .ok after.jobs ∧
      Handled system db.content state call.request outcome.content outcome.effects := by
  obtain ⟨call, state, content, outcome, rfl, hhandle, hjobs, hafter, -⟩ := commit_read h
  obtain ⟨hlock, hstate, hcheck, rfl⟩ := hrelies
  exact ⟨call, state, outcome, rfl, hstate, hlock, hafter, hjobs,
    handle_spec hkept hstate hcheck hhandle⟩

theorem transactions_keep (system : System) : Transactions.Keeps (transactions system)
    (fun db ↦ Kept system db.content) (Relies system) := by
  constructor
  · intro db work _ hstarts
    cases work with
    | waiting call => trivial
    | locked call state => cases hstarts
    | read call state content => cases hstarts
  · intro db locks work input taken after _ hrelies hnext
    cases work with
    | waiting call => exact relies_of_lockState hnext
    | locked call state =>
      obtain ⟨hlock, hstate, hcheck⟩ := hrelies
      cases hnext
      refine ⟨List.mem_append_left _ hlock, hstate, hcheck, ?_⟩
      rw [← hstate]
    | read call state content =>
      simp only [transactions, statement] at hnext
      split at hnext <;> cases hnext
  · intro db locks work input taken after hkept hrelies hcommit
    obtain ⟨call, state, outcome, -, -, -, hafter, -, hhandled⟩ := hrelies.handled hkept hcommit
    show Kept system after.content
    rw [hafter]
    exact hhandled.kept
  · intro db locks work input taken after hkept hrelies hcommit otherLocks other hdisjoint hother
    obtain ⟨-, -, -, -, -, hlock, -⟩ := hrelies.handled hkept hcommit
    have hfree := hdisjoint .repositoryState (List.mem_append_left _ hlock)
    cases other with
    | waiting call => trivial
    | locked call state => exact absurd hother.1 hfree
    | read call state content => exact absurd hother.1 hfree

/-! ### Runs -/

abbrev Machine := Transactions.Machine Database Lock Work

abbrev Action := Transactions.Action Work Unit

/-- The content hub after a run from the empty one. -/
def reached (system : System) (actions : List Action) : Machine :=
  Runs.run (Transactions.step (transactions system)) ⟨.initial, .empty⟩ actions

theorem kept_initial (system : System) : Kept system .initial := by
  refine ⟨sound_initial system, fun _ ↦ rfl, _, rfl, ?_⟩
  intro digest hdigest
  cases hdigest

theorem reached_sound (system : System) (actions : List Action) :
    Transactions.Sound (fun db ↦ Kept system db.content) (Relies system)
      (reached system actions) :=
  Transactions.run_sound (transactions_keep system) _
    (Transactions.sound_idle (kept_initial system)) actions

/-- In every run the rows of the content hub are sound, articles are served in both locales or in
neither, and what the repository serves is the snapshot that the state names. -/
theorem content_kept (system : System) (actions : List Action) :
    Kept system (reached system actions).db.content :=
  (reached_sound system actions).invariant

/-- A step leaves the tables, or one transaction commits what its handler makes of them. -/
theorem step_content {machine : Machine}
    (hsound : Transactions.Sound (fun db ↦ Kept system db.content) (Relies system) machine)
    (action : Action) :
    (Transactions.step (transactions system) machine action).db = machine.db ∨
      ∃ state request effects, Handled system machine.db.content state request
        (Transactions.step (transactions system) machine action).db.content effects := by
  rcases Transactions.step_db (transactions system) machine action with hsame |
    ⟨id, input, current, taken, -, hcurrent, -, hcommit⟩
  · exact .inl hsame
  · obtain ⟨call, state, outcome, -, -, -, hafter, -, hhandled⟩ :=
      (hsound.relies id current hcurrent).handled hsound.invariant hcommit
    right
    rw [hafter]
    exact ⟨state, call.request, outcome.effects, hhandled⟩

/-- One more step of a run. -/
theorem reached_step (system : System) (actions : List Action) (action : Action) :
    reached system (actions ++ [action]) =
      Transactions.step (transactions system) (reached system actions) action := by
  unfold reached
  rw [Runs.run_append]
  rfl

theorem reached_grows (system : System) (actions later : List Action) :
    Grows (reached system actions).db.content (reached system (actions ++ later)).db.content := by
  induction later using List.reverseRecOn with
  | nil =>
    rw [List.append_nil]
    exact .refl _
  | append_singleton later action ih =>
    refine ih.trans ?_
    rw [← List.append_assoc, reached_step]
    rcases step_content (reached_sound system (actions ++ later)) action with hsame |
      ⟨state, request, effects, hhandled⟩
    · rw [hsame]
      exact .refl _
    · exact hhandled.written.grows

theorem reached_follows (system : System) (actions : List Action) (action : Action) :
    GenerationFollows (reached system actions).db.content
      (reached system (actions ++ [action])).db.content := by
  have hsound := reached_sound system actions
  rw [reached_step]
  rcases step_content hsound action with hsame | ⟨state, request, effects, hhandled⟩
  · obtain ⟨state, hstate, -⟩ := hsound.invariant.state
    rw [hsame]
    exact .refl hstate
  · exact hhandled.follows

/-- What a transaction that is about to write does: it commits what an accepted request leaves, or
it ends and leaves nothing. -/
structure Settles (system : System) (db : Database) (call : Call)
    (state : ArticleRepositoryState) (content : Content) : Prop where
  accepted : ∀ taken after, statement system db (.read call state content) () =
    .commit taken after → Accepted system db.content state after.content call.request
  again : ∀ snapshot taken after, call.request = .importSnapshot snapshot →
    state.snapshotDigest = some snapshot.snapshotDigest →
      statement system db (.read call state content) () = .commit taken after → after = db
  refused : Outdated system db.content state call.request → ¬ Repeats db.content call.request →
    statement system db (.read call state content) () = .abort
  repeated : Outdated system db.content state call.request → Repeats db.content call.request →
    ∀ taken after, statement system db (.read call state content) () = .commit taken after →
      after.content = db.content

theorem settles {db : Database} {locks : List Lock} {call : Call}
    {state : ArticleRepositoryState} {content : Content} (hkept : Kept system db.content)
    (hrelies : Relies system db locks (.read call state content)) :
    db.content.state = some state ∧ Settles system db call state content := by
  refine ⟨hrelies.2.1, ?_⟩
  have hhandled : ∀ taken after, statement system db (.read call state content) () =
      .commit taken after → ∃ effects : List Effect,
        effects.foldlM (fun jobs effect ↦
          enqueueArticleSeoEffect system jobs effect call.enqueuedAt) db.jobs = .ok after.jobs ∧
        Handled system db.content state call.request after.content effects := by
    intro taken after hcommit
    obtain ⟨held, state', outcome, hwork, -, -, hafter, hjobs, hhandled⟩ :=
      hrelies.handled hkept hcommit
    cases hwork
    rw [hafter]
    exact ⟨outcome.effects, hjobs, hhandled⟩
  constructor
  · intro taken after hcommit
    obtain ⟨effects, -, h⟩ := hhandled taken after hcommit
    exact h.accepted
  · intro snapshot taken after hrequest hcurrent hcommit
    obtain ⟨effects, hjobs, h⟩ := hhandled taken after hcommit
    obtain ⟨hcontent, rfl⟩ := h.again snapshot hrequest hcurrent
    have hsame : db.jobs = after.jobs := Except.ok.inj hjobs
    cases after
    cases db
    simp_all
  · intro houtdated hrepeats
    cases hstatement : statement system db (.read call state content) () with
    | next taken work =>
      unfold statement at hstatement
      dsimp only at hstatement
      split at hstatement <;> cases hstatement
    | commit taken after =>
      obtain ⟨effects, -, h⟩ := hhandled taken after hstatement
      exact absurd (h.current houtdated).1 hrepeats
    | abort => rfl
  · intro houtdated _ taken after hcommit
    obtain ⟨effects, -, h⟩ := hhandled taken after hcommit
    exact (h.current houtdated).2

/-- In every run, owners and revisions stay, every revision has the digest of its fields, articles
are served in both locales or in neither, the generation counts the changes of what the repository
serves, and every transaction that has read the tables settles as its request deserves. -/
theorem articles_keep_owners_pairs_generations (system : System) (actions later : List Action)
    (action : Action) :
    Grows (reached system actions).db.content
      (reached system (actions ++ later)).db.content ∧
    (∀ id revision, (reached system actions).db.content.revisions.get? id = some revision →
      Addressed system (reached system actions).db.content revision) ∧
    Paired (reached system actions).db.content ∧
    GenerationFollows (reached system actions).db.content
      (reached system (actions ++ [action])).db.content ∧
    ∀ id call state content locks,
      (reached system actions).running.get? id = some ⟨.read call state content, locks⟩ →
        (reached system actions).db.content.state = some state ∧
          Settles system (reached system actions).db call state content := by
  have hsound := reached_sound system actions
  refine ⟨reached_grows system actions later, hsound.invariant.sound.addressed,
    hsound.invariant.paired, reached_follows system actions action, ?_⟩
  intro id call state content locks hcurrent
  exact settles hsound.invariant (hsound.relies id _ hcurrent)

end Transactions

/-! ### A request that is refused by nothing -/

namespace Sample

def system : System where
  platform := Foundation.asciiPlatform
  validateArticleBody _ := .ok ()
  templateVersion := "v1"

def moment : DateTime := ⟨⟨2024, 1, 2⟩, 0⟩

def translation : Translation := ⟨"Title", "About", "2024-01-01", [], "Body", none, none⟩

def publish (expected : Option String) : Call :=
  ⟨.publish "article" "first" ⟨expected, translation, translation⟩ "account", moment, 0⟩

def unpublish (expected : Option String) : Call :=
  ⟨.unpublish "article" "first" expected, moment, 0⟩

/-- A transaction that does all that it has to do. -/
def transact (id : Nat) (call : Call) : List Action :=
  [.begin id (.waiting call), .advance id (), .advance id (), .advance id ()]

/-- What the article serves after it is published. -/
def servedDigest : Option String :=
  match pairDigest system (reached system (transact 1 (publish none))).db.content
      "article:first" with
  | .ok digest => digest
  | .error _ => none

/-- The article is taken down, and then once more with the digest that it had. -/
def twice : List Action :=
  transact 1 (publish none) ++ transact 2 (unpublish servedDigest) ++
    (transact 3 (unpublish servedDigest)).take 3

instance (content : Content) (articleType slug : String) (expected : Option String) :
    Decidable (Expects system content articleType slug expected) :=
  match h : requireIdentity articleType slug with
  | .error fault => .isFalse fun ⟨_, hknown, _⟩ ↦ nomatch h.symm.trans hknown
  | .ok known =>
    decidable_of_iff (pairDigest system content (articleIdentity known slug) = .ok expected) <| by
      constructor
      · intro hpair
        exact ⟨known, h, hpair⟩
      · rintro ⟨other, hother, hpair⟩
        rw [Except.ok.inj (h.symm.trans hother)]
        exact hpair

/-- Whether a transaction is refused if it takes down something else than there is. -/
def refuses (machine : Machine) (id : Nat) : Bool :=
  match machine.running.get? id with
  | some ⟨.read ⟨.unpublish articleType slug expected, now, enqueuedAt⟩ state content, _⟩ =>
    decide (Expects system machine.db.content articleType slug expected) ||
      match statement system machine.db
        (.read ⟨.unpublish articleType slug expected, now, enqueuedAt⟩ state content) () with
      | .abort => true
      | _ => false
  | _ => true

end Sample

/-- Taking an article down twice with the same digest succeeds both times. -/
theorem articles_accept_outdated : ¬ ∀ (system : System) (actions : List Action) (id : Nat)
    (call : Call) (state : ArticleRepositoryState) (content : Content) (locks : List Lock),
    (reached system actions).running.get? id = some ⟨.read call state content, locks⟩ →
      Outdated system (reached system actions).db.content state call.request →
        statement system (reached system actions).db (.read call state content) () = .abort := by
  intro h
  have hrefuses : Sample.refuses (reached Sample.system Sample.twice) 3 = false := by
    decide +kernel
  unfold Sample.refuses at hrefuses
  split at hrefuses
  · next articleType slug expected now enqueuedAt state content locks hread =>
    rw [Bool.or_eq_false_iff, decide_eq_false_iff_not] at hrefuses
    obtain ⟨houtdated, hstatement⟩ := hrefuses
    rw [h Sample.system Sample.twice 3 _ state content locks hread houtdated] at hstatement
    cases hstatement
  · cases hrefuses

end AiStp.Articles
