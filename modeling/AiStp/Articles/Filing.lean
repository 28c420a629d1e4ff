import AiStp.Articles.Service

/-!
# Filing revisions and pointing to them

`Sound` is what the rows of the content hub always satisfy: an article is stored under its identity,
a revision under an article with the digest of its own fields, and a pointer of a page points to a
revision of that page. `Ensured` says what adding an article does, and `Served` what filing a
revision and pointing a page to it does. Both keep sound rows sound, and rows that are stored stay
as they are (`Grows`).
-/

set_option autoImplicit false

namespace AiStp.Articles

open Library

/-! ### Identities are injective -/

theorem ContentType.colon_notMem (articleType : ContentType) :
    ':' ∉ articleType.text.toList := by
  cases articleType <;> decide

theorem ContentType.text_injective : Function.Injective ContentType.text := by
  intro first second h
  cases first <;> cases second <;> first | rfl | exact absurd h (by decide)

theorem articleIdentity_eq (articleType : ContentType) (slug : String) :
    (articleIdentity articleType slug).toList =
      articleType.text.toList ++ ':' :: slug.toList := by
  show (articleType.text ++ ":" ++ slug).toList = _
  simp [String.toList_append]

theorem articleIdentity_inj {first second : ContentType} {slug slug' : String}
    (h : articleIdentity first slug = articleIdentity second slug') :
    first = second ∧ slug = slug' := by
  have hlist := congrArg String.toList h
  rw [articleIdentity_eq, articleIdentity_eq] at hlist
  obtain ⟨htype, hslug⟩ := append_cons_inj first.colon_notMem second.colon_notMem hlist
  constructor
  · exact ContentType.text_injective (String.toList_inj.mp htype)
  · exact String.toList_inj.mp hslug

/-- Entries that are no duplicates have different pages. -/
theorem ContentSnapshotEntry.key_of_page {first second : ContentSnapshotEntry}
    (h : first.page = second.page) : first.key = second.key := by
  obtain ⟨hidentity, hlocale⟩ := Prod.mk.inj h
  obtain ⟨htype, hslug⟩ := articleIdentity_inj hidentity
  unfold ContentSnapshotEntry.key
  rw [htype, hslug, hlocale]

/-! ### Rows that stay -/

/-- No article and no revision is removed or changed. -/
structure Grows (before after : Content) : Prop where
  articles : ∀ id article, before.articles.get? id = some article →
    after.articles.get? id = some article
  revisions : ∀ id revision, before.revisions.get? id = some revision →
    after.revisions.get? id = some revision

theorem Grows.refl (content : Content) : Grows content content where
  articles := fun _ _ h ↦ h
  revisions := fun _ _ h ↦ h

theorem Grows.trans {first second third : Content} (h : Grows first second)
    (h' : Grows second third) : Grows first third where
  articles := fun id article harticle ↦ h'.articles id article (h.articles id article harticle)
  revisions := fun id revision hrevision ↦
    h'.revisions id revision (h.revisions id revision hrevision)

/-- Writing pointers and the state leaves both tables. -/
theorem Grows.of_eq {before after : Content} (harticles : after.articles = before.articles)
    (hrevisions : after.revisions = before.revisions) : Grows before after where
  articles := fun id article h ↦ by rw [harticles, h]
  revisions := fun id revision h ↦ by rw [hrevisions, h]

theorem get?_of_insert? {Key Row : Type} [DecidableEq Key] {before after : Table Key Row}
    {key other : Key} {row held : Row} (h : before.insert? key row = some after)
    (hheld : before.get? other = some held) : after.get? other = some held := by
  obtain ⟨kept, hkept, rfl⟩ := Table.keeps_insert? (fun _ ↦ rfl) h other held hheld
  exact hkept

/-! ### Sound rows -/

/-- A revision belongs to a stored article, and its digest is the one of its fields. -/
def Addressed (system : System) (content : Content) (revision : ArticleRevision) : Prop :=
  ∃ article, content.articles.get? revision.articleId = some article ∧
    revisionContentDigest system article.articleType article.slug revision.locale
      revision.translation revision.source = .ok revision.contentDigest

structure Sound (system : System) (content : Content) : Prop where
  typed : ∀ id article, content.articles.get? id = some article →
    id = articleIdentity article.articleType article.slug
  addressed : ∀ id revision, content.revisions.get? id = some revision →
    Addressed system content revision
  pointed : ∀ page id, content.active.get? page = some id → ∃ revision,
    content.revisions.get? id = some revision ∧ revision.articleId = page.1 ∧
      revision.locale = page.2

section Sound

variable {system : System} {content after : Content}

theorem Addressed.grows {revision : ArticleRevision} (h : Addressed system content revision)
    (hgrows : Grows content after) : Addressed system after revision := by
  obtain ⟨article, harticle, hdigest⟩ := h
  exact ⟨article, hgrows.articles revision.articleId article harticle, hdigest⟩

/-- A page that is served belongs to a stored article. -/
theorem Sound.article_of_active (h : Sound system content) {page : Page} {id : String}
    (hactive : content.active.get? page = some id) :
    ∃ article, content.articles.get? page.1 = some article := by
  obtain ⟨revision, hrevision, hplace, -⟩ := h.pointed page id hactive
  obtain ⟨article, harticle, -⟩ := h.addressed id revision hrevision
  exact ⟨article, hplace ▸ harticle⟩

/-- Removing pointers and writing the state keep the rows sound. -/
theorem Sound.of_fewer (h : Sound system content) (harticles : after.articles = content.articles)
    (hrevisions : after.revisions = content.revisions)
    (hactive : ∀ page id, after.active.get? page = some id →
      content.active.get? page = some id) : Sound system after := by
  constructor
  · intro id article harticle
    rw [harticles] at harticle
    exact h.typed id article harticle
  · intro id revision hrevision
    rw [hrevisions] at hrevision
    exact (h.addressed id revision hrevision).grows (.of_eq harticles hrevisions)
  · intro page id hid
    rw [hrevisions]
    exact h.pointed page id (hactive page id hid)

theorem sound_initial (system : System) : Sound system .initial where
  typed := fun _ _ h ↦ nomatch h
  addressed := fun _ _ h ↦ nomatch h
  pointed := fun _ _ h ↦ nomatch h

end Sound

/-! ### Adding an article -/

/-- The tables with the article of an identity in them. -/
structure Ensured (before : Content) (identity : String) (fresh article : Article)
    (after : Content) : Prop where
  held : after.articles.get? identity = some article
  grows : Grows before after
  others : ∀ other, other ≠ identity → after.articles.get? other = before.articles.get? other
  revisions : after.revisions = before.revisions
  active : after.active = before.active
  state : after.state = before.state
  known : before.articles.get? identity = some article ∨
    before.articles.get? identity = none ∧ article = fresh

theorem ensureArticle_spec {content after : Content} {identity slug : String}
    {articleType : ContentType} {sourceKind : ContentSourceKind} {now : DateTime}
    {article : Article}
    (h : ensureArticle content identity articleType slug sourceKind now = .ok (article, after)) :
    Ensured content identity ⟨articleType, slug, sourceKind, now⟩ article after := by
  unfold ensureArticle at h
  cases hheld : content.articles.get? identity with
  | some held =>
    simp only [hheld, Except.ok.injEq, Prod.mk.injEq] at h
    obtain ⟨rfl, rfl⟩ := h
    exact ⟨hheld, .refl _, fun _ _ ↦ rfl, rfl, rfl, rfl, .inl hheld⟩
  | none =>
    simp only [hheld, bind_eq_ok, raising_eq_ok, pure, Except.pure, Except.ok.injEq,
      Prod.mk.injEq] at h
    obtain ⟨articles, hinsert, rfl, rfl⟩ := h
    obtain ⟨-, hget⟩ := Table.insert?_eq_some hinsert
    constructor
    · show articles.get? identity = _
      rw [hget, if_pos rfl]
    · exact ⟨fun id article ↦ get?_of_insert? hinsert, fun _ _ h ↦ h⟩
    · intro other hother
      show articles.get? other = _
      rw [hget, if_neg hother]
    · rfl
    · rfl
    · rfl
    · exact .inr ⟨hheld, rfl⟩

theorem Ensured.sound {system : System} {before after : Content} {identity : String}
    {fresh article : Article} (h : Ensured before identity fresh article after)
    (hsound : Sound system before)
    (hidentity : identity = articleIdentity fresh.articleType fresh.slug) :
    Sound system after := by
  constructor
  · intro id held hheld
    by_cases hid : id = identity
    · rw [hid, h.held] at hheld
      rw [← Option.some.inj hheld, hid]
      rcases h.known with hknown | ⟨-, hfresh⟩
      · exact hsound.typed identity article hknown
      · rw [hfresh]
        exact hidentity
    · rw [h.others id hid] at hheld
      exact hsound.typed id held hheld
  · intro id revision hrevision
    rw [h.revisions] at hrevision
    exact (hsound.addressed id revision hrevision).grows h.grows
  · intro page id hid
    rw [h.active] at hid
    rw [h.revisions]
    exact hsound.pointed page id hid

/-! ### Filing a revision -/

/-- A stored revision of a page whose digest is the one of a content. -/
structure FiledFor (system : System) (before : Content) (article : Article) (page : Page)
    (translation : Translation) (source : Source) (filed : Filed) : Prop where
  articles : filed.content.articles = before.articles
  active : filed.content.active = before.active
  state : filed.content.state = before.state
  grows : Grows before filed.content
  stored : filed.content.revisions.get? filed.revisionId = some filed.revision
  place : filed.revision.articleId = page.1 ∧ filed.revision.locale = page.2
  digest : revisionContentDigest system article.articleType article.slug page.2
    translation.sorted source = .ok filed.revision.contentDigest
  added : ∀ id revision, filed.content.revisions.get? id = some revision →
    before.revisions.get? id = some revision ∨
      revision.articleId = page.1 ∧
        revisionContentDigest system article.articleType article.slug revision.locale
          revision.translation revision.source = .ok revision.contentDigest

theorem revisionFor_spec {system : System} {content : Content} {page : Page} {article : Article}
    {translation : Translation} {source : Source} {actor : Option String} {now : DateTime}
    {filed : Filed}
    (h : revisionFor system content page.1 article page.2 translation source actor now =
      .ok filed) : FiledFor system content article page translation source filed := by
  simp only [revisionFor, bind_eq_ok] at h
  obtain ⟨digest, hdigest, h⟩ := h
  split at h
  · next id row hfind =>
    obtain ⟨hrow, hcondition⟩ := Table.find?_eq_some hfind
    simp only [decide_eq_true_eq] at hcondition
    obtain ⟨hid, hlocale, hcontent⟩ := hcondition
    cases h
    exact ⟨rfl, rfl, rfl, .refl _, hrow, ⟨hid, hlocale⟩, hcontent ▸ hdigest,
      fun _ _ hrevision ↦ .inl hrevision⟩
  · next hfind =>
    simp only [fileRevision, bind_eq_ok, raising_eq_ok] at h
    obtain ⟨revisionId, -, revisions, hinsert, h⟩ := h
    obtain ⟨-, hget⟩ := Table.insert?_eq_some hinsert
    cases h
    constructor
    · rfl
    · rfl
    · rfl
    · exact ⟨fun _ _ h ↦ h, fun _ _ ↦ get?_of_insert? hinsert⟩
    · show revisions.get? revisionId = _
      rw [hget, if_pos rfl]
    · exact ⟨rfl, rfl⟩
    · exact hdigest
    · intro id revision hrevision
      change revisions.get? id = some revision at hrevision
      rw [hget] at hrevision
      by_cases hid : id = revisionId
      · rw [if_pos hid] at hrevision
        rw [← Option.some.inj hrevision]
        exact .inr ⟨rfl, hdigest⟩
      · rw [if_neg hid] at hrevision
        exact .inl hrevision

/-! ### Pointing to a revision -/

/-- A page is served from a revision with the digest of a content, and nothing else changes but
the stored revisions. -/
structure Served (system : System) (before : Content) (article : Article) (page : Page)
    (translation : Translation) (source : Source) (filed : Filed) (activated : Bool)
    (after : Content) : Prop where
  articles : after.articles = before.articles
  state : after.state = before.state
  grows : Grows before after
  stored : after.revisions.get? filed.revisionId = some filed.revision
  place : filed.revision.articleId = page.1 ∧ filed.revision.locale = page.2
  digest : revisionContentDigest system article.articleType article.slug page.2
    translation.sorted source = .ok filed.revision.contentDigest
  added : ∀ id revision, after.revisions.get? id = some revision →
    before.revisions.get? id = some revision ∨
      revision.articleId = page.1 ∧
        revisionContentDigest system article.articleType article.slug revision.locale
          revision.translation revision.source = .ok revision.contentDigest
  active : ∀ other, after.active.get? other =
    if other = page then some filed.revisionId else before.active.get? other
  unchanged : activated = true ↔ before.active.get? page ≠ some filed.revisionId

theorem setActive_active {content after : Content} {page : Page} {revisionId : String}
    {activated : Bool}
    (h : setActive content page revisionId (content.active.get? page) = .ok (after, activated)) :
    (after.articles = content.articles ∧ after.revisions = content.revisions ∧
        after.state = content.state) ∧
      (∀ other, after.active.get? other =
        if other = page then some revisionId else content.active.get? other) ∧
      (activated = true ↔ content.active.get? page ≠ some revisionId) := by
  unfold setActive at h
  cases hcurrent : content.active.get? page with
  | none =>
    simp only [hcurrent, bind_eq_ok, raising_eq_ok, pure, Except.pure, Except.ok.injEq,
      Prod.mk.injEq] at h
    obtain ⟨active, hinsert, rfl, rfl⟩ := h
    exact ⟨⟨rfl, rfl, rfl⟩, (Table.insert?_eq_some hinsert).2, by simp⟩
  | some held =>
    simp only [hcurrent] at h
    by_cases hsame : held = revisionId
    · rw [if_pos hsame] at h
      cases h
      refine ⟨⟨rfl, rfl, rfl⟩, ?_, by simp [hsame]⟩
      intro other
      by_cases hother : other = page
      · rw [if_pos hother, hother, hcurrent, hsame]
      · rw [if_neg hother]
    · rw [if_neg hsame] at h
      cases h
      refine ⟨⟨rfl, rfl, rfl⟩, ?_, by simp [hsame]⟩
      intro other
      show (content.active.update page revisionId).get? other = _
      rw [Table.get?_update, hcurrent]
      rfl

theorem served_of_set {system : System} {content after : Content} {page : Page}
    {article : Article} {translation : Translation} {source : Source} {actor : Option String}
    {now : DateTime} {filed : Filed} {activated : Bool} {current : Option String}
    (hfile : revisionFor system content page.1 article page.2 translation source actor now =
      .ok filed)
    (hcurrent : content.active.get? page = current)
    (hset : setActive filed.content page filed.revisionId current = .ok (after, activated)) :
    Served system content article page translation source filed activated after := by
  have hfiled := revisionFor_spec hfile
  rw [← hcurrent, ← hfiled.active] at hset
  obtain ⟨⟨harticles, hrevisions, hstate⟩, hactive, hunchanged⟩ := setActive_active hset
  constructor
  · rw [harticles, hfiled.articles]
  · rw [hstate, hfiled.state]
  · exact hfiled.grows.trans (.of_eq harticles hrevisions)
  · rw [hrevisions]
    exact hfiled.stored
  · exact hfiled.place
  · exact hfiled.digest
  · rw [hrevisions]
    exact hfiled.added
  · rw [← hfiled.active]
    exact hactive
  · rw [← hfiled.active]
    exact hunchanged

section Served

variable {system : System} {before after : Content} {article : Article} {page : Page}
  {translation : Translation} {source : Source} {filed : Filed} {activated : Bool}

section

variable (h : Served system before article page translation source filed activated after)
include h

theorem Served.active_page : after.active.get? page = some filed.revisionId := by
  rw [h.active, if_pos rfl]

theorem Served.active_other {other : Page} (hother : other ≠ page) :
    after.active.get? other = before.active.get? other := by
  rw [h.active, if_neg hother]

theorem Served.sound (hsound : Sound system before)
    (hheld : before.articles.get? page.1 = some article) : Sound system after := by
  constructor
  · rw [h.articles]
    exact hsound.typed
  · intro id revision hrevision
    rcases h.added id revision hrevision with hold | ⟨harticle, hdigest⟩
    · exact (hsound.addressed id revision hold).grows h.grows
    · exact ⟨article, by rw [h.articles, harticle, hheld], hdigest⟩
  · intro other id hid
    by_cases hother : other = page
    · rw [hother, h.active_page] at hid
      rw [← Option.some.inj hid, hother]
      exact ⟨filed.revision, h.stored, h.place⟩
    · rw [h.active_other hother] at hid
      obtain ⟨revision, hrevision, hplace⟩ := hsound.pointed other id hid
      exact ⟨revision, h.grows.revisions id revision hrevision, hplace⟩

end

end Served

/-! ### What every transaction keeps -/

/-- An article is served in both locales or in neither. -/
def Paired (content : Content) : Prop :=
  ∀ identity, (content.active.get? (identity, .ru)).isSome =
    (content.active.get? (identity, .en)).isSome

/-- The revision that is served on a page of an owner. -/
def Content.pointer (content : Content) (owner : ContentSourceKind) (page : Page) :
    Option String :=
  if (content.articles.get? page.1).any (·.sourceKind = owner) then content.active.get? page
  else none

def Effect.page (effect : Effect) : Page := (effect.articleId, effect.locale)

/-- What the three transactions have in common: sound and paired rows stay so, stored rows stay as
they are, and the effects name the pages that changed. -/
structure Written (system : System) (before after : Content) (effects : List Effect) : Prop where
  sound : Sound system after
  grows : Grows before after
  paired : Paired before → Paired after
  reported : ∀ page, page ∈ effects.map Effect.page ↔
    after.active.get? page ≠ before.active.get? page

theorem Written.refl {system : System} {content : Content} (h : Sound system content) :
    Written system content content [] where
  sound := h
  grows := .refl content
  paired := id
  reported := by simp

theorem Content.pointer_eq {content : Content} {owner : ContentSourceKind} {page : Page}
    {article : Article} (harticle : content.articles.get? page.1 = some article) :
    content.pointer owner page =
      if article.sourceKind = owner then content.active.get? page else none := by
  unfold Content.pointer
  rw [harticle]
  simp

/-- The pages that do not change, of articles that do not change, point where they did. -/
theorem Sound.pointer_grows {system : System} {before after : Content}
    (hsound : Sound system before) (hgrows : Grows before after) {page : Page}
    (hactive : after.active.get? page = before.active.get? page) (owner : ContentSourceKind) :
    after.pointer owner page = before.pointer owner page := by
  cases hserved : before.active.get? page with
  | none =>
    unfold Content.pointer
    rw [hactive, hserved]
    simp
  | some id =>
    obtain ⟨article, harticle⟩ := hsound.article_of_active hserved
    rw [Content.pointer_eq harticle,
      Content.pointer_eq (hgrows.articles page.1 article harticle), hactive]

/-- Pointers of an owner change on the pages that change under that owner. -/
theorem Sound.pointer_ne {system : System} {before after : Content}
    (hsound : Sound system before) (hgrows : Grows before after) {page : Page}
    {owner : ContentSourceKind} {article : Article}
    (harticle : after.articles.get? page.1 = some article) (howner : article.sourceKind = owner)
    (hactive : after.active.get? page ≠ before.active.get? page) :
    after.pointer owner page ≠ before.pointer owner page := by
  rw [Content.pointer_eq harticle, if_pos howner]
  cases hserved : before.active.get? page with
  | none =>
    unfold Content.pointer
    rw [hserved] at hactive ⊢
    simpa using hactive
  | some id =>
    obtain ⟨held, hheld⟩ := hsound.article_of_active hserved
    have hsame : held = article := by
      have hlater := hgrows.articles page.1 held hheld
      rw [harticle] at hlater
      exact (Option.some.inj hlater).symm
    rw [Content.pointer_eq hheld, hsame, if_pos howner]
    exact hactive

end AiStp.Articles
