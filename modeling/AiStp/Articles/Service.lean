import AiStp.Articles.Records
import AiStp.Library.Transactions

/-!
# Publishing articles

Three transactions write the content hub. `importRepositorySnapshot` replaces what the repository
owns, `publishStaffArticle` publishes both locales of a staff article and `unpublishStaffArticle`
takes them down. Each checks its request first and then locks the repository state, so that the
three never overlap from there on. A change of a page that readers see enqueues a build of the page
in the same transaction.
-/

set_option autoImplicit false

namespace AiStp.Articles

open Foundation Library

/-! ### Revisions and pointers -/

/-- A page that changed, and the digest that names the change. -/
structure Effect where
  articleId : String
  locale : ContentLocale
  sourceDigest : String
deriving DecidableEq

/-- The article of an identity; a missing one is added for an owner. -/
def ensureArticle (content : Content) (identity : String) (articleType : ContentType)
    (slug : String) (sourceKind : ContentSourceKind) (now : DateTime) :
    Except Fault (Article × Content) :=
  match content.articles.get? identity with
  | some article => .ok (article, content)
  | none => do
    let article : Article := ⟨articleType, slug, sourceKind, now⟩
    let articles ← raising (content.articles.insert? identity article)
    return (article, { content with articles })

/-- A stored revision, and whether it is new. -/
structure Filed where
  revisionId : String
  revision : ArticleRevision
  isNew : Bool
  content : Content

def fileRevision (system : System) (content : Content) (revision : ArticleRevision) :
    Except Fault Filed := do
  let revisionId ← articleRevisionId system revision.articleId revision.locale
    revision.contentDigest
  let revisions ← raising (content.revisions.insert? revisionId revision)
  return ⟨revisionId, revision, true, { content with revisions }⟩

/-- The revision of an article with a content: the stored one, or a new one. -/
def revisionFor (system : System) (content : Content) (articleId : String) (article : Article)
    (locale : ContentLocale) (translation : Translation) (source : Source)
    (actorAccountId : Option String) (now : DateTime) : Except Fault Filed := do
  let digest ← revisionContentDigest system article.articleType article.slug locale
    translation.sorted source
  match content.revisions.find? fun _ row ↦
      row.articleId = articleId ∧ row.locale = locale ∧ row.contentDigest = digest with
  | some (revisionId, row) => return ⟨revisionId, row, false, content⟩
  | none =>
    fileRevision system content
      ⟨articleId, locale, translation.sorted, digest, source, actorAccountId, now⟩

/-- The digest of a revision if its source had another commit. -/
def restampedDigest (system : System) (article : Article) (revision : ArticleRevision)
    (sourceRef : String) : Except Fault String :=
  revisionContentDigest system article.articleType article.slug revision.locale
    revision.translation.sorted { revision.source with sourceRef := some sourceRef }

/-- Whether the active revision already publishes the content of an entry. -/
def publishes (system : System) (article : Article) (revision : ArticleRevision)
    (entry : ContentSnapshotEntry) : Except Fault Bool := do
  let restamped ← restampedDigest system article revision entry.sourceRef
  return restamped = entry.contentDigest

/-- Point a page to a revision, given the revision that it had, and tell whether that changes it. -/
def setActive (content : Content) (page : Page) (revisionId : String) (current : Option String) :
    Except Fault (Content × Bool) :=
  match current with
  | none => do
    let active ← raising (content.active.insert? page revisionId)
    return ({ content with active }, true)
  | some held =>
    if held = revisionId then .ok (content, false)
    else .ok ({ content with active := content.active.update page revisionId }, true)

/-! ### Importing a snapshot -/

structure ContentRepositoryImportResponse where
  generation : Nat
  snapshotDigest : String
  created : Nat
  activated : Nat
  removed : Nat
  unchanged : Nat
deriving DecidableEq

/-- What an import has done with the entries so far. -/
structure Progress where
  content : Content
  created : Nat
  activated : Nat
  unchanged : Nat
  changed : List Effect
  kept : List Page

def Progress.start (content : Content) : Progress := ⟨content, 0, 0, 0, [], []⟩

/-- An entry whose content is served already. -/
def Progress.keep (progress : Progress) (page : Page) : Progress :=
  { progress with
    unchanged := progress.unchanged + 1
    kept := progress.kept ++ [page] }

/-- An entry whose page points to a revision now. -/
def Progress.point (progress : Progress) (page : Page) (filed : Filed) (content : Content)
    (activated : Bool) : Progress where
  content := content
  created := progress.created + if filed.isNew then 1 else 0
  activated := progress.activated + if activated then 1 else 0
  unchanged := progress.unchanged + if activated then 0 else 1
  changed := progress.changed ++
    if activated then [⟨page.1, page.2, filed.revision.contentDigest⟩] else []
  kept := progress.kept ++ [page]

section Import

variable (system : System) (before : Content) (now : DateTime)

/-- Whether a page served the content of an entry before the import. -/
def alreadyPublished (article : Article) (page : Page) (entry : ContentSnapshotEntry) :
    Except Fault Bool :=
  match (before.active.get? page).bind before.revisions.get? with
  | none => .ok false
  | some revision => publishes system article revision entry

def replaceEntry (article : Article) (page : Page) (progress : Progress)
    (entry : ContentSnapshotEntry) : Except Fault Progress := do
  let filed ← revisionFor system progress.content page.1 article page.2 entry.translation
    ⟨.repository, some entry.sourceRef, some entry.sourcePath⟩ none now
  let (content, activated) ←
    setActive filed.content page filed.revisionId (before.active.get? page)
  return progress.point page filed content activated

def importEntry (identity : String) (article : Article) (progress : Progress)
    (entry : ContentSnapshotEntry) : Except Fault Progress := do
  let published ← alreadyPublished system before article (identity, entry.locale) entry
  if published then return progress.keep (identity, entry.locale)
  else replaceEntry system before now article (identity, entry.locale) progress entry

/-- The entries of an article; there is one in English. -/
def importArticle (progress : Progress) (group : String × List ContentSnapshotEntry) :
    Except Fault Progress := do
  let english ← raising (group.2.find? (·.locale = .en))
  let (article, content) ← ensureArticle progress.content group.1 english.articleType english.slug
    .repository now
  group.2.foldlM (importEntry system before now group.1 article) { progress with content }

/-- The entries by identity, in the order of the first entry of each. -/
def grouped (entries : List ContentSnapshotEntry) : List (String × List ContentSnapshotEntry) :=
  (entries.map (·.identity)).eraseDups.map fun identity ↦
    (identity, entries.filter (·.identity = identity))

/-- The pages of the repository that the snapshot does not have any more. -/
def removedPages (progress : Progress) : List Page :=
  (before.active.entries.map Prod.fst).filter fun page ↦
    page ∉ progress.kept &&
      (progress.content.articles.get? page.1).any (·.sourceKind = .repository)

/-- An identity that the snapshot names and the staff owns. -/
def conflicts (entries : List ContentSnapshotEntry) : Bool :=
  entries.any fun entry ↦
    (before.articles.get? entry.identity).any (·.sourceKind ≠ .repository)

end Import

/-- What a transaction leaves: the tables, the builds it enqueues and its reply. -/
structure Outcome (Reply : Type) where
  content : Content
  effects : List Effect
  reply : Reply

/-- The pages that the repository owns. -/
def Content.repositoryPages (content : Content) : List Page :=
  (content.active.entries.map Prod.fst).filter fun page ↦
    (content.articles.get? page.1).any (·.sourceKind = .repository)

/-- The snapshot is the one that was imported last. -/
def unchangedImport (content : Content) (state : ArticleRepositoryState)
    (snapshot : ContentRepositoryImportRequest) : Outcome ContentRepositoryImportResponse where
  content := content
  effects := []
  reply := ⟨state.generation, snapshot.snapshotDigest, 0, 0, 0, content.repositoryPages.length⟩

/-- The state and the effects after the entries are in place. -/
def finishImport (before : Content) (state : ArticleRepositoryState)
    (snapshot : ContentRepositoryImportRequest) (progress : Progress) :
    Outcome ContentRepositoryImportResponse :=
  let removed := removedPages before progress
  let changed := progress.changed ++ removed.map fun page ↦
    ⟨page.1, page.2, s!"removed:{state.generation + 1}"⟩
  let generation := if changed = [] then state.generation else state.generation + 1
  { content :=
      { progress.content with
        active := progress.content.active.filter fun page _ ↦ page ∉ removed
        state := some ⟨generation, some snapshot.snapshotDigest, some snapshot.commit⟩ }
    effects := changed
    reply :=
      ⟨generation, snapshot.snapshotDigest, progress.created, progress.activated, removed.length,
        progress.unchanged⟩ }

def replaceSnapshot (system : System) (content : Content) (state : ArticleRepositoryState)
    (snapshot : ContentRepositoryImportRequest) (now : DateTime) :
    Except Fault (Outcome ContentRepositoryImportResponse) := do
  let progress ← (grouped snapshot.entries).foldlM (importArticle system content now)
    (Progress.start content)
  return finishImport content state snapshot progress

/-- `import_repository_snapshot` under the lock of the repository state. -/
def importRepositorySnapshot (system : System) (content : Content)
    (state : ArticleRepositoryState) (snapshot : ContentRepositoryImportRequest)
    (now : DateTime) : Except Fault (Outcome ContentRepositoryImportResponse) :=
  if state.snapshotDigest = some snapshot.snapshotDigest then
    .ok (unchangedImport content state snapshot)
  else if snapshot.expectedGeneration ≠ state.generation then
    .error (stale "expected generation does not match")
  else if conflicts content snapshot.entries then .error sourceConflict
  else replaceSnapshot system content state snapshot now

/-! ### Publishing for the staff -/

structure StaffContentPublishRequest where
  expectedActiveDigest : Option String
  ru : Translation
  en : Translation
deriving DecidableEq

def StaffContentPublishRequest.translation (request : StaffContentPublishRequest) :
    ContentLocale → Translation
  | .ru => request.ru
  | .en => request.en

structure ContentDetail where
  articleType : ContentType
  slug : String
  locale : ContentLocale
  translation : Translation
  revisionId : String
  contentDigest : String
  sourceKind : ContentSourceKind
  sourceRef : Option String
  sourcePath : Option String
deriving DecidableEq

def detail (article : Article) (revisionId : String) (revision : ArticleRevision) :
    ContentDetail where
  articleType := article.articleType
  slug := article.slug
  locale := revision.locale
  translation := revision.translation
  revisionId := revisionId
  contentDigest := revision.contentDigest
  sourceKind := article.sourceKind
  sourceRef := revision.source.sourceRef
  sourcePath := revision.source.sourcePath

structure StaffContentPublishResponse where
  articleId : String
  activeDigest : String
  revisionIds : List (ContentLocale × String)
  articles : List (ContentLocale × ContentDetail)
deriving DecidableEq

/-- The digest of what an article serves, if it serves anything. -/
def pairDigest (system : System) (content : Content) (identity : String) :
    Except Fault (Option String) :=
  match content.active.get? (identity, .ru), content.active.get? (identity, .en) with
  | none, none => .ok none
  | some ru, some en => some <$> activeDigest system ru en
  | _, _ => .error (invalid "active article is missing a locale")

/-- What publishing the locales has done so far. -/
structure Publishing where
  content : Content
  revisionIds : List (ContentLocale × String)
  articles : List (ContentLocale × ContentDetail)
  changed : List Effect

def publishLocale (system : System) (before : Content) (identity : String) (article : Article)
    (request : StaffContentPublishRequest) (actorAccountId : String) (now : DateTime)
    (publishing : Publishing) (locale : ContentLocale) : Except Fault Publishing := do
  let filed ← revisionFor system publishing.content identity article locale
    (request.translation locale) ⟨.staff, none, none⟩ (some actorAccountId) now
  let (content, activated) ←
    setActive filed.content (identity, locale) filed.revisionId
      (before.active.get? (identity, locale))
  return {
    content
    revisionIds := publishing.revisionIds ++ [(locale, filed.revisionId)]
    articles := publishing.articles ++
      [(locale, detail article filed.revisionId filed.revision)]
    changed := publishing.changed ++
      if activated then [⟨identity, locale, filed.revision.contentDigest⟩] else [] }

/-- The identifiers in the order of the locales. -/
def publishedDigest (system : System) : List (ContentLocale × String) → Except Fault String
  | [(.ru, ru), (.en, en)] => activeDigest system ru en
  | _ => .error .raised

/-- What a publication finds under its identity: nothing, or an article of the staff. -/
def expectedPair (system : System) (content : Content) (identity : String) :
    Except Fault (Option String) :=
  match content.articles.get? identity with
  | none => .ok none
  | some article => do
    require (article.sourceKind = .staff) sourceConflict
    pairDigest system content identity

/-- `publish_staff_article` under the lock of the repository state. -/
def publishStaffArticle (system : System) (content : Content) (articleType slug : String)
    (request : StaffContentPublishRequest) (actorAccountId : String) (now : DateTime) :
    Except Fault (Outcome StaffContentPublishResponse) := do
  let known ← requireIdentity articleType slug
  let identity := articleIdentity known slug
  let currentDigest ← expectedPair system content identity
  require (request.expectedActiveDigest = currentDigest)
    (stale "expected active digest does not match")
  let (article, added) ← ensureArticle content identity known slug .staff now
  let publishing ← contentLocales.foldlM
    (publishLocale system content identity article request actorAccountId now)
    ⟨added, [], [], []⟩
  let digest ← publishedDigest system publishing.revisionIds
  return {
    content := publishing.content
    effects := publishing.changed
    reply := ⟨identity, digest, publishing.revisionIds, publishing.articles⟩ }

/-! ### Taking staff articles down -/

structure StaffContentUnpublishResponse where
  articleId : String
deriving DecidableEq

def removeLocales (content : Content) (identity : String) (now : DateTime) :
    Outcome StaffContentUnpublishResponse where
  content := { content with active := content.active.filter fun page _ ↦ page.1 ≠ identity }
  effects := contentLocales.map fun locale ↦
    ⟨identity, locale, s!"removed:{now.date.isoformat}"⟩
  reply := ⟨identity⟩

/-- Remove what a staff article serves, provided it is what the caller expects. -/
def removePair (system : System) (content : Content) (identity : String)
    (expectedActiveDigest : Option String) (now : DateTime) :
    Except Fault (Outcome StaffContentUnpublishResponse) := do
  let currentDigest ← pairDigest system content identity
  match currentDigest with
  | none => return ⟨content, [], ⟨identity⟩⟩
  | some digest =>
    require (expectedActiveDigest = some digest) (stale "expected active digest does not match")
    return removeLocales content identity now

/-- `unpublish_staff_article` under the lock of the repository state. -/
def unpublishStaffArticle (system : System) (content : Content) (articleType slug : String)
    (expectedActiveDigest : Option String) (now : DateTime) :
    Except Fault (Outcome StaffContentUnpublishResponse) := do
  let known ← requireIdentity articleType slug
  let identity := articleIdentity known slug
  let article ← (content.articles.get? identity).elim (.error notFound) .ok
  require (article.sourceKind = .staff) sourceConflict
  removePair system content identity expectedActiveDigest now

/-! ### Transactions -/

inductive Request where
  | importSnapshot (snapshot : ContentRepositoryImportRequest)
  | publish (articleType slug : String) (request : StaffContentPublishRequest)
      (actorAccountId : String)
  | unpublish (articleType slug : String) (expectedActiveDigest : Option String)

inductive Reply where
  | imported (response : ContentRepositoryImportResponse)
  | published (response : StaffContentPublishResponse)
  | unpublished (response : StaffContentUnpublishResponse)
deriving DecidableEq

def Outcome.map {First Second : Type} (next : First → Second) (outcome : Outcome First) :
    Outcome Second :=
  ⟨outcome.content, outcome.effects, next outcome.reply⟩

/-- What a staff publication checks of a locale. -/
def checkTranslation (system : System) (today : Date) (translation : Translation) :
    Except Fault Unit := do
  parsePublishedDate translation.publishedAt today
  system.validateArticleBody translation.body

/-- What a request is checked for before anything is locked. -/
def Request.check (system : System) (now : DateTime) : Request → Except Fault Unit
  | .importSnapshot snapshot => verifySnapshotDigests system snapshot now.date
  | .publish _ _ request _ => do
    checkTranslation system now.date request.ru
    checkTranslation system now.date request.en
  | .unpublish _ _ _ => .ok ()

/-- What a request does with the tables while it holds the lock. -/
def Request.handle (system : System) (now : DateTime) (content : Content)
    (state : ArticleRepositoryState) : Request → Except Fault (Outcome Reply)
  | .importSnapshot snapshot =>
    Outcome.map .imported <$> importRepositorySnapshot system content state snapshot now
  | .publish articleType slug request actorAccountId =>
    Outcome.map .published <$>
      publishStaffArticle system content articleType slug request actorAccountId now
  | .unpublish articleType slug expectedActiveDigest =>
    Outcome.map .unpublished <$>
      unpublishStaffArticle system content articleType slug expectedActiveDigest now

/-- The payload and the key of the job that builds a page. -/
def seoBuild (system : System) (effect : Effect) : Queue.Request where
  payload := [
    ("subject_kind", .string "article"),
    ("subject_id", .string effect.articleId),
    ("locale", .string effect.locale.text),
    ("source_digest", .string effect.sourceDigest),
    ("template_version", .string system.templateVersion)]
  idempotencyKey :=
    s!"seo-build:article:{effect.articleId}:{effect.locale.text}:{effect.sourceDigest}:" ++
      system.templateVersion

/-- `enqueue_article_seo_effect`. -/
def enqueueArticleSeoEffect (system : System) (jobs : Queue.Table) (effect : Effect)
    (now : Queue.Moment) : Except Fault Queue.Table :=
  match jobs.enqueue (seoBuild system effect) now with
  | .ok jobs => .ok jobs
  | .error _ => .error .raised

/-- The content hub and the queue. -/
structure Database where
  content : Content
  jobs : Queue.Table

def Database.initial : Database := ⟨.initial, .empty⟩

/-- A request in a transaction, and the clocks it reads. -/
structure Call where
  request : Request
  now : DateTime
  enqueuedAt : Queue.Moment

/-- What a transaction knows when it waits for its next statement. -/
inductive Work where
  /-- It has checked nothing and holds nothing. -/
  | waiting (call : Call)
  /-- It has the row of the repository state under a lock. -/
  | locked (call : Call) (state : ArticleRepositoryState)
  /-- It has read the tables too. -/
  | read (call : Call) (state : ArticleRepositoryState) (content : Content)

inductive Lock where
  | repositoryState
  | article (id : String)
deriving DecidableEq

/-- The articles that a request locks after the repository state. -/
def Request.articleLocks (content : Content) : Request → List Lock
  | .importSnapshot _ => content.articles.entries.map fun entry ↦ .article entry.1
  | .publish articleType slug _ _ => [.article s!"{articleType}:{slug}"]
  | .unpublish articleType slug _ => [.article s!"{articleType}:{slug}"]

/-- What a request writes: its tables and its jobs. -/
def Call.write (system : System) (call : Call) (state : ArticleRepositoryState)
    (content : Content) (jobs : Queue.Table) : Except Fault Database := do
  let outcome ← call.request.handle system call.now content state
  let jobs ← outcome.effects.foldlM
    (fun jobs effect ↦ enqueueArticleSeoEffect system jobs effect call.enqueuedAt) jobs
  return ⟨outcome.content, jobs⟩

/-- The first statement: the checks, and the lock of the repository state. -/
def lockState (system : System) (db : Database) (call : Call) :
    Transactions.Outcome Database Lock Work :=
  match call.request.check system call.now, db.content.state with
  | .ok (), some state => .next [.repositoryState] (.locked call state)
  | _, _ => .abort

def statement (system : System) (db : Database) (work : Work) (_ : Unit) :
    Transactions.Outcome Database Lock Work :=
  match work with
  | .waiting call => lockState system db call
  | .locked call state =>
    .next (call.request.articleLocks db.content)
      (.read call state { db.content with state := some state })
  | .read call state content =>
    match call.write system state content db.jobs with
    | .ok after => .commit [] after
    | .error _ => .abort

/-- The transactions of the content hub. -/
def transactions (system : System) : Transactions.System Database Lock Work Unit where
  starts := fun _ work ↦ match work with
    | .waiting _ => true
    | _ => false
  statement := statement system

end AiStp.Articles
