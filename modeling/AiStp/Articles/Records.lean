import AiStp.Foundation.Canonical
import AiStp.Foundation.Identity
import AiStp.Library.Loops
import AiStp.Library.Separators
import AiStp.Library.Tables
import AiStp.Queue.Engine

/-!
# Article records

An article is an identity with an owner: the repository or the staff. Its contents are revisions,
one for each content of a locale, and a pointer says which revision of a locale is served. The
repository state counts the imports that changed what is served and remembers the last snapshot.

Every content is addressed by a digest over its fields. `verifySnapshotDigests` is what an import
checks before it takes any lock. The policy for article bodies is a parameter of the model: what it
lets through does not matter here.
-/

set_option autoImplicit false

namespace AiStp.Articles

open Foundation Library

/-! ### Faults -/

inductive Fault where
  | content (code message : String)
  /-- Any other exception. -/
  | raised
deriving DecidableEq

def invalid (message : String) : Fault := .content "AI_STP_CONTENT_INVALID" message

def stale (message : String) : Fault := .content "AI_STP_CONTENT_STALE" message

def sourceConflict : Fault :=
  .content "AI_STP_CONTENT_SOURCE_CONFLICT" "identity already belongs to another source owner"

def notFound : Fault := .content "AI_STP_NOT_FOUND" "article not found"

def require (condition : Bool) (fault : Fault) : Except Fault Unit :=
  if condition then .ok () else .error fault

/-- A value that a library call returns or raises. -/
def raising {Value : Type} : Option Value → Except Fault Value
  | some value => .ok value
  | none => .error .raised

@[simp] theorem require_eq_ok {condition : Bool} {fault : Fault} {value : Unit} :
    require condition fault = .ok value ↔ condition = true := by
  unfold require
  by_cases h : condition = true
  · simp [h]
  · simp [h]

@[simp] theorem raising_eq_ok {Value : Type} {result : Option Value} {value : Value} :
    raising result = .ok value ↔ result = some value := by
  unfold raising
  cases result with
  | none => simp
  | some other => simp

/-! ### Identities -/

inductive ContentType where
  | article
  | blogPost
  | changelog
  | releaseNotes
deriving DecidableEq

def ContentType.text : ContentType → String
  | .article => "article"
  | .blogPost => "blog_post"
  | .changelog => "changelog"
  | .releaseNotes => "release_notes"

def contentTypes : List ContentType := [.article, .blogPost, .changelog, .releaseNotes]

inductive ContentLocale where
  | ru
  | en
deriving DecidableEq

def ContentLocale.text : ContentLocale → String
  | .ru => "ru"
  | .en => "en"

def contentLocales : List ContentLocale := [.ru, .en]

/-- Who owns an article. -/
inductive ContentSourceKind where
  | repository
  | staff
deriving DecidableEq

def ContentSourceKind.text : ContentSourceKind → String
  | .repository => "repository"
  | .staff => "staff"

def articleIdentity (articleType : ContentType) (slug : String) : String :=
  s!"{articleType.text}:{slug}"

/-- Hyphen-separated words of lower-case letters and digits. -/
def matchesSlug (slug : String) : Bool :=
  (slug.toList.splitOn '-').all fun word ↦
    word ≠ [] && word.all fun character ↦ character.isLower || character.isDigit

/-- `_require_identity`: the type that an article type names. -/
def requireIdentity (articleType slug : String) : Except Fault ContentType :=
  match contentTypes.find? fun known ↦ known.text = articleType with
  | none => .error (invalid "unknown article type")
  | some known =>
    if matchesSlug slug && slug.length ≤ 120 then .ok known else .error (invalid "invalid slug")

/-! ### Dates -/

/-- A calendar date. -/
structure Date where
  year : Nat
  month : Nat
  day : Nat
deriving DecidableEq

/-- A moment of a day, in microseconds since midnight. -/
structure DateTime where
  date : Date
  time : Nat
deriving DecidableEq

def Date.isoformat (date : Date) : String :=
  Identity.padded 4 date.year ++ "-" ++ Identity.padded 2 date.month ++ "-" ++
    Identity.padded 2 date.day

def Date.valid (date : Date) : Bool :=
  1 ≤ date.year && 1 ≤ date.month && date.month ≤ 12 && 1 ≤ date.day &&
    date.day ≤ Identity.daysInMonth date.year date.month

/-- The first date is later than the second. -/
def Date.after (first second : Date) : Bool :=
  second.year < first.year ||
    second.year = first.year && (second.month < first.month ||
      second.month = first.month && second.day < first.day)

/-- A zero stands for any digit. -/
def datePattern : List Char := "0000-00-00".toList

def matchesDate (value : String) : Bool :=
  value.toList.length == datePattern.length &&
    (value.toList.zip datePattern).all fun position ↦
      if position.2 = '0' then position.1.isDigit else position.1 = position.2

/-- The number in a part of a text of digits. -/
def part (characters : List Char) (start length : Nat) : Nat :=
  (Text.natural? ((characters.drop start).take length)).getD 0

def writtenDate (value : String) : Date :=
  ⟨part value.toList 0 4, part value.toList 5 2, part value.toList 8 2⟩

def parsePublishedDate (value : String) (today : Date) : Except Fault Unit := do
  require (matchesDate value) (invalid "published_at is not a calendar date")
  require (writtenDate value).valid (invalid "published_at is not a real date")
  require (!(writtenDate value).after today) (invalid "published_at must not be in the future")

/-! ### Rows -/

/-- What the readers of a locale see. -/
structure Translation where
  title : String
  description : String
  publishedAt : String
  tags : List String
  body : String
  coverImage : Option String
  coverAlt : Option String
deriving DecidableEq

/-- Where a content comes from. -/
structure Source where
  sourceKind : ContentSourceKind
  sourceRef : Option String
  sourcePath : Option String
deriving DecidableEq

structure Article where
  articleType : ContentType
  slug : String
  sourceKind : ContentSourceKind
  createdAt : DateTime
deriving DecidableEq

structure ArticleRevision where
  articleId : String
  locale : ContentLocale
  translation : Translation
  contentDigest : String
  source : Source
  actorAccountId : Option String
  createdAt : DateTime
deriving DecidableEq

/-- The only row of the repository state. -/
structure ArticleRepositoryState where
  generation : Nat
  snapshotDigest : Option String
  commit : Option String
deriving DecidableEq

/-- A locale of an article. -/
abbrev Page := String × ContentLocale

/-- The tables of the content hub. -/
structure Content where
  articles : Table String Article
  revisions : Table String ArticleRevision
  /-- The revision that is served. -/
  active : Table Page String
  state : Option ArticleRepositoryState

/-- What the migration leaves. -/
def Content.initial : Content where
  articles := .empty
  revisions := .empty
  active := .empty
  state := some ⟨0, none, none⟩

/-! ### Digests -/

/-- What the content hub runs with. -/
structure System where
  platform : Platform
  /-- The policy for article bodies. -/
  validateArticleBody : String → Except Fault Unit
  templateVersion : String

def articleRevisionDomain : String := "ai-stp:article-revision:v1"

def articleActiveDomain : String := "ai-stp:article-active:v1"

def articleSnapshotDomain : String := "ai-stp:article-snapshot:v1"

def sortedTags (tags : List String) : List String := tags.insertionSort (· ≤ ·)

def Translation.sorted (translation : Translation) : Translation :=
  { translation with tags := sortedTags translation.tags }

/-- The document that is hashed, its tags in the order they have. -/
def contentDocument (articleType : ContentType) (slug : String) (locale : ContentLocale)
    (translation : Translation) (source : Source) : Json :=
  .object [
    ("type", .string articleType.text),
    ("slug", .string slug),
    ("locale", .string locale.text),
    ("title", .string translation.title),
    ("description", .string translation.description),
    ("published_at", .string translation.publishedAt),
    ("tags", .array (translation.tags.map .string)),
    ("body", .string translation.body),
    ("source_kind", .string source.sourceKind.text),
    ("source_ref", Queue.optionalText source.sourceRef),
    ("source_path", Queue.optionalText source.sourcePath),
    ("cover_image", Queue.optionalText translation.coverImage),
    ("cover_alt", Queue.optionalText translation.coverAlt)]

def revisionContentDigest (system : System) (articleType : ContentType) (slug : String)
    (locale : ContentLocale) (translation : Translation) (source : Source) : Except Fault String :=
  raising <| Canonical.digestCanonical system.platform articleRevisionDomain
    (contentDocument articleType slug locale translation source)

def articleRevisionId (system : System) (articleId : String) (locale : ContentLocale)
    (contentDigest : String) : Except Fault String :=
  raising <| Canonical.revisionId system.platform <| .object [
    ("article_id", .string articleId),
    ("locale", .string locale.text),
    ("content_digest", .string contentDigest)]

def activeDigest (system : System) (ru en : String) : Except Fault String :=
  raising <| Canonical.digestCanonical system.platform articleActiveDomain <| .object [
    ("en", .string en),
    ("ru", .string ru)]

/-! ### Snapshots -/

structure ContentSnapshotEntry where
  articleType : ContentType
  slug : String
  locale : ContentLocale
  translation : Translation
  contentDigest : String
  sourceKind : ContentSourceKind
  sourceRef : String
  sourcePath : String
deriving DecidableEq

namespace ContentSnapshotEntry

def identity (entry : ContentSnapshotEntry) : String :=
  articleIdentity entry.articleType entry.slug

/-- The page that an entry is the content of. -/
def page (entry : ContentSnapshotEntry) : Page := (entry.identity, entry.locale)

def source (entry : ContentSnapshotEntry) : Source :=
  ⟨entry.sourceKind, some entry.sourceRef, some entry.sourcePath⟩

/-- What makes two entries duplicates. -/
def key (entry : ContentSnapshotEntry) : ContentType × String × ContentLocale :=
  (entry.articleType, entry.slug, entry.locale)

/-- Entries are listed by type, slug and locale. -/
def precedes (first second : ContentSnapshotEntry) : Bool :=
  [first.articleType.text, first.slug, first.locale.text] ≤
    [second.articleType.text, second.slug, second.locale.text]

def document (entry : ContentSnapshotEntry) : Json :=
  .object [
    ("type", .string entry.articleType.text),
    ("slug", .string entry.slug),
    ("locale", .string entry.locale.text),
    ("title", .string entry.translation.title),
    ("description", .string entry.translation.description),
    ("published_at", .string entry.translation.publishedAt),
    ("tags", .array (entry.translation.tags.map .string)),
    ("body", .string entry.translation.body),
    ("content_digest", .string entry.contentDigest),
    ("source_kind", .string entry.sourceKind.text),
    ("source_ref", .string entry.sourceRef),
    ("source_path", .string entry.sourcePath),
    ("cover_image", Queue.optionalText entry.translation.coverImage),
    ("cover_alt", Queue.optionalText entry.translation.coverAlt)]

end ContentSnapshotEntry

structure ContentRepositoryImportRequest where
  repository : String
  commit : String
  snapshotDigest : String
  expectedGeneration : Nat
  entries : List ContentSnapshotEntry

def contentRepository : String := "ai-engineers-guild/ai-stp"

/-- `snapshot_digest`. -/
def digestSnapshot (system : System) (repository commit : String)
    (entries : List ContentSnapshotEntry) : Except Fault String :=
  raising <| Canonical.digestCanonical system.platform articleSnapshotDomain <| .object [
    ("repository", .string (if repository = "" then contentRepository else repository)),
    ("commit", .string commit),
    ("entries", .array
      ((entries.insertionSort fun first second ↦ first.precedes second).map (·.document)))]

/-- The identities whose entries are not one for each locale, in sorted order. -/
def unpairedIdentities (entries : List ContentSnapshotEntry) : List String :=
  ((entries.map (·.identity)).eraseDups.insertionSort (· ≤ ·)).filter fun identity ↦
    !contentLocales.all fun locale ↦ entries.any fun entry ↦ entry.page = (identity, locale)

def assertLocaleParity (entries : List ContentSnapshotEntry) : Except Fault Unit :=
  require (unpairedIdentities entries = [])
    (invalid ("content locale parity failed: " ++ ", ".intercalate (unpairedIdentities entries)))

/-- What an import checks of one entry, given the entries before it. -/
def verifyEntry (system : System) (snapshot : ContentRepositoryImportRequest) (today : Date)
    (seen : List (ContentType × String × ContentLocale)) (entry : ContentSnapshotEntry) :
    Except Fault (List (ContentType × String × ContentLocale)) := do
  require (entry.key ∉ seen) (invalid "duplicate snapshot entry")
  let expected ← revisionContentDigest system entry.articleType entry.slug entry.locale
    entry.translation.sorted entry.source
  require (expected = entry.contentDigest) (invalid "article content digest mismatch")
  require (entry.sourceRef = snapshot.commit) (invalid "entry commit must match snapshot commit")
  require (entry.sourceKind = .repository) (invalid "snapshot entries must be repository-owned")
  parsePublishedDate entry.translation.publishedAt today
  system.validateArticleBody entry.translation.body
  return entry.key :: seen

/-- Recompute every digest. -/
def verifySnapshotDigests (system : System) (snapshot : ContentRepositoryImportRequest)
    (today : Date) : Except Fault Unit := do
  let _ ← snapshot.entries.foldlM (verifyEntry system snapshot today) []
  assertLocaleParity snapshot.entries
  let recomputed ← digestSnapshot system snapshot.repository snapshot.commit snapshot.entries
  require (recomputed = snapshot.snapshotDigest) (invalid "snapshot digest mismatch")

end AiStp.Articles
