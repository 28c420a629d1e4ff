import AiStp.Foundation.Platform

/-!
# Identifiers, versions and moments

The wire forms of stable ids, revision ids, digests, `X.Y` versions and timestamps, as the server
reads them. A stable id is a registered prefix and a ULID; a revision id and a digest carry 64
lowercase hexadecimal digits; a timestamp is a UTC moment with milliseconds. The server's digit
class is Unicode-wide, so a timestamp is formatted back in ASCII digits whatever digits it was
written in.
-/

set_option autoImplicit false

namespace AiStp.Foundation.Identity

/-! ### Stable ids -/

/-- The registered prefixes of stable ids. -/
def idPrefixes : List String :=
  ["account", "acceptance", "area", "backup", "complaint", "component", "category", "developer",
    "dashboard_view", "device", "family", "grant", "invite", "job_title", "mail", "operation",
    "organization", "outbox", "plan", "prevision", "project", "remote_project",
    "provider_project", "project_link", "link_plan", "unlink_plan", "report", "relation",
    "proposal", "request", "scan", "service_principal", "snapshot", "setup", "sync_plan", "task",
    "technology", "sub", "variant"]

/-- `parse_id`: split at the last underscore and check both sides. -/
def parseId (value : String) : Option (String × String) :=
  let reversed := (Text.units value).reverse
  let suffix := (reversed.takeWhile (· ≠ '_')).reverse
  match reversed.dropWhile (· ≠ '_') with
  | [] => none
  | _ :: before =>
    let idPrefix := String.ofList before.reverse
    if idPrefix ∈ idPrefixes ∧ Text.isUlid suffix then some (idPrefix, String.ofList suffix)
    else none

/-- `is_valid_id` with the prefix it must have. -/
def isValidId (value idPrefix : String) : Bool :=
  (parseId value).any fun parsed ↦ parsed.1 == idPrefix

/-- The wire pattern of one registered prefix, `stable_id_pattern`. -/
def matchesStableId (idPrefix value : String) : Bool :=
  match Text.stripPrefix? (idPrefix ++ "_") value with
  | some suffix => Text.isUlid suffix
  | none => false

/-! ### Content addresses -/

def isValidRevisionId (value : String) : Bool :=
  Text.isHexAddress "revision_" value

def isDigest (value : String) : Bool :=
  Text.isHexAddress "sha256:" value

/-! ### Versions -/

/-- One part of a version: a decimal number without leading zeros. -/
def versionPart (characters : List Char) : Option Nat :=
  if characters.length = 1 ∨ characters.head? ≠ some '0' then Text.natural? characters else none

/-- `parse_version`: two parts around the first full stop. -/
def parseVersion (text : String) : Option (Nat × Nat) :=
  match (Text.units text).dropWhile (· ≠ '.') with
  | [] => none
  | _ :: minor => do
    let major ← versionPart ((Text.units text).takeWhile (· ≠ '.'))
    let minor ← versionPart minor
    return (major, minor)

/-! ### Moments -/

structure Moment where
  year : Nat
  month : Nat
  day : Nat
  hour : Nat
  minute : Nat
  second : Nat
  millisecond : Nat
deriving DecidableEq, Repr

/-- The canonical shape; a zero stands for any decimal digit. -/
def timestampShape : List Char := "0000-00-00T00:00:00.000Z".toList

/-- `TIMESTAMP_PATTERN`, whose digit class is Unicode-wide. -/
def matchesTimestampPattern (platform : Platform) (value : String) : Bool :=
  value.toList.length == timestampShape.length &&
    (value.toList.zip timestampShape).all fun position ↦
      if position.2 = '0' then (platform.digit position.1).isSome else position.1 = position.2

/-- The number written at `length` positions from `start`. -/
def numberAt (platform : Platform) (characters : List Char) (start length : Nat) : Nat :=
  ((characters.drop start).take length).foldl
    (fun total character ↦ 10 * total + (platform.digit character).getD 0) 0

def isLeapYear (year : Nat) : Bool :=
  year % 4 == 0 && (year % 100 != 0 || year % 400 == 0)

def daysInMonth (year month : Nat) : Nat :=
  match month with
  | 2 => if isLeapYear year then 29 else 28
  | 4 | 6 | 9 | 11 => 30
  | _ => 31

/-- The positions that the parser's format reads as ASCII digits only: the month, the first digit
of the other two-digit fields, the milliseconds, and a second digit whose range depends on the
first. -/
def asciiPositions (characters : List Char) : List Nat :=
  [5, 6, 8, 11, 14, 17, 20, 21, 22] ++
    (if characters[8]? = some '1' ∨ characters[8]? = some '2' then [] else [9]) ++
    (if characters[11]? = some '2' then [12] else [])

/-- `parse_timestamp`: the canonical shape, read as a moment that exists. -/
def parseTimestamp (platform : Platform) (value : String) : Option Moment :=
  let characters := value.toList
  let moment : Moment :=
    { year := numberAt platform characters 0 4
      month := numberAt platform characters 5 2
      day := numberAt platform characters 8 2
      hour := numberAt platform characters 11 2
      minute := numberAt platform characters 14 2
      second := numberAt platform characters 17 2
      millisecond := numberAt platform characters 20 3 }
  if matchesTimestampPattern platform value ∧
      (∀ position ∈ asciiPositions characters, (characters[position]?).any Char.isDigit) ∧
      1 ≤ moment.year ∧ 1 ≤ moment.month ∧ moment.month ≤ 12 ∧ 1 ≤ moment.day ∧
      moment.day ≤ daysInMonth moment.year moment.month ∧ moment.hour ≤ 23 ∧
      moment.minute ≤ 59 ∧ moment.second ≤ 59 then
    some moment
  else none

/-- A number in ASCII digits, padded with zeros on the left. -/
def padded (length value : Nat) : String :=
  let digits := toString value
  String.ofList (List.replicate (length - digits.length) '0') ++ digits

/-- `format_timestamp`. -/
def formatTimestamp (moment : Moment) : String :=
  padded 4 moment.year ++ "-" ++ padded 2 moment.month ++ "-" ++ padded 2 moment.day ++ "T" ++
    padded 2 moment.hour ++ ":" ++ padded 2 moment.minute ++ ":" ++ padded 2 moment.second ++
    "." ++ padded 3 moment.millisecond ++ "Z"

def isValidTimestamp (platform : Platform) (value : String) : Bool :=
  (parseTimestamp platform value).isSome

end AiStp.Foundation.Identity
