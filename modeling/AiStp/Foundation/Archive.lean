import AiStp.Foundation.Platform

/-!
# Portable paths

`safePath` decides the paths that every supported system can hold under the same name. A path is
given by the parts between its slashes.
-/

set_option autoImplicit false

namespace AiStp.Foundation

/-- The text of a path. -/
def pathText (parts : List String) : String :=
  String.intercalate "/" parts

/-- The Unicode category of control characters. -/
def isControl (character : Char) : Bool :=
  character.toNat < 0x20 || (0x7f ≤ character.toNat && character.toNat < 0xa0)

/-- A name that one of the supported systems keeps for a device. -/
def reservedDevice (part : String) : Bool :=
  let stem := (part.toList.takeWhile (· ≠ '.')).map Char.toUpper
  stem ∈ ["CON", "PRN", "AUX", "NUL", "CONIN$", "CONOUT$"].map String.toList ||
    ["COM", "LPT"].any fun device ↦
      match device.toList.isPrefixOf? stem with
      | some suffix => suffix ∈ ['1', '2', '3', '4', '5', '6', '7', '8', '9', '¹', '²', '³'].map ([·])
      | none => false

def safePart (part : String) : Bool :=
  part ≠ "" && !part.toList.contains '/' && part ≠ "." && part ≠ ".." &&
    part.utf8ByteSize ≤ 255 && part.toList.getLast? ≠ some '.' &&
    part.toList.getLast? ≠ some ' ' && !reservedDevice part

def safePath (platform : Platform) (parts : List String) : Bool :=
  let text := pathText parts
  parts ≠ [] && text.utf8ByteSize ≤ 1024 && text.toList.head? ≠ some '~' &&
    text.toList.all (fun character ↦ character ∉ ['\\', ':', '<', '>', '"', '|', '?', '*']) &&
    platform.nfc text = text && !text.toList.any isControl && parts.all safePart

theorem ne_nil_of_safePath {platform : Platform} {parts : List String}
    (h : safePath platform parts = true) : parts ≠ [] := by
  rintro rfl
  simp [safePath] at h

end AiStp.Foundation
