import FileProfile.Failure

/-!
Names of directory entries: which names are accepted, and how one is written to disk.

A name is refused if it is empty, holds a slash, or holds a surrogate without its partner, which no
UTF-8 text can carry. A surrogate is judged by its two neighbours.
-/

namespace FileProfile

namespace FileName

def slash : CodeUnit := '/'

/-- Whether a surrogate has no partner: a high one lacks a low one behind it, or a low one lacks a
high one before it. -/
def isUnpaired (before : Option CodeUnit) (u : CodeUnit) (behind : Option CodeUnit) : Bool :=
  (u.isHighSurrogate && !behind.any CodeUnit.isLowSurrogate)
    || (u.isLowSurrogate && !before.any CodeUnit.isHighSurrogate)

/-- Whether some surrogate has no partner, `before` being the unit in front of the text. -/
def hasUnpaired (before : Option CodeUnit) : Text → Bool
  | [] => false
  | u :: rest => isUnpaired before u rest.head? || hasUnpaired (some u) rest

/-- Accepts the names that can name one entry of a directory. -/
def validate (name : Text) : Except Failure Unit :=
  if name = [] ∨ slash ∈ name ∨ hasUnpaired none name then .error (.invalidName name)
  else .ok ()

/-- The name written to disk. A zero unit cannot be written. -/
def encode (name : Text) : Except Failure Text :=
  if 0 ∈ name then
    let shown := Text.replaceUnit 0 "\\0" name
    .error (.encoding ("Cannot convert \"" ++ shown ++ "\" to the filesystem encoding") none)
  else .ok name

example : hasUnpaired none [0xD83D, 0xDE00] = false ∧ hasUnpaired none [0xDE00, 0xD83D] = true := by
  decide

end FileName

end FileProfile
