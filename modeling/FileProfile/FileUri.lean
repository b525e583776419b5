import FileProfile.Path
import FileProfile.Text.Utf8

/-!
File URIs: the scheme and the path, octets outside the allowed set percent-encoded.

Most control characters at the end of a path are cut off before it is encoded. The dots that may
then stand in the last place lead to a directory, which is written with a slash at its end.
-/

namespace FileProfile

namespace FileUri

/-- The octets that stand for themselves. -/
def isAllowed (b : UInt8) : Bool :=
  (0x61 ≤ b && b ≤ 0x7A) || (0x41 ≤ b && b ≤ 0x5A) || (0x30 ≤ b && b ≤ 0x39)
    || (("/!$&'()*+,-.:;=@_" : Text).any fun u => u.toNat = b.toNat)

/-- An upper-case hexadecimal digit. -/
def hexDigit (n : Nat) : CodeUnit := (if n < 10 then 0x30 + n else 0x37 + n).toUInt16

/-- An octet as it stands, or a percent sign and two digits. -/
def encodeOctet (b : UInt8) : Text :=
  if isAllowed b then [b.toNat.toUInt16]
  else [0x25, hexDigit (b.toNat / 16), hexDigit (b.toNat % 16)]

/-- The control characters that are cut off at the end of a path. -/
def isCut (u : CodeUnit) : Bool := u < 0x20 && !(([0x00, 0x09, 0x0A, 0x0D] : Text).contains u)

/-- A path up to the control characters that are cut off at its end. -/
def cut (p : Text) : Text := (p.reverse.dropWhile isCut).reverse

/-- Whether a letter and a colon stand behind the first slash. -/
def namesDrive : Text → Bool
  | _ :: u :: v :: _ => u.isLetter && v = ':'
  | _ => false

/-- The directory above a directory, both with a slash at their end. There is none above the root or
above a drive. -/
def directoryAbove (directory : Text) : Text :=
  let above := Path.throughLastSlash directory
  if above = [] ∨ (above = [Path.separator] ∧ namesDrive directory) then directory else above

/-- A path with the dots resolved that stand in its last place. -/
def settle (p : Text) : Text :=
  if Path.baseName p = Path.here then Path.throughLastSlash p
  else if Path.baseName p = Path.above then directoryAbove (Path.throughLastSlash p)
  else p

/-- What is encoded of a path in normal form. -/
def kept (p : Text) : Text := settle (cut p)

/-- The URI of an absolute path in normal form. -/
def ofPath (p : Text) : Text := "file://" ++ (Utf8.encode (kept p)).flatMap encodeOctet

example : ofPath "/a b/é%" = "file:///a%20b/%C3%A9%25" := by decide
example : ofPath "/a/b\u0001" = "file:///a/b" ∧ ofPath "/a/..\u0001" = "file:///" := by decide

end FileUri

end FileProfile
