import FileProfile.Text.Blank

/-!
Locale names and the order in which localized values are looked up.

A name has a language and optionally a territory, a codeset and a modifier. `Locale.expand` lists
its variants from the most to the least specific one, the codeset dropped; `Locale.normalize` puts
the variants of several names in one list that ends in `C`.
-/

namespace FileProfile

/-- A locale name without its codeset. -/
structure Locale where
  language : Text
  territory : Option Text
  modifier : Option Text
deriving DecidableEq, Repr

namespace Locale

def underscore : CodeUnit := '_'

def dot : CodeUnit := '.'

def atSign : CodeUnit := '@'

/-- An optional part behind its mark: absent where the text does not begin with the mark. The
result is `none` where the mark is there and the part is empty. -/
def part? (mark : CodeUnit) (stop : CodeUnit → Bool) : Text → Option (Option Text × Text)
  | [] => some (none, [])
  | u :: rest =>
    if u = mark then
      match rest.takeWhile fun v => !stop v with
      | [] => none
      | part => some (some part, rest.dropWhile fun v => !stop v)
    else some (none, u :: rest)

/-- The parts of a locale name, which has a language, ends after its last part, and whose modifier
stands on one line. -/
def parse? (name : Text) : Option Locale := do
  let ends (u : CodeUnit) := u = underscore || u = dot || u = atSign
  let language := name.takeWhile fun u => !ends u
  guard (language ≠ [])
  let rest := name.dropWhile fun u => !ends u
  let (territory, rest) ← part? underscore (fun u => u = dot || u = atSign) rest
  let (_, rest) ← part? dot (fun u => u = atSign) rest
  let (modifier, rest) ← part? atSign CodeUnit.isLineTerminator rest
  guard (rest = [])
  return { language, territory, modifier }

/-- The variants of a parsed name, most specific first. -/
def variants (l : Locale) : List Text :=
  let withModifier (name : Text) := l.modifier.toList.map fun m => name ++ atSign :: m
  (l.territory.toList.flatMap fun t =>
    let name := l.language ++ underscore :: t
    withModifier name ++ [name]) ++ withModifier l.language ++ [l.language]

/-- The variants of a locale name; none where it is malformed. -/
def expand (name : Text) : List Text :=
  match parse? name with
  | some l => l.variants
  | none => []

/-- The locale of values for no locale in particular. -/
def neutral : Text := "C"

/-- Another name of the neutral locale. -/
def posix : Text := "POSIX"

/-- Adds a variant to the end unless it is there or is the neutral locale. -/
def addVariant (names : List Text) (variant : Text) : List Text :=
  if variant = neutral ∨ variant ∈ names then names else names ++ [variant]

/-- The variants of all requested names in order, each once, and the neutral locale last. -/
def normalize (names : List Text) : List Text :=
  let requested := names.filter fun name => name ≠ neutral ∧ name ≠ posix
  (requested.flatMap expand).foldl addVariant [] ++ [neutral]

/-- The variables that choose the locale. -/
structure Preferences where
  language : Option Text := none
  lcAll : Option Text := none
  lcMessages : Option Text := none
  lang : Option Text := none
deriving DecidableEq, Repr

/-- A value that is set and not empty. -/
def nonEmpty (value : Option Text) : Option Text := value.filter fun v => v ≠ []

/-- The locales to look values up in: a list separated by colons, then the category. -/
def Preferences.names (p : Preferences) : List Text :=
  let listed := ((p.language.map (Text.splitAt ':')).getD []).filter fun name => name ≠ []
  let category := nonEmpty p.lcAll <|> nonEmpty p.lcMessages <|> nonEmpty p.lang
  normalize (listed ++ category.toList)

example : expand "sr_RS.UTF-8@latin" =
    (["sr_RS@latin", "sr_RS", "sr@latin", "sr"] : List Text) := by decide
example : normalize ["de_DE", "C", "de"] = (["de_DE", "de", "C"] : List Text) := by decide

end Locale

end FileProfile
