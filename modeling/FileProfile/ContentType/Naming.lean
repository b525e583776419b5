import FileProfile.ContentType.Rules
import FileProfile.Text.LowerCase
import FileProfile.Path

/-!
Content types told by file names.

The suffix of a name is looked up among the overrides, then in the rules, each time as it stands
and then in lower case, and last in a table of well-known extensions, which are written in lower
case and without their dot. A suffix begins with a dot, and so no record inherits anything under it.
-/

namespace FileProfile

namespace ContentType

/-- A suffix as it stands, or else in lower case. -/
def lookupSuffix (t : Table Text) (suffix : Text) : Option Text :=
  t.get? suffix <|> t.get? (Text.lowerCase suffix)

/-- The type that a name alone tells; an empty type in a table tells nothing. -/
def ofName? (extensions overrides : Table Text) (rules : Rules) (name : Text) : Option Text :=
  let given (t : Option Text) := t.filter fun type => type ≠ []
  match Path.extension name with
  | [] => none
  | suffix =>
    given (lookupSuffix overrides suffix) <|> given (lookupSuffix rules.suffixes suffix)
      <|> match (Text.lowerCase suffix).tail with
        | [] => none
        | extension => given (extensions.get? extension)

end ContentType

end FileProfile
