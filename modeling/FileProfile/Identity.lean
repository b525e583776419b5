import FileProfile.FileUri
import FileProfile.Path

/-!
The identity of a file: its absolute path, compared by URI.
-/

namespace FileProfile

/-- An absolute path in normal form. -/
structure Identity where
  path : Text
deriving DecidableEq, Repr

namespace Identity

/-- The identity of `p`, a relative path starting at the working directory. -/
def forPath (workingDirectory p : Text) : Identity := ⟨Path.resolve workingDirectory p⟩

def uri (i : Identity) : Text := FileUri.ofPath i.path

/-- The last component of the path, or a slash for the root. -/
def displayName (i : Identity) : Text :=
  let name := Path.baseName i.path
  if name = [] then [Path.separator] else name

/-- The identity of the directory that holds this one. -/
def parent (i : Identity) : Identity := ⟨Path.parent i.path⟩

/-- The identity of the entry called `name` beside this one. -/
def sibling (i : Identity) (name : Text) : Identity := ⟨Path.join (Path.parent i.path) name⟩

/-- Whether two identities have the same URI. -/
def equals (a b : Identity) : Bool := a.uri = b.uri

end Identity

end FileProfile
