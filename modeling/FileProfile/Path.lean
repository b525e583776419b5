import FileProfile.Text.Basic

/-!
Slash-separated paths.

A path is normalised through its components: empty components and single dots count for nothing,
and a double dot takes away the component before it.
-/

namespace FileProfile

namespace Path

def separator : CodeUnit := '/'

/-- The component of the directory itself. -/
def here : Text := "."

/-- The component of the directory above. -/
def above : Text := ".."

def isAbsolute (p : Text) : Bool := p.head? = some separator

/-- The components that count: neither empty nor a single dot. -/
def components (p : Text) : List Text :=
  (Text.splitAt separator p).filter fun c => c ≠ [] ∧ c ≠ here

/-- Adds a component to those before it, nearest first. Where nothing is left to take away a double
dot stays if the path may climb and is dropped otherwise. -/
def pushComponent (mayClimb : Bool) (stack : List Text) (c : Text) : List Text :=
  if c = above then
    match stack with
    | [] => if mayClimb then [above] else []
    | top :: rest => if top = above then above :: stack else rest
  else c :: stack

/-- The components of the normal form. -/
def normalComponents (mayClimb : Bool) (p : Text) : List Text :=
  ((components p).foldl (pushComponent mayClimb) []).reverse

/-- The absolute path with the given components. -/
def ofComponents (cs : List Text) : Text := separator :: Text.join [separator] cs

/-- The normal form of a path; a trailing slash is kept. -/
def normalize (p : Text) : Text :=
  let closing : Text := if p.getLast? = some separator then [separator] else []
  match isAbsolute p, normalComponents (!isAbsolute p) p with
  | true, [] => [separator]
  | true, cs => ofComponents cs ++ closing
  | false, [] => here ++ closing
  | false, cs => Text.join [separator] cs ++ closing

/-- The absolute normal form of `p`, a relative path starting at the absolute path `base`. -/
def resolve (base p : Text) : Text :=
  ofComponents (normalComponents false (if isAbsolute p then p else base ++ separator :: p))

/-- The normal form of `name` under `directory`; an empty part counts for nothing. -/
def join (directory name : Text) : Text :=
  if directory = [] then normalize name
  else if name = [] then normalize directory
  else normalize (directory ++ separator :: name)

/-- The path up to the slash before its last component. -/
def throughLastSlash (p : Text) : Text :=
  ((p.reverse.dropWhile fun u => u = separator).dropWhile fun u => u ≠ separator).reverse

/-- The directory part of a path. -/
def parent (p : Text) : Text :=
  let through := throughLastSlash p
  if through.length ≤ 1 then (if isAbsolute p then [separator] else here)
  else if through.length = 2 ∧ isAbsolute p then [separator, separator]
  else through.dropLast

/-- The last component of a path, trailing slashes not counting; empty for the root. -/
def baseName (p : Text) : Text :=
  ((p.reverse.dropWhile fun u => u = separator).takeWhile fun u => u ≠ separator).reverse

def dot : CodeUnit := '.'

/-- The last dot of the last component and what follows it. A dot that begins the component makes
no extension. -/
def extension (p : Text) : Text :=
  let name := baseName p
  let after := (name.reverse.takeWhile fun u => u ≠ dot).reverse
  let stem := name.length - after.length - 1
  if name = above ∨ after.length = name.length ∨ stem = 0 then [] else dot :: after

example : resolve "/work" "../a/./b//c" = "/a/b/c" := by decide
example : parent "/a/b" = "/a" ∧ parent "/a" = "/" ∧ parent "a" = "." := by decide
example : extension "a.tar.gz" = ".gz" ∧ extension ".profile" = "" ∧ extension "a." = "." := by
  decide

end Path

end FileProfile
