import FileProfile.KeyFile.Escape
import FileProfile.Text.Blank

/-!
Key files: groups of `key=value` entries, with comments and blank lines between them.

Every line is kept as it was written, so a file that is written back differs from the one read only
in the entries that were set. The last entry of a key counts, and the first group of a name.
-/

namespace FileProfile

/-- A line inside a group, or before the first one. -/
inductive KeyLine where
  | blank (raw : Text)
  | comment (raw : Text)
  | entry (raw key value : Text)
deriving DecidableEq, Repr

namespace KeyLine

def raw : KeyLine → Text
  | .blank raw => raw
  | .comment raw => raw
  | .entry raw _ _ => raw

def isBlank : KeyLine → Bool
  | .blank _ => true
  | _ => false

def isEntry : KeyLine → Bool
  | .entry .. => true
  | _ => false

def key? : KeyLine → Option Text
  | .entry _ key _ => some key
  | _ => none

/-- The escaped value of an entry for `key`. -/
def valueFor? (key : Text) : KeyLine → Option Text
  | .entry _ k value => if k = key then some value else none
  | _ => none

def isFor (key : Text) (line : KeyLine) : Bool := line.key? = some key

/-- The line of an entry with an unescaped value. -/
def ofValue (key value : Text) : KeyLine :=
  .entry (key ++ "=" ++ KeyFile.escape value) key (KeyFile.escape value)

end KeyLine

/-- A header and the lines up to the next one. -/
structure KeyGroup where
  header : Text
  name : Text
  body : List KeyLine
deriving DecidableEq, Repr

namespace KeyGroup

/-- The escaped value of the last entry for `key`. -/
def lastValue? (key : Text) (g : KeyGroup) : Option Text :=
  g.body.reverse.findSome? (KeyLine.valueFor? key)

def hasKey (key : Text) (g : KeyGroup) : Bool := g.body.any (KeyLine.isFor key)

/-- The keys in the order of their first entries. -/
def keys (g : KeyGroup) : List Text :=
  (g.body.filterMap KeyLine.key?).foldl (fun seen k => if k ∈ seen then seen else seen ++ [k]) []

/-- Replaces the last entry for `key` by `line`. -/
def replaceLast (key : Text) (line : KeyLine) : List KeyLine → List KeyLine
  | [] => []
  | l :: rest =>
    if rest.any (KeyLine.isFor key) then l :: replaceLast key line rest
    else if l.isFor key then line :: rest
    else l :: replaceLast key line rest

/-- Puts `line` behind the last entry, or in front where there is none. -/
def insertAfterEntries (line : KeyLine) : List KeyLine → List KeyLine
  | [] => [line]
  | l :: rest =>
    if rest.any KeyLine.isEntry then l :: insertAfterEntries line rest
    else if l.isEntry then l :: line :: rest
    else line :: l :: rest

/-- Sets `key` where it has an entry, and adds an entry behind the others where it has none. -/
def set (key value : Text) (g : KeyGroup) : KeyGroup :=
  let line := KeyLine.ofValue key value
  { g with
    body := if g.hasKey key then replaceLast key line g.body else insertAfterEntries line g.body }

def rawLines (g : KeyGroup) : List Text := g.header :: g.body.map KeyLine.raw

end KeyGroup

/-- The lines of a key file and how they are terminated. -/
structure KeyFile where
  preamble : List KeyLine
  groups : List KeyGroup
  terminator : Text
  endsTerminated : Bool
deriving DecidableEq, Repr

namespace KeyFile

/-- Why a line does not belong in a key file. -/
inductive Fault where
  | malformedHeader (line : Text)
  | missingEquals (line : Text)
  | outsideGroup
  | emptyKey
deriving DecidableEq, Repr

def Fault.message : Fault → Text
  | .malformedHeader line => "Malformed group header: " ++ line
  | .missingEquals line => "Expected \"key=value\": " ++ line
  | .outsideGroup => "Key/value pair outside of any group"
  | .emptyKey => "Empty key name"

/-- The fault of the first line at fault, lines being counted from one. -/
structure ParseError where
  line : Nat
  fault : Fault
deriving DecidableEq, Repr

/-- A line as its first units tell: a header, or a line of a body. -/
inductive Row where
  | header (raw name : Text)
  | line (line : KeyLine)
deriving DecidableEq, Repr

def openBracket : CodeUnit := '['

def closeBracket : CodeUnit := ']'

def hash : CodeUnit := '#'

def equalsSign : CodeUnit := '='

/-- The name in a trimmed header: what stands between its two only brackets. -/
def headerName? (trimmed : Text) : Option Text :=
  let name := trimmed.tail.dropLast
  if trimmed.head? = some openBracket ∧ trimmed.tail.getLast? = some closeBracket ∧ name ≠ []
      ∧ openBracket ∉ name ∧ closeBracket ∉ name then
    some name
  else none

/-- Reads one line; `inGroup` tells whether a header stands before it. -/
def readRow (inGroup : Bool) (raw : Text) : Except Fault Row :=
  let trimmed := Text.trim raw
  match trimmed with
  | [] => .ok (.line (.blank raw))
  | u :: _ =>
    if u = hash then .ok (.line (.comment raw))
    else if u = openBracket then
      match headerName? trimmed with
      | some name => .ok (.header raw name)
      | none => .error (.malformedHeader trimmed)
    else if equalsSign ∉ raw then .error (.missingEquals trimmed)
    else if !inGroup then .error .outsideGroup
    else
      let key := Text.trim (raw.takeWhile fun v => v ≠ equalsSign)
      let value := Text.trimStart ((raw.dropWhile fun v => v ≠ equalsSign).drop 1)
      if key = [] then .error .emptyKey else .ok (.line (.entry raw key value))

def Row.isHeader : Row → Bool
  | .header .. => true
  | .line _ => false

/-- Reads lines from number `n` on. -/
def readRows (n : Nat) (inGroup : Bool) : List Text → Except ParseError (List Row)
  | [] => .ok []
  | raw :: rest =>
    match readRow inGroup raw with
    | .error fault => .error ⟨n, fault⟩
    | .ok row => (readRows (n + 1) (inGroup || row.isHeader) rest).map (row :: ·)

/-- The lines before the first header, and the groups. -/
def assemble : List Row → List KeyLine × List KeyGroup
  | [] => ([], [])
  | .header raw name :: rest => ([], ⟨raw, name, (assemble rest).1⟩ :: (assemble rest).2)
  | .line line :: rest => (line :: (assemble rest).1, (assemble rest).2)

/-- Whether a text ends in a terminator. -/
def isTerminated (t : Text) : Bool := t.getLast? = some Text.lineFeed

/-- The lines of a text, a final terminator making no line of its own. -/
def fileLines (t : Text) : List Text :=
  if isTerminated t then (Text.lines t).dropLast else Text.lines t

/-- Reads a key file. -/
def parse (t : Text) : Except ParseError KeyFile :=
  match readRows 1 false (fileLines t) with
  | .error e => .error e
  | .ok rows => .ok {
      preamble := (assemble rows).1
      groups := (assemble rows).2
      terminator := if Text.hasCrLf t then "\r\n" else "\n"
      endsTerminated := isTerminated t }

/-- The key file without lines. -/
def empty : KeyFile := ⟨[], [], "\n", true⟩

/-- The lines as they were written or set. -/
def rawLines (f : KeyFile) : List Text :=
  f.preamble.map KeyLine.raw ++ f.groups.flatMap KeyGroup.rawLines

/-- Writes a key file. -/
def text (f : KeyFile) : Text :=
  let body := Text.join f.terminator f.rawLines
  if f.endsTerminated ∧ f.rawLines ≠ [] then body ++ f.terminator else body

/-- The names of the groups in file order, repeated where the file repeats them. -/
def groupNames (f : KeyFile) : List Text := f.groups.map KeyGroup.name

def group? (f : KeyFile) (name : Text) : Option KeyGroup := f.groups.find? fun g => g.name = name

def hasGroup (f : KeyFile) (name : Text) : Bool := (f.group? name).isSome

/-- Whether a group has an entry for exactly this key, its locale included. -/
def hasKey (f : KeyFile) (group key : Text) : Bool := (f.group? group).any (KeyGroup.hasKey key)

def keys (f : KeyFile) (group : Text) : List Text := ((f.group? group).map KeyGroup.keys).getD []

/-- The value of a key, unescaped. -/
def get? (f : KeyFile) (group key : Text) : Option Text :=
  ((f.group? group).bind (KeyGroup.lastValue? key)).map unescape

/-- The key of the value for a locale. -/
def localized (key locale : Text) : Text := key ++ "[" ++ locale ++ "]"

/-- The value for the first locale that has one, or the value for none. -/
def getLocalized? (f : KeyFile) (group key : Text) (locales : List Text) : Option Text :=
  match locales.findSome? fun locale => f.get? group (localized key locale) with
  | some value => some value
  | none => f.get? group key

/-- The truth value of a key, or `otherwise` where it is missing or no truth value. -/
def getBool (f : KeyFile) (group key : Text) (otherwise : Bool) : Bool :=
  match (f.get? group key).map Text.trim with
  | none => otherwise
  | some value =>
    if value = "true" ∨ value = "1" then true
    else if value = "false" ∨ value = "0" then false
    else otherwise

/-- Adds an empty line unless the lines are empty or end in a blank one. -/
def separated (lines : List KeyLine) : List KeyLine :=
  match lines.getLast? with
  | none => lines
  | some line => if line.isBlank then lines else lines ++ [.blank []]

/-- Separates the last group from what follows; its header counts as a line. -/
def separateLast : List KeyGroup → List KeyGroup
  | [] => []
  | [g] => [{ g with body := if g.body = [] then [.blank []] else separated g.body }]
  | g :: rest => g :: separateLast rest

/-- Adds a group of one entry behind all lines. -/
def addGroup (f : KeyFile) (group key value : Text) : KeyFile :=
  { f with
    preamble := if f.groups = [] then separated f.preamble else f.preamble
    groups := separateLast f.groups ++ [⟨"[" ++ group ++ "]", group, [.ofValue key value]⟩] }

/-- Applies `change` to the first group of a name. -/
def updateFirst (name : Text) (change : KeyGroup → KeyGroup) : List KeyGroup → List KeyGroup
  | [] => []
  | g :: rest => if g.name = name then change g :: rest else g :: updateFirst name change rest

/-- Sets a key in the first group of a name, adding the group where there is none. -/
def set (f : KeyFile) (group key value : Text) : KeyFile :=
  if f.hasGroup group then { f with groups := updateFirst group (KeyGroup.set key value) f.groups }
  else f.addGroup group key value

end KeyFile

end FileProfile
