import FileProfile.Document.Writer
import FileProfile.Launch.Plan
import FileProfile.Text.Wrap

/-!
Descriptors and launch plans as they are shown: as labelled rows, as a panel, and as JSON.
-/

namespace FileProfile

/-- The calendar form of a time. -/
def calendarText (time : Int) : Except Failure Text :=
  match Timestamp.text? time with
  | some t => .ok t
  | none => .error .invalidTime

namespace Descriptor

/-- The flags by name, or a word for none. -/
def flagsText (d : Descriptor) : Text :=
  match Flag.names d.flags with
  | [] => "none"
  | names => Text.join ", " names

/-- The labelled values of a descriptor with a content type of the given name. -/
def rows (d : Descriptor) (typeName : TypeName) : Except Failure (List (Text × Text)) := do
  let modified ← calendarText d.attributes.mtime
  let row (label : String) (value : Text) : Text × Text := (label, value)
  let hint (label : String) (value : Option Text) := value.toList.map (row label)
  return [row "Path" d.path, row "Kind" d.kind.name, row "Type" typeName.spelled,
      row "Mode" d.modeText, row "Flags" d.flagsText,
      row "Owner" (Binary64.text d.attributes.uid ++ ":" ++ Binary64.text d.attributes.gid),
      row "Size" (Binary64.text d.attributes.size ++ " bytes"), row "Modified" modified,
      row "Inode" (Numeral.decimalInt d.attributes.inode)]
    ++ hint "Icon" (d.hints.bind Hints.icon) ++ hint "Name" (d.hints.bind Hints.name)

/-- The fields of hints that are given. -/
def hintsDocument (h : Hints) : Document :=
  .record ((h.icon.toList.map fun t => (("icon" : Text), Document.string t))
    ++ h.name.toList.map fun t => (("name" : Text), Document.string t))

/-- The name of a content type as a document. Functions have no such form. -/
def typeDocument? : TypeName → Option Document
  | .text t => some (.string t)
  | .inherited key => if key.val = prototypeKey then some (.record []) else none

/-- A descriptor as a document. -/
def snapshot (d : Descriptor) (typeName : TypeName) : Except Failure Document := do
  let atime ← calendarText d.attributes.atime
  let ctime ← calendarText d.attributes.ctime
  let mtime ← calendarText d.attributes.mtime
  let field (key : String) (value : Document) : Text × Document := (key, value)
  return .record ([field "path" (.string d.path), field "uri" (.string d.identity.uri),
      field "displayName" (.string d.displayName), field "kind" (.string d.kind.name),
      field "mode" (.string d.modeText), field "flags" (.list ((Flag.names d.flags).map .string)),
      field "uid" (.integer d.attributes.uid), field "gid" (.integer d.attributes.gid),
      field "size" (.integer d.attributes.size), field "atime" (.string atime),
      field "ctime" (.string ctime), field "mtime" (.string mtime),
      field "inode" (.string (Numeral.decimalInt d.attributes.inode)),
      field "device" (.string (Numeral.decimalInt d.attributes.device))]
    ++ (typeDocument? typeName).toList.map (field "contentType")
    ++ d.hints.toList.map fun h => field "hints" (hintsDocument h))

end Descriptor

namespace Panel

def horizontal : CodeUnit := 0x2500

def vertical : CodeUnit := 0x2502

/-- A text lengthened by `fill` to a number of columns. -/
def fillTo (width : Nat) (fill : CodeUnit) (t : Text) : Text :=
  t ++ List.replicate (width - Text.displayWidth t) fill

/-- The greatest number of columns between the borders. -/
def widest : Nat := 78

/-- A title between two blanks, cut to the units that fit at one column each; nothing where it is
empty. -/
def heading (title : Text) : Text :=
  if title = [] then [] else (0x20 : CodeUnit) :: title.take (widest - 2) ++ [0x20]

/-- The columns of the widest line. -/
def greatestWidth (lines : List Text) : Nat := (lines.map Text.displayWidth).foldl max 0

/-- The columns between the borders: enough for the rows of every line between two blanks and for
the heading, up to the greatest number. -/
def innerWidth (heading : Text) (lines : List Text) : Nat :=
  min widest (max (greatestWidth (lines.flatMap (Text.wrap widest false)) + 2)
    (Text.displayWidth heading))

/-- Lines as they are shown in a number of columns: where one is too wide, all are wrapped. -/
def fitted (columns : Nat) (lines : List Text) : List Text :=
  if columns < greatestWidth lines then lines.flatMap (Text.wrap columns true) else lines

/-- The lines of a panel with rounded corners and the title in its upper border. -/
def lines (title : Text) (body : List Text) : List Text :=
  let heading := heading title
  let width := innerWidth heading body
  let top := [0x256D] ++ fillTo width horizontal heading ++ [0x256E]
  let bottom := [0x2570] ++ List.replicate width horizontal ++ [0x256F]
  let middle := (fitted (width - 2) body).map fun line =>
    [vertical] ++ fillTo width 0x20 ((0x20 : CodeUnit) :: line ++ [0x20]) ++ [vertical]
  [top] ++ middle ++ [bottom]

/-- The panel of labelled values; a value may take several lines. -/
def text (title : Text) (rows : List (Text × Text)) : Text :=
  let body := Text.join "\n" (rows.map fun (label, value) => label ++ ": " ++ value)
  Text.join "\n" (lines title (Text.splitAt Text.lineFeed body))

end Panel

namespace LaunchPlan

/-- A launch plan as JSON. -/
def toJsonText (p : LaunchPlan) : Text :=
  Document.toJsonText (.record [("workingDirectory", .string p.workingDirectory),
    ("argv", .list (p.argv.map .string)),
    ("display", (p.display.map Document.string).getD .null)])

end LaunchPlan

namespace Action

/-- The labelled values of a descriptor. -/
def describe (d : DescriptorId) : Action (List (Text × Text)) := do
  let x ← alive d
  ofExcept (x.rows (← typeName x.contentType))

/-- The panel of a descriptor. -/
def panel (d : DescriptorId) : Action Text := do
  let x ← alive d
  return Panel.text x.displayName (← describe d)

/-- A descriptor as a document. -/
def snapshot (d : DescriptorId) : Action Document := do
  let x ← alive d
  ofExcept (x.snapshot (← typeName x.contentType))

/-- Descriptors as documents, up to the first that fails. -/
def snapshots : List DescriptorId → Action (List Document)
  | [] => pure []
  | d :: rest => do
    let first ← snapshot d
    let others ← snapshots rest
    return first :: others

/-- Descriptors as JSON. -/
def jsonText (ds : List DescriptorId) : Action Text := do
  return Document.toJsonText (.list (← snapshots ds))

end Action

end FileProfile
