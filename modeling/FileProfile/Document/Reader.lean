import FileProfile.Document.Folded
import FileProfile.Document.Key
import FileProfile.Document.Scalar

/-!
Configuration texts.

Two styles may be mixed: a flow style of brackets, braces and commas, which covers JSON, and a block
style in which indentation shows the structure. `Document.read` reads the one document of a text,
an empty text or one of comments alone holding null.
-/

namespace FileProfile

namespace Document

/-- Where a node stands: between brackets, as the key of a field in block style, as an item of a
list in block style, or as the value of such a field or a whole document. -/
inductive Setting where
  | inFlow
  | key
  | item
  | value
deriving DecidableEq, Repr

namespace Setting

/-- Whether nodes in block style may stand there. -/
def isBlock : Setting → Bool
  | .item | .value => true
  | .inFlow | .key => false

/-- The spaces that a node needs in front where it begins on a line of its own. -/
def least (s : Setting) (margin : Nat) : Nat := if s.isBlock then margin else margin + 1

end Setting

/-- What was read where a node may stand. -/
structure Part where
  /-- The value, null where there is no node. -/
  value : Document := .null
  isPresent : Bool := false
  /-- Whether it is the plain word that merges records as a key. -/
  isMerge : Bool := false

namespace Part

def of (d : Document) : Part := { value := d, isPresent := true }

/-- A plain word with its value. -/
def ofWord (t : Text) : Part := { Part.of (ofPlain t) with isMerge := t = "<<" }

end Part

/-- A key and where it begins. -/
structure Key where
  part : Part
  place : Cursor

/-- The record with one more field; a fault of the key lies where the key begins. -/
def withField (r : PartialRecord) (key : Key) (value : Document) : Reading PartialRecord := do
  if key.part.isMerge then
    match r.merge value with
    | .ok r => return r
    | .error cause => Reading.fail cause
  else
    match keyText key.part.value with
    | .error cause => Reading.fail cause
    | .ok text =>
      match r.add text value with
      | .ok r => return r
      | .error cause => Reading.failAt key.place cause

/-! ## Anchors -/

/-- Units that a name behind an anchor or alias mark consists of. -/
def isNameUnit (u : CodeUnit) : Bool := !isGap u && !isFlowMark u

/-- The name behind a mark. -/
def nameBehind (cause : SyntaxCause) : Reading Text := do
  Reading.pass
  let c ← get
  let name := c.rest.takeWhile isNameUnit
  if name = [] then Reading.fail cause
  else
    set { c with rest := c.rest.drop name.length, column := c.column + name.length }
    return name

/-- Keeps a value under an anchor. -/
def remember (anchor : Option Text) (d : Document) : Reading Unit :=
  modify fun c => { c with anchors := (anchor.map fun name => (name, d)).toList ++ c.anchors }

/-- The value of an alias. -/
def aliasedValue : Reading Document := do
  let name ← nameBehind .namelessAlias
  match find? (← get).anchors name with
  | some d => return d
  | none => Reading.fail (.unknownAlias name)

/-- How the content of a node may begin. -/
structure Opening where
  anchor : Option Text := none
  /-- Whether a line break comes before the content. -/
  isFresh : Bool
  /-- Whether lists and records in block style may begin. -/
  allowsBlocks : Bool

/-- Goes over an anchor. Behind one a block may begin on the next line only. -/
def passAnchor (setting : Setting) (compact : Bool) (o : Opening) : Reading Opening := do
  if (← Reading.next?) ≠ some 0x26 then
    return { o with allowsBlocks := setting.isBlock && (o.isFresh || compact) }
  else
    let name ← nameBehind .namelessAnchor
    let breaks ← Reading.skip
    if (← Reading.next?) = some 0x26 then Reading.fail .repeatedAnchor
    else
      return {
        anchor := some name
        isFresh := o.isFresh || breaks ≠ 0
        allowsBlocks := setting.isBlock && breaks ≠ 0 }

/-- Whether the line is indented by at least `least` spaces, where a line break comes before. -/
def isInside (isFresh : Bool) (least : Nat) (c : Cursor) : Bool :=
  !isFresh || least ≤ c.indentation

/-! ## Nodes -/

/-- A quoted string, an alias or a plain word. -/
def scalar (setting : Setting) (margin fuel : Nat) (anchored : Bool) : Reading Part := do
  match ← Reading.next? with
  | none => return {}
  | some u =>
    if setting.isBlock ∧ (u = 0x7C ∨ u = 0x3E) then
      Reading.pass
      return .of (.string (← blockText (u = 0x3E) margin fuel))
    else if u = 0x27 then
      Reading.pass
      return .of (.string (← singleQuoted fuel {}))
    else if u = 0x22 then
      Reading.pass
      return .of (.string (← doubleQuoted fuel {}))
    else if u = 0x2A then
      let d ← aliasedValue
      if anchored then Reading.fail .anchoredAlias else return .of d
    else if beginsWord (setting = .inFlow) (← get).rest then
      let word ← plainWord (setting = .inFlow) margin fuel
      return if word = [] then {} else .ofWord word
    else return {}

/-- How far the fields of a record in block style have been read. -/
structure FieldState where
  record : PartialRecord := {}
  /-- Whether a field has been seen, so that this is a record. -/
  isRecord : Bool := false
  /-- The key behind a question mark, while its value is missing. -/
  openKey : Option Key := none

/-- The state with null for the value of an open key. -/
def FieldState.close (s : FieldState) : Reading FieldState := do
  match s.openKey with
  | none => return s
  | some key => return { s with record := ← withField s.record key .null, openKey := none }

/-- The state in which an open key counts as begun at a place. -/
def FieldState.moved (s : FieldState) (place : Cursor) : FieldState :=
  { s with openKey := s.openKey.map fun key => { key with place } }

/-- The record that was read, where it is one. -/
def FieldState.finish (s : FieldState) : Reading (Option Part) := do
  let s ← s.close
  return if s.isRecord then some (.of s.record.document) else none

/-- Goes over a comma and what stands before it, and tells whether there was one. -/
def passComma : Reading Bool := do
  let _ ← Reading.skip
  if (← Reading.next?) = some 0x2C then
    Reading.pass
    return true
  else return false

mutual

/-- A node in its setting. `margin` is the indentation that its further lines need; `seek` lets it
begin on a later line, and `compact` lets a block begin in the current one. -/
def readNode : Nat → (setting : Setting) → (margin : Nat) → (seek compact : Bool) → Reading Part
  | 0, _, _, _, _ => Reading.fail .trailing
  | fuel + 1, setting, margin, seek, compact => do
    let breaks ← if seek then Reading.skip else pure 0
    let least := setting.least margin
    let start : Opening :=
      { isFresh := breaks ≠ 0, allowsBlocks := setting.isBlock && (breaks ≠ 0 || compact) }
    let o ← if isInside start.isFresh least (← get) then passAnchor setting compact start
      else pure start
    let c ← get
    let part ←
      if isInside o.isFresh least c then readContent fuel setting margin o
      else if setting = .value ∧ c.indentation + 1 = least ∧ o.allowsBlocks ∧ c.tab = none
          ∧ c.atMark 0x2D then do
        pure (Part.of (.list (← readItems fuel c.column [])))
      else pure {}
    remember o.anchor part.value
    return { part with isPresent := part.isPresent || o.anchor.isSome }

/-- The content of a node. -/
def readContent : Nat → (setting : Setting) → (margin : Nat) → Opening → Reading Part
  | 0, _, _, _ => Reading.fail .trailing
  | fuel + 1, setting, margin, o => do
    let c ← get
    let block : Option Part ←
      if o.allowsBlocks ∧ c.tab = none then
        if c.atMark 0x2D then do
          pure (some (Part.of (.list (← readItems fuel c.column []))))
        else readFields fuel c.column margin {}
      else pure none
    match block with
    | some part => return part
    | none =>
      match ← Reading.next? with
      | some 0x5B =>
        Reading.pass
        return .of (← readFlowItems fuel margin true [])
      | some 0x7B =>
        Reading.pass
        return .of (← readFlowFields fuel margin true {})
      | _ => scalar setting margin fuel o.anchor.isSome

/-- The items of a list whose dashes stand in `column`, behind those that were read, the latest
first. -/
def readItems : Nat → (column : Nat) → List Document → Reading (List Document)
  | 0, _, _ => Reading.fail .trailing
  | fuel + 1, column, items => do
    if (← Reading.next?).isNone then return items.reverse
    else
      Reading.refuseTab
      if !(← get).atMark 0x2D then return items.reverse
      else
        Reading.pass
        let breaks ← Reading.skip
        if breaks ≠ 0 ∧ (← get).indentation ≤ column then
          readItems fuel column (.null :: items)
        else
          let line := (← get).line
          let item ← readNode fuel .item (column + 1) false true
          let _ ← Reading.skip
          let c ← get
          if (c.line = line ∨ column < c.indentation) ∧ c.rest ≠ [] then
            Reading.fail .itemIndentation
          else if c.indentation < column then return (item.value :: items).reverse
          else readItems fuel column (item.value :: items)

/-- The fields of a record whose keys stand in `column`. A node without a colon behind it is no
key; where it comes first it is the node itself, and there is none where no node comes. -/
def readFields : Nat → (column margin : Nat) → FieldState → Reading (Option Part)
  | 0, _, _, _ => Reading.fail .trailing
  | fuel + 1, column, margin, s => do
    let c ← get
    if c.rest = [] then s.finish
    else
      if s.openKey.isNone then Reading.refuseTab
      if c.atMark 0x3F then
        let s ← s.close
        Reading.pass
        readFieldValue fuel column margin c.line { s with isRecord := true } none
      else if c.atMark 0x3A then
        match s.openKey with
        | none => Reading.fail .missingKey
        | some key =>
          Reading.pass
          readFieldValue fuel column margin c.line { s with openKey := none } (some (key, true))
      else
        let s := s.moved c
        let part ← readNode fuel .key margin false true
        if !part.isPresent then s.finish
        else if (← get).line ≠ c.line then
          if s.isRecord then Reading.fail .keyOverLines else return some part
        else
          Reading.skipBlanks
          if (← Reading.next?) = some 0x3A then
            Reading.pass
            if !(← Reading.next?).any isGap then Reading.fail .missingBlank
            else
              let s ← s.close
              readFieldValue fuel column margin c.line { s with isRecord := true }
                (some (⟨part, c⟩, false))
          else if s.isRecord then Reading.fail .missingColon
          else return some part

/-- The value of a field whose key begins in a line, and the fields behind it. Without a key yet,
what comes is a key that stands behind a question mark. -/
def readFieldValue : Nat → (column margin line : Nat) → FieldState → Option (Key × Bool) →
    Reading (Option Part)
  | 0, _, _, _, _, _ => Reading.fail .trailing
  | fuel + 1, column, margin, line, s, key => do
    let place ← get
    let compact := match key with
      | some (_, isOpen) => isOpen
      | none => true
    let part ← readNode fuel .value (column + 1) true compact
    let s ←
      match key with
      | some (key, _) => do
        pure { s with record := ← withField s.record key part.value }
      | none => pure { s with openKey := some ⟨{ part with isMerge := false }, place⟩ }
    let _ ← Reading.skip
    let c ← get
    if (c.line = line ∨ column < c.indentation) ∧ c.rest ≠ [] then Reading.fail .fieldIndentation
    else if c.indentation < column then s.finish
    else readFields fuel column margin s

/-- The items of a list up to its closing bracket. A comma must come before further items. -/
def readFlowItems : Nat → (margin : Nat) → (afterComma : Bool) → List Document → Reading Document
  | 0, _, _, _ => Reading.fail .trailing
  | fuel + 1, margin, afterComma, items => do
    if (← Reading.next?).isNone then Reading.fail .openBrackets
    else
      let _ ← Reading.skip
      if (← Reading.next?) = some 0x5D then
        Reading.pass
        return .list items.reverse
      else
        let (key, value) ← readFlowEntry fuel margin afterComma
        let item ←
          match value with
          | some value => do pure (← withField {} key value).document
          | none => pure key.part.value
        readFlowItems fuel margin (← passComma) (item :: items)

/-- The fields of a record up to its closing brace. -/
def readFlowFields : Nat → (margin : Nat) → (afterComma : Bool) → PartialRecord → Reading Document
  | 0, _, _, _ => Reading.fail .trailing
  | fuel + 1, margin, afterComma, fields => do
    if (← Reading.next?).isNone then Reading.fail .openBrackets
    else
      let _ ← Reading.skip
      if (← Reading.next?) = some 0x7D then
        Reading.pass
        return fields.document
      else
        let (key, value) ← readFlowEntry fuel margin afterComma
        let fields ← withField fields key (value.getD .null)
        readFlowFields fuel margin (← passComma) fields

/-- A node between brackets, and a value where a colon follows in the line of the node or a question
mark stands before it. -/
def readFlowEntry : Nat → (margin : Nat) → (afterComma : Bool) → Reading (Key × Option Document)
  | 0, _, _ => Reading.fail .trailing
  | fuel + 1, margin, afterComma => do
    if !afterComma then Reading.fail .missingComma
    else if (← Reading.next?) = some 0x2C then Reading.fail .missingNode
    else
      let marked := (← get).atMark 0x3F
      if marked then
        Reading.pass
        let _ ← Reading.skip
      let place ← get
      let part ← readNode fuel .inFlow margin false true
      let _ ← Reading.skip
      let c ← get
      if (marked ∨ c.line = place.line) ∧ c.rest.head? = some 0x3A then
        Reading.pass
        let _ ← Reading.skip
        let value ← readNode fuel .inFlow margin false true
        return (⟨part, place⟩, some value.value)
      else return (⟨part, place⟩, if marked then some .null else none)

end

/-! ## Texts -/

/-- The value of a document that begins at the current place. -/
def readValue (fuel : Nat) : Reading Document := do
  let _ ← Reading.skip
  let c ← get
  if c.indentation = 0 ∧ c.rest.take 3 = "---" then
    set { c with rest := c.rest.drop 3, column := c.column + 3 }
    let _ ← Reading.skip
  return (← readNode fuel .value (← get).indentation false true).value

/-- A document up to the line that parts it from the next one, or to the end of the text. -/
def readDocument (fuel : Nat) : Reading Document := do
  let d ← readValue fuel
  let _ ← Reading.skip
  let c ← get
  if c.atSeparator then
    if c.rest.head? = some 0x2E then
      set { c with rest := c.rest.drop 3, column := c.column + 3 }
      let _ ← Reading.skip
    return d
  else if c.rest.length ≤ 1 then return d
  else Reading.fail .trailing

/-- The documents of a text. -/
def readDocuments : Nat → Reading (List Document)
  | 0 => return []
  | fuel + 1 => do
    if (← get).rest.length ≤ 1 then return []
    else
      modify fun c => { c with anchors := [] }
      let d ← readDocument (fuel + 1)
      return d :: (← readDocuments fuel)

/-- The text without a mark of its byte order, and with a line break at its end. -/
def completed (source : Text) : Text :=
  let ended :=
    if source.getLast?.all isBreak then source else source ++ [Text.lineFeed]
  if ended.head? = some 0xFEFF then ended.drop 1 else ended

/-- The start of a text, behind the spaces of its first line. -/
def Cursor.start (t : Text) : Cursor :=
  let spaces := (t.takeWhile fun u => u = 0x20).length
  { rest := t.drop spaces, column := spaces, indentation := spaces }

/-- The document of a configuration text. -/
def parse (t : Text) : Except SyntaxFault Document :=
  if t.contains 0 then
    let before := (t.takeWhile fun u => u ≠ 0).length
    .error { cause := .zeroUnit, column := before, left := t.length - before }
  else do
    match ← (readDocuments (8 * t.length + 32)).run' (Cursor.start t) with
    | [] => return .null
    | [d] => return d
    | _ => throw { cause := .severalDocuments }

/-- Reads a configuration text; a fault of its syntax is told by a message. -/
def read (source : Text) : Except Text Document :=
  (parse (completed source)).mapError (SyntaxFault.message (completed source))

end Document

end FileProfile
