import FileProfile.Document.Cursor

/-!
Text that runs over several lines: plain words and quoted strings.

Blanks around a line break do not count. One break reads as a space, and of several breaks all but
the first are kept.
-/

namespace FileProfile

namespace Document

/-- Text as it is collected, everything latest first: the lines before, the current line up to its
last unit that is no blank, and the blanks behind that. -/
structure Folding where
  lines : Text := []
  line : Text := []
  blanks : Text := []

namespace Folding

/-- Adds a unit of the current line. -/
def push (f : Folding) (u : CodeUnit) : Folding :=
  if isSpace u then { f with blanks := u :: f.blanks }
  else { f with line := u :: f.blanks ++ f.line, blanks := [] }

/-- Ends the current line; its last blanks stay or go. -/
def endLine (f : Folding) (keepBlanks : Bool) : Folding :=
  { lines := (if keepBlanks then f.blanks ++ f.line else f.line) ++ f.lines }

/-- Adds text as it stands. -/
def append (f : Folding) (t : Text) : Folding := { f with lines := t.reverse ++ f.lines }

/-- Adds what a number of line breaks reads as. -/
def addBreaks (f : Folding) (count : Nat) : Folding :=
  f.append (if count = 1 then [0x20] else List.replicate (count - 1) Text.lineFeed)

/-- The text that was collected. -/
def text (f : Folding) : Text := f.lines.reverse

end Folding

/-! ## Quoted strings -/

/-- Units that may stand in quotes. -/
def isQuotable (u : CodeUnit) : Bool := u = 0x09 || 0x20 ≤ u

/-- Ends the current line of a quoted string, in which only quotable units may stand. -/
def endQuoted (f : Folding) (keepBlanks : Bool) : Reading Folding :=
  if f.line.all isQuotable then return f.endLine keepBlanks else Reading.fail .unquotable

/-- Goes over line breaks and the blanks around them, comments being text. -/
def skipBreaks : Reading Nat := fun c => .ok (c.skip false)

/-- Fails where a line that parts documents begins. -/
def refuseSeparator (cause : SyntaxCause) : Reading Unit := do
  if (← get).atSeparator then Reading.fail cause

/-- The inside of a single-quoted string and its closing mark; a doubled mark stands for one. -/
def singleQuoted : Nat → Folding → Reading Text
  | 0, _ => Reading.fail .openSingleQuotes
  | fuel + 1, f => do
    match ← Reading.next? with
    | none => Reading.fail .openSingleQuotes
    | some u =>
      if u = 0x27 then
        let f ← endQuoted f true
        Reading.pass
        if (← Reading.next?) = some 0x27 then
          Reading.pass
          singleQuoted fuel (f.push 0x27)
        else return f.text
      else if isBreak u then
        let f ← endQuoted f false
        singleQuoted fuel (f.addBreaks (← skipBreaks))
      else
        refuseSeparator .cutSingleQuotes
        Reading.pass
        singleQuoted fuel (f.push u)

/-- The units that one letter stands for behind a backslash. -/
def letterEscape? (u : CodeUnit) : Option CodeUnit :=
  (([(0x30, 0), (0x61, 7), (0x62, 8), (0x74, 9), (0x09, 9), (0x6E, 0x0A), (0x76, 0x0B),
    (0x66, 0x0C), (0x72, 0x0D), (0x65, 0x1B), (0x20, 0x20), (0x22, 0x22), (0x2F, 0x2F),
    (0x5C, 0x5C), (0x4E, 0x85), (0x5F, 0xA0), (0x4C, 0x2028), (0x50, 0x2029)] :
      List (CodeUnit × CodeUnit)).find? fun entry => entry.1 = u).map Prod.snd

/-- How many hexadecimal digits follow a letter behind a backslash. -/
def hexLength? (u : CodeUnit) : Option Nat :=
  if u = 0x78 then some 2 else if u = 0x75 then some 4 else if u = 0x55 then some 8 else none

/-- The number that hexadecimal digits spell behind one that was read. -/
def hexDigits : Nat → Nat → Reading Nat
  | 0, n => return n
  | count + 1, n => do
    match (← Reading.next?).bind CodeUnit.hexValue? with
    | none => Reading.fail .hexDigit
    | some d =>
      Reading.pass
      hexDigits count (n * 16 + d)

/-- The text of a number of 32 bits: a code point where the highest bit is clear, otherwise the
unit in its lowest bits. -/
def ofEscapedNumber (n : Nat) : Text :=
  if n < 0x80000000 then Text.ofCodePoint n else [n.toUInt16]

/-- What an escape other than a line break stands for. -/
def escaped (u : CodeUnit) : Reading Text := do
  match letterEscape? u, hexLength? u with
  | some image, _ =>
    Reading.pass
    return [image]
  | none, some count =>
    Reading.pass
    return ofEscapedNumber (← hexDigits count 0)
  | none, none => Reading.fail .unknownEscape

/-- The inside of a double-quoted string and its closing mark. A backslash before a line break
takes the break away. -/
def doubleQuoted : Nat → Folding → Reading Text
  | 0, _ => Reading.fail .openDoubleQuotes
  | fuel + 1, f => do
    match ← Reading.next? with
    | none => Reading.fail .openDoubleQuotes
    | some u =>
      if u = 0x22 then
        let f ← endQuoted f true
        Reading.pass
        return f.text
      else if u = 0x5C then
        let f ← endQuoted f true
        Reading.pass
        match ← Reading.next? with
        | none => Reading.fail .unknownEscape
        | some v =>
          if isBreak v then
            let _ ← skipBreaks
            doubleQuoted fuel f
          else doubleQuoted fuel (f.append (← escaped v))
      else if isBreak u then
        let f ← endQuoted f false
        doubleQuoted fuel (f.addBreaks (← skipBreaks))
      else
        refuseSeparator .cutDoubleQuotes
        Reading.pass
        doubleQuoted fuel (f.push u)

/-! ## Plain words -/

/-- Units that end a plain word between brackets. -/
def isFlowMark (u : CodeUnit) : Bool :=
  u = 0x2C || u = 0x5B || u = 0x5D || u = 0x7B || u = 0x7D

/-- Units that cannot begin a plain word: marks of other constructs, and what is reserved. -/
def isReserved (u : CodeUnit) : Bool :=
  isGap u || isFlowMark u || (("#&*!|>'\"%@" : Text).contains u) || u = 0x60

/-- A gap, or a mark where a plain word stands between brackets. -/
def endsWord (inFlow : Bool) (u : CodeUnit) : Bool := isGap u || (inFlow && isFlowMark u)

/-- Whether a plain word begins: a dash or a question mark must have more of the word behind it. -/
def beginsWord (inFlow : Bool) : Text → Bool
  | [] => false
  | u :: rest =>
    !isReserved u && !((u = 0x3F || u = 0x2D) && rest.head?.any (endsWord inFlow))

/-- Units that may stand in plain text. -/
def isPrintable (u : CodeUnit) : Bool :=
  u = 0x09 || u = 0x0A || u = 0x0D || u = 0x85 || (0x20 ≤ u && u ≤ 0x7E)
    || (0xA0 ≤ u && u < 0xFFFE)

def isPrintableText (t : Text) : Bool := t.all isPrintable && t.wellFormed

/-- Ends the current line of a plain word, in which only printable units may stand. -/
def endPlain (f : Folding) : Reading Folding :=
  if isPrintableText f.line.reverse then return f.endLine false else Reading.fail .unprintable

/-- Whether a plain word ends before a unit: at a colon or at a number sign that counts, at a mark
between brackets, and at a line that parts documents. -/
def stopsWord (inFlow afterGap : Bool) (c : Cursor) (u : CodeUnit) : Bool :=
  if u = 0x3A then (c.rest.drop 1).head?.any (endsWord inFlow)
  else if u = 0x23 then afterGap
  else c.atSeparator || (inFlow && isFlowMark u)

/-- The rest of a plain word. It goes on over line breaks while the lines have `margin` spaces in
front; `last` is the place behind its last unit that is no blank, and `breaks` counts the line
breaks since. -/
def plainFrom (inFlow : Bool) (margin : Nat) :
    Nat → (afterGap : Bool) → (breaks : Nat) → (last : Cursor) → Folding → Reading Text
  | 0, _, _, _, f => return f.text
  | fuel + 1, afterGap, breaks, last, f => do
    let c ← get
    match c.rest.head? with
    | none => return (← endPlain f).text
    | some u =>
      if stopsWord inFlow afterGap c u then return (← endPlain f).text
      else if isBreak u then
        let more ← skipBreaks
        if margin ≤ (← get).indentation then plainFrom inFlow margin fuel true more last f
        else
          set last
          return (← endPlain f).text
      else
        let f ← if breaks = 0 then pure f else do pure ((← endPlain f).addBreaks breaks)
        Reading.pass
        let last ← if isSpace u then pure last else get
        plainFrom inFlow margin fuel (isSpace u) 0 last (f.push u)

/-- A plain word that begins at the current place. -/
def plainWord (inFlow : Bool) (margin fuel : Nat) : Reading Text := do
  plainFrom inFlow margin fuel false 0 (← get) {}

/-! ## Blocks of lines -/

/-- What happens to the line breaks at the end of a block of lines. -/
inductive Chomping where
  | clip
  | keep
  | strip
deriving DecidableEq, Repr

/-- The header of a block of lines behind its first mark: what happens to the last breaks, and how
far the lines are indented where that is said. -/
def blockHeader (margin : Nat) :
    Nat → Chomping → Option Nat → Reading (Chomping × Option Nat)
  | 0, chomping, indentation => return (chomping, indentation)
  | fuel + 1, chomping, indentation => do
    match ← Reading.next? with
    | none => return (chomping, indentation)
    | some u =>
      if u = 0x2B ∨ u = 0x2D then
        if chomping ≠ .clip then Reading.fail .repeatedChomping
        else
          Reading.pass
          blockHeader margin fuel (if u = 0x2B then .keep else .strip) indentation
      else if u = 0x30 then Reading.fail .zeroWidth
      else if u.isDigit then
        if indentation.isSome then Reading.fail .repeatedWidth
        else
          Reading.pass
          blockHeader margin fuel chomping (some (margin + (u.toNat - 0x30) - 1))
      else return (chomping, indentation)

/-- Goes over a line break. -/
def passBreak : Reading Unit := fun c =>
  match c.rest with
  | 0x0D :: 0x0A :: rest => .ok ((), c.startLine rest)
  | 0x0D :: rest => .ok ((), c.startLine rest)
  | 0x0A :: rest => .ok ((), c.startLine rest)
  | _ => Reading.fail .missingBreak c

/-- Goes over the spaces in front of a line, at most `limit` of them where there is a limit. -/
def passIndentation (limit : Option Nat) : Reading Unit := fun c =>
  let spaces := (c.rest.takeWhile fun u => u = 0x20).length
  let count := match limit with
    | some most => min most spaces
    | none => spaces
  .ok ((), { c with rest := c.rest.drop count, column := c.column + count, indentation := count })

/-- The line breaks in front of a line of a folded block: those around lines that begin with a
blank stay as they are. -/
def foldedBreaks (begun afterBlank startsBlank : Bool) (empty : Nat) : Text :=
  let kept (count : Nat) : Text := List.replicate count Text.lineFeed
  if startsBlank then kept (if begun then empty + 1 else empty)
  else if afterBlank then kept (empty + 1)
  else if empty = 0 then (if begun then [0x20] else [])
  else kept empty

/-- The lines of a block, from the end of the line before on. `known` is the indentation of the
lines once it is known and `least` what they need at least, `empty` counts the empty lines since
the last one with text, and `done` is the text so far, latest unit first. -/
def blockLines (folded : Bool) (chomping : Chomping) :
    Nat → (known : Option Nat) → (least : Nat) → (begun afterBlank : Bool) → (empty : Nat) →
      (done : Text) → Reading Text
  | 0, _, _, _, _, _, done => return done.reverse
  | fuel + 1, known, least, begun, afterBlank, empty, done => do
    match ← Reading.next? with
    | none => return done.reverse
    | some _ =>
      passBreak
      passIndentation known
      let c ← get
      let least := match known with
        | some n => n
        | none => max least c.indentation
      let startsBlank := c.rest.head?.any isSpace
      if c.rest.head?.any isBreak then
        blockLines folded chomping fuel known least begun afterBlank (empty + 1) done
      else if c.indentation < least then
        let count :=
          match chomping with
          | .keep => if begun then empty + 1 else empty
          | .clip => if begun then 1 else 0
          | .strip => 0
        return (List.replicate count Text.lineFeed ++ done).reverse
      else
        let breaks :=
          if folded then foldedBreaks begun afterBlank startsBlank empty
          else List.replicate (if begun then empty + 1 else empty) Text.lineFeed
        let line := c.rest.takeWhile fun u => !isBreak u
        set { c with rest := c.rest.drop line.length, column := c.column + line.length }
        if isPrintableText line then
          blockLines folded chomping fuel (some least) least true (folded && startsBlank) 0
            (line.reverse ++ breaks ++ done)
        else Reading.fail .unprintable

/-- The text of a block of lines behind its mark. -/
def blockText (folded : Bool) (margin fuel : Nat) : Reading Text := do
  let (chomping, known) ← blockHeader margin fuel .clip none
  if (← Reading.next?).any isSpace then
    Reading.skipBlanks
    if (← Reading.next?) = some 0x23 then
      let c ← get
      let comment := c.rest.takeWhile fun u => !isBreak u
      set { c with rest := c.rest.drop comment.length, column := c.column + comment.length }
  blockLines folded chomping fuel known margin false false 0 []

end Document

end FileProfile
