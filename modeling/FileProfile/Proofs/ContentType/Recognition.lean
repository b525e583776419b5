import FileProfile.Proofs.ContentType.Sniffing
import FileProfile.Proofs.KeyFile.Grammar

/-!
Content types of key files.

The octets of a file and the lines of a key file are read by two scanners, and both look for the
first line that is neither blank nor a comment. In a text that is read as a key file that line is
the header of the first group (`find?_of_readRows`), and no such text begins like an object file or
with a signature (`unmarked_of_parse`). So the two agree on what a desktop entry is
(`sniff_of_parse`).
-/

namespace FileProfile

open Text (Paired)

open Utf8 (encode encodePoint dropMark Scalar)

open KeyFile (Row readRow readRows Spells)

namespace ContentType

/-! ## The first line that tells -/

/-- Whether a trimmed line is neither blank nor a comment. -/
def isContent (line : Text) : Bool := line ≠ [] ∧ line.head? ≠ some ('#' : CodeUnit)

/-- A group name as its header shows it. -/
def bracketed (name : Text) : Text := "[" ++ name ++ "]"

theorem bracketed_inj {name other : Text} : bracketed name = bracketed other ↔ name = other := by
  rw [bracketed, bracketed, List.append_left_inj, List.append_right_inj]

theorem firstContentLine?_eq (text : Text) :
    firstContentLine? text = ((Text.lines text).map Text.trim).find? isContent := rfl

/-- The first line that tells something in lines that are read is the first header. -/
theorem find?_of_readRows {n : Nat} {lines : List Text} {rows : List Row}
    (reads : readRows n false lines = .ok rows) :
    (lines.map Text.trim).find? isContent =
      (rows.filterMap Row.name?).head?.map bracketed := by
  induction lines generalizing n rows with
  | nil =>
    cases reads
    rfl
  | cons raw rest ih =>
    obtain ⟨row, behind, here, others, rfl⟩ := KeyFile.readRows_cons.mp reads
    rw [List.map_cons, List.find?_cons, List.filterMap_cons]
    cases KeyFile.readRow_eq_ok.mp here with
    | blank none =>
      have passed : isContent (Text.trim raw) = false := by rw [none]; rfl
      rw [passed]
      exact ih others
    | comment starts =>
      have passed : isContent (Text.trim raw) = false := by
        rw [isContent, starts]
        simp [KeyFile.hash]
      rw [passed]
      exact ih others
    | header heads =>
      have told : isContent (Text.trim raw) = true := by
        rw [heads.shape]
        rfl
      rw [told, heads.shape]
      rfl
    | entry grouped _ => cases grouped

/-- A final terminator makes no line that tells something. -/
theorem firstContentLine?_eq_fileLines (t : Text) :
    firstContentLine? t = ((KeyFile.fileLines t).map Text.trim).find? isContent := by
  by_cases none : t = []
  · rw [none]
    rfl
  · rw [firstContentLine?_eq, Text.lines_eq, Text.fileLines_eq none, List.map_append,
      List.find?_append]
    have silent : ((if KeyFile.isTerminated t ∨ t = [] then [[]] else []).map Text.trim).find?
        isContent = Option.none := by
      split <;> rfl
    rw [silent, Option.or_none]

/-- A byte order mark is a blank in front of the first line. -/
theorem firstContentLine?_dropMark (t : Text) :
    firstContentLine? (dropMark t) = firstContentLine? t := by
  cases t with
  | nil => rfl
  | cons u rest =>
    rw [dropMark]
    split
    case isFalse => rfl
    case isTrue mark =>
      have inside : u ≠ Text.lineFeed := by rw [mark]; decide
      have unreturned : ¬ (u = Text.carriageReturn ∧ rest.head? = some Text.lineFeed) := by
        rw [mark]
        exact fun both => absurd both.1 (by decide)
      have blank : u.isBlank := by rw [mark]; decide
      rw [firstContentLine?_eq, firstContentLine?_eq, Text.lines_unit inside unreturned]
      cases cut : Text.lines rest with
      | nil => exact absurd cut (Text.lines_ne_nil rest)
      | cons line more =>
        rw [Text.push, List.map_cons, List.map_cons, Text.trim_cons blank]

section

variable {t : Text} {f : KeyFile} (parses : KeyFile.parse t = .ok f)

include parses

/-- In a key file the first header is what tells. -/
theorem firstContentLine?_of_parse :
    firstContentLine? t = f.groupNames.head?.map bracketed := by
  rw [firstContentLine?_eq_fileLines, ← KeyFile.filterMap_name?]
  exact find?_of_readRows (KeyFile.parse_eq_ok.mp parses).1

theorem beginsDesktopEntry_iff_of_parse : beginsDesktopEntry (dropMark t) = true ↔
    f.groupNames.head? = some ("Desktop Entry" : Text) ∨
      f.groupNames.head? = some ("KDE Desktop Entry" : Text) := by
  have plain : "[Desktop Entry]" = bracketed "Desktop Entry" := by decide
  have kde : "[KDE Desktop Entry]" = bracketed "KDE Desktop Entry" := by decide
  rw [beginsDesktopEntry, firstContentLine?_dropMark, firstContentLine?_of_parse parses, plain, kde]
  cases f.groupNames.head? with
  | none => simp
  | some name =>
    simp only [Option.map_some, Bool.or_eq_true, decide_eq_true_eq, bracketed_inj,
      Option.some.injEq]

end

/-! ## No signature -/

/-- The first octets of object files and of the bundled signatures. -/
def markOctets : Octets := [0x7F, 0x89, 0xFF, 0x47, 0x25, 0x1F, 0x50]

theorem hasAt_zero_of_ne {m o : UInt8} (other : m ≠ o) (ms more : Octets) :
    hasAt 0 (m :: ms) (o :: more) = false := by
  simp [hasAt, other]

/-- What begins with another octet is neither an object file nor has a signature. -/
theorem unmarked_bundled {o : UInt8} (other : o ∉ markOctets) (more : Octets) :
    Unmarked Rules.bundled (o :: more) := by
  have apart : ∀ m ∈ markOctets, ∀ ms, hasAt 0 (m :: ms) (o :: more) = false := by
    intro m within ms
    refine hasAt_zero_of_ne ?_ ms more
    rintro rfl
    exact other within
  refine ⟨apart 0x7F (by decide) _, fun s listed => ?_⟩
  simp only [Rules.bundled, List.mem_cons, List.not_mem_nil, or_false] at listed
  rcases listed with rfl | rfl | rfl | rfl | rfl | rfl <;> exact apart _ (by decide) _

/-- The first octet of a character is the character itself or one that leads others. -/
theorem exists_encodePoint_cons {p : Nat} (scalar : Scalar p) : ∃ o more,
    encodePoint p = o :: more ∧ (o.toNat = p ∨ 0xC0 ≤ o.toNat ∧ o.toNat < 0xF8) := by
  have leads : ∀ {n : Nat} {more : Octets}, 0xC0 ≤ n → n < 0xF8 → ∃ o more',
      n.toUInt8 :: more = o :: more' ∧ (o.toNat = p ∨ 0xC0 ≤ o.toNat ∧ o.toNat < 0xF8) := by
    intro n more least most
    refine ⟨n.toUInt8, more, rfl, .inr ?_⟩
    rw [Utf8.toUInt8_toNat (by omega)]
    exact ⟨least, most⟩
  rw [Utf8.scalar_iff] at scalar
  unfold encodePoint
  split
  · exact ⟨p.toUInt8, [], rfl, .inl (Utf8.toUInt8_toNat (by omega))⟩
  split
  · exact leads (by omega) (by omega)
  split
  · exact leads (by omega) (by omega)
  · exact leads (by omega) (by omega)

/-- The first octet of a text is its first unit or one that leads others. -/
theorem exists_encode_cons {u : CodeUnit} {t : Text} (paired : Paired (u :: t)) : ∃ o more,
    encode (u :: t) = o :: more ∧ (o.toNat = u.toNat ∨ 0xC0 ≤ o.toNat ∧ o.toNat < 0xF8) := by
  obtain ⟨scalars, -⟩ := Utf8.codePoints_of_paired paired
  rw [Utf8.encode_of_scalars scalars]
  cases paired with
  | unit plain _ =>
    rw [Utf8.codePoints_unit plain] at scalars ⊢
    obtain ⟨o, more, shape, first⟩ := exists_encodePoint_cons (scalars _ List.mem_cons_self)
    exact ⟨o, _, by rw [List.flatMap_cons, shape]; rfl, first⟩
  | @pair _ v _ high low _ =>
    rw [Utf8.codePoints_pair high low] at scalars ⊢
    obtain ⟨o, more, shape, first⟩ := exists_encodePoint_cons (scalars _ List.mem_cons_self)
    have bounds := Utf8.pairPoint_bounds high low
    have octet := o.toNat_lt
    exact ⟨o, _, by rw [List.flatMap_cons, shape]; rfl, .inr (by omega)⟩

section

variable {t : Text} {f : KeyFile} (parses : KeyFile.parse t = .ok f)

include parses

/-- A key file begins with a blank, a comment or a header. -/
theorem opens_of_parse {u : CodeUnit} (first : t.head? = some u) :
    u.isBlank ∨ u = KeyFile.hash ∨ u = KeyFile.openBracket := by
  by_contra other
  obtain ⟨visible, plain⟩ := not_or.mp other
  obtain ⟨noComment, noHeader⟩ := not_or.mp plain
  obtain ⟨rest, rfl⟩ := List.head?_eq_some_iff.mp first
  have inside : u ≠ Text.lineFeed := by
    rintro rfl
    exact visible (by decide)
  have unreturned : ¬ (u = Text.carriageReturn ∧ rest.head? = some Text.lineFeed) := by
    rintro ⟨rfl, -⟩
    exact visible (by decide)
  have told := firstContentLine?_of_parse parses
  rw [firstContentLine?_eq, Text.lines_unit inside unreturned] at told
  obtain ⟨line, more, cut⟩ := List.exists_cons_of_ne_nil (Text.lines_ne_nil rest)
  obtain ⟨behind, shape⟩ := Text.exists_trim_cons visible line
  have content : isContent (u :: behind) = true := by
    rw [isContent, decide_eq_true_eq]
    exact ⟨List.cons_ne_nil u behind, fun same => noComment (Option.some.inj same)⟩
  rw [cut, Text.push, List.map_cons, shape, List.find?_cons, content] at told
  cases named : f.groupNames.head? with
  | none =>
    rw [named] at told
    cases told
  | some name =>
    rw [named] at told
    exact noHeader (List.cons.inj (Option.some.inj told)).1

theorem unmarked_of_parse (paired : Paired t) (given : t ≠ []) :
    Unmarked Rules.bundled (encode t) := by
  obtain ⟨u, rest, rfl⟩ := List.exists_cons_of_ne_nil given
  obtain ⟨o, more, shape, first⟩ := exists_encode_cons paired
  have opens := opens_of_parse parses rfl
  rw [shape]
  refine unmarked_bundled (fun mark => ?_) more
  have other : ∀ o ∈ markOctets, ¬ (CodeUnit.isBlank o.toNat.toUInt16 ∨
      o.toNat.toUInt16 = KeyFile.hash ∨ o.toNat.toUInt16 = KeyFile.openBracket) ∧
        ¬ (0xC0 ≤ o.toNat ∧ o.toNat < 0xF8) := by
    decide +kernel
  obtain ⟨closed, plain⟩ := other o mark
  rcases first with same | leads
  · have own : o.toNat.toUInt16 = u := by
      rw [same]
      simp
    rw [own] at closed
    exact closed opens
  · exact plain leads

end

/-! ## What both scanners say -/

/-- A text that is read as a key file and is no script is a desktop entry exactly if its first group
is that of one. -/
theorem sniff_of_parse {t : Text} {f : KeyFile} (paired : Paired t) (given : t ≠ [])
    (zeroless : 0 ∉ t) (parses : KeyFile.parse t = .ok f)
    (noScript : ¬ ("#!" : Text) <+: dropMark t) :
    sniff Rules.bundled (encode t) =
      if f.groupNames.head? = some ("Desktop Entry" : Text) ∨
          f.groupNames.head? = some ("KDE Desktop Entry" : Text) then .text desktopEntry
      else .text plainText := by
  have zeros := zero_not_mem_encode paired zeroless
  have begins := beginsDesktopEntry_iff_of_parse parses
  rw [← List.isPrefixOf_iff_prefix] at noScript
  rw [sniff_encode paired given zeros (unmarked_of_parse parses paired given), ofText,
    if_neg noScript]
  simp only [begins]

/-- A byte order mark, a comment and blanks stand in front of the header. -/
def commentedEntry : Text := "\uFEFF# generated\r\n\t\r\n [KDE Desktop Entry] \r\nName=Editor"

theorem sniff_commentedEntry : ∃ f, KeyFile.parse commentedEntry = .ok f ∧
    f.groupNames.head? = some ("KDE Desktop Entry" : Text) ∧
    sniff Rules.bundled (encode commentedEntry) = desktopEntry := by
  have parses : KeyFile.parse commentedEntry = .ok ⟨[.comment "\uFEFF# generated", .blank "\t"],
      [⟨" [KDE Desktop Entry] ", "KDE Desktop Entry", [.entry "Name=Editor" "Name" "Editor"]⟩],
      "\r\n", false⟩ := by decide +kernel
  have told := sniff_of_parse (Text.paired_of_all (by decide)) (by decide) (by decide) parses
    (by decide)
  exact ⟨_, parses, rfl, told⟩

end ContentType

end FileProfile
