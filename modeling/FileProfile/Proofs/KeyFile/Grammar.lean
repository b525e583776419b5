import FileProfile.Proofs.KeyFile.Outline
import FileProfile.Proofs.KeyFile.SetLine

/-!
The grammar of key files.

`Spells` says what one line can be, and `Misfits` why it can be nothing. Both are told from the line
and from whether a header stands in front of it, without any order among the tests, and the reader
agrees with them (`readRow_eq_ok`, `misfits_of_readRow`).

A text is read just in case each of its lines spells something (`Grammatical`); else the first line
that spells nothing is reported (`FirstFault`). The groups of a text that is read are its headers,
and their keys and values are the entries between them (`ReadsAs`). `parse_specified` puts these
together.
-/

namespace FileProfile

namespace KeyFile

open Text (Line WellCut written)

/-- The lines of a text. The empty text is one line, and a terminator at the end of a text makes no
line of its own. -/
inductive Cuts : Text → List Text → Prop where
  | empty : Cuts [] [[]]
  | lines {ls : List Line} : ls ≠ [] → WellCut ls → Cuts (written ls) (ls.map Line.content)

/-- A line that begins the group `name`: a name between brackets, with blanks around it. -/
structure Heads (raw name : Text) : Prop where
  isGroup : IsGroup name
  shape : Text.trim raw = "[" ++ name ++ "]"

def IsHeading (raw : Text) : Prop := ∃ name, Heads raw name

/-- A line that is neither blank nor begins as a comment or a header does. -/
structure Plain (raw : Text) : Prop where
  visible : Text.trim raw ≠ []
  noComment : (Text.trim raw).head? ≠ some hash
  noHeader : (Text.trim raw).head? ≠ some openBracket

/-- A line with an entry: the key in front of the first equals sign and the value behind it. -/
structure Enters (raw key value : Text) : Prop where
  plain : Plain raw
  nonempty : key ≠ []
  split : ∃ front back, raw = front ++ equalsSign :: back ∧ equalsSign ∉ front ∧
    key = Text.trim front ∧ value = Text.trimStart back

/-- What a line can be where `grouped` tells that a header stands in front of it. -/
inductive Spells (grouped : Prop) (raw : Text) : Row → Prop where
  | blank : Text.trim raw = [] → Spells grouped raw (.line (.blank raw))
  | comment : (Text.trim raw).head? = some hash → Spells grouped raw (.line (.comment raw))
  | header {name : Text} : Heads raw name → Spells grouped raw (.header raw name)
  | entry {key value : Text} : grouped → Enters raw key value →
      Spells grouped raw (.line (.entry raw key value))

/-- Why a line can be nothing. -/
inductive Misfits (grouped : Prop) (raw : Text) : Fault → Prop where
  | malformedHeader : (Text.trim raw).head? = some openBracket → ¬ IsHeading raw →
      Misfits grouped raw (.malformedHeader (Text.trim raw))
  | missingEquals : Plain raw → equalsSign ∉ raw →
      Misfits grouped raw (.missingEquals (Text.trim raw))
  | outsideGroup : Plain raw → equalsSign ∈ raw → ¬ grouped → Misfits grouped raw .outsideGroup
  | emptyKey {front back : Text} : Plain raw → grouped → raw = front ++ equalsSign :: back →
      equalsSign ∉ front → Text.trim front = [] → Misfits grouped raw .emptyKey

/-- Each line can be something where it stands. -/
def Grammatical (lines : List Text) : Prop :=
  ∀ front raw back, lines = front ++ raw :: back →
    ∃ r, Spells (∃ l ∈ front, IsHeading l) raw r

/-- The first line that can be nothing where it stands, and why. -/
def FirstFault (lines : List Text) (e : ParseError) : Prop :=
  ∃ front raw back, lines = front ++ raw :: back ∧ e.line = front.length + 1 ∧
    Grammatical front ∧ (∀ r, ¬ Spells (∃ l ∈ front, IsHeading l) raw r) ∧
    Misfits (∃ l ∈ front, IsHeading l) raw e.fault

/-- What lines tell one after another; a line that tells nothing is passed over. -/
inductive Collects {α : Type} (Tells : Text → α → Prop) : List Text → List α → Prop where
  | nil : Collects Tells [] []
  | told {l : Text} {a : α} {ls : List Text} {as : List α} : Tells l a → Collects Tells ls as →
      Collects Tells (l :: ls) (a :: as)
  | passed {l : Text} {ls : List Text} {as : List α} : (∀ a, ¬ Tells l a) →
      Collects Tells ls as → Collects Tells (l :: ls) as

/-- The lines of a group: those between the first header of its name and the next header. -/
inductive Owns (group : Text) (lines : List Text) : List Text → Prop where
  | first {before own rest : List Text} {header : Text} :
      lines = before ++ header :: (own ++ rest) → (∀ l ∈ before, ¬ Heads l group) →
      Heads header group → (∀ l ∈ own, ¬ IsHeading l) → (∀ l ∈ rest.head?, IsHeading l) →
      Owns group lines own
  | none : (∀ l ∈ lines, ¬ Heads l group) → Owns group lines []

/-- `f` holds what `lines` tell of groups, keys and values. -/
structure ReadsAs (lines : List Text) (f : KeyFile) : Prop where
  groups : Collects Heads lines f.groupNames
  /-- A key stands where its first entry stands, and has the value of its last one. -/
  entries : ∀ group, ∃ own pairs, Owns group lines own ∧
    Collects (fun l pair => Enters l pair.1 pair.2) own pairs ∧
    f.keys group = (pairs.map Prod.fst).eraseDups ∧
    ∀ key, f.get? group key =
      (pairs.reverse.find? fun pair => pair.1 = key).map fun pair => unescape pair.2

/-! ## One line -/

theorem Heads.head? {raw name : Text} (heads : Heads raw name) :
    (Text.trim raw).head? = some openBracket := by
  rw [heads.shape]
  rfl

theorem heads_iff {raw name : Text} : Heads raw name ↔ headerName? (Text.trim raw) = some name := by
  rw [headerName?_eq_some]
  exact ⟨fun heads => ⟨heads.isGroup, heads.shape⟩, fun ⟨isGroup, shape⟩ => ⟨isGroup, shape⟩⟩

/-- Reading a line gives what it spells, or why it spells nothing. -/
theorem readRow_cases (b : Bool) (raw : Text) :
    (∃ r, readRow b raw = .ok r ∧ Spells (b = true) raw r) ∨
      ∃ fault, readRow b raw = .error fault ∧ Misfits (b = true) raw fault := by
  -- One case for each branch of the reader, in its order.
  unfold readRow
  cases start : Text.trim raw with
  | nil => exact .inl ⟨_, rfl, .blank start⟩
  | cons u rest =>
    simp only
    by_cases comment : u = hash
    · rw [if_pos comment]
      exact .inl ⟨_, rfl, .comment (by rw [start, comment]; rfl)⟩
    rw [if_neg comment]
    by_cases opens : u = openBracket
    · rw [if_pos opens]
      cases named : headerName? (u :: rest) with
      | some name => exact .inl ⟨_, rfl, .header (heads_iff.mpr (start ▸ named))⟩
      | none =>
        refine .inr ⟨_, rfl, start ▸ .malformedHeader (by rw [start, opens]; rfl) ?_⟩
        rintro ⟨name, heads⟩
        rw [heads_iff, start, named] at heads
        cases heads
    rw [if_neg opens]
    have plain : Plain raw := by
      constructor <;> rw [start]
      · exact List.cons_ne_nil u rest
      · exact fun same => comment (Option.some.inj same)
      · exact fun same => opens (Option.some.inj same)
    by_cases missing : equalsSign ∉ raw
    · rw [if_pos missing]
      exact .inr ⟨_, rfl, start ▸ .missingEquals plain missing⟩
    rw [if_neg missing]
    have present := not_not.mp missing
    cases b with
    | false => exact .inr ⟨_, rfl, .outsideGroup plain present Bool.false_ne_true⟩
    | true =>
      obtain ⟨front, back, rfl, apart⟩ := List.eq_append_cons_of_mem present
      obtain ⟨before, behind⟩ := Text.cut_at_first apart back
      rw [before, behind, if_neg (by decide)]
      by_cases keyless : Text.trim front = []
      · rw [if_pos keyless]
        exact .inr ⟨_, rfl, .emptyKey plain rfl rfl apart keyless⟩
      · rw [if_neg keyless]
        exact .inl ⟨_, rfl, .entry rfl ⟨plain, keyless, front, back, rfl, apart, rfl, rfl⟩⟩

theorem readRow_of_spells {b : Bool} {raw : Text} {r : Row} (spells : Spells (b = true) raw r) :
    readRow b raw = .ok r := by
  unfold readRow
  cases spells with
  | blank none => rw [none]
  | comment starts =>
    obtain ⟨rest, shape⟩ := List.head?_eq_some_iff.mp starts
    rw [shape]
    exact if_pos rfl
  | header heads =>
    obtain ⟨rest, shape⟩ := List.head?_eq_some_iff.mp heads.head?
    have named := heads_iff.mp heads
    rw [shape] at named ⊢
    simp only
    rw [if_neg (by decide), if_pos trivial, named]
  | entry grouped enters =>
    obtain ⟨⟨visible, noComment, noHeader⟩, nonempty, front, back, rfl, apart, rfl, rfl⟩ := enters
    obtain ⟨u, rest, shape⟩ := List.exists_cons_of_ne_nil visible
    rw [shape, List.head?_cons, ne_eq, Option.some.injEq] at noComment noHeader
    obtain ⟨before, behind⟩ := Text.cut_at_first apart back
    rw [shape]
    simp only
    rw [if_neg noComment, if_neg noHeader, if_neg (not_not_intro (by simp)), grouped,
      if_neg (by decide), before, behind, if_neg nonempty]
    rfl

/-- A line is read as what it spells. -/
theorem readRow_eq_ok {b : Bool} {raw : Text} {r : Row} :
    readRow b raw = .ok r ↔ Spells (b = true) raw r := by
  refine ⟨fun reads => ?_, readRow_of_spells⟩
  rcases readRow_cases b raw with ⟨r', reads', spells⟩ | ⟨fault, fails, -⟩
  · rwa [← Except.ok.inj (reads'.symm.trans reads)]
  · rw [reads] at fails
    cases fails

theorem misfits_of_readRow {b : Bool} {raw : Text} {fault : Fault}
    (fails : readRow b raw = .error fault) :
    (∀ r, ¬ Spells (b = true) raw r) ∧ Misfits (b = true) raw fault := by
  constructor
  · intro r spells
    rw [readRow_eq_ok.mpr spells] at fails
    cases fails
  · rcases readRow_cases b raw with ⟨r, reads, -⟩ | ⟨fault', fails', misfits⟩
    · rw [fails] at reads
      cases reads
    · rwa [← Except.error.inj (fails'.symm.trans fails)]

theorem isHeader_iff {raw name : Text} : IsHeader name raw ↔ Heads raw name := by
  rw [IsHeader, readRow_eq_ok]
  refine ⟨fun spells => ?_, .header⟩
  cases spells with
  | header heads => exact heads

theorem readRow_eq_entry {raw key value : Text} :
    readRow true raw = .ok (.line (.entry raw key value)) ↔ Enters raw key value := by
  rw [readRow_eq_ok]
  refine ⟨fun spells => ?_, .entry rfl⟩
  cases spells with
  | entry _ enters => exact enters

/-! ## Lines one after another -/

section

variable {n : Nat} {b : Bool} {lines : List Text} {rs : List Row}

theorem heads_raw_iff (reads : readRows n b lines = .ok rs) {r : Row} (within : r ∈ rs)
    {name : Text} : Heads r.raw name ↔ r = .header r.raw name := by
  obtain ⟨-, _, own⟩ := exists_readRow_of_mem reads within
  rw [← isHeader_iff, IsHeader, readRow_inGroup own, Except.ok.injEq]

/-- A header has been read where a line is one. -/
theorem any_isHeader_iff (reads : readRows n b lines = .ok rs) :
    rs.any Row.isHeader = true ↔ ∃ l ∈ lines, IsHeading l := by
  rw [List.any_eq_true, ← map_raw_of_readRows reads]
  constructor
  · rintro ⟨r, within, header⟩
    cases r with
    | header raw name =>
      exact ⟨raw, List.mem_map_of_mem within, name, (heads_raw_iff reads within).mpr rfl⟩
    | line l => cases header
  · rintro ⟨l, here, name, heads⟩
    obtain ⟨r, within, rfl⟩ := List.mem_map.mp here
    refine ⟨r, within, ?_⟩
    rw [(heads_raw_iff reads within).mp heads]
    rfl

theorem grammatical_of_readRows (reads : readRows n false lines = .ok rs) : Grammatical lines := by
  rintro front raw back rfl
  obtain ⟨first, second, before, behind, -⟩ := readRows_append.mp reads
  obtain ⟨r, -, here, -, -⟩ := readRows_cons.mp behind
  rw [Bool.false_or, readRow_eq_ok, any_isHeader_iff before] at here
  exact ⟨r, here⟩

/-- Where lines are not read, one of them is not read behind those in front of it. -/
theorem readRows_eq_error {e : ParseError} (fails : readRows n b lines = .error e) :
    ∃ front raw back first, lines = front ++ raw :: back ∧ readRows n b front = .ok first ∧
      e.line = n + front.length ∧ readRow (b || first.any Row.isHeader) raw = .error e.fault := by
  induction lines generalizing n b with
  | nil => cases fails
  | cons l rest ih =>
    rw [readRows] at fails
    cases here : readRow b l with
    | error fault =>
      rw [here] at fails
      rw [← Except.error.inj fails]
      refine ⟨[], l, rest, [], rfl, rfl, rfl, ?_⟩
      rwa [List.any_nil, Bool.or_false]
    | ok r =>
      rw [here] at fails
      cases behind : readRows (n + 1) (b || r.isHeader) rest with
      | ok others =>
        simp only [behind] at fails
        cases fails
      | error e' =>
        simp only [behind] at fails
        obtain rfl : e' = e := Except.error.inj fails
        obtain ⟨front, raw, back, first, rfl, before, line, fault⟩ := ih behind
        refine ⟨l :: front, raw, back, r :: first, rfl,
          readRows_cons.mpr ⟨r, first, here, before, rfl⟩, ?_, ?_⟩
        · rw [line, List.length_cons]
          omega
        · rwa [List.any_cons, ← Bool.or_assoc]

theorem firstFault_of_readRows {e : ParseError} (fails : readRows 1 false lines = .error e) :
    FirstFault lines e := by
  obtain ⟨front, raw, back, first, shape, before, line, fault⟩ := readRows_eq_error fails
  have misfits := misfits_of_readRow fault
  rw [Bool.false_or, any_isHeader_iff before] at misfits
  exact ⟨front, raw, back, shape, by rw [line, Nat.add_comm], grammatical_of_readRows before,
    misfits⟩

end

/-! ## What is said -/

theorem collects_filterMap {α β : Type} {Tells : Text → α → Prop} {line : β → Text}
    {tell : β → Option α} {bs : List β}
    (tells : ∀ b ∈ bs, ∀ a, Tells (line b) a ↔ tell b = some a) :
    Collects Tells (bs.map line) (bs.filterMap tell) := by
  induction bs with
  | nil => exact .nil
  | cons b bs ih =>
    have here := tells b List.mem_cons_self
    have behind := ih fun b' within => tells b' (List.mem_cons_of_mem _ within)
    rw [List.map_cons, List.filterMap_cons]
    cases told : tell b with
    | none =>
      refine .passed (fun a told' => ?_) behind
      rw [here, told] at told'
      cases told'
    | some a => exact .told ((here a).mpr told) behind

def Row.name? : Row → Option Text
  | .header _ name => some name
  | .line _ => none

theorem filterMap_name? (f : KeyFile) : f.rows.filterMap Row.name? = f.groupNames := by
  have lines : ∀ ls : List KeyLine, (ls.map Row.line).filterMap Row.name? = [] := fun ls => by
    rw [List.filterMap_map]
    exact List.filterMap_eq_nil_iff.mpr fun _ _ => rfl
  unfold rows groupNames
  rw [List.filterMap_append, lines, List.nil_append]
  induction f.groups with
  | nil => rfl
  | cons g rest ih =>
    rw [List.flatMap_cons, groupRows, List.filterMap_append, List.filterMap_cons, lines, ih]
    rfl

section

variable {t : Text} {f : KeyFile} (parses : parse t = .ok f)

include parses

theorem enters_raw_iff {l : KeyLine} (within : .line l ∈ f.rows) (pair : Text × Text) :
    Enters l.raw pair.1 pair.2 ↔ l.pair? = some pair := by
  have reads : readRow true l.raw = .ok (.line l) := readRow_raw_of_mem parses within
  rw [← readRow_eq_entry, reads, Except.ok.injEq, Row.line.injEq]
  cases l <;> simp [KeyLine.pair?, KeyLine.raw, Prod.ext_iff]

/-- A key file that has been read holds what its lines tell. -/
theorem readsAs_of_parse : ReadsAs (fileLines t) f := by
  have reads := (parse_eq_ok.mp parses).1
  refine ⟨?_, fun group => ?_⟩
  · rw [← filterMap_name?, ← map_raw_of_readRows reads]
    refine collects_filterMap fun r within name => ?_
    rw [heads_raw_iff reads within]
    cases r <;> simp [Row.name?, Row.raw]
  cases grouped : f.hasGroup group with
  | false =>
    have missing : f.group? group = none := by
      rwa [hasGroup, Option.isSome_eq_false_iff, Option.isNone_iff_eq_none] at grouped
    refine ⟨[], [], .none fun l within heads => ?_, .nil, ?_, fun key => ?_⟩
    · exact not_isHeader_of_not_hasGroup parses grouped l within (isHeader_iff.mpr heads)
    · rw [keys, missing]
      rfl
    · rw [get?, missing]
      rfl
  | true =>
    -- The place of any key tells the group.
    obtain ⟨p⟩ := exists_place group grouped
    obtain ⟨whole, first, named, inner, ends⟩ := firstGroup_of_place parses p
    simp only [isHeader_iff] at first named inner ends
    refine ⟨_, p.own.body.filterMap KeyLine.pair?, .first whole first named inner ends,
      collects_filterMap fun l here => enters_raw_iff parses (line_mem_rows p.own_mem here), ?_,
      fun key => ?_⟩
    · rw [keys, p.group?_eq, List.map_filterMap, ← funext KeyLine.key?_eq]
      exact p.own.keys_eq
    · rw [get?, p.group?_eq, Option.bind_some, lastValue?_eq, Option.map_map]
      rfl

end

/-! ## The grammar -/

theorem cuts_iff {t : Text} {lines : List Text} : Cuts t lines ↔ lines = fileLines t := by
  constructor
  · intro cuts
    cases cuts with
    | empty => rfl
    | lines some cut => exact (fileLines_written cut some).symm
  · rintro rfl
    by_cases blank : t = []
    · rw [blank]
      exact .empty
    · have cuts := Cuts.lines (Text.terminatedLines_eq_nil.not.mpr blank)
        (Text.wellCut_terminatedLines t)
      rwa [Text.written_terminatedLines, ← Text.fileLines_eq blank] at cuts

theorem parse_eq_error {t : Text} {e : ParseError} :
    parse t = .error e ↔ readRows 1 false (fileLines t) = .error e := by
  unfold parse
  cases readRows 1 false (fileLines t) <;> simp

/-- The texts that are read are those whose lines are grammatical. Of another text the first line at
fault is reported, and a text that is read gives what its lines tell. -/
theorem parse_specified (t : Text) : (∀ lines, Cuts t lines ↔ lines = fileLines t) ∧
    ((∃ f, parse t = .ok f) ↔ Grammatical (fileLines t)) ∧
    (∀ e, parse t = .error e → FirstFault (fileLines t) e) ∧
    ∀ f, parse t = .ok f → ReadsAs (fileLines t) f := by
  have faults : ∀ e, parse t = .error e → FirstFault (fileLines t) e := fun e fails =>
    firstFault_of_readRows (parse_eq_error.mp fails)
  refine ⟨fun _ => cuts_iff, ⟨?_, fun grammatical => ?_⟩, faults, fun f => readsAs_of_parse⟩
  · rintro ⟨f, parses⟩
    exact grammatical_of_readRows (parse_eq_ok.mp parses).1
  · cases parsed : parse t with
    | ok f => exact ⟨f, rfl⟩
    | error e =>
      obtain ⟨front, raw, back, shape, -, -, nothing, -⟩ := faults e parsed
      obtain ⟨r, spells⟩ := grammatical front raw back shape
      exact absurd spells (nothing r)

/-- A comment, and a key in front of the only header. -/
def misplacedText : Text := "# c\r\nk=1\n[a]\n"

/-- A misplaced key is reported with its line, and a repeated group and key are read. -/
theorem parse_specified_misplaced :
    FirstFault (fileLines misplacedText) ⟨2, .outsideGroup⟩ ∧
      Grammatical (fileLines repeatedText) ∧
      ∃ f, parse repeatedText = .ok f ∧ ReadsAs (fileLines repeatedText) f := by
  have fails : parse misplacedText = .error ⟨2, .outsideGroup⟩ := rfl
  obtain ⟨f, parses⟩ : ∃ f, parse repeatedText = .ok f := ⟨_, rfl⟩
  obtain ⟨-, -, faults, -⟩ := parse_specified misplacedText
  obtain ⟨-, grammatical, -, readsAs⟩ := parse_specified repeatedText
  exact ⟨faults _ fails, grammatical.mp ⟨f, parses⟩, f, parses, readsAs f parses⟩

end KeyFile

end FileProfile
