import FileProfile.Proofs.KeyFile.Escaping
import FileProfile.Proofs.KeyFile.Place
import FileProfile.Proofs.Text.Utf8

/-!
Setting a key in octets.

`EditsOneLine` says that octets differ in the one line of a key and in nothing else. A key file that
is read, changed and written keeps to that unless its octets begin with a byte order mark, which is
not written again, or some of its lines end in carriage returns and line feeds and others in line
feeds alone, which are all written alike (`editsOneLine_iff`).
-/

namespace FileProfile

namespace KeyFile

open Text (Line Paired WellCut carriageReturn lineFeed terminateWith terminatedLines written)

/-- What a line can end in. -/
def terminators : List Text := [[lineFeed], [carriageReturn, lineFeed]]

theorem usualTerminator_mem (t : Text) : Text.usualTerminator t ∈ terminators := by
  unfold Text.usualTerminator
  split <;> decide

/-- Lines in which `line` has been written behind the lines `front`: over the line that stands
there, or as a line of its own where none does. -/
inductive LineEdit (line : Text) (front : List Text) :
    Option Text → List Line → List Line → Prop where
  | replaced {before after : List Line} {old terminator : Text} :
      before.map Line.content = front → LineEdit line front (some old)
        (before ++ ⟨old, terminator⟩ :: after) (before ++ ⟨line, terminator⟩ :: after)
  /-- Behind a line that is terminated. -/
  | added {before after : List Line} {terminator : Text} :
      before.map Line.content = front → (∀ l ∈ before, l.terminator ≠ []) →
      terminator ∈ terminators →
      LineEdit line front none (before ++ after) (before ++ ⟨line, terminator⟩ :: after)
  /-- Behind a last line that is not terminated. -/
  | addedLast {before : List Line} {last terminator : Text} :
      before.map Line.content ++ [last] = front → terminator ∈ terminators →
      LineEdit line front none (before ++ [⟨last, []⟩]) (before ++ [⟨last, terminator⟩, ⟨line, []⟩])

/-- The octets `bytes'` are those of the key file `f` with `line` written at the place of a key, and
no other octet changed. -/
def EditsOneLine (f : KeyFile) (group key line : Text) (bytes bytes' : Octets) : Prop :=
  ∃ (mark : Octets) (text : Text) (p : f.Place group key) (ls : List Line),
    Utf8.decode? bytes = some text ∧ bytes = mark ++ Utf8.encode text ∧
      LineEdit line (p.front.map Row.raw) (p.old.map KeyLine.raw) (terminatedLines text) ls ∧
      bytes' = mark ++ Utf8.encode (written ls)

/-! ## What an edit leaves -/

section

variable {line : Text} {front back : List Text} {old : Option Text} {ls ls' : List Line}

theorem LineEdit.contents (edit : LineEdit line front old ls ls')
    (shape : ls.map Line.content = front ++ old.toList ++ back) :
    ls'.map Line.content = front ++ line :: back := by
  cases edit with
  | replaced place =>
    simp only [List.map_append, List.map_cons, place, Option.toList_some, List.append_assoc,
      List.singleton_append, List.append_cancel_left_eq, List.cons.injEq, true_and] at shape ⊢
    exact shape
  | added place _ _ =>
    simp only [List.map_append, List.map_cons, place, Option.toList_none, List.append_nil,
      List.append_cancel_left_eq, List.cons.injEq, true_and] at shape ⊢
    exact shape
  | addedLast place _ =>
    rw [List.map_append, List.map_cons, List.map_nil, place, Option.toList_none, List.append_nil,
      List.self_eq_append_right] at shape
    rw [shape, List.map_append, ← place]
    simp

theorem LineEdit.terminator_mem (edit : LineEdit line front old ls ls') (cut : WellCut ls) :
    ∀ l ∈ ls', l.terminator = [] ∨ l.terminator ∈ terminators := by
  have own : ∀ k ∈ ls, k.terminator = [] ∨ k.terminator ∈ terminators := by
    intro k inside
    rcases cut.terminator_cases inside with returned | feed | none
    · rw [returned]
      exact .inr (by decide)
    · rw [feed]
      exact .inr (by decide)
    · exact .inl none
  cases edit with
  | replaced =>
    rw [List.forall_mem_append, List.forall_mem_cons] at own ⊢
    exact own
  | added _ _ known =>
    rw [List.forall_mem_append] at own ⊢
    exact ⟨own.1, List.forall_mem_cons.mpr ⟨.inr known, own.2⟩⟩
  | addedLast _ known =>
    rw [List.forall_mem_append] at own ⊢
    refine ⟨own.1, List.forall_mem_cons.mpr ⟨.inr known, ?_⟩⟩
    exact List.forall_mem_singleton.mpr (.inl rfl)

/-- Every line of an edited text but the last ends in a line feed. -/
theorem LineEdit.getLast?_terminator (edit : LineEdit line front old ls ls') (cut : WellCut ls) :
    ∀ k ∈ ls'.dropLast, k.terminator.getLast? = some lineFeed := by
  have feeds : ∀ t ∈ terminators, t.getLast? = some lineFeed := by decide
  intro k inside
  cases edit with
  | @replaced before after old terminator _ =>
    have known := fun k => cut.getLast?_terminator (l := k)
    rw [List.dropLast_append_cons] at known inside
    rcases List.mem_append.mp inside with here | later
    · exact known k (List.mem_append_left _ here)
    cases after with
    | nil => cases later
    | cons next after =>
      rcases List.mem_cons.mp later with same | behind
      · rw [same]
        exact known ⟨old, terminator⟩ (List.mem_append_right _ List.mem_cons_self)
      · exact known k (List.mem_append_right _ (List.mem_cons_of_mem _ behind))
  | @added before after terminator _ before_ended known =>
    rw [List.dropLast_append_cons] at inside
    rcases List.mem_append.mp inside with here | later
    · rcases cut.terminator_cases (List.mem_append_left _ here) with returned | single | none
      · rw [returned]
        rfl
      · rw [single]
        rfl
      · exact absurd none (before_ended k here)
    cases after with
    | nil => cases later
    | cons next after =>
      rcases List.mem_cons.mp later with same | behind
      · rw [same]
        exact feeds terminator known
      · refine cut.getLast?_terminator ?_
        rw [List.dropLast_append_cons]
        exact List.mem_append_right _ behind
  | @addedLast before last terminator _ known =>
    rw [List.dropLast_append_cons] at inside
    rcases List.mem_append.mp inside with here | later
    · refine cut.getLast?_terminator ?_
      rw [List.dropLast_append_cons]
      exact List.mem_append_left _ here
    · rw [List.mem_singleton.mp later]
      exact feeds terminator known

/-- A line feed that stands alone is left alone by an edit, since the edited line keeps the
terminator of the one before it. -/
theorem LineEdit.hasLoneFeed (edit : LineEdit line front old ls ls') (cut : WellCut ls)
    (ends : line.getLast? ≠ some carriageReturn)
    (alone : ls.any (fun l => l.terminator = [lineFeed]) = true) :
    Text.hasLoneFeed false (written ls') = true := by
  obtain ⟨l, within, feed⟩ := List.any_eq_true.mp alone
  have feed := of_decide_eq_true feed
  have apart := (cut.not_mem_content within).2 feed
  have ended := edit.getLast?_terminator cut
  cases edit with
  | replaced =>
    rcases List.mem_append.mp within with here | later
    · exact Text.hasLoneFeed_of_mem ended (List.mem_append_left _ here) feed apart
    rcases List.mem_cons.mp later with same | behind
    · rw [same] at feed
      exact Text.hasLoneFeed_of_mem ended (List.mem_append_right _ List.mem_cons_self) feed ends
    · exact Text.hasLoneFeed_of_mem ended
        (List.mem_append_right _ (List.mem_cons_of_mem _ behind)) feed apart
  | added =>
    refine Text.hasLoneFeed_of_mem ended ?_ feed apart
    rcases List.mem_append.mp within with here | later
    · exact List.mem_append_left _ here
    · exact List.mem_append_right _ (List.mem_cons_of_mem _ later)
  | addedLast =>
    rcases List.mem_append.mp within with here | later
    · exact Text.hasLoneFeed_of_mem ended (List.mem_append_left _ here) feed apart
    · rw [List.mem_singleton.mp later] at feed
      cases feed

/-- Lines that are written alike are edited where a line is put among them. -/
theorem exists_lineEdit {term : Text} (known : term ∈ terminators) (line : Text) (ended : Bool)
    (some : front ≠ []) (old : Option Text) (back : List Text) : ∃ ls',
      LineEdit line front old (terminateWith term ended (front ++ old.toList ++ back)) ls' ∧
        written ls' = written (terminateWith term ended (front ++ line :: back)) := by
  have terminated : ∀ l ∈ front.map (fun content => (⟨content, term⟩ : Line)),
      l.terminator ≠ [] := by
    intro l within
    obtain ⟨content, -, rfl⟩ := List.mem_map.mp within
    rintro rfl
    exact absurd known (by decide)
  have contents : (front.map fun content => (⟨content, term⟩ : Line)).map Line.content = front := by
    rw [List.map_map]
    exact List.map_id front
  refine ⟨_, ?_, rfl⟩
  rw [Text.terminateWith_append front (List.cons_ne_nil line back)]
  cases old with
  | some old =>
    obtain ⟨terminator, shape⟩ := Text.exists_terminateWith_cons term ended back
    rw [Option.toList_some, List.append_assoc, List.singleton_append,
      Text.terminateWith_append front (List.cons_ne_nil old back), shape, shape]
    exact .replaced contents
  | none =>
    rw [Option.toList_none, List.append_nil]
    cases back with
    | cons next back =>
      rw [Text.terminateWith_append front (List.cons_ne_nil next back),
        Text.terminateWith_cons line (List.cons_ne_nil next back)]
      exact .added contents terminated known
    | nil =>
      cases ended with
      | true =>
        have edit : LineEdit line front none
            ((front.map fun content => (⟨content, term⟩ : Line)) ++ []) _ :=
          .added contents terminated known
        rw [List.append_nil] at edit ⊢
        rw [Text.terminateWith_ended]
        exact edit
      | false =>
        obtain ⟨others, last, rfl⟩ : ∃ others last, front = others ++ [last] :=
          ⟨front.dropLast, front.getLast some, (List.dropLast_concat_getLast some).symm⟩
        have place : (others.map fun content => (⟨content, term⟩ : Line)).map Line.content ++
            [last] = others ++ [last] := by
          rw [List.map_map]
          exact congrArg (· ++ [last]) (List.map_id others)
        rw [List.append_nil, Text.terminateWith_append others (List.cons_ne_nil last []),
          List.map_append, List.append_assoc]
        exact .addedLast place known

end

/-! ## Terminators hold neither half pairs nor byte order marks -/

section

variable {ls : List Line} (known : ∀ l ∈ ls, l.terminator = [] ∨ l.terminator ∈ terminators)

include known

theorem plain_of_mem_terminator {l : Line} (within : l ∈ ls) :
    ∀ u ∈ l.terminator, ¬ u.IsSurrogate ∧ u ≠ Utf8.byteOrderMark := by
  have all : ∀ term ∈ terminators,
      term.all fun u => ¬ u.IsSurrogate ∧ u ≠ Utf8.byteOrderMark := by
    decide
  intro u inside
  rcases known l within with none | some
  · rw [none] at inside
    exact absurd inside List.not_mem_nil
  · exact of_decide_eq_true (List.all_eq_true.mp (all l.terminator some) u inside)

theorem paired_of_terminators (contents : ∀ c ∈ ls.map Line.content, Paired c) :
    Paired (written ls) :=
  Text.paired_written (fun _ within => contents _ (List.mem_map_of_mem within))
    fun _ within u inside => (plain_of_mem_terminator known within u inside).1

theorem count_of_terminators : (written ls).count Utf8.byteOrderMark =
    ((ls.map Line.content).map (List.count Utf8.byteOrderMark)).sum :=
  Text.count_written fun _ within inside =>
    (plain_of_mem_terminator known within _ inside).2 rfl

end

theorem terminator_mem_terminateWith {term : Text} (known : term ∈ terminators) (ended : Bool)
    {contents : List Text} {l : Line} (within : l ∈ terminateWith term ended contents) :
    l.terminator = [] ∨ l.terminator ∈ terminators := by
  rcases Text.terminator_of_mem_terminateWith within with same | none
  · rw [same]
    exact .inr known
  · exact .inl none

/-! ## Keys that are read from a text -/

variable {t : Text} {f : KeyFile} {group key : Text}

theorem contents_of_parse (parses : parse t = .ok f) (grouped : f.hasGroup group = true) :
    (terminatedLines t).map Line.content = f.rows.map Row.raw := by
  rw [← rawLines_eq, rawLines_of_parse parses,
    Text.fileLines_eq (ne_nil_of_hasGroup parses grouped)]

/-- The key of an entry is what stands in front of the equals sign, without the blanks around it. -/
theorem key_eq_of_readRow {inGroup : Bool} {raw value : Text}
    (reads : readRow inGroup raw = .ok (.line (.entry raw key value))) :
    equalsSign ∈ raw ∧ key = Text.trim (raw.takeWhile fun v => v ≠ equalsSign) ∧
      value = Text.trimStart ((raw.dropWhile fun v => v ≠ equalsSign).drop 1) := by
  unfold readRow at reads
  simp only at reads
  split at reads
  · cases reads
  split at reads
  · cases reads
  split at reads
  · split at reads <;> cases reads
  split at reads
  · cases reads
  next present =>
    split at reads
    · cases reads
    split at reads
    · cases reads
    · cases reads
      exact ⟨Decidable.not_not.mp present, rfl, rfl⟩

theorem exists_entry_of_hasKey (keyed : f.hasKey group key = true) :
    ∃ raw value, .line (.entry raw key value) ∈ f.rows := by
  obtain ⟨g, found, has⟩ := (Option.any_eq_true _ _).mp keyed
  obtain ⟨l, within, own⟩ := List.any_eq_true.mp has
  obtain ⟨raw, value, rfl⟩ := KeyLine.isFor_iff.mp own
  exact ⟨raw, value, line_mem_rows (List.mem_of_find?_eq_some found) within⟩

/-- What a line gives its key cannot break the line. -/
theorem key_of_hasKey (paired : Paired t) (parses : parse t = .ok f)
    (keyed : f.hasKey group key = true) : Paired key ∧ lineFeed ∉ key := by
  obtain ⟨raw, value, entry⟩ := exists_entry_of_hasKey keyed
  obtain ⟨-, b, reads⟩ := exists_readRow_of_mem (parse_eq_ok.mp parses).1 entry
  obtain ⟨-, trimmed, -⟩ := key_eq_of_readRow reads
  have grouped : f.hasGroup group = true := by
    obtain ⟨g, found, -⟩ := (Option.any_eq_true _ _).mp keyed
    rw [hasGroup, found]
    rfl
  have inside : raw ∈ (terminatedLines t).map Line.content := by
    rw [contents_of_parse parses grouped]
    exact List.mem_map_of_mem entry
  obtain ⟨l, within, same⟩ := List.mem_map.mp inside
  have cut := Text.wellCut_terminatedLines t
  have whole : Paired (written (terminatedLines t)) := by rwa [Text.written_terminatedLines]
  rw [trimmed]
  constructor
  · have content := cut.paired_content whole within
    rw [same] at content
    exact (content.takeWhile_ne (by decide)).trim
  · intro feed
    have early : lineFeed ∈ l.content := by
      rw [same]
      exact (List.takeWhile_sublist _).subset (Text.mem_of_mem_trim feed)
    exact (cut.not_mem_content within).1 early

/-! ## Setting a key -/

section

variable {bytes : Octets} {name : Text}

/-- The line of a set key holds no line feed and ends in no carriage return. -/
theorem raw_ofValue (feedless : lineFeed ∉ key) (value : Text) :
    lineFeed ∉ (KeyLine.ofValue key value).raw ∧
      (KeyLine.ofValue key value).raw.getLast? ≠ some carriageReturn := by
  have feeds : lineFeed ∉ escape value := not_mem_escape (by decide) value
  have returns : carriageReturn ∉ escape value := not_mem_escape (by decide) value
  have whole : (KeyLine.ofValue key value).raw = key ++ equalsSign :: escape value :=
    List.append_assoc _ _ _
  rw [whole]
  constructor
  · intro within
    rcases List.mem_append.mp within with front | behind
    · exact feedless front
    · rcases List.mem_cons.mp behind with here | later
      · exact absurd here (by decide)
      · exact feeds later
  · intro closing
    rw [Text.getLast?_append_of_ne_nil _ (List.cons_ne_nil _ _)] at closing
    rcases List.mem_cons.mp (List.mem_of_getLast? closing) with here | later
    · exact absurd here (by decide)
    · exact returns later

/-- The lines of a text that is read hold whole pairs and no line feed. -/
theorem raw_of_mem_rows (paired : Paired t) (parses : parse t = .ok f)
    (grouped : f.hasGroup group = true) {r : Row} (within : r ∈ f.rows) :
    Paired r.raw ∧ lineFeed ∉ r.raw := by
  have inside : r.raw ∈ (terminatedLines t).map Line.content := by
    rw [contents_of_parse parses grouped]
    exact List.mem_map_of_mem within
  obtain ⟨l, here, same⟩ := List.mem_map.mp inside
  have cut := Text.wellCut_terminatedLines t
  have whole : Paired (written (terminatedLines t)) := by rwa [Text.written_terminatedLines]
  rw [← same]
  exact ⟨cut.paired_content whole here, (cut.not_mem_content here).1⟩

variable (parses : parse t = .ok f) (grouped : f.hasGroup group = true)

include parses

theorem text_set (p : f.Place group key) (value : Text) : (f.set group key value).text =
    written (terminateWith (Text.usualTerminator t) (isTerminated t)
      (p.front.map Row.raw ++ (KeyLine.ofValue key value).raw :: p.back.map Row.raw)) := by
  obtain ⟨-, term, ended⟩ := parse_eq_ok.mp parses
  rw [text_eq, rawLines_eq, p.rows_set, p.set_eq]
  simp only [Place.fileWith, term, ended, List.map_append, List.map_cons, Row.raw]

include grouped

theorem contents_eq (p : f.Place group key) : (terminatedLines t).map Line.content =
    p.front.map Row.raw ++ (p.old.map KeyLine.raw).toList ++ p.back.map Row.raw := by
  rw [contents_of_parse parses grouped, p.rows_eq]
  cases p.old <;> simp [Row.raw]

/-- Where the terminators do not differ, writing the changed file edits the line of the key. -/
theorem exists_lineEdit_set (p : f.Place group key) (value : Text)
    (alike : ¬ (Text.hasCrLf t ∧ Text.hasLoneFeed false t)) : ∃ ls,
    LineEdit (KeyLine.ofValue key value).raw (p.front.map Row.raw) (p.old.map KeyLine.raw)
      (terminatedLines t) ls ∧ written ls = (f.set group key value).text := by
  have some : p.front.map Row.raw ≠ [] := by simp [Place.front]
  obtain ⟨ls, edit, same⟩ := exists_lineEdit (usualTerminator_mem t) (KeyLine.ofValue key value).raw
    (isTerminated t) some (p.old.map KeyLine.raw) (p.back.map Row.raw)
  refine ⟨ls, ?_, ?_⟩
  · rw [Text.terminatedLines_eq_terminateWith alike, contents_eq parses grouped p]
    exact edit
  · rw [same, text_set parses p]

/-- The lines of a changed file hold whole pairs and no line feed. -/
theorem content_set (paired : Paired t) (p : f.Place group key) {value c : Text}
    (line : Paired (KeyLine.ofValue key value).raw ∧ lineFeed ∉ (KeyLine.ofValue key value).raw)
    (within : c ∈ p.front.map Row.raw ++ (KeyLine.ofValue key value).raw :: p.back.map Row.raw) :
    Paired c ∧ lineFeed ∉ c := by
  have own : ∀ r ∈ p.front ++ p.back, Paired r.raw ∧ lineFeed ∉ r.raw := by
    intro r inside
    refine raw_of_mem_rows paired parses grouped ?_
    rw [p.rows_eq]
    rcases List.mem_append.mp inside with front | back
    · simp [front]
    · simp [back]
  rcases List.mem_append.mp within with front | later
  · obtain ⟨r, inside, rfl⟩ := List.mem_map.mp front
    exact own r (List.mem_append_left _ inside)
  rcases List.mem_cons.mp later with here | behind
  · rw [here]
    exact line
  · obtain ⟨r, inside, rfl⟩ := List.mem_map.mp behind
    exact own r (List.mem_append_right _ inside)

/-- What a changed file is written as can be encoded without loss. -/
theorem paired_text_set (paired : Paired t) (p : f.Place group key) {value : Text}
    (line : Paired (KeyLine.ofValue key value).raw ∧ lineFeed ∉ (KeyLine.ofValue key value).raw) :
    Paired (f.set group key value).text := by
  rw [text_set parses p value]
  refine paired_of_terminators
    (fun _ within => terminator_mem_terminateWith (usualTerminator_mem t) _ within)
    fun c within => ?_
  rw [Text.map_content_terminateWith] at within
  exact (content_set parses grouped paired p line within).1

/-- Octets in which a key file stands are written again with one line changed, unless they begin
with a byte order mark or end their lines in different ways. -/
theorem editsOneLine_iff (decoded : Utf8.decode? bytes = some t) {value : Text}
    (line : Paired (KeyLine.ofValue key value).raw) (feedless : lineFeed ∉ key) :
    EditsOneLine f group key (KeyLine.ofValue key value).raw bytes
        (Utf8.encode (f.set group key value).text) ↔
      ¬ Utf8.markOctets <+: bytes ∧ ¬ (Text.hasCrLf t ∧ Text.hasLoneFeed false t) := by
  obtain ⟨paired, octets⟩ := Utf8.decode?_cases decoded
  obtain ⟨lineFeedless, ends⟩ := raw_ofValue feedless value
  constructor
  · rintro ⟨mark, text, p, ls, decoded', before, edit, after⟩
    obtain rfl : text = t := Option.some.inj (decoded'.symm.trans decoded)
    have cut := Text.wellCut_terminatedLines text
    have contents := edit.contents (contents_eq parses grouped p)
    have own := fun c within =>
      content_set (c := c) parses grouped paired p ⟨line, lineFeedless⟩ within
    have shape := text_set parses p value
    have edited := edit.terminator_mem cut
    have kept : ∀ l ∈ terminateWith (Text.usualTerminator text) (isTerminated text)
        (p.front.map Row.raw ++ (KeyLine.ofValue key value).raw :: p.back.map Row.raw),
        l.terminator = [] ∨ l.terminator ∈ terminators := fun _ within =>
      terminator_mem_terminateWith (usualTerminator_mem text) _ within
    have pairedEdited : Paired (written ls) := by
      refine paired_of_terminators edited fun c within => (own c ?_).1
      rwa [← contents]
    have pairedKept := paired_text_set parses grouped paired p ⟨line, lineFeedless⟩
    have unmarked : ¬ Utf8.markOctets <+: bytes := by
      intro marked
      rcases octets with ⟨unmarked, -⟩ | ⟨-, whole⟩
      · exact unmarked marked
      have same : mark = Utf8.markOctets := List.append_cancel_right (before.symm.trans whole)
      rw [same, ← Utf8.encode_mark] at after
      have texts := Utf8.encode_injective pairedKept (.unit (by decide) pairedEdited) after
      -- Both texts hold the same lines, so neither holds a byte order mark more than the other.
      have counts := congrArg (List.count Utf8.byteOrderMark) texts
      rw [List.count_cons_self, count_of_terminators edited, contents, shape,
        count_of_terminators kept, Text.map_content_terminateWith] at counts
      omega
    -- A line feed that stands alone outlives the edit, but not the writing of pairs throughout.
    refine ⟨unmarked, fun ⟨returned, alone⟩ => ?_⟩
    rcases octets with ⟨-, whole⟩ | ⟨marked, -⟩
    · have same : mark = [] := List.append_cancel_right (before.symm.trans whole)
      rw [same] at after
      have texts := Utf8.encode_injective pairedKept pairedEdited after
      rw [Text.hasLoneFeed_false] at alone
      have stays := edit.hasLoneFeed cut ends alone
      rw [← texts, shape, Text.usualTerminator, if_pos returned,
        Text.hasLoneFeed_terminateWith fun c within => (own c within).2] at stays
      cases stays
    · exact unmarked marked
  · rintro ⟨unmarked, alike⟩
    obtain ⟨p⟩ := exists_place key grouped
    obtain ⟨ls, edit, same⟩ := exists_lineEdit_set parses grouped p value alike
    rcases octets with ⟨-, whole⟩ | ⟨marked, -⟩
    · exact ⟨[], t, p, ls, decoded, whole, edit, by rw [same]; rfl⟩
    · exact absurd marked unmarked

end

end KeyFile

end FileProfile
