import FileProfile.Proofs.KeyFile.Localized
import FileProfile.Proofs.KeyFile.Resetting

/-!
What a desktop entry says, before and after its displayed name is set.

The displayed name is the value of the key that holds it (`getLocalized?_eq`). Setting that key and
reading the entry again gives the new name as far as a reader keeps its first unit; the icon and
whether the entry can be launched stay as they were unless a value is stripped
(`icon_eq_iff`, `isLaunchable_eq_iff`).
-/

namespace FileProfile

namespace DesktopEntry

open Text (carriageReturn)

variable {f g : KeyFile} {locales : List Text}

/-! ## The key of the displayed name -/

/-- The key of the displayed name is the plain one or one that the entry has. -/
theorem shownNameKey_cases (f : KeyFile) (locales : List Text) :
    shownNameKey f locales = nameKey ∨ f.hasKey group (shownNameKey f locales) = true := by
  refine (KeyFile.shownKey_cases f group nameKey locales).imp_right ?_
  rintro ⟨locale, -, own, has⟩
  rwa [← own] at has

theorem head?_shownNameKey (f : KeyFile) (locales : List Text) :
    (shownNameKey f locales).head? = nameKey.head? := by
  rcases KeyFile.shownKey_cases f group nameKey locales with plain | ⟨locale, -, own, -⟩
  · exact congrArg List.head? plain
  · exact (congrArg List.head? own).trans rfl

/-- No other key of an entry is taken for that of the displayed name. -/
theorem ne_shownNameKey {key : Text} (other : key.head? ≠ nameKey.head?) :
    key ≠ shownNameKey f locales := by
  rintro rfl
  exact other (head?_shownNameKey f locales)

/-- The displayed name is the value of the key that holds it. -/
theorem getLocalized?_eq (f : KeyFile) (locales : List Text) :
    f.getLocalized? group nameKey locales = f.get? group (shownNameKey f locales) :=
  KeyFile.getLocalized?_eq f group nameKey locales

/-- Where an entry gains no key but the one that it shows, it shows the same one. -/
theorem shownNameKey_congr (same : ∀ k, g.hasKey group k =
    (decide (k = shownNameKey f locales) || f.hasKey group k)) :
    shownNameKey g locales = shownNameKey f locales :=
  (KeyFile.shownKey_gained same locales).elim id id

/-- The line of a displayed name can be written. -/
theorem paired_shownName {t : Text} {f : KeyFile} (paired : Text.Paired t)
    (parses : KeyFile.parse t = .ok f) (locales : List Text) {name : Text}
    (accepted : FileName.validate name = .ok ()) :
    Text.Paired (KeyLine.ofValue (shownNameKey f locales) name).raw ∧
      Text.lineFeed ∉ shownNameKey f locales := by
  have key : Text.Paired (shownNameKey f locales) ∧ Text.lineFeed ∉ shownNameKey f locales := by
    rcases shownNameKey_cases f locales with plain | own
    · rw [plain]
      exact ⟨Text.paired_of_all (by decide), by decide⟩
    · exact KeyFile.key_of_hasKey paired parses own
  have equals : Text.Paired ("=" : Text) := Text.paired_of_all (by decide)
  have value := KeyFile.paired_escape (FileName.paired_of_validate accepted)
  exact ⟨(key.1.append equals).append value, key.2⟩

/-- The key of the displayed name can stand in front of an equals sign. -/
theorem isKey_shownNameKey {t : Text} {f : KeyFile} (parses : KeyFile.parse t = .ok f)
    (locales : List Text) : KeyFile.IsKey (shownNameKey f locales) := by
  rcases shownNameKey_cases f locales with plain | own
  · rw [plain]
    exact ⟨by decide, by decide, by decide, by decide, by decide⟩
  · obtain ⟨raw, value, entry⟩ := KeyFile.exists_entry_of_hasKey own
    obtain ⟨-, b, reads⟩ := KeyFile.exists_readRow_of_mem (KeyFile.parse_eq_ok.mp parses).1 entry
    exact KeyFile.isKey_of_readRow reads

/-! ## Entries that say the same -/

theorem launcher_congr (same : f.content = g.content) (locales : List Text) :
    launcher f locales = launcher g locales := by
  have told := KeyFile.get?_congr same
  unfold launcher hints command? KeyFile.getLocalized?
  simp only [told]

/-- A reader that replaces malformed octets reads an entry as one does that refuses them, but for a
byte order mark, which says nothing. -/
theorem read_eq_ok {fs : FileSystem} {path : Text} {bytes : Octets} {t : Text}
    (reads : fs.readFile path = .ok bytes) (decoded : Utf8.decode? bytes = some t)
    (parses : KeyFile.parse t = .ok f) (grouped : f.hasGroup group = true) :
    ∃ entry, read fs path = .ok entry ∧ entry.content = f.content := by
  obtain ⟨paired, octets⟩ := Utf8.decode?_cases decoded
  have text : fs.readText path = .ok (Utf8.decodeLossy bytes) := by
    rw [FileSystem.readText, reads]
    rfl
  rcases octets with ⟨-, rfl⟩ | ⟨-, rfl⟩
  · refine ⟨f, ?_, rfl⟩
    rw [read, text, Utf8.decodeLossy_encode paired]
    simp only [parses]
    rfl
  · obtain ⟨entry, parses', same⟩ := KeyFile.parse_mark parses
      (KeyFile.ne_nil_of_hasGroup parses grouped)
    have marked : Text.Paired (Utf8.byteOrderMark :: t) := .unit (by decide) paired
    refine ⟨entry, ?_, same⟩
    rw [read, text, ← Utf8.encode_mark, Utf8.decodeLossy_encode marked]
    simp only [parses']
    rfl

/-! ## Setting the displayed name -/

section

variable {p : f.Place group (shownNameKey f locales)} {name : Text}
  (resets : KeyFile.Resets p name g)

include resets

/-- Each value is as it was, that of the shown name and of a stripped entry apart. -/
theorem get?_cases {k : Text} (other : k.head? ≠ nameKey.head?) :
    (∃ w, p.Strips k w ∧ f.get? group k = some (KeyFile.unescape w ++ [carriageReturn]) ∧
      g.get? group k = some (KeyFile.unescape w)) ∨
    ((∀ w, ¬ p.Strips k w) ∧ g.get? group k = f.get? group k) := by
  by_cases strips : ∃ w, p.Strips k w
  · obtain ⟨w, strips⟩ := strips
    exact .inl ⟨w, strips, (resets.stripped k w strips).2⟩
  · have kept : ∀ w, ¬ p.Strips k w := fun w stripped => strips ⟨w, stripped⟩
    exact .inr ⟨kept, resets.others k (ne_shownNameKey other) kept⟩

theorem name_resets :
    (hints g locales).name = some (KeyFile.unescape (Text.trimStart (KeyFile.escape name))) := by
  have same : ∀ k, g.hasKey group k =
      (decide (k = shownNameKey f locales) || f.hasKey group k) := by
    intro k
    rw [KeyFile.hasKey_eq, KeyFile.hasKey_eq]
    by_cases own : k = shownNameKey f locales
    · rw [own, resets.own]
      simp
    · by_cases strips : ∃ w, p.Strips k w
      · obtain ⟨w, strips⟩ := strips
        obtain ⟨-, old, new⟩ := resets.stripped k w strips
        rw [old, new]
        simp
      · rw [resets.others k own fun w stripped => strips ⟨w, stripped⟩, decide_eq_false own]
        simp
  show g.getLocalized? group nameKey locales = _
  rw [getLocalized?_eq, shownNameKey_congr same, resets.own]

theorem icon_eq_iff : (hints g locales).icon = (hints f locales).icon ↔
    ∀ w, ¬ p.Strips iconKey w := by
  show g.get? group iconKey = f.get? group iconKey ↔ _
  rcases get?_cases resets (k := iconKey) (by decide) with ⟨w, strips, old, new⟩ | ⟨kept, same⟩
  · rw [old, new]
    refine ⟨fun both => ?_, fun kept => absurd strips (kept w)⟩
    have lengths := congrArg List.length (Option.some.inj both)
    simp at lengths
  · exact ⟨fun _ => kept, fun _ => same⟩

/-- A carriage return at the end of a command does not make it a command. -/
theorem isSome_command?_resets : (command? g).isSome = (command? f).isSome := by
  unfold command?
  rcases get?_cases resets (k := commandKey) (by decide) with ⟨w, strips, old, new⟩ | ⟨kept, same⟩
  · rw [old, new]
    simp only [Option.isSome_filter, Option.any_some, isCommand]
    rw [Text.trim_concat (by decide)]
  · rw [same]

/-- An entry can be launched as before, unless the type of applications has been read with a
carriage return behind it. -/
theorem isLaunchable_eq_iff :
    (launcher g locales).isLaunchable = (launcher f locales).isLaunchable ↔
      ∀ w, p.Strips typeKey w → KeyFile.unescape w = applicationType →
        (command? f).isSome = false := by
  show (decide ((g.get? group typeKey).getD applicationType = applicationType) &&
      (command? g).isSome) = (decide ((f.get? group typeKey).getD applicationType =
        applicationType) && (command? f).isSome) ↔ _
  rw [isSome_command?_resets resets]
  rcases get?_cases resets (k := typeKey) (by decide) with ⟨w, strips, old, new⟩ | ⟨kept, same⟩
  · have other : KeyFile.unescape w ++ [carriageReturn] ≠ applicationType := by
      intro both
      have last := congrArg List.getLast? both
      rw [List.getLast?_concat] at last
      exact absurd last (by decide)
    -- A value that is stripped is that of the key's last row, so it is the same one.
    have same : ∀ w', p.Strips typeKey w' → KeyFile.unescape w' = KeyFile.unescape w := by
      intro w' strips'
      have old' := (resets.stripped typeKey w' strips').2.1
      rw [old] at old'
      exact (List.append_cancel_right (Option.some.inj old')).symm
    rw [old, new, Option.getD_some, Option.getD_some, decide_eq_false other, Bool.false_and]
    constructor
    · intro neither w' strips' typed
      rw [same w' strips'] at typed
      rwa [decide_eq_true typed, Bool.true_and] at neither
    · intro missing
      by_cases typed : KeyFile.unescape w = applicationType
      · rw [missing w strips typed, Bool.and_false]
      · rw [decide_eq_false typed, Bool.false_and]
  · rw [same]
    exact ⟨fun _ w strips => absurd strips (kept w), fun _ => rfl⟩

end

end DesktopEntry

end FileProfile
