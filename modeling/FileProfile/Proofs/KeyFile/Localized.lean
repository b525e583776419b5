import FileProfile.Launch.Entry
import FileProfile.Proofs.KeyFile.Mapping

/-!
Values in several languages.

A group can have a value of a key for each locale beside the plain one. `shownKey` is the key that
is read for some locales (`getLocalized?_eq`). Setting it gives the readers for these locales the
new value, and leaves those alone whom no locale leads to it (`getLocalized?_set_shownKey`).
-/

namespace FileProfile

namespace KeyFile

variable {f g : KeyFile} {group key : Text}

/-- The key that holds what is shown for some locales: that of the first of them for which the group
has one, else the plain one. -/
def shownKey (f : KeyFile) (group key : Text) (locales : List Text) : Text :=
  ((locales.map (localized key)).find? (f.hasKey group)).getD key

/-! ## Which key is shown -/

theorem shownKey_cons_of_hasKey {locale : Text} (has : f.hasKey group (localized key locale))
    (locales : List Text) : f.shownKey group key (locale :: locales) = localized key locale := by
  rw [shownKey, List.map_cons, List.find?_cons, has]
  rfl

theorem shownKey_cons_of_not_hasKey {locale : Text}
    (misses : f.hasKey group (localized key locale) = false) (locales : List Text) :
    f.shownKey group key (locale :: locales) = f.shownKey group key locales := by
  rw [shownKey, List.map_cons, List.find?_cons, misses]
  rfl

/-- The value for some locales is that of the key that is shown for them. -/
theorem getLocalized?_eq (f : KeyFile) (group key : Text) (locales : List Text) :
    f.getLocalized? group key locales = f.get? group (f.shownKey group key locales) := by
  unfold getLocalized?
  induction locales with
  | nil => rfl
  | cons locale locales ih =>
    have has := hasKey_eq f group (localized key locale)
    rw [List.findSome?_cons]
    cases told : f.get? group (localized key locale) with
    | none =>
      rw [told] at has
      rw [shownKey_cons_of_not_hasKey has]
      exact ih
    | some value =>
      rw [told] at has
      rw [shownKey_cons_of_hasKey has, told]

/-- The plain key is shown, or one that the group has for a locale that is asked for. -/
theorem shownKey_cases (f : KeyFile) (group key : Text) (locales : List Text) :
    f.shownKey group key locales = key ∨ ∃ locale ∈ locales,
      f.shownKey group key locales = localized key locale ∧
        f.hasKey group (localized key locale) = true := by
  unfold shownKey
  cases found : (locales.map (localized key)).find? (f.hasKey group) with
  | none => exact .inl rfl
  | some own =>
    obtain ⟨locale, within, rfl⟩ := List.mem_map.mp (List.mem_of_find?_eq_some found)
    exact .inr ⟨locale, within, rfl, List.find?_some found⟩

/-- Where a group gains one key, that key is shown or the one that has been shown before. -/
theorem shownKey_gained {gained : Text}
    (same : ∀ k, g.hasKey group k = (decide (k = gained) || f.hasKey group k))
    (locales : List Text) : g.shownKey group key locales = gained ∨
      g.shownKey group key locales = f.shownKey group key locales := by
  induction locales with
  | nil => exact .inr rfl
  | cons locale locales ih =>
    cases has : g.hasKey group (localized key locale) with
    | true =>
      rw [shownKey_cons_of_hasKey has]
      rw [same, Bool.or_eq_true, decide_eq_true_eq] at has
      rcases has with own | before
      · exact .inl own
      · exact .inr (shownKey_cons_of_hasKey before _).symm
    | false =>
      rw [shownKey_cons_of_not_hasKey has]
      rw [same, Bool.or_eq_false_iff] at has
      rwa [shownKey_cons_of_not_hasKey has.2]

/-! ## Setting the key that is shown -/

theorem hasKey_set (f : KeyFile) (group key value k : Text) :
    (f.set group key value).hasKey group k = (decide (k = key) || f.hasKey group k) := by
  rw [hasKey_eq, get?_set, hasKey_eq]
  by_cases own : k = key <;> simp [own]

/-- The key of the displayed name of a desktop entry is the one that is shown for the locales.
Setting what is shown for some locales makes it the value for them, changes no other value, and
changes what is read for other locales only where the plain key or the key of one of them is set. -/
theorem getLocalized?_set_shownKey (f : KeyFile) (group key : Text) (locales : List Text)
    (value : Text) :
    DesktopEntry.shownNameKey f locales =
        f.shownKey DesktopEntry.group DesktopEntry.nameKey locales ∧
      (f.set group (f.shownKey group key locales) value).getLocalized? group key locales =
        some value ∧
      (∀ h k, (f.set group (f.shownKey group key locales) value).get? h k =
        if h = group ∧ k = f.shownKey group key locales then some value else f.get? h k) ∧
      ∀ others, f.shownKey group key locales ≠ key →
        (∀ locale ∈ others, localized key locale ≠ f.shownKey group key locales) →
        (f.set group (f.shownKey group key locales) value).getLocalized? group key others =
          f.getLocalized? group key others := by
  generalize shown : f.shownKey group key locales = own
  have told := get?_set f group own value
  have gained : ∀ locales, (f.set group own value).shownKey group key locales = own ∨
      (f.set group own value).shownKey group key locales = f.shownKey group key locales :=
    shownKey_gained (hasKey_set f group own value)
  refine ⟨rfl, ?_, told, fun others plain apart => ?_⟩
  · have same : (f.set group own value).shownKey group key locales = own :=
      (gained locales).elim id fun before => before.trans shown
    rw [getLocalized?_eq, same, told, if_pos ⟨rfl, rfl⟩]
  · have other : (f.set group own value).shownKey group key others ≠ own := by
      intro same
      rcases shownKey_cases (f.set group own value) group key others with
        bare | ⟨locale, within, keyed, -⟩
      · exact plain (same.symm.trans bare)
      · exact apart locale within (keyed.symm.trans same)
    have kept := (gained others).resolve_left other
    rw [getLocalized?_eq, getLocalized?_eq, told, if_neg fun both => other both.2, kept]

/-- A name in two languages, one of them with an empty line before its own. -/
def translatedText : Text := "[a]\nName=Old\nName[de]=\nName[fr]=Vieux\nName[de]=Alt\n"

/-- A locale that is asked for again shows no other key, and French readers keep their name. -/
theorem getLocalized?_set_translated : ∃ f, parse translatedText = .ok f ∧
    f.shownKey "a" "Name" ["en", "de", "de"] = "Name[de]" ∧
    (f.set "a" "Name[de]" "Neu").getLocalized? "a" "Name" ["en", "de", "de"] = some "Neu" ∧
    (f.set "a" "Name[de]" "Neu").getLocalized? "a" "Name" ["fr", "it"] = some "Vieux" := by
  have told : ((parse translatedText).toOption.map fun f =>
      (f.shownKey "a" "Name" ["en", "de", "de"], f.getLocalized? "a" "Name" ["fr", "it"])) =
        some (("Name[de]" : Text), some ("Vieux" : Text)) := by
    decide +kernel
  cases parses : parse translatedText with
  | error e =>
    rw [parses] at told
    cases told
  | ok f =>
    rw [parses] at told
    obtain ⟨shown, french⟩ := Prod.mk.inj (Option.some.inj told)
    obtain ⟨-, now, -, kept⟩ :=
      getLocalized?_set_shownKey f "a" "Name" ["en", "de", "de"] "Neu"
    rw [shown] at now kept
    exact ⟨f, rfl, shown, now, (kept ["fr", "it"] (by decide) (by decide)).trans french⟩

end KeyFile

end FileProfile
