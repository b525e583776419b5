import FileProfile.Proofs.Descriptor.Resolution
import FileProfile.Proofs.Path.Normal
import FileProfile.Proofs.Session.Run
import FileProfile.Proofs.Settings.Accepted
import FileProfile.Settings.Basic

/-!
Content types that a configuration gives to suffixes.

A configuration may give a type to any suffix, but of a name only the last dot and what follows it
is looked up, in every session that the settings bring about (`decides_iff`). So a type that is
given takes effect if its suffix has one dot; where it has more, it does so only if the last part of
the suffix tells the same type (`override_iff`). That holds for any table of well-known extensions.
-/

namespace FileProfile

namespace Path

/-! ## The last part of a suffix -/

/-- The last dot of a suffix and what follows it. -/
def lastPart (suffix : Text) : Text := dot :: (suffix.reverse.takeWhile fun u => u ≠ dot).reverse

theorem lastPart_append (front : Text) {after : Text} (apart : dot ∉ after) :
    lastPart (front ++ dot :: after) = dot :: after := by
  rw [lastPart, (Text.cut_at_last front apart).1, List.reverse_reverse]

theorem extension_append {front after : Text} (apart : dot ∉ after) (given : front ≠ [])
    (component : IsComponent (front ++ dot :: after)) :
    extension (front ++ dot :: after) = dot :: after := by
  have behind := List.length_pos_iff.mpr given
  rw [extension, baseName_of_isComponent component]
  simp only [(Text.cut_at_last front apart).1, List.reverse_reverse]
  rw [if_neg]
  rintro (up | whole | none)
  · exact component.notAbove up
  · rw [List.length_append, List.length_cons] at whole
    omega
  · rw [List.length_append, List.length_cons] at none
    omega

/-- A suffix that a configuration may give a type to. -/
theorem exists_of_isSuffix {suffix : Text} (accepted : Config.isSuffix suffix = true) :
    ∃ u rest, suffix = dot :: u :: rest ∧ separator ∉ suffix := by
  cases suffix with
  | nil => cases accepted
  | cons v more =>
    rw [Config.isSuffix, Bool.and_eq_true, Bool.and_eq_true, decide_eq_true_eq] at accepted
    obtain ⟨⟨rfl, some⟩, plain⟩ := accepted
    cases more with
    | nil => cases some
    | cons u rest =>
      refine ⟨u, rest, rfl, ?_⟩
      rw [Bool.not_eq_true', List.contains_eq_mem, decide_eq_false_iff_not] at plain
      intro within
      rcases List.mem_cons.mp within with same | within
      · exact absurd same (by decide)
      · exact plain within

/-- Of a name that ends in a suffix the last part of the suffix is looked up. -/
theorem extension_of_isSuffix {base suffix : Text} (given : base ≠ []) (plain : separator ∉ base)
    (accepted : Config.isSuffix suffix = true) : extension (base ++ suffix) = lastPart suffix := by
  obtain ⟨u, rest, begins, plain'⟩ := exists_of_isSuffix accepted
  have dotted : dot ∈ suffix := by
    rw [begins]
    exact List.mem_cons_self
  obtain ⟨front, after, cut, apart⟩ := Text.exists_last_cut dotted
  have long : 2 < (base ++ suffix).length := by
    have behind := List.length_pos_iff.mpr given
    rw [begins, List.length_append, List.length_cons, List.length_cons]
    omega
  have component : IsComponent (base ++ suffix) := by
    refine ⟨List.append_ne_nil_of_left_ne_nil given _, ?_, ?_, ?_⟩
    · rintro same
      rw [same] at long
      exact absurd long (by decide)
    · rintro same
      rw [same] at long
      exact absurd long (by decide)
    · rw [List.mem_append]
      rintro (within | within)
      · exact plain within
      · exact plain' within
  rw [cut, ← List.append_assoc] at component ⊢
  rw [lastPart_append front apart]
  exact extension_append apart (List.append_ne_nil_of_left_ne_nil given _) component

/-- A suffix with one dot is its own last part. -/
theorem lastPart_eq_self {suffix : Text} (accepted : Config.isSuffix suffix = true)
    (single : suffix.count dot = 1) : lastPart suffix = suffix := by
  obtain ⟨u, rest, rfl, -⟩ := exists_of_isSuffix accepted
  rw [List.count_cons_self, Nat.add_eq_right, List.count_eq_zero] at single
  exact lastPart_append [] single

end Path

/-! ## The type of a suffix -/

namespace ContentType

/-- The type that a suffix tells; an empty type in a table tells nothing. -/
def ofSuffix? (extensions overrides : Table Text) (rules : Rules) (suffix : Text) : Option Text :=
  let given (t : Option Text) := t.filter fun type => type ≠ []
  given (lookupSuffix overrides suffix) <|> given (lookupSuffix rules.suffixes suffix)
    <|> match (Text.lowerCase suffix).tail with
      | [] => none
      | extension => given (extensions.get? extension)

theorem ofName?_eq_ofSuffix? {extensions overrides : Table Text} {rules : Rules}
    {name after : Text} (ends : Path.extension name = Path.dot :: after) :
    ofName? extensions overrides rules name =
      ofSuffix? extensions overrides rules (Path.dot :: after) := by
  rw [ofName?, ends]
  rfl

theorem ofSuffix?_of_listed {extensions overrides : Table Text} {rules : Rules}
    {suffix type : Text} (listed : overrides.get? suffix = some type) (named : type ≠ []) :
    ofSuffix? extensions overrides rules suffix = some type := by
  have found : lookupSuffix overrides suffix = some type := by
    rw [lookupSuffix, listed]
    rfl
  simp only [ofSuffix?, found, Option.filter_some, if_pos (decide_eq_true named)]
  rfl

end ContentType

/-! ## Sessions under settings -/

namespace TypeStore

theorem sameRules_ref {s t : TypeStore} {h : HandleId} (taken : s.ref h = .ok t) :
    s.SameRules t := by
  rw [eq_taking_of_ref taken]
  exact ⟨rfl, rfl, rfl⟩

theorem sameRules_shutdown {s t : TypeStore} (ended : s.shutdown = .ok t) : s.SameRules t := by
  unfold shutdown at ended
  split at ended
  · cases ended
  · cases ended
    exact ⟨rfl, rfl, rfl⟩

/-- Looking types up, giving them up and shutting the store down change nothing about it. -/
theorem kept_sameRules (s : TypeStore) : Kept fun t => t.Sound ∧ s.SameRules t where
  lookup := fun ⟨sound, same⟩ found => by
    obtain ⟨_, -, took⟩ := took_of_lookup sound found
    exact ⟨took.sound, same.trans took.toSameRules⟩
  unref := fun ⟨sound, same⟩ given => by
    have dropped := dropped_of_unref sound given
    exact ⟨dropped.sound, same.trans dropped.toSameRules⟩
  shutdown := fun ⟨sound, same⟩ ended =>
    ⟨sound_shutdown sound ended, same.trans (sameRules_shutdown ended)⟩

end TypeStore

namespace Session

/-- No request changes how types are looked up. -/
theorem sameRules_after {s : Session} (sound : s.types.Sound) (r : Request) :
    s.types.SameRules (s.after r).types := by
  by_cases counts : ∃ h, r = .refType h
  · obtain ⟨h, rfl⟩ := counts
    rw [types_after_refType]
    cases taken : s.types.ref h with
    | error e => exact .refl s.types
    | ok t => exact TypeStore.sameRules_ref taken
  · exact (kept_after (TypeStore.kept_sameRules s.types) ⟨sound, .refl s.types⟩
      fun h same => counts ⟨h, same⟩).2

/-- A lookup of a file answers with the handle that a lookup of `type` behind it gives. -/
def Gives (s : Session) (path name type : Text) : Prop :=
  ∃ h t u, (Action.lookupForFile path name).runOn s = (.ok h, t) ∧
    (Action.lookupType type).runOn t = (.ok h, u)

theorem gives_iff {s : Session} (sound : s.types.Sound) (opened : s.types.isOpen)
    (path name type : Text) : s.Gives path name type ↔
      (s.types.told s.files path name).isText ∧
        s.types.typeOfRegular s.files path name = s.types.rules.canonicalName type := by
  by_cases tells : (s.types.told s.files path name).isText
  · obtain ⟨h, t, log, looks, took⟩ := Action.runOn_lookupForFile sound opened tells
    have opened' : t.isOpen := by
      rw [took.sound.isOpen_iff_isShut, took.isShut]
      exact sound.isOpen_iff_isShut.mp opened
    obtain ⟨k, u, found, took'⟩ := TypeStore.lookup_took took.sound opened' type
    have again : (Action.lookupType type).runOn { s with types := t, log } =
      (.ok k, { s with types := u, log }) := Action.runOn_lookupType found
    rw [took.rules] at took'
    rw [and_iff_right tells]
    constructor
    · rintro ⟨h', t', u', looks', again'⟩
      rw [looks] at looks'
      cases looks'
      rw [again] at again'
      cases again'
      -- A handle keeps its name, so the two names are those of one handle.
      have inside := TypeStore.lt_length_of_counted (took.counted sound)
      rw [← took'.nameOf, took'.nameOf_old h inside, took.nameOf]
    · intro same
      rw [← same] at took'
      obtain rfl := took'.eq_of_internedAs? took.interned
      exact ⟨k, _, _, looks, again⟩
  · refine ⟨fun ⟨h, t, u, looks, _⟩ => ?_, fun given => absurd given.1 tells⟩
    rw [Action.runOn_lookupForFile_unnamed opened tells] at looks
    cases looks

end Session

namespace Settings

/-- The sessions that settings bring about with a table of well-known extensions: their own on any
files, and what requests make of it while the files change. -/
inductive Brings (settings : Settings) (extensions : Table Text) : Session → Prop where
  | start (files : FileSystem) : Brings settings extensions (settings.session extensions files)
  | ask {s : Session} (r : Session.Request) : Brings settings extensions s → s.CanAsk r →
      Brings settings extensions (s.after r)
  | touch {s : Session} (files : FileSystem) : Brings settings extensions s →
      Brings settings extensions { s with files }

variable {settings : Settings} {extensions : Table Text} {s : Session}

theorem Brings.reachable (brings : settings.Brings extensions s) : s.Reachable := by
  induction brings with
  | start files => exact .start files _ _ _
  | ask r _ can ih => exact .ask r ih can
  | touch files _ ih => exact .touch files ih

/-- Types are looked up in the bundled rules and the given extensions, behind the overrides of the
settings. -/
theorem Brings.sameRules (brings : settings.Brings extensions s) :
    (TypeStore.new extensions Rules.bundled settings.mimeOverrides).SameRules s.types := by
  induction brings with
  | start files => exact .refl _
  | ask r brings _ ih => exact ih.trans (Session.sameRules_after brings.reachable.sound r)
  | touch files _ ih => exact ih

theorem told_of_brings (brings : settings.Brings extensions s) {path base suffix : Text}
    (given : base ≠ []) (plain : Path.separator ∉ base)
    (accepted : Config.isSuffix suffix = true) :
    s.types.told s.files path (base ++ suffix) =
      ((ContentType.ofSuffix? extensions settings.mimeOverrides Rules.bundled
        (Path.lastPart suffix)).map .text).getD (s.files.sniffed Rules.bundled path) := by
  have ends := Path.extension_of_isSuffix given plain accepted
  have named : (TypeStore.new extensions Rules.bundled settings.mimeOverrides).typeOfName?
      (base ++ suffix) = ContentType.ofSuffix? extensions settings.mimeOverrides Rules.bundled
        (Path.lastPart suffix) := ContentType.ofName?_eq_ofSuffix? ends
  rw [brings.sameRules.told, TypeStore.told, named]
  cases ContentType.ofSuffix? extensions settings.mimeOverrides Rules.bundled
    (Path.lastPart suffix) <;> rfl

/-! ## Overrides in effect -/

/-- Every name that ends in the suffix behind something else has the type, in every open session and
whatever stands at the path. -/
def Decides (settings : Settings) (extensions : Table Text) (suffix type : Text) : Prop :=
  ∀ s, settings.Brings extensions s → s.types.isOpen →
    ∀ path base, base ≠ [] → Path.separator ∉ base → s.Gives path (base ++ suffix) type

/-- If no rule told a type, a missing file and an empty one would have the same. -/
theorem exists_told {told : Option Text} {type : TypeName}
    (tells : ∀ files : FileSystem, Rules.bundled.internedName
      ((told.map .text).getD (files.sniffed Rules.bundled "/a")) = type) :
    ∃ other, told = some other ∧ Rules.bundled.canonicalName other = type := by
  cases told with
  | some other => exact ⟨other, rfl, tells {}⟩
  | none =>
    let empty : FileSystem := { entries := [("/a", .created [] 0o644)] }
    have ofMissing : FileSystem.sniffed {} Rules.bundled "/a" = ContentType.octetStream := by
      decide +kernel
    have ofEmpty : empty.sniffed Rules.bundled "/a" = ContentType.zeroSize := by
      decide +kernel
    have same := (tells {}).trans (tells empty).symm
    rw [Option.map_none, Option.getD_none, Option.getD_none, ofMissing, ofEmpty] at same
    exact absurd same (by decide)

/-- A suffix decides a type if its last part tells the same one. -/
theorem decides_iff {suffix : Text} (fits : Config.isSuffix suffix = true) (type : Text) :
    settings.Decides extensions suffix type ↔ ∃ other,
      ContentType.ofSuffix? extensions settings.mimeOverrides Rules.bundled
        (Path.lastPart suffix) = some other ∧
      Rules.bundled.canonicalName other = Rules.bundled.canonicalName type := by
  constructor
  · intro decides
    refine exists_told fun files => ?_
    have started : settings.Brings extensions (settings.session extensions files) := .start files
    have gives := decides _ started rfl "/a" "a" (by decide) (by decide)
    rw [Session.gives_iff started.reachable.sound rfl, TypeStore.typeOfRegular,
      told_of_brings started (by decide) (by decide) fits] at gives
    exact gives.2
  · rintro ⟨other, told, same⟩ s brings opened path base nonempty plain
    rw [Session.gives_iff brings.reachable.sound opened, TypeStore.typeOfRegular,
      told_of_brings brings nonempty plain fits, told, brings.sameRules.rules]
    exact ⟨rfl, same⟩

section

variable {document : Document} {config : Config} {table : Table Text} {suffix type : Text}
  (accepted : Config.read document = .ok config) (given : config.mimeOverrides = some table)
  (listed : table.get? suffix = some type)

include accepted given listed

theorem accepted_of_listed : Config.isSuffix suffix = true ∧ Config.isTypeName type = true := by
  obtain ⟨entry, found, rfl⟩ := Option.map_eq_some_iff.mp listed
  have key := List.find?_some found
  rw [decide_eq_true_eq] at key
  subst key
  have among := List.mem_of_find?_eq_some found
  exact ⟨Config.isSuffix_of_read accepted given among,
    Config.isTypeName_of_read accepted given among⟩

/-- The last part of a suffix with one dot tells the type that is given to the suffix. -/
theorem ofSuffix?_of_single (single : suffix.count Path.dot = 1) :
    ContentType.ofSuffix? extensions table Rules.bundled (Path.lastPart suffix) = some type := by
  obtain ⟨fits, named⟩ := accepted_of_listed accepted given listed
  rw [Path.lastPart_eq_self fits single]
  exact ContentType.ofSuffix?_of_listed listed (Config.ne_nil_of_isTypeName named)

/-- A type that an accepted configuration gives to a suffix takes effect, whatever the files hold
and the other rules and the table of extensions say, exactly if the suffix has no dot but its first,
or the part from its last dot on tells the same type. -/
theorem override_iff (extensions : Table Text) (environment : Environment)
    (overrides : Overrides) :
    (resolve config environment overrides).Decides extensions suffix type ↔
      suffix.count Path.dot = 1 ∨ ∃ other,
        ContentType.ofSuffix? extensions table Rules.bundled (Path.lastPart suffix) = some other ∧
        Rules.bundled.canonicalName other = Rules.bundled.canonicalName type := by
  have fits := (accepted_of_listed accepted given listed).1
  have own : (resolve config environment overrides).mimeOverrides = table := by
    rw [resolve, given, Option.getD_some]
  rw [decides_iff fits, own]
  constructor
  · intro tells
    exact .inr tells
  · rintro (single | tells)
    · exact ⟨type, ofSuffix?_of_single accepted given listed single, rfl⟩
    · exact tells

end

/-- A configuration that gives a type to a suffix with two dots. -/
def archives : Document :=
  .record [("mimeOverrides", .record [(".tar.gz", .string "application/x-compressed-tar")])]

/-- The type is not that of a file with the suffix, which counts as one with its last part. -/
theorem not_decides_archives : ∃ config, Config.read archives = .ok config ∧
    ¬ (resolve config {} {}).Decides [("gz", "application/gzip")] ".tar.gz"
      "application/x-compressed-tar" := by
  have accepted : Config.read archives =
    .ok { mimeOverrides := some [(".tar.gz", "application/x-compressed-tar")] } := by rfl
  refine ⟨_, accepted, ?_⟩
  rw [override_iff accepted rfl (by decide) [("gz", "application/gzip")] {} {}]
  rintro (single | ⟨other, told, same⟩)
  · exact absurd single (by decide)
  · have last : ContentType.ofSuffix? [("gz", "application/gzip")]
      [(".tar.gz", "application/x-compressed-tar")] Rules.bundled (Path.lastPart ".tar.gz") =
        some "application/gzip" := by decide +kernel
    rw [last] at told
    cases told
    exact absurd same (by decide +kernel)

end Settings

end FileProfile
