import FileProfile.ContentType.Bundled
import FileProfile.Proofs.Descriptor.Edited
import FileProfile.Proofs.Descriptor.Moved

/-!
Renaming a desktop entry against resolving it afresh.

What stands at the path afterwards is a new regular file with the old permission bits, and it tells
what has been written into it (`Session.resolves_rewritten`). The descriptor that renaming leaves
tells the same if and only if it stays right (`Session.StaysRight`, `rename_tellAlike_iff`), as it
does in the usual case (`Session.Shows.staysRight`). Where the octets that are written tell no type,
the path no longer resolves.
-/

namespace FileProfile

namespace TypeStore

/-- What is told of the type of a regular file called `name` in which `content` stands. -/
def toldOfContent (store : TypeStore) (name : Text) (content : Octets) : TypeName :=
  match store.typeOfName? name with
  | some type => .text type
  | none => ContentType.sniff store.rules (content.take ContentType.sniffLength)

/-- The canonical type of a regular file called `name` in which `content` stands. -/
def typeOfContent (store : TypeStore) (name : Text) (content : Octets) : TypeName :=
  store.rules.internedName (store.toldOfContent name content)

/-- A canonical type that is a text has been told by one. -/
theorem isText_toldOfContent {store : TypeStore} {name type : Text} {content : Octets}
    (typed : store.typeOfContent name content = .text type) :
    (store.toldOfContent name content).isText := by
  unfold typeOfContent at typed
  cases told : store.toldOfContent name content with
  | text _ => rfl
  | inherited key =>
    rw [told] at typed
    cases typed

end TypeStore

/-! ## What a rewritten file tells -/

namespace FileSystem

theorem mode_attributes_replacement (content : Octets) (mode : Int) :
    (replacement content mode).attributes.mode = 0o100000 + permissionBits mode := by
  obtain ⟨b, shape⟩ := Int.eq_ofNat_of_zero_le (permissionBits_nonneg mode)
  have below := permissionBits_lt mode
  have small : 0o100000 + b < 2 ^ 53 := by omega
  have sum : (0o100000 + b : Int) = ((0o100000 + b : Nat) : Int) := by omega
  unfold Node.attributes
  dsimp only
  rw [mode_replacement, shape, sum, Binary64.ofInt_natCast small]

namespace Rewritten

variable {fs fs' : FileSystem} {p : Text} {before : Node} {content : Octets}
  (rewritten : fs.Rewritten p before content fs') (calm : fs.IsFaultFree)

include rewritten calm

theorem behind?_before : fs.behind? p = some before := by
  rw [← toOption_stat calm, rewritten.behind]
  rfl

theorem resolveAttributes_after :
    fs'.resolveAttributes p = .ok ⟨(replacement content before.mode).attributes, .none⟩ := by
  have other : FileKind.regular ≠ .symlink := by decide
  unfold resolveAttributes
  rw [lstat_of_find? (rewritten.calm_after calm) rewritten.stands]
  simp only
  rw [kind_replacement, if_neg other]

/-- What may be executed stays so: replacing the contents keeps the permission bits. -/
theorem isExecutePermitted_after (mode : Int) :
    fs'.isExecutePermitted p mode = fs.isExecutePermitted p mode := by
  have execute : Word32.land (replacement content before.mode).mode 0o111 =
      Word32.land before.mode 0o111 := by
    rw [mode_replacement]
    exact land_permissionBits_add (b := 0o111) (by decide) before.mode
  rw [isExecutePermitted, isExecutePermitted, toBool_access (rewritten.calm_after calm),
    toBool_access calm, rewritten.behind?_after, rewritten.behind?_before calm, Option.any_some,
    Option.any_some, execute]

theorem sniffed_after (rules : Rules) :
    fs'.sniffed rules p = ContentType.sniff rules (content.take ContentType.sniffLength) := by
  rw [sniffed, toOption_readStart (rewritten.calm_after calm), rewritten.behind?_after,
    Option.bind_some, contentOf_replacement]
  rfl

theorem told_after (store : TypeStore) (name : Text) :
    store.told fs' p name = store.toldOfContent name content := by
  rw [TypeStore.told, rewritten.sniffed_after calm]
  rfl

theorem launcherAt_after {text : Text} (written : content = Utf8.encode text)
    (paired : Text.Paired text) {g : KeyFile} (parses : KeyFile.parse text = .ok g)
    (type : TypeName) (locales : List Text) : fs'.launcherAt p type locales =
      if type = ContentType.desktopEntry then some (DesktopEntry.launcher g locales) else none := by
  have reads : (DesktopEntry.read fs' p).toOption = some g := by
    rw [toOption_read, rewritten.readFile_after calm, written]
    show (KeyFile.parse (Utf8.decodeLossy (Utf8.encode text))).toOption = some g
    rw [Utf8.decodeLossy_encode paired, parses]
    rfl
  rw [launcherAt, reads]
  rfl

end Rewritten

end FileSystem

/-! ## What the descriptors tell -/

/-- Flags are the same where they tell the same of links and the same of launching. -/
theorem computeFlags_eq_iff {link link' : LinkState} {executable executable' permitted : Bool}
    {permitted' : Bool} {launchable launchable' : Option Bool} :
    computeFlags link executable permitted launchable =
        computeFlags link' executable' permitted' launchable' ↔
      (link = .none ↔ link' = .none) ∧
        (executable || (permitted && decide (launchable = some true))) =
          (executable' || (permitted' && decide (launchable' = some true))) := by
  unfold computeFlags
  generalize (executable || (permitted && decide (launchable = some true))) = marked
  generalize (executable' || (permitted' && decide (launchable' = some true))) = marked'
  by_cases linked : link = .none <;> by_cases linked' : link' = .none <;> cases marked <;>
    cases marked' <;> simp [linked, linked', Flag.bit]

/-- The octets at a path are well-formed text in which a desktop entry stands. -/
structure FileSystem.EntryAt (fs : FileSystem) (p : Text) (bytes : Octets) (text : Text)
    (entry : KeyFile) : Prop where
  reads : fs.readFile p = .ok bytes
  decoded : Utf8.decode? bytes = some text
  parses : KeyFile.parse text = .ok entry
  grouped : entry.hasGroup DesktopEntry.group = true

/-- What a desktop entry says about launching is told to those that look at its path. -/
theorem FileSystem.EntryAt.launcherAt {fs : FileSystem} {p : Text} {bytes : Octets} {text : Text}
    {entry : KeyFile} (stands : fs.EntryAt p bytes text entry) (locales : List Text) :
    fs.launcherAt p ContentType.desktopEntry locales =
      some (DesktopEntry.launcher entry locales) := by
  obtain ⟨found, read, same⟩ := DesktopEntry.read_eq_ok stands.reads stands.decoded stands.parses
    stands.grouped
  rw [FileSystem.launcherAt, if_pos rfl, read, ← DesktopEntry.launcher_congr same]
  rfl

/-- What a desktop entry is written as when its displayed name is set. -/
def DesktopEntry.retitled (entry : KeyFile) (locales : List Text) (name : Text) : Text :=
  (entry.set group (shownNameKey entry locales) name).text

theorem kindOf_replacement (content : Octets) (mode : Int) :
    Action.kindOf ⟨(FileSystem.replacement content mode).attributes, .none⟩ = .regular := by
  have other : LinkState.none ≠ .dangling := by decide
  unfold Action.kindOf
  dsimp only
  rw [if_neg other, FileSystem.mode_attributes_replacement]
  exact ofMode_regular mode

namespace Session

/-- Two descriptors tell the same of a file, apart from its owner, its size, its times and its
numbers. -/
structure TellAlike (s : Session) (a b : Descriptor) : Prop where
  identity : b.identity = a.identity
  kind : b.kind = a.kind
  mode : b.mode = a.mode
  flags : b.flags = a.flags
  typeName : s.types.nameOf b.contentType = s.types.nameOf a.contentType
  hints : b.hints = a.hints

/-- Resolving the path of a file whose contents have been replaced. -/
theorem resolves_rewritten {s : Session} (sound : s.types.Sound) (opened : s.types.isOpen)
    {x : Descriptor} (normal : Path.IsNormal x.path) {fs : FileSystem} (calm : fs.IsFaultFree)
    {before : Node} {content : Octets} (rewritten : fs.Rewritten x.path before content s.files)
    (context : Context)
    (told : (s.types.toldOfContent x.identity.displayName content).isText) : ∃ t z,
      (Action.resolve x.path context).runOn s = (.ok s.descriptors.length, t) ∧
      t.Shows s.descriptors.length z context.locales
        ⟨(FileSystem.replacement content before.mode).attributes, .none⟩ ∧
      z.identity = x.identity ∧ t.files = s.files ∧ TypeStore.Took s.types
        (s.types.typeOfContent x.identity.displayName content) z.contentType t.types := by
  have place : Identity.forPath s.files.workingDirectory x.path = x.identity := by
    rw [Identity.forPath, Path.resolve_of_isNormal normal]
    rfl
  have looked : s.files.resolveAttributes (Identity.forPath s.files.workingDirectory x.path).path =
      .ok ⟨(FileSystem.replacement content before.mode).attributes, .none⟩ := by
    rw [place]
    exact rewritten.resolveAttributes_after calm
  have tells : s.types.Tells s.files (Identity.forPath s.files.workingDirectory x.path).path
      (Identity.forPath s.files.workingDirectory x.path).displayName
      (Action.kindOf ⟨(FileSystem.replacement content before.mode).attributes, .none⟩) := by
    rw [place]
    intro _
    exact (congrArg TypeName.isText (rewritten.told_after calm s.types _)).trans told
  obtain ⟨h, types, log, run, took⟩ := Action.runOn_resolve sound opened context looked tells
  obtain ⟨z, resolved, identity, files, -, shows⟩ := Shows.of_resolve sound run
  rw [place] at identity
  have same : resolved = ⟨(FileSystem.replacement content before.mode).attributes, .none⟩ := by
    have again := shows.looked
    rw [files, Descriptor.path, identity, ← place, looked] at again
    exact (Except.ok.inj again).symm
  -- The descriptor that has been found is the one that resolving added.
  have handle : z.contentType = h := by
    have found := shows.found
    rw [List.getElem?_append_right (Nat.le_refl _), Nat.sub_self] at found
    rw [← Option.some.inj found]
    rfl
  rw [same] at shows
  have tellsSame : s.types.told s.files x.identity.path x.identity.displayName =
      s.types.toldOfContent x.identity.displayName content := rewritten.told_after calm _ _
  rw [place, kindOf_replacement, TypeStore.typeOf_regular, TypeStore.typeOfRegular,
    tellsSame] at took
  refine ⟨_, z, run, shows, identity, files, ?_⟩
  rw [handle]
  exact took

/-- Resolving that path fails where the new contents tell no type. -/
theorem resolves_rewritten_unnamed {s : Session} (opened : s.types.isOpen) {x : Descriptor}
    (normal : Path.IsNormal x.path) {fs : FileSystem} (calm : fs.IsFaultFree) {before : Node}
    {content : Octets} (rewritten : fs.Rewritten x.path before content s.files) (context : Context)
    (silent : ¬ (s.types.toldOfContent x.identity.displayName content).isText) :
    (Action.resolve x.path context).runOn s = (.error Rules.unnamed, s) := by
  have place : Identity.forPath s.files.workingDirectory x.path = x.identity := by
    rw [Identity.forPath, Path.resolve_of_isNormal normal]
    rfl
  have looked : s.files.resolveAttributes (Identity.forPath s.files.workingDirectory x.path).path =
      .ok ⟨(FileSystem.replacement content before.mode).attributes, .none⟩ := by
    rw [place]
    exact rewritten.resolveAttributes_after calm
  refine Action.runOn_resolve_unnamed opened context looked fun tells => ?_
  rw [place] at tells
  refine silent ((congrArg TypeName.isText (rewritten.told_after calm s.types _)).symm.trans ?_)
  exact tells (kindOf_replacement _ _)

/-- The descriptor `x` of a desktop entry stays right when its displayed name is set to `name`:
`before` is the node that stands behind its path, and `p` the place of the name in the entry.

The path is that of the regular file itself, with the permission bits that are shown; the octets
that are written still tell the type; the name survives being read; and no icon loses a carriage
return at its end, nor does a type on which launching depends. -/
structure StaysRight (s : Session) (x : Descriptor) (before : Node) {entry : KeyFile}
    {locales : List Text}
    (p : entry.Place DesktopEntry.group (DesktopEntry.shownNameKey entry locales))
    (name : Text) : Prop where
  regular : x.kind = .regular
  unlinked : x.linkState = .none
  permissions : permissionBits before.mode = x.mode
  typed : s.types.typeOfContent x.identity.displayName
    (Utf8.encode (DesktopEntry.retitled entry locales name)) = ContentType.desktopEntry
  readBack : KeyFile.escapesFirst name
  icon : ∀ w, ¬ p.Strips DesktopEntry.iconKey w
  launchable : ∀ w, p.Strips DesktopEntry.typeKey w →
    KeyFile.unescape w = DesktopEntry.applicationType → (DesktopEntry.command? entry).isSome →
      s.files.isExecutePermitted x.path x.mode →
        TypeStore.isProgram s.types.rules ContentType.desktopEntry

/-- The usual case: a regular file, called so that its name tells its type, that already has a line
for the name. -/
theorem Shows.staysRight {s : Session} {d : DescriptorId} {x : Descriptor} {locales : List Text}
    {resolved : ResolvedAttributes} (shows : s.Shows d x locales resolved)
    (desktop : s.types.nameOf x.contentType = ContentType.desktopEntry)
    (regular : x.kind = .regular) (unlinked : x.linkState = .none) {before : Node}
    (permissions : permissionBits before.mode = x.mode)
    (named : (s.types.typeOfName? x.identity.displayName).isSome) {entry : KeyFile}
    {p : entry.Place DesktopEntry.group (DesktopEntry.shownNameKey entry locales)}
    (present : p.old.isSome) {name : Text} (readBack : KeyFile.escapesFirst name) :
    s.StaysRight x before p name := by
  have kept : ∀ k w, ¬ p.Strips k w := by
    intro k w strips
    rw [strips.vacant] at present
    cases present
  obtain ⟨type, told⟩ := Option.isSome_iff_exists.mp named
  have typed : s.types.rules.canonicalName type = ContentType.desktopEntry := by
    have shown := shows.named.symm.trans desktop
    rw [← shows.kind, regular, TypeStore.typeOf_regular, TypeStore.typeOfRegular, TypeStore.told,
      told] at shown
    exact shown
  exact {
    regular, unlinked, permissions, readBack
    typed := by
      rw [TypeStore.typeOfContent, TypeStore.toldOfContent, told]
      exact typed
    icon := kept _
    launchable := fun w strips => absurd strips (kept _ w) }

/-- Flags agree as far as they tell of launching. -/
theorem marked_eq_iff {permitted program a b : Bool} :
    ((permitted && program || permitted && a) = (permitted && program || permitted && b)) ↔
      (permitted = true → program = false → a = b) := by
  cases permitted <;> cases program <;> simp

section

variable {s t : Session} {d fresh : DescriptorId} {x z : Descriptor} {locales : List Text}
  {resolved : ResolvedAttributes} {before : Node} {name text : Text} {bytes : Octets}
  {entry g : KeyFile} {p : entry.Place DesktopEntry.group (DesktopEntry.shownNameKey entry locales)}

/-- What renaming makes of the hints of a descriptor is read back exactly where the name begins as
it is escaped and the icon is not stripped. -/
theorem hints_resets_iff (resets : KeyFile.Resets p name g) :
    DesktopEntry.hints g locales = { DesktopEntry.hints entry locales with name := some name } ↔
      KeyFile.escapesFirst name ∧ ∀ w, ¬ p.Strips DesktopEntry.iconKey w := by
  have named := DesktopEntry.name_resets resets
  have icon := DesktopEntry.icon_eq_iff resets
  rw [Hints.mk.injEq, icon, named, Option.some.injEq, and_comm]
  refine and_congr_left fun _ => ⟨fun back => ?_, fun escapes => ?_⟩
  · by_cases escapes : KeyFile.escapesFirst name
    · exact escapes
    · exact absurd back (KeyFile.unescape_trimStart_escape escapes)
  · rw [KeyFile.trimStart_escape escapes, KeyFile.unescape_escape]

/-- The flags come out the same exactly where the path is no link and the launching of a permitted
file does not hang on a value that is stripped. -/
theorem flags_resets_iff (resets : KeyFile.Resets p name g) {link : LinkState}
    {permitted program : Bool} :
    computeFlags .none (permitted && program) permitted
        (some (DesktopEntry.launcher g locales).isLaunchable) =
      computeFlags link (permitted && program) permitted
        (some (DesktopEntry.launcher entry locales).isLaunchable) ↔
      link = .none ∧ ∀ w, p.Strips DesktopEntry.typeKey w →
        KeyFile.unescape w = DesktopEntry.applicationType →
          (DesktopEntry.command? entry).isSome → permitted → program := by
  have launches := DesktopEntry.isLaunchable_eq_iff resets
  rw [computeFlags_eq_iff]
  simp only [Option.some.injEq, Bool.decide_eq_true, true_iff]
  rw [marked_eq_iff, launches]
  refine and_congr_right fun _ => ⟨fun silent w strips typed runs allowed => ?_, fun told => ?_⟩
  · cases program with
    | true => rfl
    | false =>
      rw [silent allowed rfl w strips typed] at runs
      cases runs
  · intro allowed none w strips typed
    cases runs : (DesktopEntry.command? entry).isSome with
    | false => rfl
    | true =>
      rw [told w strips typed runs allowed] at none
      cases none

/-- The descriptor that renaming leaves, against the one that its path resolves to afterwards. -/
theorem tellAlike_iff (shows : s.Shows d x locales resolved)
    (desktop : s.types.nameOf x.contentType = ContentType.desktopEntry)
    (calm : s.files.IsFaultFree) (stands : s.files.EntryAt x.path bytes text entry)
    (rewritten : s.files.Rewritten x.path before
      (Utf8.encode (DesktopEntry.retitled entry locales name)) t.files)
    (paired : Text.Paired (DesktopEntry.retitled entry locales name))
    (again : KeyFile.parse (DesktopEntry.retitled entry locales name) = .ok g)
    (resets : KeyFile.Resets p name g)
    (shows' : t.Shows fresh z locales ⟨(FileSystem.replacement
      (Utf8.encode (DesktopEntry.retitled entry locales name)) before.mode).attributes, .none⟩)
    (identity : z.identity = x.identity)
    (took : TypeStore.Took s.types (s.types.typeOfContent x.identity.displayName
      (Utf8.encode (DesktopEntry.retitled entry locales name))) z.contentType t.types) :
    t.TellAlike (x.entitled name) z ↔ s.StaysRight x before p name := by
  have path : z.path = x.path := by rw [Descriptor.path, identity, Descriptor.path]
  have type := took.nameOf
  have type' : t.types.nameOf x.contentType = ContentType.desktopEntry :=
    (took.nameOf_old _ (TypeStore.lt_length_of_counted shows.counted)).trans desktop
  have kind : z.kind = .regular := shows'.kind.trans (kindOf_replacement _ _)
  have mode : z.mode = permissionBits before.mode := by
    rw [Descriptor.mode, shows'.attributes]
    dsimp only
    rw [FileSystem.mode_attributes_replacement, permissionBits_eq, permissionBits_eq]
    omega
  obtain ⟨flags, hints⟩ := shows.flags_hints
  rw [desktop, stands.launcherAt] at flags hints
  obtain ⟨flags', hints'⟩ := shows'.flags_hints
  rw [type, path, kind, mode, rewritten.isExecutePermitted_after calm, took.rules,
    rewritten.launcherAt_after calm rfl paired again] at flags'
  rw [type, path, rewritten.launcherAt_after calm rfl paired again] at hints'
  have linked := linkState_eq_none_iff flags
  have titled : (x.entitled name).hints =
      some { DesktopEntry.hints entry locales with name := some name } := by
    rw [Descriptor.entitled, hints]
    rfl
  -- Each field that the two share says one part of the condition, and each part gives a field.
  constructor
  · intro alike
    have typed := (type.symm.trans alike.typeName).trans type'
    have regular : x.kind = .regular := alike.kind.symm.trans kind
    have permissions : permissionBits before.mode = x.mode := mode.symm.trans alike.mode
    have marks : z.flags = x.flags := alike.flags
    rw [flags', flags, typed, regular, permissions, if_pos rfl, decide_eq_true rfl,
      Bool.true_and] at marks
    obtain ⟨unlinked, launchable⟩ := (flags_resets_iff resets).mp marks
    have said := alike.hints
    rw [hints', typed, if_pos rfl, titled] at said
    obtain ⟨readBack, icon⟩ := (hints_resets_iff resets).mp (Option.some.inj said)
    exact ⟨regular, linked.mpr unlinked, permissions, typed, readBack, icon, launchable⟩
  · intro right
    rw [right.typed, if_pos rfl] at flags' hints'
    exact {
      identity := identity
      kind := kind.trans right.regular.symm
      mode := mode.trans right.permissions
      flags := by
        show z.flags = x.flags
        rw [flags', flags, right.regular, right.permissions, decide_eq_true rfl, Bool.true_and]
        exact (flags_resets_iff resets).mpr ⟨linked.mp right.unlinked, right.launchable⟩
      typeName := (type.trans right.typed).trans type'.symm
      hints := by
        rw [hints', titled]
        exact congrArg some ((hints_resets_iff resets).mpr ⟨right.readBack, right.icon⟩) }

end

end Session

/-- Where a desktop entry that has just been resolved is renamed, its path resolves again as long as
the name of the file or what is written tells a type, and the descriptor tells what the path then
tells if and only if it stays right. Where no type is told it does not stay right. -/
theorem rename_tellAlike_iff {s s₁ s₂ : Session} (reachable : s.Reachable)
    (calm : s.files.IsFaultFree) {path : Text} {context : Context} {d : DescriptorId}
    (resolves : (Action.resolve path context).runOn s = (.ok d, s₁)) {x : Descriptor}
    (found : s₁.descriptors[d]? = some x)
    (desktop : s₁.types.nameOf x.contentType = ContentType.desktopEntry) {name : Text}
    (renames : (Action.rename d name context).runOn s₁ = (.ok (), s₂)) :
    ∃ before bytes text, ∃ entry : KeyFile,
      ∃ p : entry.Place DesktopEntry.group (DesktopEntry.shownNameKey entry context.locales),
      ∃ y,
      s₁.files.stat x.path = .ok before ∧ s₁.files.EntryAt x.path bytes text entry ∧
      s₂.descriptors[d]? = some y ∧ y.hints.bind Hints.name = some name ∧
      ((s₁.types.toldOfContent x.identity.displayName
          (Utf8.encode (DesktopEntry.retitled entry context.locales name))).isText →
        ∃ fresh s₃ z, (Action.resolve y.path context).runOn s₂ = (.ok fresh, s₃) ∧
          s₃.descriptors[fresh]? = some z ∧
          (s₃.TellAlike y z ↔ s₁.StaysRight x before p name)) ∧
      (¬ (s₁.types.toldOfContent x.identity.displayName
          (Utf8.encode (DesktopEntry.retitled entry context.locales name))).isText →
        (Action.resolve y.path context).runOn s₂ = (.error Rules.unnamed, s₂) ∧
          ¬ s₁.StaysRight x before p name) := by
  obtain ⟨x', resolved, -, files, sound, shows⟩ :=
    Session.Shows.of_resolve reachable.sound resolves
  obtain rfl : x' = x := Option.some.inj (shows.found.symm.trans found)
  rw [← files] at calm
  obtain ⟨accepted, bytes, entry, fs, log, reads, parsed, replaces, rfl⟩ :=
    Action.rename_entry_eq_ok found shows.living desktop renames
  obtain ⟨text, decoded, parses, grouped⟩ := Action.entryOf_eq_ok.mp parsed
  obtain ⟨before, rewritten⟩ := FileSystem.exists_rewritten replaces
  have stands : s₁.files.EntryAt x'.path bytes text entry := ⟨reads, decoded, parses, grouped⟩
  -- The entry as it is written can be read again, with the name in its place.
  obtain ⟨paired, -⟩ := Utf8.decode?_cases decoded
  obtain ⟨line, feedless⟩ := DesktopEntry.paired_shownName paired parses context.locales accepted
  obtain ⟨p⟩ := KeyFile.exists_place (DesktopEntry.shownNameKey entry context.locales) grouped
  have paired' := KeyFile.paired_text_set parses grouped paired p
    ⟨line, (KeyFile.raw_ofValue feedless name).1⟩
  obtain ⟨g, again, resets⟩ := KeyFile.exists_resets paired parses grouped p
    (DesktopEntry.isKey_shownNameKey parses context.locales) line feedless
  have title : (x'.entitled name).hints.bind Hints.name = some name := by
    obtain ⟨-, hints⟩ := shows.flags_hints
    rw [desktop, stands.launcherAt] at hints
    rw [Descriptor.entitled, hints]
    rfl
  refine ⟨before, bytes, text, entry, p, x'.entitled name, rewritten.behind, stands, ?_, title,
    fun told => ?_, fun silent => ⟨?_, fun right => ?_⟩⟩
  · exact List.getElem?_set_self (List.getElem?_eq_some_iff.mp found).1
  · obtain ⟨s₃, z, run, shows', identity, files', took⟩ := Session.resolves_rewritten
      (s := { s₁ with files := fs, descriptors := s₁.descriptors.set d (x'.entitled name), log })
      sound shows.opened shows.normal calm rewritten context told
    have there : s₃.files = fs := files'
    rw [← there] at rewritten
    exact ⟨_, s₃, z, run, shows'.found, Session.tellAlike_iff shows desktop calm stands rewritten
      paired' again resets shows' identity took⟩
  · exact Session.resolves_rewritten_unnamed
      (s := { s₁ with files := fs, descriptors := s₁.descriptors.set d (x'.entitled name), log })
      shows.opened shows.normal calm rewritten context silent
  · exact silent (TypeStore.isText_toldOfContent right.typed)

/-- An entry that can be renamed. -/
def plainEntry : Octets := Utf8.encode "[Desktop Entry]\nName=Old\nIcon=i\n"

def plainFiles : FileSystem where
  workingDirectory := "/work"
  entries := [("/work/x.desktop", .created plainEntry 0o644)]

/-- A no-break space in front of a name is shown after renaming, but lost to those that read the
entry. -/
theorem not_tellAlike_noBreakSpace :
    let s : Session := { files := plainFiles, types := .new [] Rules.bundled [] }
    let s₁ := ((Action.resolve "x.desktop" {}).runOn s).2
    ∃ s₂ y fresh s₃ z, (Action.rename 0 "\u00A0New" {}).runOn s₁ = (.ok (), s₂) ∧
      s₂.descriptors[0]? = some y ∧ y.hints.bind Hints.name = some ("\u00A0New" : Text) ∧
      (Action.resolve y.path {}).runOn s₂ = (.ok fresh, s₃) ∧
      s₃.descriptors[fresh]? = some z ∧ ¬ s₃.TellAlike y z := by
  intro s s₁
  let x : Descriptor := .new ⟨"/work/x.desktop"⟩ .regular (Node.created plainEntry 0o644).attributes
    0 0 (some ⟨some "i", some "Old"⟩)
  have found : s₁.descriptors[0]? = some x := by decide +kernel
  have calm : s.files.IsFaultFree := FileSystem.isFaultFree_of_faults_eq_nil (by decide +kernel)
  have resolves : (Action.resolve "x.desktop" {}).runOn s = (.ok 0, s₁) :=
    Action.runOn_of_toOption (by decide +kernel)
  have renames : (Action.rename 0 "\u00A0New" {}).runOn s₁ =
      (.ok (), ((Action.rename 0 "\u00A0New" {}).runOn s₁).2) :=
    Action.runOn_of_toOption (by decide +kernel)
  obtain ⟨_, _, _, _, _, y, -, -, stays, titled, tells, -⟩ :=
    rename_tellAlike_iff (.start plainFiles [] Rules.bundled []) calm resolves found
      (by decide +kernel) renames
  have named : s₁.types.typeOfName? x.identity.displayName = some ContentType.desktopEntry := by
    decide +kernel
  obtain ⟨fresh, s₃, z, again, told, alike⟩ := tells (by rw [TypeStore.toldOfContent, named]; rfl)
  refine ⟨_, y, fresh, s₃, z, renames, stays, titled, again, told, fun agrees => ?_⟩
  exact absurd (alike.mp agrees).readBack (by decide +kernel)

end FileProfile
