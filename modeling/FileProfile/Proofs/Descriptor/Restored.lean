import FileProfile.Proofs.ContentType.Exchange
import FileProfile.Proofs.Descriptor.Moved
import FileProfile.Proofs.Descriptor.Renamed
import FileProfile.Proofs.Storage.Same

/-!
Giving a file its old name again.

Each of two renamings leaves the descriptor that its path resolves to (`Shows.renames`). The second
one brings the old path back, so that it finds the file that was resolved at first
(`FileSystem.Same`), and exchanges the handle of the type in between for one of the first type
(`TypeStore.Exchanged`). Together they restore the files, the descriptor and the types in use
(`rename_back`), apart from the number of the handle. Only the first one can fail, where the name in
between leaves it to the contents to tell a type and they tell none.
-/

namespace FileProfile

/-! ## What the same files tell -/

namespace FileSystem

/-- Nothing but a desktop entry says anything about launching. -/
theorem launcherAt_of_ne (fs : FileSystem) (p : Text) {type : TypeName}
    (other : type ≠ ContentType.desktopEntry) (locales : List Text) :
    fs.launcherAt p type locales = none :=
  if_neg other

namespace Same

variable {fs other : FileSystem}

theorem isExecutePermitted (same : fs.Same other) (p : Text) (mode : Int) :
    other.isExecutePermitted p mode = fs.isExecutePermitted p mode := by
  rw [FileSystem.isExecutePermitted, FileSystem.isExecutePermitted, same.access]

theorem launcherAt (same : fs.Same other) (p : Text) (type : TypeName) (locales : List Text) :
    other.launcherAt p type locales = fs.launcherAt p type locales := by
  rw [FileSystem.launcherAt, FileSystem.launcherAt, toOption_read, toOption_read, same.readFile]

theorem typeOf (same : fs.Same other) (store : TypeStore) (p name : Text) (kind : FileKind) :
    store.typeOf other p name kind = store.typeOf fs p name kind := by
  simp only [TypeStore.typeOf, TypeStore.typeOfRegular, TypeStore.told, sniffed, same.readStart]

end Same

end FileSystem

namespace Session

variable {s t : Session} {d : DescriptorId} {x y : Descriptor} {resolved : ResolvedAttributes}

/-- The same files give the same descriptor under the same rules. -/
theorem described_same (same : s.files.Same t.files) (alike : s.types.SameRules t.types)
    (identity : Identity) (locales : List Text) (resolved : ResolvedAttributes) (h : HandleId) :
    t.described identity locales resolved h = s.described identity locales resolved h := by
  simp only [described, alike.typeOf, alike.rules, same.typeOf, same.isExecutePermitted,
    same.launcherAt]

/-! ## Renaming once -/

theorem Renamed.exchanged (renamed : s.Renamed d x y t) :
    s.types.Exchanged x.contentType y.contentType t.types := by
  rcases renamed.types with ⟨same, keeping⟩ | ⟨type, u, took, dropped⟩
  · rw [same, keeping]
    exact .refl _ _
  · exact .of_took_dropped took dropped

namespace Shows

/-- Locales matter for desktop entries alone. -/
theorem localized {locales : List Text} (shows : s.Shows d x locales resolved)
    (other : s.types.nameOf x.contentType ≠ ContentType.desktopEntry) (locales' : List Text) :
    s.Shows d x locales' resolved :=
  { shows with
    state := by
      rw [shows.named, Descriptor.path] at other
      refine shows.state.trans ?_
      rw [described_eq, described_eq]
      dsimp only
      rw [FileSystem.launcherAt_of_ne _ _ other, FileSystem.launcherAt_of_ne _ _ other] }

/-- Renaming what is up to date and no desktop entry moves its file and brings the descriptor up to
date again. -/
theorem renames {context : Context} (shows : s.Shows d x context.locales resolved)
    (sound : s.types.Sound) (calm : s.files.IsFaultFree)
    (other : s.types.nameOf x.contentType ≠ ContentType.desktopEntry) {name : Text}
    (accepted : FileName.validate name = .ok ()) (encoded : FileName.encode name = .ok name)
    (component : Path.IsComponent name) (tells : s.types.Tells s.files x.path name x.kind)
    {node : Node} (stands : s.files.find? x.path = some node)
    (free : s.files.find? (x.identity.sibling name).path = none) : ∃ t y,
    (Action.rename d name context).runOn s = (.ok (), t) ∧
      t.files = s.files.moved x.path (x.identity.sibling name).path node ∧ t.types.Sound ∧
      y.identity = x.identity.sibling name ∧ t.Shows d y context.locales resolved ∧
      s.Renamed d x y t := by
  have moves : ∃ t y, (Action.renamePath d name context).runOn s = (.ok (), t) ∧
      t.files = s.files.moved x.path (x.identity.sibling name).path node ∧ t.types.Sound ∧
      y.identity = x.identity.sibling name ∧ t.Shows d y context.locales resolved := by
    by_cases regular : x.kind = .regular
    · exact shows.renames_regular sound calm regular component encoded tells stands free
    · exact shows.renames_other sound calm regular other component encoded stands free
  obtain ⟨t, y, run, moved, sound', place, shows'⟩ := moves
  rw [← Action.runOn_rename_path accepted shows.found shows.living other] at run
  obtain ⟨x', y', renamed⟩ := renamed_of_rename sound run
  obtain rfl : x' = x := Option.some.inj (renamed.found.symm.trans shows.found)
  obtain rfl : y' = y := by
    have placed := shows'.found
    rw [renamed.descriptors,
      List.getElem?_set_self (List.getElem?_eq_some_iff.mp shows.found).1] at placed
    exact Option.some.inj placed
  exact ⟨t, y', run, moved, sound', place, shows', renamed⟩

/-- What has been moved from the place of `i` in the files `fs` can be moved back to it. -/
theorem renames_home {context : Context} (shows : s.Shows d x context.locales resolved)
    (sound : s.types.Sound) (other : s.types.nameOf x.contentType ≠ ContentType.desktopEntry)
    {fs : FileSystem} (calm : fs.IsFaultFree) {i : Identity} {node : Node}
    (stands : fs.find? i.path = some node) (free : fs.find? x.path = none)
    (moved : s.files = fs.moved i.path x.path node) (normal : Path.IsNormal i.path)
    (below : i.path ≠ [Path.separator]) (home : x.identity.sibling (Path.baseName i.path) = i)
    (accepted : FileName.validate (Path.baseName i.path) = .ok ())
    (encoded : FileName.encode (Path.baseName i.path) = .ok (Path.baseName i.path))
    (tells : s.types.Tells s.files x.path (Path.baseName i.path) x.kind) : ∃ t y,
    (Action.rename d (Path.baseName i.path) context).runOn s = (.ok (), t) ∧
      fs.Same t.files ∧ y.identity = i ∧ t.Shows d y context.locales resolved ∧
      s.Renamed d x y t := by
  have calm' : s.files.IsFaultFree := by
    rw [moved]
    exact FileSystem.isFaultFree_moved calm _ _ _
  have stands' : s.files.find? x.path = some node := by
    rw [moved, FileSystem.find?_moved, if_pos rfl]
  have apart : i.path ≠ x.path := fun same => by
    rw [← same, stands] at free
    cases free
  have free' : s.files.find? (x.identity.sibling (Path.baseName i.path)).path = none := by
    rw [home, moved, FileSystem.find?_moved, if_neg apart, if_pos rfl]
  obtain ⟨t, y, run, back, -, place, shows', renamed⟩ := shows.renames sound calm' other accepted
    encoded (normal.isComponent_baseName below) tells stands' free'
  have same : fs.Same t.files := by
    rw [back, home, moved]
    exact .moved_back stands free
  exact ⟨t, y, run, same, place.trans home, shows', renamed⟩

/-- The same files give descriptors that differ in nothing but the number of the handle. -/
theorem same {locales : List Text} {e : DescriptorId} (shows : s.Shows d x locales resolved)
    (shows' : t.Shows e y locales resolved) (same : s.files.Same t.files)
    (alike : s.types.SameRules t.types) (place : y.identity = x.identity) :
    t.types.nameOf y.contentType = s.types.nameOf x.contentType ∧
      y = { x with contentType := y.contentType } := by
  constructor
  · rw [shows'.named, shows.named, Descriptor.path, place, alike.typeOf]
    exact same.typeOf _ _ _ _
  · calc y = t.described y.identity locales resolved y.contentType := shows'.state
      _ = s.described x.identity locales resolved y.contentType := by
        rw [place]
        exact described_same same alike _ _ _ _
      _ = { s.described x.identity locales resolved x.contentType with
            contentType := y.contentType } := rfl
      _ = { x with contentType := y.contentType } := by rw [← shows.state]

end Shows

/-! ## There and back -/

/-- A file that is no desktop entry gets another name beside it, as long as that or the contents
tell a type by a text. Unless it is then a desktop entry it can be given its old name again, and the
files, the descriptor and the types in use are what they were, whatever the locales. Where no such
type is told, the first renaming fails with nothing done. -/
theorem rename_back {s₁ : Session} (reachable : s.Reachable) (calm : s.files.IsFaultFree)
    {path : Text} {context : Context} (there back : Context)
    (resolves : (Action.resolve path context).runOn s = (.ok d, s₁))
    (found : s₁.descriptors[d]? = some x)
    (other : s₁.types.nameOf x.contentType ≠ ContentType.desktopEntry)
    (below : x.path ≠ [Path.separator]) {old name : Text} (called : Path.baseName x.path = old)
    (accepted₀ : FileName.validate old = .ok ()) (encoded₀ : FileName.encode old = .ok old)
    (accepted : FileName.validate name = .ok ()) (encoded : FileName.encode name = .ok name)
    (notHere : name ≠ Path.here) (notAbove : name ≠ Path.above)
    (free : s.files.find? (x.identity.sibling name).path = none) :
    (s₁.types.Tells s₁.files x.path name x.kind → ∃ s₂ y,
      (Action.rename d name there).runOn s₁ = (.ok (), s₂) ∧ s₂.descriptors[d]? = some y ∧
        (s₂.types.nameOf y.contentType ≠ ContentType.desktopEntry → ∃ s₃ h,
          (Action.rename d old back).runOn s₂ = (.ok (), s₃) ∧
            s.files.Same s₃.files ∧
            s₃.descriptors = s₁.descriptors.set d { x with contentType := h } ∧
            s₃.types.nameOf h = s₁.types.nameOf x.contentType ∧
            s₃.types.references = s₁.types.references ∧
            ∀ type, s₃.types.IsLive type ↔ s₁.types.IsLive type)) ∧
    (¬ s₁.types.Tells s₁.files x.path name x.kind →
      (Action.rename d name there).runOn s₁ = (.error Rules.unnamed, s₁)) := by
  subst called
  obtain ⟨x', resolved, -, files, sound, shows⟩ := Shows.of_resolve reachable.sound resolves
  obtain rfl : x' = x := Option.some.inj (shows.found.symm.trans found)
  obtain ⟨node, stands⟩ := FileSystem.exists_of_resolveAttributes shows.looked
  have component := FileName.isComponent_of_validate accepted notHere notAbove
  rw [← files] at calm free ⊢
  refine ⟨fun tells => ?_, shows.rename_unnamed calm other accepted encoded free⟩
  obtain ⟨s₂, y, goes, moved, sound₂, place, shows₂, renamed⟩ :=
    (shows.localized other there.locales).renames sound calm other accepted encoded component tells
      stands free
  refine ⟨s₂, y, goes, shows₂.found, fun other₂ => ?_⟩
  have placed : y.path = (x'.identity.sibling name).path := congrArg Identity.path place
  have home : y.identity.sibling (Path.baseName x'.path) = x'.identity := by
    rw [place]
    exact Identity.sibling_sibling shows.normal below component
  -- What the old name tells is what it told when the path was resolved.
  have tells₂ : s₂.types.Tells s₂.files y.path (Path.baseName x'.path) y.kind := by
    have beside := (Identity.exists_sibling shows.normal component).2.1
    have shown : x'.identity.displayName = Path.baseName x'.path :=
      if_neg (shows.normal.isComponent_baseName below).nonempty
    rw [renamed.exchanged.tells_iff, TypeStore.Tells, moved, placed,
      TypeStore.told_moved calm stands free beside, shows₂.kind, ← shown]
    exact shows.tells
  rw [← placed] at free moved
  obtain ⟨s₃, z, returns, same, home', shows₃, renamed₃⟩ :=
    (shows₂.localized other₂ back.locales).renames_home sound₂ other₂ calm stands free moved
      shows.normal below home accepted₀ encoded₀ tells₂
  have exchanged := renamed.exchanged.trans renamed₃.exchanged
  obtain ⟨named, state⟩ := (shows.localized other back.locales).same shows₃ same
    exchanged.toSameRules home'
  refine ⟨s₃, z.contentType, returns, same, ?_, named, exchanged.references,
    exchanged.isLive_iff shows.counted shows₃.counted named⟩
  rw [renamed₃.descriptors, renamed.descriptors, List.set_set, ← state]

/-- The link is given another suffix and its old one again, but it is not left without one. -/
theorem rename_back_linkedScript :
    let s : Session := { files := linkedScript
                         types := .new [("txt", "text/plain"), ("png", "image/png")] {} [] }
    let s₁ := ((Action.resolve "run.txt" {}).runOn s).2
    (∃ x s₂ y s₃ h, s₁.descriptors = [x] ∧
      (Action.rename 0 "run.png" {}).runOn s₁ = (.ok (), s₂) ∧ s₂.descriptors[0]? = some y ∧
      s₂.types.nameOf y.contentType ≠ s₁.types.nameOf x.contentType ∧
      (Action.rename 0 "run.txt" {}).runOn s₂ = (.ok (), s₃) ∧ linkedScript.Same s₃.files ∧
      s₃.descriptors = [{ x with contentType := h }] ∧
      s₃.types.nameOf h = s₁.types.nameOf x.contentType ∧
      s₃.types.references = s₁.types.references ∧
      ∀ type, s₃.types.IsLive type ↔ s₁.types.IsLive type) ∧
    (Action.rename 0 "run" {}).runOn s₁ = (.error Rules.unnamed, s₁) := by
  intro s s₁
  let link : Descriptor :=
    .new ⟨"/work/run.txt"⟩ .regular script.attributes Flag.symlink.bit 0 none
  have started : s.Reachable :=
    .start linkedScript [("txt", "text/plain"), ("png", "image/png")] {} []
  have resolves : (Action.resolve "run.txt" {}).runOn s = (.ok 0, s₁) :=
    Action.runOn_of_toOption (by decide +kernel)
  have all : s₁.descriptors = [link] := by decide +kernel
  have found : s₁.descriptors[0]? = some link := by rw [all]; rfl
  have plain : s₁.types.nameOf link.contentType ≠ ContentType.desktopEntry := by decide +kernel
  have called : Path.baseName link.path = "run.txt" := by decide +kernel
  have accepted : FileName.validate "run.txt" = .ok () := rfl
  constructor
  · have accepted' : FileName.validate "run.png" = .ok () := rfl
    obtain ⟨s₂, y, goes, found', restores⟩ := (rename_back started (fun _ _ => rfl) {} {} resolves
      found plain (by decide) called accepted rfl accepted' rfl (by decide) (by decide)
      (by decide +kernel)).1 (by decide +kernel)
    have left : s₂ = ((Action.rename 0 "run.png" {}).runOn s₁).2 := by rw [goes]
    have typed : s₂.descriptors[0]?.map (fun y => s₂.types.nameOf y.contentType) =
        some (.text "image/png") := by
      rw [left]
      decide +kernel
    rw [found', Option.map_some, Option.some.injEq] at typed
    have first : s₁.types.nameOf link.contentType ≠ .text "image/png" := by decide +kernel
    obtain ⟨s₃, h, returns, same, descriptors, restored⟩ :=
      restores (by rw [typed]; decide +kernel)
    rw [all] at descriptors
    exact ⟨link, s₂, y, s₃, h, all, goes, found', by rw [typed]; exact first.symm, returns, same,
      descriptors, restored⟩
  · have accepted' : FileName.validate "run" = .ok () := rfl
    exact (rename_back started (fun _ _ => rfl) {} {} resolves found plain (by decide) called
      accepted rfl accepted' rfl (by decide) (by decide) (by decide +kernel)).2 (by decide +kernel)

end Session

end FileProfile
