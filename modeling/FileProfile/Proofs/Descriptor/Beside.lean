import FileProfile.Proofs.Descriptor.Moved

/-!
Where a name leads.

Under a directory a name leads to the entry called so, a single dot to the directory itself and a
double dot to the directory above it (`Path.join_ofComponents_eq`). Both dots are accepted as names,
and only they lead to no entry beside a file (`Identity.leadsBeside_iff`). A renamed file has the
path that its name leads to, and goes by the name that was asked for.
-/

namespace FileProfile

namespace Path

/-! ## Names under a directory -/

/-- What a name without a slash at its end makes of a directory. -/
theorem join_ofComponents_eq {cs : List Text} (all : ∀ c ∈ cs, IsComponent c) {name : Text}
    (given : name ≠ []) (unclosed : name.getLast? ≠ some separator) :
    join (ofComponents cs) name =
      ofComponents ((components name).foldl (pushComponent false) cs.reverse).reverse := by
  have directory : ofComponents cs ≠ [] := by simp [ofComponents]
  have absolute : isAbsolute (ofComponents cs ++ separator :: name) = true := by
    simp [isAbsolute, ofComponents]
  have open' : (ofComponents cs ++ separator :: name).getLast? ≠ some separator := by
    rw [List.getLast?_append, List.getLast?_cons, List.getLast?_eq_some_getLast given]
    rwa [List.getLast?_eq_some_getLast given] at unclosed
  have parts : normalComponents false (ofComponents cs ++ separator :: name) =
      ((components name).foldl (pushComponent false) cs.reverse).reverse := by
    rw [normalComponents, components_append, components_ofComponents all, List.foldl_append,
      foldl_pushComponent all, List.append_nil]
  rw [join, if_neg directory, if_neg given, normalize]
  simp only [absolute, Bool.not_true, parts, if_neg open', List.append_nil]
  cases ((components name).foldl (pushComponent false) cs.reverse).reverse <;> rfl

/-- A single dot leads to the directory itself. -/
theorem join_here {cs : List Text} (all : ∀ c ∈ cs, IsComponent c) :
    join (ofComponents cs) here = ofComponents cs := by
  have none : components here = [] := by decide
  rw [join_ofComponents_eq all (by decide) (by decide), none, List.foldl_nil, List.reverse_reverse]

/-- A double dot leads to the directory above, and stays at the root. -/
theorem join_above {cs : List Text} (all : ∀ c ∈ cs, IsComponent c) :
    join (ofComponents cs) above = ofComponents cs.dropLast := by
  have one : components above = [above] := by decide
  rw [join_ofComponents_eq all (by decide) (by decide), one, List.foldl_cons, List.foldl_nil]
  rcases List.eq_nil_or_concat cs with rfl | ⟨ds, c, rfl⟩
  · rfl
  · have proper := (all c (by simp)).notAbove
    rw [List.concat_eq_append, List.reverse_concat, List.dropLast_concat]
    simp [pushComponent, proper]

theorem parent_ofComponents_eq {cs : List Text} (all : ∀ c ∈ cs, IsComponent c) :
    parent (ofComponents cs) = ofComponents cs.dropLast := by
  rcases List.eq_nil_or_concat cs with rfl | ⟨ds, c, rfl⟩
  · exact parent_root
  · rw [List.concat_eq_append] at all ⊢
    rw [List.dropLast_concat,
      parent_ofComponents (fun d stands => all d (by simp [stands])) (all c (by simp))]

theorem IsNormal.parent {p : Text} (normal : IsNormal p) : IsNormal (parent p) := by
  obtain ⟨cs, all, rfl⟩ := normal
  exact ⟨cs.dropLast, fun c stands => all c (List.dropLast_subset cs stands),
    parent_ofComponents_eq all⟩

end Path

/-! ## Siblings -/

namespace Identity

/-- `name` leads to an entry beside `i`: the sibling called so has the parent that `i` has, goes by
that name, and is not that parent itself. -/
structure LeadsBeside (i : Identity) (name : Text) : Prop where
  beside : (i.sibling name).parent = i.parent
  called : (i.sibling name).displayName = name
  below : (i.sibling name).path ≠ i.parent.path

variable {i : Identity} (normal : Path.IsNormal i.path)

include normal

theorem sibling_here : i.sibling Path.here = i.parent := by
  obtain ⟨ds, within, directory⟩ := normal.parent
  rw [sibling, parent, directory, Path.join_here within]

theorem sibling_above : i.sibling Path.above = i.parent.parent := by
  obtain ⟨ds, within, directory⟩ := normal.parent
  rw [sibling, parent, parent, directory, Path.join_above within,
    Path.parent_ofComponents_eq within]

/-- No path in normal form goes by the name of two dots. -/
theorem displayName_ne_above : i.displayName ≠ Path.above := by
  unfold displayName
  by_cases root : i.path = [Path.separator]
  · rw [root]
    decide
  · have component := normal.isComponent_baseName root
    simp only [if_neg component.nonempty]
    exact component.notAbove

/-- An entry of a directory has another path than the directory. -/
theorem path_sibling_ne_parent {name : Text} (component : Path.IsComponent name) :
    (i.sibling name).path ≠ i.parent.path := by
  obtain ⟨ds, within, directory⟩ := normal.parent
  have extended : ∀ c ∈ ds ++ [name], Path.IsComponent c :=
    List.forall_mem_append.mpr ⟨within, List.forall_mem_singleton.mpr component⟩
  rw [sibling, parent, directory, Path.join_ofComponents within component]
  intro same
  have parts := congrArg Path.components same
  rw [Path.components_ofComponents extended, Path.components_ofComponents within] at parts
  simp at parts

/-- An accepted name leads to an entry beside a file unless it is one of the two dots. -/
theorem leadsBeside_iff_of_validate {name : Text} (accepted : FileName.validate name = .ok ()) :
    i.LeadsBeside name ↔ name ≠ Path.here ∧ name ≠ Path.above := by
  constructor
  · refine fun leads => ⟨?_, ?_⟩
    · rintro rfl
      exact leads.below (congrArg path (sibling_here normal))
    · rintro rfl
      have climbed : Path.IsNormal (i.sibling Path.above).path := by
        rw [sibling_above normal]
        exact normal.parent.parent
      exact displayName_ne_above climbed leads.called
  · rintro ⟨notHere, notAbove⟩
    have component := FileName.isComponent_of_validate accepted notHere notAbove
    obtain ⟨-, beside, called⟩ := exists_sibling normal component
    exact ⟨congrArg Identity.mk beside, called, path_sibling_ne_parent normal component⟩

end Identity

/-! ## Renamed files -/

/-- A file that is no desktop entry has been moved where its renaming succeeds. -/
theorem Session.relocates_of_rename {s t : Session} {d : DescriptorId} {x : Descriptor}
    {name : Text} {context : Context} (sound : s.types.Sound) (found : s.descriptors[d]? = some x)
    (other : s.types.nameOf x.contentType ≠ ContentType.desktopEntry)
    (run : (Action.rename d name context).runOn s = (.ok (), t)) :
    s.Relocates d x name context (.ok (), t) := by
  have ends := Action.renameEnds sound d name context
  rw [run] at ends
  cases ends with
  | @edited x' _ edits _ =>
    obtain rfl : x' = x := Option.some.inj (edits.found.symm.trans found)
    exact absurd edits.desktop other
  | @moved x' _ moves free opened tells _ =>
    obtain rfl : x' = x := Option.some.inj (moves.found.symm.trans found)
    rw [← run, Action.runOn_rename_path moves.accepted found moves.living other]
    exact Action.relocates moves.encoded found moves.living free context sound opened tells

/-- A file that has been moved has the path that its name leads to, and goes by that name. -/
theorem Session.exists_named_of_rename {s t : Session} {d : DescriptorId} {x : Descriptor}
    {name : Text} {context : Context} (sound : s.types.Sound) (found : s.descriptors[d]? = some x)
    (other : s.types.nameOf x.contentType ≠ ContentType.desktopEntry)
    (run : (Action.rename d name context).runOn s = (.ok (), t)) :
    ∃ y, t.descriptors[d]? = some y ∧ y.identity = x.identity.sibling name ∧
      y.displayName = name := by
  have changed : ∀ change : DescriptorChange,
      (s.descriptors.modify d change.applied)[d]? = some (change.applied x) := fun change => by
    rw [List.getElem?_modify_eq, found]
    rfl
  cases Session.relocates_of_rename sound found other run with
  | carried log moves kind => exact ⟨_, changed _, rfl, rfl⟩
  | reclassified log moves regular took dropped => exact ⟨_, changed _, rfl, rfl⟩

/-- An accepted name leads to an entry beside a file unless it is one of the two dots, which lead to
the directory of the file and to the one above. A file that is renamed and is no desktop entry gets
the path that the name leads to, and goes by the name. -/
theorem Identity.leadsBeside_iff (workingDirectory p : Text) {name : Text}
    (accepted : FileName.validate name = .ok ()) :
    let i := Identity.forPath workingDirectory p
    (i.LeadsBeside name ↔ name ≠ Path.here ∧ name ≠ Path.above) ∧
    i.sibling Path.here = i.parent ∧ i.sibling Path.above = i.parent.parent ∧
    ∀ {s t : Session} {d : DescriptorId} {x : Descriptor} {context : Context}, s.Reachable →
      s.descriptors[d]? = some x → x.identity = i →
      s.types.nameOf x.contentType ≠ ContentType.desktopEntry →
      (Action.rename d name context).runOn s = (.ok (), t) →
      ∃ y, t.descriptors[d]? = some y ∧ y.identity = i.sibling name ∧ y.displayName = name := by
  intro i
  have normal : Path.IsNormal i.path := Path.resolve_normal workingDirectory p
  refine ⟨Identity.leadsBeside_iff_of_validate normal accepted, Identity.sibling_here normal,
    Identity.sibling_above normal, ?_⟩
  intro s t d x context reachable found place other run
  rw [← place]
  exact Session.exists_named_of_rename reachable.sound found other run

/-- One file, in a directory that has no entry of its own. -/
def loneFile : FileSystem where
  workingDirectory := "/work"
  entries := [("/work/a", .created (Utf8.encode "hello") 0o644)]

/-- A single dot is accepted and can be written, but leads to no entry beside a file. A file that is
renamed so takes the place of its directory where that has no entry. -/
theorem Identity.not_leadsBeside_here :
    let s : Session := { files := loneFile, types := .new [] {} [] }
    let s₁ := ((Action.resolve "a" {}).runOn s).2
    FileName.validate Path.here = .ok () ∧ FileName.encode Path.here = .ok Path.here ∧
      ¬ (Identity.forPath "/work" "a").LeadsBeside Path.here ∧
      ∃ t y, (Action.rename 0 Path.here {}).runOn s₁ = (.ok (), t) ∧
        t.descriptors[0]? = some y ∧ y.identity = ⟨"/work"⟩ ∧ y.displayName = Path.here := by
  intro s s₁
  have accepted : FileName.validate Path.here = .ok () := rfl
  obtain ⟨beside, directory, -, renamed⟩ := Identity.leadsBeside_iff "/work" "a" accepted
  refine ⟨accepted, rfl, fun leads => (beside.mp leads).1 rfl, ?_⟩
  let plain : Descriptor := .new ⟨"/work/a"⟩ .regular
    (Node.created (Utf8.encode "hello") 0o644).attributes 0 0 none
  have reachable : s₁.Reachable := .ask (.resolve "a" {}) (.start loneFile [] {} []) nofun
  have found : s₁.descriptors[0]? = some plain := by decide +kernel
  have other : s₁.types.nameOf plain.contentType ≠ ContentType.desktopEntry := by decide +kernel
  have run : (Action.rename 0 Path.here {}).runOn s₁ =
      (.ok (), ((Action.rename 0 Path.here {}).runOn s₁).2) :=
    Action.runOn_of_toOption (by decide +kernel)
  obtain ⟨y, found', place, called⟩ := renamed reachable found (by decide +kernel) other run
  refine ⟨_, y, run, found', ?_, called⟩
  rw [place, directory]
  decide +kernel

end FileProfile
