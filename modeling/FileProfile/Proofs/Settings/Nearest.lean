import FileProfile.Proofs.Descriptor.Beside
import FileProfile.Settings.Search

/-!
The nearest configuration.

From a path in normal form one list of directories leads up to the root (`Path.ascent_iff`), each
shorter than the one before it. A search that climbs from directory to directory until a directory
is its own parent therefore ends, with the answer that `Config.find` gives, and that answer is the
first regular file's among the candidates, whatever stands behind it (`Config.find_nearest`).
-/

namespace FileProfile

namespace Path

/-! ## The way up -/

/-- The directories from a path to the root, each the parent of the one before it. -/
inductive Ascent : Text → List Text → Prop
  | root : Ascent [separator] [[separator]]
  | step {p : Text} {higher : List Text} (below : p ≠ [separator])
      (climbs : Ascent (parent p) higher) : Ascent p (p :: higher)

theorem length_parent_lt {p : Text} (normal : IsNormal p) (below : p ≠ [separator]) :
    (parent p).length < p.length := by
  obtain ⟨cs, c, all, own, rfl⟩ := normal.exists_entry below
  have named := List.length_pos_iff.mpr own.nonempty
  rw [parent_ofComponents all own, ofComponents_concat]
  split
  · next top =>
    rw [top]
    show 1 < _
    rw [List.nil_append, List.length_cons]
    omega
  · rw [List.length_append, List.length_cons]
    omega

/-- Only the root is its own parent. -/
theorem parent_eq_self_iff {p : Text} (normal : IsNormal p) : parent p = p ↔ p = [separator] := by
  constructor
  · intro same
    by_contra below
    have shorter := length_parent_lt normal below
    rw [same] at shorter
    exact Nat.lt_irrefl _ shorter
  · rintro rfl
    exact parent_root

namespace Ascent

variable {p : Text} {ds es : List Text}

theorem unique (one : Ascent p ds) (other : Ascent p es) : ds = es := by
  induction one generalizing es with
  | root =>
    cases other with
    | root => rfl
    | step below => exact absurd rfl below
  | step below _ ih =>
    cases other with
    | root => exact absurd rfl below
    | step _ climbs => rw [ih climbs]

/-- No directory on the way up is longer than the path where it begins. -/
theorem length_le (ascent : Ascent p ds) (normal : IsNormal p) : ∀ d ∈ ds, d.length ≤ p.length := by
  induction ascent with
  | root =>
    intro d stands
    rw [List.mem_singleton.mp stands]
  | step below _ ih =>
    intro d stands
    rcases List.mem_cons.mp stands with rfl | later
    · exact Nat.le_refl _
    · exact Nat.le_trans (ih normal.parent d later) (Nat.le_of_lt (length_parent_lt normal below))

/-- No directory is met twice. -/
theorem nodup (ascent : Ascent p ds) (normal : IsNormal p) : ds.Nodup := by
  induction ascent with
  | root => exact List.nodup_cons.mpr ⟨List.not_mem_nil, List.nodup_nil⟩
  | step below climbs ih =>
    refine List.nodup_cons.mpr ⟨?_, ih normal.parent⟩
    intro again
    have longer := length_le climbs normal.parent _ again
    exact Nat.not_le_of_lt (length_parent_lt normal below) longer

end Ascent

theorem ascent_directoriesUpward {p : Text} (normal : IsNormal p) :
    Ascent p (Config.directoriesUpward p) := by
  induction p using Config.directoriesUpward.induct with
  | case1 p shorter ih =>
    have below : p ≠ [separator] := by
      rintro rfl
      exact absurd shorter (by decide)
    rw [Config.directoriesUpward, if_pos shorter]
    exact .step below (ih normal.parent)
  | case2 p last =>
    have top : p = [separator] := by
      by_contra below
      exact last (length_parent_lt normal below)
    rw [Config.directoriesUpward, if_neg last, top]
    exact .root

theorem ascent_iff {p : Text} (normal : IsNormal p) (ds : List Text) :
    Ascent p ds ↔ ds = Config.directoriesUpward p := by
  constructor
  · exact fun ascent => ascent.unique (ascent_directoriesUpward normal)
  · rintro rfl
    exact ascent_directoriesUpward normal

end Path

namespace Config

/-! ## The search -/

/-- The paths in a directory that may hold its configuration, the preferred first. -/
def pathsIn (d : Text) : List Text := fileNames.map (Path.join d)

/-- What a search answers that begins in a directory and climbs to the parent until a regular file
is found or the directory is its own parent. -/
inductive Searches (fs : FileSystem) : Text → Except Failure (Option Found) → Prop
  | found {d p : Text} (first : (pathsIn d).find? (isFile fs) = some p) :
      Searches fs d ((load fs p).map fun config => some ⟨config, p⟩)
  | top {d : Text} (missed : (pathsIn d).find? (isFile fs) = none) (last : Path.parent d = d) :
      Searches fs d (.ok none)
  | climb {d : Text} {answer : Except Failure (Option Found)}
      (missed : (pathsIn d).find? (isFile fs) = none) (below : Path.parent d ≠ d)
      (searches : Searches fs (Path.parent d) answer) : Searches fs d answer

/-- A search among paths: the first regular file is loaded. -/
def findAmong (fs : FileSystem) (paths : List Text) : Except Failure (Option Found) :=
  match paths.find? (isFile fs) with
  | none => .ok none
  | some path => (load fs path).map fun config => some { config, path }

theorem find_eq_findAmong (fs : FileSystem) (directory : Text) : find fs directory =
    findAmong fs ((directoriesUpward (fs.absolute directory)).flatMap pathsIn) :=
  rfl

variable {fs : FileSystem}

theorem Searches.unique {d : Text} {one other : Except Failure (Option Found)}
    (searches : Searches fs d one) (again : Searches fs d other) : one = other := by
  induction searches with
  | found first =>
    cases again with
    | found first' =>
      obtain rfl := Option.some.inj (first.symm.trans first')
      rfl
    | top missed => exact absurd (first.symm.trans missed) nofun
    | climb missed => exact absurd (first.symm.trans missed) nofun
  | top missed last =>
    cases again with
    | found first => exact absurd (first.symm.trans missed) nofun
    | top => rfl
    | climb _ below => exact absurd last below
  | climb missed below _ ih =>
    cases again with
    | found first => exact absurd (first.symm.trans missed) nofun
    | top _ last => exact absurd last below
    | climb _ _ searches => exact ih searches

/-- A search that climbs answers as one among all paths on the way up. -/
theorem searches_findAmong {d : Text} {ds : List Text} (ascent : Path.Ascent d ds)
    (normal : Path.IsNormal d) : Searches fs d (findAmong fs (ds.flatMap pathsIn)) := by
  induction ascent with
  | root =>
    rw [List.flatMap_singleton, findAmong]
    split
    · next missed => exact .top missed Path.parent_root
    · next first => exact .found first
  | @step p higher below climbs ih =>
    have rest := ih normal.parent
    rw [List.flatMap_cons, findAmong, List.find?_append]
    cases first : (pathsIn p).find? (isFile fs) with
    | none => exact .climb first (fun same => below ((Path.parent_eq_self_iff normal).mp same)) rest
    | some path => exact .found first

theorem searches_iff (directory : Text) (answer : Except Failure (Option Found)) :
    Searches fs (fs.absolute directory) answer ↔ answer = find fs directory := by
  have normal : Path.IsNormal (fs.absolute directory) := Path.resolve_normal _ _
  have searches : Searches fs (fs.absolute directory) (find fs directory) :=
    searches_findAmong (Path.ascent_directoriesUpward normal) normal
  constructor
  · exact fun answers => answers.unique searches
  · rintro rfl
    exact searches

/-! ## The first regular file -/

/-- A regular file is seen at a path; a call that fails sees none. -/
def IsRegular (fs : FileSystem) (path : Text) : Prop :=
  ∃ node, fs.stat path = .ok node ∧ node.kind = .regular

theorem isFile_iff (path : Text) : isFile fs path = true ↔ IsRegular fs path := by
  unfold isFile IsRegular
  cases fs.stat path with
  | error e => simp
  | ok node => simp

instance (path : Text) : Decidable (IsRegular fs path) := decidable_of_iff _ (isFile_iff path)

theorem findAmong_of_missing {paths : List Text} (missing : ∀ q ∈ paths, ¬ IsRegular fs q) :
    findAmong fs paths = .ok none := by
  have none : paths.find? (isFile fs) = none :=
    List.find?_eq_none.mpr fun q stands seen => missing q stands ((isFile_iff q).mp seen)
  rw [findAmong, none]

theorem findAmong_of_first {front back : List Text} {p : Text}
    (missing : ∀ q ∈ front, ¬ IsRegular fs q) (regular : IsRegular fs p) :
    findAmong fs (front ++ p :: back) = (load fs p).map fun config => some ⟨config, p⟩ := by
  have first : (front ++ p :: back).find? (isFile fs) = some p := by
    refine List.find?_eq_some_iff_append.mpr ⟨(isFile_iff p).mpr regular, front, back, rfl, ?_⟩
    intro q stands
    rw [Bool.not_eq_true', ← Bool.not_eq_true, isFile_iff]
    exact missing q stands
  rw [findAmong, first]

/-- Loading asks of a file system what the text of the file is, and nothing else. -/
theorem load_congr {fs fs' : FileSystem} {p : Text} (same : fs'.readText p = fs.readText p) :
    load fs' p = load fs p := by
  rw [load, load, same]

theorem isRegular_congr {fs fs' : FileSystem} {p : Text} (same : fs'.stat p = fs.stat p) :
    IsRegular fs' p ↔ IsRegular fs p := by
  rw [IsRegular, IsRegular, same]

/-- The nearest configuration counts. The search that climbs from a directory has one answer, that
of `find`. The directories from there to the root make one list, without repetitions. Where no path
under them holds a regular file, nothing is found. Otherwise the first that does is loaded, and
whether that succeeds or fails, the rest of the files have no part in the answer. -/
theorem find_nearest (fs : FileSystem) (directory : Text) :
    let start := fs.absolute directory
    (∀ answer, Searches fs start answer ↔ answer = find fs directory) ∧
    ∃ ds, (∀ es, Path.Ascent start es ↔ es = ds) ∧ ds.Nodup ∧
      ((∀ p ∈ ds.flatMap pathsIn, ¬ IsRegular fs p) → find fs directory = .ok none) ∧
      ∀ front p back, ds.flatMap pathsIn = front ++ p :: back →
        (∀ q ∈ front, ¬ IsRegular fs q) → IsRegular fs p →
        find fs directory = (load fs p).map (fun config => some ⟨config, p⟩) ∧
        ∀ fs' : FileSystem, fs'.workingDirectory = fs.workingDirectory →
          (∀ q ∈ front ++ [p], fs'.stat q = fs.stat q) → fs'.readText p = fs.readText p →
          find fs' directory = find fs directory := by
  intro start
  have normal : Path.IsNormal start := Path.resolve_normal _ _
  refine ⟨searches_iff directory, directoriesUpward start, Path.ascent_iff normal,
    (Path.ascent_directoriesUpward normal).nodup normal, ?_, ?_⟩
  · intro missing
    rw [find_eq_findAmong]
    exact findAmong_of_missing missing
  · intro front p back cut missing regular
    have answer : find fs directory = (load fs p).map fun config => some ⟨config, p⟩ := by
      rw [find_eq_findAmong, cut]
      exact findAmong_of_first missing regular
    refine ⟨answer, ?_⟩
    intro fs' sameStart sameSeen sameText
    have start' : fs'.absolute directory = start := by
      rw [FileSystem.absolute, sameStart]
      rfl
    have missing' : ∀ q ∈ front, ¬ IsRegular fs' q := fun q stands seen =>
      missing q stands ((isRegular_congr (sameSeen q (by simp [stands]))).mp seen)
    have regular' : IsRegular fs' p := (isRegular_congr (sameSeen p (by simp))).mpr regular
    rw [answer, find_eq_findAmong, start', cut, findAmong_of_first missing' regular',
      load_congr sameText]

/-- A directory whose preferred file cannot be seen and whose other file holds no configuration,
below a directory that has a valid one. -/
def unreadableNear : FileSystem where
  workingDirectory := "/work"
  entries :=
    [("/work/filemeta.config.yaml", .created (Utf8.encode "display: near") 0o644),
      ("/work/filemeta.config.yml", .created (Utf8.encode "display: 1") 0o644),
      ("/filemeta.config.yaml", .created (Utf8.encode "display: far") 0o644)]
  faults := [((.stat, "/work/filemeta.config.yaml"), .eacces)]

/-- A file that cannot be seen is passed over; one that is invalid is the answer, though a directory
above has a valid one, and it stays so when that one is gone. Without files nothing is found. -/
theorem find_nearest_invalid :
    let answer : Except Failure (Option Found) :=
      .error (.invalidConfig "/work/filemeta.config.yml"
        [⟨["display"], "Expected string, received number"⟩])
    find unreadableNear "." = answer ∧
      find (unreadableNear.erase "/filemeta.config.yaml") "." = answer ∧
      load unreadableNear "/filemeta.config.yaml" = .ok { display := some "far" } ∧
      find {} "." = .ok none := by
  intro answer
  obtain ⟨-, ds, upward, -, -, first⟩ := find_nearest unreadableNear "."
  obtain rfl := (upward ["/work", "/"]).mp (.step (by decide) .root)
  obtain ⟨loaded, alone⟩ := first ["/work/filemeta.config.yaml"] "/work/filemeta.config.yml"
    ["/filemeta.config.yaml", "/filemeta.config.yml"] (by decide +kernel) (by decide +kernel)
    (by decide +kernel)
  have fails : find unreadableNear "." = answer := by
    rw [loaded]
    decide +kernel
  refine ⟨fails, ?_, by decide +kernel, ?_⟩
  · rw [alone (unreadableNear.erase "/filemeta.config.yaml") rfl (by decide +kernel)
      (by decide +kernel), fails]
  · obtain ⟨-, ds, upward, -, nothing, -⟩ := find_nearest {} "."
    obtain rfl := (upward ["/"]).mp .root
    exact nothing (by decide +kernel)

end Config

end FileProfile
