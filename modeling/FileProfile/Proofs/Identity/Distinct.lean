import FileProfile.Proofs.Descriptor.Refreshing
import FileProfile.Proofs.FileName.Carried
import FileProfile.Proofs.Path.Normal
import FileProfile.Proofs.Session.Run

/-!
What URIs tell apart.

Percent-encoding loses nothing of the octets (`FileUri.flatMap_encodeOctet_injective`), so two paths
have the same URI exactly if what is encoded of them is the same once every surrogate without
partner is replaced (`FileUri.ofPath_eq_iff`). Resolving a well-formed text at a well-formed working
directory gives a well-formed path (`Path.wellFormed_resolve`), and there nothing is to be replaced.

All of a path in normal form is encoded exactly if its last unit is no control character that is cut
off (`FileUri.kept_eq_self_iff`). Identities of such paths are equal exactly if the paths are, but
with one of these behind it every path has the URI that it has without (`FileUri.kept_concat`,
`Identity.equals_forPath_iff`).
-/

namespace FileProfile

open Text (Paired)

/-! ## Octets in a URI -/

namespace FileUri

theorem hexValue?_hexDigit {n : Nat} (small : n < 16) : (hexDigit n).hexValue? = some n := by
  have all : ∀ k : Fin 16, (hexDigit k).hexValue? = some k.val := by decide
  exact all ⟨n, small⟩

theorem hexDigit_inj {m n : Nat} (small : m < 16) (small' : n < 16)
    (same : hexDigit m = hexDigit n) : m = n := by
  have values := congrArg CodeUnit.hexValue? same
  rw [hexValue?_hexDigit small, hexValue?_hexDigit small'] at values
  exact Option.some.inj values

theorem toUInt16_inj {a b : UInt8} (same : a.toNat.toUInt16 = b.toNat.toUInt16) : a = b := by
  have small : ∀ c : UInt8, c.toNat.toUInt16.toNat = c.toNat := fun c =>
    Nat.mod_eq_of_lt (Nat.lt_trans c.toNat_lt (by decide))
  have values := congrArg UInt16.toNat same
  rw [small, small] at values
  exact UInt8.toNat_inj.mp values

/-- What begins with a percent sign is no octet that stands for itself. -/
theorem ne_percent_of_isAllowed {b : UInt8} (allowed : isAllowed b = true) :
    b.toNat.toUInt16 ≠ 0x25 := by
  intro percent
  obtain rfl : b = 0x25 := toUInt16_inj percent
  exact absurd allowed (by decide)

theorem encodeOctet_append_inj {a b : UInt8} {s t : Text}
    (same : encodeOctet a ++ s = encodeOctet b ++ t) : a = b ∧ s = t := by
  unfold encodeOctet at same
  split at same <;> split at same
  case isTrue.isTrue =>
    obtain ⟨heads, tails⟩ := List.cons.inj same
    exact ⟨toUInt16_inj heads, tails⟩
  case isTrue.isFalse allowed _ =>
    exact absurd (List.cons.inj same).1 (ne_percent_of_isAllowed allowed)
  case isFalse.isTrue _ allowed =>
    exact absurd (List.cons.inj same).1.symm (ne_percent_of_isAllowed allowed)
  case isFalse.isFalse =>
    obtain ⟨-, same⟩ := List.cons.inj same
    obtain ⟨high, same⟩ := List.cons.inj same
    obtain ⟨low, tails⟩ := List.cons.inj same
    have below := a.toNat_lt
    have below' := b.toNat_lt
    have quotients := hexDigit_inj (by omega) (by omega) high
    have remainders := hexDigit_inj (by omega) (by omega) low
    exact ⟨UInt8.toNat_inj.mp (by omega), tails⟩

theorem encodeOctet_ne_nil (b : UInt8) : encodeOctet b ≠ [] := by
  unfold encodeOctet
  split <;> exact List.cons_ne_nil _ _

/-- Different octets are written differently. -/
theorem flatMap_encodeOctet_injective {a b : Octets}
    (same : a.flatMap encodeOctet = b.flatMap encodeOctet) : a = b := by
  induction a generalizing b with
  | nil =>
    cases b with
    | nil => rfl
    | cons c more =>
      rw [List.flatMap_cons, List.flatMap_nil] at same
      exact absurd (List.append_eq_nil_iff.mp same.symm).1 (encodeOctet_ne_nil c)
  | cons u rest ih =>
    cases b with
    | nil =>
      rw [List.flatMap_cons, List.flatMap_nil] at same
      exact absurd (List.append_eq_nil_iff.mp same).1 (encodeOctet_ne_nil u)
    | cons c more =>
      rw [List.flatMap_cons, List.flatMap_cons] at same
      obtain ⟨rfl, others⟩ := encodeOctet_append_inj same
      rw [ih others]

/-- A URI tells what is kept of a path but for its surrogates without partner, which all look
alike. -/
theorem ofPath_eq_iff {p q : Text} : ofPath p = ofPath q ↔ (kept p).mended = (kept q).mended := by
  constructor
  · intro same
    have octets := flatMap_encodeOctet_injective (List.append_cancel_left same)
    rw [← Text.encode_mended (kept p), ← Text.encode_mended (kept q)] at octets
    exact Utf8.encode_injective (Text.paired_mended _) (Text.paired_mended _) octets
  · intro same
    rw [ofPath, ofPath, ← Text.encode_mended (kept p), ← Text.encode_mended (kept q), same]

end FileUri

/-! ## Well-formed paths -/

namespace Text

theorem mended_of_wellFormed {t : Text} (formed : t.wellFormed) : t.mended = t :=
  mended_eq_self_iff.mpr (wellFormed_iff_lone.mp formed)

theorem wellFormed_iff_paired {t : Text} : t.wellFormed ↔ Paired t := by
  constructor
  · intro formed
    rw [← mended_of_wellFormed formed]
    exact paired_mended t
  · intro paired
    refine List.all_eq_true.mpr fun p among => ?_
    have scalar := (Utf8.codePoints_of_paired paired).1 p among
    rw [scalar.2]
    rfl

/-- The well-formed texts are those that octets can be read as. -/
theorem wellFormed_iff_decoded {t : Text} :
    t.wellFormed ↔ ∃ octets, Utf8.decodeLossy octets = t := by
  rw [wellFormed_iff_paired]
  constructor
  · exact fun paired => ⟨Utf8.encode t, Utf8.decodeLossy_encode paired⟩
  · rintro ⟨octets, rfl⟩
    exact Utf8.paired_decodeLossy octets

/-- Texts that are joined at a unit that is no surrogate are paired exactly if each of them is. -/
theorem paired_join_iff {sep : CodeUnit} (plain : ¬ sep.IsSurrogate) {pieces : List Text} :
    Paired (join [sep] pieces) ↔ ∀ piece ∈ pieces, Paired piece := by
  induction pieces with
  | nil => exact ⟨fun _ _ absent => absurd absent List.not_mem_nil, fun _ => .nil⟩
  | cons first rest ih =>
    cases rest with
    | nil => simp [join]
    | cons second more =>
      have spread : join [sep] (first :: second :: more) =
          first ++ sep :: join [sep] (second :: more) := by
        simp [join, List.intercalate_cons_cons]
      rw [spread, List.forall_mem_cons, ← ih]
      constructor
      · exact fun whole => whole.cut plain
      · exact fun parts => parts.1.append (.unit plain parts.2)

end Text

namespace Path

theorem not_isSurrogate_separator : ¬ separator.IsSurrogate := by decide

theorem paired_of_mem_components {p c : Text} (paired : Paired p) (among : c ∈ components p) :
    Paired c := by
  have whole : Text.join [separator] (Text.splitAt separator p) = p := by
    rw [Text.splitAt_eq_splitOn]
    exact List.intercalate_splitOn separator
  rw [← whole] at paired
  exact (Text.paired_join_iff not_isSurrogate_separator).mp paired c (List.mem_filter.mp among).1

/-- Where a path must not climb, nothing comes onto the stack but its components. -/
theorem mem_of_mem_pushComponent {stack : List Text} {c d : Text}
    (among : d ∈ pushComponent false stack c) : d = c ∨ d ∈ stack := by
  unfold pushComponent at among
  split at among
  · next up =>
    cases stack with
    | nil => exact absurd among List.not_mem_nil
    | cons top rest =>
      dsimp only at among
      split at among
      · exact (List.mem_cons.mp among).imp_left fun same => same.trans up.symm
      · exact .inr (List.mem_cons_of_mem _ among)
  · exact List.mem_cons.mp among

theorem mem_components_of_mem_normalComponents {p c : Text}
    (among : c ∈ normalComponents false p) : c ∈ components p := by
  have fold : ∀ cs stack : List Text, (∀ d ∈ stack, d ∈ components p) →
      (∀ d ∈ cs, d ∈ components p) →
      ∀ d ∈ cs.foldl (pushComponent false) stack, d ∈ components p := by
    intro cs
    induction cs with
    | nil => exact fun _ within _ => within
    | cons first rest ih =>
      intro stack within parts
      obtain ⟨here, others⟩ := List.forall_mem_cons.mp parts
      refine ih _ (fun d pushed => ?_) others
      rcases mem_of_mem_pushComponent pushed with rfl | old
      · exact here
      · exact within d old
  rw [normalComponents, List.mem_reverse] at among
  exact fold _ [] (fun d absent => absurd absent List.not_mem_nil) (fun d given => given) c among

/-- Where a path starts at the base, that has to be well-formed too. -/
theorem wellFormed_resolve {base p : Text} (formed : p.wellFormed)
    (start : isAbsolute p = true ∨ base.wellFormed) : (resolve base p).wellFormed := by
  rw [Text.wellFormed_iff_paired] at formed start ⊢
  have whole : Paired (if isAbsolute p then p else base ++ separator :: p) := by
    split
    · exact formed
    · next relative =>
      exact (start.resolve_left relative).append (.unit not_isSurrogate_separator formed)
  refine .unit not_isSurrogate_separator
    ((Text.paired_join_iff not_isSurrogate_separator).mpr fun c among => ?_)
  exact paired_of_mem_components whole (mem_components_of_mem_normalComponents among)

end Path

/-! ## What is kept of a path -/

namespace Path

/-- The path up to its last slash ends where it does or with a slash. -/
theorem isPrefix_throughLastSlash (p : Text) :
    throughLastSlash p <+: p ∧ ∀ u ∈ (throughLastSlash p).getLast?, u = separator := by
  constructor
  · have cut := (List.dropWhile_suffix fun u => u ≠ separator).trans
      (List.dropWhile_suffix (fun u => u = separator) (l := p.reverse))
    conv => rhs; rw [← List.reverse_reverse p]
    exact List.reverse_prefix.mpr cut
  · intro u last
    rw [throughLastSlash, List.getLast?_reverse] at last
    simpa using Text.not_of_head?_dropWhile last

theorem paired_throughLastSlash {p : Text} (paired : Paired p) : Paired (throughLastSlash p) := by
  obtain ⟨⟨rest, whole⟩, ends⟩ := isPrefix_throughLastSlash p
  rcases List.eq_nil_or_concat (throughLastSlash p) with none | ⟨front, u, through⟩
  · rw [none]
    exact .nil
  · rw [List.concat_eq_append] at through
    rw [through] at whole ends ⊢
    obtain rfl : u = separator := ends u (by simp)
    rw [← whole, List.append_assoc] at paired
    exact (paired.cut not_isSurrogate_separator).1.append (.unit not_isSurrogate_separator .nil)

/-- A path in normal form stays one with a unit behind it that is neither slash nor dot. -/
theorem IsNormal.concat {p : Text} (normal : IsNormal p) {u : CodeUnit} (other : u ≠ separator)
    (notDot : u ≠ dot) : IsNormal (p ++ [u]) := by
  have last : ∀ {c d : Text}, c ++ [u] = d → d.getLast? = some u := by
    rintro c _ rfl
    exact List.getLast?_concat
  have component : ∀ c : Text, separator ∉ c → IsComponent (c ++ [u]) := fun c plain =>
    { nonempty := List.append_ne_nil_of_right_ne_nil c (List.cons_ne_nil u [])
      notHere := fun same => notDot (Option.some.inj (last same)).symm
      notAbove := fun same => notDot (Option.some.inj (last same)).symm
      noSeparator := fun among => (List.mem_append.mp among).elim plain fun behind =>
        other (List.mem_singleton.mp behind).symm }
  by_cases root : p = [separator]
  · have alone : ∀ c ∈ [[u]], IsComponent c :=
      List.forall_mem_singleton.mpr (component [] List.not_mem_nil)
    exact ⟨[[u]], alone, by rw [root]; rfl⟩
  · obtain ⟨cs, c, all, own, rfl⟩ := normal.exists_entry root
    refine ⟨cs ++ [c ++ [u]], List.forall_mem_append.mpr
      ⟨all, List.forall_mem_singleton.mpr (component c own.noSeparator)⟩, ?_⟩
    rw [ofComponents_concat, ofComponents_concat, List.append_assoc]
    rfl

end Path

namespace FileUri

/-- No control character that is cut off stands at the end of a path. -/
def EndsKept (p : Text) : Prop := ∀ u ∈ p.getLast?, ¬ isCut u

instance (p : Text) : Decidable (EndsKept p) :=
  decidable_of_iff (p.getLast?.all fun u => !isCut u) (by
    unfold EndsKept
    cases p.getLast? <;> simp)

theorem isCut_lt {u : CodeUnit} (ends : isCut u) : u.toNat < 0x20 := by
  have low := (Bool.and_eq_true_iff.mp ends).1
  exact UInt16.lt_iff_toNat_lt.mp (of_decide_eq_true low)

theorem isPrefix_cut (p : Text) : cut p <+: p := by
  conv => rhs; rw [← List.reverse_reverse p]
  exact List.reverse_prefix.mpr (List.dropWhile_suffix _)

theorem cut_eq_self_iff {p : Text} : cut p = p ↔ EndsKept p := by
  unfold EndsKept
  rw [cut, List.reverse_eq_iff, ← List.head?_reverse]
  constructor
  · intro same u last
    rw [← same] at last
    exact Text.not_of_head?_dropWhile last
  · exact Text.dropWhile_eq_self

theorem cut_concat (p : Text) {u : CodeUnit} (ends : isCut u) : cut (p ++ [u]) = cut p := by
  rw [cut, cut, List.reverse_concat, List.dropWhile_cons_of_pos ends]

/-- A path is settled as it is, or up to its last slash or the one before. -/
theorem settle_cases (p : Text) : settle p = p ∨ settle p = Path.throughLastSlash p ∨
    settle p = Path.throughLastSlash (Path.throughLastSlash p) := by
  unfold settle directoryAbove
  dsimp only
  split
  · exact .inr (.inl rfl)
  · split
    · split
      · exact .inr (.inl rfl)
      · exact .inr (.inr rfl)
    · exact .inl rfl

theorem isPrefix_settle (p : Text) : settle p <+: p := by
  have through := (Path.isPrefix_throughLastSlash p).1
  rcases settle_cases p with whole | once | twice
  · exact ⟨[], (List.append_nil _).trans whole⟩
  · rw [once]
    exact through
  · rw [twice]
    exact (Path.isPrefix_throughLastSlash _).1.trans through

/-- All of a path in normal form is encoded unless a control character at its end is cut off. -/
theorem kept_eq_self_iff {p : Text} (normal : Path.IsNormal p) : kept p = p ↔ EndsKept p := by
  rw [← cut_eq_self_iff]
  constructor
  · intro same
    have shorter := (isPrefix_settle (cut p)).length_le
    rw [← kept, same] at shorter
    exact (isPrefix_cut p).eq_of_length_le shorter
  · intro same
    have settled : Path.baseName p ≠ Path.here ∧ Path.baseName p ≠ Path.above := by
      by_cases root : p = [Path.separator]
      · rw [root]
        decide
      · have component := normal.isComponent_baseName root
        exact ⟨component.notHere, component.notAbove⟩
    rw [kept, same, settle, if_neg settled.1, if_neg settled.2]

/-- A control character that is cut off leaves no trace. -/
theorem kept_concat (p : Text) {u : CodeUnit} (ends : isCut u) : kept (p ++ [u]) = kept p := by
  rw [kept, kept, cut_concat p ends]

theorem paired_cut {p : Text} (paired : Paired p) : Paired (cut p) := by
  have parts : cut p ++ (p.reverse.takeWhile isCut).reverse = p := by
    rw [cut, ← List.reverse_append, List.takeWhile_append_dropWhile, List.reverse_reverse]
  cases dropped : (p.reverse.takeWhile isCut).reverse with
  | nil =>
    rw [dropped, List.append_nil] at parts
    rwa [parts]
  | cons u rest =>
    have among : u ∈ p.reverse.takeWhile isCut :=
      List.mem_reverse.mp (dropped ▸ List.mem_cons_self)
    have plain : ¬ u.IsSurrogate := fun half => by
      have low := isCut_lt (List.mem_takeWhile_imp among)
      have high := (CodeUnit.isSurrogate_iff.mp half).1
      omega
    rw [← parts, dropped] at paired
    exact (paired.cut plain).1

theorem wellFormed_kept {p : Text} (formed : p.wellFormed) : (kept p).wellFormed := by
  rw [Text.wellFormed_iff_paired] at formed ⊢
  have rest := paired_cut formed
  have through := Path.paired_throughLastSlash rest
  rw [kept]
  rcases settle_cases (cut p) with whole | once | twice
  · rwa [whole]
  · rwa [once]
  · rw [twice]
    exact Path.paired_throughLastSlash through

end FileUri

/-! ## Identities -/

namespace Identity

theorem equals_iff {i j : Identity} :
    i.equals j ↔ (FileUri.kept i.path).mended = (FileUri.kept j.path).mended := by
  rw [equals, decide_eq_true_iff]
  exact FileUri.ofPath_eq_iff

theorem equals_iff_kept_eq {i j : Identity} (formed : i.path.wellFormed)
    (formed' : j.path.wellFormed) : i.equals j ↔ FileUri.kept i.path = FileUri.kept j.path := by
  rw [equals_iff, Text.mended_of_wellFormed (FileUri.wellFormed_kept formed),
    Text.mended_of_wellFormed (FileUri.wellFormed_kept formed')]

end Identity

/-- Descriptors with well-formed paths agree only where the same is kept of the paths. -/
theorem Descriptor.kept_eq_of_agrees {x y : Descriptor} (formed : x.path.wellFormed)
    (formed' : y.path.wellFormed) (agrees : x.agrees y) :
    FileUri.kept x.path = FileUri.kept y.path := by
  have equal : x.identity.equals y.identity := (Bool.and_eq_true_iff.mp agrees).2
  exact (Identity.equals_iff_kept_eq formed formed').mp equal

/-- A descriptor that looking again leaves in place has been compared with a file that is not told
apart from the one at its own path. -/
theorem Session.kept_eq_of_refresh {s t : Session} {d : DescriptorId} {x : Descriptor}
    {context : Context} {r : Refreshed} (sound : s.types.Sound)
    (base : s.files.workingDirectory.wellFormed) (found : s.descriptors[d]? = some x)
    (formed : x.path.wellFormed) (run : (Action.refresh d context).runOn s = (.ok r, t))
    (unchanged : r.changed = false) :
    FileUri.kept (s.files.absolute x.path) = FileUri.kept x.path := by
  obtain ⟨z, found', -, refreshes⟩ := Action.refresh_eq_ok sound run
  obtain rfl : z = x := Option.some.inj (found'.symm.trans found)
  cases refreshes with
  | changed resolves differs => cases unchanged
  | @unchanged y u _ resolves same counts descriptors =>
    obtain ⟨resolved, h, types, log, -, -, -, -, rfl, -⟩ := Action.resolve_eq_ok sound resolves.run
    have added := resolves.found
    rw [List.getElem?_concat_length] at added
    have place : y.path = s.files.absolute z.path := by
      rw [← Option.some.inj added]
      rfl
    have formed' : y.path.wellFormed := place ▸ Path.wellFormed_resolve formed (.inr base)
    rw [← place]
    exact (Descriptor.kept_eq_of_agrees formed formed' same).symm

/-- Identities are equal exactly if the same is kept of their paths, but for surrogates without
partner. A working directory is read from octets, so of well-formed texts nothing is replaced where
paths start there or both texts are absolute. The paths are then told apart where none ends with a
control character that is cut off, but with one of these behind it every path gets the identity of
another file. Descriptors that agree, and one that looking again leaves in place, are those of paths
of which the same is kept. -/
theorem Identity.equals_forPath_iff (workingDirectory a b : Text) :
    let i := forPath workingDirectory a
    let j := forPath workingDirectory b
    (i.equals j ↔ (FileUri.kept i.path).mended = (FileUri.kept j.path).mended) ∧
    (a.wellFormed → b.wellFormed →
      (∃ octets, Utf8.decodeLossy octets = workingDirectory) ∨
        Path.isAbsolute a ∧ Path.isAbsolute b →
      (i.equals j ↔ FileUri.kept i.path = FileUri.kept j.path) ∧
      (FileUri.EndsKept i.path → FileUri.EndsKept j.path →
        (i.equals j ↔ Path.resolve workingDirectory a = Path.resolve workingDirectory b))) ∧
    (∀ u, FileUri.isCut u → (forPath workingDirectory (i.path ++ [u])).path = i.path ++ [u] ∧
      (forPath workingDirectory (i.path ++ [u])).equals i) ∧
    (∀ x y : Descriptor, x.path.wellFormed → y.path.wellFormed → x.agrees y →
      FileUri.kept x.path = FileUri.kept y.path) ∧
    ∀ (s t : Session) (d : DescriptorId) x context r, s.Reachable →
      s.files.workingDirectory = workingDirectory →
      (∃ octets, Utf8.decodeLossy octets = workingDirectory) →
      s.descriptors[d]? = some x → x.path.wellFormed →
      (Action.refresh d context).runOn s = (.ok r, t) → r.changed = false →
      FileUri.kept (Path.resolve workingDirectory x.path) = FileUri.kept x.path := by
  intro i j
  have normal : Path.IsNormal i.path := Path.resolve_normal workingDirectory a
  have normal' : Path.IsNormal j.path := Path.resolve_normal workingDirectory b
  refine ⟨equals_iff, fun formed formed' start => ?_, fun u ends => ?_,
    fun x y formed formed' agrees => Descriptor.kept_eq_of_agrees formed formed' agrees, ?_⟩
  · have told : i.path.wellFormed ∧ j.path.wellFormed := by
      rcases start with octets | ⟨absolute, absolute'⟩
      · have base := Text.wellFormed_iff_decoded.mpr octets
        exact ⟨Path.wellFormed_resolve formed (.inr base),
          Path.wellFormed_resolve formed' (.inr base)⟩
      · exact ⟨Path.wellFormed_resolve formed (.inl absolute),
          Path.wellFormed_resolve formed' (.inl absolute')⟩
    have same := equals_iff_kept_eq told.1 told.2
    refine ⟨same, fun ends ends' => same.trans ?_⟩
    rw [(FileUri.kept_eq_self_iff normal).mpr ends, (FileUri.kept_eq_self_iff normal').mpr ends']
    rfl
  · have low := FileUri.isCut_lt ends
    have longer : Path.IsNormal (i.path ++ [u]) :=
      normal.concat (by rintro rfl; exact absurd low (by decide))
        (by rintro rfl; exact absurd low (by decide))
    have stays : (forPath workingDirectory (i.path ++ [u])).path = i.path ++ [u] :=
      Path.resolve_of_isNormal longer workingDirectory
    refine ⟨stays, equals_iff.mpr ?_⟩
    rw [stays, FileUri.kept_concat i.path ends]
  · rintro s t d x context r reachable rfl octets found formed run unchanged
    exact Session.kept_eq_of_refresh reachable.sound (Text.wellFormed_iff_decoded.mpr octets)
      found formed run unchanged

/-- A path that looks like the encoded form of another one is told apart from it, and one that only
resolves to another is not. Neither is one that only has a control character more at its end. -/
theorem Identity.equals_forPath_control :
    (forPath "/work" "a%20b").equals (forPath "/work" "a b") = false ∧
      (forPath "/work" "c/../a b").equals (forPath "/work" "/work/a b") = true ∧
      (forPath "/work" "/work/a\u0001").equals (forPath "/work" "/work/a") = true ∧
      Path.resolve "/work" "/work/a\u0001" ≠ Path.resolve "/work" "/work/a" := by
  have start (a b : Text) : (∃ octets, Utf8.decodeLossy octets = "/work") ∨
      Path.isAbsolute a ∧ Path.isAbsolute b := .inl ⟨Utf8.encode "/work", by decide⟩
  refine ⟨?_, ?_, ?_, by decide⟩
  · rw [← Bool.not_eq_true]
    have apart : Path.resolve "/work" "a%20b" ≠ Path.resolve "/work" "a b" := by decide
    have same := (equals_forPath_iff "/work" "a%20b" "a b").2.1 (by decide) (by decide) (start _ _)
    exact mt (same.2 (by decide) (by decide)).mp apart
  · have same := (equals_forPath_iff "/work" "c/../a b" "/work/a b").2.1 (by decide) (by decide)
      (start _ _)
    exact (same.2 (by decide) (by decide)).mpr (by decide)
  · have same := (equals_forPath_iff "/work" "/work/a\u0001" "/work/a").2.1 (by decide) (by decide)
      (start _ _)
    exact same.1.mpr (by decide)

end FileProfile
