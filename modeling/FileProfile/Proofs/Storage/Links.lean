import FileProfile.Storage.FileSystem

/-!
What stands behind the links at a path, and that it moves along with the path.

`behind?` is the node that a call which follows links ends at. When one entry moves to a free path
of the same directory, the same node stands behind it as before (`behind?_moved`): a chain of links
that ends anywhere meets neither the old nor the new path again, and one that does not end still
does not. So every query that follows links answers as before.
-/

namespace FileProfile

namespace FileSystem

/-! ## Following -/

/-- A path leads to a place along at most so many links: the node at the path ends the chain, or is
a link to where the rest of it begins. -/
inductive Leads (fs : FileSystem) : Nat → Text → Text × Node → Prop where
  | ends {limit : Nat} {p : Text} {node : Node} (found : fs.find? p = some node)
      (isEnd : node.target = none) : Leads fs limit p (p, node)
  | along {limit : Nat} {p t : Text} {node : Node} {r : Text × Node}
      (found : fs.find? p = some node) (link : node.target = some t)
      (rest : Leads fs limit (fs.destination p t) r) : Leads fs (limit + 1) p r

theorem followWithin_end {fs : FileSystem} {limit : Nat} {p : Text} {node : Node}
    (found : fs.find? p = some node) (isEnd : node.target = none) :
    fs.followWithin limit p = .ok (p, node) := by
  unfold followWithin
  simp only [found, isEnd]

theorem followWithin_along {fs : FileSystem} {limit : Nat} {p t : Text} {node : Node}
    (found : fs.find? p = some node) (link : node.target = some t) :
    fs.followWithin (limit + 1) p = fs.followWithin limit (fs.destination p t) := by
  rw [followWithin]
  simp only [found, link]

theorem followWithin_eq_ok_iff {fs : FileSystem} {limit : Nat} {p : Text} {r : Text × Node} :
    fs.followWithin limit p = .ok r ↔ fs.Leads limit p r := by
  constructor
  · intro reached
    fun_induction followWithin fs limit p with
    | case1 => cases reached
    | case2 limit p node found isEnd =>
      cases reached
      exact .ends found isEnd
    | case3 => cases reached
    | case4 p node found t link limit ih => exact .along found link (ih reached)
  · intro leads
    induction leads with
    | ends found isEnd => exact followWithin_end found isEnd
    | along found link _ ih => exact (followWithin_along found link).trans ih

/-- Following looks at nothing but the entries and the place where relative paths start. -/
theorem followWithin_congr {fs other : FileSystem} (entries : ∀ p, other.find? p = fs.find? p)
    (start : other.workingDirectory = fs.workingDirectory) (limit : Nat) (p : Text) :
    other.followWithin limit p = fs.followWithin limit p := by
  have destination : ∀ a t, other.destination a t = fs.destination a t := fun a t => by
    rw [FileSystem.destination, FileSystem.destination, absolute, absolute, start]
  induction limit generalizing p with
  | zero =>
    unfold followWithin
    rw [entries]
  | succ limit ih =>
    rw [followWithin, followWithin, entries]
    simp only [destination, ih]

namespace Leads

variable {fs : FileSystem} {limit : Nat} {p q t : Text} {node : Node} {r : Text × Node}

/-- A link takes one of the links that are left. -/
theorem behind (leads : fs.Leads limit p r) (found : fs.find? p = some node)
    (link : node.target = some t) : ∃ left, limit = left + 1 ∧
      fs.Leads left (fs.destination p t) r := by
  cases leads with
  | ends found' isEnd =>
    obtain rfl := Option.some.inj (found'.symm.trans found)
    rw [isEnd] at link
    cases link
  | along found' link' rest =>
    obtain rfl := Option.some.inj (found'.symm.trans found)
    obtain rfl := Option.some.inj (link'.symm.trans link)
    exact ⟨_, rfl, rest⟩

/-- What a bound lets a chain reach, a greater bound does. -/
theorem mono {n m : Nat} (leads : fs.Leads n p r) (le : n ≤ m) : fs.Leads m p r := by
  induction leads generalizing m with
  | ends found isEnd => exact .ends found isEnd
  | along found link _ ih =>
    obtain ⟨k, rfl⟩ : ∃ k, m = k + 1 := ⟨m - 1, by omega⟩
    exact .along found link (ih (Nat.le_of_succ_le_succ le))

/-- A chain that ends does so without an entry, or comes to the entry. -/
theorem erase (leads : fs.Leads limit p r) (q : Text) :
    (fs.erase q).Leads limit p r ∨ ∃ left, left ≤ limit ∧ fs.Leads left q r := by
  have kept {p : Text} (apart : p ≠ q) : (fs.erase q).find? p = fs.find? p := by
    rw [find?_erase, if_neg apart]
  induction leads with
  | @ends limit p node found isEnd =>
    by_cases same : p = q
    · exact .inr ⟨limit, Nat.le_refl _, same ▸ .ends found isEnd⟩
    · exact .inl (.ends ((kept same).trans found) isEnd)
  | @along limit p t node r found link rest ih =>
    by_cases same : p = q
    · exact .inr ⟨limit + 1, Nat.le_refl _, same ▸ .along found link rest⟩
    · rcases ih with without | ⟨left, within, through⟩
      · exact .inl (.along ((kept same).trans found) link without)
      · exact .inr ⟨left, Nat.le_succ_of_le within, through⟩

/-- A link that leads somewhere does so without coming back to itself. The induction is on the
bound: each return would leave a smaller one. -/
theorem erase_self (leads : fs.Leads (limit + 1) p r) (found : fs.find? p = some node)
    (link : node.target = some t) : (fs.erase p).Leads limit (fs.destination p t) r := by
  induction limit using Nat.strongRecOn with
  | ind limit ih =>
    obtain ⟨_, ⟨⟩, rest⟩ := leads.behind found link
    rcases rest.erase p with without | ⟨left, within, through⟩
    · exact without
    · -- The chain came back to `p` with fewer links left: it may as well have begun there.
      obtain ⟨left, rfl, -⟩ := through.behind found link
      exact (ih left within through).mono (Nat.le_of_succ_le within)

/-- An entry at a free path does not disturb a chain that ends. -/
theorem insert (leads : fs.Leads limit p r) (free : fs.find? q = none) (node : Node) :
    (fs.insert q node).Leads limit p r := by
  have kept {p : Text} {other : Node} (found : fs.find? p = some other) :
      (fs.insert q node).find? p = some other := by
    have apart : p ≠ q := fun same => by simp [← same, found] at free
    rw [find?_insert, if_neg apart, found]
  induction leads with
  | ends found isEnd => exact .ends (kept found) isEnd
  | along found link _ ih => exact .along (kept found) link ih

end Leads

/-! ## Moving an entry -/

/-- The file system with the entry at `source`, which is `node`, at `target` instead. -/
def moved (fs : FileSystem) (source target : Text) (node : Node) : FileSystem :=
  (fs.erase source).insert target node

theorem find?_moved (fs : FileSystem) (source target other : Text) (node : Node) :
    (fs.moved source target node).find? other =
      if other = target then some node else if other = source then none else fs.find? other := by
  rw [moved, find?_insert, find?_erase]

/-- Moving an entry to a free path and back gives the same entries. -/
theorem find?_moved_back {fs : FileSystem} {p q : Text} {node : Node}
    (found : fs.find? p = some node) (free : fs.find? q = none) (other : Text) :
    ((fs.moved p q node).moved q p node).find? other = fs.find? other := by
  rw [find?_moved, find?_moved]
  by_cases atP : other = p
  · rw [if_pos atP, atP, found]
  · rw [if_neg atP]
    by_cases atQ : other = q
    · rw [if_pos atQ, atQ, free]
    · rw [if_neg atQ, if_neg atQ, if_neg atP]

theorem Leads.moved {fs : FileSystem} {limit : Nat} {p q : Text} {node : Node} {r : Text × Node}
    (leads : fs.Leads limit p r) (found : fs.find? p = some node) (free : fs.find? q = none)
    (beside : Path.parent q = Path.parent p) :
    ∃ place, (fs.moved p q node).Leads limit q (place, r.2) := by
  have stands : (fs.moved p q node).find? q = some node := by simp [find?_moved]
  cases link : node.target with
  | none =>
    cases leads with
    | ends found' =>
      obtain rfl := Option.some.inj (found'.symm.trans found)
      exact ⟨q, .ends stands link⟩
    | along found' link' =>
      obtain rfl := Option.some.inj (found'.symm.trans found)
      cases link'.symm.trans link
  | some t =>
    obtain ⟨left, rfl, -⟩ := leads.behind found link
    have ahead : (fs.moved p q node).destination q t = fs.destination p t := by
      rw [FileSystem.destination, FileSystem.destination, beside]
      rfl
    have vacant : (fs.erase p).find? q = none := by
      rw [find?_erase]
      split
      · rfl
      · exact free
    have onward := (leads.erase_self found link).insert vacant node
    exact ⟨r.1, .along stands link (ahead ▸ onward)⟩

/-- The node at which a call that follows the links at a path ends. -/
def behind? (fs : FileSystem) (p : Text) : Option Node :=
  (fs.followWithin linkLimit p).toOption.map Prod.snd

theorem behind?_eq_some {fs : FileSystem} {p : Text} {node : Node} :
    fs.behind? p = some node ↔ ∃ place, fs.Leads linkLimit p (place, node) := by
  simp only [← followWithin_eq_ok_iff]
  unfold behind?
  cases reached : fs.followWithin linkLimit p with
  | error e => simp [Except.toOption]
  | ok r =>
    obtain ⟨place, other⟩ := r
    simp [Except.toOption]

theorem behind?_moved_of_eq_some {fs : FileSystem} {p q : Text} {node there : Node}
    (found : fs.find? p = some node) (free : fs.find? q = none)
    (beside : Path.parent q = Path.parent p) (reached : fs.behind? p = some there) :
    (fs.moved p q node).behind? q = some there := by
  obtain ⟨place, leads⟩ := behind?_eq_some.mp reached
  exact behind?_eq_some.mpr (leads.moved found free beside)

/-- The same node stands behind an entry before and after it moves within its directory. -/
theorem behind?_moved {fs : FileSystem} {p q : Text} {node : Node}
    (found : fs.find? p = some node) (free : fs.find? q = none)
    (beside : Path.parent q = Path.parent p) : (fs.moved p q node).behind? q = fs.behind? p := by
  have apart : p ≠ q := fun same => by simp [← same, found] at free
  cases before : fs.behind? p with
  | some there => exact behind?_moved_of_eq_some found free beside before
  | none =>
    cases after : (fs.moved p q node).behind? q with
    | none => rfl
    | some there =>
      -- Moving the entry back gives the same entries, so the old path would lead there too.
      have returned : ((fs.moved p q node).moved q p node).behind? p = some there :=
        behind?_moved_of_eq_some (by simp [find?_moved]) (by simp [find?_moved, apart])
          beside.symm after
      have entries := find?_moved_back found free
      rw [behind?, followWithin_congr entries rfl, ← behind?, before] at returned
      exact absurd returned (by simp)

/-! ## Queries without faults -/

/-- No call is made to fail. -/
def IsFaultFree (fs : FileSystem) : Prop := ∀ call path, fs.fault? call path = none

theorem attempt_of_fault? {fs : FileSystem} {call : Call} {path : Text}
    (passes : fs.fault? call path = none) (subject : Subject) :
    fs.attempt call path subject = .ok () := by
  rw [attempt, passes]

theorem attempt_of_isFaultFree {fs : FileSystem} (calm : fs.IsFaultFree) (call : Call)
    (path : Text) (subject : Subject) : fs.attempt call path subject = .ok () :=
  attempt_of_fault? (calm call path) subject

theorem fault?_congr {fs other : FileSystem} (same : other.faults = fs.faults) (call : Call)
    (path : Text) : other.fault? call path = fs.fault? call path := by
  rw [fault?, fault?, same]

theorem IsFaultFree.of_faults_eq {fs other : FileSystem} (calm : fs.IsFaultFree)
    (same : other.faults = fs.faults) : other.IsFaultFree :=
  fun call path => (fault?_congr same call path).trans (calm call path)

theorem isFaultFree_of_faults_eq_nil {fs : FileSystem} (none : fs.faults = []) :
    fs.IsFaultFree := by
  intro call path
  rw [fault?, none]
  rfl

theorem isFaultFree_moved {fs : FileSystem} (calm : fs.IsFaultFree) (p q : Text) (node : Node) :
    (fs.moved p q node).IsFaultFree :=
  calm.of_faults_eq rfl

theorem toOption_follow (fs : FileSystem) (call : Call) (p : Text) :
    (fs.follow call p).toOption.map Prod.snd = fs.behind? p := by
  unfold follow behind?
  cases fs.followWithin linkLimit p <;> rfl

/-- Not a definitional equation: rewriting with it leaves the steps around it unevaluated. -/
theorem ok_bind {α β : Type} (a : α) (next : α → Except SystemError β) :
    (Except.ok a >>= next) = next a := (rfl)

/-- A query that follows the links at a path and then looks at the node there. -/
theorem toOption_follow_bind {α : Type} (fs : FileSystem) (call : Call) (p : Text)
    (look : Node → Except SystemError α) :
    (fs.follow call p >>= fun place => look place.2).toOption =
      (fs.behind? p).bind fun node => (look node).toOption := by
  rw [← toOption_follow fs call p]
  cases fs.follow call p <;> rfl

/-- A query that looks at a place that has been reached and answers with a part of what it sees. -/
theorem toOption_bind_part {α β : Type} (reached : Except SystemError (Text × Node))
    (look : Node → Except SystemError α) (part : α → β) :
    (do
      let (_, node) ← reached
      let seen ← look node
      return part seen : Except SystemError β).toOption =
      (reached.toOption.map Prod.snd).bind fun node => (look node).toOption.map part := by
  cases reached with
  | error e => rfl
  | ok place =>
    obtain ⟨_, node⟩ := place
    rw [ok_bind]
    dsimp only [Except.toOption, Option.map_some, Option.bind_some]
    cases look node <;> rfl

/-- A query that follows the links at a path and then refuses some nodes. -/
theorem toBool_follow_guard (fs : FileSystem) (call : Call) (p : Text) (refused : Node → Prop)
    [DecidablePred refused] (e : SystemError) :
    (fs.follow call p >>= fun place =>
      if refused place.2 then .error e else .ok () : Except SystemError Unit).toBool =
      (fs.behind? p).any fun node => ¬ refused node := by
  rw [← toOption_follow fs call p]
  cases fs.follow call p with
  | error other => rfl
  | ok place =>
    by_cases closed : refused place.2
    · simp [bind, Except.bind, closed, Except.toBool, Except.toOption]
    · simp [bind, Except.bind, closed, Except.toBool, Except.toOption]

theorem toOption_stat {fs : FileSystem} (calm : fs.IsFaultFree) (p : Text) :
    (fs.stat p).toOption = fs.behind? p := by
  unfold stat
  rw [attempt_of_isFaultFree calm]
  refine (toOption_follow_bind fs .stat p .ok).trans ?_
  cases fs.behind? p <;> rfl

theorem toBool_access {fs : FileSystem} (calm : fs.IsFaultFree) (p : Text) :
    (fs.access p).toBool = (fs.behind? p).any fun node => Word32.land node.mode 0o111 ≠ 0 := by
  unfold access
  rw [attempt_of_isFaultFree calm]
  exact toBool_follow_guard fs .access p (fun node => Word32.land node.mode 0o111 = 0) _

theorem toOption_readFile {fs : FileSystem} (calm : fs.IsFaultFree) (p : Text) :
    (fs.readFile p).toOption = (fs.behind? p).bind fun node => (contentOf node).toOption := by
  unfold readFile
  rw [attempt_of_isFaultFree calm]
  exact toOption_follow_bind fs .readFile p contentOf

theorem toOption_readStart {fs : FileSystem} (calm : fs.IsFaultFree) (p : Text) (limit : Nat) :
    (fs.readStart p limit).toOption =
      (fs.behind? p).bind fun node => (contentOf node).toOption.map (List.take limit) := by
  unfold readStart
  rw [attempt_of_isFaultFree calm, attempt_of_isFaultFree calm]
  simp only [ok_bind]
  rw [← toOption_follow fs .openFile p]
  exact toOption_bind_part _ contentOf (List.take limit)

/-! ## Queries about an entry that has moved -/

section

variable {fs : FileSystem} {p q : Text} {node : Node}

/-- A move changes no answer to a query that follows links, whatever error a failing one gives. -/
theorem behind_queries_moved (calm : fs.IsFaultFree) (found : fs.find? p = some node)
    (free : fs.find? q = none) (beside : Path.parent q = Path.parent p) :
    ((fs.moved p q node).stat q).toOption = (fs.stat p).toOption ∧
      ((fs.moved p q node).access q).toBool = (fs.access p).toBool ∧
      ((fs.moved p q node).readFile q).toOption = (fs.readFile p).toOption ∧
      ∀ limit, ((fs.moved p q node).readStart q limit).toOption =
        (fs.readStart p limit).toOption := by
  have calm' := isFaultFree_moved calm p q node
  have same := behind?_moved found free beside
  refine ⟨?_, ?_, ?_, fun limit => ?_⟩
  · rw [toOption_stat calm', toOption_stat calm, same]
  · rw [toBool_access calm', toBool_access calm, same]
  · rw [toOption_readFile calm', toOption_readFile calm, same]
  · rw [toOption_readStart calm', toOption_readStart calm, same]

theorem lstat_of_find? (calm : fs.IsFaultFree) (found : fs.find? p = some node) :
    fs.lstat p = .ok node := by
  unfold lstat
  rw [attempt_of_isFaultFree calm, ok_bind, found]
  rfl

theorem find?_of_lstat (seen : fs.lstat p = .ok node) : fs.find? p = some node := by
  unfold lstat at seen
  cases tried : fs.attempt .lstat p (.file p) with
  | error e =>
    rw [tried] at seen
    exact absurd seen (by simp [bind, Except.bind])
  | ok _ =>
    rw [tried, ok_bind] at seen
    cases found : fs.find? p with
    | none =>
      rw [found] at seen
      exact absurd seen (by simp [throw, throwThe, MonadExceptOf.throw])
    | some other =>
      rw [found] at seen
      cases seen
      rfl

theorem lstatIfPresent_of_isFaultFree (calm : fs.IsFaultFree) (p : Text) :
    fs.lstatIfPresent p = .ok (fs.find? p) := by
  unfold lstatIfPresent lstat
  rw [attempt_of_isFaultFree calm, attempt_of_isFaultFree calm, ok_bind, ok_bind]
  cases fs.find? p <;> rfl

theorem lstatIfPresent_of_free (calm : fs.IsFaultFree) (free : fs.find? p = none) :
    fs.lstatIfPresent p = .ok none := by
  rw [lstatIfPresent_of_isFaultFree calm, free]

theorem rename_of_stands (passes : fs.fault? .rename p = none) (found : fs.find? p = some node) :
    fs.rename p q = .ok (fs.moved p q node) := by
  rw [rename, attempt_of_fault? passes, ok_bind, found]
  rfl

theorem rename_of_find? (calm : fs.IsFaultFree) (found : fs.find? p = some node) :
    fs.rename p q = .ok (fs.moved p q node) :=
  rename_of_stands (calm .rename p) found

end

end FileSystem

end FileProfile
