import FileProfile.Proofs.Session.Alterations
import FileProfile.Report

/-!
The handles in the custody of descriptors.

A caller owns the references to handles that it has looked up or taken, until it gives them up or
passes them on to a descriptor. `Session.Entrusted` follows a run in which no request uses up a
reference that its caller does not own. All references are then accounted for
(`Entrusted.ledger`): a handle is referenced once for each descriptor that has not been released and
whose type it is, and once for each reference that callers own. So a descriptor that is used can
always give up its handle, and it does so once, when it gets another or is released
(`Session.Serves`). A descriptor that has been released refuses everything, and nothing happens
(`Session.Inert`). Both are put together in `custody_of_run`.
-/

namespace FileProfile

namespace Session

/-! ## What callers own -/

/-- The handle of which a request uses up a reference of its caller's. -/
def Request.offered? : Request → Option HandleId
  | .unrefType h => some h
  | .apply _ change => change.contentType
  | _ => none

/-- The handle to which a request that is answered hands its caller a reference. -/
def handed? (s : Session) : Request → Option HandleId
  | .lookupType name => ((Action.lookupType name).runOn s).1.toOption
  | .lookupForFile path displayName => ((Action.lookupForFile path displayName).runOn s).1.toOption
  | .refType h => some h
  | _ => none

/-- The references that callers own after a request. One that fails leaves them what they had. -/
def ownAfter (s : Session) (r : Request) (own : List HandleId) : List HandleId :=
  match s.failure? r with
  | some _ => own
  | none => (s.handed? r).toList ++ r.offered?.elim own own.erase

/-- The session comes about by requests that use up no reference but those of their callers, the
files changing under them, and `own` are the references that callers own, once for each. -/
inductive Entrusted : Session → List HandleId → Prop where
  | start (files : FileSystem) (extensions : Table Text) (rules : Rules) (overrides : Table Text) :
      Entrusted { files, types := .new extensions rules overrides } []
  | ask {s : Session} {own : List HandleId} (r : Request) : Entrusted s own → s.CanAsk r →
      (∀ h, r.offered? = some h → h ∈ own) → Entrusted (s.after r) (s.ownAfter r own)
  | touch {s : Session} {own : List HandleId} (files : FileSystem) : Entrusted s own →
      Entrusted { s with files } own

variable {s t : Session} {own : List HandleId} {d : DescriptorId} {x : Descriptor} {h : HandleId}
  {r : Request}

theorem Entrusted.reachable (run : s.Entrusted own) : s.Reachable := by
  induction run with
  | start files extensions rules overrides => exact .start files extensions rules overrides
  | ask r _ can _ ih => exact .ask r ih can
  | touch files _ ih => exact .touch files ih

theorem ownAfter_of_error {e : Failure} (fails : s.failure? r = some e) :
    s.ownAfter r own = own := by
  rw [ownAfter, fails]

theorem ownAfter_of_handed (answers : s.failure? r = none) (handed : s.handed? r = some h)
    (keeps : r.offered? = none) : s.ownAfter r own = h :: own := by
  rw [ownAfter, answers, handed, keeps]
  rfl

theorem ownAfter_of_offered (answers : s.failure? r = none) (handed : s.handed? r = none)
    (offers : r.offered? = some h) : s.ownAfter r own = own.erase h := by
  rw [ownAfter, answers, handed, offers]
  rfl

/-- A request that neither hands out nor uses up a reference leaves callers what they own. -/
theorem ownAfter_eq_self (handed : s.handed? r = none) (offers : r.offered? = none) :
    s.ownAfter r own = own := by
  unfold ownAfter
  split
  · rfl
  · rw [handed, offers]
    rfl

/-- A request that neither hands out nor uses up a reference may be made by anyone. -/
theorem Entrusted.ask_any (run : s.Entrusted own) (can : s.CanAsk r) (handed : s.handed? r = none)
    (offers : r.offered? = none) : (s.after r).Entrusted own := by
  have step := Entrusted.ask r run can fun h offered => by
    rw [offers] at offered
    cases offered
  rwa [ownAfter_eq_self handed offers] at step

/-! ## The accounts of what callers own -/

theorem count_cons_own (h k : HandleId) (own : List HandleId) :
    ((h :: own).count k : Int) = own.count k + if k = h then 1 else 0 := by
  rw [List.count_cons]
  by_cases same : h = k
  · simp [same]
  · simp [same, Ne.symm same]

namespace Ledger

/-- A reference that callers own may be looked at as the first of them. -/
theorem first (ledger : s.Ledger own) (among : h ∈ own) : s.Ledger (h :: own.erase h) := by
  have same := List.perm_cons_erase among
  exact ledger.exchange rfl rfl (by rw [same.length_eq]) fun k => by rw [same.count_eq]

theorem owned (ledger : s.Ledger own) (among : h ∈ own) : 0 < s.types.referencesOf h := by
  have counted := List.count_pos_iff.mpr among
  rw [ledger.referencesOf]
  omega

/-- A caller gets a reference to a handle. -/
theorem take (ledger : s.Ledger own) (descriptors : t.descriptors = s.descriptors)
    (isShut : t.types.isShut = s.types.isShut)
    (references : t.types.references = s.types.references + 1)
    (referencesOf : ∀ k, t.types.referencesOf k =
      s.types.referencesOf k + if k = h then 1 else 0) : t.Ledger (h :: own) := by
  refine ledger.exchange descriptors isShut ?_ fun k => ?_
  · rw [references, List.length_cons, Int.natCast_succ]
    omega
  · rw [referencesOf, count_cons_own]
    omega

/-- A caller gives up one of its references to a handle. -/
theorem give (ledger : s.Ledger own) (among : h ∈ own) (descriptors : t.descriptors = s.descriptors)
    (dropped : TypeStore.Dropped s.types h t.types) : t.Ledger (own.erase h) := by
  refine (ledger.first among).exchange descriptors dropped.isShut ?_ fun k => ?_
  · rw [dropped.references, List.length_cons, Int.natCast_succ]
    omega
  · rw [dropped.referencesOf, count_cons_own]
    omega

/-- A descriptor takes over a reference of a caller's, and gives up the one that it had. -/
theorem pass (ledger : s.Ledger own) (found : s.descriptors[d]? = some x) (living : x.isAlive)
    {y : Descriptor} (among : y.contentType ∈ own)
    (descriptors : t.descriptors = s.descriptors.set d y) (living' : y.isAlive)
    (dropped : TypeStore.Dropped s.types x.contentType t.types) :
    t.Ledger (own.erase y.contentType) := by
  have positive := of_decide_eq_true living'
  refine (ledger.first among).set found descriptors (Int.le_of_lt positive) dropped.isShut ?_
    fun k => ?_
  · rw [dropped.references, List.length_cons, Int.natCast_succ,
      Descriptor.weight_of_isAlive living, Descriptor.weight_of_isAlive living']
    omega
  · rw [dropped.referencesOf, count_cons_own, Descriptor.weightOn_of_isAlive living,
      Descriptor.weightOn_of_isAlive living']
    omega

/-! ## Requests to the store -/

/-- A request that fails and does nothing leaves the accounts as they were. -/
theorem after_of_error (ledger : s.Ledger own) {e : Failure} (fails : s.failure? r = some e)
    (same : s.after r = s) : (s.after r).Ledger (s.ownAfter r own) := by
  rw [same, ownAfter_of_error fails]
  exact ledger

/-- A reference that a lookup gives out is its caller's. -/
theorem after_of_took (ledger : s.Ledger own) {type : TypeName} {types : TypeStore}
    {log : List LogEntry} (leaves : s.after r = { s with types, log })
    (answers : s.failure? r = none) (handed : s.handed? r = some h) (keeps : r.offered? = none)
    (took : TypeStore.Took s.types type h types) : (s.after r).Ledger (s.ownAfter r own) := by
  rw [leaves, ownAfter_of_handed answers handed keeps]
  exact ledger.take rfl took.isShut took.references took.referencesOf

theorem after_lookupType (ledger : s.Ledger own) (sound : s.types.Sound) (name : TypeName) :
    (s.after (.lookupType name)).Ledger (s.ownAfter (.lookupType name) own) := by
  rcases Action.lookupType_cases sound name with ⟨_, h, types, run, took⟩ | ⟨e, run⟩
  · exact ledger.after_of_took (congrArg Prod.snd run) (Action.failure?_ok run)
      (congrArg (fun run => run.1.toOption) run) rfl took
  · exact ledger.after_of_error (Action.failure?_error run) (congrArg Prod.snd run)

theorem after_lookupForFile (ledger : s.Ledger own) (sound : s.types.Sound)
    (path displayName : Text) : (s.after (.lookupForFile path displayName)).Ledger
      (s.ownAfter (.lookupForFile path displayName) own) := by
  rcases Action.lookupForFile_cases sound path displayName with
    ⟨_, h, types, log, run, took⟩ | ⟨e, run⟩
  · exact ledger.after_of_took (congrArg Prod.snd run) (Action.failure?_ok run)
      (congrArg (fun run => run.1.toOption) run) rfl took
  · exact ledger.after_of_error (Action.failure?_error run) (congrArg Prod.snd run)

theorem after_refType (ledger : s.Ledger own) (inside : h < s.types.handles.length) :
    (s.after (.refType h)).Ledger (s.ownAfter (.refType h) own) := by
  cases taken : s.types.ref h with
  | error e =>
    have run := Action.runOn_refType_error taken
    exact ledger.after_of_error (Action.failure?_error run) (congrArg Prod.snd run)
  | ok types =>
    have run := Action.runOn_refType taken
    obtain rfl : types = s.types.taking h := TypeStore.eq_taking_of_ref taken
    have leaves : s.after (.refType h) = { s with types := s.types.taking h } :=
      congrArg Prod.snd run
    have owns : s.ownAfter (.refType h) own = h :: own :=
      ownAfter_of_handed (Action.failure?_ok run) rfl rfl
    rw [leaves, owns]
    exact ledger.take rfl rfl rfl (TypeStore.referencesOf_taking inside)

theorem after_unrefType (ledger : s.Ledger own) (sound : s.types.Sound) (among : h ∈ own) :
    (s.after (.unrefType h)).Ledger (s.ownAfter (.unrefType h) own) := by
  obtain ⟨types, log, run, dropped⟩ := Action.runOn_unrefType sound (ledger.owned among)
  have leaves : s.after (.unrefType h) = { s with types, log } := congrArg Prod.snd run
  have owns : s.ownAfter (.unrefType h) own = own.erase h :=
    ownAfter_of_offered (Action.failure?_ok run) rfl rfl
  rw [leaves, owns]
  exact ledger.give among rfl dropped

/-! ## Requests on descriptors -/

theorem after_create (ledger : s.Ledger own) (sound : s.types.Sound) (identity : Identity)
    (kind : FileKind) (attributes : Attributes) (flags : Int) (type : TypeName)
    (hints : Option Hints) :
    (s.after (.create identity kind attributes flags type hints)).Ledger own := by
  show ((create identity kind attributes flags type hints).runOn s).2.Ledger own
  unfold create
  rcases Action.lookupType_cases sound type with ⟨_, h, types, run, took⟩ | ⟨e, fails⟩
  · rw [Action.runOn_bind_ok run]
    exact ledger.append_living rfl rfl took
  · rw [Action.runOn_bind_error fails]
    exact ledger

theorem after_apply (ledger : s.Ledger own) (sound : s.types.Sound) (d : DescriptorId)
    {change : DescriptorChange} (entitled : ∀ h, change.contentType = some h → h ∈ own) :
    (s.after (.apply d change)).Ledger (s.ownAfter (.apply d change) own) := by
  rcases Action.alive_or_gone s d with ⟨x, found, living⟩ | gone
  · cases replacing : change.contentType with
    | none =>
      have run := Action.runOn_apply_keeping found living replacing
      have leaves : s.after (.apply d change) =
          { s with descriptors := s.descriptors.modify d change.applied } := congrArg Prod.snd run
      have same : (change.applied x).contentType = x.contentType :=
        congrArg (fun h : Option HandleId => h.getD x.contentType) replacing
      have owns : s.ownAfter (.apply d change) own = own := ownAfter_eq_self rfl replacing
      rw [leaves, owns]
      exact ledger.set_living found living (Action.modify_eq_set found _) living same rfl
    | some h =>
      obtain ⟨types, log, run, dropped⟩ :=
        Action.runOn_apply_replacing sound found living replacing (ledger.held found living)
      have leaves : s.after (.apply d change) =
          { s with types, descriptors := s.descriptors.modify d change.applied, log } :=
        congrArg Prod.snd run
      have taken : (change.applied x).contentType = h :=
        congrArg (fun h : Option HandleId => h.getD x.contentType) replacing
      have owns : s.ownAfter (.apply d change) own = own.erase h :=
        ownAfter_of_offered (Action.failure?_ok run) rfl replacing
      rw [leaves, owns, ← taken]
      exact ledger.pass found living (taken ▸ entitled h replacing)
        (Action.modify_eq_set found _) living dropped
  · have run : (Action.apply d change).runOn s = (.error Action.released, s) :=
      Action.runOn_bind_error (Action.runOn_alive_released gone)
    exact ledger.after_of_error (Action.failure?_error run) (congrArg Prod.snd run)

/-- Every request that its caller is entitled to keeps the accounts. -/
theorem after (ledger : s.Ledger own) (sound : s.types.Sound) (can : s.CanAsk r)
    (entitled : ∀ h, r.offered? = some h → h ∈ own) : (s.after r).Ledger (s.ownAfter r own) := by
  have onDescriptors : r.isOnDescriptors → s.handed? r = none → r.offered? = none →
      (s.after r).Ledger (s.ownAfter r own) := fun allowed handed offers => by
    rw [ownAfter_eq_self handed offers]
    exact ledger.after_onDescriptors sound allowed
  cases r with
  | lookupType name => exact ledger.after_lookupType sound name
  | lookupForFile path displayName => exact ledger.after_lookupForFile sound path displayName
  | refType h => exact ledger.after_refType (can h rfl)
  | unrefType h => exact ledger.after_unrefType sound (entitled h rfl)
  | create identity kind attributes flags type hints =>
    rw [ownAfter_eq_self rfl rfl]
    exact ledger.after_create sound identity kind attributes flags type hints
  | apply d change => exact ledger.after_apply sound d entitled
  | shutdownTypes => exact onDescriptors rfl rfl rfl
  | resolve path context => exact onDescriptors rfl rfl rfl
  | refresh d context => exact onDescriptors rfl rfl rfl
  | rename d name context => exact onDescriptors rfl rfl rfl
  | plan d targets context => exact onDescriptors rfl rfl rfl
  | ref d => exact onDescriptors rfl rfl rfl
  | unref d => exact onDescriptors rfl rfl rfl

end Ledger

theorem Entrusted.ledger (run : s.Entrusted own) : s.Ledger own := by
  induction run with
  | start files extensions rules overrides =>
    exact ⟨fun x among => absurd among List.not_mem_nil, rfl, fun h => rfl⟩
  | ask r run can entitled ih => exact ih.after run.reachable.sound can entitled
  | touch files _ ih => exact ⟨ih.nonneg, ih.references, ih.referencesOf⟩

end Session

end FileProfile
