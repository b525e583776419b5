import FileProfile.Settings.Config
import Mathlib.Data.List.Basic

/-!
What an accepted configuration says.

A reader of several parts accepts them exactly if it accepts each. So the overrides of a
configuration that has been read are suffixes with type names (`isSuffix_of_read`,
`isTypeName_of_read`).
-/

namespace FileProfile

theorem map_eq_ok {ε α β : Type} {f : α → β} {a : Except ε α} {y : β} :
    a.map f = .ok y ↔ ∃ x, a = .ok x ∧ f x = y := by
  cases a <;> simp [Except.map]

namespace Checked

variable {α β : Type}

theorem both_eq_ok {a : Checked α} {b : Checked β} {x : α} {y : β} :
    both a b = .ok (x, y) ↔ a = .ok x ∧ b = .ok y := by
  cases a with
  | error found => exact ⟨nofun, nofun⟩
  | ok x' =>
    cases b with
    | error found => exact ⟨nofun, nofun⟩
    | ok y' => simp [both]

theorem require_eq_ok {path : List Text} {message : Text} {holds : α → Bool} {a : Checked α}
    {x : α} : a.require path message holds = .ok x ↔ a = .ok x ∧ holds x = true := by
  cases a with
  | error found => exact ⟨nofun, nofun⟩
  | ok x' =>
    rw [require]
    split
    · next fits =>
      constructor
      · rintro ⟨⟩
        exact ⟨rfl, fits⟩
      · rintro ⟨⟨⟩, -⟩
        rfl
    · next misfits =>
      refine ⟨nofun, ?_⟩
      rintro ⟨⟨⟩, fits⟩
      exact absurd fits misfits

/-- Every value that is read comes from a part that is accepted. -/
theorem mem_of_all {cs : List (Checked α)} {xs : List α} (accepted : all cs = .ok xs) {x : α}
    (among : x ∈ xs) : .ok x ∈ cs := by
  induction cs generalizing xs with
  | nil =>
    cases accepted
    exact absurd among List.not_mem_nil
  | cons c rest ih =>
    obtain ⟨⟨y, ys⟩, parts, rfl⟩ := map_eq_ok.mp accepted
    obtain ⟨first, later⟩ := both_eq_ok.mp parts
    rcases List.mem_cons.mp among with rfl | among
    · rw [first]
      exact List.mem_cons_self
    · exact List.mem_cons_of_mem _ (ih later among)

end Checked

namespace Document

open Checked (both_eq_ok mem_of_all)

/-- An entry of a table that is accepted has an accepted key and an accepted value. -/
theorem accepted_of_asTable {α : Type} {key : List Text → Text → Checked Text}
    {value : List Text → Document → Checked α} {path : List Text} {d : Document}
    {table : Table α} (accepted : asTable key value path d = .ok table) {k : Text} {x : α}
    (among : (k, x) ∈ table) :
    ∃ place k' d', key place k' = .ok k ∧ value place d' = .ok x := by
  cases d with
  | record fields =>
    obtain ⟨entries, reads, rfl⟩ := map_eq_ok.mp accepted
    obtain ⟨⟨k', d'⟩, -, entry⟩ :=
      List.mem_map.mp (mem_of_all reads (List.mem_of_mem_filter among))
    exact ⟨path ++ [k'], k', d', both_eq_ok.mp entry⟩
  | _ => cases accepted

theorem accepted_of_optionalField {α : Type} {read : List Text → Document → Checked α}
    {path : List Text} {fields : List (Text × Document)} {key : Text} {x : α}
    (accepted : optionalField read path fields key = .ok (some x)) :
    ∃ d, read (path ++ [key]) d = .ok x := by
  unfold optionalField at accepted
  split at accepted
  · cases accepted
  · next d _ =>
    obtain ⟨x', reads, same⟩ := map_eq_ok.mp accepted
    cases same
    exact ⟨d, reads⟩

end Document

namespace Config

open Checked (both_eq_ok require_eq_ok)

theorem accepted_of_read {document : Document} {config : Config}
    (accepted : read document = .ok config) {table : Table Text}
    (given : config.mimeOverrides = some table) :
    ∃ path d, Document.asTable asSuffix asTypeName path d = .ok table := by
  unfold read at accepted
  split at accepted
  · cases accepted
  · next fields _ =>
    obtain ⟨⟨locales, terminal, display, logLevel, mimeOverrides, known⟩, parts, rfl⟩ :=
      map_eq_ok.mp accepted
    simp only [both_eq_ok] at parts
    obtain ⟨-, -, -, -, overrides, -⟩ := parts
    cases given
    obtain ⟨d, reads⟩ := Document.accepted_of_optionalField overrides
    exact ⟨_, d, reads⟩

section

variable {document : Document} {config : Config} {table : Table Text} {suffix type : Text}
  (accepted : read document = .ok config) (given : config.mimeOverrides = some table)
  (among : (suffix, type) ∈ table)

include accepted given among

theorem isSuffix_of_read : isSuffix suffix = true := by
  obtain ⟨path, d, reads⟩ := accepted_of_read accepted given
  obtain ⟨place, key, value, keyed, -⟩ := Document.accepted_of_asTable reads among
  unfold asSuffix at keyed
  split at keyed
  · next fits =>
    cases keyed
    exact fits
  · cases keyed

theorem isTypeName_of_read : isTypeName type = true := by
  obtain ⟨path, d, reads⟩ := accepted_of_read accepted given
  obtain ⟨place, key, value, -, valued⟩ := Document.accepted_of_asTable reads among
  exact (require_eq_ok.mp valued).2

end

theorem ne_nil_of_isTypeName {type : Text} (named : isTypeName type = true) : type ≠ [] := by
  rintro rfl
  cases named

end Config

end FileProfile
