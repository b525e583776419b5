import FileProfile.Launch.Quoted
import FileProfile.Proofs.Launch.Words

/-!
What is read back of the quoted form of a word.

The quoted form puts each run of single quotes into a double quotation of its own. Where that closes
the scanner resolves the escapes of the whole word read so far, so backslashes in front of a single
quote may be lost. `Reading` follows what has been read: `survivor` is the word that
`leads_word` finds at the end. It is the word itself exactly if no backslash stands before another
one or a double quote anywhere in front of a single quote (`survivor_eq_self_iff`).
-/

namespace FileProfile

namespace Quoted

open Words (Scanner backslash singleQuote doubleQuote resolveDoubled HasEscape IsEscaped)
open Words.Scanner (Leads)

/-! ## Readings -/

/-- What has been read of a quoted word: the units, and whether the last ones are a run of single
quotes whose quotation is still open. -/
structure Reading where
  inRun : Bool
  word : Text

namespace Reading

/-- The word once an open run is closed. -/
def settled (r : Reading) : Text := if r.inRun then resolveDoubled r.word else r.word

/-- Reads one more unit of the word. -/
def next (r : Reading) (u : CodeUnit) : Reading :=
  if u = singleQuote then ⟨true, r.word ++ [u]⟩ else ⟨false, r.settled ++ [u]⟩

/-- Reads more of the word. -/
def after (r : Reading) (t : Text) : Reading := t.foldl next r

/-- The mark of the quotation that is open. -/
def mark (r : Reading) : CodeUnit := if r.inRun then doubleQuote else singleQuote

/-- Where the scanner stands. -/
def scanner (r : Reading) : Scanner := .inside r.mark r.word

theorem next_quote (r : Reading) : r.next singleQuote = ⟨true, r.word ++ [singleQuote]⟩ :=
  if_pos rfl

theorem next_other (r : Reading) {u : CodeUnit} (other : u ≠ singleQuote) :
    r.next u = ⟨false, r.settled ++ [u]⟩ :=
  if_neg other

theorem after_cons (r : Reading) (u : CodeUnit) (t : Text) :
    r.after (u :: t) = (r.next u).after t := rfl

theorem inRun_next (r : Reading) (u : CodeUnit) :
    (r.next u).inRun = decide (u = singleQuote) := by
  by_cases quote : u = singleQuote
  · rw [quote, next_quote]
    rfl
  · rw [next_other r quote, decide_eq_false quote]

theorem length_settled_le (r : Reading) : r.settled.length ≤ r.word.length := by
  unfold settled
  split
  · exact Words.length_resolveDoubled_le r.word
  · exact Nat.le_refl _

theorem mark_quotes (r : Reading) : r.mark = singleQuote ∨ r.mark = doubleQuote := by
  unfold mark
  split
  · exact .inr rfl
  · exact .inl rfl

/-- Closing the open quotation gives the settled word. -/
theorem leads_close (r : Reading) : r.scanner.Leads [r.mark] (.outside (some r.settled)) := by
  have closed : (if r.mark = doubleQuote then resolveDoubled r.word else r.word) = r.settled := by
    unfold mark settled
    cases r.inRun with
    | true => rfl
    | false => rfl
  have closes := Scanner.leads_close r.mark_quotes r.word
  rwa [closed] at closes

end Reading

/-! ## The inside of the quotation -/

/-- What one unit adds to the inside of the quotation. -/
def written (inRun : Bool) (u : CodeUnit) : Text :=
  if u = singleQuote then (if inRun then [u] else [singleQuote, doubleQuote, u])
  else if inRun then [doubleQuote, singleQuote, u] else [u]

/-- What closes a run at the end of the inside. -/
def reopening (inRun : Bool) : Text := if inRun then [doubleQuote, singleQuote] else []

theorem inner_nil (inRun : Bool) : inner inRun [] = reopening inRun := by
  rw [inner, reopening]

theorem inner_cons (inRun : Bool) (u : CodeUnit) (t : Text) :
    inner inRun (u :: t) = written inRun u ++ inner (decide (u = singleQuote)) t := by
  by_cases quote : u = singleQuote
  · cases inRun <;> simp [inner, written, quote]
  · cases inRun <;> simp [inner, written, quote]

theorem getLast?_written (inRun : Bool) (u : CodeUnit) : (written inRun u).getLast? = some u := by
  unfold written
  split <;> split <;> rfl

theorem leads_keep_quote (word : Text) : (Scanner.inside doubleQuote word).Leads [singleQuote]
    (.inside doubleQuote (word ++ [singleQuote])) :=
  Scanner.leads_within (by decide) (fun _ => by decide) word

theorem leads_keep_other {u : CodeUnit} (other : u ≠ singleQuote) (word : Text) :
    (Scanner.inside singleQuote word).Leads [u] (.inside singleQuote (word ++ [u])) :=
  Scanner.leads_within other (fun same => absurd same (by decide)) word

theorem leads_open_double (word : Option Text) :
    (Scanner.outside word).Leads [doubleQuote] (.inside doubleQuote (word.getD [])) :=
  Scanner.leads_open (.inr rfl) word

theorem leads_open_single (word : Option Text) :
    (Scanner.outside word).Leads [singleQuote] (.inside singleQuote (word.getD [])) :=
  Scanner.leads_open (.inl rfl) word

theorem leads_written (r : Reading) (u : CodeUnit) :
    r.scanner.Leads (written r.inRun u) (r.next u).scanner := by
  obtain ⟨inRun, word⟩ := r
  have closes := (Reading.mk inRun word).leads_close
  unfold written
  by_cases quote : u = singleQuote
  · subst quote
    rw [Reading.next_quote, if_pos rfl]
    cases inRun with
    | true => exact leads_keep_quote word
    | false => exact (closes.trans (leads_open_double _)).trans (leads_keep_quote word)
  · rw [Reading.next_other _ quote, if_neg quote]
    cases inRun with
    | true => exact (closes.trans (leads_open_single _)).trans (leads_keep_other quote _)
    | false => exact leads_keep_other quote word

/-- The inside of a quotation is what leads to the end of the word, and what closes a run there. A
run is open there where a single quote comes last, `u` being the unit before the word. -/
theorem exists_inner_eq (t : Text) {r : Reading} {u : CodeUnit}
    (last : r.inRun = decide (u = singleQuote)) :
    ∃ body, inner r.inRun t = body ++ reopening (r.after t).inRun ∧
      r.scanner.Leads body (r.after t).scanner ∧
      (body.getLast?.or (some u) = some singleQuote → (r.after t).inRun = true) := by
  induction t generalizing r u with
  | nil =>
    refine ⟨[], inner_nil r.inRun, Leads.refl _, fun quote => ?_⟩
    show r.inRun = true
    rw [last, decide_eq_true_iff]
    exact Option.some.inj quote
  | cons v t ih =>
    obtain ⟨body, shape, leads, ends⟩ := ih (r.inRun_next v)
    rw [r.inRun_next v] at shape
    refine ⟨written r.inRun v ++ body, ?_, (leads_written r v).trans leads, fun quote => ?_⟩
    · rw [inner_cons, shape, List.append_assoc]
      rfl
    · rw [List.getLast?_append, getLast?_written, Option.or_assoc] at quote
      exact ends quote

/-! ## The quoted form -/

theorem dropEmptyStart_quotes (t : Text) :
    dropEmptyStart (singleQuote :: singleQuote :: t) = t := by
  rw [dropEmptyStart, if_pos]
  · rfl
  · simp [emptyQuotation]

theorem dropEmptyStart_other {u : CodeUnit} (other : u ≠ singleQuote) (t : Text) :
    dropEmptyStart (singleQuote :: u :: t) = singleQuote :: u :: t := by
  rw [dropEmptyStart, if_neg]
  have apart : singleQuote ≠ u := other.symm
  simp [emptyQuotation, apart]

theorem dropEmptyEnd_quotes (t : Text) : dropEmptyEnd (t ++ [singleQuote, singleQuote]) = t := by
  rw [dropEmptyEnd, List.reverse_append]
  show (dropEmptyStart (singleQuote :: singleQuote :: t.reverse)).reverse = t
  rw [dropEmptyStart_quotes, List.reverse_reverse]

theorem dropEmptyEnd_other {t : Text} {u : CodeUnit} (ends : t.getLast? = some u)
    (other : u ≠ singleQuote) : dropEmptyEnd (t ++ [singleQuote]) = t ++ [singleQuote] := by
  obtain ⟨front, rfl⟩ := List.getLast?_eq_some_iff.mp ends
  rw [dropEmptyEnd, List.append_assoc, List.reverse_append]
  show (dropEmptyStart (singleQuote :: u :: front.reverse)).reverse = _
  rw [dropEmptyStart_other other]
  simp

/-- How the quotation of a word begins, `u` being the first unit. -/
def start (u : CodeUnit) : Text :=
  if u = singleQuote then [doubleQuote, u] else [singleQuote, u]

theorem getLast?_start (u : CodeUnit) : (start u).getLast? = some u := by
  unfold start
  split <;> rfl

theorem dropEmptyStart_inner (u : CodeUnit) (t : Text) :
    dropEmptyStart (singleQuote :: inner false (u :: t) ++ [singleQuote]) =
      start u ++ (inner (decide (u = singleQuote)) t ++ [singleQuote]) := by
  rw [inner_cons]
  unfold written start
  by_cases quote : u = singleQuote
  · rw [if_pos quote, if_pos quote]
    exact dropEmptyStart_quotes _
  · rw [if_neg quote, if_neg quote]
    exact dropEmptyStart_other quote _

theorem leads_start (u : CodeUnit) :
    (Scanner.outside none).Leads (start u) ((Reading.mk false []).next u).scanner := by
  unfold start
  by_cases quote : u = singleQuote
  · subst quote
    rw [if_pos rfl, Reading.next_quote]
    exact (leads_open_double none).trans (leads_keep_quote [])
  · rw [if_neg quote, Reading.next_other _ quote]
    exact (leads_open_single none).trans (leads_keep_other quote [])

/-- The quoted form of a word that is not plain leads to its last quotation, which it closes. -/
theorem exists_word_eq {u : CodeUnit} {t : Text} (special : (u :: t).all isPlain = false) :
    ∃ body, word (u :: t) = body ++ [(Reading.after ⟨false, []⟩ (u :: t)).mark] ∧
      (Scanner.outside none).Leads body (Reading.after ⟨false, []⟩ (u :: t)).scanner := by
  have first := (Reading.mk false []).inRun_next u
  obtain ⟨rest, shape, leads, ends⟩ := exists_inner_eq t first
  rw [first, ← Reading.after_cons] at shape
  rw [← Reading.after_cons] at leads ends
  refine ⟨start u ++ rest, ?_, (leads_start u).trans leads⟩
  have quoted : word (u :: t) =
      dropEmptyEnd (start u ++ (inner (decide (u = singleQuote)) t ++ [singleQuote])) := by
    rw [word, if_neg (by simp), if_neg (by simp [special]), dropEmptyStart_inner]
  rw [quoted, shape]
  unfold reopening Reading.mark
  -- An open run leaves an empty quotation at the end, which is dropped; else there is none to drop.
  by_cases run : (Reading.after ⟨false, []⟩ (u :: t)).inRun = true
  · have shift : start u ++ (rest ++ [doubleQuote, singleQuote] ++ [singleQuote]) =
        start u ++ rest ++ [doubleQuote] ++ [singleQuote, singleQuote] := by
      simp
    rw [if_pos run, if_pos run, shift, dropEmptyEnd_quotes]
  · have shift : start u ++ (rest ++ [] ++ [singleQuote]) = start u ++ rest ++ [singleQuote] := by
      simp
    have last : (start u ++ rest).getLast? = rest.getLast?.or (some u) := by
      rw [List.getLast?_append, getLast?_start]
    obtain ⟨v, told⟩ : ∃ v, rest.getLast?.or (some u) = some v := by
      cases rest.getLast? with
      | none => exact ⟨u, rfl⟩
      | some v => exact ⟨v, rfl⟩
    rw [if_neg run, if_neg run, shift, dropEmptyEnd_other (last.trans told)]
    rintro rfl
    exact run (ends told)

/-- The word that is read back of a quoted one. -/
def survivor (w : Text) : Text := (Reading.after ⟨false, []⟩ w).settled

theorem isPlain_of_isPlain {u : CodeUnit} (plain : isPlain u = true) : Scanner.IsPlain u := by
  refine ⟨?_, ?_, ?_, ?_, ?_⟩
  · rintro rfl
    exact absurd plain (by decide)
  · rintro rfl
    exact absurd plain (by decide)
  · rintro rfl
    exact absurd plain (by decide)
  · rintro rfl
    exact absurd plain (by decide)
  · rw [Bool.eq_false_iff]
    intro separates
    simp only [Words.isSeparator, Bool.or_eq_true, decide_eq_true_eq] at separates
    rcases separates with ((rfl | rfl) | rfl) | rfl <;> exact absurd plain (by decide)

theorem after_of_not_mem {t : Text} (none : singleQuote ∉ t) (read : Text) :
    (Reading.mk false read).after t = ⟨false, read ++ t⟩ := by
  induction t generalizing read with
  | nil => rw [List.append_nil]; rfl
  | cons u t ih =>
    rw [List.mem_cons, not_or] at none
    rw [Reading.after_cons, Reading.next_other _ (Ne.symm none.1), ih none.2]
    simp [Reading.settled]

/-- The quoted form of a word is read back as the survivor. -/
theorem leads_word (w : Text) :
    (Scanner.outside none).Leads (word w) (.outside (some (survivor w))) := by
  cases w with
  | nil => exact (leads_open_single none).trans (Reading.mk false []).leads_close
  | cons u t =>
    by_cases plain : (u :: t).all isPlain = true
    · have units : ∀ v ∈ u :: t, Scanner.IsPlain v := fun v within =>
        isPlain_of_isPlain (List.all_eq_true.mp plain v within)
      have behind : ∀ v ∈ t, Scanner.IsPlain v := fun v within =>
        units v (List.mem_cons_of_mem _ within)
      have none : singleQuote ∉ u :: t := fun within => (units _ within).2.1 rfl
      have first := Scanner.leads_plain_unit (units u List.mem_cons_self) Option.none
      have others := Scanner.leads_plain behind [u]
      rw [word, if_neg (by simp), if_pos plain, survivor, after_of_not_mem none]
      exact first.trans others
    · obtain ⟨body, shape, leads⟩ := exists_word_eq (Bool.eq_false_iff.mpr plain)
      rw [shape]
      exact leads.trans (Reading.leads_close _)

/-! ## Words that survive -/

/-- No backslash stands before another one or a double quote anywhere in front of a single quote. -/
def Survives (w : Text) : Prop :=
  ∀ front u back, w = front ++ backslash :: u :: back → IsEscaped u → singleQuote ∉ back

/-- What has been read of a word that loses nothing. -/
def Reading.whole (read : Text) : Reading := ⟨decide (read.getLast? = some singleQuote), read⟩

theorem settled_whole {read more : Text} (survives : Survives (read ++ more)) :
    (Reading.whole read).settled = read := by
  unfold Reading.settled Reading.whole
  by_cases run : read.getLast? = some singleQuote
  · have plain : ¬ HasEscape read := by
      rintro ⟨front, u, back, rfl, escaped⟩
      refine survives front u (back ++ more) (by simp) escaped (List.mem_append_left _ ?_)
      rw [List.getLast?_append, List.getLast?_cons_cons, List.getLast?_cons] at run
      rcases List.eq_nil_or_concat back with rfl | ⟨rest, v, rfl⟩
      · have same : u = singleQuote := by simpa using run
        rw [same] at escaped
        exact absurd escaped (by decide)
      · have same : v = singleQuote := by simpa using run
        simp [same]
    simp [run, Words.resolveDoubled_eq_self plain]
  · simp [run]

theorem next_whole {read more : Text} (survives : Survives (read ++ more)) (u : CodeUnit) :
    (Reading.whole read).next u = Reading.whole (read ++ [u]) := by
  unfold Reading.next
  rw [settled_whole survives]
  by_cases quote : u = singleQuote <;> simp [Reading.whole, quote]

theorem after_whole {t read : Text} (survives : Survives (read ++ t)) :
    (Reading.whole read).after t = Reading.whole (read ++ t) := by
  induction t generalizing read with
  | nil => rw [List.append_nil]; rfl
  | cons u t ih =>
    have split : read ++ u :: t = read ++ [u] ++ t := by simp
    rw [Reading.after_cons, next_whole survives, split]
    rw [split] at survives
    exact ih survives

theorem length_after_le (r : Reading) (t : Text) :
    (r.after t).settled.length ≤ r.word.length + t.length := by
  induction t generalizing r with
  | nil => exact r.length_settled_le
  | cons u t ih =>
    have bound := ih (r.next u)
    have settled := r.length_settled_le
    rw [Reading.after_cons]
    by_cases quote : u = singleQuote
    · subst quote
      rw [Reading.next_quote] at bound ⊢
      simp only [List.length_append, List.length_cons, List.length_nil] at bound ⊢
      omega
    · rw [Reading.next_other r quote] at bound ⊢
      simp only [List.length_append, List.length_cons, List.length_nil] at bound ⊢
      omega

/-- An escape that has been read is lost as soon as a run is closed. -/
theorem length_after_lt {r : Reading} {t : Text} (escape : HasEscape r.word)
    (closes : r.inRun = true ∨ singleQuote ∈ t) :
    (r.after t).settled.length < r.word.length + t.length := by
  have shorter := Words.length_resolveDoubled_lt escape
  induction t generalizing r with
  | nil =>
    have run := closes.resolve_right List.not_mem_nil
    show r.settled.length < r.word.length
    rwa [Reading.settled, if_pos run]
  | cons u t ih =>
    rw [Reading.after_cons]
    by_cases quote : u = singleQuote
    · subst quote
      have longer := escape.append [singleQuote]
      have bound := ih (r := ⟨true, r.word ++ [singleQuote]⟩) longer (.inl rfl)
        (Words.length_resolveDoubled_lt longer)
      rw [Reading.next_quote]
      simp only [List.length_append, List.length_cons, List.length_nil] at bound ⊢
      omega
    · rw [Reading.next_other r quote]
      by_cases run : r.inRun = true
      · have settled : r.settled = resolveDoubled r.word := if_pos run
        have bound := length_after_le ⟨false, r.settled ++ [u]⟩ t
        rw [settled] at bound ⊢
        simp only [List.length_append, List.length_cons, List.length_nil] at bound ⊢
        omega
      · have later : singleQuote ∈ t :=
          (List.mem_cons.mp (closes.resolve_left run)).resolve_left (Ne.symm quote)
        have longer := escape.append [u]
        have bound := ih (r := ⟨false, r.word ++ [u]⟩) longer (.inr later)
          (Words.length_resolveDoubled_lt longer)
        have settled : r.settled = r.word := if_neg run
        rw [settled]
        simp only [List.length_append, List.length_cons, List.length_nil] at bound ⊢
        omega

/-- A word is read back as it is exactly if it survives. -/
theorem survivor_eq_self_iff (w : Text) : survivor w = w ↔ Survives w := by
  constructor
  · -- Units are lost and never made up for, so lengths tell whether all are there.
    rintro same front u back rfl escaped quote
    let before := (Reading.mk false []).after front
    have short : before.settled.length ≤ front.length := by
      simpa using length_after_le ⟨false, []⟩ front
    have other : u ≠ singleQuote := by
      rintro rfl
      exact absurd escaped (by decide)
    have read : survivor (front ++ backslash :: u :: back) =
        ((Reading.mk false (before.settled ++ [backslash] ++ [u])).after back).settled := by
      have shown : (Reading.mk false []).after (front ++ backslash :: u :: back) =
          ((before.next backslash).next u).after back := List.foldl_append
      rw [survivor, shown, before.next_other (by decide), Reading.next_other _ other]
      rfl
    have lost := length_after_lt (r := ⟨false, before.settled ++ [backslash] ++ [u]⟩) (t := back)
      ⟨before.settled, u, [], by simp, escaped⟩ (.inr quote)
    rw [← read, same] at lost
    simp only [List.length_append, List.length_cons, List.length_nil] at lost
    omega
  · intro survives
    have all : (Reading.whole []).after w = Reading.whole w := after_whole survives
    have padded : Survives (w ++ []) := by rwa [List.append_nil]
    show ((Reading.whole []).after w).settled = w
    rw [all, settled_whole padded]

instance (w : Text) : Decidable (Survives w) := decidable_of_iff _ (survivor_eq_self_iff w)

example : survivor "\\\\'" = "\\'" := by decide

end Quoted

end FileProfile
