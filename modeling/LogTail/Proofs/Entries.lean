import LogTail.Proofs.Append
import Mathlib.Data.List.Forall2

/-!
# Entries of records

Which records have an entry, and what it says: the time of day with two digits for each
part, a tab, and the message, ended by a line feed. The second of the day is counted from the
midnight before, also for times before 1970. From an entry the second and the message can be
read back, but not whether the line feed was there before.
-/
namespace LogTail

namespace Text

/-- The digits of a number below one hundred. -/
def digitPair (n : Nat) : List Char := [Nat.digitChar (n / 10), Nat.digitChar (n % 10)]

theorem toList_twoDigits {n : Nat} (h : n < 100) : (twoDigits n).toList = digitPair n := by
  unfold twoDigits digitPair
  split
  · rename_i single
    have hdiv : n / 10 = 0 := by omega
    have hmod : n % 10 = n := by omega
    simp [Nat.toDigits_of_lt_base single, hdiv, hmod]
  · have hdiv : n / 10 < 10 := by omega
    have hdigits : Nat.toDigits 10 n = Nat.toDigits 10 (n / 10) ++ [Nat.digitChar (n % 10)] :=
      Nat.toDigits_of_base_le (by decide) (by omega)
    simp [hdigits, Nat.toDigits_of_lt_base hdiv]

theorem digitChar_injective {m n : Nat} (hm : m < 10) (hn : n < 10)
    (h : Nat.digitChar m = Nat.digitChar n) : m = n := by
  have hcode := congrArg Char.toNat h
  rw [Nat.toNat_digitChar_of_lt_ten hm, Nat.toNat_digitChar_of_lt_ten hn] at hcode
  omega

theorem digitPair_injective {m n : Nat} (hm : m < 100) (hn : n < 100)
    (h : digitPair m = digitPair n) : m = n := by
  simp only [digitPair, List.cons.injEq, and_true] at h
  have htens := digitChar_injective (by omega) (by omega) h.1
  have hones := digitChar_injective (by omega) (by omega) h.2
  omega

end Text

namespace Record

open Text (digitPair)

variable {r r' : Record} {ms ms' : Int} {message message' : String} {e : Entry} {s t : Nat}

/-- Days from the first of January of the year 1970 to that of another year. -/
def daysToYear (year : Int) : Int :=
  let leaps (y : Int) : Int := (y - 1) / 4 - (y - 1) / 100 + (y - 1) / 400
  365 * (year - 1970) + leaps year - leaps 1970

/-- The time lies in one of the years of the calendar. -/
def Dated (ms : Int) : Prop :=
  daysToYear (-262143) * 86400000 ≤ ms ∧ ms < daysToYear 262143 * 86400000

instance : Decidable (Dated ms) := inferInstanceAs (Decidable (_ ∧ _))

theorem dated_iff : Dated ms ↔ earliest ≤ ms ∧ ms ≤ latest := by
  have hfirst : daysToYear (-262143) * 86400000 = earliest := by decide
  have hlast : daysToYear 262143 * 86400000 = latest + 1 := by decide
  rw [Dated, hfirst, hlast, Int.lt_add_one_iff]

/-- So many whole seconds have passed since a midnight. -/
def FallsIn (s : Nat) (ms : Int) : Prop :=
  s < 86400 ∧ ∃ day : Int, 1000 * (86400 * day + s) ≤ ms ∧ ms < 1000 * (86400 * day + s + 1)

theorem secondOfDay_eq_iff : secondOfDay ms = s ↔ FallsIn s ms := by
  have hfloor : ms.fdiv 1000 = ms / 1000 := Int.fdiv_eq_ediv_of_nonneg _ (by decide)
  have hrest : (ms / 1000).fmod 86400 = ms / 1000 % 86400 := Int.fmod_eq_emod_of_nonneg _ (by decide)
  rw [secondOfDay, hfloor, hrest]
  constructor
  · intro h
    exact ⟨by omega, ms / 1000 / 86400, by omega, by omega⟩
  · rintro ⟨hs, day, hle, hlt⟩
    omega

theorem secondOfDay_lt (ms : Int) : secondOfDay ms < 86400 := (secondOfDay_eq_iff.mp rfl).1

/-- Hours, minutes and seconds with a colon between. -/
def clockDigits (s : Nat) : List Char :=
  digitPair (s / 3600) ++ ':' :: digitPair (s % 3600 / 60) ++ ':' :: digitPair (s % 60)

theorem toList_clockText (h : s < 86400) : (clockText s).toList = clockDigits s := by
  have hhours : s / 3600 < 100 := by omega
  have hminutes : s % 3600 / 60 < 100 := by omega
  have hseconds : s % 60 < 100 := by omega
  simp [clockText, clockDigits, Text.toList_twoDigits hhours, Text.toList_twoDigits hminutes,
    Text.toList_twoDigits hseconds]

theorem clockDigits_injective (hs : s < 86400) (ht : t < 86400)
    (h : clockDigits s = clockDigits t) : s = t := by
  obtain ⟨hclock, hseconds⟩ := List.append_inj h rfl
  obtain ⟨hhours, hminutes⟩ := List.append_inj hclock rfl
  have hh := Text.digitPair_injective (by omega) (by omega) hhours
  have hm := Text.digitPair_injective (by omega) (by omega) (List.cons.inj hminutes).2
  have hs := Text.digitPair_injective (by omega) (by omega) (List.cons.inj hseconds).2
  omega

/-- The record has a time in the calendar and a message that is not empty. -/
structure Holds (r : Record) (ms : Int) (text : String) : Prop where
  time : r.time = some ms
  dated : Dated ms
  message : r.message = some text
  filled : text ≠ ""

theorem holds_of_written? (h : r.written? = some e) : ∃ ms message, r.Holds ms message := by
  unfold written? at h
  split at h
  · rename_i ms message htime hmessage
    split at h
    · rename_i hvalid
      exact ⟨ms, message, htime, dated_iff.mpr hvalid.2, hmessage, hvalid.1⟩
    · cases h
  · cases h

theorem toList_terminated (message : String) : (terminated message).toList =
    message.toList ++ if message.toList.getLast? = some '\n' then [] else ['\n'] := by
  unfold terminated
  split <;> simp

/-- The form of an entry. -/
def form (s : Nat) (message : String) : List Char :=
  clockDigits s ++ '\t' :: (message.toList ++
    if message.toList.getLast? = some '\n' then [] else ['\n'])

theorem form_eq (s : Nat) (message : String) :
    form s message = clockDigits s ++ '\t' :: (terminated message).toList := by
  rw [form, toList_terminated]

theorem written?_of_holds (h : r.Holds ms message) :
    r.written? = some ⟨String.ofList (form (secondOfDay ms) message)⟩ := by
  obtain ⟨hfirst, hlast⟩ := dated_iff.mp h.dated
  have hwritten : r.written? =
      some ⟨clockText (secondOfDay ms) ++ "\t" ++ terminated message⟩ := by
    simp only [written?, h.time, h.message]
    exact if_pos ⟨h.filled, hfirst, hlast⟩
  rw [hwritten, Option.some.injEq, Entry.mk.injEq, ← String.toList_inj]
  simp [form_eq, toList_clockText (secondOfDay_lt ms)]

theorem written?_eq_some_iff : r.written? = some e ↔
    ∃ ms message, r.Holds ms message ∧ e.text.toList = form (secondOfDay ms) message := by
  constructor
  · intro h
    obtain ⟨ms, message, holds⟩ := holds_of_written? h
    rw [written?_of_holds holds, Option.some.injEq] at h
    subst h
    exact ⟨ms, message, holds, String.toList_ofList⟩
  · rintro ⟨ms, message, holds, htext⟩
    rw [written?_of_holds holds, ← htext, String.ofList_toList]

theorem form_inj (hs : s < 86400) (ht : t < 86400) :
    form s message = form t message' ↔ s = t ∧ terminated message = terminated message' := by
  rw [form_eq, form_eq]
  constructor
  · intro h
    obtain ⟨hclock, hrest⟩ := List.append_inj h rfl
    exact ⟨clockDigits_injective hs ht hclock, String.toList_inj.mp (List.cons.inj hrest).2⟩
  · rintro ⟨rfl, hmessage⟩
    rw [hmessage]

/-- Nothing is missing that an entry needs. -/
def Complete (r : Record) : Prop := ∃ ms message, r.Holds ms message

theorem written?_isSome_iff : r.written?.isSome ↔ r.Complete := by
  constructor
  · intro h
    obtain ⟨e, he⟩ := Option.isSome_iff_exists.mp h
    exact holds_of_written? he
  · rintro ⟨ms, message, holds⟩
    rw [written?_of_holds holds, Option.isSome_some]

instance : Decidable r.Complete := decidable_of_iff _ written?_isSome_iff

theorem lineCount_pos (h : r.written? = some e) : 1 ≤ e.lineCount := by
  have hfeed : '\n' ∈ e.text.toList := List.mem_of_getLast? (written?_last h)
  exact List.count_pos_iff.mpr hfeed

end Record

/-- Of a batch the records that have an entry are kept, in their order. -/
theorem forall₂_entriesOf (records : List Record) :
    List.Forall₂ (fun r e => r.written? = some e) (records.filter Record.Complete)
      (entriesOf records) := by
  unfold entriesOf
  induction records with
  | nil => exact .nil
  | cons r rest ih =>
    cases h : r.written? with
    | none =>
      have dropped : ¬ r.Complete := by
        rw [← Record.written?_isSome_iff, h]
        exact Bool.false_ne_true
      rw [List.filterMap_cons_none h, List.filter_cons_of_neg (by simpa using dropped)]
      exact ih
    | some e =>
      have kept : r.Complete := Record.holds_of_written? h
      rw [List.filterMap_cons_some h, List.filter_cons_of_pos (by simpa using kept)]
      exact .cons h ih

namespace Record

/-- A record has an entry just when its time lies in the calendar and its message is not
empty. The entry is the second of the day in three pairs of digits, a tab, and the message
with one line feed unless it ends with one; so it ends with a line feed and has a line at
least. The second of the day is counted up from a midnight, for all times. Two records have the
same entry just when their seconds of the day are the same and their messages too, but for the
final line feed. And a batch keeps the records that have an entry, in their order. -/
theorem entries_are_exact :
    (∀ r : Record, r.written?.isSome ↔ r.Complete) ∧
    (∀ (r : Record) (e : Entry), r.written? = some e ↔
      ∃ ms message, r.Holds ms message ∧ e.text.toList = form (secondOfDay ms) message) ∧
    (∀ (r : Record) (e : Entry), r.written? = some e →
      e.text.toList.getLast? = some '\n' ∧ 1 ≤ e.lineCount) ∧
    (∀ (ms : Int) (s : Nat), secondOfDay ms = s ↔ FallsIn s ms) ∧
    (∀ (r r' : Record) (ms ms' : Int) (message message' : String),
      r.Holds ms message → r'.Holds ms' message' → (r.written? = r'.written? ↔
        secondOfDay ms = secondOfDay ms' ∧ terminated message = terminated message')) ∧
    ∀ records : List Record,
      List.Forall₂ (fun r e => r.written? = some e) (records.filter Complete) (entriesOf records) := by
  refine ⟨fun _ => written?_isSome_iff, fun _ _ => written?_eq_some_iff,
    fun r e h => ⟨written?_last h, lineCount_pos h⟩, fun _ _ => secondOfDay_eq_iff, ?_,
    forall₂_entriesOf⟩
  intro r r' ms ms' message message' holds holds'
  rw [written?_of_holds holds, written?_of_holds holds', Option.some.injEq, Entry.mk.injEq,
    String.ofList_inj]
  exact form_inj (secondOfDay_lt ms) (secondOfDay_lt ms')

/-- Two records of one second of the day, one before 1970 and one after, whose messages differ
in the final line feed. -/
theorem entries_before_and_after_1970 :
    let r : Record := { time := some (-1), message := some "a\nb" }
    let r' : Record := { time := some 86399999, message := some "a\nb\n" }
    r.Holds (-1) "a\nb" ∧ r'.Holds 86399999 "a\nb\n" ∧ r.written? = r'.written? ∧
      FallsIn 86399 (-1) ∧ r.written? = some ⟨"23:59:59\ta\nb\n"⟩ ∧
      1 ≤ (⟨"23:59:59\ta\nb\n"⟩ : Entry).lineCount := by
  intro r r'
  have holds : r.Holds (-1) "a\nb" := ⟨rfl, by decide, rfl, by decide⟩
  have holds' : r'.Holds 86399999 "a\nb\n" := ⟨rfl, by decide, rfl, by decide⟩
  have hwritten : r.written? = some ⟨"23:59:59\ta\nb\n"⟩ := by decide
  obtain ⟨-, -, shaped, second, alike, -⟩ := entries_are_exact
  have same := (alike r r' _ _ _ _ holds holds').mpr ⟨by decide, by decide⟩
  exact ⟨holds, holds', same, (second _ _).mp (by decide), hwritten, (shaped r _ hwritten).2⟩

end Record

end LogTail
