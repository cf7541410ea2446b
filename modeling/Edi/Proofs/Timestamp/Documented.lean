import Edi.Proofs.Timestamp.Numbers
import Mathlib.Tactic.IntervalCases
import Std.Time.Date.PlainDate

namespace Edi.Timestamp

variable {cs : List Char} {year : Int} {month day hour minute second : Nat} {date time : String}
  {t : Timestamp}

/-- There is such a day in the calendar of `Std.Time`. -/
def IsDay (year : Int) (month day : Nat) : Prop :=
  ∃ date : Std.Time.PlainDate,
    date.year.toInt = year ∧ date.month.val = month ∧ date.day.val = day

section
open Std.Time

theorem isLeap_eq (year : Year.Offset) : year.isLeap = isLeap year.toInt := by
  have htmod (n : Int) : year.toInt.tmod n = 0 ↔ year.toInt % n = 0 := by
    rw [← Int.dvd_iff_tmod_eq_zero, Int.dvd_iff_emod_eq_zero]
  simp only [Year.Offset.isLeap, isLeap, ne_eq, htmod, Bool.decide_and, Bool.decide_or]

theorem days_val (year : Year.Offset) (hm : 1 ≤ (month : Int) ∧ (month : Int) ≤ 12) :
    (Month.Ordinal.days year.isLeap (.ofInt month hm)).val = daysIn year.toInt month := by
  obtain ⟨h₁, h₂⟩ := hm
  norm_cast at h₁ h₂
  unfold daysIn
  rw [← isLeap_eq]
  cases year.isLeap <;> interval_cases month <;> rfl

theorem isDay_iff :
    IsDay year month day ↔ 1 ≤ month ∧ month ≤ 12 ∧ 1 ≤ day ∧ day ≤ daysIn year month := by
  constructor
  · rintro ⟨⟨y, ⟨m, hm⟩, ⟨d, hd⟩, hv⟩, rfl, rfl, rfl⟩
    have hv : (day : Int) ≤ daysIn y.toInt month := days_val y hm ▸ hv
    dsimp only
    exact ⟨by omega, by omega, by omega, by omega⟩
  · rintro ⟨hm, hm', hd, hd'⟩
    have hc : 1 ≤ (month : Int) ∧ (month : Int) ≤ 12 := by omega
    let days := Month.Ordinal.days (Year.Offset.ofInt year).isLeap (.ofInt month hc)
    have hv : (day : Int) ≤ days.val := (days_val (.ofInt year) hc).symm ▸ Int.ofNat_le.2 hd'
    exact ⟨⟨.ofInt year, .ofInt month hc, .ofInt day ⟨by omega, hv.trans days.2.2⟩, hv⟩,
      rfl, rfl, rfl⟩

end

def ofTwoDigits (n : Nat) : Int := if n < 70 then 2000 + n else 1900 + n

/-- A date as `YYMMDD` or `CCYYMMDD`. -/
inductive DocumentedDate (cs : List Char) : Int → Nat → Nat → Prop
  | short {y m d : Nat} (h : FixedNumbers [2, 2, 2] cs [y, m, d]) :
    DocumentedDate cs (ofTwoDigits y) m d
  | long {y m d : Nat} (h : FixedNumbers [4, 2, 2] cs [y, m, d]) : DocumentedDate cs y m d

/-- A time as `HHMM` or `HHMMSS`, or no text for midnight. -/
inductive DocumentedTime (cs : List Char) : Nat → Nat → Nat → Prop
  | midnight (h : cs = []) : DocumentedTime cs 0 0 0
  | minutes {h m : Nat} (hn : FixedNumbers [2, 2] cs [h, m]) : DocumentedTime cs h m 0
  | seconds {h m s : Nat} (hn : FixedNumbers [2, 2, 2] cs [h, m, s]) : DocumentedTime cs h m s

inductive SpelledDate (cs : List Char) : Int → Nat → Nat → Prop
  | short {y m d : Nat} (hs : byteSize cs = 6) (h : Numbers [2, 2, 2] cs [y, m, d]) :
    SpelledDate cs (ofTwoDigits y) m d
  | long {y m d : Nat} (hs : byteSize cs = 8) (h : Numbers [4, 2, 2] cs [y, m, d]) :
    SpelledDate cs y m d
  | signed {y : Int} {m d : Nat} {rest : List Char} (hs : byteSize cs = 8)
    (hy : SignedYear cs y rest) (h : Numbers [2, 2] rest [m, d]) : SpelledDate cs y m d

inductive SpelledTime (cs : List Char) : Nat → Nat → Nat → Prop
  | midnight (h : cs = []) : SpelledTime cs 0 0 0
  | minutes {h m : Nat} (hs : byteSize cs = 4) (hn : Numbers [2, 2] cs [h, m]) :
    SpelledTime cs h m 0
  | seconds {h m s : Nat} (hs : byteSize cs = 6) (hn : Numbers [2, 2, 2] cs [h, m, s]) :
    SpelledTime cs h m s

theorem documentedDate_iff : DocumentedDate cs year month day ↔
    SpelledDate cs year month day ∧ ∀ c ∈ cs, c.isDigit := by
  constructor
  · rintro (h | h)
    · obtain ⟨hn, hs, hc⟩ := fixedNumbers_iff.1 h
      exact ⟨.short hs hn, hc⟩
    · obtain ⟨hn, hs, hc⟩ := fixedNumbers_iff.1 h
      exact ⟨.long hs hn, hc⟩
  · rintro ⟨⟨hs, hn⟩ | ⟨hs, hn⟩ | ⟨hs, hy, -⟩, hc⟩
    · exact .short (fixedNumbers_iff.2 ⟨hn, hs, hc⟩)
    · exact .long (fixedNumbers_iff.2 ⟨hn, hs, hc⟩)
    · obtain ⟨c, hm, hd⟩ := hy.exists_not_isDigit
      exact absurd (hc c hm) hd

theorem documentedTime_iff : DocumentedTime cs hour minute second ↔
    SpelledTime cs hour minute second ∧ ∀ c ∈ cs, c.isDigit := by
  constructor
  · rintro (rfl | h | h)
    · exact ⟨.midnight rfl, List.forall_mem_nil _⟩
    · obtain ⟨hn, hs, hc⟩ := fixedNumbers_iff.1 h
      exact ⟨.minutes hs hn, hc⟩
    · obtain ⟨hn, hs, hc⟩ := fixedNumbers_iff.1 h
      exact ⟨.seconds hs hn, hc⟩
  · rintro ⟨rfl | ⟨hs, hn⟩ | ⟨hs, hn⟩, hc⟩
    · exact .midnight rfl
    · exact .minutes (fixedNumbers_iff.2 ⟨hn, hs, hc⟩)
    · exact .seconds (fixedNumbers_iff.2 ⟨hn, hs, hc⟩)

def monthDay? (year : Int) (cs : List Char) : Option (Int × Nat × Nat) := do
  let (month, cs) ← number? cs
  let (day, cs) ← number? cs
  if 1 ≤ month ∧ month ≤ 12 ∧ 1 ≤ day ∧ day ≤ daysIn year month ∧ cs = [] then
    some (year, month, day)
  else
    none

theorem date?_eq (cs : List Char) : date? cs =
    (if byteSize cs = 6 then shortYear? cs else if byteSize cs = 8 then year? cs else none).bind
      fun (year, rest) ↦ monthDay? year rest := by
  rw [date?]
  -- The size of the text only says how the year is written.
  split
  · rfl
  · split <;> rfl

theorem monthDay?_eq_some_iff {y : Int} : monthDay? y cs = some (year, month, day) ↔
    y = year ∧ IsDay year month day ∧ Numbers [2, 2] cs [month, day] := by
  simp only [isDay_iff, numbers_cons_iff, numbers_nil_iff, ← number?_eq_some_iff]
  constructor
  · intro h
    obtain ⟨⟨m, rest⟩, hm, h⟩ := Option.bind_eq_some_iff.1 h
    obtain ⟨⟨d, rest'⟩, hd, h⟩ := Option.bind_eq_some_iff.1 h
    simp only [Option.ite_none_right_eq_some, Option.some.injEq, Prod.mk.injEq] at h
    obtain ⟨⟨hm₁, hm₂, hd₁, hd₂, rfl⟩, rfl, rfl, rfl⟩ := h
    exact ⟨rfl, ⟨hm₁, hm₂, hd₁, hd₂⟩, rest, hm, [], hd, rfl⟩
  · rintro ⟨rfl, hv, rest, hm, _, hd, rfl⟩
    simp [monthDay?, hm, hd, hv]

theorem date?_eq_some_iff : date? cs = some (year, month, day) ↔
    SpelledDate cs year month day ∧ IsDay year month day := by
  rw [date?_eq, Option.bind_eq_some_iff]
  constructor
  · rintro ⟨⟨y, rest⟩, hy, h⟩
    obtain ⟨rfl, hv, hn⟩ := monthDay?_eq_some_iff.1 h
    refine ⟨?_, hv⟩
    split at hy
    · next hs =>
      obtain ⟨⟨n, rest⟩, hy, ⟨⟩⟩ := Option.map_eq_some_iff.1 hy
      exact .short hs (.cons (number?_eq_some_iff.1 hy) hn)
    · rw [Option.ite_none_right_eq_some, year?_eq_some_iff] at hy
      obtain ⟨hs, hy | ⟨n, rfl, hy⟩⟩ := hy
      · exact .signed hs hy hn
      · exact .long hs (.cons hy hn)
  · rintro ⟨⟨hs, hn⟩ | ⟨hs, hn⟩ | ⟨hs, hy, hn⟩, hv⟩
    · obtain ⟨rest, hy, hn⟩ := numbers_cons_iff.1 hn
      refine ⟨(_, _), ?_, monthDay?_eq_some_iff.2 ⟨rfl, hv, hn⟩⟩
      rw [if_pos hs, shortYear?, number?_eq_some_iff.2 hy]
      rfl
    · obtain ⟨rest, hy, hn⟩ := numbers_cons_iff.1 hn
      refine ⟨(_, _), ?_, monthDay?_eq_some_iff.2 ⟨rfl, hv, hn⟩⟩
      rw [if_neg (by omega), if_pos hs, year?_eq_some_iff.2 (.inr ⟨_, rfl, hy⟩)]
    · refine ⟨(_, _), ?_, monthDay?_eq_some_iff.2 ⟨rfl, hv, hn⟩⟩
      rw [if_neg (by omega), if_pos hs, year?_eq_some_iff.2 (.inl hy)]

def clock? (cs : List Char) : Option (Nat × Nat × Nat) :=
  if cs = [] then some (0, 0, 0)
  else do
    let (hour, rest) ← number? cs
    let (minute, rest) ← number? rest
    let (second, rest) ←
      if byteSize cs = 4 then some (0, rest) else if byteSize cs = 6 then number? rest else none
    if hour ≤ 23 ∧ minute ≤ 59 ∧ second ≤ 60 ∧ rest = [] then some (hour, minute, second) else none

theorem time?_eq (cs : List Char) : time? cs = (bytePrefix? 6 cs).bind clock? := rfl

theorem clock?_eq_some_iff : clock? cs = some (hour, minute, second) ↔
    SpelledTime cs hour minute second ∧ hour ≤ 23 ∧ minute ≤ 59 ∧ second ≤ 60 := by
  rw [clock?]
  constructor
  · intro h
    split at h
    · next he =>
      obtain ⟨⟩ := h
      exact ⟨.midnight he, by decide⟩
    · obtain ⟨⟨h', cs₁⟩, hh, h⟩ := Option.bind_eq_some_iff.1 h
      obtain ⟨⟨m, cs₂⟩, hm, h⟩ := Option.bind_eq_some_iff.1 h
      rw [number?_eq_some_iff] at hh hm
      dsimp only at h
      split at h
      · next hs =>
        simp only [Option.bind_eq_bind, Option.bind_some, Option.ite_none_right_eq_some,
          Option.some.injEq, Prod.mk.injEq] at h
        obtain ⟨⟨hh', hm', hs', rfl⟩, rfl, rfl, rfl⟩ := h
        exact ⟨.minutes hs (.cons hh (.cons hm .nil)), hh', hm', hs'⟩
      · split at h
        · next hs =>
          obtain ⟨⟨s, cs₃⟩, hsec, h⟩ := Option.bind_eq_some_iff.1 h
          simp only [Option.ite_none_right_eq_some, Option.some.injEq, Prod.mk.injEq] at h
          obtain ⟨⟨hh', hm', hs', rfl⟩, rfl, rfl, rfl⟩ := h
          rw [number?_eq_some_iff] at hsec
          exact ⟨.seconds hs (.cons hh (.cons hm (.cons hsec .nil))), hh', hm', hs'⟩
        · simp at h
  · simp only [and_imp]
    rintro (rfl | ⟨hs, hn⟩ | ⟨hs, hn⟩) hh' hm' hs'
    · rfl
    · have hne : cs ≠ [] := by rintro rfl; simp at hs
      simp only [numbers_cons_iff, numbers_nil_iff, ← number?_eq_some_iff] at hn
      obtain ⟨_, hh, _, hm, rfl⟩ := hn
      simp [hne, hs, hh, hm, hh', hm']
    · have hne : cs ≠ [] := by rintro rfl; simp at hs
      simp only [numbers_cons_iff, numbers_nil_iff, ← number?_eq_some_iff] at hn
      obtain ⟨_, hh, _, hm, _, hsec, rfl⟩ := hn
      simp [hne, hs, hh, hm, hsec, hh', hm', hs']

/-- The day is in the calendar and the time of day on the clock, where a minute may have a leap
second. -/
structure Valid (t : Timestamp) : Prop where
  day : IsDay t.year t.month t.day
  hour : t.hour ≤ 23
  minute : t.minute ≤ 59
  second : t.second ≤ 60

/-- The fields have their documented form and give `t`. -/
def Documented (date time : String) (t : Timestamp) : Prop :=
  t.Valid ∧ DocumentedDate date.toList t.year t.month t.day ∧
    ∃ clock, Clipped 6 time.toList clock ∧ DocumentedTime clock t.hour t.minute t.second

/-- The fields have as many bytes as documented ones and give `t`, but there is white space before a
number or a sign before the year. -/
def Loose (date time : String) (t : Timestamp) : Prop :=
  t.Valid ∧ SpelledDate date.toList t.year t.month t.day ∧
    ∃ clock, Clipped 6 time.toList clock ∧ SpelledTime clock t.hour t.minute t.second ∧
      ∃ c ∈ date.toList ++ clock, ¬c.isDigit

theorem ofFields?_eq_some_iff : ofFields? date time = some t ↔
    t.Valid ∧ SpelledDate date.toList t.year t.month t.day ∧
      ∃ clock, Clipped 6 time.toList clock ∧ SpelledTime clock t.hour t.minute t.second := by
  constructor
  · intro h
    obtain ⟨⟨year, month, day⟩, hd, h⟩ := Option.bind_eq_some_iff.1 h
    obtain ⟨⟨hour, minute, second⟩, ht, ⟨⟩⟩ := Option.bind_eq_some_iff.1 h
    obtain ⟨hs, hv⟩ := date?_eq_some_iff.1 hd
    rw [time?_eq, Option.bind_eq_some_iff] at ht
    obtain ⟨clock, hc, ht⟩ := ht
    obtain ⟨ht, hh, hm, hsec⟩ := clock?_eq_some_iff.1 ht
    exact ⟨⟨hv, hh, hm, hsec⟩, hs, clock, bytePrefix?_eq_some_iff.1 hc, ht⟩
  · rintro ⟨hv, hs, clock, hc, ht⟩
    have hd : date? date.toList = some (t.year, t.month, t.day) := date?_eq_some_iff.2 ⟨hs, hv.day⟩
    have ht : time? time.toList = some (t.hour, t.minute, t.second) := by
      rw [time?_eq, bytePrefix?_eq_some_iff.2 hc]
      exact clock?_eq_some_iff.2 ⟨ht, hv.hour, hv.minute, hv.second⟩
    simp [ofFields?, hd, ht]

/-- Of fields that are all digits just the documented ones are read, of others the loose ones. -/
theorem ofFields?_exact (date time : String) (t : Timestamp) :
    ofFields? date time = some t ↔ Documented date time t ∨ Loose date time t := by
  rw [ofFields?_eq_some_iff, Documented, Loose, ← and_or_left]
  refine and_congr_right fun _ ↦ ?_
  constructor
  · rintro ⟨hd, clock, hc, ht⟩
    by_cases hall : ∀ c ∈ date.toList ++ clock, c.isDigit
    · obtain ⟨hdd, htd⟩ := List.forall_mem_append.1 hall
      exact .inl ⟨documentedDate_iff.2 ⟨hd, hdd⟩, clock, hc, documentedTime_iff.2 ⟨ht, htd⟩⟩
    · push Not at hall
      exact .inr ⟨hd, clock, hc, ht, hall⟩
  · rintro (⟨hd, clock, hc, ht⟩ | ⟨hd, clock, hc, ht, -⟩)
    · exact ⟨(documentedDate_iff.1 hd).1, clock, hc, (documentedTime_iff.1 ht).1⟩
    · exact ⟨hd, clock, hc, ht⟩

/-- A blank in the place of the first digit moves the month and the day. -/
theorem ofFields?_blank : ofFields? " 40115" "1030" = some ⟨2040, 11, 5, 10, 30, 0⟩ ∧
    ∀ t, ¬Documented " 40115" "1030" t := by
  refine ⟨by decide +kernel, ?_⟩
  rintro t ⟨-, hd, -⟩
  have hblank := (documentedDate_iff.1 hd).2 ' ' (by decide +kernel)
  exact absurd hblank (by decide)

end Edi.Timestamp
