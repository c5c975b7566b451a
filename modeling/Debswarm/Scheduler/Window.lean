import Debswarm.Text.Scan
import Mathlib.Order.Bounds.Basic

/-!
# Sync windows

A window opens at a time of day on each of its weekdays and closes at another time of day, on
the next day if that is not later.  `Contains` decides this from the weekday and the minute of
an instant alone; here it is compared with the intervals themselves, on an endless timeline in
a zone with a fixed offset.  A window from midnight to midnight is taken for one that closes
when it opens, and contains nothing.
-/

namespace Debswarm.Scheduler

open Text

/-! ## Time in a zone with a fixed offset

Instants are nanoseconds since 1 January 1970, 00:00 UTC; the offset is in seconds. -/

inductive Weekday
  | sunday
  | monday
  | tuesday
  | wednesday
  | thursday
  | friday
  | saturday
  deriving DecidableEq

namespace Weekday

def all : List Weekday :=
  [sunday, monday, tuesday, wednesday, thursday, friday, saturday]

/-- The weekday of a day, counted from 1 January 1970, which was a Thursday. -/
def ofDay (day : Int) : Weekday :=
  all.getD ((day + 4) % 7).toNat sunday

end Weekday

def dayLength : Int :=
  86400000000000

def minuteLength : Int :=
  60000000000

/-- The time on a clock in the zone. -/
def clock (zone instant : Int) : Int :=
  instant + zone * 1000000000

def day (zone instant : Int) : Int :=
  clock zone instant / dayLength

def weekday (zone instant : Int) : Weekday :=
  .ofDay (day zone instant)

def hour (zone instant : Int) : Int :=
  clock zone instant % dayLength / (60 * minuteLength)

def minute (zone instant : Int) : Int :=
  clock zone instant % (60 * minuteLength) / minuteLength

/-- The instant of a time of day on a day, in the zone. -/
def date (zone day hour minute : Int) : Int :=
  day * dayLength + (hour * 60 + minute) * minuteLength - zone * 1000000000

/-- Go's zero time, 1 January of the year 1, 00:00 UTC. -/
def zeroTime : Int :=
  -62135596800000000000

/-! ## Windows -/

structure Window where
  days : List Str
  startTime : Str
  endTime : Str

structure TimeOfDay where
  hour : Int
  minute : Int
  hour_mem : 0 ≤ hour ∧ hour ≤ 23
  minute_mem : 0 ≤ minute ∧ minute ≤ 59

def TimeOfDay.mins (time : TimeOfDay) : Int :=
  time.hour * 60 + time.minute

structure ParsedWindow where
  days : List Weekday
  startTime : TimeOfDay
  endTime : TimeOfDay

inductive TimeError
  | format
  | hour (text : Str)
  | minute (text : Str)

inductive WindowError
  | day (name : Str)
  | startTime (text : Str) (cause : TimeError)
  | endTime (text : Str) (cause : TimeError)

def parseTime (text : Str) : Except TimeError TimeOfDay :=
  match splitByte 58 (trimSpace text) with
  | [hourText, minuteText] =>
    let (hour, isNumber) := parseInt64 hourText
    if hour_mem : isNumber = true ∧ 0 ≤ hour ∧ hour ≤ 23 then
      let (minute, isNumber) := parseInt64 minuteText
      if minute_mem : isNumber = true ∧ 0 ≤ minute ∧ minute ≤ 59 then
        .ok ⟨hour, minute, hour_mem.2, minute_mem.2⟩
      else .error (.minute minuteText)
    else .error (.hour hourText)
  | _ => .error .format

/-- The names of days and of groups of days. -/
def dayNames : List (List String × List Weekday) :=
  [(["monday", "mon"], [.monday]), (["tuesday", "tue"], [.tuesday]),
    (["wednesday", "wed"], [.wednesday]), (["thursday", "thu"], [.thursday]),
    (["friday", "fri"], [.friday]), (["saturday", "sat"], [.saturday]),
    (["sunday", "sun"], [.sunday]),
    (["weekday", "weekdays"], [.monday, .tuesday, .wednesday, .thursday, .friday]),
    (["weekend", "weekends"], [.saturday, .sunday]), (["all", "everyday", "daily"], Weekday.all)]

def parseDay (lib : Libraries) (name : Str) : Except WindowError (List Weekday) :=
  match dayNames.find? fun entry =>
      entry.1.any fun word => toLower lib.unicodeLower name == ofAscii word with
  | some entry => .ok entry.2
  | none => .error (.day name)

def parseWindow (lib : Libraries) (window : Window) : Except WindowError ParsedWindow := do
  let days ← window.days.mapM (parseDay lib)
  let startTime ← (parseTime window.startTime).mapError (.startTime window.startTime)
  let endTime ← (parseTime window.endTime).mapError (.endTime window.endTime)
  return ⟨days.flatten, startTime, endTime⟩

namespace ParsedWindow

/-- Whether the window crosses midnight; set once, when the window is parsed. -/
def spansDay (window : ParsedWindow) : Bool :=
  window.endTime.mins ≤ window.startTime.mins &&
    (window.startTime.mins ≠ 0 || window.endTime.mins ≠ 0)

/-- Whether an instant falls within the window. -/
def contains (window : ParsedWindow) (zone instant : Int) : Bool :=
  let currentMins := hour zone instant * 60 + minute zone instant
  let today := window.days.contains (weekday zone instant)
  if !window.spansDay then
    today && currentMins ≥ window.startTime.mins && currentMins < window.endTime.mins
  else if today && currentMins ≥ window.startTime.mins then true
  else
    let yesterday := window.days.contains (weekday zone (instant - dayLength))
    yesterday && currentMins < window.endTime.mins

/-- The start time of the window on a day. -/
def startOn (window : ParsedWindow) (zone day : Int) : Int :=
  date zone day window.startTime.hour window.startTime.minute

/-- The search for the next start, one day after the other from that of the candidate. -/
def nextStartFrom (window : ParsedWindow) (zone instant : Int) : Nat → Int → Int
  | 0, _ => zeroTime
  | tries + 1, candidate =>
    let windowStart := window.startOn zone (day zone candidate)
    if window.days.contains (weekday zone candidate) && windowStart > instant then windowStart
    else nextStartFrom window zone instant tries (date zone (day zone candidate + 1) 0 0)

/-- The next time that the window opens, or the zero time if it has no days. -/
def nextStart (window : ParsedWindow) (zone instant : Int) : Int :=
  if window.days.isEmpty then zeroTime else window.nextStartFrom zone instant 8 instant

/-- The window opens at an instant. -/
def Opens (window : ParsedWindow) (zone start : Int) : Prop :=
  ∃ day, .ofDay day ∈ window.days ∧ start = window.startOn zone day

/-- How long the window is open; equal times mean a whole day. -/
def duration (window : ParsedWindow) : Int :=
  let span := (window.endTime.mins - window.startTime.mins) % 1440
  (if span = 0 then 1440 else span) * minuteLength

/-- The instant lies in an interval that begins when the window opens. -/
def Covers (window : ParsedWindow) (zone instant : Int) : Prop :=
  ∃ start, window.Opens zone start ∧ start ≤ instant ∧ instant < start + window.duration

end ParsedWindow

def isInWindow (windows : List ParsedWindow) (zone now : Int) : Bool :=
  windows.isEmpty || windows.any fun window => window.contains zone now

/-- When the next window opens, or the zero time if that is not to be waited for. -/
def nextWindowStart (windows : List ParsedWindow) (zone now : Int) : Int :=
  if isInWindow windows zone now then zeroTime
  else windows.foldl
    (fun earliest window =>
      let next := window.nextStart zone now
      if next ≠ zeroTime ∧ (earliest = zeroTime ∨ next < earliest) then next else earliest)
    zeroTime

/-! ## Days and minutes -/

variable {zone instant : Int} {window : ParsedWindow}

theorem TimeOfDay.mins_mem (time : TimeOfDay) : 0 ≤ time.mins ∧ time.mins < 1440 := by
  have hour_mem := time.hour_mem
  have minute_mem := time.minute_mem
  unfold mins
  omega

theorem day_mem (zone instant : Int) :
    date zone (day zone instant) 0 0 ≤ instant ∧
      instant < date zone (day zone instant + 1) 0 0 := by
  unfold date day clock dayLength minuteLength
  omega

theorem day_date (zone today : Int) (time : TimeOfDay) :
    day zone (date zone today time.hour time.minute) = today := by
  have mins_mem := time.mins_mem
  unfold TimeOfDay.mins at mins_mem
  unfold day clock date dayLength minuteLength
  omega

/-- The minute of the day, between the bounds that it stands for. -/
theorem currentMins_mem (zone instant : Int) :
    let currentMins := hour zone instant * 60 + minute zone instant
    0 ≤ currentMins ∧ currentMins < 1440 ∧
      date zone (day zone instant) 0 currentMins ≤ instant ∧
      instant < date zone (day zone instant) 0 (currentMins + 1) := by
  unfold hour minute date day clock dayLength minuteLength
  omega

theorem day_sub_dayLength (zone instant : Int) :
    day zone (instant - dayLength) = day zone instant - 1 := by
  unfold day clock dayLength
  omega

/-- Every weekday comes within seven days. -/
theorem exists_ofDay (name : Weekday) (today : Int) :
    ∃ day, today < day ∧ day ≤ today + 7 ∧ Weekday.ofDay day = name := by
  have onto : ∃ day, Weekday.ofDay day = name := by
    cases name
    · exact ⟨-4, rfl⟩
    · exact ⟨-3, rfl⟩
    · exact ⟨-2, rfl⟩
    · exact ⟨-1, rfl⟩
    · exact ⟨0, rfl⟩
    · exact ⟨1, rfl⟩
    · exact ⟨2, rfl⟩
  obtain ⟨other, rfl⟩ := onto
  refine ⟨today + 1 + (other - today - 1) % 7, by omega, by omega, ?_⟩
  unfold Weekday.ofDay
  congr 2
  omega

namespace ParsedWindow

/-! ## What a window contains -/

theorem duration_eq (window : ParsedWindow) :
    window.duration =
      (if window.startTime.mins < window.endTime.mins then
        window.endTime.mins - window.startTime.mins
      else window.endTime.mins + 1440 - window.startTime.mins) * minuteLength := by
  have start_mem := window.startTime.mins_mem
  have end_mem := window.endTime.mins_mem
  unfold duration minuteLength
  dsimp only
  split <;> split <;> omega

/-- An instant lies in the interval of its own day or in that of the day before. -/
theorem covers_iff :
    window.Covers zone instant ↔
      let currentMins := hour zone instant * 60 + minute zone instant
      .ofDay (day zone instant) ∈ window.days ∧ window.startTime.mins ≤ currentMins ∧
          (window.startTime.mins < window.endTime.mins → currentMins < window.endTime.mins) ∨
        .ofDay (day zone instant - 1) ∈ window.days ∧
          window.endTime.mins ≤ window.startTime.mins ∧ currentMins < window.endTime.mins := by
  have start_mem := window.startTime.mins_mem
  have end_mem := window.endTime.mins_mem
  have now_mem := currentMins_mem zone instant
  have starts : ∀ day, window.startOn zone day = date zone day 0 window.startTime.mins := by
    intro day
    unfold startOn date TimeOfDay.mins minuteLength
    omega
  unfold Covers Opens
  simp only [starts, duration_eq]
  unfold date dayLength minuteLength at *
  constructor
  · rintro ⟨_, ⟨other, configured, rfl⟩, after, before⟩
    have isToday : other = day zone instant ∨ other = day zone instant - 1 := by
      split at before <;> omega
    rcases isToday with rfl | rfl
    · exact .inl ⟨configured, by omega, by split at before <;> omega⟩
    · exact .inr ⟨configured, by split at before <;> omega, by split at before <;> omega⟩
  · rintro (⟨configured, after, before⟩ | ⟨configured, spans, before⟩)
    · exact ⟨_, ⟨_, configured, rfl⟩, by omega, by split <;> omega⟩
    · exact ⟨_, ⟨_, configured, rfl⟩, by omega, by split <;> omega⟩

theorem contains_iff_covers (notMidnight : window.startTime.mins ≠ 0 ∨ window.endTime.mins ≠ 0) :
    window.contains zone instant = true ↔ window.Covers zone instant := by
  have spansDay_eq : window.spansDay = decide (window.endTime.mins ≤ window.startTime.mins) := by
    unfold spansDay
    rcases notMidnight with starts | ends
    · simp [starts]
    · simp [ends]
  rw [covers_iff]
  unfold contains weekday
  rw [day_sub_dayLength, spansDay_eq]
  by_cases spans : window.endTime.mins ≤ window.startTime.mins
  · simp [spans, not_lt.mpr spans]
  · simp [spans, not_le.mp spans, and_assoc]

theorem contains_of_midnight (starts : window.startTime.mins = 0) (ends : window.endTime.mins = 0) :
    window.contains zone instant = false := by
  have now_mem := currentMins_mem zone instant
  have notBefore : ¬ hour zone instant * 60 + minute zone instant < 0 := not_lt.mpr now_mem.1
  unfold contains spansDay
  simp [starts, ends, notBefore]

/-- A window contains the instants of its intervals iff it has no days or is not one from midnight
to midnight. -/
theorem contains_iff_covers_iff (lib : Libraries) (config : Window) (zone : Int) :
    ∀ window, parseWindow lib config = .ok window →
      ((∀ instant, window.contains zone instant = true ↔ window.Covers zone instant) ↔
        window.days = [] ∨ ¬ (window.startTime.mins = 0 ∧ window.endTime.mins = 0)) := by
  intro window _
  constructor
  · intro exact_
    by_contra midnight
    rw [not_or, not_not] at midnight
    obtain ⟨name, configured⟩ := List.exists_mem_of_ne_nil _ midnight.1
    obtain ⟨day, -, -, rfl⟩ := exists_ofDay name 0
    have covers : window.Covers zone (window.startOn zone day) := by
      refine ⟨_, ⟨day, configured, rfl⟩, le_rfl, ?_⟩
      rw [duration_eq, midnight.2.1, midnight.2.2]
      unfold minuteLength
      omega
    have contained := (exact_ _).mpr covers
    rw [contains_of_midnight midnight.2.1 midnight.2.2] at contained
    cases contained
  · rintro (noDays | notMidnight) instant
    · simp [contains, Covers, Opens, noDays]
    · exact contains_iff_covers (not_and_or.mp notMidnight)

theorem contains_iff_covers_of_nights :
    ∃ window, parseWindow ⟨hexEncode64, id⟩
        ⟨[ofAscii "Weekend"], ofAscii "22:00", ofAscii "06:00"⟩ = .ok window ∧
      ∀ instant, window.contains 0 instant = true ↔ window.Covers 0 instant := by
  have accepted : parseWindow ⟨hexEncode64, id⟩
      ⟨[ofAscii "Weekend"], ofAscii "22:00", ofAscii "06:00"⟩ = .ok ⟨[.saturday, .sunday],
        ⟨22, 0, by decide, by decide⟩, ⟨6, 0, by decide, by decide⟩⟩ := rfl
  exact ⟨_, accepted, (contains_iff_covers_iff _ _ 0 _ accepted).mpr (.inr (by decide))⟩

/-- A window on Saturdays from midnight to midnight does not contain Saturday noon. -/
theorem not_contains_of_midnight_window :
    ∃ window, parseWindow ⟨hexEncode64, id⟩
        ⟨[ofAscii "sat"], ofAscii "00:00", ofAscii "00:00"⟩ = .ok window ∧
      window.contains 0 (date 0 2 12 0) = false ∧ window.Covers 0 (date 0 2 12 0) :=
  ⟨⟨[.saturday], ⟨0, 0, by decide, by decide⟩, ⟨0, 0, by decide, by decide⟩⟩, rfl, by decide,
    date 0 2 0 0, ⟨2, by decide, rfl⟩, by decide, by decide⟩

/-! ## The next start -/

/-- The search finds the least start from the day of the candidate on, within the days left. -/
theorem nextStartFrom_isLeast {tries : Nat} {candidate other : Int}
    (notBefore : day zone candidate ≤ other) (before : other < day zone candidate + tries)
    (configured : .ofDay other ∈ window.days) (after : instant < window.startOn zone other) :
    IsLeast {start | instant < start ∧ ∃ other, day zone candidate ≤ other ∧
        .ofDay other ∈ window.days ∧ start = window.startOn zone other}
      (window.nextStartFrom zone instant tries candidate) := by
  induction tries generalizing candidate with
  | zero => omega
  | succ tries ih =>
    unfold nextStartFrom weekday
    dsimp only
    split
    · rename_i found
      simp only [List.contains_iff_mem, Bool.and_eq_true, decide_eq_true_eq] at found
      refine ⟨⟨found.2, _, le_rfl, found.1, rfl⟩, ?_⟩
      rintro _ ⟨-, later, notBefore, -, rfl⟩
      unfold startOn date dayLength
      omega
    · rename_i notFound
      simp only [List.contains_iff_mem, Bool.and_eq_true, decide_eq_true_eq] at notFound
      have next : day zone (date zone (day zone candidate + 1) 0 0) = day zone candidate + 1 :=
        day_date zone _ ⟨0, 0, by decide, by decide⟩
      have later : ∀ other, day zone candidate ≤ other → .ofDay other ∈ window.days →
          instant < window.startOn zone other → day zone candidate + 1 ≤ other := by
        intro other notBefore configured after
        refine lt_of_le_of_ne notBefore ?_
        rintro rfl
        exact notFound ⟨configured, after⟩
      have least := @ih (date zone (day zone candidate + 1) 0 0)
        (by rw [next]; exact later other notBefore configured after) (by omega)
      rw [next] at least
      refine ⟨⟨least.1.1, ?_⟩, ?_⟩
      · obtain ⟨-, first, notEarlier, isDay, same⟩ := least.1
        exact ⟨first, by omega, isDay, same⟩
      · rintro _ ⟨isAfter, first, notEarlier, isDay, rfl⟩
        exact least.2 ⟨isAfter, first, later first notEarlier isDay isAfter, isDay, rfl⟩

theorem nextStart_isLeast (nonempty : window.days ≠ []) (zone instant : Int) :
    IsLeast {start | instant < start ∧ window.Opens zone start}
      (window.nextStart zone instant) := by
  have start_mem := window.startTime.mins_mem
  have today := day_mem zone instant
  have starts : ∀ other, date zone other 0 0 ≤ window.startOn zone other ∧
      window.startOn zone other < date zone (other + 1) 0 0 := by
    intro other
    unfold TimeOfDay.mins at start_mem
    unfold startOn date dayLength minuteLength
    omega
  obtain ⟨name, configured⟩ := List.exists_mem_of_ne_nil _ nonempty
  obtain ⟨other, future, near, rfl⟩ := exists_ofDay name (day zone instant)
  have least := @nextStartFrom_isLeast zone instant window 8 instant other future.le
    (by omega) configured (by have := starts other; unfold date dayLength at *; omega)
  rw [nextStart, if_neg (by simpa using nonempty)]
  refine ⟨⟨least.1.1, ?_⟩, ?_⟩
  · obtain ⟨-, first, -, isDay, same⟩ := least.1
    exact ⟨first, isDay, same⟩
  · rintro _ ⟨isAfter, first, isDay, rfl⟩
    refine least.2 ⟨isAfter, first, ?_, isDay, rfl⟩
    have := starts first
    unfold date dayLength at *
    omega

/-- A window that contains an instant has opened since an earlier one, or contained that one. -/
theorem contains_or_nextStart_le {earlier : Int} (nonempty : window.days ≠ [])
    (notAfter : earlier ≤ instant) (contained : window.contains zone instant = true) :
    window.contains zone earlier = true ∨ window.nextStart zone earlier ≤ instant := by
  have notMidnight : window.startTime.mins ≠ 0 ∨ window.endTime.mins ≠ 0 := by
    rw [← not_and_or]
    rintro ⟨starts, ends⟩
    rw [contains_of_midnight starts ends] at contained
    cases contained
  obtain ⟨start, isStart, begun, before⟩ := (contains_iff_covers notMidnight).mp contained
  rcases le_or_gt start earlier with notLater | isLater
  · exact .inl ((contains_iff_covers notMidnight).mpr
      ⟨start, isStart, notLater, lt_of_le_of_lt notAfter before⟩)
  · exact .inr (((nextStart_isLeast nonempty zone earlier).2 ⟨isLater, isStart⟩).trans begun)

end ParsedWindow

/-- The loop over the windows keeps the least start, while none is the zero time. -/
theorem foldl_isLeast {starts : ParsedWindow → Int} {windows : List ParsedWindow}
    (isTime : ∀ window ∈ windows, starts window ≠ zeroTime) {earliest : Int}
    (begun : earliest ≠ zeroTime) :
    IsLeast {start | start = earliest ∨ ∃ window ∈ windows, start = starts window}
      (windows.foldl
        (fun earliest window =>
          if starts window ≠ zeroTime ∧ (earliest = zeroTime ∨ starts window < earliest) then
            starts window
          else earliest)
        earliest) := by
  induction windows generalizing earliest with
  | nil => simp [IsLeast, lowerBounds]
  | cons window windows ih =>
    rw [List.forall_mem_cons] at isTime
    rw [List.foldl_cons]
    simp only [List.mem_cons, exists_eq_or_imp]
    by_cases sooner : starts window < earliest
    · rw [if_pos ⟨isTime.1, .inr sooner⟩]
      have least := ih isTime.2 isTime.1
      refine ⟨.inr least.1, ?_⟩
      rintro _ (rfl | isStart)
      · exact (least.2 (.inl rfl)).trans sooner.le
      · exact least.2 isStart
    · rw [if_neg fun both => both.2.elim begun sooner]
      have least := ih isTime.2 begun
      refine ⟨least.1.imp_right .inr, ?_⟩
      rintro _ (rfl | rfl | isStart)
      · exact least.2 (.inl rfl)
      · exact (least.2 (.inl rfl)).trans (not_lt.mp sooner)
      · exact least.2 (.inr isStart)

theorem nextWindowStart_isLeast {windows : List ParsedWindow} {now : Int}
    (isTime : ∀ window ∈ windows, window.nextStart zone now ≠ zeroTime)
    (outside : isInWindow windows zone now = false) :
    IsLeast {start | ∃ window ∈ windows, start = window.nextStart zone now}
      (nextWindowStart windows zone now) := by
  cases windows with
  | nil => cases outside
  | cons window windows =>
    have least := foldl_isLeast (fun other mem => isTime other (List.mem_cons_of_mem _ mem))
      (isTime window List.mem_cons_self)
    simpa [nextWindowStart, outside, isTime window List.mem_cons_self] using least

/-- The next start of a window is the least one after an instant. Outside all windows, none is
entered before the earliest next start, which is waited for. -/
theorem nextStart_least_and_quiet_before (windows : List ParsedWindow) (zone instant : Int)
    (nonempty : ∀ window ∈ windows, window.days ≠ []) :
    (∀ window ∈ windows,
      IsLeast {start | instant < start ∧ window.Opens zone start} (window.nextStart zone instant)) ∧
    ((∀ window ∈ windows, window.contains zone instant = false) →
      ∀ earliest, IsLeast {start | ∃ window ∈ windows, start = window.nextStart zone instant}
          earliest →
        (∀ between, instant ≤ between → between < earliest →
          ∀ window ∈ windows, window.contains zone between = false) ∧
        (zeroTime ≤ instant → nextWindowStart windows zone instant = earliest)) := by
  have isLeast : ∀ window ∈ windows, IsLeast {start | instant < start ∧ window.Opens zone start}
      (window.nextStart zone instant) :=
    fun window mem => window.nextStart_isLeast (nonempty window mem) zone instant
  refine ⟨isLeast, fun outside earliest isEarliest => ⟨?_, ?_⟩⟩
  · intro between notBefore before window mem
    by_contra contained
    rcases window.contains_or_nextStart_le (nonempty window mem) notBefore
      (Bool.not_eq_false _ ▸ contained) with contained | opened
    · rw [outside window mem] at contained
      cases contained
    · exact absurd (isEarliest.2 ⟨window, mem, rfl⟩) (not_le.mpr (lt_of_le_of_lt opened before))
  · intro notEarly
    refine (nextWindowStart_isLeast (fun window mem => ?_) ?_).unique isEarliest
    · exact (lt_of_le_of_lt notEarly (isLeast window mem).1.1).ne'
    · obtain ⟨⟨window, mem, -⟩, -⟩ := isEarliest
      simpa [isInWindow, List.ne_nil_of_mem mem] using outside

/-- On Thursday at noon, of a window on weekend nights and one on Friday afternoons, the second is
next. -/
theorem nextWindowStart_of_weekend :
    let nights : ParsedWindow :=
      ⟨[.saturday, .sunday], ⟨22, 0, by decide, by decide⟩, ⟨6, 0, by decide, by decide⟩⟩
    let afternoon : ParsedWindow :=
      ⟨[.friday], ⟨14, 30, by decide, by decide⟩, ⟨18, 0, by decide, by decide⟩⟩
    nextWindowStart [nights, afternoon] 0 (date 0 0 12 0) = date 0 1 14 30 := by
  intro nights afternoon
  have nonempty : ∀ window ∈ [nights, afternoon], window.days ≠ [] := by simp [nights, afternoon]
  have first : nights.nextStart 0 (date 0 0 12 0) = date 0 2 22 0 := by decide
  have second : afternoon.nextStart 0 (date 0 0 12 0) = date 0 1 14 30 := by decide
  have outside : ∀ window ∈ [nights, afternoon], window.contains 0 (date 0 0 12 0) = false := by
    simp only [List.forall_mem_cons]
    decide
  have isEarliest : IsLeast {start | ∃ window ∈ [nights, afternoon],
      start = window.nextStart 0 (date 0 0 12 0)} (date 0 1 14 30) := by
    have sooner : date 0 1 14 30 ≤ date 0 2 22 0 := by decide
    simp [IsLeast, lowerBounds, first, second, sooner]
  exact ((nextStart_least_and_quiet_before [nights, afternoon] 0 (date 0 0 12 0) nonempty).2
    outside _ isEarliest).2 (by decide)

end Debswarm.Scheduler
