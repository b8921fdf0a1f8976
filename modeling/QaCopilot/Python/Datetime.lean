import QaCopilot.Python.Float

/-!
# `datetime`

Dates, times of day and fixed offsets from UTC, with `datetime.fromisoformat`,
`datetime.isoformat` and `datetime.astimezone(timezone.utc)`.

* `fromisoformat_isoformat`: the reader takes back the text of a time in UTC.
-/

namespace QaCopilot.Python

/-! ## Values -/

/-- `calendar.isleap` -/
def isLeap (year : Nat) : Bool := year % 4 = 0 && (year % 100 ≠ 0 || year % 400 = 0)

def daysInMonth (year month : Nat) : Nat :=
  if month = 2 then if isLeap year then 29 else 28
  else if month = 4 ∨ month = 6 ∨ month = 9 ∨ month = 11 then 30
  else 31

structure Date where
  year : Nat
  month : Nat
  day : Nat
  years : 1 ≤ year ∧ year ≤ 9999
  months : 1 ≤ month ∧ month ≤ 12
  days : 1 ≤ day ∧ day ≤ daysInMonth year month
deriving DecidableEq

/-- `date(year, month, day)`; none where Python raises `ValueError`. -/
def Date.make (year month day : Nat) : Option Date :=
  if years : 1 ≤ year ∧ year ≤ 9999 then
    if months : 1 ≤ month ∧ month ≤ 12 then
      if days : 1 ≤ day ∧ day ≤ daysInMonth year month then
        some ⟨year, month, day, years, months, days⟩
      else none
    else none
  else none

theorem Date.make_self (d : Date) : Date.make d.year d.month d.day = some d := by
  rw [Date.make, dif_pos d.years, dif_pos d.months, dif_pos d.days]

structure TimeOfDay where
  hour : Nat
  minute : Nat
  second : Nat
  microsecond : Nat
  hours : hour ≤ 23
  minutes : minute ≤ 59
  seconds : second ≤ 59
  microseconds : microsecond ≤ 999999
deriving DecidableEq

/-- `time(hour, minute, second, microsecond)`; none where Python raises `ValueError`. -/
def TimeOfDay.make (hour minute second microsecond : Nat) : Option TimeOfDay :=
  if hours : hour ≤ 23 then
    if minutes : minute ≤ 59 then
      if seconds : second ≤ 59 then
        if microseconds : microsecond ≤ 999999 then
          some ⟨hour, minute, second, microsecond, hours, minutes, seconds, microseconds⟩
        else none
      else none
    else none
  else none

theorem TimeOfDay.make_self (t : TimeOfDay) :
    TimeOfDay.make t.hour t.minute t.second t.microsecond = some t := by
  rw [TimeOfDay.make, dif_pos t.hours, dif_pos t.minutes, dif_pos t.seconds,
    dif_pos t.microseconds]

/-- A date and a time of day, without a zone. -/
structure Moment where
  date : Date
  time : TimeOfDay
deriving DecidableEq

def microsecondsPerDay : Nat := 86400000000

/-- `timezone(timedelta(microseconds=...))`: less than a day from UTC. -/
structure Offset where
  microseconds : Int
  range : microseconds.natAbs < microsecondsPerDay
deriving DecidableEq

def Offset.utc : Offset := ⟨0, by decide⟩

def Offset.make (microseconds : Int) : Option Offset :=
  if range : microseconds.natAbs < microsecondsPerDay then some ⟨microseconds, range⟩ else none

/-- A `datetime`; its zone matters only by `utcoffset()`. -/
structure Datetime where
  wall : Moment
  offset : Option Offset
deriving DecidableEq

/-! ## The calendar -/

def daysBeforeYear (year : Nat) : Nat :=
  let y := year - 1
  y * 365 + y / 4 - y / 100 + y / 400

/-- `date.toordinal` -/
def Date.toordinal (d : Date) : Nat :=
  daysBeforeYear d.year + ((List.range' 1 (d.month - 1)).map (daysInMonth d.year)).sum + d.day

def Date.next (d : Date) : Option Date :=
  if d.day < daysInMonth d.year d.month then Date.make d.year d.month (d.day + 1)
  else if d.month < 12 then Date.make d.year (d.month + 1) 1
  else Date.make (d.year + 1) 1 1

def Date.previous (d : Date) : Option Date :=
  if 1 < d.day then Date.make d.year d.month (d.day - 1)
  else if 1 < d.month then Date.make d.year (d.month - 1) (daysInMonth d.year (d.month - 1))
  else Date.make (d.year - 1) 12 31

def TimeOfDay.sinceMidnight (t : TimeOfDay) : Nat :=
  ((t.hour * 60 + t.minute) * 60 + t.second) * 1000000 + t.microsecond

def TimeOfDay.ofMicroseconds (n : Nat) : TimeOfDay where
  hour := n / 3600000000 % 24
  minute := n / 60000000 % 60
  second := n / 1000000 % 60
  microsecond := n % 1000000
  hours := by omega
  minutes := by omega
  seconds := by omega
  microseconds := by omega

/-- Microseconds since the start of year 1 in UTC; what comparisons of two times compare. -/
def Moment.instant (m : Moment) (o : Offset) : Int :=
  m.date.toordinal * microsecondsPerDay + m.time.sinceMidnight - o.microseconds

/-- `astimezone(timezone.utc)`; none where Python raises `OverflowError`. -/
def Moment.toUtc (m : Moment) (o : Offset) : Option Moment := do
  let time : Int := m.time.sinceMidnight - o.microseconds
  let date ←
    if time < 0 then m.date.previous
    else if microsecondsPerDay ≤ time then m.date.next
    else some m.date
  return ⟨date, .ofMicroseconds (time % microsecondsPerDay).toNat⟩

theorem TimeOfDay.sinceMidnight_lt (t : TimeOfDay) : t.sinceMidnight < microsecondsPerDay := by
  have := t.hours
  have := t.minutes
  have := t.seconds
  have := t.microseconds
  unfold sinceMidnight microsecondsPerDay
  omega

theorem TimeOfDay.ofMicroseconds_sinceMidnight (t : TimeOfDay) :
    ofMicroseconds t.sinceMidnight = t := by
  have := t.hours
  have := t.minutes
  have := t.seconds
  have := t.microseconds
  rcases t with ⟨hour, minute, second, microsecond, _, _, _, _⟩
  simp only [ofMicroseconds, sinceMidnight, TimeOfDay.mk.injEq]
  omega

theorem Moment.toUtc_utc (m : Moment) : m.toUtc .utc = some m := by
  have late := m.time.sinceMidnight_lt
  have early : ((m.time.sinceMidnight : Int) - Offset.utc.microseconds) = m.time.sinceMidnight := by
    rw [Offset.utc, sub_zero]
  rw [Moment.toUtc, early, if_neg (by omega), if_neg (by omega)]
  have same : ((m.time.sinceMidnight : Int) % microsecondsPerDay).toNat = m.time.sinceMidnight := by
    rw [Int.emod_eq_of_lt (by omega) (by omega), Int.toNat_natCast]
  rw [same, TimeOfDay.ofMicroseconds_sinceMidnight]
  rfl

/-! ## `isoformat` -/

/-- The last `width` decimal digits of `n`. -/
def padded : Nat → Nat → Str
  | 0, _ => []
  | width + 1, n => padded width (n / 10) ++ [CodePoint.ofChar (Nat.digitChar (n % 10))]

def Date.text (d : Date) : Str :=
  padded 4 d.year ++ lit "-" ++ padded 2 d.month ++ lit "-" ++ padded 2 d.day

def TimeOfDay.text (t : TimeOfDay) : Str :=
  padded 2 t.hour ++ lit ":" ++ padded 2 t.minute ++ lit ":" ++ padded 2 t.second ++
    if t.microsecond = 0 then [] else lit "." ++ padded 6 t.microsecond

/-- `isoformat` without the zone. -/
def Moment.isoformat (m : Moment) : Str := m.date.text ++ lit "T" ++ m.time.text

/-! ## `fromisoformat` -/

def parseDigits (n : Nat) (s : Str) : Option (Nat × Str) :=
  if n ≤ s.length ∧ (s.take n).all isDigit then some (ofDigits (s.take n), s.drop n) else none

def dropChar (c : Char) : Str → Option Str
  | [] => none
  | d :: s => if d = CodePoint.ofChar c then some s else none

/-- A separator, where the text uses separators. -/
def dropSeparator (c : Char) (used : Bool) (s : Str) : Option Str :=
  if used then dropChar c s else some s

/-- The day that comes this many days after the first of the month. -/
def Date.walk (year : Nat) : Nat → Nat → Nat → Option Date
  | 0, _, rest => Date.make (year + 1) 1 (rest + 1)
  | months + 1, month, rest =>
    if rest < daysInMonth year month then Date.make year month (rest + 1)
    else Date.walk year months (month + 1) (rest - daysInMonth year month)

/-- The day of an ISO week. The first week of a year is that of the fourth of January. -/
def Date.ofIsoWeek (year week day : Nat) : Option Date :=
  let first := daysBeforeYear year % 7
  let last := if first = 3 ∨ first = 2 ∧ isLeap year then 53 else 52
  if 1 ≤ year ∧ year ≤ 9999 ∧ 1 ≤ week ∧ week ≤ last ∧ 1 ≤ day ∧ day ≤ 7 then
    let monday : Int := if first ≤ 3 then -first else 7 - first
    let days := monday + 7 * (week - 1) + (day - 1)
    if days < 0 then Date.make (year - 1) 12 (32 + days).toNat
    else Date.walk year 12 1 days.toNat
  else none

/-- `YYYY-MM-DD` or `YYYY-Www[-D]`, with the dashes or without. -/
def parseDate (s : Str) : Option Date := do
  let (year, s) ← parseDigits 4 s
  let dashed := (dropChar '-' s).isSome
  let s ← dropSeparator '-' dashed s
  match dropChar 'W' s with
  | some s =>
    let (week, s) ← parseDigits 2 s
    if s = [] then Date.ofIsoWeek year week 1
    else
      let (day, s) ← parseDigits 1 (← dropSeparator '-' dashed s)
      if s = [] then Date.ofIsoWeek year week day else none
  | none =>
    let (month, s) ← parseDigits 2 s
    let (day, s) ← parseDigits 2 (← dropSeparator '-' dashed s)
    if s = [] then Date.make year month day else none

/-- Hours, minutes, seconds and microseconds. -/
abbrev Clock := Nat × Nat × Nat × Nat

/-- The six digits after the decimal mark; more are cut off. -/
def parseFraction : Str → Option Nat
  | [] => none
  | mark :: s =>
    if (mark = CodePoint.ofChar '.' ∨ mark = CodePoint.ofChar ',') ∧ s ≠ [] ∧ s.all isDigit then
      some (ofDigits ((s ++ List.replicate 6 (CodePoint.ofChar '0')).take 6))
    else none

/-- `HH[:MM[:SS[.ffffff]]]`, with the colons or without. -/
def parseClock (s : Str) : Option Clock := do
  let (hour, s) ← parseDigits 2 s
  if s = [] then return (hour, 0, 0, 0)
  let colons := (dropChar ':' s).isSome
  let (minute, s) ← parseDigits 2 (← dropSeparator ':' colons s)
  if s = [] then return (hour, minute, 0, 0)
  let (second, s) ← parseDigits 2 (← dropSeparator ':' colons s)
  if s = [] then return (hour, minute, second, 0)
  return (hour, minute, second, ← parseFraction s)

def isZoneMark (c : CodePoint) : Bool :=
  c = CodePoint.ofChar '+' || c = CodePoint.ofChar '-' || c = CodePoint.ofChar 'Z'

/-- Nothing, `Z`, or a sign and the time that the zone is from UTC. -/
def parseZone : Str → Option (Option Offset)
  | [] => some none
  | mark :: s =>
    if mark = CodePoint.ofChar 'Z' then if s = [] then some (some .utc) else none
    else do
      let (hours, minutes, seconds, microseconds) ← parseClock s
      let distance : Int := ((hours * 60 + minutes) * 60 + seconds) * 1000000 + microseconds
      return some (← Offset.make (if mark = CodePoint.ofChar '-' then -distance else distance))

/-- Where the date ends, which may be in front of any character. -/
def separatorAt (s : Str) : Option Nat :=
  let isAt (i : Nat) (c : Char) : Bool := s[i]? = some (CodePoint.ofChar c)
  if s.length < 7 then none
  else if s.length = 7 then some 7
  else if isAt 4 '-' then
    if isAt 5 'W' then
      if isAt 8 '-' then
        if s.length = 9 then none
        else if (s[10]?.map isDigit).getD false then some 8
        else some 10
      else some 8
    else some 10
  else if isAt 4 'W' then
    let stop := 7 + ((s.drop 7).takeWhile isDigit).length
    if stop < 9 then some stop
    else if stop % 2 = 0 then some 7
    else some 8
  else some 8

/-- `datetime.fromisoformat`; none where Python raises `ValueError`. -/
def fromisoformat (s : Str) : Option Datetime := do
  let stop ← separatorAt s
  let date ← parseDate (s.take stop)
  match s.drop stop with
  | [] => return ⟨⟨date, ← TimeOfDay.make 0 0 0 0⟩, none⟩
  | _ :: s =>
    let (hour, minute, second, microsecond) ← parseClock (s.takeWhile (!isZoneMark ·))
    let time ← TimeOfDay.make hour minute second microsecond
    return ⟨⟨date, time⟩, ← parseZone (s.dropWhile (!isZoneMark ·))⟩

/-- `value.replace("Z", "+00:00")` -/
def withOffset (s : Str) : Str :=
  s.flatMap fun c => if c = CodePoint.ofChar 'Z' then lit "+00:00" else [c]

/-! ## Reading back a written time -/

def digit (n : Nat) : CodePoint := CodePoint.ofChar (Nat.digitChar n)

theorem length_padded (width n : Nat) : (padded width n).length = width := by
  induction width generalizing n with
  | zero => rfl
  | succ width ih => rw [padded, List.length_append, ih, List.length_singleton]

theorem isDigit_digit : ∀ {d : Nat}, d < 10 → isDigit (digit d) = true := by
  decide

theorem padded_isDigit {width n : Nat} {c : CodePoint} (h : c ∈ padded width n) :
    isDigit c = true := by
  induction width generalizing n with
  | zero => cases h
  | succ width ih =>
    rcases List.mem_append.mp h with h | h
    · exact ih h
    · rw [List.mem_singleton.mp h]
      exact isDigit_digit (Nat.mod_lt _ (by decide))

theorem ofDigits_padded {width n : Nat} (h : n < 10 ^ width) : ofDigits (padded width n) = n := by
  induction width generalizing n with
  | zero =>
    have zero : n = 0 := by omega
    rw [zero]
    rfl
  | succ width ih =>
    have value : ∀ d < 10, ofDigits [digit d] = d := by decide
    have front : n / 10 < 10 ^ width := by
      rw [pow_succ] at h
      omega
    have last := value (n % 10) (Nat.mod_lt _ (by decide))
    rw [digit] at last
    rw [padded, ofDigits_append, ih front, last, List.length_singleton]
    omega

theorem parseDigits_padded {width n : Nat} (h : n < 10 ^ width) (rest : Str) :
    parseDigits width (padded width n ++ rest) = some (n, rest) := by
  have front : (padded width n ++ rest).take width = padded width n := by
    rw [List.take_left' (length_padded width n)]
  have back : (padded width n ++ rest).drop width = rest := by
    rw [List.drop_left' (length_padded width n)]
  have long : width ≤ (padded width n ++ rest).length := by
    rw [List.length_append, length_padded]
    omega
  have all : (padded width n).all isDigit = true :=
    List.all_eq_true.mpr fun _ hc => padded_isDigit hc
  rw [parseDigits, front, back, if_pos ⟨long, all⟩, ofDigits_padded h]

/-- A text that starts with a digit starts with no other character. -/
theorem dropChar_padded {c : Char} {width n : Nat} {rest : Str}
    (other : isDigit (CodePoint.ofChar c) = false) :
    dropChar c (padded (width + 1) n ++ rest) = none := by
  have first : ∃ d s, padded (width + 1) n = d :: s ∧ isDigit d = true := by
    cases eq : padded (width + 1) n with
    | nil => exact absurd (congrArg List.length eq) (by rw [length_padded]; simp)
    | cons d s => exact ⟨d, s, rfl, padded_isDigit (eq ▸ List.mem_cons_self)⟩
  obtain ⟨d, s, eq, digit⟩ := first
  have ne : d ≠ CodePoint.ofChar c := by
    rintro rfl
    rw [digit] at other
    cases other
  rw [eq, List.cons_append, dropChar, if_neg ne]

theorem dropChar_self (c : Char) (s : Str) : dropChar c (CodePoint.ofChar c :: s) = some s := by
  rw [dropChar, if_pos rfl]

theorem Date.length_text (d : Date) : d.text.length = 10 := by
  simp only [Date.text, List.length_append, length_padded, lit_eq, List.length_map]
  rfl

theorem Date.parts (d : Date) : d.text = padded 4 d.year ++ (CodePoint.ofChar '-' ::
    (padded 2 d.month ++ (CodePoint.ofChar '-' :: (padded 2 d.day ++ [])))) := by
  simp only [Date.text, List.append_assoc, List.append_nil]
  rfl

theorem daysInMonth_le (year month : Nat) : daysInMonth year month ≤ 31 := by
  unfold daysInMonth
  split_ifs <;> omega

theorem parseDate_text (d : Date) : parseDate d.text = some d := by
  have years := d.years
  have months := d.months
  have days := d.days
  have := daysInMonth_le d.year d.month
  rw [parseDate, Date.parts, parseDigits_padded (by omega)]
  simp only [Option.bind_eq_bind, Option.bind_some, dropChar_self, Option.isSome_some,
    dropSeparator, ↓reduceIte]
  rw [dropChar_padded (by decide)]
  simp only [parseDigits_padded (show d.month < 10 ^ 2 by omega), Option.bind_some, dropChar_self]
  rw [parseDigits_padded (by omega)]
  exact Date.make_self d

theorem TimeOfDay.parts (t : TimeOfDay) : t.text = padded 2 t.hour ++ (CodePoint.ofChar ':' ::
    (padded 2 t.minute ++ (CodePoint.ofChar ':' :: (padded 2 t.second ++
      if t.microsecond = 0 then [] else CodePoint.ofChar '.' :: padded 6 t.microsecond)))) := by
  simp only [TimeOfDay.text, List.append_assoc]
  rfl

theorem parseFraction_padded {n : Nat} (h : n < 10 ^ 6) :
    parseFraction (CodePoint.ofChar '.' :: padded 6 n) = some n := by
  have some' : padded 6 n ≠ [] := by
    intro empty
    have := congrArg List.length empty
    rw [length_padded] at this
    cases this
  have all : (padded 6 n).all isDigit = true :=
    List.all_eq_true.mpr fun _ hc => padded_isDigit hc
  rw [parseFraction, if_pos ⟨.inl rfl, some', all⟩, List.take_left' (length_padded 6 n),
    ofDigits_padded h]

theorem parseClock_text (t : TimeOfDay) :
    parseClock t.text = some (t.hour, t.minute, t.second, t.microsecond) := by
  have := t.hours
  have := t.minutes
  have := t.seconds
  have := t.microseconds
  rw [parseClock, TimeOfDay.parts, parseDigits_padded (by omega)]
  simp only [Option.bind_eq_bind, Option.bind_some, reduceCtorEq, ↓reduceIte, dropChar_self,
    Option.isSome_some, dropSeparator]
  rw [parseDigits_padded (by omega)]
  simp only [Option.bind_some, reduceCtorEq, ↓reduceIte, dropChar_self]
  rw [parseDigits_padded (by omega)]
  by_cases whole : t.microsecond = 0
  · simp [whole]
  · simp only [if_neg whole, Option.bind_some, reduceCtorEq, ↓reduceIte]
    rw [parseFraction_padded (by omega)]
    rfl

theorem TimeOfDay.text_unmarked (t : TimeOfDay) : ∀ c ∈ t.text, isZoneMark c = false := by
  have plain : ∀ {width n : Nat}, ∀ c ∈ padded width n, isZoneMark c = false := by
    intro width n c hc
    have digit := padded_isDigit hc
    simp only [isDigit, Bool.and_eq_true, decide_eq_true_eq] at digit
    simp only [isZoneMark, Bool.or_eq_false_iff, decide_eq_false_iff_not]
    refine ⟨⟨?_, ?_⟩, ?_⟩ <;> rintro rfl <;> revert digit <;> decide
  have colon : isZoneMark (CodePoint.ofChar ':') = false := by decide
  have point : isZoneMark (CodePoint.ofChar '.') = false := by decide
  rw [TimeOfDay.parts]
  simp only [List.forall_mem_append, List.forall_mem_cons]
  refine ⟨plain, colon, plain, colon, plain, ?_⟩
  split
  · exact fun _ h => absurd h List.not_mem_nil
  · exact List.forall_mem_cons.mpr ⟨point, plain⟩

theorem separatorAt_isoformat (m : Moment) (rest : Str) :
    separatorAt (m.isoformat ++ rest) = some 10 := by
  obtain ⟨d, e, month⟩ : ∃ d e, padded 2 m.date.month = [d, e] := by
    apply List.length_eq_two.mp
    exact length_padded 2 _
  have text : m.isoformat ++ rest = padded 4 m.date.year ++ (CodePoint.ofChar '-' :: d :: e ::
      (lit "-" ++ padded 2 m.date.day ++ lit "T" ++ m.time.text ++ rest)) := by
    simp only [Moment.isoformat, Date.text, month, List.append_assoc]
    rfl
  have dash : (m.isoformat ++ rest)[4]? = some (CodePoint.ofChar '-') := by
    rw [text, List.getElem?_append_right (by rw [length_padded]), length_padded]
    rfl
  have week : (m.isoformat ++ rest)[5]? ≠ some (CodePoint.ofChar 'W') := by
    rw [text, List.getElem?_append_right (by rw [length_padded]; decide), length_padded]
    have digit : isDigit d = true := padded_isDigit (month ▸ List.mem_cons_self)
    intro same
    rw [Option.some.inj same] at digit
    revert digit
    decide
  have long : 10 < (m.isoformat ++ rest).length := by
    simp only [Moment.isoformat, List.length_append, Date.length_text, lit_eq, List.length_map]
    have : "T".toList.length = 1 := rfl
    omega
  simp only [separatorAt, dash, decide_eq_true_eq, ↓reduceIte, if_neg week]
  rw [if_neg (by omega), if_neg (by omega)]

/-- The reader takes back the text of a time in UTC. -/
theorem fromisoformat_isoformat (m : Moment) :
    fromisoformat (m.isoformat ++ lit "+00:00") = some ⟨m, some .utc⟩ := by
  have date : (m.isoformat ++ lit "+00:00").take 10 = m.date.text := by
    rw [Moment.isoformat, List.append_assoc, List.append_assoc,
      List.take_left' (Date.length_text m.date)]
  have rest : (m.isoformat ++ lit "+00:00").drop 10
      = CodePoint.ofChar 'T' :: (m.time.text ++ lit "+00:00") := by
    rw [Moment.isoformat, List.append_assoc, List.append_assoc,
      List.drop_left' (Date.length_text m.date)]
    rfl
  have unmarked : ∀ c ∈ m.time.text, (!isZoneMark c) = true := by
    intro c hc
    rw [m.time.text_unmarked c hc]
    rfl
  have clock : (m.time.text ++ lit "+00:00").takeWhile (!isZoneMark ·) = m.time.text := by
    rw [List.takeWhile_append_of_pos unmarked]
    have none' : (lit "+00:00").takeWhile (!isZoneMark ·) = [] := by decide
    rw [none', List.append_nil]
  have zone : (m.time.text ++ lit "+00:00").dropWhile (!isZoneMark ·) = lit "+00:00" := by
    rw [List.dropWhile_append_of_pos unmarked]
    decide
  have utc : parseZone (lit "+00:00") = some (some .utc) := by decide
  rw [fromisoformat, separatorAt_isoformat]
  simp only [Option.bind_eq_bind, Option.bind_some, date, parseDate_text, rest, clock,
    parseClock_text, TimeOfDay.make_self, zone, utc]
  rfl

example : (fromisoformat (lit "2021-W01-7T01:30:00-01:00")).map (·.wall.date.toordinal)
    = some 737800 := by decide

end QaCopilot.Python
