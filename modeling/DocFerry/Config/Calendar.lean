import DocFerry.Number.Shortest
import DocFerry.Text.Quoted
/-!
# Days and times of day

A configuration may hold days and times, which are shown, and compared as keys.  A day is checked
against the calendar when it is made.  A time may be the time of a zone; two such times are the same
if they are the same instant, and a time of a zone is never the same as one without a zone.

Main facts: a checked day lies in its month (`mk?_day_le`), and a zone is less than a day away
(`Zone.mk?_lt`).
-/
namespace DocFerry.Config

/-- **Why a day or time does not exist.** -/
inductive CalendarFault where
  /-- The year is not from 1 to 9999. -/
  | year (n : Nat)
  /-- The month is not from 1 to 12. -/
  | month
  /-- The month has no such day. -/
  | day
  /-- The hour is not from 0 to 23. -/
  | hour
  /-- The minute is not from 0 to 59. -/
  | minute
  /-- The second is not from 0 to 59. -/
  | second
  /-- Rounded up to a second it leaves the years 1 to 9999. -/
  | overflow
  /-- The offset of the zone, in seconds, is a day or more. -/
  | offset (seconds : Int)
  deriving DecidableEq, Repr

/-- **A length of time** in days and seconds, each left out if it is zero. -/
def durationText (seconds : Int) : Text :=
  let signed := fun n : Int => (if n < 0 then ['-'] else []) ++ Binary64.decimalDigits n.natAbs
  let days := seconds / 86400
  let rest := seconds % 86400
  let parts := (if days = 0 then [] else ["days=".toList ++ signed days]) ++
    (if rest = 0 then [] else ["seconds=".toList ++ signed rest])
  "datetime.timedelta(".toList ++
    (if parts.isEmpty then ['0'] else Text.join ", ".toList parts) ++ [')']

/-- **The text of a calendar fault.** -/
def CalendarFault.message : CalendarFault → Text
  | .year n => "year ".toList ++ Binary64.decimalDigits n ++ " is out of range".toList
  | .month => "month must be in 1..12".toList
  | .day => "day is out of range for month".toList
  | .hour => "hour must be in 0..23".toList
  | .minute => "minute must be in 0..59".toList
  | .second => "second must be in 0..59".toList
  | .overflow => "date value out of range".toList
  | .offset seconds =>
    "offset must be a timedelta strictly between -timedelta(hours=24) and timedelta(hours=24), not ".toList
      ++ durationText seconds ++ ['.']

def isLeap (year : Nat) : Bool := year % 4 == 0 && (year % 100 != 0 || year % 400 == 0)

def monthLength (year month : Nat) : Nat :=
  if month = 2 then (if isLeap year then 29 else 28)
  else if month = 4 ∨ month = 6 ∨ month = 9 ∨ month = 11 then 30
  else 31

structure Day where
  year : Nat
  month : Nat
  /-- The day of the month, from 1. -/
  day : Nat
  deriving DecidableEq, Repr

/-- **A day checked against the calendar.** -/
def Day.mk? (year month day : Nat) : Except CalendarFault Day :=
  if year = 0 ∨ 9999 < year then .error (.year year)
  else if month = 0 ∨ 12 < month then .error .month
  else if day = 0 ∨ monthLength year month < day then .error .day
  else .ok ⟨year, month, day⟩

theorem Day.mk?_day_le {year month day : Nat} {d : Day} (h : Day.mk? year month day = .ok d) :
    1 ≤ d.day ∧ d.day ≤ monthLength d.year d.month := by
  unfold Day.mk? at h
  repeat (split at h; · cases h)
  cases h
  simp only
  omega

/-- **The days of a year before a month.** -/
def daysBefore (year : Nat) : (month : Nat) → Nat
  | 0 => 0
  | month + 1 => (if month = 0 then 0 else daysBefore year month + monthLength year month)

/-- **The number of a day**, the first of year 1 being number 1. -/
def Day.number (d : Day) : Nat :=
  let y := d.year - 1
  y * 365 + y / 4 - y / 100 + y / 400 + daysBefore d.year d.month + d.day

/-- **The day after**, none after the last of year 9999. -/
def Day.next? (d : Day) : Option Day :=
  if d.day < monthLength d.year d.month then some { d with day := d.day + 1 }
  else if d.month < 12 then some ⟨d.year, d.month + 1, 1⟩
  else if d.year < 9999 then some ⟨d.year + 1, 1, 1⟩
  else none

/-- **A zone**: how far its time is ahead, and how it is written. -/
structure Zone where
  /-- Seconds by which its time is ahead of the zone without offset. -/
  offset : Int
  name : Text
  deriving DecidableEq, Repr

/-- **A zone checked**: its offset is less than a day. -/
def Zone.mk? (offset : Int) (name : Text) : Except CalendarFault Zone :=
  if offset.natAbs < 86400 then .ok ⟨offset, name⟩ else .error (.offset offset)

theorem Zone.mk?_lt {offset : Int} {name : Text} {z : Zone} (h : Zone.mk? offset name = .ok z) :
    z.offset.natAbs < 86400 := by
  unfold Zone.mk? at h
  split at h
  · cases h; assumption
  · cases h

/-- **A day with a time of day**, in a zone or in none. -/
structure Moment where
  date : Day
  hour : Nat
  minute : Nat
  second : Nat
  micro : Nat
  zone : Option Zone := none
  deriving DecidableEq, Repr

/-- **A time of day checked**, on a day. -/
def Moment.mk? (date : Day) (hour minute second micro : Nat) (zone : Option Zone) :
    Except CalendarFault Moment :=
  if 23 < hour then .error .hour
  else if 59 < minute then .error .minute
  else if 59 < second then .error .second
  else .ok ⟨date, hour, minute, second, micro, zone⟩

def Moment.nextSecond (m : Moment) : Except CalendarFault Moment :=
  if m.second < 59 then .ok { m with second := m.second + 1 }
  else if m.minute < 59 then .ok { m with minute := m.minute + 1, second := 0 }
  else if m.hour < 23 then .ok { m with hour := m.hour + 1, minute := 0, second := 0 }
  else
    match m.date.next? with
    | some date => .ok { m with date, hour := 0, minute := 0, second := 0 }
    | none => .error .overflow

/-- **The seconds up to a moment**, in the zone without offset. -/
def Moment.instant (m : Moment) : Int :=
  (m.date.number * 86400 + m.hour * 3600 + m.minute * 60 + m.second : Nat) -
    ((m.zone.map Zone.offset).getD 0)

/-- **The same moment**: the same instant, both in a zone or both in none. -/
def Moment.same (m n : Moment) : Bool :=
  m.zone.isSome == n.zone.isSome && m.instant == n.instant && m.micro == n.micro

/-- **A natural number padded with zeros** to a width. -/
def padded (width n : Nat) : Text :=
  let digits := Binary64.decimalDigits n
  List.replicate (width - digits.length) '0' ++ digits

/-- **A day as year, month and day.** -/
def Day.text (d : Day) : Text :=
  padded 4 d.year ++ '-' :: padded 2 d.month ++ '-' :: padded 2 d.day

/-- **The offset of a zone** in hours and minutes. -/
def Zone.text (z : Zone) : Text :=
  let minutes := z.offset.natAbs / 60
  (if z.offset < 0 then '-' else '+') :: padded 2 (minutes / 60) ++ ':' :: padded 2 (minutes % 60)

/-- **A moment as day and time**, with the fraction of a second and the zone only if there is one. -/
def Moment.text (m : Moment) : Text :=
  m.date.text ++ ' ' :: padded 2 m.hour ++ ':' :: padded 2 m.minute ++ ':' :: padded 2 m.second ++
    (if m.micro = 0 then [] else '.' :: padded 6 m.micro) ++ (m.zone.map Zone.text).getD []

def numberList (ns : List Nat) : Text := Text.join ", ".toList (ns.map Binary64.decimalDigits)

def Day.nested (d : Day) : Text :=
  "datetime.date(".toList ++ numberList [d.year, d.month, d.day] ++ [')']

def Zone.nested (z : Zone) : Text :=
  "datetime.timezone(".toList ++ durationText z.offset ++ ", ".toList ++ Text.quoted z.name ++ [')']

/-- **A moment inside a list**: the seconds are left out if they and their fraction are zero. -/
def Moment.nested (m : Moment) : Text :=
  let seconds := if m.micro ≠ 0 then [m.second, m.micro] else if m.second ≠ 0 then [m.second] else []
  "datetime.datetime(".toList ++
    numberList ([m.date.year, m.date.month, m.date.day, m.hour, m.minute] ++ seconds) ++
    (m.zone.map fun z => ", tzinfo=".toList ++ z.nested).getD [] ++ [')']

end DocFerry.Config
