namespace Gatehouse

structure Date where
  year : Nat
  month : Nat
  day : Nat
  deriving DecidableEq

/-- A date with a time of day, and the seconds that its clock is ahead of universal time if that is
known. -/
structure Moment where
  date : Date
  hour : Nat
  minute : Nat
  second : Nat
  micro : Nat
  offset : Option Int
  deriving DecidableEq

def isLeapYear (year : Nat) : Bool :=
  year % 4 == 0 && (year % 100 != 0 || year % 400 == 0)

def daysInMonth (year month : Nat) : Nat :=
  if month = 2 then (if isLeapYear year then 29 else 28)
  else if month = 4 ∨ month = 6 ∨ month = 9 ∨ month = 11 then 30
  else 31

/-- Why a written date or time names no date or time. -/
inductive CalendarFault where
  | year (year : Nat)
  | month
  | day
  | hour
  | minute
  | second
  | offset (seconds : Int)
  deriving DecidableEq

def Date.check (d : Date) : Except CalendarFault Unit :=
  if d.year = 0 then .error (.year d.year)
  else if d.month = 0 ∨ 12 < d.month then .error .month
  else if d.day = 0 ∨ daysInMonth d.year d.month < d.day then .error .day
  else .ok ()

/-- The date is looked at before the time, and the clock's distance to universal time before
both. -/
def Moment.check (m : Moment) : Except CalendarFault Unit := do
  if m.offset.any fun s => decide (86400 ≤ s.natAbs) then .error (.offset (m.offset.getD 0))
  m.date.check
  if 23 < m.hour then .error .hour
  else if 59 < m.minute then .error .minute
  else if 59 < m.second then .error .second
  else .ok ()

/-- Days since the last day of the year before year one. -/
def Date.ordinal (d : Date) : Nat :=
  let y := d.year - 1
  365 * y + y / 4 - y / 100 + y / 400
    + (List.range (d.month - 1)).foldl (fun days m => days + daysInMonth d.year (m + 1)) 0 + d.day

/-- Microseconds on the moment's own clock less its distance to universal time. -/
def Moment.instant (m : Moment) : Int :=
  (((m.date.ordinal * 24 + m.hour) * 60 + m.minute) * 60 + m.second : Nat) * 1000000 + m.micro
    - m.offset.getD 0 * 1000000

/-- The number with zeros before it up to a width. -/
def padded (width n : Nat) : String :=
  let digits := Nat.toDigits 10 n
  String.ofList (List.replicate (width - digits.length) '0' ++ digits)

def Date.text (d : Date) : String :=
  padded 4 d.year ++ "-" ++ padded 2 d.month ++ "-" ++ padded 2 d.day

def offsetText (seconds : Int) : String :=
  let n := seconds.natAbs
  (if seconds < 0 then "-" else "+") ++ padded 2 (n / 3600) ++ ":" ++ padded 2 (n / 60 % 60)
    ++ (if n % 60 = 0 then "" else ":" ++ padded 2 (n % 60))

def Moment.text (m : Moment) : String :=
  m.date.text ++ " " ++ padded 2 m.hour ++ ":" ++ padded 2 m.minute ++ ":" ++ padded 2 m.second
    ++ (if m.micro = 0 then "" else "." ++ padded 6 m.micro)
    ++ (match m.offset with
      | none => ""
      | some s => offsetText s)

def Date.fields (d : Date) : List Nat := [d.year, d.month, d.day]

/-- The parts of a moment, without seconds and fractions that are zero at the end. -/
def Moment.fields (m : Moment) : List Nat :=
  m.date.fields ++ [m.hour, m.minute]
    ++ (if m.micro ≠ 0 then [m.second, m.micro] else if m.second ≠ 0 then [m.second] else [])

def commaSeparated (parts : List String) : String := String.intercalate ", " parts

/-- A span of time as whole days and the seconds left, which are never negative. -/
def displaySpan (seconds : Int) : String :=
  let days := seconds.fdiv 86400
  let rest := seconds.fmod 86400
  let parts := (if days = 0 then [] else ["days=" ++ toString days])
    ++ (if rest = 0 then [] else ["seconds=" ++ toString rest])
  "datetime.timedelta(" ++ (if parts.isEmpty then "0" else commaSeparated parts) ++ ")"

def displayOffset (seconds : Int) : String :=
  if seconds = 0 then "datetime.timezone.utc"
  else "datetime.timezone(" ++ displaySpan seconds ++ ")"

def Date.display (d : Date) : String :=
  "datetime.date(" ++ commaSeparated (d.fields.map toString) ++ ")"

def Moment.display (m : Moment) : String :=
  "datetime.datetime(" ++ commaSeparated (m.fields.map toString ++
    (match m.offset with
      | none => []
      | some s => ["tzinfo=" ++ displayOffset s])) ++ ")"

end Gatehouse
