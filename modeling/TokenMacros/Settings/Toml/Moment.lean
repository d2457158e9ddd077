import TokenMacros.Settings.Toml.Scalar

/-!
# Dates and times of a TOML document

A date, a time of day, or both with an optional distance from universal time.
-/

namespace TokenMacros.Toml

/-- A number of exactly two digits, at most `largest`. -/
def twoDigits? (largest : Nat) : List Char → Option (Nat × List Char)
  | a :: b :: rest =>
    let value := (a.toNat - 48) * 10 + (b.toNat - 48)
    if a.isDigit && b.isDigit && value ≤ largest then some (value, rest)
    else none
  | _ => none

/-- Reads one character. -/
def mark? (expected : Char) : List Char → Option (List Char)
  | c :: rest => if c = expected then some rest else none
  | [] => none

structure DayTime where
  hour : Nat
  minute : Nat
  second : Nat
  microsecond : Nat

structure Date where
  year : Nat
  month : Nat
  day : Nat

/-- The microseconds behind the point of a time; further digits are dropped. -/
def microseconds : List Char → Nat × List Char
  | '.' :: rest =>
    let digits := rest.takeWhile Char.isDigit
    if digits.isEmpty then (0, '.' :: rest)
    else
      let kept := digits.take 6
      (digitsValue 10 (kept ++
        List.replicate (6 - kept.length) '0'), rest.drop digits.length)
  | text => (0, text)

/-- A time at the front of the text. -/
def dayTime? (text : List Char) : Option (DayTime × List Char) := do
  let (hour, rest) ← twoDigits? 23 text
  let (minute, rest) ← twoDigits? 59 (← mark? ':' rest)
  let (second, rest) ← twoDigits? 59 (← mark? ':' rest)
  let (microsecond, rest) := microseconds rest
  return (⟨hour, minute, second, microsecond⟩, rest)

/-- A date at the front of the text, with a month and a day that some month has.
-/
def date? (text : List Char) : Option (Date × List Char) := do
  let (century, rest) ← twoDigits? 99 text
  let (inCentury, rest) ← twoDigits? 99 rest
  let (month, rest) ← twoDigits? 12 (← mark? '-' rest)
  let (day, rest) ← twoDigits? 31 (← mark? '-' rest)
  if month = 0 || day = 0 then none
  else return (⟨century * 100 + inCentury, month, day⟩, rest)

/-- The distance from universal time, in minutes. -/
def offset? : List Char → Option (Int × List Char)
  | c :: rest =>
    if c == 'Z' || c == 'z' then some (0, rest)
    else if c == '+' || c == '-' then do
      let (hours, rest) ← twoDigits? 23 rest
      let (minutes, rest) ← twoDigits? 59 (← mark? ':' rest)
      let distance : Int := hours * 60 + minutes
      return (if c == '-' then -distance else distance, rest)
    else none
  | [] => none

/-- A year in which February has 29 days. -/
def isLeapYear (year : Nat) : Bool :=
  year % 4 == 0 && (year % 100 != 0 || year % 400 == 0)

def daysIn (year month : Nat) : Nat :=
  if month = 2 then (if isLeapYear year then 29 else 28)
  else if month = 4 || month = 6 || month = 9 || month = 11 then 30
  else 31

/-- The month has such a day.  Years begin at one. -/
def Date.isReal (date : Date) : Bool :=
  1 ≤ date.year && date.day ≤ daysIn date.year date.month

/-- The days before a date, from the beginning of the year one on. -/
def Date.days (date : Date) : Nat :=
  let years := date.year - 1
  let months := (List.range (date.month - 1)).map fun month => daysIn date.year (month + 1)
  365 * years + years / 4 - years / 100 + years / 400 + months.foldl (· + ·) 0 +
    (date.day - 1)

/-- Microseconds of a day. -/
def DayTime.instant (time : DayTime) : Int :=
  ((time.hour * 60 + time.minute) * 60 + time.second) * 1000000 + time.microsecond

def microsecondsOfMinute : Int := 60000000

def microsecondsOfDay : Int := 1440 * microsecondsOfMinute

def padded (width n : Nat) : String :=
  let digits := toString n
  String.ofList (List.replicate (width - digits.length) '0') ++ digits

def Date.text (date : Date) : String :=
  padded 4 date.year ++ "-" ++ padded 2 date.month ++ "-" ++ padded 2 date.day

def DayTime.text (time : DayTime) : String :=
  padded 2 time.hour ++ ":" ++ padded 2 time.minute ++ ":" ++
    padded 2 time.second ++
    (if time.microsecond = 0 then "" else "." ++ padded 6 time.microsecond)

/-- Sign, hours and minutes of a distance from universal time. -/
def offsetText (minutes : Int) : String :=
  (if minutes < 0 then "-" else "+") ++ padded 2 (minutes.natAbs / 60) ++ ":" ++
    padded 2 (minutes.natAbs % 60)

/-- A date, or a date and a time, at the front of the text. -/
def dateValue? (text : List Char) :
    Option (Except Refusal (Value × List Char)) := do
  let (date, rest) ← date? text
  if !date.isReal then some (.error .malformed)
  else
    let timed : Option (DayTime × List Char) :=
      match rest with
      | c :: rest =>
        if c == 'T' || c == 't' || c == ' ' then dayTime? rest else none
      | [] => none
    match timed with
    | none => some (.ok (.moment ⟨.date, date.text, date.days * microsecondsOfDay⟩, rest))
    | some (time, rest) =>
      let written := date.text ++ " " ++ time.text
      let instant := date.days * microsecondsOfDay + time.instant
      match offset? rest with
      | some (minutes, rest) =>
        let universal := instant - minutes * microsecondsOfMinute
        some (.ok (.moment ⟨.dateTime, written ++ offsetText minutes, universal⟩, rest))
      | none => some (.ok (.moment ⟨.localDateTime, written, instant⟩, rest))

/-- A time at the front of the text. -/
def timeValue? (text : List Char) : Option (Value × List Char) :=
  (dayTime? text).map fun (time, rest) => (.moment ⟨.time, time.text, time.instant⟩, rest)

end TokenMacros.Toml
