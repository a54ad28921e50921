import TypedId.Settings.Value

/-!
# Dates and times of documents

A date is written year-month-day and a time hour:minute:second, with a fraction if wanted; a time may
follow a date, and a zone such a time. No setting is a date: one is read as a table of its text.
-/

namespace TypedId.Settings.Document

/-- Exactly `count` decimal digits and their value. -/
def digitsOf? (count : Nat) (s : Text) : Option (Nat × Text) :=
  let digits := s.take count
  if digits.length = count ∧ digits.all Char.isDigit then
    some (Decimal.natOfDigits digits, s.drop count)
  else none

/-- Two digits with a value between two bounds. -/
def pair? (least greatest : Nat) (s : Text) : Option (Nat × Text) :=
  (digitsOf? 2 s).filter fun r => least ≤ r.1 && r.1 ≤ greatest

/-- The rest after a mark. -/
def mark? (mark : Char) (s : Text) : Option Text := [mark].isPrefixOf? s

def isLeapYear (year : Nat) : Bool := year % 4 = 0 && (year % 100 ≠ 0 || year % 400 = 0)

/-- The number of days of a month. -/
def daysOfMonth (year month : Nat) : Nat :=
  if month = 2 then if isLeapYear year then 29 else 28
  else if month = 4 || month = 6 || month = 9 || month = 11 then 30
  else 31

/-- The rest after a date. -/
def date? (s : Text) : Option Text := do
  let (year, s) ← digitsOf? 4 s
  let (month, s) ← pair? 1 12 (← mark? '-' s)
  let (_, s) ← pair? 1 (daysOfMonth year month) (← mark? '-' s)
  return s

/-- The rest after a point and digits, if they stand here. -/
def skipFraction (s : Text) : Text :=
  match s with
  | '.' :: c :: rest => if c.isDigit then rest.dropWhile Char.isDigit else s
  | s => s

/-- The rest after a time. A leap second is allowed. -/
def time? (s : Text) : Option Text := do
  let (_, s) ← pair? 0 23 s
  let (_, s) ← pair? 0 59 (← mark? ':' s)
  let (_, s) ← pair? 0 60 (← mark? ':' s)
  return skipFraction s

/-- The rest after a zone: universal time, or a distance from it. -/
def zone? : Text → Option Text
  | 'Z' :: s | 'z' :: s => some s
  | '+' :: s | '-' :: s => do
    let (_, s) ← pair? 0 23 s
    let (_, s) ← pair? 0 59 (← mark? ':' s)
    return s
  | _ => none

/-- The rest after the time of a date, with its zone if there is one. -/
def timeOfDate? : Text → Option Text
  | 'T' :: s | 't' :: s | ' ' :: s => (time? s).map fun rest => (zone? rest).getD rest
  | _ => none

/-- The rest after a date, a time or both. -/
def momentEnd? (s : Text) : Option Text :=
  match date? s with
  | some rest => some ((timeOfDate? rest).getD rest)
  | none => time? s

/-- A date, a time or both. -/
def moment? (s : Text) : Option (Value × Text) :=
  (momentEnd? s).map fun rest =>
    (.table [("moment".toList, .text (s.take (s.length - rest.length)))], rest)

end TypedId.Settings.Document
