/-!
This module contains the text that says when a record was written to a log file.
-/

namespace ParadigmScan

namespace Log

def padded (width n : Nat) : String :=
  let digits := toString n
  String.ofList (List.replicate (width - digits.length) '0') ++ digits

/--
The year, the month and the day that lie a number of days after the first of March of the year zero. The
calendar repeats every 400 years.
-/
def civilDate (days : Nat) : Nat × Nat × Nat :=
  let era := days / 146097
  let day := days % 146097
  let year := (day - day / 1460 + day / 36524 - day / 146096) / 365
  let dayOfYear := day - (365 * year + year / 4 - year / 100)
  let month := (5 * dayOfYear + 2) / 153
  let dayOfMonth := dayOfYear - (153 * month + 2) / 5 + 1
  let month := if month < 10 then month + 3 else month - 9
  (era * 400 + year + (if month ≤ 2 then 1 else 0), month, dayOfMonth)

def stamp (seconds : Nat) : String :=
  let (year, month, day) := civilDate (seconds / 86400 + 719468)
  let rest := seconds % 86400
  s!"{padded 4 year}-{padded 2 month}-{padded 2 day} " ++
    s!"{padded 2 (rest / 3600)}:{padded 2 (rest / 60 % 60)}:{padded 2 (rest % 60)} - "

end Log

end ParadigmScan
