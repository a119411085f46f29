import ParadigmScan.Number.Shortest
import ParadigmScan.Text.Quoted

/-!
This module contains the values that a setting can be given before it is checked, among them dates
and times, and their text in messages.
-/

namespace ParadigmScan

structure Date where
  year : Nat
  month : Nat
  day : Nat
  deriving DecidableEq, Repr, Inhabited

structure Time where
  hour : Nat
  minute : Nat
  second : Nat
  microsecond : Nat
  deriving DecidableEq, Repr, Inhabited

inductive Value where
  | null
  | boolean (value : Bool)
  | integer (value : Int)
  | number (value : Binary64)
  | text (value : String)
  | list (items : List Value)
  | table (members : List (String × Value))
  | date (date : Date)
  | time (time : Time)
  /-- A point in time; `offset` is the distance from UTC in minutes, if there is one. -/
  | moment (date : Date) (time : Time) (offset : Option Int)
  deriving Inhabited

namespace Date

/--
The fields separated by commas.
-/
def fields (d : Date) : List Nat := [d.year, d.month, d.day]

end Date

namespace Time

/--
The fields of a time; seconds and microseconds are left out from the right as long as they are zero.
-/
def fields (t : Time) : List Nat :=
  [t.hour, t.minute] ++
    (if t.microsecond != 0 then [t.second, t.microsecond]
     else if t.second != 0 then [t.second]
     else [])

end Time

namespace Value

def commaList (ns : List Nat) : String :=
  ", ".intercalate (ns.map toString)

def offsetText (minutes : Int) : String :=
  let seconds := minutes * 60
  let days := seconds.fdiv 86400
  let rest := seconds.fmod 86400
  let parts := (if days != 0 then [s!"days={days}"] else []) ++
    (if rest != 0 then [s!"seconds={rest}"] else [])
  if minutes == 0 then "datetime.timezone.utc"
  else "datetime.timezone(datetime.timedelta(" ++ ", ".intercalate parts ++ "))"

mutual

def describe : Value → String
  | null => "None"
  | boolean value => if value then "True" else "False"
  | integer value => toString value
  | number value => value.text
  | text value => Text.quoted value
  | list items => "[" ++ ", ".intercalate (describeList items) ++ "]"
  | table members => "\x7b" ++ ", ".intercalate (describeMembers members) ++ "\x7d"
  | date d => "datetime.date(" ++ commaList d.fields ++ ")"
  | time t => "datetime.time(" ++ commaList t.fields ++ ")"
  | moment d t offset =>
    "datetime.datetime(" ++ commaList (d.fields ++ t.fields) ++
      (match offset with
        | none => ""
        | some minutes => ", tzinfo=" ++ offsetText minutes) ++ ")"

def describeList : List Value → List String
  | [] => []
  | item :: items => item.describe :: describeList items

def describeMembers : List (String × Value) → List String
  | [] => []
  | (key, value) :: members => (Text.quoted key ++ ": " ++ value.describe) :: describeMembers members

end

def maxDigits : Nat := 4300

mutual

def holdsLongInteger : Value → Bool
  | integer value => maxDigits < (Nat.toDigits 10 value.natAbs).length
  | list items => holdLongInteger items
  | table members => membersHoldLongInteger members
  | _ => false

def holdLongInteger : List Value → Bool
  | [] => false
  | item :: items => item.holdsLongInteger || holdLongInteger items

def membersHoldLongInteger : List (String × Value) → Bool
  | [] => false
  | (_, value) :: members => value.holdsLongInteger || membersHoldLongInteger members

end

def typeName : Value → String
  | null => "NoneType"
  | boolean _ => "bool"
  | integer _ => "int"
  | number _ => "float"
  | text _ => "str"
  | list _ => "list"
  | table _ => "dict"
  | date _ => "datetime.date"
  | time _ => "datetime.time"
  | moment .. => "datetime.datetime"

def plain : Value → String
  | text value => value
  | value => value.describe

/--
Whether a value switches a flag on: anything but nothing, false, zero and the empty text, list and
table.
-/
def isTrue : Value → Bool
  | null => false
  | boolean value => value
  | integer value => value != 0
  | number (.finite _ significand _) => significand != 0
  | number _ => true
  | text value => !value.isEmpty
  | list items => !items.isEmpty
  | table members => !members.isEmpty
  | date _ => true
  | time _ => true
  | moment .. => true

end Value

end ParadigmScan
