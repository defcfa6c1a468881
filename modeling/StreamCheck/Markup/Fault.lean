import StreamCheck.Text.Printable

/-! Why a document cannot be read. Most faults are of its form; a few are of a value that it writes. -/

namespace StreamCheck.Markup

inductive TimeFault where
  | year (year : Nat)
  | month
  | day
  | hour
  | minute
  | second
  /-- The distance from the zero meridian, in seconds, is a day or more. -/
  | zone (seconds : Int)
deriving DecidableEq, Repr, Inhabited

def spanText (seconds : Int) : String :=
  let days := Int.fdiv seconds 86400
  let rest := Int.fmod seconds 86400
  let parts := (if days = 0 then [] else ["days=" ++ toString days]) ++
    (if rest = 0 then [] else ["seconds=" ++ toString rest])
  "datetime.timedelta(" ++ (if parts.isEmpty then "0" else ", ".intercalate parts) ++ ")"

def TimeFault.message : TimeFault → String
  | year n => "year " ++ toString n ++ " is out of range"
  | month => "month must be in 1..12"
  | day => "day is out of range for month"
  | hour => "hour must be in 0..23"
  | minute => "minute must be in 0..59"
  | second => "second must be in 0..59"
  | zone seconds => "offset must be a timedelta strictly between -timedelta(hours=24) and " ++
      "timedelta(hours=24), not " ++ spanText seconds ++ "."

inductive Fault where
  /-- The form is wrong. -/
  | malformed
  /-- There is no character of a number that is given. -/
  | noCharacter
  /-- The number that is given for a character is too large to look for one. -/
  | numberTooLarge
  /-- A word stands for no truth value. -/
  | noTruth (word : String)
  /-- A number has no digits. -/
  | noDigits
  /-- A place of a number is worth more than every finite size. -/
  | placeTooLarge
  | noWhole (base : Nat) (text : String)
  | wholeTooLong (digits : Nat)
  | noReal (text : String)
  /-- What is marked as a time has no form of one. -/
  | noTime
  | time (fault : TimeFault)
deriving DecidableEq, Repr, Inhabited

def mostQuoted : Nat := 200

def Fault.message : Fault → String
  | malformed => "malformed document"
  | noCharacter => "chr() arg not in range(0x110000)"
  | numberTooLarge => "Python int too large to convert to C int"
  | noTruth word => Text.quote word
  | noDigits => "string index out of range"
  | placeTooLarge => "int too large to convert to float"
  | noWhole base text => "invalid literal for int() with base " ++ toString base ++ ": " ++
      String.ofList ((Text.quote text).toList.take mostQuoted)
  | wholeTooLong digits => "Exceeds the limit (4300 digits) for integer string conversion: value has " ++
      toString digits ++ " digits; use sys.set_int_max_str_digits() to increase the limit"
  | noReal text => "could not convert string to float: " ++ Text.quote text
  | noTime => "no time"
  | time fault => fault.message

end StreamCheck.Markup
