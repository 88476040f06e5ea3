/-!
# Faults of values

Why a value is not taken from its written form, or is not written. A whole number has at most 4300
decimal digits where it is read from them or shown by them; in other bases its size is free. Of two
faults in a text, the one that its reader meets first is reported.

## Main definitions

* `Datum.Fault` — the reasons
* `Datum.Fault.message` — their wording
* `Datum.ReadFault` — why a text has no datum
-/

namespace Sentential.Datum

/-- The greatest number of decimal digits of a whole number that is read or shown. -/
def digitLimit : Nat := 4300

/-- Why a value is not taken from its written form, or is not written. -/
inductive Fault where
  /-- A whole number in a base has a mark for the base and no digits. -/
  | noDigits (base : Nat)
  /-- A whole number is written with too many digits. -/
  | tooManyDigits (count : Nat)
  /-- A whole number has too many digits to be shown. -/
  | tooLong
  /-- An escape is beyond all characters. -/
  | noCharacter
  /-- An escape does not even fit into a signed word of 32 bits. -/
  | wideEscape
deriving DecidableEq, Repr

/-- What the digit limit is about. -/
def limitText : String :=
  "Exceeds the limit (" ++ toString digitLimit ++ " digits) for integer string conversion"

/-- How the digit limit is changed. -/
def limitAdvice : String := "; use sys.set_int_max_str_digits() to increase the limit"

/-- The wording of a fault. -/
def Fault.message : Fault → String
  | noDigits base => "invalid literal for int() with base " ++ toString base ++ ": \x27\x27"
  | tooManyDigits count =>
    limitText ++ ": value has " ++ toString count ++ " digits" ++ limitAdvice
  | tooLong => limitText ++ limitAdvice
  | noCharacter => "chr() arg not in range(0x110000)"
  | wideEscape => "an escape does not fit into a signed word"

/-- Why a text has no datum. -/
inductive ReadFault where
  /-- It is not written in the format that is read. -/
  | malformed
  /-- A value in it cannot be taken. -/
  | value (fault : Fault)
deriving DecidableEq, Repr

end Sentential.Datum
