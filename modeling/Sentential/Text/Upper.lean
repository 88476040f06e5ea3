import Sentential.Text.UpperTable

/-!
# Upper case

The full upper-case mapping of the Unicode standard: one letter may become several (`ß` becomes
`SS`). The mapping looks at each character alone. ASCII is decided by its own rule, so that facts
about formulas in ASCII need no table.

## Main definitions

* `Text.upperChar` — what one character becomes
* `Text.upper` — a text in upper case
* `Text.lowerAscii` — a text with its ASCII letters in lower case
-/

namespace Sentential.Text

/-- The upper-case form of an ASCII character. -/
def upperAscii (c : Char) : Char :=
  if 'a' ≤ c ∧ c ≤ 'z' then Char.ofNat (c.toNat - 32) else c

/-- The upper-case form of a character outside ASCII. -/
def upperWide (c : Char) : List Char :=
  match caseExpansions.lookup c.toNat with
  | some codes => codes.map Char.ofNat
  | none =>
    match caseRuns.find? (fun r =>
        r.first ≤ c.toNat && c.toNat ≤ r.last && (c.toNat - r.first) % r.stride == 0) with
    | some run => [Char.ofNat (c.toNat + run.offset).toNat]
    | none => [c]

/-- The upper-case form of one character. -/
def upperChar (c : Char) : List Char :=
  if c.toNat < 128 then [upperAscii c] else upperWide c

/-- The upper-case form of a list of characters. -/
def upperChars (cs : List Char) : List Char := cs.flatMap upperChar

/-- A text in upper case. -/
def upper (s : String) : String := String.ofList (upperChars s.toList)

/-- The lower-case form of an ASCII letter; every other character stays. -/
def lowerAsciiChar (c : Char) : Char :=
  if 'A' ≤ c ∧ c ≤ 'Z' then Char.ofNat (c.toNat + 32) else c

/-- A text with its ASCII letters in lower case: enough to compare with words written in ASCII. -/
def lowerAscii (s : String) : String := String.ofList (s.toList.map lowerAsciiChar)

end Sentential.Text
