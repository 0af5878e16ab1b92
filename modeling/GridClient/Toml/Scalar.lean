import GridClient.Text.Parser
import GridClient.Toml.Value

/-!
# Single values of a settings text

Strings, numbers, truth values and times.
-/

namespace GridClient
namespace Toml

open GridClient.Parser

/-- Characters that stand for themselves in strings and comments: all but controls,
of which the tab is let through. -/
def isPlain (c : Char) : Bool :=
  c == '\t' || (0x20 ≤ c.toNat && c.toNat != 0x7F)

def isBlank (c : Char) : Bool :=
  c == ' ' || c == '\t'

def blanks : Parser Unit :=
  discard (takeWhile isBlank)

def newline : Parser Unit :=
  char '\n' <|> chars ['\r', '\n']

/-!
# Numbers
-/

def digitValue (c : Char) : Nat :=
  if c.isDigit then c.toNat - '0'.toNat
  else if c.isLower then c.toNat - 'a'.toNat + 10
  else c.toNat - 'A'.toNat + 10

def isDigitOf (base : Nat) (c : Char) : Bool :=
  (c.isDigit || ('a' ≤ c && c ≤ 'f') || ('A' ≤ c && c ≤ 'F')) && digitValue c < base

def numberOf (base : Nat) (digits : List Char) : Nat :=
  digits.foldl (fun n c => n * base + digitValue c) 0

/-- Digits of a base. Single underscores may stand between them. -/
def digits (base : Nat) : Parser (List Char) := do
  let first ← satisfy (isDigitOf base)
  let more ← many (satisfy (isDigitOf base) <|> (char '_' *> satisfy (isDigitOf base)))
  return first :: more

/-- A decimal number without leading zeros. -/
def wholeDigits : Parser (List Char) := do
  let ds ← digits 10
  guard (ds.head? != some '0' || ds.length == 1)
  return ds

/-- A sign or none; it says whether the number is negative. -/
def sign : Parser Bool :=
  (char '-' *> pure true) <|> (char '+' *> pure false) <|> pure false

def signed (negative : Bool) (n : Nat) : Int :=
  if negative then -(n : Int) else n

def isInt64 (n : Int) : Bool :=
  Int64.minValue.toInt ≤ n && n ≤ Int64.maxValue.toInt

def based (letter : Char) (base : Nat) : Parser Int := do
  chars ['0', letter]
  return (numberOf base (← digits base) : Nat)

def integer : Parser Value := do
  let n ← based 'x' 16 <|> based 'o' 8 <|> based 'b' 2 <|> (do
    let negative ← sign
    return signed negative (numberOf 10 (← wholeDigits)))
  guard (isInt64 n)
  return .integer n

/-- The number halfway between the largest double and the next power of two. It and
larger numbers round to infinity. -/
def doubleLimit : Nat :=
  1 <<< 1024 - 1 <<< 970

/-- Whether `m` times ten to the power `e` rounds to infinity. The count of digits
decides, except for numbers as long as the limit. -/
def overflows (m : Nat) (e : Int) : Bool :=
  let magnitude : Int := (Nat.toDigits 10 m).length + e
  m != 0 &&
    (309 < magnitude ||
      (magnitude == 309 &&
        doubleLimit * Nat.pow 10 (-e).toNat ≤ m * Nat.pow 10 e.toNat))

def exponent : Parser Int := do
  discard (oneOf ['e', 'E'])
  let negative ← sign
  return signed negative (numberOf 10 (← digits 10))

/-- A number with a fractional part, an exponent or both. -/
def decimal : Parser Value := do
  let negative ← sign
  let whole ← wholeDigits
  let (fraction, e) ←
    (do return ([], ← exponent)) <|> (do
      char '.'
      let fraction ← digits 10
      return (fraction, (← optional exponent).getD 0))
  guard (negative || !overflows (numberOf 10 (whole ++ fraction)) (e - fraction.length))
  return .fraction

def notFinite : Parser Value := do
  discard sign
  chars "inf".toList <|> chars "nan".toList
  return .fraction

/-!
# Times
-/

def fixedNumber (length : Nat) : Parser Nat := do
  return numberOf 10 (← exactly Char.isDigit length)

def isLeapYear (year : Nat) : Bool :=
  year % 4 == 0 && (year % 100 != 0 || year % 400 == 0)

def daysIn (year month : Nat) : Nat :=
  if month == 2 then if isLeapYear year then 29 else 28
  else if [4, 6, 9, 11].contains month then 30
  else 31

def date : Parser Unit := do
  let year ← fixedNumber 4
  char '-'
  let month ← fixedNumber 2
  char '-'
  let day ← fixedNumber 2
  guard (1 ≤ month && month ≤ 12 && 1 ≤ day && day ≤ daysIn year month)

def hourAndMinute : Parser Unit := do
  let hour ← fixedNumber 2
  char ':'
  let minute ← fixedNumber 2
  guard (hour ≤ 23 && minute ≤ 59)

/-- A time of day. The last second of a minute may be a leap second. -/
def clock : Parser Unit := do
  hourAndMinute
  char ':'
  let second ← fixedNumber 2
  guard (second ≤ 60)
  discard (optional (char '.' *> takeWhile1 Char.isDigit))

def zone : Parser Unit :=
  discard (oneOf ['Z', 'z']) <|> (oneOf ['+', '-'] *> hourAndMinute)

/-- A date, a time of day, or both with a time zone or without. -/
def moment : Parser Value := do
  (do
    date
    discard (optional (oneOf ['T', 't', ' '] *> clock *> optional zone))) <|> clock
  return .moment

/-!
# Strings
-/

/-- A character given by its number, in a fixed count of hexadecimal digits. -/
def numbered (length : Nat) : Parser Char := do
  let n := numberOf 16 (← exactly (isDigitOf 16) length)
  if n.isValidChar then return Char.ofNat n else failure

def escaped : Parser Char := do
  char '\\'
  let c ← satisfy fun _ => true
  match c with
  | 'b' => return '\x08'
  | 't' => return '\t'
  | 'n' => return '\n'
  | 'f' => return '\x0c'
  | 'r' => return '\r'
  | '"' => return '"'
  | '\\' => return '\\'
  | 'u' => numbered 4
  | 'U' => numbered 8
  | _ => failure

/-- A backslash at the end of a line takes the line's end away, and the blanks and
line ends after it. -/
def joinedLine : Parser (List Char) := do
  char '\\'
  blanks
  newline
  discard (many (discard (satisfy isBlank) <|> newline))
  return []

/-- One or two quotes inside a string that three of them close. -/
def innerQuotes (quote : Char) : Parser (List Char) := do
  let run ← takeWhile1 (· == quote)
  guard (run.length < 3)
  return run

/-- The end of a string that three quotes close. Up to two more before them belong
to the string. -/
def closing (quote : Char) : Parser (List Char) := do
  chars (List.replicate 3 quote)
  let extra ← optional (char quote)
  let extra' ← if extra.isSome then optional (char quote) else pure none
  return List.replicate (extra.toList.length + extra'.toList.length) quote

/-- A string over several lines. A line end right after the opening is left out,
and every other one counts as a line feed. -/
def longString (quote : Char) (piece : Parser (List Char)) : Parser (List Char) := do
  chars (List.replicate 3 quote)
  discard (optional newline)
  let pieces ← many (piece <|> (newline *> pure ['\n']) <|> innerQuotes quote)
  return pieces.flatten ++ (← closing quote)

def plainBut (excluded : List Char) : Parser Char :=
  satisfy fun c => isPlain c && !excluded.contains c

def basicString : Parser (List Char) :=
  char '"' *> many (plainBut ['"', '\\'] <|> escaped) <* char '"'

def literalString : Parser (List Char) :=
  char '\'' *> many (plainBut ['\'']) <* char '\''

def string : Parser Value := do
  let s ←
    longString '"' (List.singleton <$> plainBut ['"', '\\'] <|> joinedLine
      <|> List.singleton <$> escaped)
    <|> basicString
    <|> longString '\'' (List.singleton <$> plainBut ['\''])
    <|> literalString
  return .text (String.ofList s)

/-!
# All of them
-/

def boolean : Parser Value :=
  (chars "true".toList *> pure (.boolean true))
    <|> (chars "false".toList *> pure (.boolean false))

def scalar : Parser Value :=
  string <|> boolean <|> notFinite <|> moment <|> decimal <|> integer

end Toml
end GridClient
