import GridClient.Toml.Scalar

/-!
# The written form of a settings text

Lines with an entry or a header each, arrays over several lines, tables between
braces on one. Values nest less than eighty deep, and a key has fewer than eighty
names.
-/

namespace GridClient
namespace Toml

open GridClient.Parser

def depthLimit : Nat := 80

/-!
# Keys
-/

def isBare (c : Char) : Bool :=
  c.isAlphanum || c == '_' || c == '-'

def name : Parser String := do
  let s ← takeWhile1 isBare <|> basicString <|> literalString
  return String.ofList s

/-- Names with points between them: the last one, and the path that leads to it. -/
def key : Parser (List String × String) := do
  let names ← separated1 (blanks *> name <* blanks) (char '.')
  guard (names.length < depthLimit)
  match names.getLast? with
  | some last => return (names.dropLast, last)
  | none => failure

/-!
# Values
-/

def comment : Parser Unit :=
  char '#' *> discard (takeWhile isPlain)

def spacing : Parser Unit :=
  discard (many (discard (takeWhile1 isBlank) <|> newline <|> comment))

def array (item : Parser Value) : Parser Value := do
  char '['
  let items ← separated (spacing *> item <* spacing) (char ',')
  if !items.isEmpty then discard (optional (char ','))
  spacing
  char ']'
  return .array items

def entry (item : Parser Value) : Parser ((List String × String) × Value) := do
  let k ← key
  char '='
  blanks
  return (k, ← item)

def bracedTable (item : Parser Value) : Parser Value := do
  char '\x7b'
  let entries ← separated (entry item <* blanks) (char ',')
  blanks
  char '\x7d'
  match Fields.ofEntries entries .braces with
  | some fields => return .table .braces fields
  | none => failure

/-- A value that nests no deeper than a given number of levels. -/
def valueWithin : Nat → Parser Value
  | 0 => scalar
  | depth + 1 => scalar <|> array (valueWithin depth) <|> bracedTable (valueWithin depth)

def value : Parser Value :=
  valueWithin (depthLimit - 1)

/-!
# Lines
-/

def tableHeader : Parser Line := do
  char '['
  let (path, name) ← key
  char ']'
  return .table path name

def itemHeader : Parser Line := do
  chars ['[', '[']
  let (path, name) ← key
  chars [']', ']']
  return .item path name

def entryLine : Parser Line := do
  let ((path, name), v) ← entry value
  return .entry path name v

/-- A line without its end: blank or not, with a comment or without. -/
def line : Parser (Option Line) := do
  blanks
  let said ← optional (itemHeader <|> tableHeader <|> entryLine)
  blanks
  discard (optional comment)
  return said

def lines : Parser (List Line) := do
  discard (optional (char '\uFEFF'))
  let ended ← many (line <* newline)
  return (ended ++ [← line]).filterMap id

def parse? (text : String) : Option Fields :=
  (Parser.parse? lines text.toList).bind Document.ofLines

end Toml
end GridClient
