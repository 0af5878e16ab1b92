/-!
# Parsers of text

A parser takes characters off the front of a text. It fails without a reason, and
alternatives start again where the failed one started.
-/

namespace GridClient

abbrev Parser : Type → Type :=
  StateT (List Char) Option

namespace Parser

/-- Succeeds when the parser takes the whole text. -/
def parse? (p : Parser α) (text : List Char) : Option α :=
  match p text with
  | some (a, []) => some a
  | _ => none

def satisfy (ok : Char → Bool) : Parser Char
  | [] => none
  | c :: rest => if ok c then some (c, rest) else none

def char (c : Char) : Parser Unit :=
  discard (satisfy (· == c))

def oneOf (choices : List Char) : Parser Char :=
  satisfy choices.contains

def chars : List Char → Parser Unit
  | [] => return ()
  | c :: rest => do
      char c
      chars rest

def takeWhile (ok : Char → Bool) : Parser (List Char) :=
  fun text => some (text.takeWhile ok, text.dropWhile ok)

def takeWhile1 (ok : Char → Bool) : Parser (List Char) := do
  let c ← satisfy ok
  return c :: (← takeWhile ok)

def exactly (ok : Char → Bool) : Nat → Parser (List Char)
  | 0 => return []
  | n + 1 => do
      let c ← satisfy ok
      return c :: (← exactly ok n)

def manyUpTo (p : Parser α) : Nat → Parser (List α)
  | 0, text => some ([], text)
  | n + 1, text =>
      match p text with
      | none => some ([], text)
      | some (a, rest) => (manyUpTo p n rest).map fun (as, rest) => (a :: as, rest)

/-- As many items as there are. An item takes at least one character, so the
text bounds their number. -/
def many (p : Parser α) : Parser (List α) :=
  fun text => manyUpTo p text.length text

/-- One item or more, with separators between them. -/
def separated1 (p : Parser α) (separator : Parser Unit) : Parser (List α) := do
  let a ← p
  return a :: (← many (separator *> p))

/-- Items with separators between them, or none at all. -/
def separated (p : Parser α) (separator : Parser Unit) : Parser (List α) :=
  separated1 p separator <|> pure []

end Parser
end GridClient
