import GridClient.Table

/-!
# Server statistics

Statistics are texts by name. Those that are whole numbers of 64 bits can be read
as such.
-/

namespace GridClient
namespace Statistics

def digits : Nat → List Char → Option Nat
  | n, [] => some n
  | n, c :: rest => if c.isDigit then digits (n * 10 + (c.toNat - '0'.toNat)) rest else none

/-- At least one digit, with a sign before it or not. -/
def readInt : List Char → Option Int
  | [] => none
  | ['+'] => none
  | ['-'] => none
  | '+' :: text => (digits 0 text).map Int.ofNat
  | '-' :: text => (digits 0 text).map fun n => -Int.ofNat n
  | text => (digits 0 text).map Int.ofNat

def int? (text : String) : Option Int :=
  (readInt text.toList).filter fun n => Int64.minValue.toInt ≤ n && n ≤ Int64.maxValue.toInt

def get? (stats : Table String String) (name : String) : Option String :=
  Table.get? stats name

def getInt? (stats : Table String String) (name : String) : Option Int :=
  (get? stats name).bind int?

end Statistics
end GridClient
