import GridClient.Text.Visible

/-!
# Quoted text

Text between double quotes, as descriptions show it. Quotes, backslashes and
characters that cannot be seen on their own are escaped.
-/

namespace GridClient
namespace Quoted

/-- The controls: those below the space, and those from the delete character to the
end of the second block. -/
def isControl (c : Char) : Bool :=
  c.toNat < 0x20 || (0x7F ≤ c.toNat && c.toNat < 0xA0)

def isShown (c : Char) : Bool :=
  !isControl c && (c.toNat < 0xA0 || Visible.isVisible c)

def escape (c : Char) : List Char :=
  if c = '"' || c = '\\' then ['\\', c]
  else if c = '\n' then ['\\', 'n']
  else if c = '\r' then ['\\', 'r']
  else if c = '\t' then ['\\', 't']
  else if c.toNat = 0 then ['\\', '0']
  else if !isShown c then ['\\', 'u', '\x7b'] ++ Nat.toDigits 16 c.toNat ++ ['\x7d']
  else [c]

def text (s : String) : String :=
  String.ofList ('"' :: s.toList.flatMap escape ++ ['"'])

end Quoted
end GridClient
