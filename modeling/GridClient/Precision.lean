/-!
# Limited precision

Natural numbers rounded to a number of significant binary digits: to the nearest
number that has no more of them, and from the middle between two to the even one.
-/

namespace GridClient
namespace Precision

/-- The multiple of a unit that is nearest to a number. -/
def toMultiple (unit n : Nat) : Nat :=
  if 2 * (n % unit) < unit || (2 * (n % unit) == unit && n / unit % 2 == 0) then n / unit * unit
  else n / unit * unit + unit

/-- The unit in which numbers of a size are given. -/
def unit (digits n : Nat) : Nat :=
  1 <<< (n.log2 + 1 - digits)

def round (digits n : Nat) : Nat :=
  toMultiple (unit digits n) n

end Precision
end GridClient
