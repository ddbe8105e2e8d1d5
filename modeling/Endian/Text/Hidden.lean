import Endian.Text.Joining
import Endian.Text.Unassigned

/-!
# Hidden characters

The characters that do not show by themselves: controls, blanks other than the space, format
characters, fillers, private use, joining marks and code points without a character.
-/

namespace Endian.Text

/-- The code points of controls, blanks, format characters, fillers and private use, in ascending
ranges. -/
def blankRanges : List (Nat × Nat) :=
  [(0x0000, 0x001f), (0x007f, 0x00a0), (0x00ad, 0x00ad), (0x0600, 0x0605), (0x061c, 0x061c),
   (0x06dd, 0x06dd), (0x070f, 0x070f), (0x0890, 0x0891), (0x08e2, 0x08e2), (0x115f, 0x1160),
   (0x1680, 0x1680), (0x180e, 0x180e), (0x2000, 0x200b), (0x200d, 0x200f), (0x2028, 0x202f),
   (0x205f, 0x2064), (0x2066, 0x206f), (0x3000, 0x3000), (0x3164, 0x3164), (0xe000, 0xf8ff),
   (0xfeff, 0xfeff), (0xffa0, 0xffa0), (0xfff9, 0xfffb), (0x110bd, 0x110bd), (0x110cd, 0x110cd),
   (0x13430, 0x1343f), (0x1bca0, 0x1bca3), (0x1d173, 0x1d17a), (0xe0001, 0xe0001),
   (0xf0000, 0xffffd), (0x100000, 0x10fffd)]

def isHidden (c : Char) : Bool :=
  [blankRanges, joiningRanges, unassignedBasic, unassignedSupplementary].any fun ranges =>
    ranges.any fun (lo, hi) => lo ≤ c.toNat && c.toNat ≤ hi

end Endian.Text
