import BatchWriter.Text.Escaped

/-!
# Characters shown as they are

Quoted text shows a character itself unless it is a control or format character, a
separator other than the plain space, or a code point that is private or unassigned.
-/

set_option autoImplicit false

namespace BatchWriter.Text

def inRanges (n : Nat) (ranges : List (Nat × Nat)) : Bool :=
  ranges.any fun r => r.1 ≤ n && n ≤ r.2

def isShown (c : Char) : Bool :=
  !(inRanges c.toNat escapedLow || inRanges c.toNat escapedMiddle || inRanges c.toNat escapedHigh)

def isBlank (c : Char) : Bool :=
  inRanges c.toNat
    [(0x9, 0xd), (0x20, 0x20), (0x85, 0x85), (0xa0, 0xa0), (0x1680, 0x1680), (0x2000, 0x200a),
     (0x2028, 0x2029), (0x202f, 0x202f), (0x205f, 0x205f), (0x3000, 0x3000)]

end BatchWriter.Text
