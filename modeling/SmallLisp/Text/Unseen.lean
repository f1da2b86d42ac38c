import SmallLisp.Text.Combining
import SmallLisp.Text.Unassigned

/-!
# Characters that cannot be told by sight

A character is unseen when a reader of the text alone could not tell that it is
there, or where it stands. That is so for controls, for characters that only direct
the layout of the text around them, for blanks other than the space, for fillers that
leave an empty place, for what extends the character before it, and for code points
that no font shows.
-/

namespace SmallLisp

/-- The ranges of code points, ends included, that leave no mark on the page: the
general categories `Cc`, `Cf`, `Zs`, `Zl` and `Zp` without the space, and the fillers
of Hangul. -/
def invisibleRanges : List (Nat × Nat) :=
  [(0x0000, 0x001F), (0x007F, 0x00A0), (0x00AD, 0x00AD), (0x0600, 0x0605), (0x061C, 0x061C),
    (0x06DD, 0x06DD), (0x070F, 0x070F), (0x0890, 0x0891), (0x08E2, 0x08E2), (0x115F, 0x1160),
    (0x1680, 0x1680), (0x180E, 0x180E), (0x2000, 0x200F), (0x2028, 0x202F), (0x205F, 0x2064),
    (0x2066, 0x206F), (0x3000, 0x3000), (0x3164, 0x3164), (0xFEFF, 0xFEFF), (0xFFA0, 0xFFA0),
    (0xFFF9, 0xFFFB), (0x110BD, 0x110BD), (0x110CD, 0x110CD), (0x13430, 0x1343F),
    (0x1BCA0, 0x1BCA3), (0x1D173, 0x1D17A), (0xE0001, 0xE0001), (0xE0020, 0xE007F)]

-- the table is in order
example : ascendingFrom 0 invisibleRanges = true := by decide +kernel

/-- The sound marks of halfwidth Katakana extend the letter before them and yet have a
place of their own on the page. -/
def isHalfwidthSoundMark (c : Char) : Bool := inRanges [(0xFF9E, 0xFF9F)] c

/-- **Whether a character cannot be told by sight.** -/
def isUnseen (c : Char) : Bool :=
  inRanges invisibleRanges c || isCombining c && !isHalfwidthSoundMark c || isUnassigned c

end SmallLisp
