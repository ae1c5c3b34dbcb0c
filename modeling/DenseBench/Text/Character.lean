/-!
# Characters

The characters of Unicode's `White_Space` property, and removing them from the two ends of a text;
the mark of the byte order, which is none of them; and lower case. Names are compared in lower case.
No name that is looked for holds a character beyond ASCII, so only characters whose lower case is an
ASCII letter count there, and all others stay as they are.
-/

namespace DenseBench.Text

/-- The ranges of `White_Space`, lowest and highest code point of each, in order. -/
def blankRanges : List (Nat × Nat) :=
  [(0x09, 0x0D), (0x20, 0x20), (0x85, 0x85), (0xA0, 0xA0), (0x1680, 0x1680), (0x2000, 0x200A),
   (0x2028, 0x2029), (0x202F, 0x202F), (0x205F, 0x205F), (0x3000, 0x3000)]

def isBlank (c : Char) : Bool :=
  blankRanges.any fun r => r.1 ≤ c.toNat && c.toNat ≤ r.2

def trimStart (cs : List Char) : List Char :=
  cs.dropWhile isBlank

def trimEnd (cs : List Char) : List Char :=
  (cs.reverse.dropWhile isBlank).reverse

def trim (cs : List Char) : List Char :=
  trimEnd (trimStart cs)

/-- A text without the mark of the byte order that may stand before it. -/
def skipMark : List Char → List Char
  | '\ufeff' :: cs => cs
  | cs => cs

theorem trimStart_eq_self {c : Char} {cs : List Char} (h : isBlank c = false) :
    trimStart (c :: cs) = c :: cs := by
  simp [trimStart, h]

/-! ## Lower case -/

def lowerAscii (cs : List Char) : List Char :=
  cs.map Char.toLower

/-- The sign of the kelvin, the one character beyond ASCII whose lower case is an ASCII letter. -/
def kelvinSign : Char := '\u212a'

/-- All characters in lower case whose lower case is ASCII. -/
def lower (cs : List Char) : List Char :=
  cs.map fun c => if c = kelvinSign then 'k' else c.toLower

end DenseBench.Text
