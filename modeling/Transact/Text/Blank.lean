import Transact.Text.Ranges

/-! White space at the ends of a text. Blanks are what Unicode calls white space, and the four
information separators U+001C to U+001F. -/
namespace Transact.Text

def spaceRanges : Ranges :=
  [(0x9, 0xD), (0x20, 0x20), (0x85, 0x85), (0xA0, 0xA0), (0x1680, 0x1680), (0x2000, 0x200A),
   (0x2028, 0x2029), (0x202F, 0x202F), (0x205F, 0x205F), (0x3000, 0x3000)]

def separatorRanges : Ranges := [(0x1C, 0x1F)]

def isSpace (c : Char) : Bool := spaceRanges.has c.toNat

def isBlank (c : Char) : Bool := (separatorRanges ++ spaceRanges).has c.toNat

theorem isBlank_of_isSpace {c : Char} (h : isSpace c = true) : isBlank c = true := by
  simp_all [isBlank, isSpace, Ranges.has_append]

def trim (p : Char → Bool) (cs : List Char) : List Char :=
  ((cs.dropWhile p).reverse.dropWhile p).reverse

def strip (cs : List Char) : List Char := trim isBlank cs

@[simp] theorem trim_nil (p : Char → Bool) : trim p [] = [] := rfl

@[simp] theorem strip_nil : strip [] = [] := rfl

end Transact.Text
