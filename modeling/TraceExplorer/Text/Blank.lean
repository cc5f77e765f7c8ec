import TraceExplorer.Text.Basic

/-!
# Blanks

The characters that trimming removes: the white space of all scripts and the four ASCII
separators U+001C to U+001F.
-/

namespace TraceExplorer.Text

/-- White space of any script, or one of the ASCII separators U+001C to U+001F. -/
def isBlank (c : Char) : Bool :=
  let code := c.toNat
  (0x09 ≤ code && code ≤ 0x0D) || (0x1C ≤ code && code ≤ 0x20) || code == 0x85 || code == 0xA0
    || code == 0x1680 || (0x2000 ≤ code && code ≤ 0x200A) || code == 0x2028 || code == 0x2029
    || code == 0x202F || code == 0x205F || code == 0x3000

def trimBy {α : Type} (p : α → Bool) (s : List α) : List α :=
  ((s.dropWhile p).reverse.dropWhile p).reverse

def trimChars (s : List Char) : List Char := trimBy isBlank s

def trim (s : Text) : Text := ⟨trimBy (·.isChar isBlank) s.points⟩

end TraceExplorer.Text
