import ApiManual.Text.Basic
import ApiManual.Unicode.Number
import ApiManual.Unicode.Word
import Mathlib.Tactic.Common

/-!
# Character classes side by side

How the tables of alphanumeric characters and word characters lie to the ASCII letters
and to whitespace.  Only the start of a table has to be looked at for either.
-/

namespace ApiManual
namespace Unicode

open Text

theorem ofNat_isAlphanumeric :
    ∀ n < 0x80, isAlphanumeric (Char.ofNat n) → (Char.ofNat n).isAlphanum := by
  decide +kernel

/-- Among the ASCII characters only letters and digits are alphanumeric. -/
theorem isAlphanum_of_isAlphanumeric {c : Char} (h : isAlphanumeric c) (hc : c.toNat < 0x80) :
    c.isAlphanum := by
  have hascii := ofNat_isAlphanumeric c.toNat hc
  rw [Char.ofNat_toNat] at hascii
  exact hascii h

def whitespaceCodes : List ℕ :=
  [0x09, 0x0A, 0x0B, 0x0C, 0x0D, 0x20, 0x85, 0xA0, 0x1680, 0x2000, 0x2001, 0x2002, 0x2003,
    0x2004, 0x2005, 0x2006, 0x2007, 0x2008, 0x2009, 0x200A, 0x2028, 0x2029, 0x202F, 0x205F,
    0x3000]

theorem toNat_mem_whitespaceCodes {c : Char} (h : isWhitespace c) :
    c.toNat ∈ whitespaceCodes := by
  simp only [isWhitespace, Bool.or_eq_true, Bool.and_eq_true, decide_eq_true_eq,
    beq_iff_eq] at h
  simp only [whitespaceCodes, List.mem_cons, List.not_mem_nil, or_false]
  omega

/-- A class without any of the whitespace characters. -/
theorem isWhitespace_eq_false {p : Char → Bool}
    (hp : ∀ n ∈ whitespaceCodes, p (Char.ofNat n) = false) {c : Char} (h : p c) :
    isWhitespace c = false := by
  by_contra hspace
  rw [Bool.not_eq_false] at hspace
  have hc := hp c.toNat (toNat_mem_whitespaceCodes hspace)
  rw [Char.ofNat_toNat] at hc
  exact absurd h (by simp [hc])

theorem isWhitespace_of_isWord {c : Char} (h : isWord c) : isWhitespace c = false := by
  apply isWhitespace_eq_false (p := isWord) _ h
  decide +kernel

end Unicode
end ApiManual
