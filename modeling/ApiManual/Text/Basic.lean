/-!
# Text

A text is the list of its characters.  This module fixes the two notions of empty
space the library uses: *blanks*, which are the space and the tab, and *whitespace*,
which is every character with the property `White_Space`.
-/

namespace ApiManual

abbrev Text := List Char

namespace Text

def isBlank (c : Char) : Bool :=
  c = ' ' || c = '\t'

def isWhitespace (c : Char) : Bool :=
  let n := c.toNat
  (0x09 ≤ n && n ≤ 0x0D) || n == 0x20 || n == 0x85 || n == 0xA0 || n == 0x1680 ||
    (0x2000 ≤ n && n ≤ 0x200A) || n == 0x2028 || n == 0x2029 || n == 0x202F ||
    n == 0x205F || n == 0x3000

theorem isWhitespace_of_isBlank {c : Char} (h : isBlank c) : isWhitespace c := by
  simp only [isBlank, Bool.or_eq_true, decide_eq_true_eq] at h
  rcases h with rfl | rfl <;> rfl

def dropEndWhile (p : Char → Bool) (s : Text) : Text :=
  (s.reverse.dropWhile p).reverse

def skipBlanks (s : Text) : Text :=
  s.dropWhile isBlank

def trimStart (s : Text) : Text :=
  s.dropWhile isWhitespace

def trimEnd (s : Text) : Text :=
  dropEndWhile isWhitespace s

def trim (s : Text) : Text :=
  trimEnd (trimStart s)

/-- No character but whitespace. -/
def isBlankLine (s : Text) : Bool :=
  s.all isWhitespace

/-- The first maximal run of characters that are not whitespace. -/
def firstWord? (s : Text) : Option Text :=
  match trimStart s with
  | [] => none
  | c :: rest => some ((c :: rest).takeWhile (!isWhitespace ·))

/-- The number of bytes of the UTF-8 form. -/
def byteLength : Text → Nat
  | [] => 0
  | c :: rest => c.utf8Size + byteLength rest

def dropPrefix? : Text → Text → Option Text
  | [], s => some s
  | p :: ps, c :: s => if p = c then dropPrefix? ps s else none
  | _ :: _, [] => none

/-- The parts with `separator` between each two of them. -/
def join (separator : Text) (parts : List Text) : Text :=
  List.intercalate separator parts

def ofNat (n : Nat) : Text :=
  (toString n).toList

theorem length_dropWhile_le (p : Char → Bool) (s : Text) :
    (s.dropWhile p).length ≤ s.length :=
  List.Sublist.length_le (List.dropWhile_sublist p)

theorem length_skipBlanks_le (s : Text) : (skipBlanks s).length ≤ s.length :=
  length_dropWhile_le _ s

theorem length_trimStart_le (s : Text) : (trimStart s).length ≤ s.length :=
  length_dropWhile_le _ s

theorem length_trimEnd_le (s : Text) : (trimEnd s).length ≤ s.length := by
  have := length_dropWhile_le isWhitespace s.reverse
  simpa [trimEnd, dropEndWhile] using this

theorem length_trim_le (s : Text) : (trim s).length ≤ s.length :=
  Nat.le_trans (length_trimEnd_le _) (length_trimStart_le s)

end Text

end ApiManual
