/-!
# Texts

A text is a list of characters, so an offset into a text counts code points.  Texts are ordered by
code points, character by character.

A property of characters is tabulated as closed ranges of code points in increasing order.
`RangeSet.contains_iff` says that the search, which stops at the first range that ends at or after
the code point, answers membership in the union of the ranges.
-/

namespace CodeHighlight

/-- A sequence of code points. -/
abbrev Text := List Char

namespace Unicode

/-! ## Sets of code points -/

/-- Closed ranges of code points, each given by its first and its last member. -/
abbrev RangeSet := List (Nat × Nat)

namespace RangeSet

/-- The code point lies in one of the ranges. -/
def contains : RangeSet → Nat → Bool
  | [], _ => false
  | (first, last) :: rest, n => if n ≤ last then decide (first ≤ n) else contains rest n

/-- Each range is nonempty and ends before every later one begins. -/
def Ordered (ranges : RangeSet) : Prop :=
  (∀ r ∈ ranges, r.1 ≤ r.2) ∧ ranges.Pairwise fun r r' => r.2 < r'.1

theorem contains_iff {ranges : RangeSet} (h : ranges.Ordered) (n : Nat) :
    ranges.contains n = true ↔ ∃ r ∈ ranges, r.1 ≤ n ∧ n ≤ r.2 := by
  induction ranges with
  | nil => simp [contains]
  | cons r rest ih =>
      obtain ⟨first, last⟩ := r
      obtain ⟨hne, hord⟩ := h
      have hrest : Ordered rest := ⟨fun r hr => hne r (by simp [hr]), hord.of_cons⟩
      have hlater : ∀ r ∈ rest, last < r.1 := fun r hr => List.rel_of_pairwise_cons hord hr
      by_cases hn : n ≤ last
      · have hnone : ¬ ∃ r ∈ rest, r.1 ≤ n ∧ n ≤ r.2 := by
          rintro ⟨r, hr, hlo, -⟩
          have := hlater r hr
          omega
        simp only [contains, hn, if_true, decide_eq_true_eq, List.mem_cons, exists_eq_or_imp,
          and_true]
        simp [hnone]
      · simp [contains, hn, ih hrest]

end RangeSet

/-! ## Blanks

The characters that separate words in a word list and that are dropped at both ends of a language
name: the Unicode separators, the line ends and the four information separators of ASCII.  The zero
width space and the byte order mark are not blanks.
-/

/-- Every blank code point, in increasing order. -/
def blanks : RangeSet :=
  [(0x9, 0xD), (0x1C, 0x20), (0x85, 0x85), (0xA0, 0xA0), (0x1680, 0x1680), (0x2000, 0x200A),
   (0x2028, 0x2029), (0x202F, 0x202F), (0x205F, 0x205F), (0x3000, 0x3000)]

/-- A character that separates words. -/
def isBlank (c : Char) : Bool :=
  blanks.contains c.toNat

end Unicode

namespace Text

/-! ## Numbers and lists of texts -/

/-- Texts that compare as equal are the same. -/
instance : LawfulBEq Text := inferInstance

/-- A natural number in decimal digits. -/
def ofNat (n : Nat) : Text := Nat.toDigits 10 n

/-- An integer in decimal digits, with a minus sign in front when it is negative. -/
def ofInt (n : Int) : Text :=
  if n < 0 then '-' :: ofNat n.natAbs else ofNat n.natAbs

/-- The distinct members of a list of texts, in increasing order. -/
def sortDistinct (texts : List Text) : List Text :=
  texts.eraseDups.mergeSort fun s t => !t.lex s fun c d => decide (c < d)

theorem mem_sortDistinct {texts : List Text} {t : Text} :
    t ∈ sortDistinct texts ↔ t ∈ texts := by
  simp [sortDistinct]

/-! ## The ends and the words of a text -/

/-- The text without the blanks at its two ends. -/
def strip (t : Text) : Text :=
  ((t.dropWhile Unicode.isBlank).reverse.dropWhile Unicode.isBlank).reverse

/-- The stretches of a text between its blanks, the empty ones left out. -/
def words (t : Text) : List Text :=
  (t.splitOnP Unicode.isBlank).filter fun word => !word.isEmpty

/-! ## Tab stops

A tab is filled up with spaces to the next multiple of the tab width.  Columns are counted from the
last line feed or carriage return, one for every character.
-/

/-- Expands the tabs of a text that begins in the given column. -/
def expandTabsFrom (width column : Nat) : Text → Text
  | [] => []
  | c :: rest =>
      if c = '\t' then
        let gap := width - column % width
        List.replicate gap ' ' ++ expandTabsFrom width (column + gap) rest
      else
        c :: expandTabsFrom width (if c = '\n' ∨ c = '\r' then 0 else column + 1) rest

/-- Expands the tabs of a text.  A width of zero or less has no tab stops, and the tabs go away. -/
def expandTabs (width : Int) (t : Text) : Text :=
  if 0 < width then expandTabsFrom width.toNat 0 t else t.filter (· ≠ '\t')

end Text

end CodeHighlight
