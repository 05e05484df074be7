import CodeHighlight.Text.Basic
import Mathlib.Computability.Language

/-!
# Longest matches

`Longest L lexeme rest` says that in the text `lexeme ++ rest` no word of the language `L` reaches
further from the front than `lexeme` does.  A scanner that goes through a product of languages
factor by factor, and takes as much as it can of each, finds the longest match of the whole product
as long as no word of a later factor begins with a character that an earlier factor has taken
(`Longest.mul`).
-/

namespace CodeHighlight

open scoped Computability

/-- The words of one character of a class. -/
def oneOf (p : Char → Bool) : Language Char := {t | ∃ c, p c = true ∧ t = [c]}

theorem mem_oneOf {p : Char → Bool} {t : Text} : t ∈ oneOf p ↔ ∃ c, p c = true ∧ t = [c] :=
  Iff.rfl

theorem mem_kstar_oneOf {p : Char → Bool} {t : Text} :
    t ∈ (oneOf p)∗ ↔ ∀ c ∈ t, p c = true := by
  rw [Language.mem_kstar]
  constructor
  · rintro ⟨words, rfl, hwords⟩ c hc
    obtain ⟨word, hword, hc⟩ := List.mem_flatten.1 hc
    obtain ⟨d, hd, rfl⟩ := mem_oneOf.1 (hwords word hword)
    rw [List.mem_singleton.1 hc]
    exact hd
  · intro h
    refine ⟨t.map fun c => [c], ?_, ?_⟩
    · rw [← List.flatMap_def, List.flatMap_singleton']
    · intro word hword
      obtain ⟨c, hc, rfl⟩ := List.mem_map.1 hword
      exact mem_oneOf.2 ⟨c, h c hc, rfl⟩

/-- The lexeme is the longest word of the language at the front of the text. -/
def Longest (L : Language Char) (lexeme rest : Text) : Prop :=
  lexeme ∈ L ∧ ∀ word, word <+: lexeme ++ rest → word ∈ L → word.length ≤ lexeme.length

namespace Longest

variable {L M : Language Char} {p : Char → Bool} {front lexeme rest : Text}

theorem mem (h : Longest L lexeme rest) : lexeme ∈ L := h.1

theorem unique {other more : Text} (h : Longest L lexeme rest) (hother : Longest L other more)
    (hsame : lexeme ++ rest = other ++ more) : lexeme = other := by
  have hle : other.length ≤ lexeme.length :=
    h.2 other (hsame ▸ List.prefix_append other more) hother.1
  have hge : lexeme.length ≤ other.length :=
    hother.2 lexeme (hsame ▸ List.prefix_append lexeme rest) h.1
  exact (List.append_inj hsame (by omega)).1

/-- The longest word of a text is still the longest where the text is cut short behind it. -/
theorem of_append {tail : Text} (h : Longest L lexeme (rest ++ tail)) : Longest L lexeme rest := by
  refine ⟨h.1, ?_⟩
  intro word hfits hword
  apply h.2 word _ hword
  rw [← List.append_assoc]
  exact hfits.trans (List.prefix_append _ tail)

theorem oneOf_intro {c : Char} (hc : p c = true) (rest : Text) : Longest (oneOf p) [c] rest := by
  refine ⟨mem_oneOf.2 ⟨c, hc, rfl⟩, ?_⟩
  intro word _ hword
  obtain ⟨d, -, rfl⟩ := mem_oneOf.1 hword
  exact le_rfl

/-- A longest word is still the longest when nothing at all is allowed as well. -/
theorem one_add (h : Longest L lexeme rest) : Longest (1 + L) lexeme rest := by
  refine ⟨Or.inr h.1, ?_⟩
  rintro word hfits (rfl | hword)
  · exact Nat.zero_le _
  · exact h.2 word hfits hword

/-- Nothing is the longest match where no word of the language stands. -/
theorem one_add_of_none (h : ∀ word ∈ L, ¬ word <+: rest) : Longest (1 + L) [] rest := by
  refine ⟨Or.inl rfl, ?_⟩
  rintro word hfits (rfl | hword)
  · exact le_rfl
  · exact absurd hfits (h word hword)

/-- If something follows a word that cannot go on where the longest word does, the word is the
longest one. -/
theorem eq_of_prefix {word after : Text} (h : Longest L front rest) (hword : word ∈ L)
    (hafter : after ≠ []) (hstart : ∀ c ∈ after.head?, c ∉ front)
    (hfits : word ++ after <+: front ++ rest) : word = front ∧ after <+: rest := by
  have hle : word.length ≤ front.length :=
    h.2 word ((List.prefix_append word after).trans hfits) hword
  obtain ⟨taken, rfl⟩ : word <+: front :=
    List.prefix_of_prefix_length_le ((List.prefix_append word after).trans hfits)
      (List.prefix_append front rest) hle
  rw [List.append_assoc, List.prefix_append_right_inj] at hfits
  cases taken with
  | nil => exact ⟨(List.append_nil word).symm, hfits⟩
  | cons c taken =>
      cases after with
      | nil => exact absurd rfl hafter
      | cons d after =>
          obtain ⟨rfl, -⟩ := List.cons_prefix_cons.1 hfits
          exact absurd (by simp) (hstart d rfl)

/-- The longest word of a product, if words of the second factor begin differently from anything in
the longest word of the first. -/
theorem mul (hfront : Longest L front (lexeme ++ rest)) (hlexeme : Longest M lexeme rest)
    (hstart : ∀ word ∈ M, ∀ c ∈ word.head?, c ∉ front) :
    Longest (L * M) (front ++ lexeme) rest := by
  refine ⟨Language.mem_mul.2 ⟨front, hfront.1, lexeme, hlexeme.1, rfl⟩, ?_⟩
  intro word hfits hword
  obtain ⟨first, hfirst, second, hsecond, rfl⟩ := Language.mem_mul.1 hword
  rw [List.append_assoc] at hfits
  rw [List.length_append, List.length_append]
  by_cases hempty : second = []
  · have hle : first.length ≤ front.length :=
      hfront.2 first ((List.prefix_append first second).trans hfits) hfirst
    rw [hempty, List.length_nil]
    omega
  · obtain ⟨rfl, hafter⟩ :=
      hfront.eq_of_prefix hfirst hempty (hstart second hsecond) hfits
    have hle := hlexeme.2 second hafter hsecond
    omega

/-- No word of a product stands at the front if no word of the second factor stands behind the
longest word of the first. -/
theorem none_of_mul (hfront : Longest L front rest) (hnonempty : ∀ word ∈ M, word ≠ [])
    (hstart : ∀ word ∈ M, ∀ c ∈ word.head?, c ∉ front) (hnone : ∀ word ∈ M, ¬ word <+: rest) :
    ∀ word ∈ L * M, ¬ word <+: front ++ rest := by
  intro word hword hfits
  obtain ⟨first, hfirst, second, hsecond, rfl⟩ := Language.mem_mul.1 hword
  obtain ⟨-, hafter⟩ :=
    hfront.eq_of_prefix hfirst (hnonempty second hsecond) (hstart second hsecond) hfits
  exact hnone second hsecond hafter

end Longest

end CodeHighlight
