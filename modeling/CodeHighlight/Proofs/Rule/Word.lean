import CodeHighlight.Proofs.Source
import CodeHighlight.Proofs.Text.Run
import CodeHighlight.Rule.Word

/-!
# What the word rule finds

The rule claims exactly the maximal runs of word characters that begin with a word start and lie
inside the bound.
-/

namespace CodeHighlight

/-- A word start with word characters behind it. -/
def IsWord (lexeme : Text) : Prop :=
  ∃ first body, isWordStart first = true ∧ (∀ c ∈ body, isWordChar c = true) ∧
    lexeme = first :: body

theorem IsWord.all_isWordChar {lexeme : Text} (h : IsWord lexeme) :
    ∀ c ∈ lexeme, isWordChar c = true := by
  obtain ⟨first, body, hfirst, hbody, rfl⟩ := h
  intro c hc
  rcases List.mem_cons.1 hc with rfl | hc
  · exact isWordChar_of_isWordStart hfirst
  · exact hbody c hc

/-- No word is a string or a number. -/
theorem wordCategory_ne_lexical (keywords literals : List Text) (word : Text) :
    wordCategory keywords literals word ≠ .string ∧
      wordCategory keywords literals word ≠ .number := by
  unfold wordCategory
  split
  · exact ⟨nofun, nofun⟩
  · split
    · exact ⟨nofun, nofun⟩
    · exact ⟨nofun, nofun⟩

namespace Reader

variable (source : Source) (keywords literals : List Text) {position stop : Int}

/-- What the rule computes, in terms of the stretch ahead. -/
private theorem wordAt_eq (hposition : 0 ≤ position) (hlt : position < stop)
    (hstop : stop ≤ source.length) {c : Char} (hread : source.read position = .ok c) :
    source.reader.wordAt keywords literals position stop =
      .ok (if isWordStart c = true ∧ (source.behind position).any isWordChar = false then
        let last := position + 1 +
          ((source.slice (position + 1) stop).takeWhile isWordChar).length
        some ⟨wordCategory keywords literals (source.slice position last),
          source.slice position last, position, last⟩
      else none) := by
  unfold wordAt
  show (source.read position).bind _ = _
  rw [hread]
  show (if (!isWordStart c) = true then _ else _) = _
  cases hstart : isWordStart c with
  | false => rfl
  | true =>
      rw [if_neg (by simp), follows_reader source isWordChar hposition (by omega)]
      show (if (source.behind position).any isWordChar = true then _ else _) = _
      cases hbehind : (source.behind position).any isWordChar with
      | true => rfl
      | false =>
          rw [if_neg (by simp), runEnd_reader source isWordChar (by omega) (by omega) hstop,
            if_pos (by simp)]
          rfl

theorem wordAt_exact (hposition : 0 ≤ position) (hlt : position < stop)
    (hstop : stop ≤ source.length) :
    ∃ claim, source.reader.wordAt keywords literals position stop = .ok claim ∧
      ∀ span, claim = some span ↔ ∃ lexeme rest, source.slice position stop = lexeme ++ rest ∧
        IsWord lexeme ∧ (source.behind position).any isWordChar = false ∧
        rest.head?.any isWordChar = false ∧
        span = Span.ofLexeme (wordCategory keywords literals lexeme) lexeme position := by
  obtain ⟨c, hread, hslice⟩ := source.exists_read_slice hposition hlt hstop
  refine ⟨_, wordAt_eq source keywords literals hposition hlt hstop hread, ?_⟩
  -- The lexeme is the character itself with the run of word characters behind it.
  let run := (source.slice (position + 1) stop).takeWhile isWordChar
  have hsplit : source.slice position stop =
      (c :: run) ++ (source.slice (position + 1) stop).dropWhile isWordChar := by
    rw [hslice, List.cons_append, List.takeWhile_append_dropWhile]
  have hlast : position + ((c :: run).length : Int) = position + 1 + run.length := by
    rw [List.length_cons]
    omega
  have hspan := Span.ofLexeme_eq source (wordCategory keywords literals (c :: run)) hposition
    (by omega) hsplit
  have hlexeme := (source.slice_split hposition (by omega) hsplit).1
  rw [hlast] at hspan hlexeme
  intro span
  constructor
  · intro h
    split at h
    · next hword =>
        obtain rfl := Option.some.inj h
        refine ⟨c :: run, _, hsplit, ⟨c, run, hword.1, ?_, rfl⟩, hword.2,
          Text.any_head?_dropWhile isWordChar _, ?_⟩
        · exact fun d hd => Text.mem_takeWhile hd
        · rw [hspan, hlexeme]
    · contradiction
  · rintro ⟨lexeme, rest, hother, ⟨first, body, hfirst, hbody, rfl⟩, hbehind, hrest, rfl⟩
    rw [hslice] at hother
    obtain ⟨rfl, hnext⟩ := List.cons.inj hother
    have hrun : run = body := by
      show (source.slice (position + 1) stop).takeWhile isWordChar = body
      rw [hnext]
      exact Text.takeWhile_append_of_head? hbody hrest
    rw [if_pos ⟨hfirst, hbehind⟩, ← hrun, hspan]
    show some (Span.mk (wordCategory keywords literals (source.slice position _)) _ _ _) = _
    rw [hlexeme]

end Reader

end CodeHighlight
