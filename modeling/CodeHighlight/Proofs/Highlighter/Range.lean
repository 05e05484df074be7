import CodeHighlight.Highlighter
import CodeHighlight.Proofs.Scan.Coverage

/-!
# Stretches of a source in known and unknown languages

The spans of a stretch in a known language cover it from end to end, whatever the rules of its
grammar claim.  In an unknown language the stretch is one plain span, but its start is not moved
into the source as it is for a known one: from a negative start on, the two cover different
stretches unless both are empty (`tokenizeRange_unknown_iff`).
-/

namespace CodeHighlight

/-- The spans of a range cover it, unless a rule fails, and their text is that of the range if every
token carries its own. -/
theorem Grammar.classifyRange_failsWith_or_consecutive (grammar : Grammar) (source : Source)
    (start stop : Int) {first last : Int} (hlast : last = min stop source.length)
    (hfirst : first = max 0 (min start last)) :
    (∃ e, (grammar.classifyRange source start (some stop)).result = .error e ∧
      grammar.FailsWith source first last e) ∨
    ∃ spans, (grammar.classifyRange source start (some stop)).result = .ok spans ∧
      (last ≤ first → spans = []) ∧ (first < last → Consecutive first last spans) ∧
      ((∀ span ∈ spans, span.category ≠ .plain →
        span.text = source.slice span.start span.stop) →
          Span.texts spans = (source.text.take last.toNat).drop first.toNat) := by
  have hstop : source.stopWithin (some stop) = last := hlast.symm
  have hstart : source.startWithin start (some stop) = first := by
    rw [Source.startWithin, hstop, hfirst]
  rcases lt_or_ge first last with hlt | hle
  · have hrun := grammar.classifyRange_failsWith_or_ordered source start (some stop) (by omega)
    rw [hstart, hstop] at hrun
    rcases hrun with hfails | ⟨tokens, hresult, hordered, -⟩
    · exact .inl hfails
    · refine .inr ⟨_, hresult, fun h => absurd h (by omega),
        fun _ => hordered.consecutive_fillGaps source, fun htexts => ?_⟩
      have hfilter := filter_fillGaps source first last hordered.not_plain
      have hspaced : Spaced source first last tokens := by
        refine hordered.spaced fun token htoken => ?_
        have hmem := List.mem_of_mem_filter (hfilter ▸ htoken)
        exact htexts token hmem (hordered.not_plain token htoken)
      rw [hspaced.tiles_fillGaps.texts_eq (by omega), source.slice_eq (by omega) (by omega)]
  · have hnone := grammar.classifyRange_of_le source start (some stop) (by omega)
    refine .inr ⟨[], hnone, fun _ => rfl, fun h => absurd h (by omega), fun _ => ?_⟩
    rw [List.drop_eq_nil_of_le]
    · rfl
    · rw [List.length_take]
      omega

variable (settings : Settings) (own : Option Registry) (source : Source) (start stop : Int)

/-- In an unknown language a stretch that starts inside the source, or that is empty, has the plain
span that covers it; any other has a span with a negative start.  In a known language the spans
always cover the stretch, and where they carry their own texts, these make up the same text. -/
theorem tokenizeRange_unknown_iff {first last : Int} {stretch : Text}
    (hlast : last = min stop source.length) (hfirst : first = max 0 (min start last))
    (hstretch : stretch = (source.text.take last.toNat).drop first.toNat)
    {unknown : Option Text} (hunknown : settings.resolve? own unknown = none) :
    ((tokenizeRange settings own source start stop unknown).result =
        .ok (if first < last then [⟨.plain, stretch, first, last⟩] else []) ↔
      0 ≤ start ∨ last ≤ start) ∧
    ∀ known grammar, settings.resolve? own known = some (.grammar grammar) →
      (∃ e, (tokenizeRange settings own source start stop known).result = .error e ∧
        grammar.FailsWith source first last e) ∨
      ∃ spans, (tokenizeRange settings own source start stop known).result = .ok spans ∧
        (last ≤ first → spans = []) ∧ (first < last → Consecutive first last spans) ∧
        ((∀ span ∈ spans, span.category ≠ .plain →
          span.text = source.slice span.start span.stop) → Span.texts spans = stretch) := by
  constructor
  · have hresult : (tokenizeRange settings own source start stop unknown).result =
        .ok (plainBetween source start last) := by
      rw [tokenizeRange, hunknown, hlast]
      rfl
    rw [hresult, Except.ok.injEq, plainBetween]
    by_cases hempty : last ≤ start
    · rw [if_neg (by omega), if_neg (by omega)]
      exact ⟨fun _ => .inr hempty, fun _ => rfl⟩
    · rw [if_pos (by omega)]
      by_cases hnonneg : 0 ≤ start
      · obtain rfl : first = start := by omega
        rw [if_pos (by omega), source.slice_eq hnonneg (by omega), ← hstretch]
        exact ⟨fun _ => .inl hnonneg, fun _ => rfl⟩
      · -- The span of an unknown language keeps its negative start.
        constructor
        · intro hsame
          split at hsame
          · have hstart : start = first := congrArg Span.start (List.cons.inj hsame).1
            omega
          · contradiction
        · omega
  · intro known grammar hknown
    have hresult : (tokenizeRange settings own source start stop known).result =
        (grammar.classifyRange source start (some stop)).result := by
      rw [tokenizeRange, hknown]
      rfl
    rw [hresult, hstretch]
    exact grammar.classifyRange_failsWith_or_consecutive source start stop hlast hfirst

/-- A stretch that ends beyond the source and begins in front of it, with a string cut off. -/
theorem tokenizeRange_unknown_iff_clipped :
    let source : Source := .ofText "int32 \"a".toList
    Settings.default.resolve? none (some "nope".toList) = none ∧
    ((tokenizeRange .default none source (-2) 40 (some "nope".toList)).result =
        .ok [⟨.plain, "int32 \"a".toList, 0, 8⟩] ↔ (0 : Int) ≤ -2 ∨ (8 : Int) ≤ -2) ∧
    ∀ known grammar, Settings.default.resolve? none known = some (.grammar grammar) →
      (∃ e, (tokenizeRange .default none source (-2) 40 known).result = .error e ∧
        grammar.FailsWith source 0 8 e) ∨
      ∃ spans, (tokenizeRange .default none source (-2) 40 known).result = .ok spans ∧
        ((8 : Int) ≤ 0 → spans = []) ∧ ((0 : Int) < 8 → Consecutive 0 8 spans) ∧
        ((∀ span ∈ spans, span.category ≠ .plain →
          span.text = source.slice span.start span.stop) →
            Span.texts spans = "int32 \"a".toList) := by
  intro source
  have hunknown : Settings.default.resolve? none (some "nope".toList) = none := by decide
  exact ⟨hunknown, @tokenizeRange_unknown_iff .default none source (-2) 40 0 8 _ (by decide)
    (by decide) (by decide) _ hunknown⟩

/-- A stretch that begins three places in front of the source covers five characters in a known
language and two of them in an unknown one. -/
theorem tokenizeRange_unknown_negative :
    let source : Source := .ofText "abcdef".toList
    Settings.default.resolve? none (some "nope".toList) = none ∧
    (tokenizeRange .default none source (-3) 5 (some "nope".toList)).result =
      .ok [⟨.plain, "de".toList, -3, 5⟩] ∧
    (tokenizeRange .default none source (-3) 5 (some "proto".toList)).result =
      .ok [⟨.plain, "abcde".toList, 0, 5⟩] := by
  exact ⟨by decide, by decide, by decide +kernel⟩

end CodeHighlight
