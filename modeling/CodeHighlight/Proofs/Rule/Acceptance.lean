import CodeHighlight.Proofs.Rule.Numeral
import CodeHighlight.Proofs.Rule.Quoted

/-!
# What the rules accept

The quoted string rule and the numeral rule each accept a regular language, and the offsets at which
their claims end are determined by it: a quoted string ends at the only place at which the stretch
from the position on is a word of its language (`Reader.quotedAt_iff_match`), a numeral at the last
such place, or there is none (`Reader.numeralAt_iff_longest`).  Here the languages are compared with
stretches of the source, where the modules about the single rules compare them with texts.
-/

namespace CodeHighlight

open scoped Computability

/-! ## Stretches that are words of a language -/

namespace Source

/-- The stretch between the two offsets is a word of the language. -/
def Matches (source : Source) (L : Language Char) (start stop : Int) : Prop :=
  start ≤ stop ∧ stop ≤ source.length ∧ source.slice start stop ∈ L

/-- Of the words of the language that start at `start` and end at `stop` at the latest, the longest
ends at `last`. -/
def LongestMatch (source : Source) (L : Language Char) (start stop last : Int) : Prop :=
  source.Matches L start last ∧ last ≤ stop ∧
    ∀ other, other ≤ stop → source.Matches L start other → other ≤ last

/-- No word character stands directly before the stretch from `start` to `last`, and before `stop`
none directly behind it. -/
def StandsAlone (source : Source) (start last stop : Int) : Prop :=
  (start = 0 ∨ ∃ c, source.read (start - 1) = .ok c ∧ isWordChar c = false) ∧
    (last = stop ∨ ∃ c, source.read last = .ok c ∧ isWordChar c = false)

variable {source : Source} {L : Language Char} {start stop last : Int}

/-- Where something matches there is a longest match. -/
theorem exists_longestMatch {last : Int} (h : source.Matches L start last) (hle : last ≤ stop) :
    ∃ longest, last ≤ longest ∧ source.LongestMatch L start stop longest := by
  by_cases hlonger : ∃ other, last < other ∧ other ≤ stop ∧ source.Matches L start other
  · obtain ⟨other, hlt, hother, hmatch⟩ := hlonger
    obtain ⟨longest, hlongest, hmost⟩ := exists_longestMatch hmatch hother
    exact ⟨longest, by omega, hmost⟩
  · refine ⟨last, Int.le_refl last, h, hle, fun other hother hmatch => ?_⟩
    apply Int.le_of_not_gt
    exact fun hlt => hlonger ⟨other, hlt, hother, hmatch⟩
termination_by (stop - last).toNat

theorem longestMatch_iff (hstart : 0 ≤ start) (hle : start ≤ stop) (hstop : stop ≤ source.length) :
    source.LongestMatch L start stop last ↔ start ≤ last ∧ last ≤ stop ∧
      Longest L (source.slice start last) (source.slice last stop) := by
  constructor
  · rintro ⟨⟨hfirst, hbound, hmem⟩, hlast, hmost⟩
    refine ⟨hfirst, hlast, hmem, ?_⟩
    rintro word ⟨more, hsplit⟩ hword
    rw [source.slice_append hstart hfirst hlast] at hsplit
    have hlength := congrArg List.length hsplit
    rw [source.length_slice hstart hle hstop, List.length_append] at hlength
    have hfront := (source.slice_split hstart (by omega) hsplit.symm).1
    have hend := hmost (start + word.length) (by omega)
      ⟨by omega, by omega, by rw [hfront]; exact hword⟩
    rw [source.length_slice hstart hfirst hbound]
    omega
  · rintro ⟨hfirst, hlast, hmem, hmost⟩
    refine ⟨⟨hfirst, by omega, hmem⟩, hlast, ?_⟩
    rintro other hother ⟨hbefore, hbound, hword⟩
    have hfits : source.slice start other <+: source.slice start last ++ source.slice last stop := by
      rw [source.slice_append hstart hfirst hlast, ← source.slice_append hstart hbefore hother]
      exact List.prefix_append _ _
    have hlength := hmost _ hfits hword
    rw [source.length_slice hstart hbefore hbound,
      source.length_slice hstart hfirst (by omega)] at hlength
    omega

/-- What is asked of the character at a place is asked of the one that is read there. -/
private theorem exists_read_and_iff {place : Int} {c : Char} {p : Char → Prop}
    (hread : source.read place = .ok c) : (∃ d, source.read place = .ok d ∧ p d) ↔ p c := by
  simp [hread]

theorem any_behind_eq_false_iff (p : Char → Bool) (hstart : 0 ≤ start)
    (hle : start ≤ source.length) :
    (source.behind start).any p = false ↔
      start = 0 ∨ ∃ c, source.read (start - 1) = .ok c ∧ p c = false := by
  by_cases hzero : start = 0
  · rw [hzero, source.behind_zero]
    exact ⟨fun _ => .inl rfl, fun _ => rfl⟩
  · obtain ⟨c, hread, hbehind⟩ := source.exists_read_behind (by omega : 0 < start) hle
    rw [hbehind, or_iff_right hzero, exists_read_and_iff hread, Option.any_some]

theorem any_head?_slice_eq_false_iff (p : Char → Bool) (hlast : 0 ≤ last) (hle : last ≤ stop)
    (hstop : stop ≤ source.length) :
    (source.slice last stop).head?.any p = false ↔
      last = stop ∨ ∃ c, source.read last = .ok c ∧ p c = false := by
  by_cases hend : last = stop
  · rw [hend, source.slice_eq_nil (by omega) (Int.le_refl stop)]
    exact ⟨fun _ => .inl rfl, fun _ => rfl⟩
  · obtain ⟨c, hread, hslice⟩ := source.exists_read_slice hlast (by omega : last < stop) hstop
    rw [hslice, or_iff_right hend, exists_read_and_iff hread, List.head?_cons, Option.any_some]

end Source

/-! ## Quoted strings -/

/-- What may stand between two marks: a backslash with any character behind it, or any character but
the backslash, the mark and the line feed, as often as one likes. -/
def quotedBodies (mark : Char) : Language Char :=
  (oneOf (· == '\\') * oneOf (fun _ => true) +
    oneOf fun c => c != '\\' && c != mark && c != '\n')∗

/-- The strings between two marks of one kind. -/
def quotedStrings (mark : Char) : Language Char :=
  oneOf (· == mark) * quotedBodies mark * oneOf (· == mark)

theorem mem_quotedBodies {mark : Char} {t : Text} :
    t ∈ quotedBodies mark ↔ QuotedBody mark t := by
  unfold quotedBodies
  rw [Language.mem_kstar]
  constructor
  · rintro ⟨pieces, rfl, hpieces⟩
    induction pieces with
    | nil => exact .nil
    | cons piece rest ih =>
        obtain ⟨hpiece, hrest⟩ := List.forall_mem_cons.1 hpieces
        have hbody := ih hrest
        rcases hpiece with hpiece | hpiece
        · obtain ⟨first, hfirst, second, hsecond, rfl⟩ := Language.mem_mul.1 hpiece
          obtain ⟨c, hc, rfl⟩ := mem_oneOf.1 hfirst
          obtain ⟨d, -, rfl⟩ := mem_oneOf.1 hsecond
          rw [eq_of_beq hc]
          exact .hidden d _ hbody
        · obtain ⟨c, hc, rfl⟩ := mem_oneOf.1 hpiece
          simp only [Bool.and_eq_true, bne_iff_ne] at hc
          exact .shown c _ hc.1.1 hc.1.2 hc.2 hbody
  · intro hbody
    induction hbody with
    | nil => exact ⟨[], rfl, nofun⟩
    | hidden c rest _ ih =>
        obtain ⟨pieces, rfl, hpieces⟩ := ih
        refine ⟨['\\', c] :: pieces, rfl, List.forall_mem_cons.2 ⟨.inl ?_, hpieces⟩⟩
        exact Language.mem_mul.2 ⟨['\\'], ⟨'\\', rfl, rfl⟩, [c], ⟨c, rfl, rfl⟩, rfl⟩
    | shown c rest hbackslash hmark hline _ ih =>
        obtain ⟨pieces, rfl, hpieces⟩ := ih
        refine ⟨[c] :: pieces, rfl, List.forall_mem_cons.2 ⟨.inr ⟨c, ?_, rfl⟩, hpieces⟩⟩
        simp [hbackslash, hmark, hline]

theorem mem_quotedStrings {mark : Char} {t : Text} :
    t ∈ quotedStrings mark ↔ ∃ body, QuotedBody mark body ∧ t = mark :: (body ++ [mark]) := by
  constructor
  · intro h
    obtain ⟨front, hfront, last, hlast, rfl⟩ := Language.mem_mul.1 h
    obtain ⟨first, hfirst, body, hbody, rfl⟩ := Language.mem_mul.1 hfront
    obtain ⟨c, hc, rfl⟩ := mem_oneOf.1 hfirst
    obtain ⟨d, hd, rfl⟩ := mem_oneOf.1 hlast
    rw [eq_of_beq hc, eq_of_beq hd]
    exact ⟨body, mem_quotedBodies.1 hbody, rfl⟩
  · rintro ⟨body, hbody, rfl⟩
    have hmark : [mark] ∈ oneOf (· == mark) := mem_oneOf.2 ⟨mark, beq_self_eq_true mark, rfl⟩
    refine Language.mem_mul.2 ⟨mark :: body, ?_, [mark], hmark, rfl⟩
    exact Language.mem_mul.2 ⟨[mark], hmark, body, mem_quotedBodies.2 hbody, rfl⟩

/-- The quoted strings that start with a given character are those of its own language. -/
theorem isQuoted_iff {marks : List Char} {mark : Char} {t : Text}
    (hfront : ∀ c ∈ t.head?, c = mark) :
    IsQuoted marks t ↔ mark ∈ marks ∧ mark ≠ '\\' ∧ t ∈ quotedStrings mark := by
  rw [mem_quotedStrings]
  constructor
  · rintro ⟨other, hother, hbackslash, body, hbody, rfl⟩
    obtain rfl := hfront other rfl
    exact ⟨hother, hbackslash, body, hbody, rfl⟩
  · rintro ⟨hmark, hbackslash, hstring⟩
    exact ⟨mark, hmark, hbackslash, hstring⟩

namespace Reader

variable (source : Source) (marks : List Char) {position stop : Int}

/-- No quoted string is a proper beginning of another one. -/
theorem quotedStrings_match_unique {mark : Char} (hbackslash : mark ≠ '\\')
    (hposition : 0 ≤ position) {last other : Int}
    (hlast : source.Matches (quotedStrings mark) position last)
    (hother : source.Matches (quotedStrings mark) position other) : last = other := by
  -- Both are found by the search up to the end of the source.
  have hfound : ∀ {last}, source.Matches (quotedStrings mark) position last →
      QuotedSearch source mark source.length (position + 1) (.found last) := by
    rintro last ⟨hle, hbound, hmem⟩
    obtain ⟨body, hbody, hslice⟩ := mem_quotedStrings.1 hmem
    have hlength := congrArg List.length hslice
    rw [source.length_slice hposition hle hbound, List.length_cons, List.length_append,
      List.length_singleton] at hlength
    have hsplit := source.slice_append hposition hle hbound
    rw [hslice, List.cons_append, List.append_assoc] at hsplit
    obtain ⟨-, -, hnext⟩ := source.of_slice_eq_cons hposition source.length_nonneg
      (Int.le_refl _) hsplit.symm
    have hsearch := QuotedSearch.found_of_body hbody hbackslash (by omega) source.length_nonneg
      (Int.le_refl _) hnext
    rwa [show position + 1 + body.length + 1 = last by omega] at hsearch
  exact Closing.found.inj ((hfound hlast).unique (hfound hother))

/-- Without a memory the rule declines exactly if none of its marks stands at the position or the
string that opens there stays open. -/
theorem quotedAt_eq_none_iff {mark : Char} {claim : Option Span} (hposition : 0 ≤ position)
    (hlt : position < stop) (hstop : stop ≤ source.length) (hread : source.read position = .ok mark)
    (hclaim : source.reader.quotedAt marks none position stop = .ok ⟨claim, none⟩) :
    claim = none ↔ mark ∉ marks ∨ Unclosed source mark (position + 1) stop := by
  by_cases hmark : mark ∈ marks
  · rw [or_iff_right (not_not_intro hmark)]
    obtain ⟨closing, hsearch⟩ :=
      QuotedSearch.exists_search source mark (position + 1) (by omega) hstop
    have hanswer := hclaim.symm.trans (quotedAt_of_search none hread hmark rfl hsearch)
    cases closing with
    | found last =>
        rw [(Attempt.mk.inj (Except.ok.inj hanswer)).1]
        refine ⟨nofun, fun hunclosed => ?_⟩
        obtain ⟨horizon, hmissing⟩ := QuotedSearch.missing_of_unclosed hunclosed (by omega) hstop
        exact absurd (hsearch.unique hmissing) nofun
    | missing horizon =>
        rw [(Attempt.mk.inj (Except.ok.inj hanswer)).1]
        exact ⟨fun _ => hsearch.unclosed_of_missing (by omega) (by omega) hstop, fun _ => rfl⟩
  · have hanswer := hclaim.symm.trans (quotedAt_of_not_mem hread hmark)
    exact ⟨fun _ => .inl hmark, fun _ => (Attempt.mk.inj (Except.ok.inj hanswer)).1⟩

/-- Without a memory the quoted string rule claims the stretch from the position to `last` exactly
if one of its marks stands at the position, which is not the backslash, and the stretch is a word of
the language of that mark; there is no more than one such stretch in the source, and the rule
declines if it ends behind `stop`.  The rule declines exactly if none of its marks stands there or
the string stays open up to `stop`. -/
theorem quotedAt_iff_match (hposition : 0 ≤ position) (hlt : position < stop)
    (hstop : stop ≤ source.length) :
    ∃ mark claim, source.read position = .ok mark ∧
      source.reader.quotedAt marks none position stop = .ok ⟨claim, none⟩ ∧
      (∀ span, claim = some span ↔ mark ∈ marks ∧ mark ≠ '\\' ∧
        ∃ last, last ≤ stop ∧ source.Matches (quotedStrings mark) position last ∧
          span = ⟨.string, source.slice position last, position, last⟩) ∧
      (mark ≠ '\\' → ∀ last other, source.Matches (quotedStrings mark) position last →
        source.Matches (quotedStrings mark) position other → last = other) ∧
      (∀ last, stop < last → source.Matches (quotedStrings mark) position last → claim = none) ∧
      (claim = none ↔ mark ∉ marks ∨ Unclosed source mark (position + 1) stop) := by
  obtain ⟨mark, hread, hslice⟩ := source.exists_read_slice hposition hlt hstop
  obtain ⟨claim, hclaim, hexact⟩ := quotedAt_forgetful source marks hposition hlt hstop
  -- Every beginning of the stretch starts with the mark, unless it is empty.
  have hquoted : ∀ last, position ≤ last → last ≤ stop →
      (IsQuoted marks (source.slice position last) ↔ mark ∈ marks ∧ mark ≠ '\\' ∧
        source.slice position last ∈ quotedStrings mark) := by
    intro last hle hlast
    apply isQuoted_iff
    intro c hc
    have hfront := source.slice_append hposition hle hlast
    rw [hslice, List.eq_cons_of_mem_head? hc, List.cons_append] at hfront
    exact (List.cons.inj hfront).1
  have haccepts : ∀ span, claim = some span ↔ mark ∈ marks ∧ mark ≠ '\\' ∧
      ∃ last, last ≤ stop ∧ source.Matches (quotedStrings mark) position last ∧
        span = ⟨.string, source.slice position last, position, last⟩ := by
    intro span
    rw [hexact, source.exists_cut_iff hposition (Int.le_of_lt hlt) hstop]
    constructor
    · rintro ⟨last, hle, hlast, hlexeme, rfl⟩
      obtain ⟨hmark, hbackslash, hmem⟩ := (hquoted last hle hlast).1 hlexeme
      exact ⟨hmark, hbackslash, last, hlast, ⟨hle, by omega, hmem⟩,
        Span.ofLexeme_slice source .string hposition hle (by omega)⟩
    · rintro ⟨hmark, hbackslash, last, hlast, ⟨hle, hbound, hmem⟩, rfl⟩
      exact ⟨last, hle, hlast, (hquoted last hle hlast).2 ⟨hmark, hbackslash, hmem⟩,
        (Span.ofLexeme_slice source .string hposition hle hbound).symm⟩
  refine ⟨mark, claim, hread, hclaim, haccepts,
    fun hbackslash last other => quotedStrings_match_unique source hbackslash hposition,
    fun last hbeyond hmatch => ?_,
    quotedAt_eq_none_iff source marks hposition hlt hstop hread hclaim⟩
  rw [Option.eq_none_iff_forall_ne_some]
  intro span hspan
  obtain ⟨-, hbackslash, other, hother, hwithin, -⟩ := (haccepts span).1 hspan
  have hsame := quotedStrings_match_unique source hbackslash hposition hmatch hwithin
  omega

/-- With the line feed among the marks, a string may begin and end with one and hide others. -/
theorem quotedAt_iff_match_newline :
    let source : Source := .ofText "\n\\\nx\n\\".toList
    let marks : List Char := ['\n', '\\']
    ∃ mark claim, source.read 0 = .ok mark ∧
      source.reader.quotedAt marks none 0 5 = .ok ⟨claim, none⟩ ∧
      (∀ span, claim = some span ↔ mark ∈ marks ∧ mark ≠ '\\' ∧
        ∃ last, last ≤ 5 ∧ source.Matches (quotedStrings mark) 0 last ∧
          span = ⟨.string, source.slice 0 last, 0, last⟩) ∧
      (mark ≠ '\\' → ∀ last other, source.Matches (quotedStrings mark) 0 last →
        source.Matches (quotedStrings mark) 0 other → last = other) ∧
      (∀ last, 5 < last → source.Matches (quotedStrings mark) 0 last → claim = none) ∧
      (claim = none ↔ mark ∉ marks ∨ Unclosed source mark 1 5) := by
  intro source marks
  exact quotedAt_iff_match source marks (by decide : (0 : Int) ≤ 0) (by decide : (0 : Int) < 5)
    (by decide)

end Reader

/-! ## Numerals -/

namespace Reader

variable (source : Source) {position stop : Int}

/-- The numeral rule claims the longest numeral at the position, if there is any and it stands
alone; it never claims a shorter one instead. -/
theorem numeralAt_iff_longest (hposition : 0 ≤ position) (hlt : position < stop)
    (hstop : stop ≤ source.length) :
    ∃ claim, source.reader.numeralAt position stop = .ok claim ∧
      (∀ span, claim = some span ↔ ∃ last, source.LongestMatch numerals position stop last ∧
        source.StandsAlone position last stop ∧
        span = ⟨.number, source.slice position last, position, last⟩) ∧
      (claim = none ↔ ∀ last, source.LongestMatch numerals position stop last →
        ¬ source.StandsAlone position last stop) ∧
      (∀ last, last ≤ stop → source.Matches numerals position last →
        ∃ longest, last ≤ longest ∧ source.LongestMatch numerals position stop longest) := by
  obtain ⟨claim, hclaim, hexact⟩ := numeralAt_exact source hposition hlt hstop
  have hlongest : ∀ span, claim = some span ↔
      ∃ last, source.LongestMatch numerals position stop last ∧
        source.StandsAlone position last stop ∧
        span = ⟨.number, source.slice position last, position, last⟩ := by
    intro span
    rw [hexact, source.exists_cut_iff hposition (Int.le_of_lt hlt) hstop]
    refine exists_congr fun last => ?_
    rw [Source.longestMatch_iff hposition (Int.le_of_lt hlt) hstop, and_assoc, and_assoc]
    refine and_congr_right fun hfirst => and_congr_right fun hlast => and_congr_right fun _ => ?_
    rw [Source.any_behind_eq_false_iff isWordChar hposition (by omega),
      Source.any_head?_slice_eq_false_iff isWordChar (by omega) hlast hstop,
      Span.ofLexeme_slice source .number hposition hfirst (by omega), Source.StandsAlone, and_assoc]
  refine ⟨claim, hclaim, hlongest, ?_,
    fun last hlast hmatch => Source.exists_longestMatch hmatch hlast⟩
  rw [Option.eq_none_iff_forall_ne_some]
  constructor
  · intro hnone last hmatch halone
    exact hnone _ ((hlongest _).2 ⟨last, hmatch, halone, rfl⟩)
  · intro hno span hspan
    obtain ⟨last, hmatch, halone, -⟩ := (hlongest span).1 hspan
    exact hno last hmatch halone

/-- The bound lies inside an exponent that goes on behind it. -/
theorem numeralAt_iff_longest_bounded :
    let source : Source := .ofText "=-1.5e+30x".toList
    ∃ claim, source.reader.numeralAt 1 8 = .ok claim ∧
      (∀ span, claim = some span ↔ ∃ last, source.LongestMatch numerals 1 8 last ∧
        source.StandsAlone 1 last 8 ∧ span = ⟨.number, source.slice 1 last, 1, last⟩) ∧
      (claim = none ↔ ∀ last, source.LongestMatch numerals 1 8 last →
        ¬ source.StandsAlone 1 last 8) ∧
      (∀ last, last ≤ 8 → source.Matches numerals 1 last →
        ∃ longest, last ≤ longest ∧ source.LongestMatch numerals 1 8 longest) := by
  intro source
  exact numeralAt_iff_longest source (by decide : (0 : Int) ≤ 1) (by decide : (1 : Int) < 8)
    (by decide)

end Reader

end CodeHighlight
