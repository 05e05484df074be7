import CodeHighlight.Proofs.Html.Lines

/-!
# Which overlaps are reported

A fragment compares every span with the one in front of it, and so it finds any two that are out of
order, as long as none ends before it starts (`Style.fragment_rejects_iff_pair`).  A block compares
the pieces on each line, after the spans have been cut at their line feeds.  It therefore sees the
overlap of two spans only if they meet on a line: the first ends there, the second starts there, and
nothing but empty spans stands between them (`Style.overlap_reported_iff`).  What a block reports a
fragment reports as well, but a span that runs backwards behind a line feed goes unnoticed in a
block.
-/

namespace CodeHighlight

/-- The span starts inside the source and covers as many offsets as its text has characters. -/
def Span.Placed (span : Span) : Prop :=
  0 ≤ span.start ∧ span.stop - span.start = span.text.length

/-- The span ends in front of the other one. -/
def Span.Precedes (span other : Span) : Prop := span.stop ≤ other.start

/-- The text has a first character, and that is no line feed. -/
def Text.StartsInLine (t : Text) : Prop := ∃ c, t.head? = some c ∧ c ≠ '\n'

/-- The text has a last character, and that is no line feed. -/
def Text.EndsInLine (t : Text) : Prop := ∃ c, t.getLast? = some c ∧ c ≠ '\n'

/-- The first text among some spans is that of `next`, and it starts on their first line. -/
inductive LeadsTo : List Span → Span → Prop
  | here (next : Span) (rest : List Span) (hstarts : next.text.StartsInLine) :
      LeadsTo (next :: rest) next
  | skip (span next : Span) (rest : List Span) (hempty : span.text = [])
      (hrest : LeadsTo rest next) : LeadsTo (span :: rest) next

/-- Of two of the spans the first ends on the line on which the second starts, and there is no text
between them. -/
inductive MeetInLine : List Span → Span → Span → Prop
  | here (first second : Span) (rest : List Span) (hends : first.text.EndsInLine)
      (hnext : LeadsTo rest second) : MeetInLine (first :: rest) first second
  | later (span first second : Span) (rest : List Span) (hrest : MeetInLine rest first second) :
      MeetInLine (span :: rest) first second

/-- Somewhere behind a span there is one that starts before its end. -/
def Overlapping (spans : List Span) : Prop :=
  ∃ (i j : Nat) (first second : Span), i < j ∧ spans[i]? = some first ∧ spans[j]? = some second ∧
    second.start < first.stop

/-- Nothing is written because of an overlap. -/
def Html.Rejects (outcome : Except Error Text) : Prop :=
  ∃ start previousStop, outcome = .error (.overlap start previousStop)

/-! ## Neighbours -/

namespace Html

variable {previousStop : Int} {spans : List Span}

theorem firstOverlap?_eq_none_iff :
    firstOverlap? previousStop spans = none ↔
      (∀ span ∈ spans.head?, previousStop ≤ span.start) ∧ spans.IsChain Span.Precedes := by
  induction spans generalizing previousStop with
  | nil => simp [firstOverlap?]
  | cons span rest ih =>
      rw [firstOverlap?, List.isChain_cons]
      by_cases hlt : span.start < previousStop
      · rw [if_pos hlt]
        refine ⟨fun h => absurd h (Option.some_ne_none _), fun h => ?_⟩
        have hle := h.1 span rfl
        omega
      · rw [if_neg hlt, ih]
        refine ⟨fun h => ⟨?_, h⟩, fun h => h.2⟩
        rintro other hother
        obtain rfl := Option.some.inj hother
        omega

theorem exists_overlap_of_firstOverlap? {e : Error}
    (h : firstOverlap? previousStop spans = some e) : ∃ start stop, e = .overlap start stop := by
  induction spans generalizing previousStop with
  | nil => contradiction
  | cons span rest ih =>
      rw [firstOverlap?] at h
      split at h
      · exact ⟨span.start, previousStop, (Option.some.inj h).symm⟩
      · exact ih h

/-- Spans inside the source are only compared with each other. -/
theorem overlap?_eq_none_iff (hstart : ∀ span ∈ spans, 0 ≤ span.start) :
    overlap? spans = none ↔ spans.IsChain Span.Precedes := by
  rw [overlap?, firstOverlap?_eq_none_iff]
  refine ⟨fun h => h.2, fun h => ⟨fun span hspan => ?_, h⟩⟩
  have hnonneg := hstart span (List.mem_of_head? hspan)
  omega

/-- Spans that do not end before they start are in order as soon as all neighbours are. -/
theorem pairwise_precedes_iff (hforward : ∀ span ∈ spans, span.start ≤ span.stop) :
    spans.Pairwise Span.Precedes ↔ spans.IsChain Span.Precedes := by
  refine ⟨List.Pairwise.isChain, fun hchain => ?_⟩
  induction spans with
  | nil => exact .nil
  | cons span rest ih =>
      have hrest := ih (fun other hother => hforward other (List.mem_cons_of_mem span hother))
        hchain.tail
      refine List.pairwise_cons.2 ⟨fun later hlater => ?_, hrest⟩
      cases rest with
      | nil => contradiction
      | cons next rest =>
          have hnext : span.stop ≤ next.start := (List.isChain_cons_cons.1 hchain).1
          rcases List.mem_cons.1 hlater with rfl | hlater
          · exact hnext
          · -- The next span lies between the two.
            have hmiddle := hforward next (List.mem_cons_of_mem span List.mem_cons_self)
            have hlast : next.stop ≤ later.start := (List.pairwise_cons.1 hrest).1 later hlater
            show span.stop ≤ later.start
            omega

theorem overlapping_iff : Overlapping spans ↔ ¬ spans.Pairwise Span.Precedes := by
  rw [List.pairwise_iff_getElem]
  constructor
  · rintro ⟨i, j, first, second, hlt, hfirst, hsecond, hoverlap⟩ h
    obtain ⟨hi, rfl⟩ := List.getElem?_eq_some_iff.1 hfirst
    obtain ⟨hj, rfl⟩ := List.getElem?_eq_some_iff.1 hsecond
    exact Int.not_le.2 hoverlap (h i j hi hj hlt)
  · intro h
    simp only [not_forall] at h
    obtain ⟨i, j, hi, hj, hlt, hnot⟩ := h
    exact ⟨i, j, _, _, hlt, List.getElem?_eq_getElem hi, List.getElem?_eq_getElem hj,
      Int.lt_of_not_ge hnot⟩

end Html

namespace Style

open Html

variable (style : Style) {list : List Span}

theorem fragment_rejects : Rejects (style.fragment list) ↔ overlap? list ≠ none := by
  unfold fragment
  cases hoverlap : overlap? list with
  | none => exact ⟨nofun, fun h => absurd rfl h⟩
  | some e =>
      obtain ⟨start, stop, rfl⟩ := exists_overlap_of_firstOverlap? hoverlap
      exact ⟨fun _ => nofun, fun _ => ⟨start, stop, rfl⟩⟩

theorem block_rejects (language : Option Text) (options : LineOptions) :
    Rejects (style.block list language options) ↔
      ¬ ∀ line ∈ splitLines list, overlap? line = none := by
  rw [← List.findSome?_eq_none_iff]
  unfold block
  dsimp only
  cases hoverlap : (splitLines list).findSome? overlap? with
  | none => exact ⟨nofun, fun h => absurd rfl h⟩
  | some e =>
      obtain ⟨line, -, hline⟩ := List.exists_of_findSome?_eq_some hoverlap
      obtain ⟨start, stop, rfl⟩ := exists_overlap_of_firstOverlap? hline
      exact ⟨fun _ => nofun, fun _ => ⟨start, stop, rfl⟩⟩

end Style

/-! ## The lines of a span -/

namespace Text

theorem not_startsInLine_nil : ¬ StartsInLine [] := by
  rintro ⟨c, hc, -⟩
  contradiction

theorem not_endsInLine_nil : ¬ EndsInLine [] := by
  rintro ⟨c, hc, -⟩
  contradiction

theorem endsInLine_of_not_mem {t : Text} (hfeed : '\n' ∉ t) (hne : t ≠ []) : t.EndsInLine := by
  refine ⟨t.getLast hne, List.getLast?_eq_some_getLast hne, ?_⟩
  intro h
  exact hfeed (h ▸ List.getLast_mem hne)

/-- What stands before the last line feed does not matter. -/
theorem endsInLine_append_cons {front t : Text} :
    (front ++ '\n' :: t).EndsInLine ↔ t.EndsInLine := by
  unfold EndsInLine
  cases t with
  | nil => simp
  | cons c t => simp

end Text

namespace Span

/-- No line of one text has more than one piece. -/
theorem isChain_piecesFrom (category : Category) (offset : Int) (parts : List Text) :
    ∀ line ∈ piecesFrom category offset parts, line.IsChain Precedes := by
  induction parts generalizing offset with
  | nil => exact nofun
  | cons part rest ih =>
      intro line hline
      rcases List.mem_cons.1 hline with rfl | hline
      · split
        · exact .nil
        · exact .singleton _
      · exact ih _ line hline

theorem le_start_of_mem_piecesFrom (category : Category) {offset : Int} (parts : List Text) :
    ∀ line ∈ piecesFrom category offset parts, ∀ piece ∈ line, offset ≤ piece.start := by
  induction parts generalizing offset with
  | nil => exact nofun
  | cons part rest ih =>
      intro line hline piece hpiece
      rcases List.mem_cons.1 hline with rfl | hline
      · split at hpiece
        · contradiction
        · rw [List.mem_singleton.1 hpiece]
      · have hle := ih line hline piece hpiece
        omega

/-- The last line of a text has a piece if the text ends there, and then the piece ends where the
text does. -/
theorem exists_lastLine_piecesFrom (category : Category) (offset : Int) {parts : List Text}
    (hne : parts ≠ []) (hparts : ∀ part ∈ parts, '\n' ∉ part) :
    ∃ front last, piecesFrom category offset parts = front ++ [last] ∧
      ∀ stop, (∃ piece ∈ last.getLast?, piece.stop = stop) ↔
        Text.EndsInLine (['\n'].intercalate parts) ∧
          stop = offset + (['\n'].intercalate parts).length := by
  induction parts generalizing offset with
  | nil => contradiction
  | cons part rest ih =>
      cases rest with
      | nil =>
          refine ⟨[], _, rfl, fun stop => ?_⟩
          rw [List.intercalate_singleton]
          by_cases hempty : part = []
          · rw [if_pos hempty, hempty]
            exact ⟨nofun, fun h => absurd h.1 Text.not_endsInLine_nil⟩
          · rw [if_neg hempty]
            have hends := Text.endsInLine_of_not_mem (hparts part List.mem_cons_self) hempty
            constructor
            · rintro ⟨piece, hpiece, rfl⟩
              obtain rfl := Option.some.inj hpiece
              exact ⟨hends, rfl⟩
            · rintro ⟨-, rfl⟩
              exact ⟨_, rfl, rfl⟩
      | cons second rest =>
          have hrest := fun other hother => hparts other (List.mem_cons_of_mem part hother)
          obtain ⟨front, last, hpieces, hlast⟩ :=
            ih (offset + part.length + 1) (List.cons_ne_nil _ _) hrest
          refine ⟨_ :: front, last, by rw [piecesFrom, hpieces]; rfl, fun stop => ?_⟩
          rw [hlast, List.intercalate_cons_cons, List.append_assoc, List.singleton_append,
            Text.endsInLine_append_cons, List.length_append, List.length_cons]
          refine and_congr_right fun _ => ?_
          omega

/-- The last line of a span has a piece if the span ends there, and then both end together. -/
theorem exists_lastLine {span : Span} (hplaced : span.Placed) :
    ∃ front last, span.lines = front ++ [last] ∧
      ∀ stop, (∃ piece ∈ last.getLast?, piece.stop = stop) ↔
        span.text.EndsInLine ∧ stop = span.stop := by
  obtain ⟨front, last, hlines, hlast⟩ := exists_lastLine_piecesFrom span.category span.start
    (List.splitOn_ne_nil '\n' span.text) fun _ => Text.not_mem_of_mem_splitOn
  refine ⟨front, last, hlines, fun stop => ?_⟩
  have hlength := hplaced.2
  rw [hlast, List.intercalate_splitOn]
  refine and_congr_right fun _ => ?_
  omega

/-- The first line of a span has a piece if the span starts there, and then both start together.  A
span without text has one line and no piece. -/
theorem lines_cases (span : Span) :
    (span.text = [] ∧ span.lines = [[]]) ∨
    (span.text ≠ [] ∧ ¬ span.text.StartsInLine ∧
      ∃ second rest, span.lines = [] :: second :: rest) ∨
    (span.text ≠ [] ∧ span.text.StartsInLine ∧
      ∃ piece rest, span.lines = [piece] :: rest ∧ piece.start = span.start) := by
  unfold lines
  cases htext : span.text with
  | nil => exact .inl ⟨rfl, rfl⟩
  | cons c t =>
      rw [List.splitOn_cons_eq_if_modifyHead]
      cases hparts : t.splitOn '\n' with
      | nil => exact absurd hparts (List.splitOn_ne_nil _ _)
      | cons first rest =>
          by_cases hfeed : c = '\n'
          · rw [if_pos (beq_iff_eq.2 hfeed)]
            refine .inr (.inl ⟨List.cons_ne_nil c t, ?_, _, _, rfl⟩)
            rintro ⟨d, hd, hne⟩
            exact hne ((Option.some.inj hd).symm.trans hfeed)
          · rw [if_neg (by simpa using hfeed)]
            exact .inr (.inr ⟨List.cons_ne_nil c t, ⟨c, rfl, hfeed⟩, _, _, rfl, rfl⟩)

end Span

/-! ## Lines put together -/

/-- No piece starts before the spans do. -/
theorem start_nonneg_of_mem_splitLines {spans : List Span}
    (hstart : ∀ span ∈ spans, 0 ≤ span.start) :
    ∀ line ∈ splitLines spans, ∀ piece ∈ line, 0 ≤ piece.start := by
  refine forall_mem_splitLines fun span hspan line hline piece hpiece => ?_
  have hle := Span.le_start_of_mem_piecesFrom span.category _ line hline piece hpiece
  have hnonneg := hstart span hspan
  omega

theorem leadsTo_cons_iff {span next : Span} {rest : List Span} :
    LeadsTo (span :: rest) next ↔
      (span.text.StartsInLine ∧ span = next) ∨ (span.text = [] ∧ LeadsTo rest next) := by
  constructor
  · intro h
    cases h with
    | here _ _ hstarts => exact .inl ⟨hstarts, rfl⟩
    | skip _ _ _ hempty hrest => exact .inr ⟨hempty, hrest⟩
  · rintro (⟨hstarts, rfl⟩ | ⟨hempty, hrest⟩)
    · exact .here span rest hstarts
    · exact .skip span next rest hempty hrest

/-- The first line has a first piece exactly if the spans lead to a span there. -/
theorem exists_head_splitLines_iff (spans : List Span) {first : List Span}
    {later : List (List Span)} (hlines : splitLines spans = first :: later) (start : Int) :
    (∃ piece ∈ first.head?, piece.start = start) ↔
      ∃ next, LeadsTo spans next ∧ next.start = start := by
  induction spans generalizing first later with
  | nil =>
      obtain ⟨rfl, -⟩ := List.cons.inj hlines
      constructor
      · rintro ⟨piece, ⟨⟩, -⟩
      · rintro ⟨next, ⟨⟩, -⟩
  | cons span rest ih =>
      obtain ⟨line, more, hrest⟩ := exists_splitLines_eq_cons rest
      have hleads := @leadsTo_cons_iff span
      rw [splitLines, hrest] at hlines
      rcases span.lines_cases with ⟨hempty, hspan⟩ | ⟨hempty, hstarts, second, others, hspan⟩ |
        ⟨hempty, hstarts, piece, others, hspan, hstart⟩
      · -- Without text of its own the span leaves the first line as it is.
        simp only [hempty, Text.not_startsInLine_nil, false_and, false_or, true_and] at hleads
        simp only [hleads]
        rw [hspan] at hlines
        obtain ⟨rfl, -⟩ := List.cons.inj hlines
        exact ih hrest
      · simp only [hstarts, hempty, false_and, false_or] at hleads
        simp only [hleads]
        rw [hspan, joinLines_cons_cons] at hlines
        obtain ⟨rfl, -⟩ := List.cons.inj hlines
        constructor
        · rintro ⟨piece, ⟨⟩, -⟩
        · rintro ⟨next, ⟨⟩, -⟩
      · simp only [hstarts, hempty, false_and, or_false, true_and] at hleads
        simp only [hleads]
        have hhead : first.head? = some piece := by
          rw [hspan] at hlines
          cases others with
          | nil =>
              obtain ⟨rfl, -⟩ := List.cons.inj hlines
              rfl
          | cons second others =>
              rw [joinLines_cons_cons] at hlines
              obtain ⟨rfl, -⟩ := List.cons.inj hlines
              rfl
        rw [hhead]
        constructor
        · rintro ⟨other, hother, rfl⟩
          obtain rfl := Option.some.inj hother
          exact ⟨span, rfl, hstart.symm⟩
        · rintro ⟨next, rfl, rfl⟩
          exact ⟨piece, rfl, hstart⟩

/-! ## Spans that meet on a line -/

theorem meetInLine_cons_iff {span first second : Span} {rest : List Span} :
    MeetInLine (span :: rest) first second ↔
      (span = first ∧ span.text.EndsInLine ∧ LeadsTo rest second) ∨
        MeetInLine rest first second := by
  constructor
  · intro h
    cases h with
    | here _ _ _ hends hnext => exact .inl ⟨rfl, hends, hnext⟩
    | later _ _ _ _ hrest => exact .inr hrest
  · rintro (⟨rfl, hends, hnext⟩ | hrest)
    · exact .here span second rest hends hnext
    · exact .later span first second rest hrest

/-- The pieces on every line are in order exactly if the spans that meet on a line are. -/
theorem isChain_splitLines_iff {spans : List Span} (hplaced : ∀ span ∈ spans, span.Placed) :
    (∀ line ∈ splitLines spans, line.IsChain Span.Precedes) ↔
      ∀ first second, MeetInLine spans first second → first.Precedes second := by
  induction spans with
  | nil =>
      refine ⟨fun _ => nofun, fun _ line hline => ?_⟩
      obtain rfl := List.mem_singleton.1 hline
      exact .nil
  | cons span rest ih =>
      obtain ⟨front, last, hspan, hlast⟩ := Span.exists_lastLine (hplaced span List.mem_cons_self)
      obtain ⟨line, more, hrest⟩ := exists_splitLines_eq_cons rest
      have hline := exists_head_splitLines_iff rest hrest
      have hpieces := Span.isChain_piecesFrom span.category span.start (span.text.splitOn '\n')
      have hlater := ih fun other hother => hplaced other (List.mem_cons_of_mem span hother)
      change ∀ line ∈ span.lines, _ at hpieces
      rw [hspan] at hpieces
      rw [hrest] at hlater
      -- Only the line that the span shares with the rest has new neighbours.
      have hseam : (last ++ line).IsChain Span.Precedes ↔ line.IsChain Span.Precedes ∧
          ∀ second, span.text.EndsInLine → LeadsTo rest second → span.Precedes second := by
        have hself := hpieces last (List.mem_append_right _ List.mem_cons_self)
        rw [List.isChain_append, and_iff_right hself]
        refine and_congr_right fun _ => ⟨?_, ?_⟩
        · intro hcross second hends hnext
          obtain ⟨piece, hpiece, hstop⟩ := (hlast span.stop).2 ⟨hends, rfl⟩
          obtain ⟨other, hother, hstart⟩ := (hline second.start).2 ⟨second, hnext, rfl⟩
          have hle : piece.stop ≤ other.start := hcross piece hpiece other hother
          show span.stop ≤ second.start
          omega
        · intro hmeet piece hpiece other hother
          obtain ⟨hends, hstop⟩ := (hlast piece.stop).1 ⟨piece, hpiece, rfl⟩
          obtain ⟨second, hnext, hstart⟩ := (hline other.start).1 ⟨other, hother, rfl⟩
          have hle : span.stop ≤ second.start := hmeet second hends hnext
          show piece.stop ≤ other.start
          omega
      rw [splitLines, hspan, hrest, joinLines_append_cons, List.forall_mem_append,
        List.forall_mem_cons, hseam, and_assoc]
      simp only [meetInLine_cons_iff]
      constructor
      · rintro ⟨-, hchain, hmeet, hmore⟩ first second (⟨rfl, hends, hnext⟩ | hmeets)
        · exact hmeet second hends hnext
        · exact hlater.1 (List.forall_mem_cons.2 ⟨hchain, hmore⟩) first second hmeets
      · intro hmeet
        obtain ⟨hchain, hmore⟩ := List.forall_mem_cons.1
          (hlater.2 fun first second hmeets => hmeet first second (.inr hmeets))
        exact ⟨fun other hother => hpieces other (List.mem_append_left _ hother), hchain,
          fun second hends hnext => hmeet span second (.inl ⟨rfl, hends, hnext⟩), hmore⟩

/-- Empty spans cover no offsets, so spans in order stay in order when those are passed over. -/
theorem LeadsTo.precedes {span next : Span} {rest : List Span} (h : LeadsTo rest next)
    (hplaced : ∀ other ∈ rest, other.Placed) (hchain : (span :: rest).IsChain Span.Precedes) :
    span.Precedes next := by
  induction h generalizing span with
  | here next rest _ => exact (List.isChain_cons_cons.1 hchain).1
  | skip empty next rest hempty _ ih =>
      obtain ⟨hfirst, hrest⟩ := List.isChain_cons_cons.1 hchain
      have hlength := (hplaced empty List.mem_cons_self).2
      have hnext : empty.stop ≤ next.start :=
        ih (fun other hother => hplaced other (List.mem_cons_of_mem empty hother)) hrest
      have hle : span.stop ≤ empty.start := hfirst
      rw [hempty, List.length_nil] at hlength
      show span.stop ≤ next.start
      omega

theorem MeetInLine.precedes {spans : List Span} {first second : Span}
    (h : MeetInLine spans first second) (hplaced : ∀ span ∈ spans, span.Placed)
    (hchain : spans.IsChain Span.Precedes) : first.Precedes second := by
  induction h with
  | here first second rest _ hnext =>
      exact hnext.precedes (fun other hother => hplaced other (List.mem_cons_of_mem first hother))
        hchain
  | later span first second rest _ ih =>
      exact ih (fun other hother => hplaced other (List.mem_cons_of_mem span hother)) hchain.tail

/-! ## Fragments and blocks -/

namespace Style

open Html

/-- Of spans that do not end before they start, wherever they lie, a fragment is refused exactly if
one of them starts before the end of any span in front of it, or if the first one starts before -1.
Otherwise it is the markup of the spans, one after the other. -/
theorem fragment_rejects_iff_pair (style : Style) {list : List Span}
    (hforward : ∀ span ∈ list, span.start ≤ span.stop) :
    (Rejects (style.fragment list) ↔
      Overlapping list ∨ ∃ span, list.head? = some span ∧ span.start < -1) ∧
    (¬ Rejects (style.fragment list) → style.fragment list = .ok (list.flatMap style.span)) := by
  constructor
  · rw [fragment_rejects, ne_eq, overlap?, firstOverlap?_eq_none_iff,
      ← pairwise_precedes_iff hforward, not_and_or, ← overlapping_iff, or_comm]
    simp only [not_forall, Int.not_le, exists_prop, Option.mem_def]
  · intro hnot
    rw [fragment_rejects, not_not] at hnot
    rw [fragment, hnot]
    rfl

/-- The last span overlaps the one before the empty span in front of it. -/
theorem fragment_rejects_iff_pair_empty_between :
    let style : Style := ⟨"hl-".toList, true⟩
    let list : List Span := [⟨.plain, ['a'], -1, 0⟩, ⟨.keyword, [], 0, 0⟩, ⟨.string, ['b'], 0, 7⟩,
      ⟨.number, [], 7, 7⟩, ⟨.literal, ['c'], 6, 7⟩]
    (∀ span ∈ list, span.start ≤ span.stop) ∧
      (Rejects (style.fragment list) ↔
        Overlapping list ∨ ∃ span, list.head? = some span ∧ span.start < -1) ∧
      (¬ Rejects (style.fragment list) → style.fragment list = .ok (list.flatMap style.span)) := by
  intro style list
  have hforward : ∀ span ∈ list, span.start ≤ span.stop := by
    simp [list]
  exact ⟨hforward, fragment_rejects_iff_pair style hforward⟩

/-- A single span that starts before -1 is refused, although there is no other that it could
overlap. -/
theorem fragment_rejects_single :
    let style : Style := ⟨[], false⟩
    let list : List Span := [⟨.plain, ['a'], -5, -4⟩]
    (∀ span ∈ list, span.start ≤ span.stop) ∧ ¬ Overlapping list ∧
      style.fragment list = .error (.overlap (-5) (-1)) := by
  intro style list
  refine ⟨by simp [list], ?_, by decide⟩
  rw [overlapping_iff, not_not]
  exact List.pairwise_singleton _ _

/-- A fragment is refused exactly if some span starts before the end of the one in front of it, a
block exactly if two spans overlap that meet on a line, whatever is asked of the lines.  So whatever
a fragment accepts has a block as well. -/
theorem overlap_reported_iff (style : Style) {list : List Span}
    (hplaced : ∀ span ∈ list, span.Placed) (language : Option Text) (options : LineOptions) :
    (Rejects (style.fragment list) ↔ ∃ first second before after,
      list = before ++ first :: second :: after ∧ second.start < first.stop) ∧
    (Rejects (style.block list language options) ↔
      ∃ first second, MeetInLine list first second ∧ second.start < first.stop) ∧
    (Rejects (style.block list language options) → Rejects (style.fragment list)) := by
  have hstart : ∀ span ∈ list, 0 ≤ span.start := fun span hspan => (hplaced span hspan).1
  have hfragment : Rejects (style.fragment list) ↔ ¬ list.IsChain Span.Precedes := by
    rw [fragment_rejects, ne_eq, overlap?_eq_none_iff hstart]
  have hblock : Rejects (style.block list language options) ↔
      ¬ ∀ first second, MeetInLine list first second → first.Precedes second := by
    rw [block_rejects, ← isChain_splitLines_iff hplaced]
    refine not_congr (forall₂_congr fun line hline => ?_)
    exact overlap?_eq_none_iff (start_nonneg_of_mem_splitLines hstart line hline)
  refine ⟨?_, ?_, ?_⟩
  · rw [hfragment, List.isChain_iff_forall_rel_of_append_cons_cons]
    simp only [Span.Precedes, not_forall, Int.not_le, exists_prop]
  · rw [hblock]
    simp only [Span.Precedes, not_forall, Int.not_le, exists_prop]
  · rw [hblock, hfragment]
    exact mt fun hchain first second hmeets => hmeets.precedes hplaced hchain

/-- Overlapping spans with an empty span between them, behind a span that ends with a line feed. -/
theorem overlap_reported_iff_empty_between :
    let style : Style := ⟨"hl-".toList, true⟩
    let options : LineOptions := ⟨[2], true⟩
    let list : List Span := [⟨.plain, ['a', '\n'], 4, 6⟩, ⟨.keyword, ['b', 'c'], 7, 9⟩,
      ⟨.number, [], 8, 8⟩, ⟨.string, ['c', '\n'], 8, 10⟩]
    (∀ span ∈ list, span.Placed) ∧
      (Rejects (style.fragment list) ↔ ∃ first second before after,
        list = before ++ first :: second :: after ∧ second.start < first.stop) ∧
      (Rejects (style.block list none options) ↔
        ∃ first second, MeetInLine list first second ∧ second.start < first.stop) ∧
      (Rejects (style.block list none options) → Rejects (style.fragment list)) := by
  intro style options list
  have hplaced : ∀ span ∈ list, span.Placed := by
    simp [list, Span.Placed]
  exact ⟨hplaced, overlap_reported_iff style hplaced none options⟩

/-- A span that runs backwards behind a line feed is refused in a fragment and written in a
block. -/
theorem block_accepts_backward :
    let style : Style := ⟨[], false⟩
    let list : List Span := [⟨.plain, ['a', '\n'], 1, 3⟩, ⟨.plain, ['b'], 0, 1⟩]
    (∀ span ∈ list, span.Placed) ∧ style.fragment list = .error (.overlap 0 3) ∧
      style.block list none .none = .ok "<pre><code>a\nb</code></pre>".toList := by
  refine ⟨by simp [Span.Placed], by decide, by decide⟩

end Style

end CodeHighlight
