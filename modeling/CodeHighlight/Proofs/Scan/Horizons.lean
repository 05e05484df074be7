import CodeHighlight.Proofs.Scan.Memory

/-!
# No stretch is searched twice

Calls of a quoted string rule that share one memory note their failed searches in it, each with the
stretch from its opening mark to its horizon (`FailedSearch`).  As long as the positions of the calls
do not go back, the memory is a record of these searches (`Horizons.Records`): the stretches for one
mark lie one behind the other, and the rule finds no string from any of the marks in them.  One call
keeps the record (`Horizons.Records.exists_call`), hence a series of calls does
(`quoted_series_records`).
-/

namespace CodeHighlight

/-- A search for a closing mark that failed, from its opening mark to its horizon. -/
structure FailedSearch where
  mark : Char
  opening : Int
  horizon : Int

/-- The search has passed a stretch, and at no mark in that stretch does the rule find a string when
it has no memory. -/
structure FailedSearch.Conclusive (source : Source) (marks : List Char) (stop : Int)
    (search : FailedSearch) : Prop where
  opening_lt_horizon : search.opening < search.horizon
  answer_eq_none : ∀ place, search.opening ≤ place → place < search.horizon →
    source.read place = .ok search.mark →
      (Rule.quoted marks).answer source.reader place stop = .ok none

/-- The horizons are those of the given searches, the latest of which comes first. -/
structure Horizons.Records (source : Source) (marks : List Char) (stop : Int) (horizons : Horizons)
    (searches : List FailedSearch) : Prop where
  /-- Every horizon is that of a search. -/
  exists_search : ∀ mark horizon, horizons.reach mark = some horizon →
    ∃ search ∈ searches, search.mark = mark ∧ search.horizon = horizon
  /-- No search has come beyond the horizon of its mark. -/
  exists_reach : ∀ search ∈ searches,
    ∃ horizon, horizons.reach search.mark = some horizon ∧ search.horizon ≤ horizon
  conclusive : ∀ search ∈ searches, search.Conclusive source marks stop
  /-- A search for a mark begins behind all that the earlier ones have passed. -/
  apart : searches.Pairwise fun later earlier =>
    later.mark = earlier.mark → earlier.horizon ≤ later.opening

/-- What a call at a position does with the horizons and with the searches that they record. -/
inductive QuotedCall (source : Source) (marks : List Char) (searches : List FailedSearch)
    (before : Horizons) (position : Int) :
    Except Error (Option Span) → Horizons → List FailedSearch → Prop
  /-- Nothing is noted.  A mark from which no string is found then lies in a recorded stretch. -/
  | kept (answer : Except Error (Option Span))
      (hpassed : answer = .ok none → ∀ mark ∈ marks, source.read position = .ok mark →
        ∃ search ∈ searches, search.mark = mark ∧ search.opening ≤ position ∧
          position < search.horizon) :
      QuotedCall source marks searches before position answer before searches
  /-- A search from this position has failed.  It begins at the horizon that its mark has had, or
  behind it, and it ends behind that horizon. -/
  | noted (mark : Char) (horizon : Int) (hmark : mark ∈ marks)
      (hread : source.read position = .ok mark)
      (hbehind : ∀ earlier, before.reach mark = some earlier →
        earlier ≤ position ∧ earlier < horizon) :
      QuotedCall source marks searches before position (.ok none) (before.note mark horizon)
        (⟨mark, position, horizon⟩ :: searches)

/-- A call is answered as it would be without a memory, and leaves a record of the searches. -/
structure QuotedStep (source : Source) (marks : List Char) (stop : Int)
    (searches : List FailedSearch) (before : Horizons) (position : Int)
    (answer : Except Error (Option Span)) (after : Horizons) (later : List FailedSearch) :
    Prop where
  answer_eq : answer = (Rule.quoted marks).answer source.reader position stop
  call : QuotedCall source marks searches before position answer after later
  records : after.Records source marks stop later

/-- The answers to calls at some positions, each with the horizons behind it, when some searches have
failed before. -/
inductive QuotedSeries (source : Source) (marks : List Char) (stop : Int) :
    List FailedSearch → Horizons → List Int →
      List (Except Error (Option Span) × Option Horizons) → Prop
  | nil (searches : List FailedSearch) (horizons : Horizons) :
      QuotedSeries source marks stop searches horizons [] []
  | cons (searches later : List FailedSearch) (before after : Horizons) (position : Int)
      (positions : List Int) (answer : Except Error (Option Span))
      (answers : List (Except Error (Option Span) × Option Horizons))
      (hstep : QuotedStep source marks stop searches before position answer after later)
      (hrest : QuotedSeries source marks stop later after positions answers) :
      QuotedSeries source marks stop searches before (position :: positions)
        ((answer, some after) :: answers)

section Calls

variable {source : Source} {marks : List Char} {stop position : Int} {mark : Char}
  {horizons : Horizons} {searches : List FailedSearch}

/-! ## One call -/

/-- A search that fails is conclusive for all the marks that it has passed. -/
theorem FailedSearch.conclusive_of_missing (hposition : -1 ≤ position)
    (hfits : '\\' ∈ marks → stop ≤ source.length) (hmark : mark ∈ marks)
    (hread : source.read position = .ok mark) {horizon : Int}
    (hsearch : QuotedSearch source mark stop (position + 1) (.missing horizon)) :
    Conclusive source marks stop ⟨mark, position, horizon⟩ := by
  have hnone : ∀ {place later : Int}, source.read place = .ok mark →
      QuotedSearch source mark stop (place + 1) (.missing later) →
      (Rule.quoted marks).answer source.reader place stop = .ok none := by
    intro place later hplace hlater
    exact Rule.answer_quoted (Reader.quotedAt_of_search none hplace hmark rfl hlater)
  refine ⟨?_, ?_⟩
  · have hle := hsearch.le_horizon
    show position < horizon
    omega
  · intro place hopening hhorizon hplace
    rcases Int.lt_or_eq_of_le hopening with hlt | rfl
    · obtain ⟨later, hlater⟩ := hsearch.missing_of_passed (by omega) (fun h => hfits (h ▸ hmark))
        (show position + 1 ≤ place from hlt) hhorizon hplace
      exact hnone hplace hlater
    · exact hnone hread hsearch

namespace Horizons.Records

theorem nil : Records source marks stop [] [] :=
  ⟨nofun, nofun, nofun, .nil⟩

/-- A conclusive search that begins behind the horizon of its mark is recorded by noting it. -/
theorem note (h : horizons.Records source marks stop searches) {horizon : Int}
    (hsearch : FailedSearch.Conclusive source marks stop ⟨mark, position, horizon⟩)
    (hbehind : ∀ earlier, horizons.reach mark = some earlier → earlier ≤ position) :
    (horizons.note mark horizon).Records source marks stop
      (⟨mark, position, horizon⟩ :: searches) := by
  have hlt : position < horizon := hsearch.opening_lt_horizon
  have hpassed : ∀ search ∈ searches, mark = search.mark → search.horizon ≤ position := by
    intro search hmem hsame
    obtain ⟨reach, hreach, hle⟩ := h.exists_reach search hmem
    exact Int.le_trans hle (hbehind reach (hsame ▸ hreach))
  refine ⟨?_, ?_, List.forall_mem_cons.2 ⟨hsearch, h.conclusive⟩,
    List.pairwise_cons.2 ⟨hpassed, h.apart⟩⟩
  · intro other reach hreach
    rw [reach_note] at hreach
    split at hreach
    · next hsame => exact ⟨_, List.mem_cons_self, hsame, Option.some.inj hreach⟩
    · obtain ⟨search, hmem, hother⟩ := h.exists_search other reach hreach
      exact ⟨search, List.mem_cons_of_mem _ hmem, hother⟩
  · refine List.forall_mem_cons.2 ⟨⟨horizon, ?_, Int.le_refl _⟩, ?_⟩
    · rw [reach_note, if_pos rfl]
    · intro search hmem
      rw [reach_note]
      split
      · next hsame =>
          have hle := hpassed search hmem hsame
          exact ⟨horizon, rfl, by omega⟩
      · exact h.exists_reach search hmem

/-- What a call at a position comes to under a record: a step that leaves the searches at the
position or before it.  A failure leaves the horizons as they were. -/
def Keeps (source : Source) (marks : List Char) (stop position : Int) (horizons : Horizons)
    (searches : List FailedSearch) : Prop :=
  ∃ answer after later,
    (Rule.quoted marks).attempt source.reader (some horizons) position stop =
      answer.map (Attempt.mk · (some after)) ∧
    (∀ e, answer = .error e → after = horizons) ∧
    QuotedStep source marks stop searches horizons position answer after later ∧
    ∀ search ∈ later, search.opening ≤ position

section Step

variable (h : horizons.Records source marks stop searches)
  (hopened : ∀ search ∈ searches, search.opening ≤ position)

include h hopened

private theorem keeps_of_kept (answer : Except Error (Option Span))
    (hattempt : source.reader.quotedAt marks (some horizons) position stop =
      answer.map (Attempt.mk · (some horizons)))
    (hanswer : (Rule.quoted marks).answer source.reader position stop = answer)
    (hpassed : answer = .ok none → ∀ mark ∈ marks, source.read position = .ok mark →
      ∃ search ∈ searches, search.mark = mark ∧ search.opening ≤ position ∧
        position < search.horizon) :
    Keeps source marks stop position horizons searches :=
  ⟨answer, horizons, searches, hattempt, fun _ _ => rfl, ⟨hanswer.symm, .kept answer hpassed, h⟩,
    hopened⟩

private theorem keeps_of_error {e : Error}
    (hattempt : source.reader.quotedAt marks (some horizons) position stop = .error e)
    (hplain : source.reader.quotedAt marks none position stop = .error e) :
    Keeps source marks stop position horizons searches :=
  keeps_of_kept h hopened (.error e) hattempt (congrArg (Except.map Attempt.claim) hplain) nofun

/-- A blocked position lies in the stretch of the search that the horizon comes from. -/
private theorem keeps_of_blocks (hposition : -1 ≤ position) (hmark : mark ∈ marks)
    (hread : source.read position = .ok mark) (hblocks : horizons.blocks mark position = true) :
    Keeps source marks stop position horizons searches := by
  obtain ⟨horizon, hreach, hbefore⟩ := exists_reach_of_blocks hposition hblocks
  obtain ⟨search, hmem, rfl, rfl⟩ := h.exists_search mark horizon hreach
  have hnone := (h.conclusive search hmem).answer_eq_none position (hopened search hmem)
    hbefore hread
  have hblocked : ((some horizons).map (·.blocks search.mark position)).getD false = true :=
    hblocks
  refine keeps_of_kept h hopened (.ok none) (Reader.quotedAt_of_blocked hread hmark hblocked)
    hnone ?_
  intro _ other _ hother
  have hsame : search.mark = other := Except.ok.inj (hread.symm.trans hother)
  exact ⟨search, hmem, hsame, hopened search hmem, hbefore⟩

/-- From any other position of a mark there is a search, which is noted if it fails. -/
private theorem keeps_of_free (hposition : -1 ≤ position)
    (hfits : '\\' ∈ marks → stop ≤ source.length) (hmark : mark ∈ marks)
    (hread : source.read position = .ok mark) (hfree : horizons.blocks mark position = false) :
    Keeps source marks stop position horizons searches := by
  cases hclosing : source.reader.closing mark (position + 1) stop with
  | error e =>
      exact keeps_of_error h hopened
        (Reader.quotedAt_of_unreadable (some horizons) hread hmark hfree hclosing)
        (Reader.quotedAt_of_unreadable none hread hmark rfl hclosing)
  | ok closing =>
      have hsearch := QuotedSearch.closing_eq_ok_iff.1 hclosing
      have hanswer := Rule.answer_quoted (Reader.quotedAt_of_search none hread hmark rfl hsearch)
      have hattempt := Reader.quotedAt_of_search (some horizons) hread hmark hfree hsearch
      cases closing with
      | found last =>
          let span : Span := ⟨.string, source.slice position last, position, last⟩
          exact keeps_of_kept h hopened (.ok (some span)) hattempt hanswer nofun
      | missing horizon =>
          have hconclusive :=
            FailedSearch.conclusive_of_missing hposition hfits hmark hread hsearch
          have hlt : position < horizon := hconclusive.opening_lt_horizon
          have hbehind : ∀ earlier, horizons.reach mark = some earlier → earlier ≤ position := by
            intro earlier hreach
            have hnot := of_decide_eq_false hfree
            rw [hreach, Option.getD_some] at hnot
            omega
          have hfarther : ∀ earlier, horizons.reach mark = some earlier →
              earlier ≤ position ∧ earlier < horizon := by
            intro earlier hreach
            have hle := hbehind earlier hreach
            exact ⟨hle, by omega⟩
          exact ⟨.ok none, _, _, hattempt, nofun,
            ⟨hanswer.symm, .noted mark horizon hmark hread hfarther, h.note hconclusive hbehind⟩,
            List.forall_mem_cons.2 ⟨Int.le_refl _, hopened⟩⟩

/-- Every call keeps a record of the searches that have failed. -/
theorem keeps (hposition : -1 ≤ position) (hfits : '\\' ∈ marks → stop ≤ source.length) :
    Keeps source marks stop position horizons searches := by
  cases hread : source.read position with
  | error e =>
      exact keeps_of_error h hopened (Reader.quotedAt_of_unread hread)
        (Reader.quotedAt_of_unread hread)
  | ok mark =>
      by_cases hmark : mark ∈ marks
      · cases hblocks : horizons.blocks mark position with
        | true => exact keeps_of_blocks h hopened hposition hmark hread hblocks
        | false => exact keeps_of_free h hopened hposition hfits hmark hread hblocks
      · refine keeps_of_kept h hopened (.ok none) (Reader.quotedAt_of_not_mem hread hmark)
          (Rule.answer_quoted (Reader.quotedAt_of_not_mem hread hmark)) ?_
        intro _ other hother hsame
        obtain rfl := Except.ok.inj (hread.symm.trans hsame)
        exact absurd hother hmark

end Step

end Horizons.Records

/-! ## A series of calls -/

/-- A series of calls goes on with the horizons that its first call leaves behind. -/
theorem Rule.series_cons {rule : Rule} {reader : Reader} {before after : Horizons}
    {position stop : Int} {answer : Except Error (Option Span)}
    (hattempt : rule.attempt reader (some before) position stop =
      answer.map (Attempt.mk · (some after)))
    (herror : ∀ e, answer = .error e → after = before) (rest : List (Int × Int)) :
    rule.series reader (some before) ((position, stop) :: rest) =
      (answer, some after) :: rule.series reader (some after) rest := by
  rw [Rule.series, hattempt]
  cases answer with
  | error e =>
      obtain rfl := herror e rfl
      rfl
  | ok claim => rfl

theorem Horizons.Records.series (h : horizons.Records source marks stop searches)
    {positions : List Int} (hsorted : positions.Pairwise (· ≤ ·))
    (hopened : ∀ search ∈ searches, ∀ position ∈ positions, search.opening ≤ position)
    (hpositions : ∀ position ∈ positions, -1 ≤ position)
    (hfits : '\\' ∈ marks → stop ≤ source.length) :
    QuotedSeries source marks stop searches horizons positions
      ((Rule.quoted marks).series source.reader (some horizons) (positions.map (·, stop))) := by
  induction positions generalizing horizons searches with
  | nil => exact .nil searches horizons
  | cons position positions ih =>
      obtain ⟨hfirst, hrest⟩ := List.pairwise_cons.1 hsorted
      obtain ⟨hposition, hlater⟩ := List.forall_mem_cons.1 hpositions
      obtain ⟨answer, after, later, hattempt, herror, hstep, hbounds⟩ :=
        h.keeps (fun search hmem => hopened search hmem position List.mem_cons_self) hposition hfits
      rw [List.map_cons, Rule.series_cons hattempt herror]
      refine .cons searches later horizons after position positions answer _ hstep ?_
      refine ih hstep.records hrest ?_ hlater
      intro search hmem other hother
      exact Int.le_trans (hbounds search hmem) (hfirst other hother)

end Calls

/-- Calls at positions that do not go back, with one memory that is empty at first: every answer is
the one that is given without a memory, and no stretch of a mark is searched twice.  Positions below
-1 are left out, as even an empty memory turns them down, and where the backslash is a mark the
source must reach to the bound. -/
theorem quoted_series_records (source : Source) (marks : List Char) (stop : Int)
    (positions : List Int) (hsorted : positions.Pairwise (· ≤ ·))
    (hpositions : ∀ position ∈ positions, -1 ≤ position)
    (hfits : '\\' ∈ marks → stop ≤ source.length) :
    QuotedSeries source marks stop [] [] positions
      ((Rule.quoted marks).series source.reader (some []) (positions.map (·, stop))) :=
  Horizons.Records.nil.series hsorted nofun hpositions hfits

/-- The mark that a backslash hides is turned down, also when it is asked for twice, and the horizon
moves on only with the last mark, behind which nothing is left. -/
theorem quoted_series_records_hidden :
    let source : Source := .ofText "\"\\\"x\n\"y\"".toList
    let answers := (Rule.quoted ['"']).series source.reader (some [])
      ([0, 2, 2, 5, 7].map (·, 8))
    answers = [(.ok none, some [('"', 4)]), (.ok none, some [('"', 4)]),
        (.ok none, some [('"', 4)]),
        (.ok (some ⟨.string, "\"y\"".toList, 5, 8⟩), some [('"', 4)]),
        (.ok none, some [('"', 8)])] ∧
      QuotedSeries source ['"'] 8 [] [] [0, 2, 2, 5, 7] answers :=
  ⟨rfl, quoted_series_records _ ['"'] 8 [0, 2, 2, 5, 7] (by decide) (by decide) (by decide)⟩

/-- Where the backslash is a mark, a search may run out of a source that does not reach to the bound,
although the memory turns its mark down.  A position below -1 is turned down by an empty memory. -/
theorem quoted_series_outside :
    let short : Source := .ofText ['\\', '\\', '\\', '\n']
    let pair : Source := .ofText ['"', '"']
    (([0, 1] : List Int).Pairwise (· ≤ ·) ∧ (∀ position ∈ [0, 1], position < (10 : Int)) ∧
      ¬ QuotedSeries short ['\\'] 10 [] [] [0, 1]
        ((Rule.quoted ['\\']).series short.reader (some []) ([0, 1].map (·, 10)))) ∧
    (∀ position ∈ [-2], position < (2 : Int)) ∧
      ¬ QuotedSeries pair ['"'] 2 [] [] [-2]
        ((Rule.quoted ['"']).series pair.reader (some []) ([-2].map (·, 2))) := by
  intro short pair
  refine ⟨⟨by decide, by decide, ?_⟩, by decide, ?_⟩
  · have hanswers : (Rule.quoted ['\\']).series short.reader (some []) ([0, 1].map (·, 10)) =
        [(.ok none, some [('\\', 3)]), (.ok none, some [('\\', 3)])] := rfl
    have hplain : (Rule.quoted ['\\']).answer short.reader 1 10 = .error .outOfRange := rfl
    rw [hanswers]
    rintro (_ | ⟨_, _, _, _, _, _, _, _, _, _ | ⟨_, _, _, _, _, _, _, _, hstep, _⟩⟩)
    exact absurd (hstep.answer_eq.trans hplain) nofun
  · have hanswers : (Rule.quoted ['"']).series pair.reader (some []) ([-2].map (·, 2)) =
        [(.ok none, some [])] := rfl
    have hplain : (Rule.quoted ['"']).answer pair.reader (-2) 2 =
        .ok (some ⟨.string, [], -2, 0⟩) := rfl
    rw [hanswers]
    rintro (_ | ⟨_, _, _, _, _, _, _, _, hstep, _⟩)
    exact absurd (Except.ok.inj (hstep.answer_eq.trans hplain)) nofun

end CodeHighlight
