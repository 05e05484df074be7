import CodeHighlight.Proofs.Source
import CodeHighlight.Rule.Quoted

/-!
# What the quoted string rule finds

`IsQuoted` says which texts are quoted strings, without any reference to a search.  `QuotedSearch`
follows the search for the closing mark place by place; it is the reader's search
(`closing_eq_ok_iff`), it finds exactly the quoted strings (`quotedAt_forgetful`), and a search from
a mark that an earlier search has passed fails where the earlier one fails
(`QuotedSearch.missing_of_passed`).
-/

namespace CodeHighlight

/-- What stands between the marks of a quoted string.  A backslash hides the character behind it,
whatever it is; otherwise neither the mark nor a line feed may appear. -/
inductive QuotedBody (mark : Char) : Text → Prop
  | nil : QuotedBody mark []
  | hidden (c : Char) (rest : Text) (hrest : QuotedBody mark rest) :
      QuotedBody mark ('\\' :: c :: rest)
  | shown (c : Char) (rest : Text) (hbackslash : c ≠ '\\') (hmark : c ≠ mark) (hline : c ≠ '\n')
      (hrest : QuotedBody mark rest) : QuotedBody mark (c :: rest)

/-- A quoted string between two of the same of the given marks.  A backslash only ever hides what is
behind it, so it is not the mark of any quoted string. -/
def IsQuoted (marks : List Char) (lexeme : Text) : Prop :=
  ∃ mark ∈ marks, mark ≠ '\\' ∧ ∃ body, QuotedBody mark body ∧ lexeme = mark :: (body ++ [mark])

/-- The search for the closing mark from a position up to `stop`, one case for each thing that can
stand there. -/
inductive QuotedSearch (source : Source) (mark : Char) (stop : Int) : Int → Closing → Prop
  | ended (position : Int) (hstop : stop ≤ position) :
      QuotedSearch source mark stop position (.missing position)
  | hidden (position : Int) (closing : Closing) (hlt : position < stop)
      (hread : source.read position = .ok '\\')
      (hrest : QuotedSearch source mark stop (position + 2) closing) :
      QuotedSearch source mark stop position closing
  | closed (position : Int) (hlt : position < stop) (hread : source.read position = .ok mark)
      (hbackslash : mark ≠ '\\') :
      QuotedSearch source mark stop position (.found (position + 1))
  | broken (position : Int) (hlt : position < stop) (hread : source.read position = .ok '\n')
      (hmark : mark ≠ '\n') :
      QuotedSearch source mark stop position (.missing position)
  | shown (position : Int) (c : Char) (closing : Closing) (hlt : position < stop)
      (hread : source.read position = .ok c) (hbackslash : c ≠ '\\') (hmark : c ≠ mark)
      (hline : c ≠ '\n') (hrest : QuotedSearch source mark stop (position + 1) closing) :
      QuotedSearch source mark stop position closing

/-- A place behind which no string closes before `stop`, if the place itself is not hidden. -/
inductive DeadEnd (source : Source) (mark : Char) (stop : Int) : Int → Prop
  /-- The stretch ends here, so a closing mark would stand at its end or beyond. -/
  | ended : DeadEnd source mark stop stop
  /-- A line feed that is not the mark stands here. -/
  | broken (place : Int) (hlt : place < stop) (hread : source.read place = .ok '\n')
      (hmark : mark ≠ '\n') : DeadEnd source mark stop place
  /-- A backslash that hides what stands beyond the stretch is its last character. -/
  | cut (place : Int) (hlast : place + 1 = stop) (hread : source.read place = .ok '\\') :
      DeadEnd source mark stop place

/-- What stands from the position on is the body of a string that comes to a dead end. -/
def Unclosed (source : Source) (mark : Char) (position stop : Int) : Prop :=
  ∃ place, position ≤ place ∧ QuotedBody mark (source.slice position place) ∧
    DeadEnd source mark stop place

theorem DeadEnd.le {source : Source} {mark : Char} {stop place : Int}
    (h : DeadEnd source mark stop place) : place ≤ stop := by
  cases h with
  | ended => exact Int.le_refl _
  | broken _ hlt => exact Int.le_of_lt hlt
  | cut _ hlast => omega

/-! ## The search of the reader -/

section Closing

variable (reader : Reader) {mark : Char} {position stop : Int}

theorem Reader.closing_of_le (hle : stop ≤ position) :
    reader.closing mark position stop = .ok (.missing position) := by
  unfold Reader.closing
  rw [Int.toNat_eq_zero.2 (by omega)]
  rfl

/-- One step of the search.  The step behind a backslash leads two places on, also where that is
beyond the bound. -/
theorem Reader.closing_of_lt (hlt : position < stop) :
    reader.closing mark position stop = (reader.read position).bind fun c =>
      if c = '\\' then reader.closing mark (position + 2) stop
      else if c = mark then .ok (.found (position + 1))
      else if c = '\n' then .ok (.missing position)
      else reader.closing mark (position + 1) stop := by
  -- Before the bound the search has at least one position left to look at.
  obtain ⟨count, hcount⟩ : ∃ count, (stop - position).toNat = count + 1 :=
    ⟨(stop - position).toNat - 1, by omega⟩
  unfold Reader.closing
  rw [hcount, Reader.closingWithin.eq_def]
  show (reader.read position).bind _ = _
  congr 1
  funext c
  by_cases hbackslash : c = '\\'
  · rw [if_pos hbackslash, if_pos hbackslash]
    cases count with
    | zero =>
        rw [Int.toNat_eq_zero.2 (by omega)]
        rfl
    | succ count =>
        rw [show (stop - (position + 2)).toNat = count by omega]
  · rw [if_neg hbackslash, if_neg hbackslash]
    rw [show (stop - (position + 1)).toNat = count by omega]
    rfl

end Closing

namespace QuotedSearch

variable {source : Source} {mark : Char} {position stop : Int}

private theorem closing_of_read (hlt : position < stop) {c : Char}
    (hread : source.read position = .ok c) :
    source.reader.closing mark position stop =
      if c = '\\' then source.reader.closing mark (position + 2) stop
      else if c = mark then .ok (.found (position + 1))
      else if c = '\n' then .ok (.missing position)
      else source.reader.closing mark (position + 1) stop := by
  rw [Reader.closing_of_lt _ hlt]
  show (source.read position).bind _ = _
  rw [hread]
  rfl

theorem closing_eq {closing : Closing} (h : QuotedSearch source mark stop position closing) :
    source.reader.closing mark position stop = .ok closing := by
  induction h with
  | ended position hstop => exact Reader.closing_of_le _ hstop
  | hidden position closing hlt hread _ ih => rw [closing_of_read hlt hread, if_pos rfl, ih]
  | closed position hlt hread hbackslash =>
      rw [closing_of_read hlt hread, if_neg hbackslash, if_pos rfl]
  | broken position hlt hread hmark =>
      rw [closing_of_read hlt hread, if_neg (by decide), if_neg hmark.symm, if_pos rfl]
  | shown position c closing hlt hread hbackslash hmark hline _ ih =>
      rw [closing_of_read hlt hread, if_neg hbackslash, if_neg hmark, if_neg hline, ih]

theorem unique {closing other : Closing} (h : QuotedSearch source mark stop position closing)
    (hother : QuotedSearch source mark stop position other) : closing = other :=
  Except.ok.inj (h.closing_eq.symm.trans hother.closing_eq)

/-- Inside a source every search comes to an end. -/
theorem exists_search (source : Source) (mark : Char) {stop : Int} (position : Int)
    (hposition : 0 ≤ position) (hstop : stop ≤ source.length) :
    ∃ closing, QuotedSearch source mark stop position closing := by
  by_cases hlt : position < stop
  · obtain ⟨c, hread, -⟩ := source.exists_read_slice hposition hlt hstop
    by_cases hbackslash : c = '\\'
    · subst hbackslash
      obtain ⟨closing, hrest⟩ :=
        exists_search source mark (position + 2) (by omega) hstop
      exact ⟨closing, hidden position closing hlt hread hrest⟩
    · by_cases hmark : c = mark
      · subst hmark
        exact ⟨_, closed position hlt hread hbackslash⟩
      · by_cases hline : c = '\n'
        · subst hline
          exact ⟨_, broken position hlt hread (Ne.symm hmark)⟩
        · obtain ⟨closing, hrest⟩ :=
            exists_search source mark (position + 1) (by omega) hstop
          exact ⟨closing, shown position c closing hlt hread hbackslash hmark hline hrest⟩
  · exact ⟨_, ended position (by omega)⟩
termination_by (stop - position).toNat

/-- A search that reads whatever it looks at meets one of the cases at every place. -/
private theorem of_closing_eq_ok (position : Int) {closing : Closing}
    (h : source.reader.closing mark position stop = .ok closing) :
    QuotedSearch source mark stop position closing := by
  by_cases hlt : position < stop
  · cases hread : source.read position with
    | error e =>
        rw [Reader.closing_of_lt _ hlt] at h
        change (source.read position).bind _ = _ at h
        rw [hread] at h
        contradiction
    | ok c =>
        rw [closing_of_read hlt hread] at h
        by_cases hbackslash : c = '\\'
        · rw [if_pos hbackslash] at h
          subst hbackslash
          exact hidden position closing hlt hread (of_closing_eq_ok (position + 2) h)
        · rw [if_neg hbackslash] at h
          by_cases hmark : c = mark
          · rw [if_pos hmark] at h
            obtain rfl := Except.ok.inj h
            exact closed position hlt (hmark ▸ hread) (hmark ▸ hbackslash)
          · rw [if_neg hmark] at h
            by_cases hline : c = '\n'
            · rw [if_pos hline] at h
              obtain rfl := Except.ok.inj h
              subst hline
              exact broken position hlt hread (Ne.symm hmark)
            · rw [if_neg hline] at h
              exact shown position c closing hlt hread hbackslash hmark hline
                (of_closing_eq_ok (position + 1) h)
  · rw [Reader.closing_of_le _ (by omega)] at h
    obtain rfl := Except.ok.inj h
    exact ended position (by omega)
termination_by (stop - position).toNat

theorem closing_eq_ok_iff {closing : Closing} :
    source.reader.closing mark position stop = .ok closing ↔
      QuotedSearch source mark stop position closing :=
  ⟨of_closing_eq_ok position, closing_eq⟩

/-! ## Searches that succeed -/

/-- A search passes the body of a quoted string and goes on behind it. -/
theorem through_body {body rest : Text} (hbody : QuotedBody mark body) {closing : Closing}
    (hposition : 0 ≤ position) (hnonneg : 0 ≤ stop) (hstop : stop ≤ source.length)
    (hslice : source.slice position stop = body ++ rest)
    (hbehind : QuotedSearch source mark stop (position + body.length) closing) :
    QuotedSearch source mark stop position closing := by
  induction hbody generalizing position with
  | nil => simpa using hbehind
  | hidden c body _ ih =>
      obtain ⟨hlt, hread, hnext⟩ := source.of_slice_eq_cons hposition hnonneg hstop hslice
      obtain ⟨-, -, hlater⟩ := source.of_slice_eq_cons (by omega) hnonneg hstop hnext
      rw [show position + 1 + 1 = position + 2 by omega] at hlater
      have hend : position + (('\\' :: c :: body).length : Int) = position + 2 + body.length := by
        simp only [List.length_cons]
        omega
      rw [hend] at hbehind
      exact hidden position closing hlt hread (ih (by omega) hlater hbehind)
  | shown c body hc hmark hline _ ih =>
      obtain ⟨hlt, hread, hnext⟩ := source.of_slice_eq_cons hposition hnonneg hstop hslice
      have hend : position + ((c :: body).length : Int) = position + 1 + body.length := by
        simp only [List.length_cons]
        omega
      rw [hend] at hbehind
      exact shown position c closing hlt hread hc hmark hline (ih (by omega) hnext hbehind)

/-- A search through the body of a quoted string ends behind its closing mark. -/
theorem found_of_body {body : Text} (hbody : QuotedBody mark body) (hbackslash : mark ≠ '\\')
    {rest : Text} (hposition : 0 ≤ position) (hnonneg : 0 ≤ stop) (hstop : stop ≤ source.length)
    (hslice : source.slice position stop = body ++ mark :: rest) :
    QuotedSearch source mark stop position (.found (position + body.length + 1)) := by
  have hrest := (source.slice_split hposition hnonneg hslice).2
  obtain ⟨hlt, hread, -⟩ := source.of_slice_eq_cons (by omega) hnonneg hstop hrest
  exact through_body hbody hposition hnonneg hstop hslice (closed _ hlt hread hbackslash)

/-- What a search has passed before it finds the closing mark is the body of a quoted string. -/
theorem body_of_found {last : Int} (h : QuotedSearch source mark stop position (.found last))
    (hposition : 0 ≤ position) (hstop : stop ≤ source.length) :
    mark ≠ '\\' ∧ ∃ body rest, QuotedBody mark body ∧
      source.slice position stop = body ++ mark :: rest ∧ last = position + body.length + 1 := by
  generalize hfound : Closing.found last = closing at h
  induction h with
  | ended => contradiction
  | broken => contradiction
  | closed position hlt hread hbackslash =>
      have hslice := source.slice_eq_cons_of_read hposition hlt hstop hread
      obtain rfl := Closing.found.inj hfound
      exact ⟨hbackslash, [], _, .nil, hslice, by simp⟩
  | hidden position closing hlt hread _ ih =>
      obtain ⟨hbackslash, body, rest, hbody, hslice, hlast⟩ := ih (by omega) hfound
      have hfront := source.slice_eq_cons_of_read hposition hlt hstop hread
      -- The hidden character lies before the bound, since the closing mark stands behind it.
      have hbefore : position + 1 < stop := by
        apply Int.lt_of_not_ge
        intro hle
        rw [source.slice_eq_nil (by omega) (by omega)] at hslice
        exact List.append_ne_nil_of_right_ne_nil _ (List.cons_ne_nil _ _) hslice.symm
      obtain ⟨d, -, hnext⟩ := source.exists_read_slice (by omega) hbefore hstop
      refine ⟨hbackslash, '\\' :: d :: body, rest, .hidden d body hbody, ?_, ?_⟩
      · rw [hfront, hnext, show position + 1 + 1 = position + 2 by omega, hslice]
        rfl
      · simp only [List.length_cons]
        omega
  | shown position c closing hlt hread hc hmark hline _ ih =>
      obtain ⟨hbackslash, body, rest, hbody, hslice, hlast⟩ := ih (by omega) hfound
      have hfront := source.slice_eq_cons_of_read hposition hlt hstop hread
      refine ⟨hbackslash, c :: body, rest, .shown c body hc hmark hline hbody, ?_, ?_⟩
      · rw [hfront, hslice]
        rfl
      · simp only [List.length_cons]
        omega

/-! ## Searches that fail -/

/-- A search does not fail before the place where it begins. -/
theorem le_horizon {horizon : Int} (h : QuotedSearch source mark stop position (.missing horizon)) :
    position ≤ horizon := by
  generalize hmissing : Closing.missing horizon = closing at h
  induction h with
  | ended position => exact Int.le_of_eq (Closing.missing.inj hmissing).symm
  | broken position => exact Int.le_of_eq (Closing.missing.inj hmissing).symm
  | closed => contradiction
  | hidden position closing hlt hread _ ih =>
      have hle := ih hmissing
      omega
  | shown position c closing hlt hread hc hmark hline _ ih =>
      have hle := ih hmissing
      omega

/-- A search that fails has passed every mark before its horizon behind a backslash, or the mark is
the backslash.  Either way a search from behind that mark fails as well, if it does not run out of
the source. -/
theorem missing_of_passed {horizon : Int}
    (h : QuotedSearch source mark stop position (.missing horizon)) (hposition : 0 ≤ position)
    (hfits : mark = '\\' → stop ≤ source.length) {place : Int} (hpassed : position ≤ place)
    (hhorizon : place < horizon) (hmark : source.read place = .ok mark) :
    ∃ later, QuotedSearch source mark stop (place + 1) (.missing later) := by
  generalize hmissing : Closing.missing horizon = closing at h
  -- By induction on the search: a place that it has passed is either looked at, and then no mark
  -- unless the mark is the backslash, or hidden, and then the search goes on directly behind it.
  induction h with
  | ended position hend =>
      obtain rfl := Closing.missing.inj hmissing
      omega
  | closed => contradiction
  | broken position =>
      obtain rfl := Closing.missing.inj hmissing
      omega
  | hidden position closing hlt hread hrest ih =>
      subst hmissing
      by_cases hfirst : place = position
      · -- The mark is the backslash itself, for which no search ever succeeds.
        subst hfirst
        obtain rfl := Except.ok.inj (hread.symm.trans hmark)
        have hstop := hfits rfl
        obtain ⟨closing, hsearch⟩ := exists_search source '\\' (place + 1) (by omega) hstop
        cases closing with
        | found last => exact absurd rfl (body_of_found hsearch (by omega) hstop).1
        | missing later => exact ⟨later, hsearch⟩
      · by_cases hsecond : place = position + 1
        · -- The mark is the hidden character, and the search goes on directly behind it.
          refine ⟨horizon, ?_⟩
          rw [hsecond, show position + 1 + 1 = position + 2 by omega]
          exact hrest
        · exact ih (by omega) (by omega) rfl
  | shown position c closing hlt hread hc hother hline _ ih =>
      by_cases hfirst : place = position
      · subst hfirst
        exact absurd (Except.ok.inj (hread.symm.trans hmark)) hother
      · exact ih (by omega) (by omega) hmissing

/-- A search that fails has passed the body of a string that stays open. -/
theorem unclosed_of_missing {horizon : Int}
    (h : QuotedSearch source mark stop position (.missing horizon)) (hposition : 0 ≤ position)
    (hle : position ≤ stop) (hstop : stop ≤ source.length) :
    Unclosed source mark position stop := by
  have hempty : ∀ {place}, 0 ≤ place → QuotedBody mark (source.slice place place) := by
    intro place hplace
    rw [source.slice_eq_nil hplace (Int.le_refl place)]
    exact .nil
  generalize hmissing : Closing.missing horizon = closing at h
  induction h with
  | ended position hend =>
      obtain rfl : position = stop := by omega
      exact ⟨position, Int.le_refl _, hempty hposition, .ended⟩
  | closed => contradiction
  | broken position hlt hread hmark =>
      exact ⟨position, Int.le_refl _, hempty hposition, .broken position hlt hread hmark⟩
  | hidden position closing hlt hread _ ih =>
      by_cases hlast : position + 1 = stop
      · exact ⟨position, Int.le_refl _, hempty hposition, .cut position hlast hread⟩
      · obtain ⟨place, hplace, hbody, hdead⟩ := ih (by omega) (by omega) hmissing
        have hbound := hdead.le
        have hfront := source.slice_eq_cons_of_read hposition (by omega : position < place)
          (by omega) hread
        obtain ⟨d, -, hnext⟩ := source.exists_read_slice (by omega)
          (by omega : position + 1 < place) (by omega)
        rw [show position + 1 + 1 = position + 2 by omega] at hnext
        refine ⟨place, by omega, ?_, hdead⟩
        rw [hfront, hnext]
        exact .hidden d _ hbody
  | shown position c closing hlt hread hc hmark hline _ ih =>
      obtain ⟨place, hplace, hbody, hdead⟩ := ih (by omega) (by omega) hmissing
      have hbound := hdead.le
      have hfront := source.slice_eq_cons_of_read hposition (by omega : position < place)
        (by omega) hread
      refine ⟨place, by omega, ?_, hdead⟩
      rw [hfront]
      exact .shown c _ hc hmark hline hbody

/-- Where a string stays open the search for its closing mark fails. -/
theorem missing_of_unclosed (h : Unclosed source mark position stop) (hposition : 0 ≤ position)
    (hstop : stop ≤ source.length) :
    ∃ horizon, QuotedSearch source mark stop position (.missing horizon) := by
  obtain ⟨place, hplace, hbody, hdead⟩ := h
  have hbound := hdead.le
  obtain ⟨horizon, hsearch⟩ : ∃ horizon, QuotedSearch source mark stop place (.missing horizon) := by
    cases hdead with
    | ended => exact ⟨_, ended stop (Int.le_refl stop)⟩
    | broken _ hlt hread hmark => exact ⟨_, broken place hlt hread hmark⟩
    | cut _ hlast hread =>
        exact ⟨_, hidden place _ (by omega) hread (ended (place + 2) (by omega))⟩
  have hsplit := (source.slice_append hposition hplace hbound).symm
  have hend : position + ((source.slice position place).length : Int) = place := by
    rw [source.length_slice hposition hplace (by omega)]
    omega
  exact ⟨horizon, through_body hbody hposition (by omega) hstop hsplit (hend.symm ▸ hsearch)⟩

end QuotedSearch

/-! ## The rule -/

namespace Reader

variable {source : Source} {marks : List Char} {memory : Option Horizons} {mark : Char}
  {position stop : Int}

/-- The rule fails where no character can be read. -/
theorem quotedAt_of_unread {e : Error} (hread : source.read position = .error e) :
    source.reader.quotedAt marks memory position stop = .error e := by
  unfold quotedAt
  show (source.read position).bind _ = _
  rw [hread]
  rfl

/-- The rule makes no claim where none of its marks stands, and remembers nothing new. -/
theorem quotedAt_of_not_mem (hread : source.read position = .ok mark) (hmark : mark ∉ marks) :
    source.reader.quotedAt marks memory position stop = .ok ⟨none, memory⟩ := by
  unfold quotedAt
  show (source.read position).bind _ = _
  rw [hread]
  show (if mark ∉ marks then _ else _) = _
  rw [if_pos hmark]
  rfl

/-- Nor does it where the memory blocks the mark. -/
theorem quotedAt_of_blocked (hread : source.read position = .ok mark) (hmark : mark ∈ marks)
    (hblocked : (memory.map (·.blocks mark position)).getD false = true) :
    source.reader.quotedAt marks memory position stop = .ok ⟨none, memory⟩ := by
  unfold quotedAt
  show (source.read position).bind _ = _
  rw [hread]
  show (if mark ∉ marks then _ else _) = _
  rw [if_neg (not_not_intro hmark), if_pos hblocked]
  rfl

/-- A search that runs out of the source makes the rule fail. -/
theorem quotedAt_of_unreadable (memory : Option Horizons)
    (hread : source.read position = .ok mark) (hmark : mark ∈ marks)
    (hfree : (memory.map (·.blocks mark position)).getD false = false) {e : Error}
    (hclosing : source.reader.closing mark (position + 1) stop = .error e) :
    source.reader.quotedAt marks memory position stop = .error e := by
  unfold quotedAt
  show (source.read position).bind _ = _
  rw [hread]
  show (if mark ∉ marks then _ else _) = _
  rw [if_neg (not_not_intro hmark), hfree, if_neg Bool.false_ne_true, hclosing]
  rfl

/-- Otherwise the search from behind the mark decides. -/
theorem quotedAt_of_search (memory : Option Horizons) (hread : source.read position = .ok mark)
    (hmark : mark ∈ marks)
    (hfree : (memory.map (·.blocks mark position)).getD false = false) {closing : Closing}
    (hsearch : QuotedSearch source mark stop (position + 1) closing) :
    source.reader.quotedAt marks memory position stop =
      .ok (match closing with
        | .found last => ⟨some ⟨.string, source.slice position last, position, last⟩, memory⟩
        | .missing horizon => ⟨none, memory.map (·.note mark horizon)⟩) := by
  unfold quotedAt
  show (source.read position).bind _ = _
  rw [hread]
  show (if mark ∉ marks then _ else _) = _
  rw [if_neg (not_not_intro hmark), hfree, if_neg Bool.false_ne_true, hsearch.closing_eq]
  cases closing <;> rfl

/-- Where a quoted string stands, the search from behind its first mark finds its end. -/
theorem search_of_isQuoted {lexeme rest : Text} (hposition : 0 ≤ position) (hnonneg : 0 ≤ stop)
    (hstop : stop ≤ source.length) (hread : source.read position = .ok mark)
    (hsplit : source.slice position stop = lexeme ++ rest) (hquoted : IsQuoted marks lexeme) :
    mark ∈ marks ∧
      QuotedSearch source mark stop (position + 1) (.found (position + lexeme.length)) := by
  obtain ⟨other, hother, hbackslash, body, hbody, rfl⟩ := hquoted
  rw [List.cons_append, List.append_assoc] at hsplit
  obtain ⟨-, hfront, hnext⟩ := source.of_slice_eq_cons hposition hnonneg hstop hsplit
  obtain rfl := Except.ok.inj (hread.symm.trans hfront)
  have hend : position + ((mark :: (body ++ [mark])).length : Int) =
      position + 1 + body.length + 1 := by
    simp only [List.length_cons, List.length_append, List.length_nil]
    omega
  rw [hend]
  exact ⟨hother, .found_of_body hbody hbackslash (by omega) hnonneg hstop hnext⟩

/-- Where the search from behind a mark succeeds, a quoted string stands. -/
theorem isQuoted_of_search {last : Int} (hposition : 0 ≤ position) (hlt : position < stop)
    (hstop : stop ≤ source.length) (hread : source.read position = .ok mark) (hmark : mark ∈ marks)
    (hsearch : QuotedSearch source mark stop (position + 1) (.found last)) :
    ∃ lexeme rest, source.slice position stop = lexeme ++ rest ∧ IsQuoted marks lexeme ∧
      last = position + lexeme.length := by
  obtain ⟨hbackslash, body, rest, hbody, hrest, hlast⟩ :=
    hsearch.body_of_found (by omega) hstop
  have hslice := source.slice_eq_cons_of_read hposition hlt hstop hread
  refine ⟨mark :: (body ++ [mark]), rest, ?_, ⟨mark, hmark, hbackslash, body, hbody, rfl⟩, ?_⟩
  · rw [hslice, hrest]
    simp
  · simp only [List.length_cons, List.length_append, List.length_nil]
    omega

/-- Without a memory the rule claims exactly the quoted strings. -/
theorem quotedAt_forgetful (source : Source) (marks : List Char) (hposition : 0 ≤ position)
    (hlt : position < stop) (hstop : stop ≤ source.length) :
    ∃ claim, source.reader.quotedAt marks none position stop = .ok ⟨claim, none⟩ ∧
      ∀ span, claim = some span ↔ ∃ lexeme rest, source.slice position stop = lexeme ++ rest ∧
        IsQuoted marks lexeme ∧ span = Span.ofLexeme .string lexeme position := by
  obtain ⟨mark, hread, -⟩ := source.exists_read_slice hposition hlt hstop
  by_cases hmark : mark ∈ marks
  · obtain ⟨closing, hsearch⟩ :=
      QuotedSearch.exists_search source mark (position + 1) (by omega) hstop
    have hanswer := quotedAt_of_search none hread hmark rfl hsearch
    cases closing with
    | found last =>
        refine ⟨_, hanswer, ?_⟩
        intro span
        constructor
        · intro h
          obtain rfl := Option.some.inj h
          obtain ⟨lexeme, rest, hsplit, hquoted, rfl⟩ :=
            isQuoted_of_search hposition hlt hstop hread hmark hsearch
          exact ⟨lexeme, rest, hsplit, hquoted,
            (Span.ofLexeme_eq source .string hposition (by omega) hsplit).symm⟩
        · rintro ⟨lexeme, rest, hsplit, hquoted, rfl⟩
          obtain ⟨-, hother⟩ :=
            search_of_isQuoted hposition (by omega) hstop hread hsplit hquoted
          obtain rfl := Closing.found.inj (hsearch.unique hother)
          rw [Span.ofLexeme_eq source .string hposition (by omega) hsplit]
    | missing horizon =>
        refine ⟨_, hanswer, ?_⟩
        intro span
        constructor
        · intro h
          contradiction
        · rintro ⟨lexeme, rest, hsplit, hquoted, -⟩
          obtain ⟨-, hother⟩ :=
            search_of_isQuoted hposition (by omega) hstop hread hsplit hquoted
          exact absurd (hsearch.unique hother) (by simp)
  · refine ⟨none, quotedAt_of_not_mem hread hmark, ?_⟩
    intro span
    constructor
    · intro h
      contradiction
    · rintro ⟨lexeme, rest, hsplit, hquoted, -⟩
      exact absurd (search_of_isQuoted hposition (by omega) hstop hread hsplit hquoted).1 hmark

end Reader

end CodeHighlight
