import CodeHighlight.Proofs.Scan.Cursor
import CodeHighlight.Proofs.Scan.Resumption

/-!
# Live cursors next to each other

Many cursors can be alive at a time, on one lexer or on several, and be asked for spans in any
order, with more cursors opened in between (`Pool.Run`).  They do not disturb each other: the
cursors of a pool are known from the events alone (`Pool.Tracks`), each as if it had been asked
alone, so each delivers the spans of its own stretch, and no others, before it has none left.

Everything a run changes, the memories of its rules for failed strings among it, is part of its
cursor.  The lexer that a cursor is opened on only says what to scan.
-/

namespace CodeHighlight

/-- What a run is about: the rules of a grammar and a stretch of a source.  Any number of cursors
may be opened on one lexer. -/
structure Lexer where
  grammar : Grammar
  source : Source
  start : Int
  stop : Option Int

namespace Lexer

/-- A new cursor on a lexer. -/
def tokenize (lexer : Lexer) : Cursor :=
  .ofRange lexer.grammar lexer.source lexer.start lexer.stop

/-- The spans of a lexer, all in one pass. -/
def spans (lexer : Lexer) : Except Error (List Span) :=
  (lexer.grammar.classifyRange lexer.source lexer.start lexer.stop).result

theorem remaining_tokenize (lexer : Lexer) : lexer.tokenize.remaining = lexer.spans :=
  Cursor.remaining_ofRange lexer.grammar lexer.source lexer.start lexer.stop

end Lexer

namespace Pool

/-! ## Events -/

/-- The answer to a request: a span, or none if there is none left, unless a rule fails. -/
abbrev Answer := Except Error (Option Span)

/-- What happens to the live cursors. -/
inductive Event where
  /-- A cursor is opened on a lexer, behind the cursors that are there. -/
  | opened (lexer : Lexer)
  /-- The cursor at an index is asked for its next span and answers. -/
  | asked (index : Nat) (answer : Answer)

/-- The lexer that a cursor is opened on. -/
def Event.lexer? : Event → Option Lexer
  | opened lexer => some lexer
  | asked _ _ => none

/-- What the cursor at an index answers. -/
def Event.answer? (index : Nat) : Event → Option Answer
  | opened _ => none
  | asked other answer => if other = index then some answer else none

/-- The lexers that the cursors are opened on, in the order of the cursors. -/
def lexers (events : List Event) : List Lexer := events.filterMap Event.lexer?

/-- The answers of the cursor at an index, in their order. -/
def answers (index : Nat) (events : List Event) : List Answer :=
  events.filterMap (Event.answer? index)

/-- What an event makes of the live cursors. -/
inductive Step (pool : List Cursor) : Event → List Cursor → Prop where
  | opened (lexer : Lexer) : Step pool (.opened lexer) (pool ++ [lexer.tokenize])
  | asked (index : Nat) {cursor : Cursor} (h : pool[index]? = some cursor) :
      Step pool (.asked index cursor.next.result) (pool.set index cursor.next.cursor)

/-- The events from the time when there are no cursors, and the cursors behind them. -/
inductive Run : List Event → List Cursor → Prop where
  | start : Run [] []
  | step {events : List Event} {event : Event} {pool later : List Cursor} (h : Run events pool)
      (hstep : Step pool event later) : Run (events ++ [event]) later

section Lists

variable (index : Nat) (events : List Event) (lexer : Lexer) (answer : Answer)

theorem lexers_opened : lexers (events ++ [.opened lexer]) = lexers events ++ [lexer] :=
  List.filterMap_append

theorem lexers_asked : lexers (events ++ [.asked index answer]) = lexers events :=
  List.filterMap_append.trans (List.append_nil _)

theorem answers_opened : answers index (events ++ [.opened lexer]) = answers index events :=
  List.filterMap_append.trans (List.append_nil _)

theorem answers_asked_self :
    answers index (events ++ [.asked index answer]) = answers index events ++ [answer] := by
  have hsome : (Event.asked index answer).answer? index = some answer := if_pos rfl
  rw [answers, List.filterMap_append, List.filterMap_cons_some hsome]
  rfl

theorem answers_asked_of_ne {other : Nat} (h : other ≠ index) :
    answers index (events ++ [.asked other answer]) = answers index events := by
  have hnone : (Event.asked other answer).answer? index = none := if_neg h
  rw [answers, List.filterMap_append, List.filterMap_cons_none hnone]
  exact List.append_nil _

end Lists

/-! ## Cursors from events -/

/-- The pool has a cursor for each lexer that was opened, which has answered and has been left as if
it had been alone. -/
structure Tracks (events : List Event) (pool : List Cursor) : Prop where
  length_eq : pool.length = (lexers events).length
  unopened : ∀ index, (lexers events).length ≤ index → answers index events = []
  alone : ∀ index lexer, (lexers events)[index]? = some lexer →
    ∃ count, answers index events = lexer.tokenize.answers count ∧
      pool[index]? = some (lexer.tokenize.after count)

namespace Tracks

variable {events : List Event} {pool : List Cursor}

theorem start : Tracks [] [] where
  length_eq := rfl
  unopened _ _ := rfl
  alone _ _ h := nomatch h

/-- A cursor that is opened has not been asked yet, and the others stay. -/
theorem opened (h : Tracks events pool) (lexer : Lexer) :
    Tracks (events ++ [.opened lexer]) (pool ++ [lexer.tokenize]) where
  length_eq := by
    rw [lexers_opened, List.length_append, List.length_append, h.length_eq]
    rfl
  unopened index hle := by
    rw [lexers_opened, List.length_append] at hle
    rw [answers_opened, h.unopened index (by omega)]
  alone index found hfound := by
    rw [lexers_opened] at hfound
    rw [answers_opened]
    by_cases hlt : index < (lexers events).length
    · rw [List.getElem?_append_left hlt] at hfound
      rw [List.getElem?_append_left (h.length_eq ▸ hlt)]
      exact h.alone index found hfound
    · have hnew : index = (lexers events).length := by
        have hbound := (List.getElem?_eq_some_iff.1 hfound).1
        rw [List.length_append, List.length_singleton] at hbound
        omega
      rw [hnew, List.getElem?_concat_length] at hfound
      obtain rfl := Option.some.inj hfound
      refine ⟨0, h.unopened index (Nat.le_of_eq hnew.symm), ?_⟩
      rw [hnew, ← h.length_eq]
      exact List.getElem?_concat_length

/-- A request moves the cursor that is asked, and the others stay. -/
theorem asked (h : Tracks events pool) {index : Nat} {cursor : Cursor}
    (hcursor : pool[index]? = some cursor) :
    Tracks (events ++ [.asked index cursor.next.result]) (pool.set index cursor.next.cursor) where
  length_eq := by rw [lexers_asked, List.length_set, h.length_eq]
  unopened other hle := by
    have hbound : index < (lexers events).length :=
      h.length_eq ▸ (List.getElem?_eq_some_iff.1 hcursor).1
    rw [lexers_asked] at hle
    rw [answers_asked_of_ne other _ _ (by omega), h.unopened other hle]
  alone other lexer hlexer := by
    rw [lexers_asked] at hlexer
    obtain ⟨count, hanswers, hother⟩ := h.alone other lexer hlexer
    by_cases hne : index = other
    · subst hne
      obtain rfl := Option.some.inj (hcursor.symm.trans hother)
      refine ⟨count + 1, ?_, List.getElem?_set_self (List.getElem?_eq_some_iff.1 hcursor).1⟩
      rw [answers_asked_self, hanswers]
      rfl
    · refine ⟨count, ?_, ?_⟩
      · rw [answers_asked_of_ne other _ _ hne, hanswers]
      · rw [List.getElem?_set_ne hne, hother]

theorem step (h : Tracks events pool) {event : Event} {later : List Cursor}
    (hstep : Step pool event later) : Tracks (events ++ [event]) later := by
  cases hstep with
  | opened lexer => exact h.opened lexer
  | asked index hcursor => exact h.asked hcursor

end Tracks

theorem Run.tracks {events : List Event} {pool : List Cursor} (h : Run events pool) :
    Tracks events pool := by
  induction h with
  | start => exact .start
  | step _ hstep ih => exact ih.step hstep

/-! ## Answers -/

/-- Whatever is done with the other cursors, a cursor answers as if it were alone.  If no rule fails
on its stretch, it has delivered the first spans of the stretch in their order, as many as it was
asked for, and for the requests in excess of them it has answered that none is left; and so it goes
on at the next request. -/
theorem answers_of_run {events : List Event} {pool : List Cursor} (h : Run events pool)
    {index : Nat} {lexer : Lexer} (hlexer : (lexers events)[index]? = some lexer) :
    let count := (answers index events).length
    answers index events = lexer.tokenize.answers count ∧
    ∃ cursor, pool[index]? = some cursor ∧
      cursor.next.result = (lexer.tokenize.after count).next.result ∧
      ∀ spans, lexer.spans = .ok spans →
        answers index events = (spans.take count).map (fun span => .ok (some span)) ++
          List.replicate (count - spans.length) (.ok none) ∧
        cursor.next.result = .ok spans[count]? := by
  obtain ⟨count, hanswers, hcursor⟩ := h.tracks.alone index lexer hlexer
  rw [hanswers, Cursor.length_answers]
  refine ⟨rfl, _, hcursor, rfl, fun spans hspans => ?_⟩
  rw [← lexer.remaining_tokenize] at hspans
  exact ⟨Cursor.answers_of_remaining hspans count, Cursor.next_after hspans count⟩

/-- Two cursors on one lexer, over two failed strings, one of them with an escaped mark that could
open a string too. -/
theorem answers_of_run_shared_lexer :
    let lexer : Lexer := ⟨.protobuf, .ofText "'it\\' is \"7".toList, 0, none⟩
    let first := lexer.tokenize.next
    let second := first.cursor.next
    let events : List Event := [.opened lexer, .asked 0 first.result, .opened lexer,
      .asked 1 first.result, .asked 0 second.result]
    let pool := [second.cursor, first.cursor]
    Run events pool ∧ (lexers events)[0]? = some lexer ∧ ∃ spans, lexer.spans = .ok spans ∧
      [first.result, second.result] = (spans.take 2).map (fun span => .ok (some span)) ++
        List.replicate (2 - spans.length) (.ok none) ∧
      second.cursor.next.result = .ok spans[2]? := by
  intro lexer first second events pool
  have hrun : Run events pool :=
    ((((Run.start.step (.opened lexer)).step (.asked 0 rfl)).step (.opened lexer)).step
      (.asked 1 rfl)).step (.asked 0 rfl)
  have hlexer : (lexers events)[0]? = some lexer := rfl
  have hrules : lexer.grammar.rules = Grammar.defaultRules := rfl
  obtain ⟨tokens, hspans, -⟩ := Grammar.exists_leftmost_source lexer.source hrules
  obtain ⟨-, cursor, hcursor, -, hanswers⟩ := answers_of_run hrun hlexer
  obtain rfl : second.cursor = cursor := Option.some.inj hcursor
  exact ⟨hrun, hlexer, _, hspans, hanswers _ hspans⟩

end Pool

end CodeHighlight
