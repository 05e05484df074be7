import CodeHighlight.Scan.Tokens

/-!
# Live cursors

A cursor delivers the spans of a stretch one at a time and scans no further than it has to.  It
finds a token before it delivers the plain span in front of it, so a token may be pending between
two deliveries.
-/

namespace CodeHighlight

/-- A run over a stretch of a source that is paused between two spans. -/
structure Cursor where
  reader : Reader
  /-- The end of the stretch. -/
  stop : Int
  /-- The next position to look at. -/
  position : Int
  /-- The end of the last token, where the current plain text starts. -/
  plainStart : Int
  /-- A token that is found but not yet delivered. -/
  pending : Option Span
  chain : Chain

/-- What one or several requests to a cursor yield, with the claims refused on the way and the
cursor for the next request. -/
structure Delivery (α : Type) where
  /-- What is delivered, unless a rule fails. -/
  result : Except Error α
  refusals : List Refusal
  cursor : Cursor

/-- Where the search for the next token ends: at a token, or at the end of the stretch. -/
structure Search where
  token : Option Span
  position : Int
  chain : Chain

/-- Looks for the next token of a chain from a position up to `stop`. -/
def Chain.search (reader : Reader) (position stop : Int) (chain : Chain) : Scanned Search :=
  if position < stop then
    match chain.firstClaim reader position stop with
    | .error e => .failed e
    | .ok (claim, chain) =>
        match judge position stop claim with
        | .token span => .done ⟨some span, span.stop, chain⟩
        | verdict =>
            (search reader ((judge position stop claim).next position) stop chain).after
              (verdict.refusals position)
  else
    .done ⟨none, position, chain⟩
termination_by (stop - position).toNat
decreasing_by
  have := lt_next_judge position stop claim
  omega

namespace Cursor

/-- A cursor at the start of a stretch. -/
def ofRange (grammar : Grammar) (source : Source) (start : Int) (stop : Option Int) : Cursor :=
  ⟨source.reader, source.stopWithin stop, source.startWithin start stop,
    source.startWithin start stop, none, Chain.fresh grammar.allRules⟩

/-- A cursor at the start of a source. -/
def ofSource (grammar : Grammar) (source : Source) : Cursor := ofRange grammar source 0 none

/-- The cursor with nothing left to deliver. -/
def exhausted (cursor : Cursor) : Cursor :=
  { cursor with position := cursor.stop, plainStart := cursor.stop, pending := none }

/-- Delivers a token that is found, or the plain text in front of it with the token pending. -/
def deliver (cursor : Cursor) (token : Span) : Span × Cursor :=
  if cursor.plainStart < token.start then
    (⟨.plain, cursor.reader.source.slice cursor.plainStart token.start, cursor.plainStart,
        token.start⟩,
      { cursor with plainStart := token.start, pending := some token })
  else
    (token, { cursor with plainStart := token.stop, pending := none })

/-- Delivers what a search has found, which is the rest of the plain text if it found no token. -/
def deliverFound (cursor : Cursor) (found : Search) : Option Span × Cursor :=
  let cursor : Cursor := { cursor with position := found.position, chain := found.chain }
  match found.token with
  | some token =>
      let (span, cursor) := cursor.deliver token
      (some span, cursor)
  | none =>
      if cursor.plainStart < cursor.stop then
        (some ⟨.plain, cursor.reader.source.slice cursor.plainStart cursor.stop,
            cursor.plainStart, cursor.stop⟩,
          { cursor with plainStart := cursor.stop })
      else
        (none, cursor)

/-- Delivers the next span.  After a failure there is nothing left. -/
def next (cursor : Cursor) : Delivery (Option Span) :=
  match cursor.pending with
  | some token =>
      let (span, cursor) := cursor.deliver token
      ⟨.ok (some span), [], cursor⟩
  | none =>
      let pass := cursor.chain.search cursor.reader cursor.position cursor.stop
      match pass.result with
      | .error e => ⟨.error e, pass.refusals, cursor.exhausted⟩
      | .ok found =>
          let (span, cursor) := cursor.deliverFound found
          ⟨.ok span, pass.refusals, cursor⟩

/-- Asks for the next span a number of times, up to the first failure. -/
def ask (cursor : Cursor) : Nat → Delivery (List (Option Span))
  | 0 => ⟨.ok [], [], cursor⟩
  | count + 1 =>
      let first := cursor.next
      match first.result with
      | .error e => ⟨.error e, first.refusals, first.cursor⟩
      | .ok span =>
          let later := first.cursor.ask count
          ⟨later.result.map (span :: ·), first.refusals ++ later.refusals, later.cursor⟩

/-- Asks for the next span until there is none, but no more often than the given number of times. -/
def drain (cursor : Cursor) : Nat → Delivery (List Span)
  | 0 => ⟨.ok [], [], cursor⟩
  | count + 1 =>
      let first := cursor.next
      match first.result with
      | .error e => ⟨.error e, first.refusals, first.cursor⟩
      | .ok none => ⟨.ok [], first.refusals, first.cursor⟩
      | .ok (some span) =>
          let later := first.cursor.drain count
          ⟨later.result.map (span :: ·), first.refusals ++ later.refusals, later.cursor⟩

/-- Asks for all spans that are left.  Every span covers some of the stretch behind the last token,
so the length of that stretch bounds their number. -/
def rest (cursor : Cursor) : Delivery (List Span) :=
  cursor.drain ((cursor.stop - cursor.plainStart).toNat + 1)

end Cursor

end CodeHighlight
