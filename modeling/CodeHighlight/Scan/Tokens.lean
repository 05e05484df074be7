import CodeHighlight.Scan.Chain

/-!
# The tokens and the spans of a source

One pass over a stretch of a source finds its tokens, which are the spans that are not plain, and
the claims that were refused on the way.  When a rule fails the pass is over, and the claims refused
up to there are still known.

The tokens leave gaps, and the text in each gap becomes one plain span.  Together the tokens and the
plain spans tile the stretch.
-/

namespace CodeHighlight

/-! ## Tokens -/

/-- A claim that was not acceptable at the offset at which it was made. -/
structure Refusal where
  claim : Span
  offset : Int

/-- What a pass over a source comes to, with the claims refused on the way, in their order. -/
structure Scanned (α : Type) where
  /-- The result, unless a rule fails. -/
  result : Except Error α
  refusals : List Refusal

namespace Scanned

/-- The end of a pass, with nothing refused. -/
def done {α : Type} (a : α) : Scanned α := ⟨.ok a, []⟩

/-- The end of a pass in which a rule fails. -/
def failed {α : Type} (e : Error) : Scanned α := ⟨.error e, []⟩

/-- The same pass with another view of its result. -/
def map {α β : Type} (f : α → β) (pass : Scanned α) : Scanned β :=
  ⟨pass.result.map f, pass.refusals⟩

/-- The pass behind some refusals. -/
def after {α : Type} (refusals : List Refusal) (pass : Scanned α) : Scanned α :=
  ⟨pass.result, refusals ++ pass.refusals⟩

end Scanned

namespace Verdict

/-- The token that a verdict finds, if any. -/
def tokens : Verdict → List Span
  | token span => [span]
  | _ => []

/-- The refusal that a verdict at an offset is, if it is one. -/
def refusals (offset : Int) : Verdict → List Refusal
  | refused claim => [⟨claim, offset⟩]
  | _ => []

end Verdict

/-- The tokens that a chain finds from a position up to `stop`. -/
def Chain.tokens (reader : Reader) (position stop : Int) (chain : Chain) : Scanned (List Span) :=
  if position < stop then
    match chain.firstClaim reader position stop with
    | .error e => .failed e
    | .ok (claim, chain) =>
        let verdict := judge position stop claim
        ((tokens reader (verdict.next position) stop chain).map (verdict.tokens ++ ·)).after
          (verdict.refusals position)
  else
    .done []
termination_by (stop - position).toNat
decreasing_by
  have := lt_next_judge position stop claim
  omega

/-! ## Gaps -/

/-- The plain span from `start` to `stop`, unless it would be empty. -/
def plainBetween (source : Source) (start stop : Int) : List Span :=
  if start < stop then [⟨.plain, source.slice start stop, start, stop⟩] else []

/-- Fills the gaps that the tokens leave between `start` and `stop`. -/
def fillGaps (source : Source) (start stop : Int) : List Span → List Span
  | [] => plainBetween source start stop
  | token :: rest =>
      plainBetween source start token.start ++ token :: fillGaps source token.stop stop rest

/-- The end of a stretch that should end at `stop`: the end of the source if that comes first, or if
no end is given. -/
def Source.stopWithin (source : Source) : Option Int → Int
  | none => source.length
  | some stop => min stop source.length

/-- The start of a stretch that should start at `start`, moved to the front of the source if it lies
before it and to the end of the stretch if it lies behind that. -/
def Source.startWithin (source : Source) (start : Int) (stop : Option Int) : Int :=
  max 0 (min start (source.stopWithin stop))

/-- The spans that a chain finds between two bounds, seen through a reader. -/
def Chain.classify (reader : Reader) (start : Int) (stop : Option Int) (chain : Chain) :
    Scanned (List Span) :=
  let first := reader.source.startWithin start stop
  let last := reader.source.stopWithin stop
  (chain.tokens reader first last).map (fillGaps reader.source first last)

namespace Grammar

/-- The spans of a stretch of a source. -/
def classifyRange (grammar : Grammar) (source : Source) (start : Int) (stop : Option Int) :
    Scanned (List Span) :=
  (Chain.fresh grammar.allRules).classify source.reader start stop

/-- The spans of a whole source. -/
def classify (grammar : Grammar) (source : Source) : Scanned (List Span) :=
  grammar.classifyRange source 0 none

end Grammar

end CodeHighlight
