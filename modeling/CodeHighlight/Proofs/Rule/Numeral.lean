import CodeHighlight.Proofs.Source
import CodeHighlight.Proofs.Text.Longest
import CodeHighlight.Proofs.Text.Run
import CodeHighlight.Rule.Word

/-!
# What the numeral rule finds

`numerals` is the language of numerals, written as the regular expression that it is.  The rule
claims exactly the longest numerals that stand on their own: each part of the reader finds the
longest word of its factor, and `Longest.mul` puts the factors together.
-/

namespace CodeHighlight

open scoped Computability

/-! ## The language of numerals -/

def signs : Language Char := oneOf isSign

def digits : Language Char := oneOf isDigit * (oneOf isDigit)∗

def fractions : Language Char := oneOf (· == '.') * digits

def exponents : Language Char := oneOf isExponentMark * (1 + signs) * digits

/-- An optional sign, digits, an optional fraction and an optional exponent. -/
def numerals : Language Char := (1 + signs) * digits * (1 + fractions) * (1 + exponents)

theorem mem_digits {t : Text} : t ∈ digits ↔ t ≠ [] ∧ ∀ c ∈ t, isDigit c = true := by
  constructor
  · intro h
    obtain ⟨first, hfirst, body, hbody, rfl⟩ := Language.mem_mul.1 h
    obtain ⟨c, hc, rfl⟩ := mem_oneOf.1 hfirst
    refine ⟨by simp, ?_⟩
    intro d hd
    rcases List.mem_append.1 hd with hd | hd
    · rw [List.mem_singleton.1 hd]
      exact hc
    · exact mem_kstar_oneOf.1 hbody d hd
  · rintro ⟨hne, hall⟩
    cases t with
    | nil => exact absurd rfl hne
    | cons c t =>
        refine Language.mem_mul.2 ⟨[c], mem_oneOf.2 ⟨c, hall c (by simp), rfl⟩, t, ?_, rfl⟩
        exact mem_kstar_oneOf.2 fun d hd => hall d (by simp [hd])

/-- Words of a product begin as words of the first factor do, if that one has no empty word. -/
theorem exists_cons_of_mem_mul {p : Char → Bool} {L : Language Char} {word : Text}
    (h : word ∈ oneOf p * L) : ∃ c rest, word = c :: rest ∧ p c = true := by
  obtain ⟨first, hfirst, rest, -, rfl⟩ := Language.mem_mul.1 h
  obtain ⟨c, hc, rfl⟩ := mem_oneOf.1 hfirst
  exact ⟨c, rest, rfl, hc⟩

theorem head?_not_mem_of_mem_mul {p : Char → Bool} {L : Language Char} {front : Text}
    (hfront : ∀ c ∈ front, p c = false) :
    ∀ word ∈ oneOf p * L, ∀ c ∈ word.head?, c ∉ front := by
  intro word hword c hc hmem
  obtain ⟨d, rest, rfl, hd⟩ := exists_cons_of_mem_mul hword
  obtain rfl : d = c := Option.some.inj hc
  rw [hfront d hmem] at hd
  contradiction

theorem head?_not_mem_of_mem_one_add {L : Language Char} {front : Text}
    (h : ∀ word ∈ L, ∀ c ∈ word.head?, c ∉ front) :
    ∀ word ∈ 1 + L, ∀ c ∈ word.head?, c ∉ front := by
  rintro word (rfl | hword)
  · intro c hc
    contradiction
  · exact h word hword

theorem not_prefix_of_head? {p : Char → Bool} {L : Language Char} {rest : Text}
    (hrest : rest.head?.any p = false) : ∀ word ∈ oneOf p * L, ¬ word <+: rest := by
  rintro word hword ⟨more, rfl⟩
  obtain ⟨c, tail, rfl, hc⟩ := exists_cons_of_mem_mul hword
  have hfalse : p c = false := hrest
  rw [hc] at hfalse
  contradiction

theorem longest_digits {run rest : Text} (hrun : run ∈ digits)
    (hrest : rest.head?.any isDigit = false) : Longest digits run rest := by
  refine ⟨hrun, ?_⟩
  rintro word ⟨more, hsplit⟩ hword
  have htake := Text.takeWhile_append_of_head? (mem_digits.1 hrun).2 hrest
  rw [← hsplit, List.takeWhile_append_of_pos (mem_digits.1 hword).2] at htake
  rw [← htake, List.length_append]
  omega

/-! ## The classes of the parts -/

/-- No character is in both classes. -/
def Apart (p q : Char → Bool) : Prop := ∀ c, p c = true → q c = false

theorem Apart.symm {p q : Char → Bool} (h : Apart p q) : Apart q p := by
  intro c hq
  cases hp : p c with
  | false => rfl
  | true =>
      rw [h c hp] at hq
      contradiction

theorem sign_apart {q : Char → Bool} (hplus : q '+' = false) (hminus : q '-' = false) :
    Apart isSign q := by
  intro c hc
  simp only [isSign, Bool.or_eq_true, beq_iff_eq] at hc
  rcases hc with rfl | rfl
  · exact hplus
  · exact hminus

theorem mark_apart {q : Char → Bool} (hlower : q 'e' = false) (hupper : q 'E' = false) :
    Apart isExponentMark q := by
  intro c hc
  simp only [isExponentMark, Bool.or_eq_true, beq_iff_eq] at hc
  rcases hc with rfl | rfl
  · exact hlower
  · exact hupper

theorem point_apart {q : Char → Bool} (hpoint : q '.' = false) : Apart (· == '.') q := by
  intro c hc
  rw [eq_of_beq hc]
  exact hpoint

theorem sign_apart_digit : Apart isSign isDigit := sign_apart (by decide) (by decide)

theorem mark_apart_sign : Apart isExponentMark isSign := mark_apart (by decide) (by decide)

theorem mark_apart_digit : Apart isExponentMark isDigit := mark_apart (by decide) (by decide)

theorem point_apart_sign : Apart (· == '.') isSign := point_apart (by decide)

theorem point_apart_mark : Apart (· == '.') isExponentMark := point_apart (by decide)

theorem point_apart_digit : Apart (· == '.') isDigit := point_apart (by decide)

theorem isSign_of_mem {sign : Text} (h : sign ∈ 1 + signs) : ∀ c ∈ sign, isSign c = true := by
  rintro c hc
  rcases h with rfl | h
  · contradiction
  · obtain ⟨d, hd, rfl⟩ := mem_oneOf.1 h
    rw [List.mem_singleton.1 hc]
    exact hd

/-! ## The parts of the reader -/

namespace Reader

variable (source : Source) {position stop : Int}

/-- A part that is left out ends where it starts. -/
private theorem ok_end_nil (position : Int) :
    (Except.ok position : Except Error Int) = .ok (position + ([] : Text).length) := by
  simp

private theorem signEnd_exact (hposition : 0 ≤ position) (hnonneg : 0 ≤ stop)
    (hstop : stop ≤ source.length) :
    ∃ sign rest, source.slice position stop = sign ++ rest ∧
      source.reader.signEnd position stop = .ok (position + sign.length) ∧
      Longest (1 + signs) sign rest := by
  unfold signEnd
  rw [sees_reader source isSign hposition hnonneg hstop]
  cases hslice : source.slice position stop with
  | nil =>
      refine ⟨[], [], rfl, ok_end_nil position, Longest.one_add_of_none ?_⟩
      rintro word hword hfits
      obtain ⟨c, -, rfl⟩ := mem_oneOf.1 hword
      exact absurd (List.prefix_nil.1 hfits) (List.cons_ne_nil _ _)
  | cons c rest =>
      show ∃ sign more, _ ∧ (if isSign c = true then _ else _) = _ ∧ _
      cases hc : isSign c with
      | true => exact ⟨[c], rest, rfl, rfl, (Longest.oneOf_intro hc rest).one_add⟩
      | false =>
          refine ⟨[], c :: rest, rfl, ok_end_nil position, Longest.one_add_of_none ?_⟩
          rintro word hword hfits
          obtain ⟨d, hd, rfl⟩ := mem_oneOf.1 hword
          obtain ⟨rfl, -⟩ := List.cons_prefix_cons.1 hfits
          rw [hc] at hd
          contradiction

private theorem digitsEnd_exact (hposition : 0 ≤ position) (hnonneg : 0 ≤ stop)
    (hstop : stop ≤ source.length)
    (hhead : (source.slice position stop).head?.any isDigit = true) :
    ∃ run rest, source.slice position stop = run ++ rest ∧
      source.reader.runEnd isDigit position stop = .ok (position + run.length) ∧
      Longest digits run rest := by
  cases hslice : source.slice position stop with
  | nil =>
      rw [hslice] at hhead
      contradiction
  | cons c rest =>
      rw [hslice] at hhead
      have hc : isDigit c = true := hhead
      obtain ⟨hlt, -, -⟩ := source.of_slice_eq_cons hposition hnonneg hstop hslice
      refine ⟨(c :: rest).takeWhile isDigit, (c :: rest).dropWhile isDigit,
        List.takeWhile_append_dropWhile.symm, ?_, longest_digits ?_ ?_⟩
      · rw [runEnd_reader source isDigit hposition (by omega) hstop, hslice]
      · rw [mem_digits]
        refine ⟨?_, fun d hd => Text.mem_takeWhile hd⟩
        rw [List.takeWhile_cons_of_pos hc]
        exact List.cons_ne_nil _ _
      · exact Text.any_head?_dropWhile isDigit _

private theorem fractionEnd_exact (hposition : 0 ≤ position) (hnonneg : 0 ≤ stop)
    (hstop : stop ≤ source.length) :
    ∃ fraction rest, source.slice position stop = fraction ++ rest ∧
      source.reader.fractionEnd position stop = .ok (position + fraction.length) ∧
      Longest (1 + fractions) fraction rest := by
  unfold fractionEnd
  by_cases hlt : position < stop - 1
  · obtain ⟨c, hread, hslice⟩ := source.exists_read_slice hposition (by omega) hstop
    rw [sees_of_read source _ hlt hread, hslice]
    show ∃ fraction rest, _ ∧ (if (c == '.') = true then _ else _) = _ ∧ _
    cases hc : c == '.' with
    | false =>
        refine ⟨[], _, rfl, ok_end_nil position, Longest.one_add_of_none ?_⟩
        exact not_prefix_of_head? hc
    | true =>
        have hpoint : Longest (oneOf (· == '.')) [c] (source.slice (position + 1) stop) :=
          Longest.oneOf_intro (p := (· == '.')) hc _
        have hstart : ∀ word ∈ digits, ∀ d ∈ word.head?, d ∉ [c] := by
          apply head?_not_mem_of_mem_mul
          intro d hd
          rw [List.mem_singleton.1 hd]
          exact point_apart_digit c hc
        rw [if_pos rfl, sees_reader source isDigit (by omega) hnonneg hstop]
        show ∃ fraction rest, _ ∧
          (if (source.slice (position + 1) stop).head?.any isDigit = true then _ else _) = _ ∧ _
        cases hhead : (source.slice (position + 1) stop).head?.any isDigit with
        | true =>
            obtain ⟨run, rest, hsplit, hrun, hlongest⟩ :=
              digitsEnd_exact source (by omega) hnonneg hstop hhead
            rw [hsplit] at hpoint ⊢
            refine ⟨[c] ++ run, rest, rfl, ?_, (hpoint.mul hlongest hstart).one_add⟩
            rw [if_pos rfl, hrun, List.length_append, List.length_singleton]
            congr 1
            omega
        | false =>
            refine ⟨[], _, rfl, ok_end_nil position, Longest.one_add_of_none ?_⟩
            apply hpoint.none_of_mul (fun word hword => (mem_digits.1 hword).1) hstart
            exact not_prefix_of_head? hhead
  · rw [sees_of_le source _ (by omega)]
    refine ⟨[], source.slice position stop, rfl, ok_end_nil position, Longest.one_add_of_none ?_⟩
    -- A fraction has a point and a digit, but at most one character is left.
    intro word hword hfits
    obtain ⟨point, hpoint, run, hrun, rfl⟩ := Language.mem_mul.1 hword
    obtain ⟨c, -, rfl⟩ := mem_oneOf.1 hpoint
    have hne : run.length ≠ 0 := fun h => (mem_digits.1 hrun).1 (List.eq_nil_of_length_eq_zero h)
    have hlength := hfits.length_le
    rw [List.length_append, List.length_singleton] at hlength
    by_cases hle : position ≤ stop
    · rw [source.length_slice hposition hle hstop] at hlength
      omega
    · rw [source.slice_eq_nil hnonneg (by omega), List.length_nil] at hlength
      omega

private theorem exponentEnd_exact (hposition : 0 ≤ position) (hnonneg : 0 ≤ stop)
    (hstop : stop ≤ source.length) :
    ∃ exponent rest, source.slice position stop = exponent ++ rest ∧
      source.reader.exponentEnd position stop = .ok (position + exponent.length) ∧
      Longest (1 + exponents) exponent rest := by
  unfold exponentEnd
  rw [sees_reader source isExponentMark hposition hnonneg hstop]
  cases hslice : source.slice position stop with
  | nil =>
      refine ⟨[], [], rfl, ok_end_nil position, Longest.one_add_of_none ?_⟩
      rw [exponents, mul_assoc]
      exact not_prefix_of_head? rfl
  | cons c behind =>
      show ∃ exponent rest, _ ∧ (if isExponentMark c = true then _ else _) = _ ∧ _
      cases hc : isExponentMark c with
      | false =>
          refine ⟨[], _, rfl, ok_end_nil position, Longest.one_add_of_none ?_⟩
          rw [exponents, mul_assoc]
          exact not_prefix_of_head? hc
      | true =>
          obtain ⟨-, -, hbehind⟩ := source.of_slice_eq_cons hposition hnonneg hstop hslice
          obtain ⟨sign, rest, hsign, hend, hlongest⟩ :=
            signEnd_exact source (by omega : 0 ≤ position + 1) hnonneg hstop
          have hrest := (source.slice_split (by omega) hnonneg hsign).2
          rw [if_pos rfl, hend]
          show ∃ exponent more, _ ∧
            (source.reader.sees isDigit (position + 1 + sign.length) stop).bind _ = _ ∧ _
          rw [sees_reader source isDigit (by omega) hnonneg hstop, hrest]
          show ∃ exponent more, _ ∧ (if rest.head?.any isDigit = true then _ else _) = _ ∧ _
          -- The mark and the sign are taken before it is known whether digits follow.
          have hmark : Longest (oneOf isExponentMark * (1 + signs)) ([c] ++ sign) rest := by
            apply (Longest.oneOf_intro hc (sign ++ rest)).mul hlongest
            apply head?_not_mem_of_mem_one_add
            rintro word hword d hd hmem
            obtain ⟨e, he, rfl⟩ := mem_oneOf.1 hword
            obtain rfl := Option.some.inj hd
            rw [List.mem_singleton.1 hmem, mark_apart_sign c hc] at he
            contradiction
          have hstart : ∀ word ∈ digits, ∀ d ∈ word.head?, d ∉ [c] ++ sign := by
            apply head?_not_mem_of_mem_mul
            intro d hd
            rcases List.mem_append.1 hd with hd | hd
            · rw [List.mem_singleton.1 hd]
              exact mark_apart_digit c hc
            · exact sign_apart_digit d (isSign_of_mem hlongest.mem d hd)
          rw [← hbehind, hsign]
          cases hhead : rest.head?.any isDigit with
          | true =>
              obtain ⟨run, more, hsplit, hrun, hdigits⟩ := digitsEnd_exact source
                (by omega : 0 ≤ position + 1 + sign.length) hnonneg hstop (by rw [hrest, hhead])
              rw [hrest] at hsplit
              rw [hsplit] at hmark ⊢
              refine ⟨[c] ++ sign ++ run, more, by simp, ?_, (hmark.mul hdigits hstart).one_add⟩
              rw [if_pos rfl, hrun]
              simp only [List.length_append, List.length_singleton]
              congr 1
              omega
          | false =>
              refine ⟨[], _, rfl, ok_end_nil position, Longest.one_add_of_none ?_⟩
              rw [← List.singleton_append, ← List.append_assoc]
              apply hmark.none_of_mul (fun word hword => (mem_digits.1 hword).1) hstart
              exact not_prefix_of_head? hhead

/-- The sign, the whole part, the fraction and the exponent, each as long as it can be, make up the
longest numeral. -/
private theorem longest_numerals {sign whole fraction exponent rest : Text}
    (hsign : Longest (1 + signs) sign (whole ++ (fraction ++ (exponent ++ rest))))
    (hwhole : Longest digits whole (fraction ++ (exponent ++ rest)))
    (hfraction : Longest (1 + fractions) fraction (exponent ++ rest))
    (hexponent : Longest (1 + exponents) exponent rest) :
    Longest numerals (sign ++ whole ++ fraction ++ exponent) rest := by
  have hsignChars := isSign_of_mem hsign.mem
  have hwholeChars := (mem_digits.1 hwhole.mem).2
  have hpoint : ∀ c ∈ sign ++ whole, (c == '.') = false := by
    intro c hc
    rcases List.mem_append.1 hc with hc | hc
    · exact point_apart_sign.symm c (hsignChars c hc)
    · exact point_apart_digit.symm c (hwholeChars c hc)
  have hmark : ∀ c ∈ sign ++ whole ++ fraction, isExponentMark c = false := by
    intro c hc
    rcases List.mem_append.1 hc with hc | hc
    · rcases List.mem_append.1 hc with hc | hc
      · exact mark_apart_sign.symm c (hsignChars c hc)
      · exact mark_apart_digit.symm c (hwholeChars c hc)
    · rcases hfraction.mem with rfl | hmem
      · contradiction
      · obtain ⟨point, hp, run, hrun, rfl⟩ := Language.mem_mul.1 hmem
        obtain ⟨d, hd, rfl⟩ := mem_oneOf.1 hp
        rcases List.mem_append.1 hc with hc | hc
        · rw [List.mem_singleton.1 hc]
          exact point_apart_mark d hd
        · exact mark_apart_digit.symm c ((mem_digits.1 hrun).2 c hc)
  have hfront : Longest ((1 + signs) * digits) (sign ++ whole)
      (fraction ++ (exponent ++ rest)) := by
    apply hsign.mul hwhole
    apply head?_not_mem_of_mem_mul
    exact fun c hc => sign_apart_digit c (hsignChars c hc)
  apply (hfront.mul hfraction ?_).mul hexponent
  · apply head?_not_mem_of_mem_one_add
    rw [exponents, mul_assoc]
    exact head?_not_mem_of_mem_mul hmark
  · apply head?_not_mem_of_mem_one_add
    exact head?_not_mem_of_mem_mul hpoint

private theorem not_numeral_of_no_digit {sign rest : Text} (hsign : Longest (1 + signs) sign rest)
    (hrest : rest.head?.any isDigit = false) : ∀ word ∈ numerals, ¬ word <+: sign ++ rest := by
  have hproduct : numerals = (1 + signs) *
      (oneOf isDigit * ((oneOf isDigit)∗ * ((1 + fractions) * (1 + exponents)))) := by
    simp only [numerals, digits, mul_assoc]
  rw [hproduct]
  apply hsign.none_of_mul
  · intro word hword
    obtain ⟨c, tail, rfl, -⟩ := exists_cons_of_mem_mul hword
    exact List.cons_ne_nil _ _
  · apply head?_not_mem_of_mem_mul
    exact fun c hc => sign_apart_digit c (isSign_of_mem hsign.mem c hc)
  · exact not_prefix_of_head? hrest

/-- To decline is right where nothing could be claimed. -/
private theorem exists_declined {α : Type} {p : α → Prop} (h : ∀ a, ¬ p a) :
    ∃ answer : Option α, (.ok none : Except Error (Option α)) = .ok answer ∧
      ∀ a, answer = some a ↔ p a :=
  ⟨none, rfl, fun a => iff_of_false nofun (h a)⟩

/-- Without regard to what stands before and behind, the reader finds the longest numeral. -/
theorem numeralEnd_exact (hposition : 0 ≤ position) (hlt : position < stop)
    (hstop : stop ≤ source.length) :
    ∃ answer, source.reader.numeralEnd position stop = .ok answer ∧
      ∀ last, answer = some last ↔ ∃ lexeme rest, source.slice position stop = lexeme ++ rest ∧
        Longest numerals lexeme rest ∧ last = position + lexeme.length := by
  obtain ⟨first, hread, -⟩ := source.exists_read_slice hposition hlt hstop
  obtain ⟨sign, ahead, hsplit, hend, hsign⟩ :=
    signEnd_exact source hposition (by omega) hstop
  have hahead := (source.slice_split hposition (by omega) hsplit).2
  have hdigits : (if isSign first = true then position + 1 else position) =
      position + sign.length := by
    unfold signEnd at hend
    rw [sees_of_read source isSign hlt hread] at hend
    cases hfirst : isSign first with
    | true =>
        rw [hfirst] at hend
        exact Except.ok.inj hend
    | false =>
        rw [hfirst] at hend
        exact Except.ok.inj hend
  unfold numeralEnd
  show ∃ answer, (source.read position).bind _ = _ ∧ _
  rw [hread]
  show ∃ answer, (source.reader.sees isDigit
    (if isSign first = true then position + 1 else position) stop).bind _ = _ ∧ _
  rw [hdigits, sees_reader source isDigit (by omega) (by omega) hstop, hahead]
  show ∃ answer, (if ahead.head?.any isDigit = true then _ else _) = _ ∧ _
  cases hhead : ahead.head?.any isDigit with
  | true =>
      -- Each part starts where the one before it ends.
      obtain ⟨whole, afterWhole, hwhole, hwholeEnd, hwholeLongest⟩ := digitsEnd_exact source
        (by omega : 0 ≤ position + sign.length) (by omega) hstop (by rw [hahead, hhead])
      have hrestWhole := (source.slice_split (by omega) (by omega) hwhole).2
      obtain ⟨fraction, afterFraction, hfraction, hfractionEnd, hfractionLongest⟩ :=
        fractionEnd_exact source (by omega : 0 ≤ position + sign.length + whole.length)
          (by omega) hstop
      have hrestFraction := (source.slice_split (by omega) (by omega) hfraction).2
      obtain ⟨exponent, rest, hexponent, hexponentEnd, hexponentLongest⟩ :=
        exponentEnd_exact source
          (by omega : 0 ≤ position + sign.length + whole.length + fraction.length)
          (by omega) hstop
      have hlongest : Longest numerals (sign ++ whole ++ fraction ++ exponent) rest := by
        rw [hahead] at hwhole
        rw [hrestWhole] at hfraction
        rw [hrestFraction] at hexponent
        subst hwhole hfraction hexponent
        exact longest_numerals hsign hwholeLongest hfractionLongest hexponentLongest
      have hwholeSplit : source.slice position stop =
          sign ++ whole ++ fraction ++ exponent ++ rest := by
        rw [hsplit, ← hahead, hwhole, ← hrestWhole, hfraction, ← hrestFraction, hexponent]
        simp only [List.append_assoc]
      refine ⟨some (position + (sign ++ whole ++ fraction ++ exponent).length), ?_, ?_⟩
      · rw [if_pos rfl, hwholeEnd]
        show (source.reader.fractionEnd _ stop).bind _ = _
        rw [hfractionEnd]
        show (source.reader.exponentEnd _ stop).bind _ = _
        rw [hexponentEnd]
        show Except.ok _ = Except.ok _
        simp only [List.length_append]
        congr 2
        omega
      · intro last
        constructor
        · intro h
          exact ⟨_, rest, hwholeSplit, hlongest, (Option.some.inj h).symm⟩
        · rintro ⟨lexeme, more, hother, hlexeme, rfl⟩
          rw [hlongest.unique hlexeme (hwholeSplit.symm.trans hother)]
  | false =>
      apply exists_declined
      rintro _ ⟨lexeme, more, hother, hlexeme, -⟩
      refine absurd ?_ (not_numeral_of_no_digit hsign hhead lexeme hlexeme.mem)
      rw [← hsplit, hother]
      exact List.prefix_append lexeme more

theorem numeralAt_exact (hposition : 0 ≤ position) (hlt : position < stop)
    (hstop : stop ≤ source.length) :
    ∃ claim, source.reader.numeralAt position stop = .ok claim ∧
      ∀ span, claim = some span ↔ ∃ lexeme rest, source.slice position stop = lexeme ++ rest ∧
        Longest numerals lexeme rest ∧ (source.behind position).any isWordChar = false ∧
        rest.head?.any isWordChar = false ∧ span = Span.ofLexeme .number lexeme position := by
  unfold numeralAt
  rw [follows_reader source isWordChar hposition (by omega)]
  show ∃ claim, (if (source.behind position).any isWordChar = true then _ else _) = _ ∧ _
  cases hbehind : (source.behind position).any isWordChar with
  | true =>
      apply exists_declined
      rintro _ ⟨_, _, -, -, hfalse, -⟩
      contradiction
  | false =>
      obtain ⟨answer, hanswer, hexact⟩ := numeralEnd_exact source hposition hlt hstop
      rw [if_neg (by simp), hanswer]
      cases answer with
      | none =>
          apply exists_declined
          rintro _ ⟨lexeme, rest, hsplit, hlexeme, -⟩
          have hsome := (hexact _).2 ⟨lexeme, rest, hsplit, hlexeme, rfl⟩
          contradiction
      | some last =>
          obtain ⟨lexeme, rest, hsplit, hlexeme, rfl⟩ := (hexact last).1 rfl
          have hrest := (source.slice_split hposition (by omega) hsplit).2
          have hspan := Span.ofLexeme_eq source .number hposition (by omega) hsplit
          show ∃ claim,
            (source.reader.sees isWordChar (position + lexeme.length) stop).bind _ = _ ∧ _
          rw [sees_reader source isWordChar (by omega) (by omega) hstop, hrest]
          show ∃ claim, (if rest.head?.any isWordChar = true then _ else _) = _ ∧ _
          cases hhead : rest.head?.any isWordChar with
          | true =>
              apply exists_declined
              rintro _ ⟨other, more, hother, hlongest, -, hfalse, -⟩
              have hsame := hlexeme.unique hlongest (hsplit.symm.trans hother)
              subst hsame
              rw [List.append_cancel_left (hsplit.symm.trans hother), hfalse] at hhead
              contradiction
          | false =>
              refine ⟨_, rfl, ?_⟩
              intro span
              constructor
              · intro h
                obtain rfl := Option.some.inj h
                exact ⟨lexeme, rest, hsplit, hlexeme, rfl, hhead, hspan.symm⟩
              · rintro ⟨other, more, hother, hlongest, -, -, rfl⟩
                rw [← hlexeme.unique hlongest (hsplit.symm.trans hother), hspan]
                rfl

end Reader

end CodeHighlight
