import CodeHighlight.Highlighter
import CodeHighlight.Proofs.Html.Block

/-!
# The built-in highlighter loses nothing

The spans of code tile it, whether a grammar finds them or not, so their lines have no overlaps and
the block that they are written as reads as the code.
-/

namespace CodeHighlight

/-- A computation fails with what fails first, and otherwise yields what its last part yields. -/
theorem Logged.result_bind {α β : Type} (m : Logged α) (f : α → Logged β) :
    (m >>= f).result = m.result.bind fun a => (f a).result := by
  obtain ⟨result, records⟩ := m
  cases result <;> rfl

/-- The three stages one after the other: tabs, spans, block. -/
theorem highlightBuiltin_result (settings : Settings) (own : Option Registry) (request : Request) :
    (highlightBuiltin settings own request).result =
      (settings.expand request.code).bind fun code =>
        (spansUnder (settings.resolve? own request.language) request.language code).result.bind
          fun list => settings.style.block list request.language request.lineOptions := by
  simp only [highlightBuiltin, Logged.result_bind]
  rfl

/-- Code without a grammar is one tile. -/
theorem tiles_plainSpans (code : Text) :
    Tiles (.ofText code) 0 (Source.ofText code).length (plainSpans code) := by
  have hlength := Source.length_ofText code
  unfold plainSpans
  by_cases hempty : code = []
  · rw [if_pos hempty, hlength, hempty]
    exact .nil 0
  · have hpositive := List.length_pos_of_ne_nil hempty
    rw [if_neg hempty, hlength]
    refine .cons ⟨.plain, code, 0, code.length⟩ [] _ ?_ ?_ (.nil _)
    · show (0 : Int) < code.length
      omega
    · show code = (Source.ofText code).slice 0 code.length
      rw [← hlength, Source.slice_zero_length, Source.text_ofText]

/-- The spans under an entry tile the code, unless the entry has no rules or a rule of its grammar
fails. -/
theorem spansUnder_failsWith_or_tiles (entry : Option Entry) (language : Option Text) (code : Text)
    (hcarries : ∀ grammar, entry = some (.grammar grammar) →
      grammar.CarriesText (.ofText code) 0 (Source.ofText code).length) :
    (∃ name, entry = some (.bare name) ∧
      (spansUnder entry language code).result = .error (.rulesMissing name)) ∨
    (∃ grammar e, entry = some (.grammar grammar) ∧
      (spansUnder entry language code).result = .error e ∧
      grammar.FailsWith (.ofText code) 0 (Source.ofText code).length e) ∨
    ∃ spans, (spansUnder entry language code).result = .ok spans ∧
      Tiles (.ofText code) 0 (Source.ofText code).length spans := by
  cases entry with
  | none => exact .inr (.inr ⟨_, rfl, tiles_plainSpans code⟩)
  | some entry =>
      cases entry with
      | bare name => exact .inl ⟨name, rfl, rfl⟩
      | grammar grammar =>
          rcases grammar.classify_failsWith_or_tiles (.ofText code) (hcarries grammar rfl) with
            ⟨e, hresult, hfails⟩ | ⟨spans, hresult, htiles⟩
          · exact .inr (.inl ⟨grammar, e, rfl, hresult, hfails⟩)
          · exact .inr (.inr ⟨spans, hresult, htiles⟩)

/-- The spans of code have a block, and its content is the code. -/
theorem exists_block_of_tiles {style : Style} (hclass : '>' ∉ style.classPrefix) {code : Text}
    {spans : List Span} (htiles : Tiles (.ofText code) 0 (Source.ofText code).length spans)
    (language : Option Text) (options : LineOptions) :
    ∃ html, style.block spans language options = .ok html ∧
      Html.content style.classPrefix html = code := by
  obtain ⟨html, hblock, hreads⟩ :=
    Style.exists_block hclass htiles.overlap?_splitLines language options
  refine ⟨html, hblock, ?_⟩
  have hcontent := hreads []
  rw [List.append_nil, htiles.texts_eq (Int.le_refl 0), Source.slice_zero_length,
    Source.text_ofText] at hcontent
  rw [hcontent]
  exact List.append_nil code

/-- A tab width that fits 32 bits is accepted. -/
theorem Settings.expand_eq (settings : Settings) (code : Text)
    (htab : ∀ width, settings.tabWidth = some width → -0x80000000 ≤ width ∧ width < 0x80000000) :
    settings.expand code = .ok (match settings.tabWidth with
      | none => code
      | some width => if width = 0 then code else code.expandTabs width) := by
  unfold expand
  cases hwidth : settings.tabWidth with
  | none => rfl
  | some width =>
      by_cases hzero : width = 0
      · simp only [hzero, if_true]
      · simp only [if_neg hzero, if_pos (htab width hwidth)]

/-- Whatever is asked of the lines and of the classes, the built-in highlighter returns markup whose
content is the code with its tabs expanded.  Nothing keeps it from returning but an entry without
rules, which fails at once, and a rule of the caller's own that fails. -/
theorem highlightBuiltin_content (settings : Settings) (own : Option Registry) (request : Request)
    {expanded : Text} (hclass : '>' ∉ settings.classPrefix)
    (htab : ∀ width, settings.tabWidth = some width → -0x80000000 ≤ width ∧ width < 0x80000000)
    (hexpanded : expanded = match settings.tabWidth with
      | none => request.code
      | some width => if width = 0 then request.code else request.code.expandTabs width)
    (hcarries : ∀ grammar, settings.resolve? own request.language = some (.grammar grammar) →
      grammar.CarriesText (.ofText expanded) 0 (Source.ofText expanded).length) :
    (∃ name, settings.resolve? own request.language = some (.bare name) ∧
      (highlightBuiltin settings own request).result = .error (.rulesMissing name)) ∨
    (∃ grammar e, settings.resolve? own request.language = some (.grammar grammar) ∧
      (highlightBuiltin settings own request).result = .error e ∧
      grammar.FailsWith (.ofText expanded) 0 (Source.ofText expanded).length e) ∨
    ∃ html, (highlightBuiltin settings own request).result = .ok html ∧
      Html.content settings.classPrefix html = expanded := by
  have hexpand : settings.expand request.code = .ok expanded := by
    rw [settings.expand_eq request.code htab, hexpanded]
  -- The tabs are expanded, so the spans and their block are left.
  have hrest : (highlightBuiltin settings own request).result =
      (spansUnder (settings.resolve? own request.language) request.language expanded).result.bind
        fun list => settings.style.block list request.language request.lineOptions := by
    rw [highlightBuiltin_result, hexpand]
    rfl
  rw [hrest]
  rcases spansUnder_failsWith_or_tiles (settings.resolve? own request.language) request.language
      expanded hcarries with
    ⟨name, hentry, hresult⟩ | ⟨grammar, e, hentry, hresult, hfails⟩ | ⟨spans, hresult, htiles⟩
  · rw [hresult]
    exact .inl ⟨name, hentry, rfl⟩
  · rw [hresult]
    exact .inr (.inl ⟨grammar, e, hentry, rfl, hfails⟩)
  · rw [hresult]
    have hstyle : '>' ∉ settings.style.classPrefix := hclass
    exact .inr (.inr
      (exists_block_of_tiles hstyle htiles request.language request.lineOptions))

/-- A registry with a grammar whose marker stretches over markup characters. -/
theorem highlightBuiltin_content_marker :
    let grammar : Grammar := { Grammar.protobuf with
      rules := .marker ⟨['~'], "literal".toList, 0, .length 2⟩ :: Grammar.defaultRules }
    let settings : Settings :=
      ⟨"hl-".toList, false, some ⟨[.grammar grammar], [("proto".toList, .grammar grammar)]⟩, some 4⟩
    let request : Request := ⟨['\t', '~', '<', '\n'], some "proto".toList, some [1], true⟩
    let expanded : Text := [' ', ' ', ' ', ' ', '~', '<', '\n']
    settings.resolve? none request.language = some (.grammar grammar) ∧
    grammar.CarriesText (.ofText expanded) 0 (Source.ofText expanded).length ∧
    ∃ html, (highlightBuiltin settings none request).result = .ok html ∧
      Html.content settings.classPrefix html = expanded := by
  intro grammar settings request expanded
  have hmarkers : grammar.OnlyMarkers :=
    .of_rules [⟨['~'], "literal".toList, 0, .length 2⟩] Grammar.defaultRules rfl
      Grammar.custom_not_mem_defaultRules (by decide)
  have hcarries : grammar.CarriesText (.ofText expanded) 0 (Source.ofText expanded).length :=
    hmarkers.carriesText (Int.le_refl 0) (Int.le_refl _)
  have hentry : settings.resolve? none request.language = some (.grammar grammar) := rfl
  have hsame : ∀ other, settings.resolve? none request.language = some (.grammar other) →
      other = grammar :=
    fun other h => Entry.grammar.inj (Option.some.inj (h.symm.trans hentry))
  have htab : ∀ width, settings.tabWidth = some width →
      -0x80000000 ≤ width ∧ width < 0x80000000 := by
    intro width h
    obtain rfl := Option.some.inj h
    decide
  rcases @highlightBuiltin_content settings none request expanded (by decide) htab (by decide)
      (fun other h => hsame other h ▸ hcarries) with
    ⟨name, hbare, -⟩ | ⟨other, e, hother, -, hfails⟩ | hcontent
  · cases hbare.symm.trans hentry
  · rw [hsame other hother] at hfails
    exact absurd hfails (hmarkers.not_failsWith (Int.le_refl 0) (Int.le_refl _) e)
  · exact ⟨hentry, hcarries, hcontent⟩

end CodeHighlight
