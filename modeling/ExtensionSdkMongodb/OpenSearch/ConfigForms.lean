import ExtensionSdkMongodb.Data.Utf8
import ExtensionSdkMongodb.Library.Url
import ExtensionSdkMongodb.OpenSearch.Config

/-!
# The two forms of the configuration

The same endpoints can be written as a JSON object or as a line, with other lines around it, quotes
and spaces. Both forms parse to the list that was written (`parseConfig_forms`).

The lines are taken from the trimmed text and trimmed again, so that an indented line counts as much
as one that is not (`indented_line_taken`).
-/

set_option autoImplicit false

namespace ExtensionSdkMongodb.OpenSearch

/-! ## Lines -/

/-- The lines matter only as far as trimming leaves them. -/
theorem lineConfig_congr {first second : List String} (same : first.map trim = second.map trim) :
    lineConfig first = lineConfig second := by
  induction first generalizing second with
  | nil =>
      cases second with
      | nil => rfl
      | cons line rest => simp at same
  | cons line first ih =>
      cases second with
      | nil => simp at same
      | cons line' second =>
          simp only [List.map_cons, List.cons.injEq] at same
          simp only [lineConfig, same.1, ih same.2]

/-- A blank line can be left out. -/
theorem lineConfig_blank {line : String} (blank : trim line = "") (lines : List String) :
    lineConfig (line :: lines) = lineConfig lines := by
  simp [lineConfig, blank]

theorem lineConfig_concat_blank {line : String} (blank : trim line = "") (lines : List String) :
    lineConfig (lines ++ [line]) = lineConfig lines := by
  induction lines with
  | nil => rw [List.nil_append, lineConfig_blank blank]
  | cons first lines ih => simp only [List.cons_append, lineConfig, ih]

theorem trim_empty : trim (.ofList []) = "" := rfl

/-- The text between newlines. -/
def pieces (text : List Char) : List String := (text.splitOn '\n').map String.ofList

theorem trim_withoutReturn (line : List Char) :
    trim (.ofList (withoutReturn line)) = trim (.ofList line) := by
  unfold withoutReturn
  split
  · next ends =>
    obtain ⟨front, rfl⟩ := List.getLast?_eq_some_iff.mp ends
    rw [List.dropLast_concat, trim_concat (by decide)]
  · rfl

theorem lineConfig_lines (s : String) : lineConfig (lines s) = lineConfig (pieces s.toList) := by
  have nonempty := List.splitOn_ne_nil '\n' s.toList
  obtain ⟨front, last, parts⟩ :
      ∃ front last, s.toList.splitOn '\n' = front ++ [last] :=
    ⟨_, _, (List.dropLast_append_getLast nonempty).symm⟩
  have fronts : ((front.map withoutReturn).map String.ofList).map trim =
      (front.map String.ofList).map trim := by
    simp only [List.map_map]
    exact List.map_congr_left fun line _ => trim_withoutReturn line
  simp only [lines, pieces, parts, List.getLast?_concat, List.dropLast_concat, List.map_append]
  cases last with
  | nil =>
      have blank : lineConfig (front.map String.ofList ++ [""]) =
          lineConfig (front.map String.ofList) := lineConfig_concat_blank trim_empty _
      have none : (some ([] : List Char)).filter (fun line => !line.isEmpty) = none := rfl
      refine Eq.trans (lineConfig_congr ?_) blank.symm
      rw [none, Option.toList_none, List.map_nil, List.append_nil, fronts]
  | cons c rest =>
      refine lineConfig_congr ?_
      rw [List.map_append, fronts]
      simp

theorem lineConfig_pieces_cons {c : Char} (white : whiteSpace c = true) (text : List Char) :
    lineConfig (pieces (c :: text)) = lineConfig (pieces text) := by
  rw [pieces, List.splitOn_cons_eq_if_modifyHead]
  by_cases newline : c = '\n'
  · simp only [newline, beq_self_eq_true, if_true, List.map_cons]
    exact lineConfig_blank trim_empty _
  · simp only [beq_iff_eq, newline, if_false, pieces]
    obtain ⟨first, rest, same⟩ := List.exists_cons_of_ne_nil (List.splitOn_ne_nil '\n' text)
    refine lineConfig_congr ?_
    rw [same]
    simp only [List.modifyHead_cons, List.map_cons, trim_cons white]

theorem lineConfig_pieces_concat {c : Char} (white : whiteSpace c = true) (text : List Char) :
    lineConfig (pieces (text ++ [c])) = lineConfig (pieces text) := by
  by_cases newline : c = '\n'
  · subst newline
    rw [pieces, List.splitOn_append_cons_self, List.splitOn_nil, List.map_append]
    exact lineConfig_concat_blank trim_empty _
  · obtain ⟨front, last, before, after⟩ := splitOn_concat newline text
    refine lineConfig_congr ?_
    rw [pieces, pieces, before, after]
    simp only [List.map_append, List.map_cons, List.map_nil, trim_concat white]

/-- Trimming the text changes nothing. -/
theorem lineConfig_pieces_trim (s : String) :
    lineConfig (pieces (trim s).toList) = lineConfig (pieces s.toList) := by
  have front : ∀ text : List Char,
      lineConfig (pieces (text.dropWhile whiteSpace)) = lineConfig (pieces text) := by
    intro text
    induction text with
    | nil => rfl
    | cons c text ih =>
        by_cases white : whiteSpace c = true
        · rw [List.dropWhile_cons_of_pos white, ih, lineConfig_pieces_cons white]
        · rw [List.dropWhile_cons_of_neg white]
  have back : ∀ text : List Char,
      lineConfig (pieces (text.rdropWhile whiteSpace)) = lineConfig (pieces text) := by
    intro text
    induction text using List.reverseRecOn with
    | nil => rfl
    | append_singleton text c ih =>
        by_cases white : whiteSpace c = true
        · rw [List.rdropWhile_concat_pos _ _ _ white, ih, lineConfig_pieces_concat white]
        · rw [List.rdropWhile_concat_neg _ _ _ white]
  rw [trim, trimMatches, String.toList_ofList, back, front]

/-! ## The line form -/

/-- What a configuration may hold of an endpoint: a URL of the two schemes without the characters
that either form gives a meaning. -/
structure Clean (endpoint : String) : Prop where
  url : httpUrl endpoint = true
  noComma : ',' ∉ endpoint.toList
  noDouble : '"' ∉ endpoint.toList
  noSingle : '\'' ∉ endpoint.toList
  noBackslash : '\\' ∉ endpoint.toList
  noControl : ∀ c ∈ endpoint.toList, 0x20 ≤ c.toNat ∧ ¬ (0x7F ≤ c.toNat ∧ c.toNat < 0xA0)
  trimmed : trim endpoint = endpoint

/-- White space inside a line. -/
def Spaces (spaces : List Char) : Prop := ∀ c ∈ spaces, whiteSpace c = true ∧ c ≠ '\n'

/-- The quotes around an entry. -/
inductive Quotes where
  | absent
  | double
  | single
  deriving DecidableEq, Repr

def Quotes.text : Quotes → List Char
  | .absent => []
  | .double => ['"']
  | .single => ['\'']

/-- An entry of the line form. -/
structure LineEntry where
  before : List Char
  quotes : Quotes
  endpoint : String
  after : List Char
  beforeSpaces : Spaces before
  afterSpaces : Spaces after

def LineEntry.text (entry : LineEntry) : List Char :=
  entry.before ++ (entry.quotes.text ++ entry.endpoint.toList ++ entry.quotes.text) ++ entry.after

/-- A text without newline. -/
structure Line where
  text : List Char
  single : '\n' ∉ text

/-- After white space the line does not begin with `endpoints:`. -/
def Line.Other (line : Line) : Prop := ¬ "endpoints:".toList <+: line.text.dropWhile whiteSpace

/-- The line form of a configuration. -/
structure LineForm where
  preamble : List Line
  indent : List Char
  entries : List LineEntry
  further : List Line
  indentSpaces : Spaces indent
  others : ∀ line ∈ preamble, line.Other

namespace LineForm

def entriesText (form : LineForm) : List Char := [','].intercalate (form.entries.map LineEntry.text)

def lineTexts (form : LineForm) : List (List Char) :=
  form.preamble.map Line.text ++
    (form.indent ++ "endpoints:".toList ++ form.entriesText) :: form.further.map Line.text

/-- The text: the lines with a newline between them. -/
def text (form : LineForm) : String := .ofList (['\n'].intercalate form.lineTexts)

/-- The endpoints, in the order of the entries. -/
def endpoints (form : LineForm) : List String := form.entries.map LineEntry.endpoint

end LineForm

/-! ### Entries -/

theorem Clean.nonempty {endpoint : String} (clean : Clean endpoint) : endpoint.toList ≠ [] := by
  intro empty
  have none : endpoint = "" := String.toList_eq_nil_iff.mp empty
  have url := clean.url
  rw [none] at url
  revert url
  decide

theorem notMem_false {c : Char} {text : List Char} (absent : c ∉ text) :
    ∀ d ∈ text, (d == c) = false := by
  intro d member
  simpa using Url.bne_of_notMem absent d member

/-- **An entry is read as its endpoint.** -/
theorem lineEndpoint_text (entry : LineEntry) (clean : Clean entry.endpoint) :
    lineEndpoint (.ofList entry.text) = entry.endpoint := by
  have nonempty := clean.nonempty
  obtain ⟨first, last⟩ := ends_of_trimMatches clean.trimmed nonempty
  have double := notMem_false clean.noDouble
  have single := notMem_false clean.noSingle
  have trimmed : trim (.ofList entry.text) =
      .ofList (entry.quotes.text ++ entry.endpoint.toList ++ entry.quotes.text) := by
    refine trimMatches_around (fun c member => (entry.beforeSpaces c member).1)
      (fun c member => (entry.afterSpaces c member).1) (by simp [nonempty]) ?_ ?_
    · cases entry.quotes with
      | absent => simpa [Quotes.text] using first
      | double => rfl
      | single => rfl
    · cases entry.quotes with
      | absent => simpa [Quotes.text] using last
      | double => simp [Quotes.text]; rfl
      | single => simp [Quotes.text]; rfl
  have unquoted := trimMatches_of_kept single nonempty
  rw [lineEndpoint, trimmed]
  cases entry.quotes with
  | absent =>
      have whole : ([] : List Char) ++ entry.endpoint.toList ++ [] = entry.endpoint.toList := by
        simp
      rw [Quotes.text, whole, String.ofList_toList, trimMatches_of_kept double nonempty, unquoted]
  | double =>
      rw [Quotes.text, trimMatches_between double nonempty (by simp), String.ofList_toList,
        unquoted]
  | single =>
      have kept : ∀ c ∈ (String.ofList (['\''] ++ entry.endpoint.toList ++ ['\''])).toList,
          (c == '"') = false := by
        intro c member
        rw [String.toList_ofList] at member
        simp only [List.mem_append, List.mem_singleton] at member
        rcases member with (rfl | inside) | rfl
        · rfl
        · exact double c inside
        · rfl
      rw [Quotes.text, trimMatches_of_kept kept (by simp),
        trimMatches_between single nonempty (by simp), String.ofList_toList]

/-- An entry has neither a comma nor a newline. -/
theorem notMem_entryText (entry : LineEntry) (clean : Clean entry.endpoint) :
    ',' ∉ entry.text ∧ '\n' ∉ entry.text := by
  have spaces : ∀ {text : List Char}, Spaces text → ',' ∉ text ∧ '\n' ∉ text := by
    intro text white
    refine ⟨fun member => ?_, fun member => (white _ member).2 rfl⟩
    have comma := (white _ member).1
    revert comma
    decide
  have quotes : ',' ∉ entry.quotes.text ∧ '\n' ∉ entry.quotes.text := by
    cases entry.quotes <;> decide
  have newline : '\n' ∉ entry.endpoint.toList := by
    intro member
    have printable := (clean.noControl _ member).1
    revert printable
    decide
  have before := spaces entry.beforeSpaces
  have after := spaces entry.afterSpaces
  simp only [LineEntry.text, List.mem_append, not_or]
  exact ⟨⟨⟨before.1, ⟨quotes.1, clean.noComma⟩, quotes.1⟩, after.1⟩,
    ⟨before.2, ⟨quotes.2, newline⟩, quotes.2⟩, after.2⟩

/-! ### Lines of the form -/

theorem trim_begins (text : List Char) :
    (trim (.ofList text)).toList <+: text.dropWhile whiteSpace := by
  rw [trim, trimMatches, String.toList_ofList, String.toList_ofList]
  exact List.rdropWhile_prefix _ _

/-- A line that does not begin with `endpoints:` is passed over. -/
theorem lineConfig_other {line : Line} (other : line.Other) (lines : List String) :
    lineConfig (.ofList line.text :: lines) = lineConfig lines := by
  have none : stripPrefix "endpoints:" (trim (.ofList line.text)) = none := by
    rw [← Option.not_isSome_iff_eq_none, stripPrefix_isSome_iff]
    exact fun begins => other (begins.trans (trim_begins line.text))
  simp only [lineConfig, none]
  split <;> rfl

theorem lineConfig_others {preamble : List Line} (others : ∀ line ∈ preamble, line.Other)
    (lines : List String) :
    lineConfig ((preamble.map Line.text).map String.ofList ++ lines) = lineConfig lines := by
  induction preamble with
  | nil => rfl
  | cons line preamble ih =>
      obtain ⟨other, rest⟩ := List.forall_mem_cons.mp others
      rw [List.map_cons, List.map_cons, List.cons_append, lineConfig_other other, ih rest]

/-- The line with the entries, trimmed. -/
theorem trim_entriesLine {indent : List Char} (spaces : Spaces indent) (text : List Char) :
    trim (.ofList (indent ++ "endpoints:".toList ++ text)) =
      .ofList ("endpoints:".toList ++ text.rdropWhile whiteSpace) := by
  have front : (indent ++ ("endpoints:".toList ++ text)).dropWhile whiteSpace =
      "endpoints:".toList ++ text := by
    rw [List.dropWhile_append_of_pos fun c member => (spaces c member).1]
    rfl
  rw [trim, trimMatches, String.toList_ofList, List.append_assoc, front,
    Url.rdropWhile_append (by decide)]

/-! ### Endpoints -/

theorem configFromEndpoints_of_clean {endpoints : List String} (nonempty : endpoints ≠ [])
    (clean : ∀ e ∈ endpoints, Clean e) : configFromEndpoints endpoints = .ok ⟨endpoints⟩ := by
  have valid : endpoints.find? (fun endpoint => !httpUrl endpoint) = none := by
    rw [List.find?_eq_none]
    intro e member
    simp [(clean e member).url]
  simp [configFromEndpoints, nonempty, valid]

theorem lineEndpoints_entries {entries : List LineEntry} (nonempty : entries ≠ [])
    (clean : ∀ entry ∈ entries, Clean entry.endpoint) :
    ((splitAt ',' (.ofList (([','].intercalate (entries.map LineEntry.text)).rdropWhile
        whiteSpace))).map lineEndpoint) = entries.map LineEntry.endpoint := by
  have noComma : ∀ text ∈ entries.map LineEntry.text, ',' ∉ text := by
    intro text member
    obtain ⟨entry, inside, rfl⟩ := List.mem_map.mp member
    exact (notMem_entryText entry (clean entry inside)).1
  have split := List.splitOn_intercalate ',' noComma (by simpa using nonempty)
  have comma : whiteSpace ',' = false := by decide
  have trimmed := trim_splitOn_rdropWhile comma ([','].intercalate (entries.map LineEntry.text))
  rw [split] at trimmed
  have unquoted := congrArg
    (List.map fun s => trimMatches (· == '\'') (trimMatches (· == '"') s)) trimmed
  simp only [List.map_map] at unquoted
  rw [splitAt, String.toList_ofList, List.map_map]
  refine unquoted.trans (List.map_congr_left fun entry member => ?_)
  exact lineEndpoint_text entry (clean entry member)

/-- **The lines of the form are read as its endpoints.** -/
theorem lineConfig_form (form : LineForm) (nonempty : form.entries ≠ [])
    (clean : ∀ entry ∈ form.entries, Clean entry.endpoint) :
    lineConfig (form.lineTexts.map String.ofList) = .ok ⟨form.endpoints⟩ := by
  have entries := lineEndpoints_entries nonempty clean
  have kept : form.endpoints.filter (· ≠ "") = form.endpoints := by
    rw [List.filter_eq_self]
    intro e member
    obtain ⟨entry, inside, rfl⟩ := List.mem_map.mp member
    have nonempty := (clean entry inside).nonempty
    simpa [String.toList_eq_nil_iff] using nonempty
  have valid : configFromEndpoints form.endpoints = .ok ⟨form.endpoints⟩ := by
    refine configFromEndpoints_of_clean (by simpa [LineForm.endpoints] using nonempty) ?_
    intro e member
    obtain ⟨entry, inside, rfl⟩ := List.mem_map.mp member
    exact clean entry inside
  rw [LineForm.lineTexts, List.map_append, lineConfig_others form.others, List.map_cons]
  simp only [lineConfig, trim_entriesLine form.indentSpaces, stripPrefix_append,
    LineForm.entriesText, entries]
  have begins : ¬ (String.ofList ("endpoints:".toList ++
        ([','].intercalate (form.entries.map LineEntry.text)).rdropWhile whiteSpace) = "" ∨
      (String.ofList ("endpoints:".toList ++
        ([','].intercalate (form.entries.map LineEntry.text)).rdropWhile
          whiteSpace)).toList.head? = some '#') := by
    rw [String.toList_ofList]
    simp
  rw [if_neg begins]
  exact (congrArg configFromEndpoints kept).trans valid

/-- No line of the form has a newline. -/
theorem notMem_lineTexts (form : LineForm) (clean : ∀ entry ∈ form.entries, Clean entry.endpoint) :
    ∀ text ∈ form.lineTexts, '\n' ∉ text := by
  intro text member
  simp only [LineForm.lineTexts, List.mem_append, List.mem_cons, List.mem_map] at member
  rcases member with ⟨line, _, rfl⟩ | rfl | ⟨line, _, rfl⟩
  · exact line.single
  · simp only [List.mem_append, not_or]
    refine ⟨⟨fun inside => (form.indentSpaces _ inside).2 rfl, by decide⟩, fun inside => ?_⟩
    rcases mem_intercalate inside with comma | ⟨piece, among, found⟩
    · revert comma
      decide
    · obtain ⟨entry, member, rfl⟩ := List.mem_map.mp among
      exact (notMem_entryText entry (clean entry member)).2 found
  · exact line.single

/-! ## Parsing -/

theorem lineConfig_checks {lines : List String} {config : OpenSearchConfig}
    (parsed : lineConfig lines = .ok config) :
    ∃ endpoints, configFromEndpoints endpoints = .ok config := by
  induction lines with
  | nil => cases parsed
  | cons line lines ih =>
      simp only [lineConfig] at parsed
      split at parsed
      · exact ih parsed
      · split at parsed
        · exact ih parsed
        · exact ⟨_, parsed⟩

theorem jsonConfig_checks {value : Json} {config : OpenSearchConfig}
    (parsed : jsonConfig value = .ok config) :
    ∃ endpoints, configFromEndpoints endpoints = .ok config := by
  unfold jsonConfig at parsed
  split at parsed
  · cases parsed
  · next items _ =>
    cases read : items.mapM jsonEndpoint with
    | error e => simp [read, bind, Except.bind] at parsed
    | ok endpoints => exact ⟨endpoints, by simpa [read, bind, Except.bind] using parsed⟩

/-- A configuration that parses has endpoints, and they are URLs of the two schemes. -/
theorem parseConfig_ok {readers : OptionReaders} {raw : Option Bytes} {config : OpenSearchConfig}
    (parsed : parseConfig readers raw = .ok config) :
    config.endpoints ≠ [] ∧ ∀ e ∈ config.endpoints, httpUrl e = true := by
  have checks : ∃ endpoints, configFromEndpoints endpoints = .ok config := by
    cases raw with
    | none => cases parsed
    | some raw =>
        simp only [parseConfig] at parsed
        split at parsed
        · cases parsed
        · split at parsed
          · split at parsed
            · cases parsed
            · exact jsonConfig_checks parsed
          · exact lineConfig_checks parsed
  obtain ⟨endpoints, checked⟩ := checks
  obtain ⟨same, nonempty, valid⟩ := configFromEndpoints_ok checked
  rw [same]
  exact ⟨nonempty, valid⟩

theorem mapM_jsonEndpoint {endpoints : List String} (clean : ∀ e ∈ endpoints, Clean e) :
    (endpoints.map Json.string).mapM jsonEndpoint = .ok endpoints := by
  induction endpoints with
  | nil => rfl
  | cons e endpoints ih =>
      obtain ⟨first, rest⟩ := List.forall_mem_cons.mp clean
      have nonempty : e ≠ "" := by
        rintro rfl
        exact first.nonempty rfl
      have read : jsonEndpoint (.string e) = .ok e := by
        simp [jsonEndpoint, Json.asStr, first.trimmed, nonempty]
      rw [List.map_cons, List.mapM_cons, read, ih rest]
      rfl

/-- **Both forms of a configuration are read as the endpoints written in them.** -/
theorem parseConfig_forms (readers : OptionReaders) :
    (∀ raw config, parseConfig readers raw = .ok config →
      config.endpoints ≠ [] ∧ ∀ e ∈ config.endpoints, httpUrl e = true) ∧
    (∀ endpoints raw text value, endpoints ≠ [] → (∀ e ∈ endpoints, Clean e) →
      readers.fromUtf8 raw = .ok text → (trim text).toList.head? = some '\x7b' →
      readers.fromStr (trim text) = .ok value →
      value.get "endpoints" = some (.array (endpoints.map .string)) →
      parseConfig readers (some raw) = .ok ⟨endpoints⟩) ∧
    ∀ (form : LineForm) raw, form.entries ≠ [] → (∀ entry ∈ form.entries, Clean entry.endpoint) →
      readers.fromUtf8 raw = .ok form.text → (trim form.text).toList.head? ≠ some '\x7b' →
      parseConfig readers (some raw) = .ok ⟨form.endpoints⟩ := by
  refine ⟨fun raw config => parseConfig_ok, ?_, ?_⟩
  · intro endpoints raw text value nonempty clean read brace json items
    rw [parseConfig, read]
    simp only [brace, if_true, json]
    simp only [jsonConfig, items, Option.bind_some, Json.asArray, mapM_jsonEndpoint clean, bind,
      Except.bind]
    exact configFromEndpoints_of_clean nonempty clean
  · intro form raw nonempty clean read noBrace
    have texts : form.lineTexts ≠ [] := by simp [LineForm.lineTexts]
    have split := List.splitOn_intercalate '\n' (notMem_lineTexts form clean) texts
    rw [parseConfig, read]
    simp only [noBrace, if_false]
    rw [lineConfig_lines, lineConfig_pieces_trim, pieces, LineForm.text, String.toList_ofList,
      split, lineConfig_form form nonempty clean]

/-- A configuration whose second line is indented. -/
def indentedConfig : String := "# local\n  endpoints: http://a\nendpoints: http://b"

/-- A line that begins with a space and not with `endpoints:` is taken before one that does. -/
theorem indented_line_taken :
    ¬ "endpoints:".toList <+: "  endpoints: http://a".toList ∧
      parseConfig ⟨fun raw => .ok (fromUtf8Lossy raw), fun _ => .error ""⟩
          (some (asBytes indentedConfig)) = .ok ⟨["http://a"]⟩ ∧
      parseConfig ⟨fun raw => .ok (fromUtf8Lossy raw), fun _ => .error ""⟩
          (some (asBytes indentedConfig)) ≠ .ok ⟨["http://b"]⟩ := by
  have lines : lineConfig (lines (trim indentedConfig)) = .ok ⟨["http://a"]⟩ := by decide
  have brace : (trim indentedConfig).toList.head? ≠ some '\x7b' := by decide
  have taken : parseConfig ⟨fun raw => .ok (fromUtf8Lossy raw), fun _ => .error ""⟩
      (some (asBytes indentedConfig)) = .ok ⟨["http://a"]⟩ := by
    simp only [parseConfig, fromUtf8Lossy_asBytes, brace, if_false, lines]
  refine ⟨by decide, taken, ?_⟩
  rw [taken]
  decide

end ExtensionSdkMongodb.OpenSearch
