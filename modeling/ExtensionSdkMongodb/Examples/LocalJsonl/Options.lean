import ExtensionSdkMongodb.Data.Text
import ExtensionSdkMongodb.Data.Utf8
import ExtensionSdkMongodb.Sdk.Error

/-!
# The options of `$readLocalJsonl`

The extension options are a JSON object or lines with keys. In lines the last one of a key decides,
also when its value cannot be read (`parseExtensionOptionsYamlLines_eq`). Whatever the options are,
the configuration has a root that is not blank and limits that are not zero
(`extensionConfig_usable`).
-/

set_option autoImplicit false

namespace ExtensionSdkMongodb.LocalJsonl

/-- `DEMO_ALLOWED_ROOT`. -/
def demoAllowedRoot : String := "/federation-data"

structure JsonlExtensionConfig where
  allowedRoot : String
  allowSymlinks : Bool
  maxLineBytes : UInt64
  maxDocumentBytes : UInt64
  deriving DecidableEq, Repr

/-- `ExtensionOptionsJson`. -/
structure ExtensionOptionsJson where
  allowedRoot : Option String
  allowSymlinks : Bool
  maxLineBytes : Option UInt64
  maxDocumentBytes : Option UInt64
  deriving DecidableEq, Repr

/-- `str::parse::<u64>`. -/
def parseU64 (s : String) : Option UInt64 :=
  let digits := match s.toList with
    | '+' :: rest => rest
    | all => all
  if digits = [] ∨ digits.any (fun c => !c.isDigit) then none
  else
    let n := digits.foldl (fun n c => 10 * n + (c.toNat - '0'.toNat)) 0
    if n < 2 ^ 64 then some (UInt64.ofNat n) else none

/-- The limit that options give, or the default, and not zero. -/
def limit (given : Option UInt64) (default : UInt64) : UInt64 := max (given.getD default) 1

/-- The values of the line form so far. -/
structure YamlOptions where
  allowedRoot : Option String := none
  allowSymlinks : Bool := false
  maxLineBytes : Option UInt64 := none
  maxDocumentBytes : Option UInt64 := none

/-- A root without the spaces and quotes around it. -/
def lineRoot (v : String) : String := trimMatches (· == '\'') (trimMatches (· == '"') (trim v))

/-- The values that switch symlinks on. -/
def lineFlag (v : String) : Bool :=
  let v := toAsciiLowercase (trim v)
  v = "true" ∨ v = "1" ∨ v = "yes"

/-- The body of the loop over the lines. -/
def yamlLine (options : YamlOptions) (line : String) : YamlOptions :=
  let s := trim line
  if s = "" ∨ s.toList.head? = some '#' then options
  else if let some v := stripPrefix "allowedRoot:" s then
    { options with allowedRoot := some (lineRoot v) }
  else if let some v := stripPrefix "allowSymlinks:" s then
    { options with allowSymlinks := lineFlag v }
  else if let some v := stripPrefix "maxLineBytes:" s then
    { options with maxLineBytes := parseU64 (trim v) }
  else if let some v := stripPrefix "maxDocumentBytes:" s then
    { options with maxDocumentBytes := parseU64 (trim v) }
  else options

/-- `parse_extension_options_yaml_lines`. -/
def parseExtensionOptionsYamlLines (text : String) : JsonlExtensionConfig :=
  let options := (lines text).foldl yamlLine {}
  { allowedRoot := (options.allowedRoot.filter fun s => trim s ≠ "").getD demoAllowedRoot
    allowSymlinks := options.allowSymlinks
    maxLineBytes := limit options.maxLineBytes 1048576
    maxDocumentBytes := limit options.maxDocumentBytes 16777216 }

/-- `parse_extension_options`. The deserializer of the JSON form is a parameter. -/
def parseExtensionOptions (optionsJson : String → Except String ExtensionOptionsJson)
    (raw : Bytes) : Except ExtensionError JsonlExtensionConfig :=
  match fromUtf8 raw with
  | .error e => .error (.runtime ("extension options are not valid UTF-8: " ++ e))
  | .ok text =>
    let t := trim text
    if t.toList.head? = some '\x7b' then
      match optionsJson t with
      | .error e => .error (.runtime ("extension options JSON: " ++ e))
      | .ok j =>
        .ok {
          allowedRoot := ((j.allowedRoot.map trim).filter (· ≠ "")).getD demoAllowedRoot
          allowSymlinks := j.allowSymlinks
          maxLineBytes := limit j.maxLineBytes 1048576
          maxDocumentBytes := limit j.maxDocumentBytes 16777216 }
    else .ok (parseExtensionOptionsYamlLines t)

/-- `demo_extension_config_fallback`. -/
def demoExtensionConfigFallback : JsonlExtensionConfig :=
  ⟨demoAllowedRoot, false, 1048576, 16777216⟩

/-- `extension_config_from_context`, by the options that the host has given. -/
def extensionConfigFromContext (optionsJson : String → Except String ExtensionOptionsJson)
    (extensionOptionsRaw : Option Bytes) : Except ExtensionError JsonlExtensionConfig :=
  match extensionOptionsRaw with
  | none => .ok demoExtensionConfigFallback
  | some raw =>
    if raw = [] then .ok demoExtensionConfigFallback else parseExtensionOptions optionsJson raw

example : parseExtensionOptionsYamlLines "# c\nmaxLineBytes: +07\nallowedRoot: \"/a b\"\n" =
    ⟨"/a b", false, 7, 16777216⟩ := by decide

/-! ## Lines with keys -/

/-- What follows a key in a line. -/
def valueOf (key line : String) : Option String := stripPrefix key (trim line)

/-- What follows a key in the last line that has it. -/
def lastValue (key : String) (lines : List String) : Option String :=
  (lines.filterMap (valueOf key)).getLast?

/-- A text does not begin with two keys that differ. -/
theorem stripPrefix_apart {first second s v : String}
    (differ : ¬ first.toList <+: second.toList ∧ ¬ second.toList <+: first.toList)
    (begins : stripPrefix first s = some v) : stripPrefix second s = none := by
  cases other : stripPrefix second s with
  | none => rfl
  | some w =>
      have one := stripPrefix_isSome_iff.mp (Option.isSome_of_eq_some begins)
      have two := stripPrefix_isSome_iff.mp (Option.isSome_of_eq_some other)
      rcases Nat.le_total first.toList.length second.toList.length with le | le
      · exact absurd (List.prefix_of_prefix_length_le one two le) differ.1
      · exact absurd (List.prefix_of_prefix_length_le two one le) differ.2

theorem stripPrefix_of_head {key s : String} {c : Char} {rest : List Char}
    (begins : key.toList = c :: rest) (other : s.toList.head? ≠ some c) :
    stripPrefix key s = none := by
  unfold stripPrefix
  rw [if_neg]
  rw [begins]
  cases text : s.toList with
  | nil => simp
  | cons d tail =>
      rw [text] at other
      simp only [List.head?_cons, ne_eq, Option.some.injEq] at other
      simp [Ne.symm other]

theorem lastValue_concat (key : String) (lines : List String) (line : String) :
    lastValue key (lines ++ [line]) = (valueOf key line).or (lastValue key lines) := by
  unfold lastValue
  rw [List.filterMap_append, List.getLast?_append]
  cases found : valueOf key line with
  | none => simp [found]
  | some v => simp [found]

/-- The texts of the keys. -/
def yamlKeys : List String :=
  ["allowedRoot:", "allowSymlinks:", "maxLineBytes:", "maxDocumentBytes:"]

/-- A line has one of the keys at most. -/
theorem valueOf_apart {first second line v : String} (one : first ∈ yamlKeys)
    (two : second ∈ yamlKeys) (differ : first ≠ second) (has : valueOf first line = some v) :
    valueOf second line = none := by
  have apart : ∀ one ∈ yamlKeys, ∀ two ∈ yamlKeys, one ≠ two →
      ¬ one.toList <+: two.toList ∧ ¬ two.toList <+: one.toList := by decide
  exact stripPrefix_apart (apart first one second two differ) has

/-- A line that is empty or a comment has no key. -/
theorem valueOf_skipped {key line : String} (known : key ∈ yamlKeys)
    (skipped : trim line = "" ∨ (trim line).toList.head? = some '#') :
    valueOf key line = none := by
  have begins : ∀ key ∈ yamlKeys, ∃ rest, key.toList = 'a' :: rest ∨ key.toList = 'm' :: rest := by
    intro key known
    simp only [yamlKeys, List.mem_cons, List.not_mem_nil, or_false] at known
    rcases known with rfl | rfl | rfl | rfl
    · exact ⟨_, .inl rfl⟩
    · exact ⟨_, .inl rfl⟩
    · exact ⟨_, .inr rfl⟩
    · exact ⟨_, .inr rfl⟩
  have head : (trim line).toList.head? ≠ some 'a' ∧ (trim line).toList.head? ≠ some 'm' := by
    rcases skipped with empty | comment
    · simp [empty]
    · simp [comment]
  obtain ⟨rest, begins | begins⟩ := begins key known
  · exact stripPrefix_of_head begins head.1
  · exact stripPrefix_of_head begins head.2

/-- What a line does to the options, key by key. -/
theorem yamlLine_eq (options : YamlOptions) (line : String) :
    yamlLine options line =
      { allowedRoot := ((valueOf "allowedRoot:" line).map lineRoot).or options.allowedRoot
        allowSymlinks := ((valueOf "allowSymlinks:" line).map lineFlag).getD options.allowSymlinks
        maxLineBytes := ((valueOf "maxLineBytes:" line).map fun v => parseU64 (trim v)).getD
          options.maxLineBytes
        maxDocumentBytes := ((valueOf "maxDocumentBytes:" line).map fun v =>
          parseU64 (trim v)).getD options.maxDocumentBytes } := by
  have root : "allowedRoot:" ∈ yamlKeys := by decide
  have flag : "allowSymlinks:" ∈ yamlKeys := by decide
  have lineBytes : "maxLineBytes:" ∈ yamlKeys := by decide
  have documentBytes : "maxDocumentBytes:" ∈ yamlKeys := by decide
  unfold yamlLine
  by_cases skipped : trim line = "" ∨ (trim line).toList.head? = some '#'
  · simp [skipped, valueOf_skipped root skipped, valueOf_skipped flag skipped,
      valueOf_skipped lineBytes skipped, valueOf_skipped documentBytes skipped]
  · rw [if_neg skipped]
    have value : ∀ key, stripPrefix key (trim line) = valueOf key line := fun _ => rfl
    simp only [value]
    cases first : valueOf "allowedRoot:" line with
    | some v =>
        simp [valueOf_apart root flag (by decide) first,
          valueOf_apart root lineBytes (by decide) first,
          valueOf_apart root documentBytes (by decide) first]
    | none =>
        cases second : valueOf "allowSymlinks:" line with
        | some v =>
            simp [valueOf_apart flag lineBytes (by decide) second,
              valueOf_apart flag documentBytes (by decide) second]
        | none =>
            cases third : valueOf "maxLineBytes:" line with
            | some v => simp [valueOf_apart lineBytes documentBytes (by decide) third]
            | none => cases valueOf "maxDocumentBytes:" line <;> rfl

/-- The options after the lines are those of the last line of each key. -/
theorem yamlLines_eq (lines : List String) :
    lines.foldl yamlLine {} =
      { allowedRoot := (lastValue "allowedRoot:" lines).map lineRoot
        allowSymlinks := (lastValue "allowSymlinks:" lines).elim false lineFlag
        maxLineBytes := (lastValue "maxLineBytes:" lines).bind fun v => parseU64 (trim v)
        maxDocumentBytes := (lastValue "maxDocumentBytes:" lines).bind fun v =>
          parseU64 (trim v) } := by
  induction lines using List.reverseRecOn with
  | nil => rfl
  | append_singleton lines line ih =>
      rw [List.foldl_append, ih, List.foldl_cons, List.foldl_nil, yamlLine_eq]
      simp only [lastValue_concat]
      cases valueOf "allowedRoot:" line <;> cases valueOf "allowSymlinks:" line <;>
        cases valueOf "maxLineBytes:" line <;> cases valueOf "maxDocumentBytes:" line <;> rfl

/-- **The last line of a key decides**, even when its value is none: an unreadable limit falls back
to the default, and not to a limit that an earlier line gave. A line counts for one key at most. -/
theorem parseExtensionOptionsYamlLines_eq (text : String) :
    parseExtensionOptionsYamlLines text =
      { allowedRoot := (((lastValue "allowedRoot:" (lines text)).map lineRoot).filter fun s =>
          trim s ≠ "").getD demoAllowedRoot
        allowSymlinks := (lastValue "allowSymlinks:" (lines text)).elim false lineFlag
        maxLineBytes := limit ((lastValue "maxLineBytes:" (lines text)).bind fun v =>
          parseU64 (trim v)) 1048576
        maxDocumentBytes := limit ((lastValue "maxDocumentBytes:" (lines text)).bind fun v =>
          parseU64 (trim v)) 16777216 } ∧
      ∀ line ∈ lines text, ∀ first ∈ yamlKeys, ∀ second ∈ yamlKeys, first ≠ second →
        (valueOf first line).isSome → valueOf second line = none := by
  constructor
  · unfold parseExtensionOptionsYamlLines
    rw [yamlLines_eq]
  · intro line _ first one second two differ has
    obtain ⟨v, has⟩ := Option.isSome_iff_exists.mp has
    exact valueOf_apart one two differ has

/-! ## Every configuration -/

/-- A configuration that files can be read with: its root is not blank, and its limits let something
through. -/
structure Usable (cfg : JsonlExtensionConfig) : Prop where
  root : trim cfg.allowedRoot ≠ ""
  lineBytes : 1 ≤ cfg.maxLineBytes
  documentBytes : 1 ≤ cfg.maxDocumentBytes

theorem one_le_limit (given : Option UInt64) (default : UInt64) : 1 ≤ limit given default := by
  change 1 ≤ if given.getD default ≤ 1 then 1 else given.getD default
  split
  · exact UInt64.le_refl 1
  · next above => exact UInt64.le_of_lt (UInt64.not_le.mp above)

theorem trim_demoAllowedRoot : trim demoAllowedRoot ≠ "" := by decide

/-- A root that is filtered, or the default, is not blank. -/
theorem root_not_blank (given : Option String) :
    trim ((given.filter fun s => trim s ≠ "").getD demoAllowedRoot) ≠ "" := by
  cases kept : given.filter fun s => trim s ≠ "" with
  | none => exact trim_demoAllowedRoot
  | some root => simpa using (Option.filter_eq_some_iff.mp kept).2

theorem parseExtensionOptionsYamlLines_usable (text : String) :
    Usable (parseExtensionOptionsYamlLines text) := by
  unfold parseExtensionOptionsYamlLines
  exact ⟨root_not_blank _, one_le_limit _ _, one_le_limit _ _⟩

theorem parseExtensionOptions_usable
    {optionsJson : String → Except String ExtensionOptionsJson} {raw : Bytes}
    {cfg : JsonlExtensionConfig} (read : parseExtensionOptions optionsJson raw = .ok cfg) :
    Usable cfg := by
  unfold parseExtensionOptions at read
  split at read
  · cases read
  · simp only at read
    split at read
    · split at read
      · cases read
      · next j _ =>
          obtain rfl := Except.ok.inj read
          refine ⟨?_, one_le_limit _ _, one_le_limit _ _⟩
          have filtered : (j.allowedRoot.map trim).filter (· ≠ "") =
              (j.allowedRoot.map trim).filter fun s => trim s ≠ "" := by
            cases j.allowedRoot with
            | none => rfl
            | some root => simp [Option.filter, trim_trim]
          simp only [filtered]
          exact root_not_blank _
    · rw [← Except.ok.inj read]
      exact parseExtensionOptionsYamlLines_usable _

/-- **Whatever the options are, the configuration is usable.** -/
theorem extensionConfig_usable {optionsJson : String → Except String ExtensionOptionsJson}
    {raw : Option Bytes} {cfg : JsonlExtensionConfig}
    (read : extensionConfigFromContext optionsJson raw = .ok cfg) : Usable cfg := by
  have fallback : Usable demoExtensionConfigFallback :=
    ⟨trim_demoAllowedRoot, by decide, by decide⟩
  unfold extensionConfigFromContext at read
  cases raw with
  | none =>
      cases read
      exact fallback
  | some raw =>
      simp only at read
      split at read
      · cases read
        exact fallback
      · exact parseExtensionOptions_usable read

end ExtensionSdkMongodb.LocalJsonl
