import Mathlib.Data.List.DropRight

/-!
# Texts

The string operations of the Rust standard library that the extensions use: trimming, lines,
prefixes, separators and the debug format.
-/

set_option autoImplicit false

namespace ExtensionSdkMongodb

/-- The characters with the Unicode property `White_Space`. -/
def whiteSpace (c : Char) : Bool :=
  let n := c.toNat
  (9 ≤ n && n ≤ 13) || n == 0x20 || n == 0x85 || n == 0xA0 || n == 0x1680 ||
    (0x2000 ≤ n && n ≤ 0x200A) || n == 0x2028 || n == 0x2029 || n == 0x202F || n == 0x205F ||
    n == 0x3000

/-- `trim_matches`: drop the characters at both ends that satisfy the predicate. -/
def trimMatches (p : Char → Bool) (s : String) : String :=
  .ofList ((s.toList.dropWhile p).rdropWhile p)

/-- `trim`. -/
def trim (s : String) : String := trimMatches whiteSpace s

/-- `trim_end_matches`. -/
def trimEndMatches (p : Char → Bool) (s : String) : String := .ofList (s.toList.rdropWhile p)

/-- `strip_prefix`. -/
def stripPrefix (head s : String) : Option String :=
  if head.toList.isPrefixOf s.toList then some (.ofList (s.toList.drop head.toList.length))
  else none

/-- `split` at every occurrence of a character. -/
def splitAt (separator : Char) (s : String) : List String :=
  (s.toList.splitOn separator).map String.ofList

/-- `to_ascii_lowercase`. -/
def toAsciiLowercase (s : String) : String := .ofList (s.toList.map Char.toLower)

/-- A line without the carriage return at its end. -/
def withoutReturn (line : List Char) : List Char :=
  if line.getLast? = some '\r' then line.dropLast else line

/-- `lines`: a newline ends a line, and what follows the last one is a line unless it is empty. -/
def lines (s : String) : List String :=
  let parts := s.toList.splitOn '\n'
  let rest := (parts.getLast?.filter fun line => !line.isEmpty).toList
  (parts.dropLast.map withoutReturn ++ rest).map String.ofList

example : trim "\t a b \n" = "a b" ∧ lines "a\r\n\nb\n" = ["a", "", "b"] := by decide

/-! ## The debug format -/

/-- The Unicode tables of the standard library, `is_printable` and `is_grapheme_extended`. They
depend on its version, but not for ASCII. -/
structure UnicodeTables where
  isPrintable : Char → Bool
  isGraphemeExtended : Char → Bool

/-- Tables that print ASCII only. -/
def UnicodeTables.ascii : UnicodeTables where
  isPrintable c := 32 ≤ c.toNat && c.toNat < 127
  isGraphemeExtended _ := false

section Debug

variable (unicode : UnicodeTables)

/-- `escape_unicode`: the code point in hexadecimal, without leading zeros. -/
def escapeUnicode (c : Char) : String :=
  "\\u\x7b" ++ String.ofList (Nat.toDigits 16 c.toNat) ++ "\x7d"

/-- `escape_debug_ext` of a character of a string. -/
def escapeDebug (c : Char) : String :=
  if c.toNat = 0 then "\\0"
  else if c = '\t' then "\\t"
  else if c = '\r' then "\\r"
  else if c = '\n' then "\\n"
  else if c = '\\' then "\\\\"
  else if c = '"' then "\\\""
  else if c.toNat < 128 then if c.toNat < 32 ∨ c.toNat = 127 then escapeUnicode c else c.toString
  else if unicode.isGraphemeExtended c then escapeUnicode c
  else if unicode.isPrintable c then c.toString
  else escapeUnicode c

/-- The debug format of a string. -/
def debugString (s : String) : String :=
  "\"" ++ String.join (s.toList.map (escapeDebug unicode)) ++ "\""

end Debug

example : debugString .ascii "_\"\u0301" = "\"_\\\"\\u\x7b301\x7d\"" := by decide

/-! ## Trimming -/

/-- What is left after dropping from the front does not begin with a dropped character, and
neither does a prefix of it. -/
theorem dropWhile_kept (p : Char → Bool) {kept l : List Char}
    (start : kept <+: l.dropWhile p) : kept.dropWhile p = kept := by
  cases kept with
  | nil => rfl
  | cons c rest =>
      obtain ⟨tail, same⟩ := start
      have stops := List.head?_dropWhile_not p l
      rw [← same] at stops
      have keeps : p c = false := by simpa using stops
      simp [keeps]

/-- Trimming a trimmed text changes nothing. -/
theorem trimMatches_trimMatches (p : Char → Bool) (s : String) :
    trimMatches p (trimMatches p s) = trimMatches p s := by
  have start := List.rdropWhile_prefix p (s.toList.dropWhile p)
  have front : ((s.toList.dropWhile p).rdropWhile p).dropWhile p =
      (s.toList.dropWhile p).rdropWhile p := dropWhile_kept p start
  simp only [trimMatches, String.toList_ofList, front, List.rdropWhile_idempotent]

@[simp] theorem trim_trim (s : String) : trim (trim s) = trim s := trimMatches_trimMatches _ s

/-- A text that begins and ends with kept characters is what trimming leaves of it with dropped
characters around it. -/
theorem trimMatches_around {p : Char → Bool} {before kept after : List Char}
    (front : ∀ c ∈ before, p c = true) (back : ∀ c ∈ after, p c = true) (nonempty : kept ≠ [])
    (first : p (kept.head nonempty) = false) (last : p (kept.getLast nonempty) = false) :
    trimMatches p (.ofList (before ++ kept ++ after)) = .ofList kept := by
  have start : (before ++ kept ++ after).dropWhile p = kept ++ after := by
    rw [List.append_assoc, List.dropWhile_append_of_pos front]
    obtain ⟨c, rest, rfl⟩ := List.exists_cons_of_ne_nil nonempty
    exact List.dropWhile_cons_of_neg (by simpa using first)
  have finish : (kept ++ after).rdropWhile p = kept.rdropWhile p := by
    rw [List.rdropWhile, List.reverse_append, List.dropWhile_append_of_pos (by simpa using back),
      List.rdropWhile]
  have whole : kept.rdropWhile p = kept := by
    rw [List.rdropWhile_eq_self_iff]
    simp [last]
  rw [trimMatches, String.toList_ofList, start, finish, whole]

/-- A text without dropped characters is what trimming leaves of it between dropped ones. -/
theorem trimMatches_between {p : Char → Bool} {kept : List Char} (keeps : ∀ c ∈ kept, p c = false)
    (nonempty : kept ≠ []) {around : List Char} (dropped : ∀ c ∈ around, p c = true) :
    trimMatches p (.ofList (around ++ kept ++ around)) = .ofList kept :=
  trimMatches_around dropped dropped nonempty (keeps _ (List.head_mem nonempty))
    (keeps _ (List.getLast_mem nonempty))

/-- A text without dropped characters is left as it is. -/
theorem trimMatches_of_kept {p : Char → Bool} {s : String} (keeps : ∀ c ∈ s.toList, p c = false)
    (nonempty : s.toList ≠ []) : trimMatches p s = s := by
  have nothing : ∀ c ∈ ([] : List Char), p c = true := by simp
  have whole := trimMatches_between keeps nonempty nothing
  rwa [List.nil_append, List.append_nil, String.ofList_toList] at whole

/-- A text that trimming leaves as it is begins and ends with kept characters. -/
theorem ends_of_trimMatches {p : Char → Bool} {s : String} (same : trimMatches p s = s)
    (nonempty : s.toList ≠ []) :
    p (s.toList.head nonempty) = false ∧ p (s.toList.getLast nonempty) = false := by
  have list : (s.toList.dropWhile p).rdropWhile p = s.toList := by
    have lists := congrArg String.toList same
    rwa [trimMatches, String.toList_ofList] at lists
  have front : s.toList.dropWhile p = s.toList := by
    refine (List.dropWhile_suffix p).eq_of_length_le ?_
    have shorter := (List.rdropWhile_prefix p (s.toList.dropWhile p)).length_le
    rwa [list] at shorter
  have back : s.toList.rdropWhile p = s.toList := by rwa [front] at list
  constructor
  · have first := List.dropWhile_eq_self_iff.mp front (List.length_pos_iff.mpr nonempty)
    rw [← List.head_eq_getElem nonempty] at first
    exact Bool.eq_false_iff.mpr first
  · exact Bool.eq_false_iff.mpr (List.rdropWhile_eq_self_iff.mp back nonempty)

theorem trim_cons {c : Char} (white : whiteSpace c = true) (l : List Char) :
    trim (.ofList (c :: l)) = trim (.ofList l) := by
  simp [trim, trimMatches, white]

theorem trim_concat {c : Char} (white : whiteSpace c = true) (l : List Char) :
    trim (.ofList (l ++ [c])) = trim (.ofList l) := by
  simp only [trim, trimMatches, String.toList_ofList, List.dropWhile_append]
  cases l.dropWhile whiteSpace with
  | nil => simp [white]
  | cons d rest => exact congrArg String.ofList (List.rdropWhile_concat_pos _ (d :: rest) c white)

/-! ## Splitting -/

/-- A character added at the end of a text is added to its last piece. -/
theorem splitOn_concat {separator c : Char} (other : c ≠ separator) (s : List Char) :
    ∃ front last, s.splitOn separator = front ++ [last] ∧
      (s ++ [c]).splitOn separator = front ++ [last ++ [c]] := by
  induction s with
  | nil => exact ⟨[], [], rfl, by simp [List.splitOn_cons_eq_if_modifyHead, other]⟩
  | cons d s ih =>
      obtain ⟨front, last, before, after⟩ := ih
      rw [List.cons_append, List.splitOn_cons_eq_if_modifyHead,
        List.splitOn_cons_eq_if_modifyHead, before, after]
      by_cases here : d = separator
      · exact ⟨[] :: front, last, by simp [here], by simp [here]⟩
      · cases front with
        | nil => exact ⟨[], d :: last, by simp [here], by simp [here]⟩
        | cons piece front => exact ⟨(d :: piece) :: front, last, by simp [here], by simp [here]⟩

/-- Trimming the end of a text does not change its trimmed pieces. -/
theorem trim_splitOn_rdropWhile {separator : Char} (kept : whiteSpace separator = false)
    (s : List Char) :
    ((s.rdropWhile whiteSpace).splitOn separator).map (fun piece => trim (.ofList piece)) =
      (s.splitOn separator).map fun piece => trim (.ofList piece) := by
  induction s using List.reverseRecOn with
  | nil => rfl
  | append_singleton s c ih =>
      by_cases white : whiteSpace c = true
      · have other : c ≠ separator := by
          rintro rfl
          rw [white] at kept
          cases kept
        obtain ⟨front, last, before, after⟩ := splitOn_concat other s
        rw [List.rdropWhile_concat_pos _ _ _ white, ih, before, after]
        simp only [List.map_append, List.map_cons, List.map_nil, trim_concat white]
      · rw [List.rdropWhile_concat_neg _ _ _ white]

theorem mem_intercalate {α : Type} {separator : α} {pieces : List (List α)} {a : α}
    (member : a ∈ [separator].intercalate pieces) :
    a = separator ∨ ∃ piece ∈ pieces, a ∈ piece := by
  induction pieces with
  | nil => simp [List.intercalate_nil] at member
  | cons piece pieces ih =>
      cases pieces with
      | nil => exact .inr ⟨piece, by simp, by simpa [List.intercalate_singleton] using member⟩
      | cons next pieces =>
          rw [List.intercalate_cons_cons, List.append_assoc, List.mem_append] at member
          rcases member with here | later
          · exact .inr ⟨piece, by simp, here⟩
          · rcases List.mem_cons.mp later with separates | rest
            · exact .inl separates
            · exact (ih rest).imp_right fun ⟨piece', inside, found⟩ =>
                ⟨piece', List.mem_cons_of_mem _ inside, found⟩

theorem stripPrefix_isSome_iff {head s : String} :
    (stripPrefix head s).isSome = true ↔ head.toList <+: s.toList := by
  unfold stripPrefix
  split
  · next begins => simpa using List.isPrefixOf_iff_prefix.mp begins
  · next other => simpa using fun begins => other (List.isPrefixOf_iff_prefix.mpr begins)

theorem stripPrefix_append (head : String) (rest : List Char) :
    stripPrefix head (.ofList (head.toList ++ rest)) = some (.ofList rest) := by
  simp [stripPrefix]

end ExtensionSdkMongodb
