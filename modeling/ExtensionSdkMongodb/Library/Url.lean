import Mathlib.Data.List.DropRight
import Mathlib.Data.List.Infix
import Mathlib.Data.List.TakeWhile
import Mathlib.Data.Nat.Notation

/-!
# Reading URLs

The text of a URL is a scheme, `://`, an authority and a path, then an optional query and fragment.
The first `?` or `#` ends the path, `/` separates its segments, and in a segment a percent sign with
two hexadecimal digits stands for a byte.

A program that splices a name into a URL means one segment by it. `read_spliced_iff` says for which
names that is what the URL says: the `Plain` ones.
-/

set_option autoImplicit false

namespace Url

/-! ## Segments -/

def hexDigit (c : Char) : Option ℕ :=
  if '0' ≤ c ∧ c ≤ '9' then some (c.toNat - '0'.toNat)
  else if 'a' ≤ c ∧ c ≤ 'f' then some (c.toNat - 'a'.toNat + 10)
  else if 'A' ≤ c ∧ c ≤ 'F' then some (c.toNat - 'A'.toNat + 10)
  else none

/-- The byte of the percent escape that a text begins with. -/
def escape : List Char → Option UInt8
  | '%' :: first :: second :: _ => do
    let high ← hexDigit first
    let low ← hexDigit second
    return UInt8.ofNat (16 * high + low)
  | _ => none

/-- The bytes of a text. -/
def utf8 (text : List Char) : List UInt8 := text.flatMap String.utf8EncodeChar

/-- The bytes a segment stands for. -/
def percentDecode : List Char → List UInt8
  | [] => []
  | c :: rest =>
    match escape (c :: rest), rest with
    | some byte, _ :: _ :: rest => byte :: percentDecode rest
    | _, rest => String.utf8EncodeChar c ++ percentDecode rest

example : percentDecode "a%2Fb%%41%".toList = utf8 "a/b%A%".toList := by decide

/-- No percent escape begins anywhere in the text. -/
def Unescaped (text : List Char) : Prop := ∀ rest, rest <:+ text → escape rest = none

/-! ### Texts without escapes -/

theorem escape_eq_some {text : List Char} {byte : UInt8} (escaped : escape text = some byte) :
    ∃ first second rest, text = '%' :: first :: second :: rest := by
  unfold escape at escaped
  split at escaped
  · exact ⟨_, _, _, rfl⟩
  · cases escaped

@[simp] theorem utf8_cons (c : Char) (rest : List Char) :
    utf8 (c :: rest) = String.utf8EncodeChar c ++ utf8 rest := rfl

theorem utf8_injective : Function.Injective utf8 := by
  intro first second same
  have encoded : first.utf8Encode = second.utf8Encode := congrArg List.toByteArray same
  have decoded := congrArg ByteArray.utf8Decode? encoded
  simpa using decoded

theorem percentDecode_escaped {c first second : Char} {rest : List Char} {byte : UInt8}
    (escaped : escape (c :: first :: second :: rest) = some byte) :
    percentDecode (c :: first :: second :: rest) = byte :: percentDecode rest := by
  simp [percentDecode, escaped]

theorem percentDecode_plain {c : Char} {rest : List Char} (plain : escape (c :: rest) = none) :
    percentDecode (c :: rest) = String.utf8EncodeChar c ++ percentDecode rest := by
  rw [percentDecode]
  · intro byte first second rest' escaped
    rw [plain] at escaped
    cases escaped

/-- A text is empty, begins with an escape, or begins with a character that stands for itself. -/
theorem escape_induction {motive : List Char → Prop} (nil : motive [])
    (escaped : ∀ c first second rest byte, escape (c :: first :: second :: rest) = some byte →
      motive rest → motive (c :: first :: second :: rest))
    (plain : ∀ c rest, escape (c :: rest) = none → motive rest → motive (c :: rest))
    (text : List Char) : motive text := by
  induction text using percentDecode.induct with
  | case1 => exact nil
  | case2 c byte first second rest begins ih => exact escaped c first second rest byte begins ih
  | case3 c rest whole ih =>
      refine plain c rest ?_ ih
      cases begins : escape (c :: rest) with
      | none => rfl
      | some byte =>
          obtain ⟨first, second, rest', same⟩ := escape_eq_some begins
          exact (whole byte first second rest' begins (List.cons.inj same).2).elim

theorem length_percentDecode_le (text : List Char) :
    (percentDecode text).length ≤ (utf8 text).length := by
  induction text using escape_induction with
  | nil => exact Nat.le_refl _
  | escaped c first second rest byte begins ih =>
      have positive := c.utf8Size_pos
      simp only [percentDecode_escaped begins, utf8_cons, List.length_cons, List.length_append,
        String.length_utf8EncodeChar]
      omega
  | plain c rest begins ih =>
      rw [percentDecode_plain begins, utf8_cons, List.length_append, List.length_append]
      omega

theorem unescaped_cons_iff {c : Char} {rest : List Char} :
    Unescaped (c :: rest) ↔ escape (c :: rest) = none ∧ Unescaped rest := by
  simp [Unescaped, List.suffix_cons_iff]

/-- **A segment stands for its own text exactly if it has no percent escape.** -/
theorem percentDecode_eq_iff (text : List Char) :
    percentDecode text = utf8 text ↔ Unescaped text := by
  induction text using escape_induction with
  | nil => simp [Unescaped, percentDecode, utf8, escape]
  | escaped c first second rest byte begins ih =>
      refine iff_of_false ?_ ?_
      · intro same
        have shorter := length_percentDecode_le rest
        have lengths := congrArg List.length same
        have size := c.utf8Size_pos
        have size' := first.utf8Size_pos
        simp only [percentDecode_escaped begins, utf8_cons, List.length_cons, List.length_append,
          String.length_utf8EncodeChar] at lengths
        omega
      · intro unescaped
        rw [unescaped _ List.suffix_rfl] at begins
        cases begins
  | plain c rest begins ih =>
      rw [percentDecode_plain begins, utf8_cons, List.append_cancel_left_eq, ih,
        unescaped_cons_iff]
      simp only [begins, true_and]

/-- A character that is no part of an escape separates the escapes before it from those after. -/
theorem unescaped_append_cons_iff {c : Char} (digit : hexDigit c = none) (percent : c ≠ '%')
    (first second : List Char) :
    Unescaped (first ++ c :: second) ↔ Unescaped first ∧ Unescaped second := by
  have stops : ∀ text : List Char, escape (text ++ c :: second) = escape text := by
    intro text
    rcases text with _ | ⟨x, _ | ⟨y, _ | ⟨z, text⟩⟩⟩
    · simp [escape, percent]
    · by_cases same : x = '%'
      · subst same
        cases second <;> simp [escape, digit]
      · simp [escape, same]
    · by_cases same : x = '%'
      · subst same
        simp [escape, digit]
      · simp [escape, same]
    · by_cases same : x = '%'
      · subst same
        simp [escape]
      · simp [escape, same]
  induction first with
  | nil =>
      have alone := stops []
      simp only [List.nil_append] at alone ⊢
      rw [unescaped_cons_iff, alone]
      simp [Unescaped, escape]
  | cons x first ih =>
      have head := stops (x :: first)
      rw [List.cons_append] at head ⊢
      rw [unescaped_cons_iff, unescaped_cons_iff, head, and_assoc]
      exact and_congr_right fun _ => ih

/-! ## URLs -/

/-- What a URL says. -/
structure Target where
  scheme : List Char
  authority : List Char
  segments : List (List UInt8)
  query : Option (List Char)
  fragment : Option (List Char)
  deriving DecidableEq

def endsPath (c : Char) : Bool := c == '?' || c == '#'

/-- The segments of a path that is empty or begins with a slash. -/
def pathSegments : List Char → List (List Char)
  | '/' :: path => path.splitOn '/'
  | _ => []

/-- The query and the fragment of what follows the path. -/
def readTail : List Char → Option (List Char) × Option (List Char)
  | '?' :: rest => (some (rest.takeWhile (· != '#')), (rest.dropWhile (· != '#')).tail?)
  | '#' :: rest => (none, some rest)
  | _ => (none, none)

/-- The reading of a URL. -/
def read (text : List Char) : Option Target :=
  let front := text.takeWhile fun c => !endsPath c
  let (query, fragment) := readTail (text.dropWhile fun c => !endsPath c)
  match front.dropWhile (· != ':') with
  | ':' :: '/' :: '/' :: rest =>
    some {
      scheme := front.takeWhile (· != ':')
      authority := rest.takeWhile (· != '/')
      segments := (pathSegments (rest.dropWhile (· != '/'))).map percentDecode
      query
      fragment }
  | _ => none

example : read "http://h:1/a/b%41?q#f".toList =
    some ⟨"http".toList, "h:1".toList, [utf8 "a".toList, utf8 "bA".toList], some ['q'],
      some ['f']⟩ := by decide

/-- A URL without query and fragment, in its parts. -/
structure Base where
  scheme : List Char
  authority : List Char
  path : List Char
  schemeEnds : ':' ∉ scheme
  hosted : authority ≠ []
  authorityEnds : '/' ∉ authority
  rooted : path = [] ∨ ∃ rest, path = '/' :: rest
  noTail : ∀ c ∈ scheme ++ authority ++ path, endsPath c = false

theorem rdropWhile_append {α : Type} {p : α → Bool} {first : List α}
    (kept : first.rdropWhile p = first) (second : List α) :
    (first ++ second).rdropWhile p = first ++ second.rdropWhile p := by
  induction second using List.reverseRecOn with
  | nil => rw [List.append_nil, kept, List.rdropWhile_nil, List.append_nil]
  | append_singleton second a ih =>
      rw [← List.append_assoc, List.rdropWhile_concat, List.rdropWhile_concat, ih]
      split
      · rfl
      · exact List.append_assoc first second [a]

namespace Base

def text (b : Base) : List Char := b.scheme ++ [':', '/', '/'] ++ b.authority ++ b.path

/-- What the URL says, with another query and fragment. -/
def target (b : Base) (tail : Option (List Char) × Option (List Char)) : Target :=
  ⟨b.scheme, b.authority, (pathSegments b.path).map percentDecode, tail.1, tail.2⟩

/-- The URL with a longer path. -/
def extend (b : Base) (more : List Char) (noTail : ∀ c ∈ more, endsPath c = false) : Base where
  __ := b
  path := b.path ++ '/' :: more
  rooted := by
    rcases b.rooted with none | ⟨rest, same⟩
    · exact .inr ⟨more, by simp [none]⟩
    · exact .inr ⟨rest ++ '/' :: more, by simp [same]⟩
  noTail := by
    intro c member
    rw [← List.append_assoc, List.mem_append] at member
    rcases member with known | new
    · exact b.noTail c known
    · rcases List.mem_cons.mp new with rfl | more
      · rfl
      · exact noTail c more

/-- The URL with its path's trailing slashes removed. -/
def trimmed (b : Base) : Base where
  __ := b
  path := b.path.rdropWhile (· == '/')
  rooted := by
    cases kept : b.path.rdropWhile (· == '/') with
    | nil => exact .inl rfl
    | cons c rest =>
        obtain ⟨dropped, same⟩ := List.rdropWhile_prefix (· == '/') b.path
        rcases b.rooted with none | ⟨path, slash⟩
        · simp [none] at kept
        · rw [kept, slash, List.cons_append, List.cons.injEq] at same
          exact .inr ⟨rest, by rw [same.1]⟩
  noTail := by
    intro c member
    refine b.noTail c ?_
    rw [List.mem_append] at member ⊢
    exact member.imp_right fun kept => (List.rdropWhile_prefix (· == '/') b.path).mem kept

/-- The slashes at the end of the text are those of the path. -/
theorem text_trimmed (b : Base) : b.trimmed.text = b.text.rdropWhile (· == '/') := by
  have kept : (b.scheme ++ [':', '/', '/'] ++ b.authority).rdropWhile (· == '/') =
      b.scheme ++ [':', '/', '/'] ++ b.authority := by
    rw [List.rdropWhile_eq_self_iff]
    intro _ slash
    rw [List.getLast_append_of_right_ne_nil _ _ b.hosted, beq_iff_eq] at slash
    exact b.authorityEnds (slash ▸ List.getLast_mem b.hosted)
  exact (rdropWhile_append kept b.path).symm

@[simp] theorem text_extend (b : Base) {more : List Char}
    (noTail : ∀ c ∈ more, endsPath c = false) :
    (b.extend more noTail).text = b.text ++ '/' :: more := by
  simp [extend, text]

end Base

theorem pathSegments_append {path : List Char} (rooted : path = [] ∨ ∃ rest, path = '/' :: rest)
    (more : List Char) :
    pathSegments (path ++ '/' :: more) = pathSegments path ++ more.splitOn '/' := by
  rcases rooted with rfl | ⟨rest, rfl⟩
  · rfl
  · exact List.splitOn_append_cons_self rest more

theorem Base.segments_extend (b : Base) {more : List Char}
    (noTail : ∀ c ∈ more, endsPath c = false) :
    pathSegments (b.extend more noTail).path = pathSegments b.path ++ more.splitOn '/' :=
  pathSegments_append b.rooted more

theorem bne_of_notMem {c : Char} {text : List Char} (absent : c ∉ text) :
    ∀ d ∈ text, (d != c) = true := by
  intro d member
  rw [bne_iff_ne]
  rintro rfl
  exact absent member

theorem takeWhile_append_cons {α : Type} {p : α → Bool} {first : List α} (tail : List α)
    (all : ∀ a ∈ first, p a) (stops : ∀ a ∈ tail.head?, p a = false) :
    (first ++ tail).takeWhile p = first ∧ (first ++ tail).dropWhile p = tail := by
  rw [List.takeWhile_append_of_pos all, List.dropWhile_append_of_pos all]
  cases tail with
  | nil => simp
  | cons a tail => simp [stops a rfl]

/-- **A base and what follows its path are read one after the other.** -/
theorem read_text_append (b : Base) (tail : List Char)
    (ends : ∀ c ∈ tail.head?, endsPath c = true) :
    read (b.text ++ tail) = some (b.target (readTail tail)) := by
  have inside : ∀ c ∈ b.text, (!endsPath c) = true := by
    intro c member
    simp only [Base.text, List.mem_append, List.mem_cons, List.not_mem_nil, or_false] at member
    have known := b.noTail c
    simp only [List.mem_append] at known
    rcases member with ((scheme | rfl | rfl | rfl) | authority) | path
    · simp [known (.inl (.inl scheme))]
    · rfl
    · rfl
    · rfl
    · simp [known (.inl (.inr authority))]
    · simp [known (.inr path)]
  have outside : ∀ c ∈ tail.head?, (!endsPath c) = false := fun c first => by simp [ends c first]
  obtain ⟨front, rest⟩ := takeWhile_append_cons tail inside outside
  obtain ⟨schemeFront, schemeRest⟩ := takeWhile_append_cons
    (':' :: '/' :: '/' :: (b.authority ++ b.path)) (bne_of_notMem b.schemeEnds) (by simp)
  have slash : ∀ c ∈ b.path.head?, (c != '/') = false := by
    rcases b.rooted with none | ⟨path, same⟩ <;> simp [*]
  obtain ⟨authorityFront, authorityRest⟩ :=
    takeWhile_append_cons b.path (bne_of_notMem b.authorityEnds) slash
  have shape : b.text = b.scheme ++ ':' :: '/' :: '/' :: (b.authority ++ b.path) := by
    simp [Base.text]
  simp only [read, front, rest]
  rw [shape, schemeFront, schemeRest]
  simp only [authorityFront, authorityRest]
  rfl

/-! ## Spliced segments -/

/-- A text that a URL holds as a segment as it is. -/
def Plain (text : List Char) : Prop :=
  '/' ∉ text ∧ (∀ c ∈ text, endsPath c = false) ∧ Unescaped text

def queryText : Option (List Char) → List Char
  | none => []
  | some query => '?' :: query

theorem readTail_queryText {query : Option (List Char)} (whole : ∀ q ∈ query, '#' ∉ q) :
    readTail (queryText query) = (query, none) := by
  cases query with
  | none => rfl
  | some query =>
      have inside := bne_of_notMem (whole query rfl)
      obtain ⟨front, rest⟩ := takeWhile_append_cons [] inside (by simp)
      rw [List.append_nil] at front rest
      simp [queryText, readTail, front, rest]

/-- A query or fragment that begins earlier does not end up as the one meant. -/
theorem readTail_early {c : Char} (ends : endsPath c = true) {rest : List Char}
    {query : Option (List Char)} (more : (queryText query).length < rest.length) :
    readTail (c :: rest) ≠ (query, none) := by
  intro same
  simp only [endsPath, Bool.or_eq_true, beq_iff_eq] at ends
  rcases ends with rfl | rfl
  · simp only [readTail, Prod.mk.injEq] at same
    obtain ⟨rfl, none⟩ := same
    have whole : rest.dropWhile (· != '#') = [] := by
      cases left : rest.dropWhile (· != '#') with
      | nil => rfl
      | cons c' left' => simp [left] at none
    have front := List.takeWhile_append_dropWhile (p := (· != '#')) (l := rest)
    rw [whole, List.append_nil] at front
    rw [front, queryText, List.length_cons] at more
    omega
  · simp [readTail] at same

theorem splitOn_decode_iff {name : List Char} :
    (name.splitOn '/').map percentDecode = [utf8 name] ↔ '/' ∉ name ∧ Unescaped name := by
  by_cases slash : '/' ∈ name
  · refine iff_of_false ?_ fun plain => plain.1 slash
    obtain ⟨first, second, rfl⟩ := List.append_of_mem slash
    intro same
    have lengths := congrArg List.length same
    have one := List.length_pos_iff.mpr (List.splitOn_ne_nil '/' first)
    have two := List.length_pos_iff.mpr (List.splitOn_ne_nil '/' second)
    simp only [List.splitOn_append_cons_self, List.length_map, List.length_append,
      List.length_singleton] at lengths
    omega
  · rw [List.splitOn_eq_singleton slash]
    simp [slash, percentDecode_eq_iff]

theorem exists_first_end {name : List Char} (ends : ¬ ∀ c ∈ name, endsPath c = false) :
    ∃ front c rest, name = front ++ c :: rest ∧ (∀ c ∈ front, endsPath c = false) ∧
      endsPath c = true := by
  induction name with
  | nil => exact absurd (by simp) ends
  | cons c name ih =>
      cases first : endsPath c with
      | true => exact ⟨[], c, name, rfl, by simp, first⟩
      | false =>
          obtain ⟨front, c', rest, rfl, inside, ends'⟩ := ih fun all =>
            ends (List.forall_mem_cons.mpr ⟨first, all⟩)
          exact ⟨c :: front, c', rest, rfl, List.forall_mem_cons.mpr ⟨first, inside⟩, ends'⟩

/-- **A name spliced into a URL is its last segment but one, and the query is the one meant, if and
only if the name is plain.** -/
theorem read_spliced_iff (b : Base) (name : List Char) {last : List Char} (lastPlain : Plain last)
    {query : Option (List Char)} (whole : ∀ q ∈ query, '#' ∉ q) :
    read (b.text ++ '/' :: name ++ '/' :: last ++ queryText query) =
        some ⟨b.scheme, b.authority,
          (pathSegments b.path).map percentDecode ++ [utf8 name, utf8 last], query, none⟩ ↔
      Plain name := by
  obtain ⟨lastSlash, lastEnds, lastUnescaped⟩ := lastPlain
  have single : (last.splitOn '/').map percentDecode = [utf8 last] :=
    splitOn_decode_iff.mpr ⟨lastSlash, lastUnescaped⟩
  by_cases inside : ∀ c ∈ name, endsPath c = false
  · have ends : ∀ c ∈ (queryText query).head?, endsPath c = true := by
      cases query <;> simp [queryText, endsPath]
    have reading := read_text_append ((b.extend name inside).extend last lastEnds) _ ends
    rw [Base.text_extend, Base.text_extend, readTail_queryText whole] at reading
    rw [reading, Base.target, Option.some.injEq, Target.mk.injEq]
    simp only [Base.segments_extend, List.map_append, single, List.append_assoc]
    have pair : [utf8 name, utf8 last] = [utf8 name] ++ [utf8 last] := rfl
    simp only [Base.extend, true_and, and_true, pair, List.append_cancel_left_eq,
      List.append_cancel_right_eq, splitOn_decode_iff]
    exact ⟨fun plain => ⟨plain.1, inside, plain.2⟩, fun plain => ⟨plain.1, plain.2.2⟩⟩
  · refine iff_of_false ?_ fun plain => inside plain.2.1
    -- The path ends inside the name, at its first `?` or `#`.
    obtain ⟨front, c, rest, rfl, frontInside, ends⟩ := exists_first_end inside
    intro reading
    have early := read_text_append (b.extend front frontInside)
      (c :: rest ++ '/' :: last ++ queryText query) (by simpa using ends)
    rw [Base.text_extend] at early
    have same : b.text ++ '/' :: (front ++ c :: rest) ++ '/' :: last ++ queryText query =
        b.text ++ '/' :: front ++ (c :: rest ++ '/' :: last ++ queryText query) := by simp
    rw [same, early, Option.some.injEq, Base.target, Target.mk.injEq] at reading
    have tail : readTail (c :: (rest ++ '/' :: last ++ queryText query)) = (query, none) :=
      Prod.ext reading.2.2.2.1 reading.2.2.2.2
    refine readTail_early ends ?_ tail
    simp only [List.length_append, List.length_cons]
    omega

end Url
