import ExtensionSdkMongodb.Data.Bson
import Mathlib.Data.List.Infix

/-!
# Texts as bytes

The bytes of a text, and the text of bytes that may not be UTF-8. Reading replaces every maximal
part of an ill-formed sequence by one replacement character; on the bytes of a text it gives the
text back. Strict reading succeeds on the bytes of a text only (`fromUtf8_eq_ok_iff`).
-/

set_option autoImplicit false

namespace ExtensionSdkMongodb

/-- `char::REPLACEMENT_CHARACTER`. -/
def replacementCharacter : Char := Char.ofNat 0xFFFD

/-- `str::as_bytes`. -/
def asBytes (s : String) : Bytes := s.toList.flatMap String.utf8EncodeChar

/-! ## Lossy reading -/

/-- The character whose encoding the bytes begin with. -/
def decodeFirst (bytes : Bytes) : Option Char := bytes.toByteArray.utf8DecodeChar? 0

/-- A continuation byte. -/
def continues (b : UInt8) : Bool := 0x80 ≤ b && b ≤ 0xBF

/-- A second byte that can follow the first of a sequence of three or four. -/
def continuesAfter (first second : UInt8) : Bool :=
  if first = 0xE0 then 0xA0 ≤ second && second ≤ 0xBF
  else if first = 0xED then 0x80 ≤ second && second ≤ 0x9F
  else if first = 0xF0 then 0x90 ≤ second && second ≤ 0xBF
  else if first = 0xF4 then 0x80 ≤ second && second ≤ 0x8F
  else 0xE1 ≤ first && first ≤ 0xF3 && continues second

/-- The length of the ill-formed sequence that bytes begin with. -/
def illFormedLength : Bytes → ℕ
  | first :: second :: third :: _ =>
    if continuesAfter first second then
      if 0xF0 ≤ first ∧ continues third then 3 else 2
    else 1
  | [first, second] => if continuesAfter first second then 2 else 1
  | _ => 1

/-- `String::from_utf8_lossy` on at most this many characters. -/
def lossyChars : ℕ → Bytes → List Char
  | 0, _ => []
  | _ + 1, [] => []
  | n + 1, bytes =>
    match decodeFirst bytes with
    | some c => c :: lossyChars n (bytes.drop c.utf8Size)
    | none => replacementCharacter :: lossyChars n (bytes.drop (illFormedLength bytes))

/-- `String::from_utf8_lossy`. -/
def fromUtf8Lossy (bytes : Bytes) : String := .ofList (lossyChars bytes.length bytes)

example : fromUtf8Lossy [0x61, 0xC3, 0xA9, 0xE2, 0x82, 0x62, 0xFF] = "aé\uFFFDb\uFFFD" := by
  decide

theorem decodeFirst_append (c : Char) (rest : Bytes) :
    decodeFirst (String.utf8EncodeChar c ++ rest) = some c := by
  rw [decodeFirst, List.toByteArray_append, ByteArray.utf8DecodeChar?_utf8EncodeChar_append]

theorem lossyChars_encoded {n : ℕ} (text : List Char)
    (enough : (text.flatMap String.utf8EncodeChar).length ≤ n) :
    lossyChars n (text.flatMap String.utf8EncodeChar) = text := by
  induction text generalizing n with
  | nil => cases n <;> rfl
  | cons c text ih =>
      have size := c.utf8Size_pos
      rw [List.flatMap_cons] at enough ⊢
      rw [List.length_append, String.length_utf8EncodeChar] at enough
      obtain ⟨n, rfl⟩ : ∃ m, n = m + 1 := ⟨n - 1, by omega⟩
      have begins := decodeFirst_append c (text.flatMap String.utf8EncodeChar)
      have dropped : (String.utf8EncodeChar c ++ text.flatMap String.utf8EncodeChar).drop
          c.utf8Size = text.flatMap String.utf8EncodeChar := by
        rw [← String.length_utf8EncodeChar, List.drop_left]
      cases bytes : String.utf8EncodeChar c ++ text.flatMap String.utf8EncodeChar with
      | nil =>
          have empty := congrArg List.length bytes
          rw [List.length_append, String.length_utf8EncodeChar, List.length_nil] at empty
          omega
      | cons first rest =>
          rw [bytes] at begins dropped
          simp only [lossyChars, begins, dropped]
          rw [ih (by omega)]

/-- **Reading the bytes of a text gives the text.** -/
@[simp] theorem fromUtf8Lossy_asBytes (s : String) : fromUtf8Lossy (asBytes s) = s := by
  rw [fromUtf8Lossy, asBytes, lossyChars_encoded _ (Nat.le_refl _), String.ofList_toList]

theorem fromUtf8Lossy_eq_empty_iff {bytes : Bytes} : fromUtf8Lossy bytes = "" ↔ bytes = [] := by
  cases bytes with
  | nil => exact iff_of_true rfl rfl
  | cons b bytes =>
      refine iff_of_false (fun empty => ?_) (by simp)
      have chars := congrArg String.toList empty
      simp only [fromUtf8Lossy, String.toList_ofList, List.length_cons, lossyChars] at chars
      cases first : decodeFirst (b :: bytes) with
      | none => simp [first] at chars
      | some c => simp [first] at chars

/-! ## Texts without NUL -/

theorem zero_eq_ofNat_iff {n : ℕ} : 0 = UInt8.ofNat n ↔ n % 256 = 0 := by
  rw [← UInt8.toNat_inj, UInt8.toNat_ofNat']
  exact eq_comm

theorem zero_mem_utf8EncodeChar {c : Char} (zero : 0 ∈ String.utf8EncodeChar c) : c = '\x00' := by
  have small : c.val.toNat = 0 := by
    simp only [String.utf8EncodeChar] at zero
    split at zero
    · rw [List.mem_singleton, zero_eq_ofNat_iff] at zero
      omega
    · -- Every byte of a longer sequence has its high bit set.
      exfalso
      split at zero
      · simp only [List.mem_cons, List.not_mem_nil, or_false, zero_eq_ofNat_iff] at zero
        omega
      · split at zero
        · simp only [List.mem_cons, List.not_mem_nil, or_false, zero_eq_ofNat_iff] at zero
          omega
        · simp only [List.mem_cons, List.not_mem_nil, or_false, zero_eq_ofNat_iff] at zero
          omega
  exact Char.ext (UInt32.toNat_inj.mp small)

/-- The bytes of a text without NUL have no zero. -/
theorem zero_notMem_asBytes {s : String} (noNul : '\x00' ∉ s.toList) : 0 ∉ asBytes s := by
  intro zero
  obtain ⟨c, member, inside⟩ := List.mem_flatMap.mp zero
  exact noNul (zero_mem_utf8EncodeChar inside ▸ member)

theorem decodeFirst_eq_some {bytes : Bytes} {c : Char} (first : decodeFirst bytes = some c) :
    ∃ rest, bytes = String.utf8EncodeChar c ++ rest := by
  obtain ⟨rest, same⟩ := ByteArray.exists_of_utf8DecodeChar?_eq_some first
  have lists := congrArg (fun b => b.data.toList) same
  exact ⟨rest.data.toList, by simpa using lists⟩

theorem nul_notMem_lossyChars {n : ℕ} {bytes : Bytes} (noZero : 0 ∉ bytes) :
    '\x00' ∉ lossyChars n bytes := by
  induction n generalizing bytes with
  | zero => simp [lossyChars]
  | succ n ih =>
      have rest : ∀ size, '\x00' ∉ lossyChars n (bytes.drop size) := fun size =>
        ih fun zero => noZero (List.mem_of_mem_drop zero)
      cases bytes with
      | nil => simp [lossyChars]
      | cons b bytes =>
          simp only [lossyChars]
          cases first : decodeFirst (b :: bytes) with
          | none =>
              simp only [List.mem_cons, not_or]
              exact ⟨by decide, rest _⟩
          | some c =>
              obtain ⟨tail, same⟩ := decodeFirst_eq_some first
              simp only [List.mem_cons, not_or]
              refine ⟨?_, rest _⟩
              rintro rfl
              refine noZero ?_
              rw [same]
              exact List.mem_append_left tail (by decide)

/-- Bytes without zero are read as a text without NUL. -/
theorem nul_notMem_fromUtf8Lossy {bytes : Bytes} (noZero : 0 ∉ bytes) :
    '\x00' ∉ (fromUtf8Lossy bytes).toList := by
  rw [fromUtf8Lossy, String.toList_ofList]
  exact nul_notMem_lossyChars noZero

/-! ## Strict reading -/

/-- The bytes end within a sequence that further bytes could complete. -/
def incomplete : Bytes → Bool
  | [first] => 0xC2 ≤ first && first ≤ 0xF4
  | [first, second] => continuesAfter first second
  | [first, second, third] => 0xF0 ≤ first && continuesAfter first second && continues third
  | _ => false

/-- The text of a `Utf8Error`. -/
def utf8Error (index : ℕ) (bytes : Bytes) : String :=
  if incomplete bytes then "incomplete utf-8 byte sequence from index " ++ toString index
  else
    "invalid utf-8 sequence of " ++ toString (illFormedLength bytes) ++ " bytes from index " ++
      toString index

/-- The characters of the bytes from an index on, at most this many. -/
def strictChars : ℕ → ℕ → Bytes → Except String (List Char)
  | 0, _, _ => .ok []
  | _ + 1, _, [] => .ok []
  | n + 1, index, bytes =>
    match decodeFirst bytes with
    | some c => (strictChars n (index + c.utf8Size) (bytes.drop c.utf8Size)).map (c :: ·)
    | none => .error (utf8Error index bytes)

/-- `str::from_utf8`. -/
def fromUtf8 (bytes : Bytes) : Except String String :=
  (strictChars bytes.length 0 bytes).map String.ofList

example : fromUtf8 [0x61, 0xC3, 0xA9] = .ok "aé" ∧
    fromUtf8 [0x61, 0xE2, 0x82] = .error "incomplete utf-8 byte sequence from index 1" := by decide

theorem strictChars_ok_iff {n index : ℕ} {bytes : Bytes} {text : List Char}
    (enough : bytes.length ≤ n) :
    strictChars n index bytes = .ok text ↔ text.flatMap String.utf8EncodeChar = bytes := by
  induction n generalizing index bytes text with
  | zero =>
      obtain rfl : bytes = [] := by simpa using enough
      cases text with
      | nil => simp [strictChars]
      | cons c text => simp [strictChars, ← List.length_eq_zero_iff, c.utf8Size_pos.ne']
  | succ n ih =>
      cases bytes with
      | nil =>
          cases text with
          | nil => simp [strictChars]
          | cons c text => simp [strictChars, ← List.length_eq_zero_iff, c.utf8Size_pos.ne']
      | cons b bytes =>
          simp only [strictChars]
          cases first : decodeFirst (b :: bytes) with
          | none =>
              refine iff_of_false (by simp) ?_
              intro same
              cases text with
              | nil => cases same
              | cons c text =>
                  rw [List.flatMap_cons] at same
                  rw [← same, decodeFirst_append] at first
                  cases first
          | some c =>
              obtain ⟨rest, same⟩ := decodeFirst_eq_some first
              have dropped : (b :: bytes).drop c.utf8Size = rest := by
                rw [same, ← String.length_utf8EncodeChar, List.drop_left]
              have fewer : rest.length ≤ n := by
                have lengths := congrArg List.length same
                have size := c.utf8Size_pos
                rw [List.length_append, String.length_utf8EncodeChar] at lengths
                omega
              simp only [dropped]
              constructor
              · intro decoded
                cases tail : strictChars n (index + c.utf8Size) rest with
                | error e => simp [tail, Except.map] at decoded
                | ok chars =>
                    simp only [tail, Except.map, Except.ok.injEq] at decoded
                    rw [← decoded, List.flatMap_cons, (ih fewer).mp tail, same]
              · intro encoded
                cases text with
                | nil => cases encoded
                | cons c' text =>
                    rw [List.flatMap_cons] at encoded
                    obtain rfl : c' = c := by
                      rw [← encoded, decodeFirst_append] at first
                      exact Option.some.inj first
                    have tail : text.flatMap String.utf8EncodeChar = rest :=
                      List.append_cancel_left (encoded.trans same)
                    rw [(ih fewer).mpr tail]
                    rfl

/-- **Strict reading succeeds on the bytes of a text, and gives the text.** -/
theorem fromUtf8_eq_ok_iff {bytes : Bytes} {s : String} :
    fromUtf8 bytes = .ok s ↔ asBytes s = bytes := by
  unfold fromUtf8 asBytes
  rw [← strictChars_ok_iff (Nat.le_refl bytes.length)]
  cases strictChars bytes.length 0 bytes with
  | error e => simp [Except.map]
  | ok chars =>
      simp only [Except.map, Except.ok.injEq]
      constructor
      · rintro rfl
        exact String.toList_ofList.symm
      · rintro rfl
        exact String.ofList_toList

end ExtensionSdkMongodb
