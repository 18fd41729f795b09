import ExtensionSdkMongodb.Data.Bson
import ExtensionSdkMongodb.Sdk.Error
import Mathlib.Data.List.Basic

/-!
# The physical lines of a file

`readJsonlPhysicalLine` reads a file byte by byte up to a newline, and gives up when a line has more
bytes than it may. A reader that goes on after that starts in the middle of the line.

`filePieces` says what the calls read of a whole file: of every line one failure for each `max + 1`
bytes, and then the bytes that are left of it. Each call reads the next of these pieces
(`readJsonlPhysicalLine_piece`).
-/

set_option autoImplicit false

namespace ExtensionSdkMongodb.LocalJsonl

/-- An open file: what its next reads of one byte answer, and the error of the reads behind them, if
it is not the end of the file that follows. -/
structure Reader where
  reads : List (Except String UInt8)
  beyond : Option String

/-- The reader of a regular file that is read without errors. -/
def Reader.ofBytes (bytes : Bytes) : Reader := ⟨bytes.map .ok, none⟩

/-- `b'\n'`. -/
def newline : UInt8 := 10

/-- `u64::saturating_add(1)`. -/
def saturatingSucc (n : ℕ) : ℕ := min (n + 1) (2 ^ 64 - 1)

/-- The error of a line that is too long. -/
def overlongLine (maxLineBytes : ℕ) : ExtensionError :=
  .badValue ("line exceeds maxLineBytes (" ++ toString maxLineBytes ++ ") before newline")

/-- The result of a call: whether there is a line, the line buffer and the reader. -/
abbrev LineRead := Except ExtensionError (Option Unit) × Bytes × Reader

/-- The loop of `read_jsonl_physical_line`. -/
def readLoop (maxLineBytes : ℕ) (beyond : Option String) :
    (nread : ℕ) → (lineBuf : Bytes) → List (Except String UInt8) → LineRead
  | _, lineBuf, [] =>
    match beyond with
    | some e => (.error (.runtime ("read: " ++ e)), lineBuf, ⟨[], beyond⟩)
    | none => (.ok (if lineBuf.isEmpty then none else some ()), lineBuf, ⟨[], beyond⟩)
  | _, lineBuf, .error e :: reads => (.error (.runtime ("read: " ++ e)), lineBuf, ⟨reads, beyond⟩)
  | nread, lineBuf, .ok b :: reads =>
    if b = newline then (.ok (some ()), lineBuf, ⟨reads, beyond⟩)
    else
      let nread := saturatingSucc nread
      if maxLineBytes < nread then (.error (overlongLine maxLineBytes), lineBuf, ⟨reads, beyond⟩)
      else readLoop maxLineBytes beyond nread (lineBuf ++ [b]) reads

/-- `read_jsonl_physical_line`. -/
def readJsonlPhysicalLine (reader : Reader) (maxLineBytes : ℕ) : LineRead :=
  readLoop maxLineBytes reader.beyond 0 [] reader.reads

/-! ## Pieces -/

/-- What one call reads of a file: the bytes of a line, or the beginning of a line that is too
long. -/
inductive Piece where
  | line (body : Bytes)
  | overlong
  deriving DecidableEq, Repr

/-- The pieces of a line that ends with a newline. -/
def linePieces (maxLineBytes : ℕ) (line : Bytes) : List Piece :=
  let failures := line.length / (maxLineBytes + 1)
  .replicate failures .overlong ++ [.line (line.drop (failures * (maxLineBytes + 1)))]

/-- The pieces of lines; of what follows the last newline nothing is read once nothing is left. -/
def piecesOfLines (maxLineBytes : ℕ) : List Bytes → List Piece
  | [] => []
  | [rest] => (linePieces maxLineBytes rest).filter (· ≠ .line [])
  | line :: lines => linePieces maxLineBytes line ++ piecesOfLines maxLineBytes lines

/-- The pieces of a file. -/
def filePieces (maxLineBytes : ℕ) (bytes : Bytes) : List Piece :=
  piecesOfLines maxLineBytes (bytes.splitOn newline)

example : filePieces 2 [97, 98, 99, 100, 10, 10, 97] =
    [.overlong, .line [100], .line [], .line [97]] := by decide

/-- What a call returns for a piece. -/
def Piece.returned (maxLineBytes : ℕ) : Piece → Except ExtensionError (Option Unit)
  | .line _ => .ok (some ())
  | .overlong => .error (overlongLine maxLineBytes)

section Pieces

variable {maxLineBytes : ℕ}

theorem linePieces_short {line : Bytes} (short : line.length ≤ maxLineBytes) :
    linePieces maxLineBytes line = [.line line] := by
  have none_ : line.length / (maxLineBytes + 1) = 0 := Nat.div_eq_of_lt (by omega)
  simp [linePieces, none_]

theorem linePieces_long {chunk line : Bytes} (full : chunk.length = maxLineBytes + 1) :
    linePieces maxLineBytes (chunk ++ line) = .overlong :: linePieces maxLineBytes line := by
  have failures : (chunk ++ line).length / (maxLineBytes + 1) =
      line.length / (maxLineBytes + 1) + 1 := by
    rw [List.length_append, full, Nat.add_comm, Nat.add_div_right _ (Nat.succ_pos _)]
  have dropped : (chunk ++ line).drop
      ((line.length / (maxLineBytes + 1) + 1) * (maxLineBytes + 1)) =
        line.drop (line.length / (maxLineBytes + 1) * (maxLineBytes + 1)) := by
    rw [Nat.succ_mul, Nat.add_comm, ← full, List.drop_append, List.drop_of_length_le (by omega),
      Nat.add_sub_cancel_left, List.nil_append]
  simp only [linePieces, failures, dropped, List.replicate_succ, List.cons_append]

theorem piecesOfLines_long {chunk line : Bytes} (full : chunk.length = maxLineBytes + 1)
    (lines : List Bytes) :
    piecesOfLines maxLineBytes ((chunk ++ line) :: lines) =
      .overlong :: piecesOfLines maxLineBytes (line :: lines) := by
  cases lines with
  | nil => simp [piecesOfLines, linePieces_long full]
  | cons next lines => simp [piecesOfLines, linePieces_long full]

/-- The pieces of a file that begins with the bytes of a line that is too long. -/
theorem filePieces_long {chunk : Bytes} (noNewline : newline ∉ chunk)
    (full : chunk.length = maxLineBytes + 1) (rest : Bytes) :
    filePieces maxLineBytes (chunk ++ rest) = .overlong :: filePieces maxLineBytes rest := by
  have split : ∀ chunk : Bytes, newline ∉ chunk →
      (chunk ++ rest).splitOn newline = (rest.splitOn newline).modifyHead (chunk ++ ·) := by
    intro chunk absent
    induction chunk with
    | nil =>
        simp only [List.nil_append]
        cases rest.splitOn newline <;> rfl
    | cons b chunk ih =>
        rw [List.mem_cons, not_or] at absent
        have other : (b == newline) = false := by simpa using Ne.symm absent.1
        rw [List.cons_append, List.splitOn_cons_eq_if_modifyHead, other, ih absent.2]
        cases rest.splitOn newline <;> simp
  unfold filePieces
  rw [split chunk noNewline]
  cases lines : rest.splitOn newline with
  | nil => exact (List.splitOn_ne_nil newline rest lines).elim
  | cons line others => exact piecesOfLines_long full others

/-- The pieces of a file that begins with a line that is short enough. -/
theorem filePieces_line {body : Bytes} (noNewline : newline ∉ body)
    (short : body.length ≤ maxLineBytes) (rest : Bytes) :
    filePieces maxLineBytes (body ++ newline :: rest) =
      .line body :: filePieces maxLineBytes rest := by
  unfold filePieces
  rw [List.splitOn_append_cons_self_of_not_mem noNewline]
  cases lines : rest.splitOn newline with
  | nil => exact (List.splitOn_ne_nil newline rest lines).elim
  | cons line others => simp [piecesOfLines, linePieces_short short]

/-- The pieces of a file without a newline that is short enough. -/
theorem filePieces_rest {body : Bytes} (noNewline : newline ∉ body)
    (short : body.length ≤ maxLineBytes) :
    filePieces maxLineBytes body = if body = [] then [] else [.line body] := by
  unfold filePieces
  rw [List.splitOn_eq_singleton noNewline]
  rw [piecesOfLines, linePieces_short short]
  by_cases empty : body = []
  · simp [empty]
  · simp [empty]

/-- Every file begins with a line that is short enough, with the bytes of one that is too long, or
is a last line that is short enough. -/
theorem file_cases (maxLineBytes : ℕ) (bytes : Bytes) :
    (∃ body rest, bytes = body ++ newline :: rest ∧ newline ∉ body ∧ body.length ≤ maxLineBytes) ∨
    (∃ chunk rest, bytes = chunk ++ rest ∧ newline ∉ chunk ∧ chunk.length = maxLineBytes + 1) ∨
    (newline ∉ bytes ∧ bytes.length ≤ maxLineBytes) := by
  induction bytes generalizing maxLineBytes with
  | nil => exact .inr (.inr ⟨by simp, by simp⟩)
  | cons b bytes ih =>
      by_cases here : b = newline
      · exact .inl ⟨[], bytes, by rw [here]; rfl, by simp, by simp⟩
      · cases maxLineBytes with
        | zero => exact .inr (.inl ⟨[b], bytes, rfl, by simpa using Ne.symm here, rfl⟩)
        | succ maxLineBytes =>
            rcases ih maxLineBytes with ⟨body, rest, rfl, absent, short⟩ |
              ⟨chunk, rest, rfl, absent, full⟩ | ⟨absent, short⟩
            · refine .inl ⟨b :: body, rest, rfl, ?_, by simpa using short⟩
              simp [Ne.symm here, absent]
            · refine .inr (.inl ⟨b :: chunk, rest, rfl, ?_, by simpa using full⟩)
              simp [Ne.symm here, absent]
            · refine .inr (.inr ⟨?_, by simpa using short⟩)
              simp [Ne.symm here, absent]

end Pieces

/-! ## Reading -/

section Reading

variable {maxLineBytes : ℕ}

theorem saturatingSucc_of_lt {n : ℕ} (lt : n + 1 < 2 ^ 64) : saturatingSucc n = n + 1 := by
  unfold saturatingSucc
  omega

/-- Within its limit the loop appends the bytes to the buffer. -/
theorem readLoop_append {body : Bytes} (noNewline : newline ∉ body) (lineBuf : Bytes)
    (fits : lineBuf.length + body.length ≤ maxLineBytes)
    (small : lineBuf.length + body.length < 2 ^ 64) (beyond : Option String)
    (reads : List (Except String UInt8)) :
    readLoop maxLineBytes beyond lineBuf.length lineBuf (body.map .ok ++ reads) =
      readLoop maxLineBytes beyond (lineBuf ++ body).length (lineBuf ++ body) reads := by
  induction body generalizing lineBuf with
  | nil => simp
  | cons b body ih =>
      rw [List.mem_cons, not_or] at noNewline
      rw [List.length_cons] at fits small
      have within : ¬ maxLineBytes < saturatingSucc lineBuf.length := by
        rw [saturatingSucc_of_lt (by omega)]
        omega
      have counted : saturatingSucc lineBuf.length = (lineBuf ++ [b]).length := by
        rw [saturatingSucc_of_lt (by omega), List.length_append, List.length_singleton]
      rw [List.map_cons, List.cons_append, readLoop, if_neg (Ne.symm noNewline.1), if_neg within,
        counted, ih noNewline.2 (lineBuf ++ [b]) (by simp; omega) (by simp; omega),
        List.append_assoc, List.singleton_append]

variable (maxLineBytes) in
/-- **One call reads one piece of the file.** -/
theorem readJsonlPhysicalLine_piece (bytes : Bytes) (small : bytes.length < 2 ^ 64) :
    (filePieces maxLineBytes bytes = [] ∧
      (readJsonlPhysicalLine (.ofBytes bytes) maxLineBytes).1 = .ok none) ∨
    ∃ piece rest, filePieces maxLineBytes bytes = piece :: filePieces maxLineBytes rest ∧
      (readJsonlPhysicalLine (.ofBytes bytes) maxLineBytes).1 = piece.returned maxLineBytes ∧
      (∀ body, piece = .line body →
        (readJsonlPhysicalLine (.ofBytes bytes) maxLineBytes).2.1 = body) ∧
      (readJsonlPhysicalLine (.ofBytes bytes) maxLineBytes).2.2 = .ofBytes rest ∧
      rest.length < bytes.length := by
  have empty : ([] : Bytes).length = 0 := rfl
  rcases file_cases maxLineBytes bytes with ⟨body, rest, rfl, absent, short⟩ |
    ⟨chunk, rest, rfl, absent, full⟩ | ⟨absent, short⟩
  · right
    refine ⟨.line body, rest, filePieces_line absent short rest, ?_⟩
    have read : readJsonlPhysicalLine (.ofBytes (body ++ newline :: rest)) maxLineBytes =
        (.ok (some ()), body, .ofBytes rest) := by
      rw [List.length_append] at small
      simp only [readJsonlPhysicalLine, Reader.ofBytes, List.map_append, List.map_cons]
      rw [← empty, readLoop_append absent [] (by simpa using short) (by simp; omega)]
      simp [readLoop]
    rw [read]
    refine ⟨rfl, ?_, rfl, ?_⟩
    · rintro _ ⟨rfl⟩
      rfl
    · rw [List.length_append, List.length_cons]
      omega
  · right
    refine ⟨.overlong, rest, filePieces_long absent full rest, ?_⟩
    have read : (readJsonlPhysicalLine (.ofBytes (chunk ++ rest)) maxLineBytes).1 =
          .error (overlongLine maxLineBytes) ∧
        (readJsonlPhysicalLine (.ofBytes (chunk ++ rest)) maxLineBytes).2.2 = .ofBytes rest := by
      -- All bytes of the chunk but the last are in the buffer when the last one is read.
      obtain ⟨body, last, rfl⟩ : ∃ body last, chunk = body ++ [last] :=
        ⟨chunk.dropLast, chunk.getLast (by rintro rfl; simp at full),
          (List.dropLast_append_getLast _).symm⟩
      rw [List.mem_append, not_or, List.mem_singleton] at absent
      rw [List.length_append, List.length_singleton] at full
      simp only [List.length_append, List.length_singleton] at small
      simp only [readJsonlPhysicalLine, Reader.ofBytes, List.map_append, List.append_assoc]
      rw [← empty, readLoop_append absent.1 [] (by simp; omega) (by simp; omega)]
      have exceeds : maxLineBytes < saturatingSucc body.length := by
        rw [saturatingSucc_of_lt (by omega)]
        omega
      simp [readLoop, Ne.symm absent.2, exceeds]
    refine ⟨read.1, fun body same => (by cases same), read.2, ?_⟩
    rw [List.length_append]
    omega
  · have read : readJsonlPhysicalLine (.ofBytes bytes) maxLineBytes =
        (.ok (if bytes.isEmpty then none else some ()), bytes, .ofBytes []) := by
      simp only [readJsonlPhysicalLine, Reader.ofBytes]
      rw [← List.append_nil (bytes.map Except.ok), ← empty,
        readLoop_append absent [] (by simpa using short) (by simpa using small)]
      rfl
    by_cases nothing : bytes = []
    · left
      rw [filePieces_rest absent short, read, if_pos nothing, nothing]
      exact ⟨rfl, rfl⟩
    · right
      refine ⟨.line bytes, [], ?_, ?_⟩
      · have done : filePieces maxLineBytes [] = [] := by
          rw [filePieces_rest (by simp) (by simp), if_pos rfl]
        rw [filePieces_rest absent short, if_neg nothing, done]
      · rw [read]
        refine ⟨?_, ?_, rfl, List.length_pos_iff.mpr nothing⟩
        · simp [nothing, Piece.returned]
        · rintro _ ⟨rfl⟩
          rfl

end Reading

end ExtensionSdkMongodb.LocalJsonl
