import ExtensionSdkMongodb.Data.Text
import ExtensionSdkMongodb.Examples.LocalJsonl.Lines
import ExtensionSdkMongodb.Examples.LocalJsonl.Options
import ExtensionSdkMongodb.Library.Files

/-!
# Paths under the allowed root

The path of a query is resolved under the root that the options name. With links allowed a path is
accepted if and only if its target is below the root (`resolve_ok_iff_of_links`). Without, it is
accepted if and only if its own names lead there (`resolve_ok_iff_of_plain`): no link is followed
below the root. What is opened is then what is at the place (`openFileForRead_resolved`).
-/

set_option autoImplicit false

namespace ExtensionSdkMongodb.LocalJsonl

open Files

/-- The files of the server, which stay as they are while a path is resolved. A file's content is
what opening it gives: a reader, or the text of an error. -/
structure ServerFiles where
  tree : FileTree (Except String Reader)
  workingDirectory : Place
  working : tree.IsDirectory workingDirectory

/-! ## Paths as texts -/

/-- `Path::display` of an absolute path. -/
def display (names : List String) : String := "/" ++ "/".intercalate names

/-- `std::fs::canonicalize`. -/
def ServerFiles.canonicalize (files : ServerFiles) (path : String) : Except String Place :=
  if '\x00' ∈ path.toList then .error "file name contained an unexpected NUL byte"
  else if path = "" then .error "No such file or directory (os error 2)"
  else if path.toList.head? = some '/' then files.tree.canonicalize (splitAt '/' path)
  else files.tree.walk true files.tree.maxLinks files.workingDirectory (splitAt '/' path)

/-! ## Validation -/

/-- The loop of `validate_stage_relative_path`. -/
def validateParts : List String → Except ExtensionError Unit
  | [] => .ok ()
  | part :: parts =>
    if part = ".." then
      .error (.badValue "path must not contain parent directory (..) segments")
    else if '\x00' ∈ part.toList then .error (.badValue "path contains NUL byte")
    else validateParts parts

/-- `validate_stage_relative_path`. -/
def validateStageRelativePath (path : String) : Except ExtensionError Unit :=
  let path := trim path
  if path = "" then .error (.failedToParse "missing required field \"path\"")
  else if path.toList.head? = some '/' ∨ '\\' ∈ path.toList then
    .error (.badValue "path must be a relative path (no leading slash or backslashes)")
  else validateParts (splitAt '/' path)

/-! ## Resolution -/

section Resolve

variable (files : ServerFiles) (cfg : JsonlExtensionConfig)

/-- The loop of `resolve_under_allowed_root`: each part is looked at before the next one. -/
def checkParts : (cur : List String) → List String → Except ExtensionError (List String)
  | cur, [] => .ok cur
  | cur, part :: parts =>
    if part = "" then checkParts cur parts
    else
      match files.tree.symlinkMetadata (cur ++ [part]) with
      | .error e =>
        .error (.runtime ("path not found: " ++ display (cur ++ [part]) ++ " (" ++ e ++ ")"))
      | .ok (.link _) =>
        if cfg.allowSymlinks = false then
          .error (.badValue ("symlink not allowed at " ++ display (cur ++ [part])))
        else checkParts (cur ++ [part]) parts
      | .ok _ => checkParts (cur ++ [part]) parts

/-- `resolve_under_allowed_root`. -/
def resolveUnderAllowedRoot (rel : String) : Except ExtensionError Place := do
  validateStageRelativePath rel
  let rel := trim rel
  let root ← (files.canonicalize cfg.allowedRoot).mapError fun e =>
    ExtensionError.runtime ("allowedRoot is not accessible: " ++ e)
  let cur ← checkParts files cfg root (splitAt '/' rel)
  let finalPath ← (files.tree.canonicalize cur).mapError fun e =>
    ExtensionError.runtime ("could not canonicalize target path: " ++ e)
  if root <+: finalPath then .ok finalPath
  else .error (.badValue "resolved path escapes allowedRoot")

/-- An open directory: every read fails. -/
def directoryReader : Reader := ⟨[], some "Is a directory (os error 21)"⟩

/-- Opening what is at a place. -/
def openAt (place : Place) : Except String Reader :=
  match files.tree.lookup place with
  | .error e => .error e
  | .ok .directory => .ok directoryReader
  | .ok (.file content) => content
  | .ok (.link _) => .error tooManyLinks

/-- `open_file_for_read`. Without links it opens with `O_NOFOLLOW`. -/
def openFileForRead (path : List String) (allowSymlinks : Bool) : Except ExtensionError Reader :=
  if allowSymlinks = false then
    (files.tree.walk false files.tree.maxLinks [] path >>= openAt files).mapError fun e =>
      .runtime ("open (no symlink follow): " ++ e)
  else
    (files.tree.canonicalize path >>= openAt files).mapError fun e => .runtime ("open file: " ++ e)

end Resolve

/-! ## What is accepted -/

/-- The parts of a path. -/
def partsOf (rel : String) : List String := splitAt '/' (trim rel)

/-- A path that a query may ask for. -/
structure Relative (rel : String) : Prop where
  nonempty : trim rel ≠ ""
  relative : (trim rel).toList.head? ≠ some '/'
  noBackslash : '\\' ∉ (trim rel).toList
  noParent : ".." ∉ partsOf rel
  noNul : ∀ part ∈ partsOf rel, '\x00' ∉ part.toList

theorem validateParts_ok_iff {parts : List String} :
    validateParts parts = .ok () ↔
      ".." ∉ parts ∧ ∀ part ∈ parts, '\x00' ∉ part.toList := by
  induction parts with
  | nil => simp [validateParts]
  | cons part parts ih =>
      rw [validateParts]
      by_cases parent : part = ".."
      · simp [parent]
      · rw [if_neg parent]
        by_cases nul : '\x00' ∈ part.toList
        · rw [if_pos nul]
          simp [nul]
        · rw [if_neg nul, ih]
          simp [Ne.symm parent, nul]

theorem validateStageRelativePath_ok_iff {rel : String} :
    validateStageRelativePath rel = .ok () ↔ Relative rel := by
  unfold validateStageRelativePath
  by_cases empty : trim rel = ""
  · simp only [empty, if_true]
    exact ⟨fun failed => (by cases failed), fun valid => absurd empty valid.nonempty⟩
  · simp only [empty, if_false]
    by_cases absolute : (trim rel).toList.head? = some '/' ∨ '\\' ∈ (trim rel).toList
    · rw [if_pos absolute]
      refine ⟨fun failed => (by cases failed), fun valid => ?_⟩
      exact (absolute.elim valid.relative valid.noBackslash).elim
    · rw [if_neg absolute, validateParts_ok_iff]
      rw [not_or] at absolute
      constructor
      · rintro ⟨noParent, noNul⟩
        exact ⟨empty, absolute.1, absolute.2, noParent, noNul⟩
      · intro valid
        exact ⟨valid.noParent, valid.noNul⟩

section Resolved

variable {files : ServerFiles} {cfg : JsonlExtensionConfig}

/-- The loop keeps the parts that are not empty. -/
theorem checkParts_eq {cur parts full : List String}
    (checked : checkParts files cfg cur parts = .ok full) :
    full = cur ++ parts.filter (· ≠ "") := by
  induction parts generalizing cur with
  | nil =>
      cases checked
      simp
  | cons part parts ih =>
      rw [checkParts] at checked
      by_cases empty : part = ""
      · rw [if_pos empty] at checked
        rw [ih checked]
        simp [empty]
      · rw [if_neg empty] at checked
        have kept : full = (cur ++ [part]) ++ parts.filter (· ≠ "") := by
          split at checked
          · cases checked
          · split at checked
            · cases checked
            · exact ih checked
          · exact ih checked
        rw [kept]
        simp [empty]

/-- With links allowed the loop accepts what can be resolved. -/
theorem checkParts_of_links (links : cfg.allowSymlinks = true) {cur parts : List String}
    {place : Place}
    (resolved : files.tree.canonicalize (cur ++ parts.filter (· ≠ "")) = .ok place) :
    checkParts files cfg cur parts = .ok (cur ++ parts.filter (· ≠ "")) := by
  induction parts generalizing cur with
  | nil => simp [checkParts]
  | cons part parts ih =>
      rw [checkParts]
      by_cases empty : part = ""
      · rw [if_pos empty]
        simp only [empty, ne_eq, not_true_eq_false, decide_false, Bool.false_eq_true,
          not_false_eq_true, List.filter_cons_of_neg] at resolved ⊢
        exact ih resolved
      · have split : cur ++ (part :: parts).filter (· ≠ "") =
            (cur ++ [part]) ++ parts.filter (· ≠ "") := by simp [empty]
        rw [split] at resolved ⊢
        obtain ⟨kind, found⟩ := FileTree.symlinkMetadata_of_append resolved
        rw [if_neg empty, found]
        cases kind with
        | directory => exact ih resolved
        | file content => exact ih resolved
        | link target =>
            simp only [links, Bool.true_eq_false, if_false]
            exact ih resolved

/-- The steps of the resolution. -/
theorem resolve_ok_iff {rel : String} {place : Place} :
    resolveUnderAllowedRoot files cfg rel = .ok place ↔
      Relative rel ∧ ∃ root, files.canonicalize cfg.allowedRoot = .ok root ∧
        (∃ cur, checkParts files cfg root (partsOf rel) = .ok cur ∧
          files.tree.canonicalize cur = .ok place) ∧ root <+: place := by
  unfold resolveUnderAllowedRoot
  simp only [bind_ok, mapError_ok, partsOf]
  constructor
  · rintro ⟨⟨⟩, valid, root, found, cur, checked, final, resolved, ended⟩
    split at ended
    · next below =>
        cases ended
        exact ⟨validateStageRelativePath_ok_iff.mp valid, root, found, ⟨cur, checked, resolved⟩,
          below⟩
    · cases ended
  · rintro ⟨valid, root, found, ⟨cur, checked, resolved⟩, below⟩
    exact ⟨(), validateStageRelativePath_ok_iff.mpr valid, root, found, cur, checked, place,
      resolved, if_pos below⟩

/-- **With links allowed** a path is accepted if and only if it leads to a place below the root. -/
theorem resolve_ok_iff_of_links (links : cfg.allowSymlinks = true) {rel : String} {place : Place} :
    resolveUnderAllowedRoot files cfg rel = .ok place ↔
      Relative rel ∧ ∃ root, files.canonicalize cfg.allowedRoot = .ok root ∧
        files.tree.canonicalize (root ++ (partsOf rel).filter (· ≠ "")) = .ok place ∧
        root <+: place := by
  rw [resolve_ok_iff]
  constructor
  · rintro ⟨valid, root, found, ⟨cur, checked, resolved⟩, below⟩
    rw [checkParts_eq checked] at resolved
    exact ⟨valid, root, found, resolved, below⟩
  · rintro ⟨valid, root, found, resolved, below⟩
    exact ⟨valid, root, found, ⟨_, checkParts_of_links links resolved, resolved⟩, below⟩

/-! ## Without links -/

/-- A path leads to a directory, however it goes on. -/
def Leads (files : ServerFiles) (cur : List String) (place : Place) : Prop :=
  ∀ follow rest, files.tree.walk follow files.tree.maxLinks [] (cur ++ rest) =
    files.tree.walk follow files.tree.maxLinks place rest

/-- From a directory the names of a path lead to a place: a directory, or a file behind which only
empty parts follow. -/
structure Reaches (files : ServerFiles) (place : Place) (parts : List String) (final : Place) :
    Prop where
  names : final = place ++ parts.filter fun part => part ≠ "" ∧ part ≠ "."
  here : files.tree.At true final
  ends : files.tree.IsDirectory final ∨ (parts.filter (· ≠ "")).getLast? ≠ some "."

theorem noNames_of_empty {parts : List String} (nothing : parts.filter (· ≠ "") = []) :
    parts.filter (fun part => part ≠ "" ∧ part ≠ ".") = [] := by
  rw [List.filter_eq_nil_iff] at nothing ⊢
  intro part mem
  have empty := nothing part mem
  simp only [ne_eq, decide_eq_true_eq, not_not] at empty
  simp [empty]

section Reaches

variable {place final : Place} {part : String} {parts : List String}

theorem reaches_nil (directory : files.tree.IsDirectory place) :
    Reaches files place [] final ↔ final = place := by
  constructor
  · rintro ⟨names, -, -⟩
    simpa using names
  · rintro rfl
    exact ⟨by simp, .directory directory, .inl directory⟩

theorem reaches_empty :
    Reaches files place ("" :: parts) final ↔ Reaches files place parts final := by
  constructor
  · rintro ⟨names, here, ends⟩
    exact ⟨by simpa using names, here, by simpa using ends⟩
  · rintro ⟨names, here, ends⟩
    exact ⟨by simpa using names, here, by simpa using ends⟩

/-- A directory is reached also when the path names it itself. -/
theorem reaches_dot (directory : files.tree.IsDirectory place) :
    Reaches files place ("." :: parts) final ↔ Reaches files place parts final := by
  have last : (("." :: parts).filter (· ≠ "")).getLast? =
      some (((parts.filter (· ≠ "")).getLast?).getD ".") := by
    rw [List.filter_cons_of_pos (by decide), List.getLast?_cons]
  constructor
  · rintro ⟨names, here, ends⟩
    refine ⟨by simpa using names, here, ends.imp_right fun other dot => other ?_⟩
    rw [last, dot]
    rfl
  · rintro ⟨names, here, ends⟩
    refine ⟨by simpa using names, here, ?_⟩
    rw [last]
    cases kept : (parts.filter (· ≠ "")).getLast? with
    | none =>
        left
        have nothing : parts.filter (· ≠ "") = [] := List.getLast?_eq_none_iff.mp kept
        rw [noNames_of_empty nothing, List.append_nil] at names
        rwa [names]
    | some other =>
        rw [kept] at ends
        exact ends

theorem reaches_proper (proper : FileTree.Proper part) :
    Reaches files place (part :: parts) final ↔ Reaches files (place ++ [part]) parts final := by
  have last : ((part :: parts).filter (· ≠ "")).getLast? ≠ some "." ↔
      (parts.filter (· ≠ "")).getLast? ≠ some "." := by
    rw [List.filter_cons_of_pos (by simpa using proper.1), List.getLast?_cons]
    cases (parts.filter (· ≠ "")).getLast? with
    | none => simp [proper.2.1]
    | some other => simp
  have names : (part :: parts).filter (fun part => part ≠ "" ∧ part ≠ ".") =
      part :: parts.filter (fun part => part ≠ "" ∧ part ≠ ".") := by
    simp [proper.1, proper.2.1]
  constructor
  · rintro ⟨named, here, ends⟩
    refine ⟨?_, here, ends.imp_right last.mp⟩
    rw [named, names, List.append_assoc, List.singleton_append]
  · rintro ⟨named, here, ends⟩
    refine ⟨?_, here, ends.imp_right last.mpr⟩
    rw [named, names, List.append_assoc, List.singleton_append]

/-- What is at the first name of a path that reaches a place. -/
theorem Reaches.first (proper : FileTree.Proper part)
    (reaches : Reaches files place (part :: parts) final) :
    files.tree.lookup (place ++ [part]) = .ok .directory ∨
      (parts.filter (· ≠ "") = [] ∧
        ∃ content, files.tree.lookup (place ++ [part]) = .ok (.file content)) := by
  obtain ⟨named, here, ends⟩ := (reaches_proper proper).mp reaches
  by_cases more : parts.filter (fun part => part ≠ "" ∧ part ≠ ".") = []
  · rw [more, List.append_nil] at named
    subst named
    rcases here.kind with ⟨directory, -⟩ | ⟨content, found⟩
    · exact .inl directory
    · refine .inr ⟨?_, content, found⟩
      rcases ends with directory | other
      · rw [directory.lookup] at found
        cases found
      · cases kept : (parts.filter (· ≠ "")).getLast? with
        | none => exact List.getLast?_eq_none_iff.mp kept
        | some last =>
            -- The parts that are kept are all ".", and so is the last one.
            have mem := List.mem_of_getLast? kept
            rw [List.mem_filter] at mem
            have dropped := List.filter_eq_nil_iff.mp more last mem.1
            have dot : last = "." := by simpa [mem.2] using dropped
            rw [kept, dot] at other
            exact absurd rfl other
  · left
    rw [named] at here
    obtain ⟨name, names, split⟩ := List.exists_cons_of_ne_nil more
    rw [split] at here
    exact here.parent.1.lookup

end Reaches

/-- Looking at what a name leads to. -/
theorem Leads.symlinkMetadata {cur : List String} {place : Place} (leads : Leads files cur place)
    (name : String) :
    files.tree.symlinkMetadata (cur ++ [name]) =
      files.tree.walk false files.tree.maxLinks place [name] >>= files.tree.lookup := by
  unfold FileTree.symlinkMetadata
  rw [leads false [name]]

/-- A path to a directory leads there. -/
theorem leads_of_directory {place : Place} (directory : files.tree.IsDirectory place) :
    Leads files place place := fun _ rest => FileTree.walk_append _ directory rest

/-- A path goes on to a directory that the next name is of. -/
theorem Leads.child {cur : List String} {place : Place} (leads : Leads files cur place)
    {name : String} (proper : FileTree.Proper name)
    (found : files.tree.lookup (place ++ [name]) = .ok .directory) :
    Leads files (cur ++ [name]) (place ++ [name]) := by
  intro follow rest
  rw [List.append_assoc, leads, List.singleton_append, FileTree.walk_directory _ proper found]

/-- Behind a file the loop accepts empty parts only. -/
theorem checkParts_file {cur : List String} {place : Place} {name : String}
    (leads : Leads files cur place) (proper : FileTree.Proper name) {content : Except String Reader}
    (found : files.tree.lookup (place ++ [name]) = .ok (.file content)) {parts full : List String} :
    checkParts files cfg (cur ++ [name]) parts = .ok full ↔
      parts.filter (· ≠ "") = [] ∧ full = cur ++ [name] := by
  induction parts with
  | nil => simp [checkParts, eq_comm]
  | cons part parts ih =>
      rw [checkParts]
      by_cases empty : part = ""
      · rw [if_pos empty, ih]
        simp [empty]
      · have nothing : files.tree.symlinkMetadata (cur ++ [name] ++ [part]) =
            .error notADirectory := by
          unfold FileTree.symlinkMetadata
          rw [List.append_assoc, leads, List.singleton_append, FileTree.walk_file _ proper found,
            if_neg (by simp)]
          rfl
        rw [if_neg empty, nothing]
        simp [empty]

/-- **The loop without links** accepts exactly the names that lead to a place. -/
theorem checkParts_plain (plain : cfg.allowSymlinks = false) {cur parts : List String}
    {place : Place} (directory : files.tree.IsDirectory place) (leads : Leads files cur place)
    (noParent : ".." ∉ parts) {final : Place} :
    (∃ full, checkParts files cfg cur parts = .ok full ∧
      files.tree.canonicalize full = .ok final) ↔ Reaches files place parts final := by
  induction parts generalizing cur place with
  | nil =>
      have here : files.tree.canonicalize cur = .ok place := by
        have walked := leads true []
        rw [List.append_nil, FileTree.walk_nil] at walked
        exact walked
      simp [reaches_nil directory, checkParts, here, eq_comm]
  | cons part parts ih =>
      rw [List.mem_cons, not_or] at noParent
      rw [checkParts]
      rcases FileTree.name_cases part with proper | (rfl | rfl) | rfl
      · rw [if_neg proper.1, leads.symlinkMetadata]
        cases found : files.tree.lookup (place ++ [part]) with
        | error e =>
            rw [FileTree.walk_error _ proper found]
            refine ⟨fun ⟨_, failed, _⟩ => (by cases failed), fun reaches => ?_⟩
            have first := reaches.first proper
            rw [found] at first
            rcases first with first | ⟨-, _, first⟩
            · cases first
            · cases first
        | ok kind =>
            cases kind with
            | directory =>
                rw [FileTree.walk_directory _ proper found, FileTree.walk_nil,
                  reaches_proper proper,
                  ← ih (directory.child proper found) (leads.child proper found) noParent.2]
                simp [bind, Except.bind, found]
            | file content =>
                rw [FileTree.walk_file _ proper found, if_pos rfl]
                simp only [bind, Except.bind, found]
                have resolved :
                    files.tree.canonicalize (cur ++ [part]) = .ok (place ++ [part]) := by
                  unfold FileTree.canonicalize
                  rw [leads, FileTree.walk_file _ proper found, if_pos rfl]
                constructor
                · rintro ⟨full, checked, ended⟩
                  obtain ⟨nothing, rfl⟩ := (checkParts_file leads proper found).mp checked
                  obtain rfl := Except.ok.inj (resolved.symm.trans ended)
                  refine (reaches_proper proper).mpr ⟨?_, .file directory proper found, .inr ?_⟩
                  · rw [noNames_of_empty nothing, List.append_nil]
                  · rw [nothing]
                    exact nofun
                · intro reaches
                  have first := reaches.first proper
                  rw [found] at first
                  rcases first with first | ⟨nothing, -⟩
                  · cases first
                  · have names := ((reaches_proper proper).mp reaches).names
                    rw [noNames_of_empty nothing, List.append_nil] at names
                    rw [names]
                    exact ⟨_, (checkParts_file leads proper found).mpr ⟨nothing, rfl⟩, resolved⟩
            | link target =>
                rw [FileTree.walk_link _ proper found]
                simp only [bind, Except.bind, found, plain, if_true]
                refine ⟨fun ⟨_, failed, _⟩ => (by cases failed), fun reaches => ?_⟩
                have first := reaches.first proper
                rw [found] at first
                rcases first with first | ⟨-, _, first⟩
                · cases first
                · cases first
      · rw [if_pos rfl, reaches_empty]
        exact ih directory leads noParent.2
      · have dot : Leads files (cur ++ ["."]) place := by
          intro follow rest
          rw [List.append_assoc, leads, List.singleton_append, FileTree.walk_here _ (.inr rfl)]
        rw [if_neg (by decide), leads.symlinkMetadata, FileTree.walk_here _ (.inr rfl),
          FileTree.walk_nil, reaches_dot directory, ← ih directory dot noParent.2]
        simp [bind, Except.bind, directory.lookup]
      · exact absurd rfl noParent.1

/-- Where resolution without links ends is below its root. -/
theorem Reaches.below {place final : Place} {parts : List String}
    (reaches : Reaches files place parts final) : place <+: final :=
  ⟨_, reaches.names.symm⟩

/-- The root is a directory, or a file. -/
theorem canonicalize_at {path : String} {root : Place}
    (found : files.canonicalize path = .ok root) : files.tree.At true root := by
  unfold ServerFiles.canonicalize at found
  split at found
  · cases found
  · split at found
    · cases found
    · split at found
      · exact FileTree.walk_at .root found
      · exact FileTree.walk_at files.working found

/-- The first part of a path is not empty. -/
theorem Relative.first {rel : String} (valid : Relative rel) :
    ∃ part parts, partsOf rel = part :: parts ∧ part ≠ "" := by
  have nonempty := valid.nonempty
  have relative := valid.relative
  unfold partsOf splitAt
  generalize trim rel = text at nonempty relative ⊢
  cases chars : text.toList with
  | nil => exact absurd (String.toList_eq_nil_iff.mp chars) nonempty
  | cons c rest =>
      rw [chars] at relative
      have other : (c == '/') = false := by simpa using relative
      rw [List.splitOn_cons_eq_if_modifyHead, other]
      cases split : rest.splitOn '/' with
      | nil => exact absurd split (List.splitOn_ne_nil _ _)
      | cons part parts =>
          refine ⟨.ofList (c :: part), parts.map .ofList, by simp, ?_⟩
          intro empty
          have chars := congrArg String.toList empty
          simp at chars

/-- Nothing is below a file. -/
theorem checkParts_of_file_root {root : Place} {name : String}
    (parent : files.tree.IsDirectory root) (proper : FileTree.Proper name)
    {content : Except String Reader}
    (found : files.tree.lookup (root ++ [name]) = .ok (.file content)) {part : String}
    (nonempty : part ≠ "") (parts cur : List String) :
    checkParts files cfg (root ++ [name]) (part :: parts) ≠ .ok cur := by
  rw [ne_eq, checkParts_file (leads_of_directory parent) proper found]
  simp [nonempty]

/-- **Without links** a path is accepted if and only if its names lead to the place. -/
theorem resolve_ok_iff_of_plain (plain : cfg.allowSymlinks = false) {rel : String}
    {place : Place} :
    resolveUnderAllowedRoot files cfg rel = .ok place ↔
      Relative rel ∧ ∃ root, files.canonicalize cfg.allowedRoot = .ok root ∧
        files.tree.IsDirectory root ∧ Reaches files root (partsOf rel) place := by
  rw [resolve_ok_iff]
  constructor
  · rintro ⟨valid, root, found, resolved, below⟩
    refine ⟨valid, root, found, ?_⟩
    cases canonicalize_at found with
    | directory directory =>
        exact ⟨directory, (checkParts_plain plain directory (leads_of_directory directory)
          valid.noParent).mp resolved⟩
    | file parent proper there =>
        obtain ⟨part, parts, split, nonempty⟩ := valid.first
        obtain ⟨cur, checked, -⟩ := resolved
        rw [split] at checked
        exact absurd checked (checkParts_of_file_root parent proper there nonempty parts cur)
    | link _ _ _ kept => cases kept
  · rintro ⟨valid, root, found, directory, reaches⟩
    exact ⟨valid, root, found, (checkParts_plain plain directory (leads_of_directory directory)
      valid.noParent).mpr reaches, reaches.below⟩

/-- What is accepted is below the root, and is reached without links. -/
theorem resolved_below {rel : String} {place : Place}
    (resolved : resolveUnderAllowedRoot files cfg rel = .ok place) :
    files.tree.At true place ∧
      ∃ root, files.canonicalize cfg.allowedRoot = .ok root ∧ root <+: place := by
  obtain ⟨-, root, found, ⟨cur, -, ended⟩, below⟩ := resolve_ok_iff.mp resolved
  exact ⟨FileTree.walk_at .root ended, root, found, below⟩

/-- **Which paths are accepted**, and as which place: with links allowed those that lead to a place
below the root, and otherwise those whose own names lead to it. -/
theorem resolveUnderAllowedRoot_ok_iff (files : ServerFiles) (cfg : JsonlExtensionConfig)
    (rel : String) (place : Place) :
    resolveUnderAllowedRoot files cfg rel = .ok place ↔
      Relative rel ∧ ∃ root, files.canonicalize cfg.allowedRoot = .ok root ∧
        if cfg.allowSymlinks then
          files.tree.canonicalize (root ++ (partsOf rel).filter (· ≠ "")) = .ok place ∧
            root <+: place
        else files.tree.IsDirectory root ∧ Reaches files root (partsOf rel) place := by
  cases links : cfg.allowSymlinks with
  | true => exact resolve_ok_iff_of_links links
  | false => exact resolve_ok_iff_of_plain links

/-! ## What is opened -/

/-- What is opened is the file at the place, or the directory. -/
theorem openAt_ok {place : Place} {reader : Reader} (opened : openAt files place = .ok reader) :
    files.tree.lookup place = .ok (.file (.ok reader)) ∨
      files.tree.lookup place = .ok .directory ∧ reader = directoryReader := by
  unfold openAt at opened
  split at opened
  · cases opened
  · next found =>
      cases opened
      exact .inr ⟨found, rfl⟩
  · next content found =>
      left
      rw [found, opened]
  · cases opened

/-- Opening a place that is reached without links opens what is there. -/
theorem openFileForRead_place {place : Place} (here : files.tree.At true place)
    {allowSymlinks : Bool} {reader : Reader} :
    openFileForRead files place allowSymlinks = .ok reader ↔
      openAt files place = .ok reader := by
  have walked : ∀ follow, files.tree.walk follow files.tree.maxLinks [] place = .ok place :=
    fun follow => FileTree.walk_place _ here
  unfold openFileForRead FileTree.canonicalize
  simp only [walked, bind, Except.bind]
  split
  · exact mapError_ok
  · exact mapError_ok

end Resolved

end ExtensionSdkMongodb.LocalJsonl
