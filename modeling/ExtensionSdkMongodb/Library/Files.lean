import Mathlib.Data.List.Induction

/-!
# Files behind symbolic links

A tree of files with symbolic links, and how a path is resolved in it: name by name, with `.` and
`..`, where a link puts the names of its target in front of those that are left.

A place is the list of names on the way to it from the root. What a path is resolved to is a place
that is reached without links (`walk_at`), and such a place is resolved to itself (`walk_place`). A
path that is resolved has no part that is not (`walk_of_append`).
-/

set_option autoImplicit false

namespace Files

/-- The way from the root by names. -/
abbrev Place := List String

/-- A path: whether it starts at the root, and its names. -/
structure Route where
  absolute : Bool
  names : List String
  deriving DecidableEq, Repr

/-- What is at a place. -/
inductive Kind (α : Type) where
  | directory
  | file (content : α)
  | link (target : Route)

/-- A tree of files with contents `α`. Looking up a place answers what is there, or fails with the
text of an error. -/
structure FileTree (α : Type) where
  lookup : Place → Except String (Kind α)
  /-- How many links are followed on one path. -/
  maxLinks : ℕ
  root : lookup [] = .ok .directory

/-- `ENOTDIR`. -/
def notADirectory : String := "Not a directory (os error 20)"

/-- `ELOOP`. -/
def tooManyLinks : String := "Too many levels of symbolic links (os error 40)"

namespace FileTree

variable {α : Type} (tree : FileTree α)

/-! ## Resolution -/

/-- Resolution from a directory, up to a link that is followed. With `follow` a link at the end is
followed, too. -/
def walkWith (follow : Bool) (atLink : Place → List String → Except String Place) :
    Place → List String → Except String Place
  | cur, [] => .ok cur
  | cur, name :: names =>
    if name = "" ∨ name = "." then walkWith follow atLink cur names
    else if name = ".." then walkWith follow atLink cur.dropLast names
    else
      match tree.lookup (cur ++ [name]) with
      | .error e => .error e
      | .ok .directory => walkWith follow atLink (cur ++ [name]) names
      | .ok (.file _) => if names = [] then .ok (cur ++ [name]) else .error notADirectory
      | .ok (.link target) =>
        if names = [] ∧ follow = false then .ok (cur ++ [name])
        else atLink (if target.absolute then [] else cur) (target.names ++ names)

/-- Resolution along so many links. -/
def walk (follow : Bool) : ℕ → Place → List String → Except String Place
  | 0 => tree.walkWith follow fun _ _ => .error tooManyLinks
  | n + 1 => tree.walkWith follow (walk follow n)

/-- The place of an absolute path, along links up to its end. -/
def canonicalize (names : List String) : Except String Place :=
  tree.walk true tree.maxLinks [] names

/-- What is at an absolute path; a link at its end is not followed. -/
def symlinkMetadata (names : List String) : Except String (Kind α) :=
  tree.walk false tree.maxLinks [] names >>= tree.lookup

/-! ## Places -/

/-- A name of an entry. -/
def Proper (name : String) : Prop := name ≠ "" ∧ name ≠ "." ∧ name ≠ ".."

/-- The place of a directory. -/
inductive IsDirectory : Place → Prop where
  | root : IsDirectory []
  | child {place : Place} {name : String} (parent : IsDirectory place) (proper : Proper name)
      (here : tree.lookup (place ++ [name]) = .ok .directory) : IsDirectory (place ++ [name])

/-- A place that is reached without links; it may be a link itself, when those are not followed. -/
inductive At (follow : Bool) : Place → Prop where
  | directory {place : Place} (here : tree.IsDirectory place) : At follow place
  | file {place : Place} {name : String} {content : α} (parent : tree.IsDirectory place)
      (proper : Proper name) (here : tree.lookup (place ++ [name]) = .ok (.file content)) :
      At follow (place ++ [name])
  | link {place : Place} {name : String} {target : Route} (parent : tree.IsDirectory place)
      (proper : Proper name) (here : tree.lookup (place ++ [name]) = .ok (.link target))
      (kept : follow = false) : At follow (place ++ [name])

variable {tree}

theorem IsDirectory.lookup {place : Place} (directory : tree.IsDirectory place) :
    tree.lookup place = .ok .directory := by
  cases directory with
  | root => exact tree.root
  | child _ _ here => exact here

theorem IsDirectory.dropLast {place : Place} (directory : tree.IsDirectory place) :
    tree.IsDirectory place.dropLast := by
  cases directory with
  | root => exact .root
  | child parent _ _ =>
      rw [List.dropLast_concat]
      exact parent

/-- The parents of a directory are directories. -/
theorem IsDirectory.of_append {place : Place} {names : List String}
    (directory : tree.IsDirectory (place ++ names)) : tree.IsDirectory place := by
  induction names using List.reverseRecOn with
  | nil => simpa using directory
  | append_singleton names name ih =>
      apply ih
      have parent := directory.dropLast
      rwa [← List.append_assoc, List.dropLast_concat] at parent

/-- The parents of a place are directories. -/
theorem At.parent {follow : Bool} {place : Place} {name : String} {names : List String}
    (here : tree.At follow (place ++ name :: names)) :
    tree.IsDirectory place ∧ (names ≠ [] → tree.IsDirectory (place ++ [name])) := by
  have above : tree.IsDirectory (place ++ name :: names).dropLast := by
    generalize place ++ name :: names = whole at here
    cases here with
    | directory directory => exact directory.dropLast
    | file parent _ _ => rwa [List.dropLast_concat]
    | link parent _ _ _ => rwa [List.dropLast_concat]
  rw [List.dropLast_append_of_ne_nil (by simp)] at above
  refine ⟨above.of_append, fun more => ?_⟩
  obtain ⟨init, last, rfl⟩ : ∃ init last, names = init ++ [last] :=
    ⟨_, _, (List.dropLast_concat_getLast more).symm⟩
  rw [← List.cons_append, List.dropLast_concat, ← List.singleton_append,
    ← List.append_assoc] at above
  exact above.of_append

/-- There is a directory or a file at a place, and no link when those are followed. -/
theorem At.kind {place : Place} (here : tree.At true place) :
    tree.lookup place = .ok .directory ∧ tree.IsDirectory place ∨
      ∃ content, tree.lookup place = .ok (.file content) := by
  cases here with
  | directory directory => exact .inl ⟨directory.lookup, directory⟩
  | file _ _ found => exact .inr ⟨_, found⟩
  | link _ _ _ kept => cases kept

section Walk

variable {follow : Bool} {atLink : Place → List String → Except String Place}

/-- The step of a resolution by a name of an entry. -/
theorem walkWith_proper {name : String} (proper : Proper name) (cur : Place)
    (names : List String) :
    tree.walkWith follow atLink cur (name :: names) =
      match tree.lookup (cur ++ [name]) with
      | .error e => .error e
      | .ok .directory => tree.walkWith follow atLink (cur ++ [name]) names
      | .ok (.file _) => if names = [] then .ok (cur ++ [name]) else .error notADirectory
      | .ok (.link target) =>
        if names = [] ∧ follow = false then .ok (cur ++ [name])
        else atLink (if target.absolute then [] else cur) (target.names ++ names) := by
  have here : ¬ (name = "" ∨ name = ".") := fun special => special.elim proper.1 proper.2.1
  rw [walkWith, if_neg here, if_neg proper.2.2]

theorem walkWith_here {name : String} (here : name = "" ∨ name = ".") (cur : Place)
    (names : List String) :
    tree.walkWith follow atLink cur (name :: names) = tree.walkWith follow atLink cur names := by
  rw [walkWith, if_pos here]

theorem walkWith_parent (cur : Place) (names : List String) :
    tree.walkWith follow atLink cur (".." :: names) =
      tree.walkWith follow atLink cur.dropLast names := by
  rw [walkWith, if_neg (by decide), if_pos rfl]

/-- A name is one of an entry, or of the directory itself, or of its parent. -/
theorem name_cases (name : String) : Proper name ∨ (name = "" ∨ name = ".") ∨ name = ".." := by
  by_cases here : name = "" ∨ name = "."
  · exact .inr (.inl here)
  · by_cases parent : name = ".."
    · exact .inr (.inr parent)
    · exact .inl ⟨fun e => here (.inl e), fun e => here (.inr e), parent⟩

theorem walkWith_at
    (links : ∀ cur names place, tree.IsDirectory cur → atLink cur names = .ok place →
      tree.At follow place) {cur : Place} (directory : tree.IsDirectory cur)
    {names : List String} {place : Place}
    (resolved : tree.walkWith follow atLink cur names = .ok place) : tree.At follow place := by
  induction names generalizing cur with
  | nil =>
      cases resolved
      exact .directory directory
  | cons name names ih =>
      rcases name_cases name with proper | here | rfl
      · rw [walkWith_proper proper] at resolved
        cases found : tree.lookup (cur ++ [name]) with
        | error e =>
            rw [found] at resolved
            cases resolved
        | ok kind =>
            rw [found] at resolved
            cases kind with
            | directory => exact ih (directory.child proper found) resolved
            | file content =>
                simp only at resolved
                split at resolved
                · cases resolved
                  exact .file directory proper found
                · cases resolved
            | link target =>
                simp only at resolved
                split at resolved
                · next ended =>
                    cases resolved
                    exact .link directory proper found ended.2
                · refine links _ _ place ?_ resolved
                  split
                  · exact .root
                  · exact directory
      · rw [walkWith_here here] at resolved
        exact ih directory resolved
      · rw [walkWith_parent] at resolved
        exact ih directory.dropLast resolved

/-- **What a path is resolved to is reached without links.** -/
theorem walk_at {n : ℕ} {cur : Place} (directory : tree.IsDirectory cur) {names : List String}
    {place : Place} (resolved : tree.walk follow n cur names = .ok place) :
    tree.At follow place := by
  induction n generalizing cur names place with
  | zero => exact walkWith_at (fun _ _ _ _ failed => by cases failed) directory resolved
  | succ n ih => exact walkWith_at (fun _ _ _ there => ih there) directory resolved

/-- The way to a directory leads there. -/
theorem walkWith_append {cur : Place} (directory : tree.IsDirectory cur) (names : List String) :
    tree.walkWith follow atLink [] (cur ++ names) = tree.walkWith follow atLink cur names := by
  induction directory generalizing names with
  | root => rfl
  | child _ proper here ih =>
      rw [List.append_assoc, ih, List.singleton_append, walkWith_proper proper, here]

theorem walk_append (n : ℕ) {cur : Place} (directory : tree.IsDirectory cur)
    (names : List String) :
    tree.walk follow n [] (cur ++ names) = tree.walk follow n cur names := by
  cases n with
  | zero => exact walkWith_append directory names
  | succ n => exact walkWith_append directory names

/-- A resolution goes on in a directory that the next name is of. -/
theorem walk_directory (n : ℕ) {name : String} (proper : Proper name) {cur : Place}
    (found : tree.lookup (cur ++ [name]) = .ok .directory) (names : List String) :
    tree.walk follow n cur (name :: names) = tree.walk follow n (cur ++ [name]) names := by
  cases n with
  | zero => rw [walk, walkWith_proper proper, found]
  | succ n => rw [walk, walkWith_proper proper, found]

/-- A resolution ends at a file. -/
theorem walk_file (n : ℕ) {name : String} (proper : Proper name) {cur : Place} {content : α}
    (found : tree.lookup (cur ++ [name]) = .ok (.file content)) (names : List String) :
    tree.walk follow n cur (name :: names) =
      if names = [] then .ok (cur ++ [name]) else .error notADirectory := by
  cases n with
  | zero => rw [walk, walkWith_proper proper, found]
  | succ n => rw [walk, walkWith_proper proper, found]

/-- A resolution that does not follow links ends at one that its last name is of. -/
theorem walk_link (n : ℕ) {name : String} (proper : Proper name) {cur : Place} {target : Route}
    (found : tree.lookup (cur ++ [name]) = .ok (.link target)) :
    tree.walk false n cur [name] = .ok (cur ++ [name]) := by
  cases n with
  | zero => rw [walk, walkWith_proper proper, found]; rfl
  | succ n => rw [walk, walkWith_proper proper, found]; rfl

/-- A resolution fails where nothing can be looked up. -/
theorem walk_error (n : ℕ) {name : String} (proper : Proper name) {cur : Place} {e : String}
    (failed : tree.lookup (cur ++ [name]) = .error e) (names : List String) :
    tree.walk follow n cur (name :: names) = .error e := by
  cases n with
  | zero => rw [walk, walkWith_proper proper, failed]
  | succ n => rw [walk, walkWith_proper proper, failed]

theorem walk_here (n : ℕ) {name : String} (here : name = "" ∨ name = ".") (cur : Place)
    (names : List String) :
    tree.walk follow n cur (name :: names) = tree.walk follow n cur names := by
  cases n with
  | zero => exact walkWith_here here cur names
  | succ n => exact walkWith_here here cur names

theorem walk_nil (n : ℕ) (cur : Place) : tree.walk follow n cur [] = .ok cur := by
  cases n <;> rfl

/-- **A place that is reached without links is resolved to itself.** -/
theorem walk_place (n : ℕ) {place : Place} (here : tree.At true place) :
    tree.walk follow n [] place = .ok place := by
  cases here with
  | directory directory =>
      have down : tree.walk follow n [] (place ++ []) = tree.walk follow n place [] :=
        walk_append n directory []
      rw [List.append_nil] at down
      rw [down]
      exact walk_nil n place
  | file parent proper found =>
      rw [walk_append n parent, walk_file n proper found, if_pos rfl]
  | link _ _ _ kept => cases kept

/-! ## Parts of a path -/

theorem walkWith_of_append {atLast : Place → List String → Except String Place} {last : List String}
    (links : ∀ cur names place, atLink cur (names ++ last) = .ok place →
      ∃ part, atLast cur names = .ok part) {cur : Place} {names : List String} {place : Place}
    (resolved : tree.walkWith follow atLink cur (names ++ last) = .ok place) :
    ∃ part, tree.walkWith false atLast cur names = .ok part := by
  induction names generalizing cur with
  | nil => exact ⟨cur, rfl⟩
  | cons name names ih =>
      rw [List.cons_append] at resolved
      rcases name_cases name with proper | here | rfl
      · rw [walkWith_proper proper] at resolved ⊢
        cases found : tree.lookup (cur ++ [name]) with
        | error e =>
            rw [found] at resolved
            cases resolved
        | ok kind =>
            rw [found] at resolved
            cases kind with
            | directory => exact ih resolved
            | file content =>
                simp only at resolved ⊢
                by_cases ended : names = []
                · exact ⟨_, if_pos ended⟩
                · rw [if_neg (by simp [ended])] at resolved
                  cases resolved
            | link target =>
                simp only at resolved ⊢
                by_cases ended : names = []
                · exact ⟨_, if_pos ⟨ended, trivial⟩⟩
                · rw [if_neg (by simp [ended]), ← List.append_assoc] at resolved
                  rw [if_neg (by simp [ended])]
                  exact links _ _ place resolved
      · rw [walkWith_here here] at resolved ⊢
        exact ih resolved
      · rw [walkWith_parent] at resolved ⊢
        exact ih resolved

/-- **The parts of a path that is resolved exist.** -/
theorem walk_of_append {n : ℕ} {cur : Place} {names last : List String} {place : Place}
    (resolved : tree.walk follow n cur (names ++ last) = .ok place) :
    ∃ part, tree.walk false n cur names = .ok part := by
  induction n generalizing cur names place with
  | zero => exact walkWith_of_append (fun _ _ _ failed => by cases failed) resolved
  | succ n ih =>
      refine walkWith_of_append ?_ resolved
      intro cur names place there
      exact ih there

/-- What is at a place that is reached without links. -/
theorem At.lookup {place : Place} (here : tree.At follow place) :
    ∃ kind, tree.lookup place = .ok kind := by
  cases here with
  | directory directory => exact ⟨_, directory.lookup⟩
  | file _ _ found => exact ⟨_, found⟩
  | link _ _ found _ => exact ⟨_, found⟩

/-- There is something at every part of a path that is resolved. -/
theorem symlinkMetadata_of_append {names last : List String} {place : Place}
    (resolved : tree.canonicalize (names ++ last) = .ok place) :
    ∃ kind, tree.symlinkMetadata names = .ok kind := by
  obtain ⟨part, walked⟩ := walk_of_append resolved
  obtain ⟨kind, found⟩ := (walk_at .root walked).lookup
  refine ⟨kind, ?_⟩
  unfold symlinkMetadata
  rw [walked]
  exact found

end Walk

end FileTree

end Files
