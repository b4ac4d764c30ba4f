import Mathlib.Data.Finmap
import ElCarro.Lib.FileTree

/-! # Finite file systems

Files and directories under a finite number of paths, with the creation of a file, of the
directories above it, and the removal of a file or an empty directory. Seen from outside, a
file system is the partial map from paths to the contents of files: a creation sets it at one
path, a removal takes one path out of it, and directories do not show.
-/

namespace FileMap

open FileTree (Node)

variable {κ β : Type*} [DecidableEq κ]

abbrev Files (κ β : Type*) := Finmap fun _ : List κ => Node β

/-- The content of the file at a path. -/
def content (files : Files κ β) (path : List κ) : Option β :=
  match files.lookup path with
  | some (.file data) => some data
  | _ => none

def isDir (files : Files κ β) (path : List κ) : Bool :=
  match files.lookup path with
  | some .dir => true
  | _ => false

/-- There is a file at the path or on the way to it. -/
def Blocked (files : Files κ β) (path : List κ) : Prop :=
  ∃ q ∈ path.inits, (content files q).isSome

instance (files : Files κ β) (path : List κ) : Decidable (Blocked files path) :=
  inferInstanceAs (Decidable (∃ _ ∈ _, _))

/-- Make the directories of a list of paths. -/
def mkdirs (files : Files κ β) : List (List κ) → Files κ β
  | [] => files
  | q :: rest => mkdirs (files.insert q .dir) rest

/-- Make a directory and the ones above it; a file on the way is an error. -/
def mkdirAll (files : Files κ β) (path : List κ) : Option (Files κ β) :=
  if Blocked files path then none else some (mkdirs files path.inits)

/-- Open a file and write it; a directory at its path is an error. -/
def create (files : Files κ β) (path : List κ) (data : β) : Option (Files κ β) :=
  if isDir files path then none else some (files.insert path (.file data))

/-- There is something below the path. -/
def Populated (files : Files κ β) (path : List κ) : Prop :=
  ∃ q ∈ files.keys, path <+: q ∧ path ≠ q

instance (files : Files κ β) (path : List κ) : Decidable (Populated files path) :=
  inferInstanceAs (Decidable (∃ _ ∈ _, _))

inductive Removal (κ β : Type*) where
  | removed (files : Files κ β)
  | missing
  | refused

/-- Remove a directory that is empty. -/
def rmdir (files : Files κ β) (path : List κ) : Removal κ β :=
  match files.lookup path with
  | some .dir => if path = [] ∨ Populated files path then .refused else .removed (files.erase path)
  | some (.file _) => .refused
  | none => if Blocked files path then .refused else .missing

/-- Remove a file or an empty directory. -/
def remove (files : Files κ β) (path : List κ) : Removal κ β :=
  match files.lookup path with
  | some (.file _) => .removed (files.erase path)
  | _ => rmdir files path

section

variable {files files' : Files κ β} {path q : List κ} {data : β}

theorem content_insert_file :
    content (files.insert path (.file data)) =
      Function.update (content files) path (some data) := by
  ext1 q
  unfold content
  by_cases hq : q = path
  · subst hq
    rw [Finmap.lookup_insert, Function.update_self]
  · rw [Finmap.lookup_insert_of_ne _ hq, Function.update_of_ne hq]

theorem content_erase :
    content (files.erase path) = Function.update (content files) path none := by
  ext1 q
  unfold content
  by_cases hq : q = path
  · subst hq
    rw [Finmap.lookup_erase, Function.update_self]
  · rw [Finmap.lookup_erase_ne hq, Function.update_of_ne hq]

theorem content_insert_dir (h : content files path = none) :
    content (files.insert path .dir) = content files := by
  ext1 q
  by_cases hq : q = path
  · subst hq
    rw [h]
    unfold content
    rw [Finmap.lookup_insert]
  · unfold content
    rw [Finmap.lookup_insert_of_ne _ hq]

theorem content_mkdirs {paths : List (List κ)} (h : ∀ q ∈ paths, content files q = none) :
    content (mkdirs files paths) = content files := by
  induction paths generalizing files with
  | nil => rfl
  | cons q rest ih =>
    have hq := content_insert_dir (h q List.mem_cons_self)
    rw [mkdirs, ih, hq]
    intro q' hq'
    rw [hq]
    exact h q' (List.mem_cons_of_mem _ hq')

theorem isDir_mkdirs_of_notMem {paths : List (List κ)} (h : q ∉ paths) :
    isDir (mkdirs files paths) q = isDir files q := by
  induction paths generalizing files with
  | nil => rfl
  | cons q' rest ih =>
    rw [List.mem_cons, not_or] at h
    rw [mkdirs, ih h.2]
    unfold isDir
    rw [Finmap.lookup_insert_of_ne _ h.1]

theorem mkdirAll_eq_some (h : mkdirAll files path = some files') :
    ¬ Blocked files path ∧ files' = mkdirs files path.inits := by
  unfold mkdirAll at h
  split at h
  · cases h
  · next hblocked => exact ⟨hblocked, (Option.some.inj h).symm⟩

theorem mkdirAll_eq_none_iff : mkdirAll files path = none ↔ Blocked files path := by
  unfold mkdirAll
  split
  · next hblocked => exact iff_of_true rfl hblocked
  · next hblocked => exact iff_of_false (by simp) hblocked

/-- A path below the directory is not made with it. -/
theorem isDir_mkdirAll_below (h : mkdirAll files path = some files') (name : κ) :
    isDir files' (path ++ [name]) = isDir files (path ++ [name]) := by
  obtain ⟨-, rfl⟩ := mkdirAll_eq_some h
  apply isDir_mkdirs_of_notMem
  rw [List.mem_inits]
  intro hprefix
  have hlen := hprefix.length_le
  rw [List.length_append, List.length_singleton] at hlen
  omega

/-- Directories do not show. -/
theorem content_mkdirAll (h : mkdirAll files path = some files') :
    content files' = content files := by
  obtain ⟨hblocked, rfl⟩ := mkdirAll_eq_some h
  apply content_mkdirs
  intro q hq
  exact Option.not_isSome_iff_eq_none.mp fun hsome => hblocked ⟨q, hq, hsome⟩

theorem content_create (h : create files path data = some files') :
    content files' = Function.update (content files) path (some data) := by
  unfold create at h
  split at h
  · cases h
  · obtain rfl := Option.some.inj h
    exact content_insert_file

theorem create_eq_none_iff : create files path data = none ↔ isDir files path := by
  unfold create
  split
  · next hdir => exact ⟨fun _ => hdir, fun _ => rfl⟩
  · next hdir =>
    constructor
    · rintro ⟨⟩
    · exact fun h => absurd h hdir

theorem content_rmdir (h : rmdir files path = .removed files') :
    content files' = Function.update (content files) path none := by
  unfold rmdir at h
  split at h
  · split at h
    · cases h
    · cases h
      exact content_erase
  · cases h
  · split at h
    · cases h
    · cases h

theorem content_remove (h : remove files path = .removed files') :
    content files' = Function.update (content files) path none := by
  unfold remove at h
  split at h
  · cases h
    exact content_erase
  · exact content_rmdir h

theorem remove_of_content (h : content files path = some data) :
    remove files path = .removed (files.erase path) := by
  unfold content at h
  split at h
  · next hfile =>
    unfold remove
    rw [hfile]
  · cases h

theorem content_of_rmdir (h : rmdir files path = .removed files') : content files path = none := by
  unfold rmdir at h
  unfold content
  split at h
  · next hdir => rw [hdir]
  · cases h
  · split at h
    · cases h
    · cases h

end

end FileMap
