import Mathlib.Data.List.Basic
import Mathlib.Data.List.Infix
import Mathlib.Data.List.Nodup
import Mathlib.Data.List.Pairwise

/-! # File trees

A file system as a partial map from paths to nodes, with the creation of a file and of the
directories above it. Files that are created one after the other, none of them below
another, end up side by side, and nothing else changes.
-/

namespace FileTree

inductive Node (δ : Type*) where
  | dir
  | file (data : δ)
  deriving DecidableEq

/-- The node at each path, where there is one. -/
abbrev Fs (κ δ : Type*) := List κ → Option (Node δ)

variable {κ δ : Type*} [DecidableEq κ]

def Node.isFile : Node δ → Bool
  | .dir => false
  | .file _ => true

/-- Make a directory and the ones above it; a file on the way is an error. -/
def mkdirAll (fs : Fs κ δ) (path : List κ) : Option (Fs κ δ) :=
  if path.inits.any fun q => (fs q).any Node.isFile then none
  else some fun q => if q <+: path then some .dir else fs q

/-- Open a file and write it; a directory at its path is an error. -/
def create (fs : Fs κ δ) (path : List κ) (data : δ) : Option (Fs κ δ) :=
  match fs path with
  | some .dir => none
  | _ => some fun q => if q = path then some (.file data) else fs q

def createFile (fs : Fs κ δ) (path : List κ) (data : δ) : Option (Fs κ δ) :=
  (mkdirAll fs path.dropLast).bind fun fs => create fs path data

def createFiles (fs : Fs κ δ) : List (List κ × δ) → Option (Fs κ δ)
  | [] => some fs
  | (path, data) :: files => (createFile fs path data).bind fun fs => createFiles fs files

/-- The file system with these files and the directories above them. -/
def layOut (fs : Fs κ δ) (files : List (List κ × δ)) : Fs κ δ := fun q =>
  match files.find? fun f => f.1 = q with
  | some f => some (.file f.2)
  | none => if files.any fun f => q <+: f.1 then some .dir else fs q

/-- Neither file is at or below the path of the other. -/
def Beside (f g : List κ × δ) : Prop := ¬ f.1 <+: g.1 ∧ ¬ g.1 <+: f.1

instance (f g : List κ × δ) : Decidable (Beside f g) := inferInstanceAs (Decidable (_ ∧ _))

instance : Std.Symm (@Beside κ δ) := ⟨fun _ _ h => ⟨h.2, h.1⟩⟩

/-- The files lie side by side. -/
abbrev Apart (files : List (List κ × δ)) : Prop := files.Pairwise Beside

/-- The file system leaves room for a file: directories above it, and nothing at its path. -/
structure Room (fs : Fs κ δ) (path : List κ) : Prop where
  ne_nil : path ≠ []
  above : ∀ q, q <+: path → q ≠ path → ∀ node ∈ fs q, node.isFile = false
  free : fs path = none

section Files

variable {fs : Fs κ δ} {files : List (List κ × δ)} {path q : List κ} {data : δ}

theorem layOut_nil : layOut fs [] = fs := by
  funext q
  simp [layOut]

omit [DecidableEq κ] in
theorem prefix_dropLast_iff (hne : path ≠ []) : q <+: path.dropLast ↔ q <+: path ∧ q ≠ path := by
  constructor
  · intro h
    refine ⟨h.trans (List.dropLast_prefix path), ?_⟩
    rintro rfl
    have hlen := h.length_le
    have hpos : 0 < q.length := List.length_pos_iff.mpr hne
    rw [List.length_dropLast] at hlen
    omega
  · rintro ⟨h, hq⟩
    have hlt : q.length < path.length := by
      apply lt_of_le_of_ne h.length_le
      intro hlen
      exact hq (h.eq_of_length hlen)
    rw [List.dropLast_eq_take, List.prefix_take_iff]
    exact ⟨h, by omega⟩

omit [DecidableEq κ] in
/-- Of files that lie apart, a path has one at most. -/
theorem eq_of_apart (h : Apart files) {f g : List κ × δ} (hf : f ∈ files) (hg : g ∈ files)
    (heq : f.1 = g.1) : f = g := by
  by_contra hne
  exact (List.Pairwise.forall h hf hg hne).1 (heq ▸ List.prefix_refl _)

theorem find?_eq_some_iff_of_apart (h : Apart files) {f : List κ × δ} :
    files.find? (fun f => f.1 = q) = some f ↔ f ∈ files ∧ f.1 = q := by
  constructor
  · intro hfind
    exact ⟨List.mem_of_find?_eq_some hfind, by simpa using List.find?_some hfind⟩
  · rintro ⟨hf, hq⟩
    cases hfind : files.find? (fun f => f.1 = q) with
    | none =>
      rw [List.find?_eq_none] at hfind
      exact absurd (decide_eq_true hq) (hfind f hf)
    | some g =>
      have hg : g.1 = q := by simpa using List.find?_some hfind
      rw [eq_of_apart h (List.mem_of_find?_eq_some hfind) hf (hg.trans hq.symm)]

theorem find?_eq_none_of (h : ∀ f ∈ files, f.1 ≠ q) : files.find? (fun f => f.1 = q) = none := by
  rw [List.find?_eq_none]
  intro f hf heq
  exact h f hf (of_decide_eq_true heq)

/-- A path that no file of the list is at or below. -/
theorem layOut_of_not_above (h : ∀ f ∈ files, ¬ q <+: f.1) : layOut fs files q = fs q := by
  have hfind := find?_eq_none_of fun f hf heq => h f hf (heq ▸ List.prefix_refl _)
  have hany : (files.any fun f => q <+: f.1) = false := by
    simpa using h
  simp [layOut, hfind, hany]

theorem layOut_file (happart : Apart files) (h : (path, data) ∈ files) :
    layOut fs files path = some (.file data) := by
  have hfind := (find?_eq_some_iff_of_apart happart).mpr ⟨h, rfl⟩
  simp [layOut, hfind]

/-- Where the file system has a file afterwards, it is one of the list or was there before. -/
theorem mem_of_layOut_file (h : layOut fs files q = some (.file data)) :
    (q, data) ∈ files ∨ fs q = some (.file data) := by
  unfold layOut at h
  split at h
  · next f hf =>
    have heq : f.1 = q := by simpa using List.find?_some hf
    obtain rfl : f.2 = data := by simpa using h
    left
    rw [← heq]
    exact List.mem_of_find?_eq_some hf
  · split at h
    · simp at h
    · exact .inr h

/-- The order in which the files are created makes no difference. -/
theorem layOut_perm (happart : Apart files) {more : List (List κ × δ)} (h : files.Perm more) :
    layOut fs files = layOut fs more := by
  have hmore : Apart more := h.pairwise happart fun hfg => ⟨hfg.2, hfg.1⟩
  funext q
  have hfind : files.find? (fun f => f.1 = q) = more.find? (fun f => f.1 = q) := by
    apply Option.ext
    intro f
    rw [find?_eq_some_iff_of_apart happart, find?_eq_some_iff_of_apart hmore, h.mem_iff]
  have hany : (files.any fun f => q <+: f.1) = more.any fun f => q <+: f.1 := by
    rw [Bool.eq_iff_iff, List.any_eq_true, List.any_eq_true]
    simp only [h.mem_iff]
  simp only [layOut, hfind, hany]

/-- Above a new file there are directories only. -/
theorem not_isFile_layOut (hroom : Room fs path) (h : ∀ f ∈ files, ¬ f.1 <+: path) (hq : q <+: path)
    (hne : q ≠ path) : ∀ node ∈ layOut fs files q, node.isFile = false := by
  intro node hnode
  cases node with
  | dir => rfl
  | file data =>
    rcases mem_of_layOut_file hnode with hmem | hfs
    · exact absurd hq (h _ hmem)
    · exact hroom.above q hq hne _ hfs

/-- A file is created beside the others. -/
theorem createFile_layOut (hroom : Room fs path)
    (h : ∀ f ∈ files, Beside f (path, data)) :
    createFile (layOut fs files) path data = some (layOut fs (files ++ [(path, data)])) := by
  have habove : ((path.dropLast).inits.any fun q => (layOut fs files q).any Node.isFile) = false := by
    rw [List.any_eq_false]
    intro q hq hany
    rw [List.mem_inits, prefix_dropLast_iff hroom.ne_nil] at hq
    obtain ⟨node, hnode, hfile⟩ := (Option.any_eq_true _ _).mp hany
    have hno := not_isFile_layOut hroom (fun f hf => (h f hf).1) hq.1 hq.2 node hnode
    rw [hno] at hfile
    cases hfile
  have hfree : layOut fs files path = none := by
    rw [layOut_of_not_above fun f hf => (h f hf).2]
    exact hroom.free
  have hself : ¬ path <+: path.dropLast := by
    rw [prefix_dropLast_iff hroom.ne_nil]
    simp
  simp only [createFile, mkdirAll, habove, Bool.false_eq_true, if_false, Option.bind_some, create,
    if_neg hself, hfree]
  congr 1
  funext q
  by_cases hq : q = path
  · subst hq
    have hfind := find?_eq_none_of fun f hf heq => (h f hf).1 (heq ▸ List.prefix_refl _)
    simp [layOut, List.find?_append, hfind]
  · have hne : path ≠ q := fun heq => hq heq.symm
    rw [if_neg hq]
    by_cases habv : q <+: path
    · -- a directory above the new file
      have hfind := find?_eq_none_of fun f hf heq => (h f hf).1 (heq ▸ habv)
      simp [prefix_dropLast_iff hroom.ne_nil, habv, hq, layOut, List.find?_append, hfind, hne]
    · have hdrop : ¬ q <+: path.dropLast := fun hd => habv ((prefix_dropLast_iff hroom.ne_nil).mp hd).1
      have hfind : (files ++ [(path, data)]).find? (fun f => f.1 = q) =
          files.find? (fun f => f.1 = q) := by
        simp [List.find?_append, hne]
      have hany : ((files ++ [(path, data)]).any fun f => q <+: f.1) =
          files.any fun f => q <+: f.1 := by
        simp [habv]
      simp only [if_neg hdrop, layOut, hfind, hany]

theorem createFiles_layOut {more : List (List κ × δ)} (hroom : ∀ f ∈ more, Room fs f.1)
    (happart : Apart (files ++ more)) :
    createFiles (layOut fs files) more = some (layOut fs (files ++ more)) := by
  induction more generalizing files with
  | nil => simp [createFiles]
  | cons f more ih =>
    obtain ⟨path, data⟩ := f
    have hbeside : ∀ g ∈ files, Beside g (path, data) := by
      intro g hg
      exact (List.pairwise_append.mp happart).2.2 g hg _ List.mem_cons_self
    have hassoc : files ++ (path, data) :: more = (files ++ [(path, data)]) ++ more := by simp
    rw [createFiles, createFile_layOut (hroom _ List.mem_cons_self) hbeside, Option.bind_some, hassoc]
    apply ih
    · intro g hg
      exact hroom g (List.mem_cons_of_mem _ hg)
    · rwa [← hassoc]

/-- Files that lie apart and have room are created one after the other. -/
theorem createFiles_eq (hroom : ∀ f ∈ files, Room fs f.1) (happart : Apart files) :
    createFiles fs files = some (layOut fs files) := by
  have h := @createFiles_layOut κ δ _ fs [] files hroom happart
  rwa [layOut_nil] at h

end Files

section Below

variable {fs : Fs κ δ} {files : List (List κ × δ)} {top q : List κ}

/-- The files moved below a directory. -/
def below (top : List κ) (files : List (List κ × δ)) : List (List κ × δ) :=
  files.map fun f => (top ++ f.1, f.2)

omit [DecidableEq κ] in
theorem apart_below (h : Apart files) : Apart (below top files) := by
  apply List.Pairwise.map _ _ h
  intro f g hfg
  simpa [Beside] using hfg

theorem layOut_congr {fs' : Fs κ δ} (h : fs q = fs' q) : layOut fs files q = layOut fs' files q := by
  simp only [layOut, h]

/-- Below the directory the files are laid out as they were. -/
theorem layOut_below : layOut fs (below top files) (top ++ q) =
    layOut (fun q => fs (top ++ q)) files q := by
  have hfind : (below top files).find? (fun f => f.1 = top ++ q) =
      (files.find? fun f => f.1 = q).map fun f => (top ++ f.1, f.2) := by
    rw [below, List.find?_map]
    congr 2
    funext f
    simp
  have hany : ((below top files).any fun f => top ++ q <+: f.1) = files.any fun f => q <+: f.1 := by
    simp [below, List.any_map, Function.comp_def]
  unfold layOut
  rw [hfind, hany]
  cases files.find? fun f => f.1 = q <;> rfl

/-- Elsewhere nothing changes, except that the directories on the way exist. -/
theorem layOut_outside (h : ¬ top <+: q) : layOut fs (below top files) q = fs q ∨
    q <+: top ∧ layOut fs (below top files) q = some .dir := by
  by_cases habove : ∃ f ∈ below top files, q <+: f.1
  · right
    obtain ⟨f, hf, hq⟩ := habove
    have hfile : ∀ g ∈ below top files, g.1 ≠ q := by
      intro g hg heq
      obtain ⟨g', -, rfl⟩ := List.mem_map.mp hg
      exact h (heq ▸ List.prefix_append _ _)
    have htop : q <+: top := by
      obtain ⟨f', -, rfl⟩ := List.mem_map.mp hf
      rcases List.prefix_or_prefix_of_prefix hq (List.prefix_append top f'.1) with hle | hle
      · exact hle
      · exact absurd hle h
    have hany : ((below top files).any fun f => q <+: f.1) = true := by
      rw [List.any_eq_true]
      exact ⟨f, hf, decide_eq_true hq⟩
    refine ⟨htop, ?_⟩
    simp only [layOut, find?_eq_none_of hfile, hany, if_true]
  · left
    apply layOut_of_not_above
    intro f hf hq
    exact habove ⟨f, hf, hq⟩

end Below

section Create

variable {fs fs' : Fs κ δ} {path q : List κ} {data file : δ}

/-- The files after a file was created: the new one, and the others as they were. -/
theorem file_createFile (h : createFile fs path data = some fs') :
    fs' q = some (.file file) ↔ q = path ∧ file = data ∨ q ≠ path ∧ fs q = some (.file file) := by
  obtain ⟨fs₁, hdirs, hfile⟩ := Option.bind_eq_some_iff.mp h
  have hkept : fs₁ q = some (.file file) ↔ fs q = some (.file file) := by
    unfold mkdirAll at hdirs
    split at hdirs
    · cases hdirs
    · next hno =>
      obtain rfl := Option.some.inj hdirs
      simp only
      split
      · next hq =>
        -- on the way to the file there was no file
        constructor
        · intro heq
          cases heq
        · intro heq
          refine absurd (List.any_eq_true.mpr ⟨q, List.mem_inits _ _ |>.mpr hq, ?_⟩) hno
          rw [heq]
          rfl
      · rfl
  unfold create at hfile
  split at hfile
  · cases hfile
  · obtain rfl := Option.some.inj hfile
    simp only
    split
    · next hq => simp [hq, eq_comm]
    · next hq => simp [hq, hkept]

end Create

section Finite

/-- A file system with finitely many nodes. -/
structure Disk (κ δ : Type*) where
  entries : List (List κ × Node δ)
  nodup : (entries.map Prod.fst).Nodup

def Disk.get (d : Disk κ δ) : Fs κ δ := fun q => (d.entries.find? fun e => e.1 = q).map Prod.snd

def Disk.set (d : Disk κ δ) (q : List κ) (node : Node δ) : Disk κ δ where
  entries := (q, node) :: d.entries.filter fun e => e.1 ≠ q
  nodup := by
    rw [List.map_cons, List.nodup_cons]
    refine ⟨?_, d.nodup.sublist (List.Sublist.map _ List.filter_sublist)⟩
    simp

def Disk.mkdirAll (d : Disk κ δ) (path : List κ) : Option (Disk κ δ) :=
  if path.inits.any fun q => (d.get q).any Node.isFile then none
  else some (path.inits.foldl (fun d q => d.set q .dir) d)

def Disk.create (d : Disk κ δ) (path : List κ) (data : δ) : Option (Disk κ δ) :=
  match d.get path with
  | some .dir => none
  | _ => some (d.set path (.file data))

def Disk.createFile (d : Disk κ δ) (path : List κ) (data : δ) : Option (Disk κ δ) :=
  (d.mkdirAll path.dropLast).bind fun d => d.create path data

variable {d d' : Disk κ δ} {q r path : List κ} {node : Node δ} {data : δ}

theorem Disk.mem_entries_iff : (q, node) ∈ d.entries ↔ d.get q = some node := by
  unfold Disk.get
  constructor
  · intro h
    cases hfind : d.entries.find? fun e => e.1 = q with
    | none =>
      rw [List.find?_eq_none] at hfind
      exact absurd (decide_eq_true rfl) (hfind _ h)
    | some e =>
      have hq : e.1 = q := by simpa using List.find?_some hfind
      have hsame := List.inj_on_of_nodup_map d.nodup (List.mem_of_find?_eq_some hfind) h hq
      rw [hsame]
      rfl
  · intro h
    obtain ⟨e, hfind, rfl⟩ := Option.map_eq_some_iff.mp h
    obtain rfl : e.1 = q := by simpa using List.find?_some hfind
    exact List.mem_of_find?_eq_some hfind

theorem Disk.get_set : (d.set q node).get r = if r = q then some node else d.get r := by
  unfold Disk.get Disk.set
  by_cases h : r = q
  · subst h
    simp
  · have hq : q ≠ r := fun heq => h heq.symm
    rw [List.find?_cons_of_neg (by simpa using hq), if_neg h, List.find?_filter]
    congr 2
    funext e
    by_cases he : e.1 = r
    · simp [he, h]
    · simp [he]

theorem Disk.get_foldl_set {qs : List (List κ)} :
    (qs.foldl (fun d q => d.set q node) d).get r = if r ∈ qs then some node else d.get r := by
  induction qs generalizing d with
  | nil => simp
  | cons q qs ih =>
    rw [List.foldl_cons, ih, Disk.get_set]
    by_cases hr : r ∈ qs
    · simp [hr]
    · simp [hr]

/-- On a finite file system a file is created as on any other. -/
theorem Disk.get_createFile (h : d.createFile path data = some d') :
    FileTree.createFile d.get path data = some d'.get := by
  obtain ⟨d₁, hdirs, hfile⟩ := Option.bind_eq_some_iff.mp h
  have hdirs' : FileTree.mkdirAll d.get path.dropLast = some d₁.get := by
    unfold Disk.mkdirAll at hdirs
    unfold FileTree.mkdirAll
    split at hdirs
    · cases hdirs
    · next hno =>
      obtain rfl := Option.some.inj hdirs
      rw [if_neg hno]
      congr 1
      funext r
      rw [Disk.get_foldl_set]
      simp only [List.mem_inits]
  have hfile' : FileTree.create d₁.get path data = some d'.get := by
    unfold Disk.create at hfile
    unfold FileTree.create
    split at hfile
    · cases hfile
    · obtain rfl := Option.some.inj hfile
      congr 1
      funext r
      rw [Disk.get_set]
  rw [FileTree.createFile, hdirs', Option.bind_some, hfile']

end Finite

end FileTree
