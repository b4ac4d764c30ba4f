import ElCarro.Gcs.Transfer
import ElCarro.Gcs.Naming
import ElCarro.Lib.FileTree
import Mathlib.Data.List.Sort

/-! # Buckets

The objects of the buckets, and what the daemon does to them where no step fails: an upload
puts an object for every file of a directory, and a listing finds every object whose name
begins with a text.
-/

namespace ElCarro.Gcs

open SlashPath FileTree

structure Object where
  name : Bytes
  data : Bytes
  deriving DecidableEq

/-- The objects of each bucket. -/
abbrev Store := Bytes → List Object

def Store.put (s : Store) (bucket : Bytes) (o : Object) : Store := fun b =>
  if b = bucket then (s b).filter (fun x => x.name ≠ o.name) ++ [o] else s b

/-- `Objects` with a query for the names that begin with a text, in the order of the names. -/
def Store.objects (s : Store) (bucket start : Bytes) : List Object :=
  ((s bucket).filter fun o => start <+: o.name).insertionSort fun a b => a.name ≤ b.name

/-- A directory with all that is below it. -/
structure Tree where
  /-- The files in the order of the walk, with the names on the way to them. -/
  files : List (List Bytes × Bytes)
  /-- The directories below it that have nothing in them. -/
  emptyDirs : List (List Bytes)
  files_plain : ∀ f ∈ files, f.1 ≠ [] ∧ ∀ name ∈ f.1, Plain name
  files_apart : Apart files
  dirs_plain : ∀ d ∈ emptyDirs, d ≠ [] ∧ ∀ name ∈ d, Plain name
  dirs_apart : ∀ d ∈ emptyDirs, ∀ f ∈ files, ¬ f.1 <+: d ∧ ¬ d <+: f.1

/-- What is at a path below the directory. -/
def Tree.node (t : Tree) (q : List Bytes) : Option (Node Bytes) :=
  if t.emptyDirs.any fun d => q <+: d then some .dir else layOut (fun _ => none) t.files q

section Upload

variable (gzip : Bytes → Bytes)

/-- The data that `uploadFile` writes to an object. -/
def stored (gcsPath data : Bytes) : Bytes := if isGz gcsPath then gzip data else data

/-- `uploadDirectoryContentsToGCS` of a directory with these files. -/
def uploadContents (p : GcsPath) : List (List Bytes × Bytes) → Store → Except String Store
  | [], s => .ok s
  | f :: files, s => do
    let target ← gcsTarget p (glue f.1)
    let (bucket, name) ← splitURI target
    uploadContents p files (s.put bucket ⟨name, stored gzip target f.2⟩)

/-- The object that a file becomes below the parts of a path. -/
def objectOf (p : GcsPath) (parts : List Bytes) (f : List Bytes × Bytes) : Object :=
  ⟨objectName parts f.1, stored gzip (objectUrl p.bucket (objectName parts f.1)) f.2⟩

variable {p : GcsPath} {parts : List Bytes} {files : List (List Bytes × Bytes)}

/-- An upload replaces the objects of its files and leaves all others as they are. -/
theorem GcsPath.Names.uploadContents (s : Store) (h : p.Names parts)
    (hplain : ∀ f ∈ files, f.1 ≠ [] ∧ ∀ name ∈ f.1, Plain name) (hapart : Apart files) :
    ∃ s', uploadContents gzip p files s = .ok s' ∧
      s' p.bucket = (s p.bucket).filter (fun o => o.name ∉ files.map fun f => objectName parts f.1) ++
        files.map (objectOf gzip p parts) ∧
      ∀ b, b ≠ p.bucket → s' b = s b := by
  induction files generalizing s with
  | nil => exact ⟨s, rfl, by simp, fun _ _ => rfl⟩
  | cons f files ih =>
    obtain ⟨hne, hnames⟩ := hplain f List.mem_cons_self
    have hrest := fun g hg => hplain g (List.mem_cons_of_mem f hg)
    obtain ⟨hbeside, hapart⟩ := List.pairwise_cons.mp hapart
    have hfresh : objectName parts f.1 ∉ files.map fun f => objectName parts f.1 := by
      intro hmem
      obtain ⟨g, hg, heq⟩ := List.mem_map.mp hmem
      have hsame := objectName_injective h.1 (hrest g hg).2 hnames heq
      exact (hbeside g hg).1 (hsame ▸ List.prefix_refl _)
    obtain ⟨s', hrun, hbucket, hother⟩ :=
      ih (s.put p.bucket (objectOf gzip p parts f)) hrest hapart
    refine ⟨s', ?_, ?_, ?_⟩
    · rw [Gcs.uploadContents, h.gcsTarget hnames hne]
      simp only [bind, Except.bind, p.splitURI_objectUrl]
      exact hrun
    · rw [hbucket]
      have hone : [objectOf gzip p parts f].filter
          (fun o => o.name ∉ files.map fun f => objectName parts f.1) =
          [objectOf gzip p parts f] := by
        simp only [List.filter_cons, List.filter_nil]
        rw [if_pos]
        exact decide_eq_true hfresh
      simp only [Store.put, if_true, List.filter_append, hone, List.filter_filter, List.map_cons,
        List.append_assoc, List.singleton_append]
      congr 1
      apply List.filter_congr
      intro o _
      rw [Bool.eq_iff_iff, Bool.and_eq_true, decide_eq_true_iff, decide_eq_true_iff,
        decide_eq_true_iff, List.mem_cons, not_or, and_comm]
      rfl
    · intro b hb
      rw [hother b hb, Store.put, if_neg hb]

end Upload

end ElCarro.Gcs
