import ElCarro.Gcs.Bucket
import ElCarro.Backup.Location

/-! # Deleting the data of a backup

`Delete` removes every object whose name begins with the path of the backup as text, while an
upload puts its objects into the directory of that name. The path of one backup may begin the
directory of another without being above it, as `b1` begins `b10/`.
-/

namespace ElCarro.Gcs

open SlashPath PhysicalBackup

/-- The bytes of a Go string. -/
def utf8 (s : String) : Bytes := s.toUTF8.data.toList

section Model

def Store.remove (s : Store) (bucket name : Bytes) : Store := fun b =>
  if b = bucket then (s b).filter fun o => o.name ≠ name else s b

/-- `Delete`, of which this many deletions succeed before an error ends it. -/
def delete (s : Store) (gcsPath : Bytes) (done : ℕ) : Store :=
  match splitURI gcsPath with
  | .error _ => s
  | .ok (bucket, start) =>
    ((s.objects bucket start).take done).foldl (fun s o => s.remove bucket o.name) s

/-- `PhysicalBackupDelete`; without a path in cloud storage it is left to RMAN. -/
def physicalBackupDelete (params : Params) (s : Store) (done : ℕ) : Store :=
  if params.gcsPath ≠ "" then delete s (utf8 params.gcsPath) done else s

/-- The bytes are those of a name of a bucket. -/
def isBucketName (bucket : Bytes) : Bool := bucket.all fun b => isAlnum b || b ∈ ascii "-_."

theorem bytes_of_isBucketName {bucket : Bytes} (h : isBucketName bucket = true) :
    ∀ b ∈ bucket, isAlnum b ∨ b ∈ ascii "-_." := by
  simpa [isBucketName] using h

/-- A text that is a path in a bucket. -/
def gcsPathOf (url : Bytes) : Option GcsPath :=
  match splitURI url with
  | .error _ => none
  | .ok (bucket, name) =>
    if hlen : 3 ≤ bucket.length then
      if hname : isBucketName bucket = true then
        some ⟨bucket, name, hlen, bytes_of_isBucketName hname⟩
      else none
    else none

/-- An object that the upload of the backup puts, for a file of its staging directory. -/
def UploadedFor (y : Backup) (bucket name : Bytes) : Prop :=
  ∃ q ∈ gcsPathOf (utf8 (createParams y).gcsPath), ∃ names : List Bytes,
    names ≠ [] ∧ (∀ part ∈ names, Plain part) ∧
    ∃ target, gcsTarget q (glue names) = .ok target ∧ splitURI target = .ok (bucket, name)

/-- Deleting the data of one backup removes no object that was uploaded for the other. -/
def Spares (x y : Backup) : Prop :=
  ∀ (s : Store) (done : ℕ) (bucket : Bytes), ∀ o ∈ s bucket, UploadedFor y bucket o.name →
    o ∈ physicalBackupDelete (deleteParams x) s done bucket

end Model

section Condition

/-- The directory of an upload, with a slash behind it, as the names of its objects begin. -/
def Url.directory (u : Url) : Bytes :=
  let parts := (parse u.path).parts.map (escape pathSafe)
  if parts = [] then [] else glue parts ++ [47]

/-- The text begins the name of a file, as an upload writes it. -/
def Url.Begins (u : Url) (rest : Bytes) : Prop :=
  ∃ names : List Bytes, names ≠ [] ∧ (∀ part ∈ names, Plain part) ∧
    rest <+: glue (names.map (escape pathSafe)) ++ u.tail

/-- In one bucket, the path that is deleted begins the directory of the other backup as text, or
lies in that directory. -/
def Overlaps (x y : Backup) : Prop :=
  ∃ bucket start, splitURI (utf8 (getBackupGcsPath x)) = .ok (bucket, start) ∧
    ∃ q ∈ gcsPathOf (utf8 y.spec.gcsPath), q.bucket = bucket ∧
      ∃ u, parseUrl q = .ok u ∧
        (start <+: u.directory ∨ ∃ rest, start = u.directory ++ rest ∧ u.Begins rest)

end Condition

section Remove

variable {s : Store} {bucket b : Bytes} {o : Object} {os : List Object}

theorem mem_foldl_remove : o ∈ os.foldl (fun s x => s.remove bucket x.name) s b ↔
    o ∈ s b ∧ (b = bucket → ∀ x ∈ os, o.name ≠ x.name) := by
  induction os generalizing s with
  | nil => simp
  | cons x os ih =>
    rw [List.foldl_cons, ih]
    by_cases hb : b = bucket
    · subst hb
      simp [Store.remove, and_assoc]
    · simp [Store.remove, hb]

/-- A deletion removes objects that the path finds, and no others. -/
theorem mem_delete {gcsPath : Bytes} {done : ℕ} (ho : o ∈ s b)
    (h : ∀ start, splitURI gcsPath = .ok (b, start) → ¬ start <+: o.name) :
    o ∈ delete s gcsPath done b := by
  cases hsplit : splitURI gcsPath with
  | error err =>
    simp only [delete, hsplit]
    exact ho
  | ok pair =>
    obtain ⟨bucket, start⟩ := pair
    simp only [delete, hsplit, mem_foldl_remove]
    refine ⟨ho, ?_⟩
    rintro rfl x hx heq
    have hlisted := List.mem_of_mem_take hx
    rw [Store.objects, List.mem_insertionSort, List.mem_filter] at hlisted
    have hstart : start <+: x.name := of_decide_eq_true hlisted.2
    exact h start hsplit (heq ▸ hstart)

/-- An object that is alone and found by the path is removed. -/
theorem notMem_delete {gcsPath start : Bytes} (hsplit : splitURI gcsPath = .ok (b, start))
    (hbucket : s b = [o]) (hstart : start <+: o.name) : o ∉ delete s gcsPath 1 b := by
  have hlisted : s.objects b start = [o] := by
    simp [Store.objects, hbucket, hstart]
  simp only [delete, hsplit, mem_foldl_remove, hlisted]
  simp

end Remove

section Naming

variable {q : GcsPath} {u : Url} {names : List Bytes} {start : Bytes}

theorem objectName_eq_directory (hne : names ≠ []) :
    objectName (parse u.path).parts names = u.directory ++ glue (names.map (escape pathSafe)) := by
  simp only [Url.directory, objectName, List.map_append]
  split
  · next hnil =>
    rw [hnil]
    rfl
  · next hparts =>
    rw [glue_append hparts (by simpa using hne)]
    simp
    rfl

/-- A text begins the name of some object of the upload when it begins the directory or goes on
with the name of a file. -/
theorem exists_object_iff : (∃ names : List Bytes, names ≠ [] ∧ (∀ part ∈ names, Plain part) ∧
      start <+: objectName (parse u.path).parts names ++ u.tail) ↔
    start <+: u.directory ∨ ∃ rest, start = u.directory ++ rest ∧ u.Begins rest := by
  constructor
  · rintro ⟨names, hne, hnames, hstart⟩
    rw [objectName_eq_directory hne, List.append_assoc] at hstart
    rcases List.prefix_or_prefix_of_prefix hstart (List.prefix_append _ _) with hle | hle
    · exact .inl hle
    · obtain ⟨rest, rfl⟩ := hle
      rw [List.prefix_append_right_inj] at hstart
      exact .inr ⟨rest, rfl, names, hne, hnames, hstart⟩
  · rintro (hle | ⟨rest, rfl, names, hne, hnames, hrest⟩)
    · refine ⟨[ascii "a"], by simp, by decide, ?_⟩
      rw [objectName_eq_directory (by simp), List.append_assoc]
      exact hle.trans (List.prefix_append _ _)
    · refine ⟨names, hne, hnames, ?_⟩
      rwa [objectName_eq_directory hne, List.append_assoc, List.prefix_append_right_inj]

/-- The objects that are uploaded for a backup. -/
theorem uploadedFor_iff {y : Backup} {bucket name : Bytes} : UploadedFor y bucket name ↔
    ∃ q ∈ gcsPathOf (utf8 y.spec.gcsPath), q.bucket = bucket ∧ ∃ u, parseUrl q = .ok u ∧
      ∃ names : List Bytes, names ≠ [] ∧ (∀ part ∈ names, Plain part) ∧
        name = objectName (parse u.path).parts names ++ u.tail := by
  constructor
  · rintro ⟨q, hq, names, hne, hnames, target, htarget, hsplit⟩
    cases hu : parseUrl q with
    | error err =>
      simp only [gcsTarget, hu, bind, Except.bind] at htarget
      cases htarget
    | ok u =>
      rw [gcsTarget_eq hu hnames hne] at htarget
      obtain rfl := Except.ok.inj htarget
      rw [q.splitURI_objectUrl] at hsplit
      obtain ⟨rfl, rfl⟩ := Prod.mk.inj (Except.ok.inj hsplit)
      exact ⟨q, hq, rfl, u, hu, names, hne, hnames, rfl⟩
  · rintro ⟨q, hq, rfl, u, hu, names, hne, hnames, rfl⟩
    exact ⟨q, hq, names, hne, hnames, _, gcsTarget_eq hu hnames hne, q.splitURI_objectUrl _⟩

end Naming

section Sample

/-- The initial backups that the PITR controller makes for two incarnations, with the paths they
are meant to have. -/
def initialBackup (incarnation : String) : Backup where
  name := "pitr-backup-incarnation-" ++ incarnation
  spec := ⟨.physical, "gs://bkt/pitr/pitr-backup-incarnation-" ++ incarnation, "gs://bkt/pitr", ""⟩
  backupTime := ""

def laterPath : GcsPath :=
  ⟨ascii "bkt", ascii "pitr/pitr-backup-incarnation-21", bkt_length, bkt_bytes⟩

def laterPiece : Object := ⟨ascii "pitr/pitr-backup-incarnation-21/piece", ascii "data"⟩

end Sample

end ElCarro.Gcs
