import ElCarro.Gcs.Bucket

/-! # The pieces of a physical restore

`PhysicalRestore` from cloud storage downloads into the staging directory, which every
backup and restore of the instance shares and which only a restore that succeeds or an upload
removes. It then takes the latest file of the directory whose name has `nnsnf` in it for the
spfile and the latest with `ncnnf` for the control file, wherever they came from, and deletes
the spfile and the data files. Absolute paths are given by their parts.
-/

namespace ElCarro.PhysicalRestore

open SlashPath FileTree Gcs

/-- A file of the instance, with the time of its last change in nanoseconds. -/
structure File where
  data : Bytes
  modTime : ℤ
  deriving DecidableEq

/-- What the surroundings decide: the first error of each call, and when objects are written. -/
structure Env where
  transfer : Option String
  written : ℕ → ℤ
  readDir : Option String
  createDirs : Option String
  restoreAsync : Option String

def defaultRMANDir : Bytes := ascii "/u03/app/oracle/rman"
def rmanStagingDir : Bytes := ascii "/u03/app/oracle/rmanstaging"
def maxWalkFiles : ℕ := 10000

section Download

variable (env : Env) (baseDir dest : Bytes)

/-- `downloadFile` of the listed objects from the given number on. -/
def downloadObjects : ℕ → List Object → Disk Bytes File → Except String (Disk Bytes File)
  | _, [], d => .ok d
  | n, o :: os, d =>
    match rel baseDir o.name with
    | none => .error "failed to parse relPath"
    | some relPath =>
      match d.createFile (parse (join dest relPath)).parts ⟨o.data, env.written n⟩ with
      | none => .error "failed to createFile"
      | some d => downloadObjects (n + 1) os d

/-- `DownloadDirectoryFromGCS`, with the error that ends the transfer, if any. -/
def downloadDirectoryFromGCS (store : Store) (gcsPath : Bytes) (d : Disk Bytes File) :
    Except String (Disk Bytes File) := do
  let (bucket, baseDir) ← (splitURI gcsPath).mapError ("failed to parse gcs path " ++ ·)
  attempt env.transfer
  downloadObjects env baseDir dest 0 (store.objects bucket baseDir) d

end Download

section ReadDir

/-- A file or directory as `ReadDir` reports it; nothing reads the time of a directory. -/
structure FileInfo where
  name : Bytes
  absPath : List Bytes
  isDir : Bool
  modTime : ℤ
  deriving DecidableEq

/-- The times between the years 1 and 9999, which a timestamp can hold. -/
def validTime (t : ℤ) : Bool := -62135596800000000000 ≤ t ∧ t < 253402300800000000000

def convertToRpcFileInfo : List Bytes × Node File → Except String FileInfo
  | (path, .dir) => .ok ⟨path.getLastD [], path, true, 0⟩
  | (path, .file f) =>
    if validTime f.modTime then .ok ⟨path.getLastD [], path, false, f.modTime⟩
    else .error "convertToRpcFileInfo failed"

/-- The nodes below a directory in the order of the walk. -/
def walkBelow (d : Disk Bytes File) (top : List Bytes) : List (List Bytes × Node File) :=
  (d.entries.filter fun e => top <+: e.1 ∧ e.1 ≠ top).insertionSort fun a b => a.1 ≤ b.1

/-- `ReadDir`, recursively: the paths below a directory. -/
def readDir (env : Env) (dir : Bytes) (d : Disk Bytes File) : Except String (List FileInfo) :=
  if dir.head? ≠ some 47 then .error "dbdaemon/ReadDir only accept absolute path"
  else
    match env.readDir with
    | some err => .error err
    | none =>
      match d.get (parse dir).parts with
      | none => .error "dbdaemon/ReadDir os.Stat failed"
      | some (.file _) => .ok []
      | some .dir =>
        let found := walkBelow d (parse dir).parts
        if maxWalkFiles < found.length then .error "visited more than 10000 files"
        else found.mapM convertToRpcFileInfo

end ReadDir

section Restore

structure FileTime where
  name : List Bytes
  modTime : ℤ
  deriving DecidableEq

/-- What `sort.Slice` promises of the order `findLatestBackupPiece` asks for; files of the same
time come in any order. -/
structure SortsLatestFirst (sortSlice : List FileTime → List FileTime) : Prop where
  perm : ∀ l, (sortSlice l).Perm l
  sorted : ∀ l, (sortSlice l).Pairwise fun a b => b.modTime ≤ a.modTime

def candidates (infos : List FileInfo) (substr : Bytes) : List FileInfo :=
  infos.filter fun i => !i.isDir && decide (substr <:+: i.name)

variable (sortSlice : List FileTime → List FileTime)

def findLatestBackupPiece (infos : List FileInfo) (substr : Bytes) : Except String (List Bytes) :=
  if (candidates infos substr).any fun i => !validTime i.modTime then
    .error "findLatestBackupPiece: failed to convert timestamp"
  else
    match sortSlice ((candidates infos substr).map fun i => ⟨i.absPath, i.modTime⟩) with
    | [] => .error "findLatestBackupPiece: failed to find candidates"
    | latest :: _ => .ok latest.name

structure Params where
  localPath : Bytes
  gcsPath : Bytes
  cdbName : Bytes
  dop : ℤ
  backupIncarnation : Bytes
  incarnation : Bytes
  deriving DecidableEq

/-- What stands in the restore statement. -/
structure RestoreStmt where
  spfileLoc : Bytes
  spfile : List Bytes
  controlfile : List Bytes
  backupIncarnation : Bytes
  channels : Bytes
  incarnation : Bytes
  deriving DecidableEq

def spfileLoc (cdbName : Bytes) : Bytes :=
  join (ascii "/u02/app/oracle/oraconfig/" ++ cdbName) (ascii "spfile" ++ cdbName ++ ascii ".ora")

def channels (dop : ℤ) : Bytes :=
  (List.range' 1 dop.toNat).flatMap fun i =>
    ascii ("allocate channel disk" ++ toString i ++ " device type disk;\n")

def backupDir (params : Params) : Bytes :=
  if params.gcsPath ≠ [] then rmanStagingDir
  else if params.localPath ≠ [] then params.localPath
  else defaultRMANDir

def spfileKind : Bytes := ascii "nnsnf"
def controlfileKind : Bytes := ascii "ncnnf"

/-- `PhysicalRestore` up to the point where it deletes: the two pieces it has found. -/
def findPieces (env : Env) (store : Store) (params : Params) (d : Disk Bytes File) :
    Except String (List Bytes × List Bytes) := do
  let d ←
    if params.gcsPath ≠ [] then
      (downloadDirectoryFromGCS env rmanStagingDir store params.gcsPath d).mapError
        ("PhysicalRestore: failed to download rman backup from GCS bucket " ++ ·)
    else .ok d
  let infos ← (readDir env (backupDir params) d).mapError
    ("PhysicalRestore: failed to read backup dir: " ++ ·)
  let spfile ← (findLatestBackupPiece sortSlice infos spfileKind).mapError
    ("PhysicalRestore: failed to find latest spfile backup piece: " ++ ·)
  let controlfile ← (findLatestBackupPiece sortSlice infos controlfileKind).mapError
    ("PhysicalRestore: failed to find latest control file backup piece: " ++ ·)
  .ok (spfile, controlfile)

/-- What a restore does: the pieces it had found when it deleted the spfile and the data files, the
statement it has sent, and its result. -/
structure Outcome where
  deletedFor : Option (List Bytes × List Bytes)
  statement : Option RestoreStmt
  result : Except String Unit

def physicalRestore (env : Env) (store : Store) (params : Params) (d : Disk Bytes File) : Outcome :=
  match findPieces sortSlice env store params d with
  | .error err => ⟨none, none, .error err⟩
  | .ok (spfile, controlfile) =>
    -- errors of the deletion are only logged
    match env.createDirs with
    | some err =>
      ⟨some (spfile, controlfile), none,
        .error ("PhysicalRestore: failed to createDirsForRestore: " ++ err)⟩
    | none =>
      ⟨some (spfile, controlfile),
        some ⟨spfileLoc params.cdbName, spfile, controlfile, params.backupIncarnation,
          channels params.dop, params.incarnation⟩,
        attempt (env.restoreAsync.map
          ("oracle/PhysicalRestore: failed to create database restore request: " ++ ·))⟩

end Restore

section Listing

/-- The time of the file at a path, if there is one. -/
def fileTime (d : Disk Bytes File) (q : List Bytes) : Option ℤ :=
  match d.get q with
  | some (.file f) => some f.modTime
  | _ => none

/-- A path in the staging directory whose name has the text in it. -/
def InKind (kind : Bytes) (q : List Bytes) : Prop :=
  (parse rmanStagingDir).parts <+: q ∧ q ≠ (parse rmanStagingDir).parts ∧ kind <:+: q.getLastD []

variable {env : Env} {d : Disk Bytes File} {infos : List FileInfo} {kind : Bytes}

theorem fileTime_eq_some_iff {q : List Bytes} {t : ℤ} :
    fileTime d q = some t ↔ ∃ f, d.get q = some (.file f) ∧ f.modTime = t := by
  unfold fileTime
  cases hnode : d.get q with
  | none => simp
  | some node => cases node <;> simp

theorem mapM_eq_ok {α β : Type} {f : α → Except String β} {l : List α} {r : List β}
    (h : l.mapM f = .ok r) : (∀ a ∈ l, ∃ b ∈ r, f a = .ok b) ∧ ∀ b ∈ r, ∃ a ∈ l, f a = .ok b := by
  induction l generalizing r with
  | nil =>
    obtain rfl := Except.ok.inj h
    simp
  | cons a l ih =>
    rw [List.mapM_cons] at h
    cases hhead : f a with
    | error err =>
      rw [hhead] at h
      cases h
    | ok c =>
      cases htail : l.mapM f with
      | error err =>
        rw [hhead, htail] at h
        cases h
      | ok cs =>
        rw [hhead, htail] at h
        obtain rfl := Except.ok.inj h
        obtain ⟨hsome, hall⟩ := ih htail
        constructor
        · intro a' ha'
          rcases List.mem_cons.mp ha' with rfl | ha'
          · exact ⟨c, List.mem_cons_self, hhead⟩
          · obtain ⟨b, hb, hf⟩ := hsome a' ha'
            exact ⟨b, List.mem_cons_of_mem c hb, hf⟩
        · intro b hb
          rcases List.mem_cons.mp hb with rfl | hb
          · exact ⟨a, List.mem_cons_self, hhead⟩
          · obtain ⟨a', ha', hf⟩ := hall b hb
            exact ⟨a', List.mem_cons_of_mem a ha', hf⟩

theorem mem_walkBelow_iff {top q : List Bytes} {node : Node File} :
    (q, node) ∈ walkBelow d top ↔ d.get q = some node ∧ top <+: q ∧ q ≠ top := by
  rw [walkBelow, List.mem_insertionSort, List.mem_filter, Disk.mem_entries_iff, decide_eq_true_iff]

/-- A directory is read by reporting each node below it. -/
theorem mapM_of_readDir (hdir : d.get (parse rmanStagingDir).parts = some .dir)
    (h : readDir env rmanStagingDir d = .ok infos) :
    (walkBelow d (parse rmanStagingDir).parts).mapM convertToRpcFileInfo = .ok infos := by
  unfold readDir at h
  rw [hdir] at h
  split at h
  · cases h
  · split at h
    · cases h
    · simp only at h
      split at h
      · cases h
      · exact h

/-- What `ReadDir` reports of a file. -/
def infoOf (q : List Bytes) (t : ℤ) : FileInfo := ⟨q.getLastD [], q, false, t⟩

theorem convert_file {q : List Bytes} {f : File} {i : FileInfo}
    (h : convertToRpcFileInfo (q, .file f) = .ok i) :
    validTime f.modTime = true ∧ i = infoOf q f.modTime := by
  simp only [convertToRpcFileInfo] at h
  split at h
  · next hvalid => exact ⟨hvalid, (Except.ok.inj h).symm⟩
  · cases h

/-- The candidates of a kind are the files of the staging directory that have it in their names,
with times that are valid. -/
theorem mem_candidates_iff (hdir : d.get (parse rmanStagingDir).parts = some .dir)
    (h : readDir env rmanStagingDir d = .ok infos) {i : FileInfo} :
    i ∈ candidates infos kind ↔ ∃ q t, fileTime d q = some t ∧ InKind kind q ∧ i = infoOf q t := by
  obtain ⟨hsome, hall⟩ := mapM_eq_ok (mapM_of_readDir hdir h)
  rw [candidates, List.mem_filter]
  constructor
  · rintro ⟨hi, hkind⟩
    obtain ⟨⟨q, node⟩, hmem, hconvert⟩ := hall i hi
    obtain ⟨hnode, htop, hne⟩ := mem_walkBelow_iff.mp hmem
    cases node with
    | dir =>
      obtain rfl := Except.ok.inj hconvert
      simp at hkind
    | file f =>
      obtain ⟨-, rfl⟩ := convert_file hconvert
      have hname : kind <:+: q.getLastD [] := by simpa [infoOf] using hkind
      exact ⟨q, f.modTime, fileTime_eq_some_iff.mpr ⟨f, hnode, rfl⟩, ⟨htop, hne, hname⟩, rfl⟩
  · rintro ⟨q, t, htime, ⟨htop, hne, hkind⟩, rfl⟩
    obtain ⟨f, hnode, rfl⟩ := fileTime_eq_some_iff.mp htime
    obtain ⟨i, hi, hconvert⟩ := hsome _ (mem_walkBelow_iff.mpr ⟨hnode, htop, hne⟩)
    rw [← (convert_file hconvert).2]
    refine ⟨hi, ?_⟩
    rw [(convert_file hconvert).2]
    simpa [infoOf] using hkind

theorem validTime_of_mem (hdir : d.get (parse rmanStagingDir).parts = some .dir)
    (h : readDir env rmanStagingDir d = .ok infos) :
    ∀ i ∈ candidates infos kind, validTime i.modTime = true := by
  intro i hi
  obtain ⟨q, t, htime, ⟨htop, hne, -⟩, rfl⟩ := (mem_candidates_iff hdir h).mp hi
  obtain ⟨f, hnode, rfl⟩ := fileTime_eq_some_iff.mp htime
  obtain ⟨i, -, hconvert⟩ :=
    (mapM_eq_ok (mapM_of_readDir hdir h)).1 _ (mem_walkBelow_iff.mpr ⟨hnode, htop, hne⟩)
  exact (convert_file hconvert).1

end Listing

section Latest

variable {sortSlice : List FileTime → List FileTime} {infos : List FileInfo} {kind : Bytes}
  {q : List Bytes}

/-- The piece that is found is a candidate, and none is later. -/
theorem latest_of_find (hsort : SortsLatestFirst sortSlice)
    (h : findLatestBackupPiece sortSlice infos kind = .ok q) :
    ∃ i ∈ candidates infos kind, i.absPath = q ∧
      ∀ j ∈ candidates infos kind, j.modTime ≤ i.modTime := by
  unfold findLatestBackupPiece at h
  split at h
  · cases h
  · split at h
    · cases h
    · next latest rest hlatest =>
      obtain rfl := Except.ok.inj h
      have hperm := hsort.perm ((candidates infos kind).map fun i => ⟨i.absPath, i.modTime⟩)
      have hsorted := hsort.sorted ((candidates infos kind).map fun i => ⟨i.absPath, i.modTime⟩)
      rw [hlatest] at hperm hsorted
      obtain ⟨i, hi, rfl⟩ := List.mem_map.mp (hperm.mem_iff.mp List.mem_cons_self)
      refine ⟨i, hi, rfl, ?_⟩
      intro j hj
      have hmem := hperm.mem_iff.mpr (List.mem_map_of_mem hj)
      rcases List.mem_cons.mp hmem with heq | hmem
      · exact (congrArg FileTime.modTime heq).le
      · exact List.rel_of_pairwise_cons hsorted hmem

theorem no_invalid_time (hvalid : ∀ i ∈ candidates infos kind, validTime i.modTime = true) :
    ((candidates infos kind).any fun i => !validTime i.modTime) = false := by
  rw [List.any_eq_false]
  intro i hi
  simp [hvalid i hi]

theorem find_of_candidates (hsort : SortsLatestFirst sortSlice)
    (hvalid : ∀ i ∈ candidates infos kind, validTime i.modTime = true)
    (hne : candidates infos kind ≠ []) :
    ∃ q, findLatestBackupPiece sortSlice infos kind = .ok q := by
  have hperm := hsort.perm ((candidates infos kind).map fun i => ⟨i.absPath, i.modTime⟩)
  unfold findLatestBackupPiece
  rw [no_invalid_time hvalid]
  cases hlatest : sortSlice ((candidates infos kind).map fun i => ⟨i.absPath, i.modTime⟩) with
  | nil =>
    rw [hlatest] at hperm
    exact absurd (List.map_eq_nil_iff.mp hperm.nil_eq.symm) hne
  | cons latest rest => exact ⟨latest.name, rfl⟩

/-- The order of the times, latest first. -/
def LatestFirst (a b : FileTime) : Prop := b.modTime ≤ a.modTime

instance : DecidableRel LatestFirst := fun a b => inferInstanceAs (Decidable (b.modTime ≤ a.modTime))

instance : Std.Total LatestFirst := ⟨fun a b => le_total b.modTime a.modTime⟩

instance : IsTrans FileTime LatestFirst := ⟨fun _ _ _ hab hbc => le_trans hbc hab⟩

/-- A sort that puts one of the latest files first. -/
def preferring (x : FileTime) (l : List FileTime) : List FileTime :=
  if x ∈ l ∧ ∀ y ∈ l, y.modTime ≤ x.modTime then x :: (l.erase x).insertionSort LatestFirst
  else l.insertionSort LatestFirst

theorem sortsLatestFirst_preferring (x : FileTime) : SortsLatestFirst (preferring x) := by
  constructor
  · intro l
    unfold preferring
    split
    · next h =>
      exact ((List.perm_insertionSort _ _).cons x).trans (List.perm_cons_erase h.1).symm
    · exact List.perm_insertionSort _ _
  · intro l
    unfold preferring
    split
    · next h =>
      rw [List.pairwise_cons]
      refine ⟨?_, List.pairwise_insertionSort LatestFirst _⟩
      intro y hy
      exact h.2 y (List.mem_of_mem_erase ((List.mem_insertionSort _).mp hy))
    · exact List.pairwise_insertionSort LatestFirst l

/-- Any of the latest candidates may be the one that is found. -/
theorem find_preferring (hvalid : ∀ i ∈ candidates infos kind, validTime i.modTime = true)
    {i : FileInfo} (hi : i ∈ candidates infos kind)
    (hlatest : ∀ j ∈ candidates infos kind, j.modTime ≤ i.modTime) :
    findLatestBackupPiece (preferring ⟨i.absPath, i.modTime⟩) infos kind = .ok i.absPath := by
  have hfirst : (⟨i.absPath, i.modTime⟩ : FileTime) ∈
      (candidates infos kind).map (fun i => ⟨i.absPath, i.modTime⟩) ∧
      ∀ y ∈ (candidates infos kind).map (fun i => (⟨i.absPath, i.modTime⟩ : FileTime)),
        y.modTime ≤ i.modTime := by
    refine ⟨List.mem_map_of_mem hi, ?_⟩
    intro y hy
    obtain ⟨j, hj, rfl⟩ := List.mem_map.mp hy
    exact hlatest j hj
  simp only [findLatestBackupPiece, no_invalid_time hvalid, Bool.false_eq_true, if_false, preferring,
    if_pos hfirst]

end Latest

end ElCarro.PhysicalRestore
