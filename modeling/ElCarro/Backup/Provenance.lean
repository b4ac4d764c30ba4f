import ElCarro.Backup.RestorePieces

/-! # Where the pieces of a restore come from

After the download the staging directory holds the files of the requested backup beside those
that were left in it. The restore relies on the requested backup alone only when, of either
kind, the latest file is always one of its own.
-/

namespace ElCarro.PhysicalRestore

open SlashPath FileTree Gcs

section Provenance

/-- A file written by the download: where, when, and whether its object lies below the path. -/
structure Write where
  path : List Bytes
  time : ℤ
  own : Bool
  deriving DecidableEq

/-- The name of the object is below the requested path. -/
def liesBelow (baseDir name : Bytes) : Bool :=
  (parse baseDir).rooted = (parse name).rooted ∧ (parse baseDir).parts <+: (parse name).parts

def writesFrom (env : Env) (baseDir dest : Bytes) : ℕ → List Object → List Write
  | _, [] => []
  | n, o :: os =>
    ⟨(parse (join dest ((rel baseDir o.name).getD []))).parts, env.written n,
      liesBelow baseDir o.name⟩ :: writesFrom env baseDir dest (n + 1) os

/-- The files that the objects at the requested path become. -/
def writes (env : Env) (store : Store) (gcsPath : Bytes) : List Write :=
  match splitURI gcsPath with
  | .error _ => []
  | .ok (bucket, baseDir) => writesFrom env baseDir rmanStagingDir 0 (store.objects bucket baseDir)

def lastWrite : List Write → List Bytes → Option Write
  | [], _ => none
  | w :: ws, q => (lastWrite ws q).or (if w.path = q then some w else none)

/-- The file at a path after the download: its time, and whether it comes from the requested
backup. A file that was there before does not. -/
def staged (ws : List Write) (d : Disk Bytes File) (q : List Bytes) : Option (ℤ × Bool) :=
  ((lastWrite ws q).map fun w => (w.time, w.own)).or ((fileTime d q).map fun t => (t, false))

/-- The file has been written from an object of the requested backup. -/
def Belongs (ws : List Write) (q : List Bytes) : Prop := ∃ w, lastWrite ws q = some w ∧ w.own = true

/-- The restore names and relies on pieces of the requested backup only, whatever the order of
files of the same time. -/
def RestoresOwn (env : Env) (store : Store) (params : Params) (d : Disk Bytes File) : Prop :=
  ∀ sortSlice, SortsLatestFirst sortSlice →
    (∀ stmt ∈ (physicalRestore sortSlice env store params d).statement,
      Belongs (writes env store params.gcsPath) stmt.spfile ∧
        Belongs (writes env store params.gcsPath) stmt.controlfile) ∧
    ∀ pieces ∈ (physicalRestore sortSlice env store params d).deletedFor,
      Belongs (writes env store params.gcsPath) pieces.1 ∧
        Belongs (writes env store params.gcsPath) pieces.2

/-- The download and the reading of the staging directory go through. -/
def Reads (env : Env) (store : Store) (params : Params) (d : Disk Bytes File) : Prop :=
  ∃ d', downloadDirectoryFromGCS env rmanStagingDir store params.gcsPath d = .ok d' ∧
    d'.get (parse rmanStagingDir).parts = some .dir ∧ (readDir env rmanStagingDir d').isOk = true

/-- There is a file of this kind in the staging directory. -/
def HasPiece (ws : List Write) (d : Disk Bytes File) (kind : Bytes) : Prop :=
  ∃ q t own, staged ws d q = some (t, own) ∧ InKind kind q

/-- Every file of this kind that is not from the requested backup is older than one that is. -/
def Prevails (ws : List Write) (d : Disk Bytes File) (kind : Bytes) : Prop :=
  ∀ q t, staged ws d q = some (t, false) → InKind kind q →
    ∃ q' t', staged ws d q' = some (t', true) ∧ InKind kind q' ∧ t < t'

end Provenance

section Staging

variable {env : Env} {store : Store} {baseDir dest gcsPath : Bytes} {d d' : Disk Bytes File}
  {q : List Bytes} {t : ℤ} {ws : List Write}

theorem fileTime_createFile {path : List Bytes} {f : File} (h : d.createFile path f = some d') :
    fileTime d' q = if q = path then some f.modTime else fileTime d q := by
  apply Option.ext
  intro t
  have hfile : ∀ g, d'.get q = some (.file g) ↔
      q = path ∧ g = f ∨ q ≠ path ∧ d.get q = some (.file g) :=
    fun g => file_createFile (Disk.get_createFile h)
  simp only [fileTime_eq_some_iff, hfile]
  by_cases hq : q = path
  · simp [hq]
  · simp [hq, fileTime_eq_some_iff]

/-- The files after a download are the last ones written, and those that were there before. -/
theorem fileTime_downloadObjects {n : ℕ} {os : List Object}
    (h : downloadObjects env baseDir dest n os d = .ok d') :
    fileTime d' q = (staged (writesFrom env baseDir dest n os) d q).map Prod.fst := by
  induction os generalizing n d with
  | nil =>
    obtain rfl := Except.ok.inj h
    simp [writesFrom, staged, lastWrite, Function.comp_def]
  | cons o os ih =>
    unfold downloadObjects at h
    split at h
    · cases h
    · next relPath hrel =>
      split at h
      · cases h
      · next d₁ hcreate =>
        rw [ih h]
        simp only [staged, writesFrom, lastWrite, hrel, Option.getD_some,
          fileTime_createFile hcreate]
        cases lastWrite (writesFrom env baseDir dest (n + 1) os) q with
        | some w => rfl
        | none =>
          by_cases hq : q = (parse (join dest relPath)).parts
          · simp [hq]
          · simp [hq, Ne.symm hq]

theorem fileTime_download (h : downloadDirectoryFromGCS env rmanStagingDir store gcsPath d = .ok d') :
    fileTime d' q = (staged (writes env store gcsPath) d q).map Prod.fst := by
  unfold downloadDirectoryFromGCS at h
  unfold writes
  cases hsplit : splitURI gcsPath with
  | error err =>
    rw [hsplit] at h
    cases h
  | ok pair =>
    obtain ⟨bucket, baseDir⟩ := pair
    rw [hsplit] at h
    cases htransfer : env.transfer with
    | some err =>
      rw [htransfer] at h
      cases h
    | none =>
      rw [htransfer] at h
      exact fileTime_downloadObjects h

theorem belongs_of_staged (h : staged ws d q = some (t, true)) : Belongs ws q := by
  unfold staged at h
  cases hlast : lastWrite ws q with
  | none =>
    rw [hlast] at h
    cases htime : fileTime d q with
    | none => simp [htime] at h
    | some t' => simp [htime] at h
  | some w =>
    rw [hlast] at h
    simp only [Option.map_some, Option.some_or, Option.some.injEq, Prod.mk.injEq] at h
    exact ⟨w, hlast, h.2⟩

theorem not_belongs_of_staged (h : staged ws d q = some (t, false)) : ¬ Belongs ws q := by
  rintro ⟨w, hlast, hown⟩
  rw [staged, hlast] at h
  simp only [Option.map_some, Option.some_or, Option.some.injEq, Prod.mk.injEq] at h
  rw [hown] at h
  cases h.2

end Staging

section Pieces

variable {env : Env} {store : Store} {params : Params} {d d' : Disk Bytes File}
  {infos : List FileInfo} {sortSlice : List FileTime → List FileTime} {kind : Bytes}

/-- The staging directory as the restore finds it. -/
structure Found (env : Env) (store : Store) (params : Params) (d d' : Disk Bytes File)
    (infos : List FileInfo) : Prop where
  download : downloadDirectoryFromGCS env rmanStagingDir store params.gcsPath d = .ok d'
  dir : d'.get (parse rmanStagingDir).parts = some .dir
  read : readDir env rmanStagingDir d' = .ok infos

theorem Found.mem_candidates_iff (h : Found env store params d d' infos) {i : FileInfo} :
    i ∈ candidates infos kind ↔ ∃ q t own, staged (writes env store params.gcsPath) d q = some (t, own) ∧
      InKind kind q ∧ i = infoOf q t := by
  rw [PhysicalRestore.mem_candidates_iff h.dir h.read]
  simp only [fileTime_download h.download, Option.map_eq_some_iff, Prod.exists]
  constructor
  · rintro ⟨q, t, ⟨t', own, hstaged, rfl⟩, hkind, rfl⟩
    exact ⟨q, t', own, hstaged, hkind, rfl⟩
  · rintro ⟨q, t, own, hstaged, hkind, rfl⟩
    exact ⟨q, t, ⟨t, own, hstaged, rfl⟩, hkind, rfl⟩

/-- Where the files of the backup prevail, one of them is found. -/
theorem Found.belongs (h : Found env store params d d' infos) (hsort : SortsLatestFirst sortSlice)
    (hprevails : Prevails (writes env store params.gcsPath) d kind) {q : List Bytes}
    (hfind : findLatestBackupPiece sortSlice infos kind = .ok q) :
    Belongs (writes env store params.gcsPath) q := by
  obtain ⟨i, hi, rfl, hlatest⟩ := latest_of_find hsort hfind
  obtain ⟨q, t, own, hstaged, hkind, rfl⟩ := h.mem_candidates_iff.mp hi
  cases own with
  | true => exact belongs_of_staged hstaged
  | false =>
    obtain ⟨q', t', hstaged', hkind', hlt⟩ := hprevails q t hstaged hkind
    have hle := hlatest (infoOf q' t') (h.mem_candidates_iff.mpr ⟨q', t', true, hstaged', hkind', rfl⟩)
    exact absurd hlt (not_lt.mpr hle)

/-- Where whatever is found belongs to the backup, its files prevail. -/
theorem Found.prevails (h : Found env store params d d' infos)
    (hown : ∀ sortSlice, SortsLatestFirst sortSlice → ∀ q,
      findLatestBackupPiece sortSlice infos kind = .ok q →
        Belongs (writes env store params.gcsPath) q) :
    Prevails (writes env store params.gcsPath) d kind := by
  intro q t hstaged hkind
  have hvalid := @validTime_of_mem env d' infos kind h.dir h.read
  have hlatest_own : ∀ q t own, staged (writes env store params.gcsPath) d q = some (t, own) →
      InKind kind q → (∀ j ∈ candidates infos kind, j.modTime ≤ t) →
      Belongs (writes env store params.gcsPath) q := by
    intro q t own hstaged hkind hlatest
    have hmem : infoOf q t ∈ candidates infos kind :=
      h.mem_candidates_iff.mpr ⟨q, t, own, hstaged, hkind, rfl⟩
    exact hown _ (sortsLatestFirst_preferring _) q (find_preferring hvalid hmem hlatest)
  have hmem : infoOf q t ∈ candidates infos kind :=
    h.mem_candidates_iff.mpr ⟨q, t, false, hstaged, hkind, rfl⟩
  -- a file that is later than all others of its kind
  have hsort := sortsLatestFirst_preferring ⟨q, t⟩
  obtain ⟨q', hfind⟩ := find_of_candidates hsort hvalid (List.ne_nil_of_mem hmem)
  obtain ⟨i, hi, -, hlatest⟩ := latest_of_find hsort hfind
  obtain ⟨q', t', own, hstaged', hkind', rfl⟩ := h.mem_candidates_iff.mp hi
  have hbelongs := hlatest_own q' t' own hstaged' hkind' hlatest
  by_cases hlt : t < t'
  · cases own with
    | true => exact ⟨q', t', hstaged', hkind', hlt⟩
    | false => exact absurd hbelongs (not_belongs_of_staged hstaged')
  · -- then the foreign file is one of the latest
    have hle : t' ≤ t := not_lt.mp hlt
    refine absurd (hlatest_own q t false hstaged hkind ?_) (not_belongs_of_staged hstaged)
    intro j hj
    exact (hlatest j hj).trans hle

theorem Found.exists_find (h : Found env store params d d' infos) (hsort : SortsLatestFirst sortSlice)
    (hpiece : HasPiece (writes env store params.gcsPath) d kind) :
    ∃ q, findLatestBackupPiece sortSlice infos kind = .ok q := by
  obtain ⟨q, t, own, hstaged, hkind⟩ := hpiece
  have hmem : infoOf q t ∈ candidates infos kind :=
    h.mem_candidates_iff.mpr ⟨q, t, own, hstaged, hkind, rfl⟩
  exact find_of_candidates hsort (validTime_of_mem h.dir h.read) (List.ne_nil_of_mem hmem)

theorem Found.hasPiece (h : Found env store params d d' infos) (hsort : SortsLatestFirst sortSlice)
    {q : List Bytes} (hfind : findLatestBackupPiece sortSlice infos kind = .ok q) :
    HasPiece (writes env store params.gcsPath) d kind := by
  obtain ⟨i, hi, -, -⟩ := latest_of_find hsort hfind
  obtain ⟨q, t, own, hstaged, hkind, -⟩ := h.mem_candidates_iff.mp hi
  exact ⟨q, t, own, hstaged, hkind⟩

theorem bind_mapError_eq_ok {α β : Type} {x : Except String α} {f : String → String}
    {g : α → Except String β} {b : β} (h : (x.mapError f >>= g) = .ok b) :
    ∃ a, x = .ok a ∧ g a = .ok b := by
  cases x with
  | error err => cases h
  | ok a => exact ⟨a, rfl, h⟩

/-- The two pieces are found in the staging directory, which is a directory. -/
theorem found_of_findPieces (hgcs : params.gcsPath ≠ []) (hsort : SortsLatestFirst sortSlice)
    {pieces : List Bytes × List Bytes} (h : findPieces sortSlice env store params d = .ok pieces) :
    ∃ d' infos, Found env store params d d' infos ∧
      findLatestBackupPiece sortSlice infos spfileKind = .ok pieces.1 ∧
      findLatestBackupPiece sortSlice infos controlfileKind = .ok pieces.2 := by
  simp only [findPieces, backupDir, if_pos hgcs] at h
  obtain ⟨d', hdownload, h⟩ := bind_mapError_eq_ok h
  obtain ⟨infos, hread, h⟩ := bind_mapError_eq_ok h
  obtain ⟨spfile, hspfile, h⟩ := bind_mapError_eq_ok h
  obtain ⟨controlfile, hcontrolfile, h⟩ := bind_mapError_eq_ok h
  obtain rfl := Except.ok.inj h
  refine ⟨d', infos, ⟨hdownload, ?_, hread⟩, hspfile, hcontrolfile⟩
  -- below a file `ReadDir` reports nothing
  obtain ⟨i, hi, -, -⟩ := latest_of_find hsort hspfile
  unfold readDir at hread
  split at hread
  · cases hread
  · split at hread
    · cases hread
    · split at hread
      · cases hread
      · obtain rfl := Except.ok.inj hread
        cases hi
      · next hdir => exact hdir

theorem findPieces_of_found (hgcs : params.gcsPath ≠ []) (h : Found env store params d d' infos)
    {spfile controlfile : List Bytes}
    (hspfile : findLatestBackupPiece sortSlice infos spfileKind = .ok spfile)
    (hcontrolfile : findLatestBackupPiece sortSlice infos controlfileKind = .ok controlfile) :
    findPieces sortSlice env store params d = .ok (spfile, controlfile) := by
  simp only [findPieces, backupDir, if_pos hgcs, h.download, Except.mapError, bind, Except.bind, h.read,
    hspfile, hcontrolfile]

/-- The statement names the pieces for which the files were deleted. -/
theorem restoresOwn_iff_pieces : RestoresOwn env store params d ↔
    ∀ sortSlice, SortsLatestFirst sortSlice → ∀ pieces,
      findPieces sortSlice env store params d = .ok pieces →
        Belongs (writes env store params.gcsPath) pieces.1 ∧
          Belongs (writes env store params.gcsPath) pieces.2 := by
  constructor
  · intro h sortSlice hsort pieces hpieces
    apply (h sortSlice hsort).2
    unfold physicalRestore
    rw [hpieces]
    cases env.createDirs <;> rfl
  · intro h sortSlice hsort
    unfold physicalRestore
    cases hpieces : findPieces sortSlice env store params d with
    | error err => simp
    | ok pieces =>
      have hown := h sortSlice hsort pieces hpieces
      cases env.createDirs with
      | some err => simpa using hown
      | none => simpa using hown

end Pieces

/--
A restore from cloud storage relies on pieces of the requested backup only, exactly when the
download or the reading of the staging directory fails, the directory holds no file of one of
the two kinds, or for both kinds every file in it that is not from the requested backup is older
than one that is.
-/
theorem restoresOwn_iff (env : Env) (store : Store) (params : Params) (d : Disk Bytes File)
    (hgcs : params.gcsPath ≠ []) :
    RestoresOwn env store params d ↔
      (Reads env store params d →
        HasPiece (writes env store params.gcsPath) d spfileKind →
        HasPiece (writes env store params.gcsPath) d controlfileKind →
        Prevails (writes env store params.gcsPath) d spfileKind ∧
          Prevails (writes env store params.gcsPath) d controlfileKind) := by
  rw [restoresOwn_iff_pieces]
  constructor
  · rintro hown ⟨d', hdownload, hdir, hread⟩ hspfile hcontrolfile
    obtain ⟨infos, hinfos⟩ := exists_of_isOk hread
    have hfound : Found env store params d d' infos := ⟨hdownload, hdir, hinfos⟩
    constructor
    · apply hfound.prevails
      intro sortSlice hsort q hq
      obtain ⟨c, hc⟩ := hfound.exists_find hsort hcontrolfile
      exact (hown sortSlice hsort _ (findPieces_of_found hgcs hfound hq hc)).1
    · apply hfound.prevails
      intro sortSlice hsort q hq
      obtain ⟨c, hc⟩ := hfound.exists_find hsort hspfile
      exact (hown sortSlice hsort _ (findPieces_of_found hgcs hfound hc hq)).2
  · intro h sortSlice hsort pieces hpieces
    obtain ⟨d', infos, hfound, hspfile, hcontrolfile⟩ := found_of_findPieces hgcs hsort hpieces
    have hreads : Reads env store params d := by
      refine ⟨d', hfound.download, hfound.dir, ?_⟩
      rw [hfound.read]
      rfl
    obtain ⟨hsp, hcf⟩ := h hreads (hfound.hasPiece hsort hspfile) (hfound.hasPiece hsort hcontrolfile)
    exact ⟨hfound.belongs hsort hsp hspfile, hfound.belongs hsort hcf hcontrolfile⟩

section Sample

variable {ws : List Write} {d : Disk Bytes File} {kind : Bytes} {q : List Bytes} {w : Write}

theorem mem_of_lastWrite (h : lastWrite ws q = some w) : w ∈ ws := by
  induction ws with
  | nil => cases h
  | cons x ws ih =>
    unfold lastWrite at h
    cases hlast : lastWrite ws q with
    | some y =>
      rw [hlast] at h
      obtain rfl := Option.some.inj h
      exact List.mem_cons_of_mem x (ih hlast)
    | none =>
      rw [hlast, Option.none_or] at h
      split at h
      · obtain rfl := Option.some.inj h
        exact List.mem_cons_self
      · cases h

/-- In a staging directory without files, the files of the backup prevail. -/
theorem prevails_of_no_files (hown : ∀ w ∈ ws, w.own = true)
    (hfiles : ∀ q node, d.get q = some node → node.isFile = false) : Prevails ws d kind := by
  intro q t hstaged _
  have hnone : fileTime d q = none := by
    cases htime : fileTime d q with
    | none => rfl
    | some t =>
      obtain ⟨f, hnode, -⟩ := fileTime_eq_some_iff.mp htime
      cases hfiles q _ hnode
  unfold staged at hstaged
  rw [hnone] at hstaged
  cases hlast : lastWrite ws q with
  | none =>
    rw [hlast] at hstaged
    cases hstaged
  | some w =>
    rw [hlast] at hstaged
    simp only [Option.map_some, Option.some_or, Option.some.injEq, Prod.mk.injEq] at hstaged
    rw [hown w (mem_of_lastWrite hlast)] at hstaged
    cases hstaged.2

/-- The disk before anything is staged. -/
def bareDisk : Disk Bytes File where
  entries := [([], .dir), ([ascii "u03"], .dir)]
  nodup := by decide

/-- Backup `a` is complete, of backup `b` the spfile piece is missing. -/
def twoBackups : Store := fun bucket =>
  if bucket = ascii "bkt" then
    [⟨ascii "a/s_nnsnf", []⟩, ⟨ascii "a/c_ncnnf", []⟩, ⟨ascii "b/c_ncnnf", []⟩]
  else []

/-- Nothing fails, and objects are written from this time on. -/
def smoothFrom (start : ℤ) : Env := ⟨none, fun n => start + n, none, none, none⟩

def restoreOf (gcsPath : Bytes) : Params := ⟨[], gcsPath, ascii "GCLOUD", 1, ascii "1", ascii "2"⟩

/-- On a disk where nothing is staged, backup `a` is restored from its own pieces. -/
theorem restoresOwn_bareDisk : (restoreOf (ascii "gs://bkt/a")).gcsPath ≠ [] ∧
    RestoresOwn (smoothFrom 0) twoBackups (restoreOf (ascii "gs://bkt/a")) bareDisk := by
  have hgcs : (restoreOf (ascii "gs://bkt/a")).gcsPath ≠ [] := by decide
  have hown : ∀ w ∈ writes (smoothFrom 0) twoBackups (ascii "gs://bkt/a"), w.own = true := by
    decide +kernel
  have hfiles : ∀ q node, bareDisk.get q = some node → node.isFile = false := by
    intro q node hnode
    have hmem := Disk.mem_entries_iff.mpr hnode
    have hall : ∀ e ∈ bareDisk.entries, e.2.isFile = false := by decide
    exact hall _ hmem
  refine ⟨hgcs, (restoresOwn_iff _ _ _ _ hgcs).mpr ?_⟩
  intro _ _ _
  exact ⟨prevails_of_no_files hown hfiles, prevails_of_no_files hown hfiles⟩

def leftSpfile : List Bytes := [ascii "u03", ascii "app", ascii "oracle", ascii "rmanstaging",
  ascii "s_nnsnf"]

/-- The piece that a restore of `b` names for the spfile, after a restore of `a` that has failed in
RMAN and left its files. -/
def namedSpfile : Except String (Option (List Bytes)) := do
  let left ← downloadDirectoryFromGCS (smoothFrom 0) rmanStagingDir twoBackups (ascii "gs://bkt/a")
    bareDisk
  .ok ((physicalRestore (preferring ⟨[], 0⟩) (smoothFrom 100) twoBackups
    (restoreOf (ascii "gs://bkt/b")) left).statement.map RestoreStmt.spfile)

/-- A restore of `a` fails in RMAN and leaves its pieces; the restore of `b` that follows names the
spfile piece of `a`, and deletes the files of the database for it. -/
theorem restore_names_left_piece :
    ∃ left, downloadDirectoryFromGCS (smoothFrom 0) rmanStagingDir twoBackups (ascii "gs://bkt/a")
        bareDisk = .ok left ∧
      ¬ RestoresOwn (smoothFrom 100) twoBackups (restoreOf (ascii "gs://bkt/b")) left := by
  have hnamed : namedSpfile = .ok (some leftSpfile) := by decide +kernel
  unfold namedSpfile at hnamed
  cases hleft : downloadDirectoryFromGCS (smoothFrom 0) rmanStagingDir twoBackups
      (ascii "gs://bkt/a") bareDisk with
  | error err =>
    rw [hleft] at hnamed
    cases hnamed
  | ok left =>
    refine ⟨left, rfl, ?_⟩
    intro hown
    rw [hleft] at hnamed
    obtain ⟨stmt, hstmt, hspfile⟩ := Option.map_eq_some_iff.mp (Except.ok.inj hnamed)
    obtain ⟨w, hlast, -⟩ := ((hown _ (sortsLatestFirst_preferring _)).1 stmt hstmt).1
    rw [hspfile] at hlast
    have hnone : lastWrite (writes (smoothFrom 100) twoBackups (ascii "gs://bkt/b")) leftSpfile =
        none := by decide +kernel
    exact absurd (hnone.symm.trans hlast) (by simp)

end Sample

end ElCarro.PhysicalRestore
