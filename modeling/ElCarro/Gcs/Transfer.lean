import ElCarro.Gcs.Path

/-! # Transfers to and from cloud storage

What can go wrong when the staging directory is uploaded and when a directory is
downloaded. A GCS writer commits its object only when `Close` returns nil, and a buffered
writer has written its data only when `Flush` returns nil; the daemon makes these calls
deferred and drops their errors. An environment gives, for every step, the error it ends
with, if any.
-/

namespace ElCarro.Gcs

open SlashPath

/-- A step that ends with an error, or not. -/
def attempt (err : Option String) : Except String Unit :=
  match err with
  | some err => .error err
  | none => .ok ()

section Upload

/-- The steps of one run of `uploadFile`. -/
structure Attempt where
  openFile : Option String
  newClient : Option String
  attrs : Option String
  copy : Option String
  gzipClose : Option String
  close : Option String
  deriving DecidableEq

def isGz (gcsPath : Bytes) : Bool := ascii ".gz" <:+ gcsPath

/-- `uploadFile`: what the deferred calls end with is not returned. -/
def uploadFile (a : Attempt) (gcsPath : Bytes) : Except String Unit := do
  let _ ← splitURI gcsPath
  attempt a.openFile
  attempt a.newClient
  attempt a.attrs
  attempt (a.copy.map ("failed to write file: " ++ ·))

/-- The deferred calls commit the object with the whole file in it. -/
def Attempt.Commits (a : Attempt) (gcsPath : Bytes) : Prop :=
  a.close = none ∧ (isGz gcsPath = true → a.gzipClose = none)

instance (a : Attempt) (gcsPath : Bytes) : Decidable (a.Commits gcsPath) :=
  inferInstanceAs (Decidable (_ ∧ _))

/-- `retry.OnError`, with the last run it makes. -/
def onError (retriable : String → Bool) (fn : Nat → Except String Unit) :
    (steps run : Nat) → Except String Unit × Nat
  | 0, run => (fn run, run)
  | steps + 1, run =>
    match fn run with
    | .ok () => (.ok (), run)
    | .error err => if retriable err then onError retriable fn steps (run + 1) else (.error err, run)

def receivedFiveHundred (err : String) : Bool := "compute: Received 500 ".toList <:+: err.toList

/-- `UploadFile`: four runs at most, with the last one. -/
def uploadFileRetrying (attempts : Nat → Attempt) (gcsPath : Bytes) : Except String Unit × Nat :=
  onError receivedFiveHundred (fun run => uploadFile (attempts run) gcsPath) 3 0

/-- An entry of the directory in the order of the walk, and what becomes of it. -/
structure Entry where
  /-- The names on the way from the directory. -/
  names : List Bytes
  isDir : Bool
  walk : Option String
  attempts : Nat → Attempt

/-- The error that ends the walk at an entry. -/
def Entry.visit (p : GcsPath) (e : Entry) : Except String Unit :=
  match e.walk with
  | some err => .error err
  | none =>
    if e.isDir then .ok ()
    else do
      let target ← gcsTarget p (glue e.names)
      (uploadFileRetrying e.attempts target).1

/-- The file has been uploaded and its object committed. -/
def Entry.Written (p : GcsPath) (e : Entry) : Prop :=
  ∃ target, gcsTarget p (glue e.names) = .ok target ∧
    (uploadFileRetrying e.attempts target).1 = .ok () ∧
    (e.attempts (uploadFileRetrying e.attempts target).2).Commits target

/-- `filepath.Walk` with the function that uploads the files, and the entries it gets through. -/
def walk (p : GcsPath) : List Entry → Except String Unit × List Entry
  | [] => (.ok (), [])
  | e :: es =>
    match e.visit p with
    | .error err => (.error err, [])
    | .ok () => ((walk p es).1, e :: (walk p es).2)

/-- One script of `RunRMAN`: its output, the directory it leaves and the removal of it. -/
structure Round where
  rman : Except String String
  entries : List Entry
  removeAll : Option String

/-- `uploadDirectoryContentsToGCS`: the directory is removed whatever the walk ended with. -/
def uploadDirectoryContentsToGCS (p : GcsPath) (r : Round) : Except String Unit × Bool :=
  ((walk p r.entries).1, r.removeAll.isNone)

/-- The scripts of `RunRMAN`, with the rounds that get to the upload. -/
def runScripts (p : GcsPath) : List Round → Except String (List String) × List Round
  | [] => (.ok [], [])
  | r :: rs =>
    match r.rman with
    | .error err => (.error err, [])
    | .ok out =>
      match (uploadDirectoryContentsToGCS p r).1 with
      | .error err => (.error err, [r])
      | .ok () => ((runScripts p rs).1.map (out :: ·), r :: (runScripts p rs).2)

/-- `RunRMAN` with an upload; `setenv` is the first error of the settings before the scripts. -/
def runRMAN (setenv : Option String) (p : GcsPath) (rounds : List Round) :
    Except String (List String) × List Round :=
  match setenv with
  | some err => (.error ("failed to set env variable: " ++ err), [])
  | none =>
    if rounds.length < 1 then (.error "RunRMAN requires at least 1 script to run, provided: 0", [])
    else runScripts p rounds

/-- The walk has left out no file, and every file was uploaded. -/
def Round.Complete (p : GcsPath) (r : Round) : Prop :=
  (∀ e ∈ (walk p r.entries).2, e.isDir = false → e.Written p) ∧
    ∀ e ∈ r.entries.drop (walk p r.entries).2.length, e.isDir = true

/-- A backup reports success only when every file was written, and the staging directory is
removed only when the upload of every file in it succeeded. -/
def ReliableBackup (setenv : Option String) (p : GcsPath) (rounds : List Round) : Prop :=
  ((runRMAN setenv p rounds).1.isOk = true → ∀ r ∈ rounds, r.Complete p) ∧
    ∀ r ∈ (runRMAN setenv p rounds).2, (uploadDirectoryContentsToGCS p r).2 = true → r.Complete p

/-- An entry at which no step fails, the deferred ones included. -/
def Entry.Fine (p : GcsPath) (e : Entry) : Prop :=
  e.walk = none ∧ (e.isDir = false → e.Written p)

/-- No step fails up to the last file of the directory. -/
def Round.Clean (p : GcsPath) (r : Round) : Prop :=
  ∃ n, (∀ e ∈ r.entries.take n, e.Fine p) ∧ ∀ e ∈ r.entries.drop n, e.isDir = true

/-- The script and its upload report no failure. -/
def Round.Passes (p : GcsPath) (r : Round) : Prop :=
  r.rman.isOk = true ∧ ∀ e ∈ r.entries, (e.visit p).isOk = true

/-- The round gets to its upload. -/
def Reached (setenv : Option String) (p : GcsPath) (rounds : List Round) (r : Round) : Prop :=
  setenv = none ∧ ∃ before after, rounds = before ++ r :: after ∧ (∀ q ∈ before, q.Passes p) ∧
    r.rman.isOk = true

/-- A step fails whose error is returned. -/
def FailsVisibly (setenv : Option String) (p : GcsPath) (rounds : List Round) : Prop :=
  setenv.isSome ∨ rounds = [] ∨ ∃ r ∈ rounds, ¬ r.Passes p

/-- Only a deferred step fails. -/
def Entry.HiddenFailure (p : GcsPath) (e : Entry) : Prop :=
  e.isDir = false ∧ (e.visit p).isOk = true ∧ ¬ e.Written p

section Walk

variable {p : GcsPath} {es : List Entry} {e : Entry}

theorem Entry.Written.visit (h : e.Written p) (hwalk : e.walk = none) (hfile : e.isDir = false) :
    (e.visit p).isOk = true := by
  obtain ⟨target, htarget, hok, -⟩ := h
  unfold Entry.visit
  rw [hwalk]
  simp only [hfile, Bool.false_eq_true, if_false, htarget]
  change (uploadFileRetrying e.attempts target).1.isOk = true
  rw [hok]
  rfl

theorem Entry.Fine.visit (h : e.Fine p) : (e.visit p).isOk = true := by
  cases hdir : e.isDir with
  | true =>
    unfold Entry.visit
    rw [h.1]
    simp [hdir, Except.isOk, Except.toBool]
  | false => exact (h.2 hdir).visit h.1 hdir

theorem Entry.walk_eq_none (h : (e.visit p).isOk = true) : e.walk = none := by
  unfold Entry.visit at h
  split at h
  · cases h
  · next hwalk => exact hwalk

/-- The walk gets through the entries up to the first that fails. -/
theorem walk_cases (p : GcsPath) (es : List Entry) : ∃ rest, es = (walk p es).2 ++ rest ∧
    (∀ e ∈ (walk p es).2, (e.visit p).isOk = true) ∧
    (rest = [] ∧ (walk p es).1 = .ok () ∨
      ∃ e more err, rest = e :: more ∧ e.visit p = .error err ∧ (walk p es).1 = .error err) := by
  induction es with
  | nil => exact ⟨[], rfl, by simp [walk], .inl ⟨rfl, rfl⟩⟩
  | cons e es ih =>
    cases hvisit : e.visit p with
    | error err =>
      refine ⟨e :: es, by simp [walk, hvisit], by simp [walk, hvisit], .inr ?_⟩
      exact ⟨e, es, err, rfl, hvisit, by simp [walk, hvisit]⟩
    | ok u =>
      obtain ⟨rest, hes, hok, hend⟩ := ih
      have hwalk : walk p (e :: es) = ((walk p es).1, e :: (walk p es).2) := by
        simp [walk, hvisit]
      refine ⟨rest, ?_, ?_, ?_⟩
      · rw [hwalk, List.cons_append, ← hes]
      · rw [hwalk]
        intro e' he'
        rcases List.mem_cons.mp he' with rfl | he'
        · rw [hvisit]
          rfl
        · exact hok e' he'
      · rw [hwalk]
        exact hend

theorem walk_isOk_iff : (walk p es).1.isOk = true ↔ ∀ e ∈ es, (e.visit p).isOk = true := by
  obtain ⟨rest, hes, hok, ⟨rfl, hres⟩ | ⟨e, more, err, rfl, herr, hres⟩⟩ := walk_cases p es
  · rw [hres]
    rw [List.append_nil] at hes
    constructor
    · intro _ e he
      exact hok e (hes ▸ he)
    · intro _
      rfl
  · rw [hres]
    constructor
    · intro h
      cases h
    · intro hall
      have he : e ∈ es := by
        rw [hes]
        simp
      have hvisit := hall e he
      rw [herr] at hvisit
      cases hvisit

theorem complete_iff_clean {r : Round} : r.Complete p ↔ r.Clean p := by
  obtain ⟨rest, hes, hok, hend⟩ := walk_cases p r.entries
  generalize hthrough : (walk p r.entries).2 = through at hes hok
  have htake : r.entries.take through.length = through := by simp [hes]
  have hdrop : r.entries.drop through.length = rest := by simp [hes]
  unfold Round.Complete Round.Clean
  rw [hthrough, hdrop]
  constructor
  · rintro ⟨hwritten, hrest⟩
    refine ⟨through.length, ?_, hdrop ▸ hrest⟩
    intro e he
    rw [htake] at he
    exact ⟨e.walk_eq_none (hok e he), hwritten e he⟩
  · rintro ⟨n, hfine, hdirs⟩
    have hsplit : ∀ e ∈ r.entries, e.isDir = false → e ∈ r.entries.take n := by
      intro e he hfile
      rw [← List.take_append_drop n r.entries] at he
      rcases List.mem_append.mp he with he | he
      · exact he
      · rw [hdirs e he] at hfile
        cases hfile
    constructor
    · intro e he hfile
      have hmem : e ∈ r.entries := by
        rw [hes]
        exact List.mem_append_left _ he
      exact (hfine e (hsplit e hmem hfile)).2 hfile
    · -- the entry that ends the walk is not fine, so it lies behind the last file
      intro e he
      rcases hend with ⟨rfl, -⟩ | ⟨bad, more, err, rfl, herr, -⟩
      · cases he
      · have hn : n ≤ through.length := by
          by_contra hlt
          have hbad : bad ∈ r.entries.take n := by
            rw [hes, List.take_append]
            apply List.mem_append_right
            rw [show n - through.length = (n - through.length - 1) + 1 by omega]
            exact List.mem_cons_self
          have hvisit := (hfine bad hbad).visit
          rw [herr] at hvisit
          cases hvisit
        apply hdirs e
        have hsub : r.entries.drop n = (through.drop n) ++ bad :: more := by
          rw [hes, List.drop_append_of_le_length hn]
        rw [hsub]
        exact List.mem_append_right _ he

/-- Where nothing is reported, a directory is complete when nothing fails unseen. -/
theorem clean_iff_of_visits {r : Round} (h : ∀ e ∈ r.entries, (e.visit p).isOk = true) :
    r.Clean p ↔ ∀ e ∈ r.entries, ¬ e.HiddenFailure p := by
  constructor
  · rintro ⟨n, hfine, hdirs⟩ e he ⟨hfile, -, hnot⟩
    rw [← List.take_append_drop n r.entries] at he
    rcases List.mem_append.mp he with he | he
    · exact hnot ((hfine e he).2 hfile)
    · rw [hdirs e he] at hfile
      cases hfile
  · intro hnone
    refine ⟨r.entries.length, ?_, by simp⟩
    intro e he
    rw [List.take_length] at he
    refine ⟨e.walk_eq_none (h e he), fun hfile => ?_⟩
    by_contra hnot
    exact hnone e he ⟨hfile, h e he, hnot⟩

end Walk

section Scripts

variable {setenv : Option String} {p : GcsPath} {rounds : List Round} {r : Round}

theorem passes_iff : r.Passes p ↔ r.rman.isOk = true ∧ (walk p r.entries).1.isOk = true := by
  rw [Round.Passes, walk_isOk_iff]

theorem exists_of_isOk {α : Type} {x : Except String α} (h : x.isOk = true) : ∃ a, x = .ok a := by
  cases x with
  | error err => cases h
  | ok a => exact ⟨a, rfl⟩

/-- A round that passes hands over to the next one. -/
theorem runScripts_of_passes (h : r.Passes p) : ∃ out, runScripts p (r :: rounds) =
    ((runScripts p rounds).1.map (out :: ·), r :: (runScripts p rounds).2) := by
  obtain ⟨hrman, hwalk⟩ := passes_iff.mp h
  obtain ⟨out, hout⟩ := exists_of_isOk hrman
  obtain ⟨u, hu⟩ := exists_of_isOk hwalk
  exact ⟨out, by simp [runScripts, hout, uploadDirectoryContentsToGCS, hu]⟩

/-- A round that does not pass is the last one, and it is uploaded when its script ran. -/
theorem runScripts_of_not_passes (h : ¬ r.Passes p) :
    (runScripts p (r :: rounds)).1.isOk = false ∧
      ((runScripts p (r :: rounds)).2 = if r.rman.isOk then [r] else []) := by
  cases hrman : r.rman with
  | error err => simp [runScripts, hrman, Except.isOk, Except.toBool]
  | ok out =>
    cases hwalk : (walk p r.entries).1 with
    | error err => simp [runScripts, hrman, uploadDirectoryContentsToGCS, hwalk, Except.isOk,
        Except.toBool]
    | ok u =>
      refine absurd (passes_iff.mpr ⟨?_, ?_⟩) h
      · rw [hrman]
        rfl
      · rw [hwalk]
        rfl

theorem runScripts_isOk_iff : (runScripts p rounds).1.isOk = true ↔ ∀ r ∈ rounds, r.Passes p := by
  induction rounds with
  | nil => simp [runScripts, Except.isOk, Except.toBool]
  | cons r rounds ih =>
    by_cases hpass : r.Passes p
    · obtain ⟨out, hrun⟩ := @runScripts_of_passes p rounds r hpass
      have hmap : ((runScripts p rounds).1.map (out :: ·)).isOk = (runScripts p rounds).1.isOk := by
        cases (runScripts p rounds).1 <;> rfl
      rw [hrun, hmap, ih]
      simp [hpass]
    · rw [(runScripts_of_not_passes hpass).1]
      constructor
      · intro h
        cases h
      · intro hall
        exact absurd (hall r List.mem_cons_self) hpass

theorem mem_runScripts_iff : r ∈ (runScripts p rounds).2 ↔ ∃ before after,
    rounds = before ++ r :: after ∧ (∀ q ∈ before, q.Passes p) ∧ r.rman.isOk = true := by
  induction rounds with
  | nil => simp [runScripts]
  | cons q rounds ih =>
    by_cases hpass : q.Passes p
    · obtain ⟨out, hrun⟩ := @runScripts_of_passes p rounds q hpass
      rw [hrun, List.mem_cons, ih]
      constructor
      · rintro (rfl | ⟨before, after, rfl, hbefore, hrman⟩)
        · exact ⟨[], rounds, rfl, by simp, hpass.1⟩
        · refine ⟨q :: before, after, rfl, ?_, hrman⟩
          intro q' hq'
          rcases List.mem_cons.mp hq' with rfl | hq'
          · exact hpass
          · exact hbefore q' hq'
      · rintro ⟨before, after, heq, hbefore, hrman⟩
        cases before with
        | nil => exact .inl (List.cons.inj heq).1.symm
        | cons b before =>
          obtain ⟨rfl, rfl⟩ := List.cons.inj heq
          exact .inr ⟨before, after, rfl, fun q' hq' => hbefore q' (List.mem_cons_of_mem _ hq'),
            hrman⟩
    · rw [(runScripts_of_not_passes hpass).2]
      constructor
      · intro hmem
        split at hmem
        · next hrman =>
          obtain rfl := List.mem_singleton.mp hmem
          exact ⟨[], rounds, rfl, by simp, hrman⟩
        · cases hmem
      · rintro ⟨before, after, heq, hbefore, hrman⟩
        cases before with
        | nil =>
          obtain ⟨rfl, rfl⟩ := List.cons.inj heq
          simp [hrman]
        | cons b before =>
          obtain ⟨rfl, -⟩ := List.cons.inj heq
          exact absurd (hbefore q List.mem_cons_self) hpass

theorem runRMAN_cons : runRMAN none p (r :: rounds) = runScripts p (r :: rounds) := by
  simp [runRMAN]

theorem runRMAN_isOk_iff :
    (runRMAN setenv p rounds).1.isOk = true ↔ ¬ FailsVisibly setenv p rounds := by
  cases setenv with
  | some err => simp [runRMAN, FailsVisibly, Except.isOk, Except.toBool]
  | none =>
    cases rounds with
    | nil => simp [runRMAN, FailsVisibly, Except.isOk, Except.toBool]
    | cons r rounds =>
      rw [runRMAN_cons, runScripts_isOk_iff]
      simp [FailsVisibly]

theorem mem_runRMAN_iff : r ∈ (runRMAN setenv p rounds).2 ↔ Reached setenv p rounds r := by
  cases setenv with
  | some err => simp [runRMAN, Reached]
  | none =>
    cases rounds with
    | nil => simp [runRMAN, Reached]
    | cons q rounds =>
      rw [runRMAN_cons, mem_runScripts_iff]
      simp [Reached]

/-- When a backup is reliable, in terms of what fails. -/
theorem reliableBackup_iff : ReliableBackup setenv p rounds ↔
    (FailsVisibly setenv p rounds ∨ ∀ r ∈ rounds, ∀ e ∈ r.entries, ¬ e.HiddenFailure p) ∧
      ∀ r, Reached setenv p rounds r → r.removeAll.isSome = true ∨ r.Clean p := by
  unfold ReliableBackup
  apply and_congr
  · rw [runRMAN_isOk_iff]
    by_cases hfails : FailsVisibly setenv p rounds
    · simp [hfails]
    · have hpass : ∀ r ∈ rounds, r.Passes p := by
        intro r hr
        by_contra hnot
        exact hfails (.inr (.inr ⟨r, hr, hnot⟩))
      simp only [hfails, not_false_eq_true, true_imp_iff, false_or]
      apply forall₂_congr
      intro r hr
      rw [complete_iff_clean, clean_iff_of_visits (hpass r hr).2]
  · apply forall_congr'
    intro r
    rw [mem_runRMAN_iff, complete_iff_clean]
    cases hremove : r.removeAll <;> simp [uploadDirectoryContentsToGCS, hremove]

end Scripts

end Upload

section Download

/-- An object that the iterator gives, or its error, and the steps of the download. -/
structure Listed where
  next : Option String
  name : Bytes
  reader : Option String
  mkdirAll : Option String
  create : Option String
  copy : Option String
  flush : Option String
  close : Option String
  deriving DecidableEq

/-- `createFile`: what `Flush` and `Close` end with is not returned. -/
def createFile (l : Listed) : Except String Unit := do
  attempt (l.mkdirAll.map ("couldn't create dir err: " ++ ·))
  attempt (l.create.map ("couldn't create file err: " ++ ·))
  attempt (l.copy.map ("copying contents failed: " ++ ·))

def downloadFile (l : Listed) (baseDir : Bytes) : Except String Unit := do
  attempt (l.reader.map ("failed to read URL: " ++ ·))
  match rel baseDir l.name with
  | none => .error "failed to parse relPath"
  | some _ => createFile l

/-- One turn of the loop over the objects; a permission check only opens a reader. -/
def downloadNext (check : Bool) (baseDir : Bytes) (l : Listed) : Except String Unit := do
  attempt l.next
  if check then attempt (l.reader.map ("failed to read URL: " ++ ·))
  else downloadFile l baseDir

def downloadAll (check : Bool) (baseDir : Bytes) : List Listed → Except String Unit
  | [] => .ok ()
  | l :: ls => do
    downloadNext check baseDir l
    downloadAll check baseDir ls

def downloadDirectoryFromGCS (gcsPath : Bytes) (check : Bool) (newClient : Option String)
    (listed : List Listed) : Except String Unit := do
  let (_, baseDir) ← splitURI gcsPath
  attempt (newClient.map ("storage.NewClient: " ++ ·))
  downloadAll check baseDir listed

/-- The data has been copied and has left the buffer and the file handle. -/
def Listed.Written (baseDir : Bytes) (l : Listed) : Prop :=
  (downloadNext false baseDir l).isOk = true ∧ l.flush = none ∧ l.close = none

/-- A download reports success only when every file was written. -/
def ReliableDownload (gcsPath : Bytes) (newClient : Option String) (listed : List Listed) : Prop :=
  (downloadDirectoryFromGCS gcsPath false newClient listed).isOk = true →
    ∀ bucket baseDir, splitURI gcsPath = .ok (bucket, baseDir) → ∀ l ∈ listed, l.Written baseDir

variable {gcsPath baseDir : Bytes} {newClient : Option String} {listed : List Listed}

theorem downloadAll_isOk_iff : (downloadAll false baseDir listed).isOk = true ↔
    ∀ l ∈ listed, (downloadNext false baseDir l).isOk = true := by
  induction listed with
  | nil => simp [downloadAll, Except.isOk, Except.toBool]
  | cons l ls ih =>
    rw [downloadAll]
    cases hnext : downloadNext false baseDir l with
    | error err =>
      constructor
      · intro h
        cases h
      · intro hall
        have hl := hall l List.mem_cons_self
        rw [hnext] at hl
        cases hl
    | ok u =>
      change (downloadAll false baseDir ls).isOk = true ↔ _
      rw [ih]
      simp [hnext, Except.isOk, Except.toBool]

/-- A step of the download fails whose error is returned. -/
def DownloadFailsVisibly (gcsPath : Bytes) (newClient : Option String) (listed : List Listed) :
    Prop :=
  (splitURI gcsPath).isOk = false ∨ newClient.isSome = true ∨
    ∃ bucket baseDir, splitURI gcsPath = .ok (bucket, baseDir) ∧
      ∃ l ∈ listed, (downloadNext false baseDir l).isOk = false

theorem download_isOk_iff : (downloadDirectoryFromGCS gcsPath false newClient listed).isOk = true ↔
    ¬ DownloadFailsVisibly gcsPath newClient listed := by
  unfold downloadDirectoryFromGCS DownloadFailsVisibly
  cases hsplit : splitURI gcsPath with
  | error err => simp [bind, Except.bind, Except.isOk, Except.toBool]
  | ok pair =>
    obtain ⟨bucket, baseDir⟩ := pair
    cases newClient with
    | some err => simp [bind, Except.bind, attempt, Except.isOk, Except.toBool]
    | none =>
      change (downloadAll false baseDir listed).isOk = true ↔ _
      rw [downloadAll_isOk_iff]
      simp [Except.isOk, Except.toBool]

/-- When a download is reliable, in terms of what fails. -/
theorem reliableDownload_iff : ReliableDownload gcsPath newClient listed ↔
    DownloadFailsVisibly gcsPath newClient listed ∨
      ∀ l ∈ listed, l.flush = none ∧ l.close = none := by
  unfold ReliableDownload
  rw [download_isOk_iff]
  by_cases hfails : DownloadFailsVisibly gcsPath newClient listed
  · simp [hfails]
  · simp only [hfails, not_false_eq_true, true_imp_iff, false_or]
    cases hsplit : splitURI gcsPath with
    | error err => exact absurd (.inl (by simp [hsplit, Except.isOk, Except.toBool])) hfails
    | ok pair =>
      obtain ⟨bucket, baseDir⟩ := pair
      have hnext : ∀ l ∈ listed, (downloadNext false baseDir l).isOk = true := by
        intro l hl
        by_contra hnot
        exact hfails (.inr (.inr ⟨bucket, baseDir, hsplit, l, hl, by simpa using hnot⟩))
      constructor
      · intro hall l hl
        exact (hall bucket baseDir rfl l hl).2
      · intro hall b d heq l hl
        obtain ⟨rfl, rfl⟩ := Prod.mk.inj (Except.ok.inj heq)
        exact ⟨hnext l hl, hall l hl⟩

end Download

section Sample

def samplePath : GcsPath := ⟨ascii "bkt", ascii "b1", bkt_length, bkt_bytes⟩

/-- One piece in the staging directory, whose upload goes as given. -/
def pieceRound (a : Attempt) : Round := ⟨.ok "", [⟨[ascii "piece"], false, none, fun _ => a⟩], none⟩

def smooth : Attempt := ⟨none, none, none, none, none, none⟩

theorem gcsTarget_piece : gcsTarget samplePath (glue [ascii "piece"]) =
    .ok (ascii "gs://bkt/b1/piece") := by decide +kernel

theorem written_of_complete {a : Attempt} (h : (pieceRound a).Complete samplePath) :
    (uploadFileRetrying (fun _ => a) (ascii "gs://bkt/b1/piece")).1 = .ok () ∧ a.close = none := by
  obtain ⟨n, hfine, hdirs⟩ := complete_iff_clean.mp h
  have hwritten : Entry.Written samplePath ⟨[ascii "piece"], false, none, fun _ => a⟩ := by
    cases n with
    | zero => exact absurd (hdirs _ List.mem_cons_self) Bool.false_ne_true
    | succ n => exact (hfine _ List.mem_cons_self).2 rfl
  obtain ⟨target, htarget, hok, hclose, -⟩ := hwritten
  obtain rfl : ascii "gs://bkt/b1/piece" = target :=
    Except.ok.inj (gcsTarget_piece.symm.trans htarget)
  exact ⟨hok, hclose⟩

def closeFails : Attempt := { smooth with close := some "googleapi: Error 503" }

def copyFails : Attempt := { smooth with copy := some "unexpected EOF" }

def flushFails : Listed :=
  ⟨none, ascii "b1/piece", none, none, none, none, some "no space left on device", none⟩

end Sample

end ElCarro.Gcs
