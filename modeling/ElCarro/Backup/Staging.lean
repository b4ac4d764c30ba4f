import Mathlib.Data.Fintype.Basic
import Mathlib.Data.List.Sort
import Mathlib.Data.String.Basic
import Mathlib.Logic.Function.Basic
import ElCarro.Lib.Runs

/-! # Backups that share the staging directory

A physical backup to GCS has RMAN write into the staging directory of the instance,
uploads whatever a walk of the directory finds and removes the directory. Each job
runs on its own; they all use the same directory, under a lock that they share.
-/

namespace ElCarro.PhysicalBackup

variable {ι : Type*}

section Directory

/-- The parts of a path below the staging directory; the directory itself has none. -/
abbrev RelPath := List String

/-- A file, with the RMAN run that has written it. -/
structure File (ι : Type*) where
  path : RelPath
  run : ι
  data : String
  deriving DecidableEq

structure Staging (ι : Type*) where
  present : Bool
  files : List (File ι)

/-- The entry of a directory that a file lies in. -/
def entryOf (dir path : RelPath) : Option RelPath :=
  if dir <+: path then (path.drop dir.length).head?.map fun part => dir ++ [part] else none

/-- `readDirNames`: the entries of a directory, sorted. -/
def Staging.readDir (staging : Staging ι) (dir : RelPath) : List RelPath :=
  ((staging.files.filterMap fun f => entryOf dir f.path).dedup).insertionSort (· ≤ ·)

def Staging.fileAt (staging : Staging ι) (path : RelPath) : Option (File ι) :=
  staging.files.find? (·.path = path)

def Staging.write (staging : Staging ι) (f : File ι) : Staging ι :=
  ⟨true, f :: staging.files.filter (·.path ≠ f.path)⟩

/-- Whether a path without files is there: the directory itself, or one that outlives its files. -/
def Staging.exists (staging : Staging ι) (path : RelPath) (lingers : Bool) : Bool :=
  if path = [] then staging.present else lingers

/-- A file can be written where no directory is, and not below another file. -/
def Staging.Writable (staging : Staging ι) (path : RelPath) : Prop :=
  path ≠ [] ∧ ∀ f ∈ staging.files, f.path ≠ path → ¬ f.path <+: path ∧ ¬ path <+: f.path

instance (staging : Staging ι) (path : RelPath) : Decidable (staging.Writable path) :=
  inferInstanceAs (Decidable (_ ∧ _))

theorem entryOf_isPrefix {dir path entry : RelPath} (h : entryOf dir path = some entry) :
    entry <+: path := by
  unfold entryOf at h
  split at h
  · next hdir =>
    obtain ⟨part, hpart, rfl⟩ := Option.map_eq_some_iff.mp h
    obtain ⟨rest, rfl⟩ := hdir
    rw [List.drop_left] at hpart
    cases rest with
    | nil => cases hpart
    | cons head rest =>
      obtain rfl := Option.some.inj hpart
      exact ⟨rest, by simp⟩
  · cases h

theorem exists_entryOf {dir path : RelPath} (h : dir <+: path) (hne : path ≠ dir) :
    ∃ entry, entryOf dir path = some entry := by
  obtain ⟨rest, rfl⟩ := h
  cases rest with
  | nil => exact absurd (List.append_nil dir) hne
  | cons head rest => exact ⟨dir ++ [head], by simp [entryOf]⟩

theorem Staging.mem_readDir {staging : Staging ι} {dir entry : RelPath} :
    entry ∈ staging.readDir dir ↔ ∃ f ∈ staging.files, entryOf dir f.path = some entry := by
  simp [readDir]

/-- A file below a path that is no file lies in an entry of that directory. -/
theorem Staging.exists_mem_readDir {staging : Staging ι} {dir : RelPath} {f : File ι}
    (hfile : staging.fileAt dir = none) (hf : f ∈ staging.files) (hdir : dir <+: f.path) :
    ∃ entry ∈ staging.readDir dir, entry <+: f.path := by
  have hne : f.path ≠ dir := by
    intro heq
    have hno := List.find?_eq_none.mp hfile f hf
    exact hno (decide_eq_true heq)
  obtain ⟨entry, hentry⟩ := exists_entryOf hdir hne
  exact ⟨entry, mem_readDir.mpr ⟨f, hf, hentry⟩, entryOf_isPrefix hentry⟩

end Directory

/-- Where `RunRMAN` stands with one backup. -/
inductive Phase where
  | waiting
  | ready
  | rman
  /-- `filepath.Walk`, with the entries that are still to be visited. -/
  | walking (todo : List RelPath)
  | removing (uploaded : Bool)
  | finished (uploaded : Bool)
  deriving DecidableEq

/-- From the start of the RMAN run to the end of the removal. -/
def Phase.Active : Phase → Prop
  | .rman | .walking _ | .removing _ => True
  | _ => False

instance : DecidablePred Phase.Active := fun p => by cases p <;> unfold Phase.Active <;> infer_instance

structure State (ι : Type*) where
  staging : Staging ι
  phase : ι → Phase
  /-- What each RMAN run has written. -/
  produced : ι → List (File ι)
  /-- What was uploaded, with the GCS path of the request. -/
  uploads : List (String × File ι)

def State.start : State ι := ⟨⟨false, []⟩, fun _ => .waiting, fun _ => [], []⟩

/-- The backups of an instance, each to a GCS path of its own. -/
structure Backups (ι : Type*) where
  gcsPath : ι → String
  different : Function.Injective gcsPath

inductive Upload where
  | ok
  | failed
  /-- The object was written, but the caller sees an error. -/
  | lost
  deriving DecidableEq

inductive Event (ι : Type*) where
  | createDirs (job : ι)
  | rmanStart (job : ι)
  | rmanWrite (job : ι) (path : RelPath) (data : String)
  | rmanExit (job : ι) (ok : Bool)
  /-- `lingers` tells whether a directory outlives its files. -/
  | visit (job : ι) (upload : Upload) (lingers : Bool)
  | walkEnd (job : ι)
  | remove (job : ι) (path : RelPath)
  | removeEnd (job : ι) (ok : Bool)

section Steps

variable [DecidableEq ι] (b : Backups ι) (s : State ι)

def State.setPhase (job : ι) (phase : Phase) : State ι :=
  { s with phase := Function.update s.phase job phase }

/-- The next entry of the walk: a file is uploaded, a directory is read. An entry that is gone
ends the walk, as does an upload that fails. -/
def visit (job : ι) (path : RelPath) (todo : List RelPath) (upload : Upload) (lingers : Bool) :
    State ι :=
  match s.staging.fileAt path with
  | some f =>
    { s.setPhase job (if upload = .ok then .walking todo else .removing false) with
      uploads := if upload = .failed then s.uploads else (b.gcsPath job, f) :: s.uploads }
  | none =>
    let dir := s.staging.readDir path
    if dir ≠ [] then s.setPhase job (.walking (dir ++ todo))
    else if s.staging.exists path lingers then
      s.setPhase job (.walking todo)
    else s.setPhase job (.removing false)

def step : Event ι → Option (State ι)
  | .createDirs job =>
    if s.phase job = .waiting then
      some { s.setPhase job .ready with staging := { s.staging with present := true } }
    else none
  | .rmanStart job => if s.phase job = .ready then some (s.setPhase job .rman) else none
  | .rmanWrite job path data =>
    if s.phase job = .rman ∧ s.staging.Writable path then
      let f : File ι := ⟨path, job, data⟩
      some { s with
        staging := s.staging.write f
        produced := Function.update s.produced job
          (f :: (s.produced job).filter (·.path ≠ path)) }
    else none
  | .rmanExit job ok =>
    if s.phase job = .rman then
      some (s.setPhase job (if ok then .walking [[]] else .finished false))
    else none
  | .visit job upload lingers =>
    match s.phase job with
    | .walking (path :: todo) => some (visit b s job path todo upload lingers)
    | _ => none
  | .walkEnd job =>
    if s.phase job = .walking [] then some (s.setPhase job (.removing true)) else none
  | .remove job path =>
    match s.phase job with
    | .removing _ =>
      some { s with
        staging := { s.staging with files := s.staging.files.filter (·.path ≠ path) } }
    | _ => none
  | .removeEnd job ok =>
    match s.phase job with
    | .removing uploaded =>
      -- a removal that fails is only logged
      if ¬ ok then some (s.setPhase job (.finished uploaded))
      else if s.staging.files = [] then
        some { s.setPhase job (.finished uploaded) with
          staging := { s.staging with present := false } }
      else none
    | _ => none

end Steps

/-- Each path receives what its own run produced, and nothing is removed before that. -/
structure Isolated (b : Backups ι) (s : State ι) : Prop where
  own : ∀ job f, (b.gcsPath job, f) ∈ s.uploads → f ∈ s.produced job
  complete : ∀ job, s.phase job = .finished true → ∀ f ∈ s.produced job,
    (b.gcsPath job, f) ∈ s.uploads
  kept : ∀ job, ∀ f ∈ s.produced job, f ∈ s.staging.files ∨ (b.gcsPath job, f) ∈ s.uploads

/-- An RMAN run starts with the directory to itself, and no upload fails. -/
def Undisturbed (s : State ι) : Event ι → Prop
  | .rmanStart job => s.staging.files = [] ∧ ∀ other, other ≠ job → ¬ (s.phase other).Active
  | .visit _ upload _ => upload = .ok
  | _ => True

instance [Fintype ι] [DecidableEq ι] (s : State ι) :
    ∀ e : Event ι, Decidable (Undisturbed s e)
  | .rmanStart job =>
    inferInstanceAs (Decidable (s.staging.files = [] ∧ ∀ other, other ≠ job →
      ¬ (s.phase other).Active))
  | .visit _ upload _ => inferInstanceAs (Decidable (upload = .ok))
  | .createDirs _ | .rmanWrite _ _ _ | .rmanExit _ _ | .walkEnd _ | .remove _ _
  | .removeEnd _ _ => inferInstanceAs (Decidable True)

section Invariant

variable {b : Backups ι} {s : State ι}

/-- What is known of the files of a run in each of its phases. -/
def Phase.Fits (b : Backups ι) (s : State ι) (job : ι) : Phase → Prop
  | .waiting | .ready => s.produced job = []
  | .rman => (∀ f ∈ s.produced job, f ∈ s.staging.files) ∧ ∀ f, (b.gcsPath job, f) ∉ s.uploads
  | .walking todo =>
    (∀ f ∈ s.produced job, f ∈ s.staging.files ∧
      ((b.gcsPath job, f) ∈ s.uploads ∨ ∃ path ∈ todo, path <+: f.path)) ∧
    ∀ path ∈ todo, path = [] ∨ ∃ f ∈ s.staging.files, path <+: f.path
  | .removing _ | .finished true => ∀ f ∈ s.produced job, (b.gcsPath job, f) ∈ s.uploads
  | .finished false => ∀ f ∈ s.produced job,
    f ∈ s.staging.files ∨ (b.gcsPath job, f) ∈ s.uploads

structure Inv (b : Backups ι) (s : State ι) : Prop where
  alone : ∀ i j, (s.phase i).Active → (s.phase j).Active → i = j
  run : ∀ job, ∀ f ∈ s.produced job, f.run = job
  /-- The directory holds only files of the run that is under way. -/
  staged : ∀ job, (s.phase job).Active → ∀ f ∈ s.staging.files, f ∈ s.produced job
  apart : ∀ f ∈ s.staging.files, ∀ g ∈ s.staging.files, f.path <+: g.path → f = g
  uploads : ∀ job f, (b.gcsPath job, f) ∈ s.uploads → f ∈ s.produced job
  phases : ∀ job, (s.phase job).Fits b s job

theorem Inv.start : Inv b .start where
  alone := by
    intro i j h
    cases h
  run := by simp [State.start]
  staged := by
    intro job h
    cases h
  apart := by simp [State.start]
  uploads := by simp [State.start]
  phases := by
    intro job
    rfl

theorem Inv.fits {job : ι} {phase : Phase} (h : Inv b s) (hp : s.phase job = phase) :
    phase.Fits b s job := hp ▸ h.phases job

theorem Inv.kept (h : Inv b s) (job : ι) {f : File ι} (hf : f ∈ s.produced job) :
    f ∈ s.staging.files ∨ (b.gcsPath job, f) ∈ s.uploads := by
  cases hp : s.phase job with
  | waiting =>
    have hnone : s.produced job = [] := h.fits hp
    simp [hnone] at hf
  | ready =>
    have hnone : s.produced job = [] := h.fits hp
    simp [hnone] at hf
  | rman => exact .inl ((h.fits hp).1 f hf)
  | walking todo => exact .inl ((h.fits hp).1 f hf).1
  | removing uploaded => exact .inr (h.fits hp f hf)
  | finished uploaded =>
    cases uploaded with
    | true => exact .inr (h.fits hp f hf)
    | false => exact h.fits hp f hf

theorem Inv.isolated (h : Inv b s) : Isolated b s where
  own := h.uploads
  complete := fun _ hp => h.fits hp
  kept := fun job _ hf => h.kept job hf

/-- While one run is under way, everything of the others has been uploaded. -/
theorem Inv.uploaded_of_active (h : Inv b s) {job other : ι} (hactive : (s.phase job).Active)
    (hne : other ≠ job) {f : File ι} (hf : f ∈ s.produced other) :
    (b.gcsPath other, f) ∈ s.uploads := by
  apply (h.kept other hf).resolve_left
  intro hstaged
  have hrun := h.run job f (h.staged job hactive f hstaged)
  exact hne ((h.run other f hf).symm.trans hrun)

/-- Only the files of the run, its uploads and the directory matter to a phase. -/
theorem Phase.Fits.congr {t : State ι} {job : ι} {phase : Phase} (h : phase.Fits b s job)
    (hproduced : t.produced job = s.produced job) (hfiles : t.staging.files = s.staging.files)
    (huploads : ∀ f, (b.gcsPath job, f) ∈ t.uploads ↔ (b.gcsPath job, f) ∈ s.uploads) :
    phase.Fits b t job := by
  cases phase with
  | finished uploaded => cases uploaded <;> simpa only [Fits, hproduced, hfiles, huploads] using h
  | _ => simpa only [Fits, hproduced, hfiles, huploads] using h

/-- A run that is not under way does not depend on the directory once all is uploaded. -/
theorem Phase.Fits.of_uploaded {t : State ι} {job : ι} {phase : Phase} (h : phase.Fits b s job)
    (hinactive : ¬ phase.Active) (hproduced : t.produced job = s.produced job)
    (huploads : ∀ f ∈ s.produced job, (b.gcsPath job, f) ∈ t.uploads) :
    phase.Fits b t job := by
  cases phase with
  | waiting => exact hproduced.trans h
  | ready => exact hproduced.trans h
  | finished uploaded =>
    cases uploaded with
    | true => exact fun f hf => huploads f (hproduced ▸ hf)
    | false => exact fun f hf => .inr (huploads f (hproduced ▸ hf))
  | _ => exact absurd trivial hinactive

end Invariant

section Preservation

variable [DecidableEq ι] {b : Backups ι} {s t : State ι} {job : ι}

@[simp] theorem State.setPhase_self (s : State ι) (phase : Phase) :
    (s.setPhase job phase).phase job = phase := Function.update_self ..

theorem State.setPhase_of_ne (s : State ι) (phase : Phase) {other : ι} (hne : other ≠ job) :
    (s.setPhase job phase).phase other = s.phase other := Function.update_of_ne hne ..

theorem Inv.setPhase {phase : Phase} (h : Inv b s) (hfits : phase.Fits b s job)
    (hactive : phase.Active → (s.phase job).Active) : Inv b (s.setPhase job phase) := by
  have hphase : ∀ other, ((s.setPhase job phase).phase other).Active →
      (s.phase other).Active := by
    intro other ha
    by_cases hj : other = job
    · subst hj
      rw [State.setPhase_self] at ha
      exact hactive ha
    · rwa [State.setPhase_of_ne _ _ hj] at ha
  refine ⟨fun i j hi hj => h.alone i j (hphase i hi) (hphase j hj), h.run,
    fun other ha => h.staged other (hphase other ha), h.apart, h.uploads, ?_⟩
  intro other
  by_cases hj : other = job
  · subst hj
    rw [State.setPhase_self]
    exact hfits.congr rfl rfl fun _ => Iff.rfl
  · rw [State.setPhase_of_ne _ _ hj]
    exact (h.phases other).congr rfl rfl fun _ => Iff.rfl

theorem Inv.createDirs (h : Inv b s) (hs : step b s (.createDirs job) = some t) : Inv b t := by
  obtain ⟨hp, heq⟩ := Option.ite_none_right_eq_some.mp hs
  obtain rfl := Option.some.inj heq
  have hready : Inv b (s.setPhase job .ready) := by
    have hnone : s.produced job = [] := h.fits hp
    have hfits : Phase.Fits b s job .ready := hnone
    apply h.setPhase hfits
    intro ha
    cases ha
  exact { hready with
    phases := fun other => (hready.phases other).congr rfl rfl fun _ => Iff.rfl }

theorem Inv.rmanStart (h : Inv b s) (hok : Undisturbed s (.rmanStart job))
    (hs : step b s (.rmanStart job) = some t) : Inv b t := by
  obtain ⟨hp, heq⟩ := Option.ite_none_right_eq_some.mp hs
  obtain rfl := Option.some.inj heq
  obtain ⟨hempty, halone⟩ := hok
  have hnone : s.produced job = [] := h.fits hp
  have hactive : ∀ other, ((s.setPhase job .rman).phase other).Active → other = job := by
    intro other ha
    by_contra hne
    rw [State.setPhase_of_ne _ _ hne] at ha
    exact halone other hne ha
  refine ⟨fun i j hi hj => (hactive i hi).trans (hactive j hj).symm, h.run, ?_, h.apart,
    h.uploads, ?_⟩
  · intro other _ f hf
    change f ∈ s.staging.files at hf
    rw [hempty] at hf
    cases hf
  · intro other
    by_cases hj : other = job
    · subst hj
      rw [State.setPhase_self]
      constructor
      · intro f hf
        change f ∈ s.produced other at hf
        rw [hnone] at hf
        cases hf
      · intro f hf
        have hproduced := h.uploads other f hf
        rw [hnone] at hproduced
        cases hproduced
    · rw [State.setPhase_of_ne _ _ hj]
      exact (h.phases other).congr rfl rfl fun _ => Iff.rfl

theorem Inv.rmanExit {ok : Bool} (h : Inv b s) (hs : step b s (.rmanExit job ok) = some t) :
    Inv b t := by
  obtain ⟨hp, heq⟩ := Option.ite_none_right_eq_some.mp hs
  obtain rfl := Option.some.inj heq
  obtain ⟨hfiles, -⟩ := h.fits hp
  apply h.setPhase
  · cases ok with
    | true =>
      refine ⟨fun f hf => ⟨hfiles f hf, .inr ⟨[], by simp, List.nil_prefix⟩⟩, ?_⟩
      intro path hpath
      exact .inl (List.mem_singleton.mp hpath)
    | false => exact fun f hf => .inl (hfiles f hf)
  · intro _
    rw [hp]
    trivial

theorem Inv.walkEnd (h : Inv b s) (hs : step b s (.walkEnd job) = some t) : Inv b t := by
  obtain ⟨hp, heq⟩ := Option.ite_none_right_eq_some.mp hs
  obtain rfl := Option.some.inj heq
  obtain ⟨hfiles, -⟩ := h.fits hp
  apply h.setPhase
  · intro f hf
    rcases (hfiles f hf).2 with hup | ⟨path, hpath, -⟩
    · exact hup
    · cases hpath
  · intro _
    rw [hp]
    trivial

/-- The directory and the files of one run after RMAN or the removal has worked on them. -/
def State.setFiles (s : State ι) (job : ι) (staging : Staging ι) (files : List (File ι)) :
    State ι :=
  { s with staging, produced := Function.update s.produced job files }

@[simp] theorem State.setFiles_self (s : State ι) (staging : Staging ι) (files : List (File ι)) :
    (s.setFiles job staging files).produced job = files := Function.update_self ..

theorem State.setFiles_of_ne (s : State ι) (staging : Staging ι) (files : List (File ι))
    {other : ι} (hne : other ≠ job) :
    (s.setFiles job staging files).produced other = s.produced other :=
  Function.update_of_ne hne ..

/-- A step of the run under way on its files: the other runs are done with theirs. -/
theorem Inv.setFiles {staging : Staging ι} {files : List (File ι)} (h : Inv b s)
    (hactive : (s.phase job).Active) (hrun : ∀ f ∈ files, f.run = job)
    (hstaged : ∀ f ∈ staging.files, f ∈ files)
    (hapart : ∀ f ∈ staging.files, ∀ g ∈ staging.files, f.path <+: g.path → f = g)
    (huploads : ∀ f, (b.gcsPath job, f) ∈ s.uploads → f ∈ files)
    (hfits : (s.phase job).Fits b (s.setFiles job staging files) job) :
    Inv b (s.setFiles job staging files) where
  alone := h.alone
  run := by
    intro other f hf
    by_cases hj : other = job
    · subst hj
      rw [State.setFiles_self] at hf
      exact hrun f hf
    · rw [State.setFiles_of_ne _ _ _ hj] at hf
      exact h.run other f hf
  staged := by
    intro other ha f hf
    obtain rfl := h.alone other job ha hactive
    rw [State.setFiles_self]
    exact hstaged f hf
  apart := hapart
  uploads := by
    intro other f hf
    by_cases hj : other = job
    · subst hj
      rw [State.setFiles_self]
      exact huploads f hf
    · rw [State.setFiles_of_ne _ _ _ hj]
      exact h.uploads other f hf
  phases := by
    intro other
    by_cases hj : other = job
    · subst hj
      exact hfits
    · apply (h.phases other).of_uploaded
      · intro ha
        exact hj (h.alone other job ha hactive)
      · exact State.setFiles_of_ne _ _ _ hj
      · intro f hf
        exact h.uploaded_of_active hactive hj hf

theorem Inv.rmanWrite {path : RelPath} {data : String} (h : Inv b s)
    (hs : step b s (.rmanWrite job path data) = some t) : Inv b t := by
  obtain ⟨⟨hp, hwritable⟩, heq⟩ := Option.ite_none_right_eq_some.mp hs
  obtain rfl := Option.some.inj heq
  have hactive : (s.phase job).Active := by
    rw [hp]
    trivial
  obtain ⟨hfiles, hnone⟩ := h.fits hp
  have hmem : ∀ (l : List (File ι)) (f : File ι),
      f ∈ (⟨path, job, data⟩ : File ι) :: l.filter (·.path ≠ path) ↔
        f = ⟨path, job, data⟩ ∨ (f ∈ l ∧ f.path ≠ path) := by
    simp
  change Inv b (s.setFiles job _ _)
  apply h.setFiles hactive
  · intro f hf
    rcases (hmem _ f).mp hf with rfl | ⟨hf, -⟩
    · rfl
    · exact h.run job f hf
  · intro f hf
    apply (hmem _ f).mpr
    rcases (hmem _ f).mp hf with rfl | ⟨hf, hne⟩
    · exact .inl rfl
    · exact .inr ⟨h.staged job hactive f hf, hne⟩
  · intro f hf g hg hprefix
    rcases (hmem _ f).mp hf with rfl | ⟨hf, hne⟩ <;> rcases (hmem _ g).mp hg with rfl | ⟨hg, hne'⟩
    · rfl
    · exact absurd hprefix (hwritable.2 g hg hne').2
    · exact absurd hprefix (hwritable.2 f hf hne).1
    · exact h.apart f hf g hg hprefix
  · intro f hf
    exact absurd hf (hnone f)
  · rw [hp]
    refine ⟨fun f hf => ?_, hnone⟩
    rw [State.setFiles_self] at hf
    apply (hmem _ f).mpr
    rcases (hmem _ f).mp hf with rfl | ⟨hf, hne⟩
    · exact .inl rfl
    · exact .inr ⟨hfiles f hf, hne⟩

theorem Inv.remove {path : RelPath} (h : Inv b s) (hs : step b s (.remove job path) = some t) :
    Inv b t := by
  simp only [step] at hs
  split at hs
  · next uploaded hp =>
    obtain rfl := Option.some.inj hs
    have hactive : (s.phase job).Active := by
      rw [hp]
      trivial
    have hsub : ∀ f ∈ s.staging.files.filter (·.path ≠ path), f ∈ s.staging.files :=
      fun f hf => (List.mem_filter.mp hf).1
    have hall : ∀ f ∈ s.produced job, (b.gcsPath job, f) ∈ s.uploads := h.fits hp
    have hremoved : Inv b (s.setFiles job { s.staging with
        files := s.staging.files.filter (·.path ≠ path) } (s.produced job)) := by
      apply h.setFiles hactive (h.run job)
      · exact fun f hf => h.staged job hactive f (hsub f hf)
      · exact fun f hf g hg => h.apart f (hsub f hf) g (hsub g hg)
      · exact h.uploads job
      · rw [hp]
        intro f hf
        rw [State.setFiles_self] at hf
        exact hall f hf
    rwa [State.setFiles, Function.update_eq_self] at hremoved
  · cases hs

theorem Inv.removeEnd {ok : Bool} (h : Inv b s) (hs : step b s (.removeEnd job ok) = some t) :
    Inv b t := by
  simp only [step] at hs
  split at hs
  · next uploaded hp =>
    have hall : ∀ f ∈ s.produced job, (b.gcsPath job, f) ∈ s.uploads := h.fits hp
    have hfinished : Inv b (s.setPhase job (.finished uploaded)) := by
      apply h.setPhase
      · cases uploaded with
        | true => exact hall
        | false => exact fun f hf => .inr (hall f hf)
      · intro ha
        cases ha
    split at hs
    · obtain rfl := Option.some.inj hs
      exact hfinished
    · obtain ⟨hempty, heq⟩ := Option.ite_none_right_eq_some.mp hs
      obtain rfl := Option.some.inj heq
      exact { hfinished with
        phases := fun other => (hfinished.phases other).congr rfl rfl fun _ => Iff.rfl }
  · cases hs

theorem Inv.visit_file {path : RelPath} {todo : List RelPath} {f : File ι} (h : Inv b s)
    (hp : s.phase job = .walking (path :: todo)) (hfile : s.staging.fileAt path = some f) :
    Inv b { s.setPhase job (.walking todo) with uploads := (b.gcsPath job, f) :: s.uploads } := by
  have hactive : (s.phase job).Active := by
    rw [hp]
    trivial
  have hf : f ∈ s.staging.files := List.mem_of_find?_eq_some hfile
  have hpath : f.path = path := by simpa using List.find?_some hfile
  obtain ⟨hfiles, hentries⟩ := h.fits hp
  have hactive' : ∀ other, ((s.setPhase job (.walking todo)).phase other).Active →
      (s.phase other).Active := by
    intro other ha
    by_cases hj : other = job
    · exact hj ▸ hactive
    · rwa [State.setPhase_of_ne _ _ hj] at ha
  refine ⟨fun i j hi hj => h.alone i j (hactive' i hi) (hactive' j hj), h.run,
    fun other ha => h.staged other (hactive' other ha), h.apart, ?_, ?_⟩
  · intro other g hg
    rcases List.mem_cons.mp hg with heq | hg
    · obtain ⟨hgcs, rfl⟩ := Prod.mk.inj heq
      obtain rfl := b.different hgcs
      exact h.staged other hactive g hf
    · exact h.uploads other g hg
  · intro other
    by_cases hj : other = job
    · subst hj
      change Phase.Fits b _ other ((s.setPhase other (.walking todo)).phase other)
      rw [State.setPhase_self]
      refine ⟨fun g hg => ⟨(hfiles g hg).1, ?_⟩, fun p hmem =>
        hentries p (List.mem_cons_of_mem _ hmem)⟩
      rcases (hfiles g hg).2 with hup | ⟨p, hmem, hprefix⟩
      · exact .inl (List.mem_cons_of_mem _ hup)
      · rcases List.mem_cons.mp hmem with rfl | hmem
        · -- no file lies below another one, so this is the file that was uploaded
          obtain rfl := h.apart f hf g (hfiles g hg).1 (hpath ▸ hprefix)
          exact .inl List.mem_cons_self
        · exact .inr ⟨p, hmem, hprefix⟩
    · change Phase.Fits b _ other ((s.setPhase job (.walking todo)).phase other)
      rw [State.setPhase_of_ne _ _ hj]
      refine (h.phases other).congr rfl rfl fun g => ?_
      have hgcs : b.gcsPath other ≠ b.gcsPath job := fun heq => hj (b.different heq)
      simp [hgcs]

theorem Inv.visit_dir {path : RelPath} {todo : List RelPath} {upload : Upload} {lingers : Bool}
    (h : Inv b s) (hp : s.phase job = .walking (path :: todo))
    (hfile : s.staging.fileAt path = none) :
    Inv b (visit b s job path todo upload lingers) := by
  have hactive : (s.phase job).Active := by
    rw [hp]
    trivial
  obtain ⟨hfiles, hentries⟩ := h.fits hp
  have htodo : ∀ p ∈ todo, p = [] ∨ ∃ f ∈ s.staging.files, p <+: f.path :=
    fun p hmem => hentries p (List.mem_cons_of_mem _ hmem)
  have hread : ∀ f ∈ s.staging.files, path <+: f.path →
      ∃ entry ∈ s.staging.readDir path, entry <+: f.path :=
    fun f hf => Staging.exists_mem_readDir hfile hf
  unfold visit
  simp only [hfile]
  split
  · apply h.setPhase _ fun _ => hactive
    constructor
    · intro f hf
      refine ⟨(hfiles f hf).1, ?_⟩
      rcases (hfiles f hf).2 with hup | ⟨p, hmem, hprefix⟩
      · exact .inl hup
      · right
        rcases List.mem_cons.mp hmem with rfl | hmem
        · obtain ⟨entry, hentry, hprefix⟩ := hread f (hfiles f hf).1 hprefix
          exact ⟨entry, List.mem_append_left _ hentry, hprefix⟩
        · exact ⟨p, List.mem_append_right _ hmem, hprefix⟩
    · intro p hmem
      rcases List.mem_append.mp hmem with hmem | hmem
      · obtain ⟨f, hf, hentry⟩ := Staging.mem_readDir.mp hmem
        exact .inr ⟨f, hf, entryOf_isPrefix hentry⟩
      · exact htodo p hmem
  · next hempty =>
    have hempty : s.staging.readDir path = [] := not_not.mp hempty
    have hnone : ∀ f ∈ s.staging.files, ¬ path <+: f.path := by
      intro f hf hprefix
      obtain ⟨entry, hentry, -⟩ := hread f hf hprefix
      rw [hempty] at hentry
      cases hentry
    split
    · apply h.setPhase _ fun _ => hactive
      refine ⟨fun f hf => ⟨(hfiles f hf).1, ?_⟩, htodo⟩
      rcases (hfiles f hf).2 with hup | ⟨p, hmem, hprefix⟩
      · exact .inl hup
      · rcases List.mem_cons.mp hmem with rfl | hmem
        · exact absurd hprefix (hnone f (hfiles f hf).1)
        · exact .inr ⟨p, hmem, hprefix⟩
    · next hgone =>
      -- an entry of the walk has files below it, and without files RMAN has written nothing
      apply h.setPhase _ fun _ => hactive
      intro f hf
      exfalso
      have hstaged := (hfiles f hf).1
      rcases hentries path List.mem_cons_self with rfl | ⟨g, hg, hprefix⟩
      · exact hnone f hstaged List.nil_prefix
      · exact hnone g hg hprefix

theorem Inv.visit {upload : Upload} {lingers : Bool} (h : Inv b s)
    (hok : Undisturbed s (.visit job upload lingers))
    (hs : step b s (.visit job upload lingers) = some t) : Inv b t := by
  obtain rfl : upload = .ok := hok
  simp only [step] at hs
  split at hs
  · next path todo hp =>
    obtain rfl := Option.some.inj hs
    cases hfile : s.staging.fileAt path with
    | none => exact h.visit_dir hp hfile
    | some f =>
      have hvisited := h.visit_file hp hfile
      simpa [PhysicalBackup.visit, hfile] using hvisited
  · cases hs

theorem Inv.step {e : Event ι} (h : Inv b s) (hok : Undisturbed s e)
    (hs : step b s e = some t) : Inv b t := by
  cases e with
  | createDirs job => exact h.createDirs hs
  | rmanStart job => exact h.rmanStart hok hs
  | rmanWrite job path data => exact h.rmanWrite hs
  | rmanExit job ok => exact h.rmanExit hs
  | visit job upload lingers => exact h.visit hok hs
  | walkEnd job => exact h.walkEnd hs
  | remove job path => exact h.remove hs
  | removeEnd job ok => exact h.removeEnd hs

end Preservation

theorem isolated_of_undisturbed [DecidableEq ι] (b : Backups ι) (es : List (Event ι))
    (hm : Runs.Meets (step b) Undisturbed .start es) :
    Runs.Always (step b) (Isolated b) .start es :=
  Runs.always_of_invariant (fun _ _ _ h hok hs => h.step hok hs) (fun _ h => h.isolated)
    Inv.start hm

section Example

def twoBackups : Backups Bool where
  gcsPath job := if job then "gs://bk/second" else "gs://bk/first"
  different := by decide

/-- A backup with one file, from its start to its end. -/
def wholeRun (job : Bool) (file : RelPath) : List (Event Bool) :=
  ([.createDirs job, .rmanStart job, .rmanWrite job file "blocks", .rmanExit job true] :
      List (Event Bool)) ++
    (List.replicate (file.length + 1) (.visit job .ok false) : List (Event Bool)) ++
    ([.walkEnd job, .remove job file, .removeEnd job true] : List (Event Bool))

/-- Both runs have written their file before the first one is uploaded. -/
def overlappingRuns : List (Event Bool) :=
  [.createDirs false, .rmanStart false, .createDirs true, .rmanStart true,
    .rmanWrite false ["first.bkp"] "blocks", .rmanWrite true ["second.bkp"] "blocks",
    .rmanExit false true, .visit false .ok false, .visit false .ok false, .visit false .ok false]

/-- The upload of the first backup takes the file of the second one along. -/
theorem overlapping_backups_mixed :
    ∃ t, Runs.run (step twoBackups) .start overlappingRuns = some t ∧ ¬ Isolated twoBackups t := by
  have hrun : (Runs.run (step twoBackups) .start overlappingRuns).map (fun t =>
      (t.uploads.map fun u => (u.1, u.2.path), (t.produced false).map (·.path))) =
      some ([("gs://bk/first", ["second.bkp"]), ("gs://bk/first", ["first.bkp"])],
        [["first.bkp"]]) := by
    decide +kernel
  obtain ⟨t, ht, heq⟩ := Option.map_eq_some_iff.mp hrun
  obtain ⟨huploads, hproduced⟩ := Prod.mk.inj heq
  refine ⟨t, ht, fun h => ?_⟩
  have hmem : ("gs://bk/first", ["second.bkp"]) ∈ t.uploads.map fun u => (u.1, u.2.path) := by
    rw [huploads]
    exact List.mem_cons_self
  obtain ⟨⟨path, f⟩, hu, hf⟩ := List.mem_map.mp hmem
  obtain ⟨rfl, hpath⟩ := Prod.mk.inj hf
  have hown : f ∈ t.produced false := h.own false f hu
  have hnot : f.path ∉ (t.produced false).map (·.path) := by
    rw [hproduced, hpath]
    decide
  exact hnot (List.mem_map_of_mem hown)

/-- One backup after the other. -/
theorem successive_backups_isolated :
    Runs.Meets (step twoBackups) Undisturbed .start
        (wholeRun false ["GCLOUD", "first.bkp"] ++ wholeRun true ["GCLOUD", "second.bkp"]) ∧
      Runs.Always (step twoBackups) (Isolated twoBackups) .start
        (wholeRun false ["GCLOUD", "first.bkp"] ++ wholeRun true ["GCLOUD", "second.bkp"]) := by
  have hmeets : Runs.Meets (step twoBackups) Undisturbed .start
      (wholeRun false ["GCLOUD", "first.bkp"] ++ wholeRun true ["GCLOUD", "second.bkp"]) := by
    decide +kernel
  exact ⟨hmeets, isolated_of_undisturbed _ _ hmeets⟩

-- the run above goes through to the end
example : (Runs.run (step twoBackups) .start
    (wholeRun false ["GCLOUD", "first.bkp"] ++ wholeRun true ["GCLOUD", "second.bkp"])).map
      (fun t => (t.phase true, t.staging.files.length)) = some (.finished true, 0) := by
  decide +kernel

end Example

end ElCarro.PhysicalBackup
