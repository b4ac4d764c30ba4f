import ElCarro.Database.Deletion
import ElCarro.Database.Execution

/-! # Reconciles of a Database, with the calls of the agent

The reconcile of a Database once more, with `CreateDatabase`, `CreateUsers` and
`SyncUsers` in place of their outcomes. The errors of `CreateUsers` are only logged.
-/

namespace ElCarro.Databases

open GoTime K8s Api Flow Users

open Instance.Reconciler (World Result)

/-- Upper case as the reconcile of a Database computes it. -/
def plainCasing : Casing where
  toUpper := String.toUpper
  toUpper_toUpper s := by
    simp [String.toUpper, Function.comp_def, Users.toUpper_toUpper]
  equalFold s t := s.toUpper = t.toUpper
  equalFold_self _ := decide_eq_true rfl

/-- UserReady was set for a Database, after the agent had failed or not. -/
structure ReadyNote where
  name : String
  failed : Bool
  deriving DecidableEq, Repr

/-- A cluster with its PDBs, those that were reported as created, and every time that the
users of a Database were reported as ready. -/
structure Site extends Cluster where
  detail : String → PdbState
  reported : List String
  notes : List ReadyNote

/-- A reconcile of a Database on a site. -/
structure Work extends Session where
  detail : String → PdbState
  reported : List String
  notes : List ReadyNote

/-- What spec and status say about credentials, and everything that one reconcile meets. -/
structure WorkEnv extends Env where
  sid : String
  cdbName : String
  adminPassword : String
  adminPasswordGsmSecretRef : Option GsmSecretRef
  users : List UserSpec
  userResourceVersions : StrMap
  catalog : Catalog
  creating : CreateEnv
  creatingUsers : CreateUsersEnv
  syncing : SyncEnv

def onSession {α : Type} (p : P α) : Prog Work Result α :=
  zoom Work.toSession (fun w s => { w with toSession := s }) p

def Work.engine (w : Work) : Engine := ⟨w.pdbs, w.detail, []⟩

def Work.put (w : Work) (e : Engine) : Work := { w with pdbs := e.pdbs, detail := e.detail }

variable (env : WorkEnv) (name : String)

section Database

def WorkEnv.request (specName : String) : CreateDatabaseRequest where
  name := specName
  cdbName := env.cdbName
  password := env.adminPassword
  lastPassword := if env.adminPassword ≠ "" then valueAt env.userResourceVersions pdbAdmin else ""
  adminPasswordGsmSecretRef :=
    env.adminPasswordGsmSecretRef.map fun ref => ⟨ref, valueAt env.userResourceVersions pdbAdmin⟩

/-- `NewDatabase` with the agent's calls; an error or a panic ends the reconcile. -/
def newPDB : Prog Work Result Bool := fun w =>
  match createDatabase plainCasing env.sid env.creating String.toLower env.syncing.secret
      (env.request w.db.specName) w.engine with
  | .next status e => .next (status ≠ .ready) (w.put e)
  | .done _ e => .done .error (w.put e)

/-- The report, noted as soon as it is stored. -/
def reportPDB : Prog Work Result Unit := do
  modify fun w =>
    if (env.call .readyStatus).served then
      { w with reported := w.db.specName.toUpper :: w.reported }
    else w
  onSession (report env.toEnv name)

end Database

section Users

def WorkEnv.spec (specName : String) : DatabaseSpec :=
  ⟨specName, env.adminPassword, env.adminPasswordGsmSecretRef, env.users⟩

/-- Set UserReady after the users were created, whatever came of that. -/
def setUserReady (failed : Bool) : Prog Work Result Unit := fun w =>
  let db := { w.db with
    conditions := upsert env.now .userReady .true .createComplete "" w.db.conditions }
  let w := { w with db := db, notes := ⟨name, failed⟩ :: w.notes }
  if env.newUsers then .next () { w with databases := w.databases.insert name db }
  else .done .error w

def newUsers : Prog Work Result Unit := fun w =>
  match createUsers plainCasing env.sid env.creatingUsers env.syncing.secret w.db.specName env.users
      w.engine with
  | .next _ e => setUserReady env name false (w.put e)
  | .done (.error _) e => setUserReady env name true (w.put e)
  | .done .panic e => .done .error (w.put e)

/-- A sync gets to set UserReady: nothing was suppressed and every change was made. -/
def syncSetsReady (sync : SyncEnv) (cat : Catalog) (spec : DatabaseSpec) (versions : StrMap)
    (a : Accounts) : Bool :=
  let userSpecs := spec.users.map (userRequest versions)
  (usersChanged sync.secret sync.changing plainCasing spec.name userSpecs a).any fun resp =>
    resp.suppressed = [] && (¬ resp.changed || sync.progressStatus &&
      (updateUsers cat sync.secret sync.updating plainCasing userSpecs a).1)

/-- The end of a reconcile that found the PDB. -/
def syncUsersOf : Prog Work Result Unit := fun w =>
  let pdb := w.db.specName.toUpper
  let spec := env.spec w.db.specName
  let a := (w.detail pdb).accounts
  let (ok, b, status) := syncUsers env.catalog env.syncing plainCasing spec
    ⟨env.userResourceVersions, [], w.db.conditions⟩ a
  let db := { w.db with conditions := status.conditions }
  .done (if ok then .stop else .error)
    { w with
      db := db
      databases := if ok then w.databases.insert name db else w.databases
      detail := Function.update w.detail pdb { w.detail pdb with accounts := b }
      notes :=
        if syncSetsReady env.syncing env.catalog spec env.userResourceVersions a then
          ⟨name, false⟩ :: w.notes
        else w.notes }

end Users

section Reconcile

/-- The reconcile as far as the finalizer of the Database. -/
def prepare : P Unit := do
  when (env.call .getDatabaseAgain = .notFound) (finish .stop)
  when (¬ reached env.toEnv .getDatabaseAgain) (finish .error)
  preflight env.toEnv name
  addFinalizer env.toEnv name

/-- The reconcile until the users' turn comes: whether the PDB was there before. -/
def reconcilePDB : Prog Work Result Bool := do
  onSession (prepare env name)
  let alreadyExists ← newPDB env
  reportPDB env name
  pure alreadyExists

def reconcileCreation : Prog Work Result Unit := do
  let alreadyExists ← reconcilePDB env name
  if alreadyExists then syncUsersOf env name
  else do
    newUsers env name
    onSession (noteName env.toEnv)

def reconcileWork : Prog Work Result Unit := do
  onSession (when (env.call .getDatabase = .notFound) (finish .stop))
  onSession (when (¬ reached env.toEnv .getDatabase) (finish .error))
  let w ← get
  if w.db.deletionTimestamp.isSome then onSession (reconcileDatabaseDeletion env.toEnv name)
  else reconcileCreation env name

def Site.work (s : Site) (db : Database) : Work :=
  { toSession := s.toCluster.session db, detail := s.detail, reported := s.reported
    notes := s.notes }

def Work.site (w : Work) : Site := ⟨w.toCluster, w.detail, w.reported, w.notes⟩

def Site.reconcile (s : Site) : Site :=
  match s.databases.lookup name with
  | none => s
  | some db => (reconcileWork env name (s.work db)).state.site

inductive SiteEvent where
  | reconcile (env : WorkEnv) (name : String)
  /-- Anything that happens to the objects of the cluster. -/
  | objects (w : World)
  | dropPDB (pdb : String)

def siteStep (s : Site) : SiteEvent → Option Site
  | .reconcile env name => some (s.reconcile env name)
  | .objects w => some { s with toWorld := w }
  | .dropPDB pdb => some { s with pdbs := s.pdbs.filter (· ≠ pdb) }

end Reconcile

section Conditions

variable {cat : Catalog} {sync : SyncEnv} {spec : DatabaseSpec} {status : UserStatus} {a : Accounts}

/-- A sync that is noted to set UserReady does so. -/
theorem conditions_of_syncSetsReady
    (h : syncSetsReady sync cat spec status.userResourceVersions a = true) :
    ∃ old, (syncUsers cat sync plainCasing spec status a).2.2.conditions =
      upsert sync.now .userReady .true .syncComplete "" old := by
  unfold syncSetsReady at h
  obtain ⟨resp, hresp, hset⟩ := (Option.any_eq_true _ _).mp h
  simp only [Bool.and_eq_true, Bool.or_eq_true, decide_eq_true_eq] at hset
  obtain ⟨hnone, hchanges⟩ := hset
  unfold syncUsers
  simp only [hresp]
  split
  · simp only [syncedStatus, hnone, if_true]
    exact ⟨_, rfl⟩
  · next hchanged =>
    rcases hchanges with hsame | ⟨hprogress, hupdate⟩
    · exact absurd hsame hchanged
    · simp only [hprogress, not_true_eq_false, if_false]
      split
      · next hfailed =>
        rw [hfailed] at hupdate
        cases hupdate
      · simp only [syncedStatus, hnone, if_true]
        exact ⟨_, rfl⟩

/-- Any other sync leaves UserReady as it was, or sets it to false. -/
theorem conditions_of_not_syncSetsReady
    (h : syncSetsReady sync cat spec status.userResourceVersions a = false) :
    (syncUsers cat sync plainCasing spec status a).2.2.conditions = status.conditions ∨
      ∃ reason message old, (syncUsers cat sync plainCasing spec status a).2.2.conditions =
        upsert sync.now .userReady .false reason message old := by
  unfold syncSetsReady at h
  unfold syncUsers
  simp only
  split
  · exact .inl rfl
  · next resp hresp =>
    simp only [hresp, Option.any_some, Bool.and_eq_false_iff, Bool.or_eq_false_iff,
      decide_eq_false_iff_not, not_not] at h
    by_cases hnone : resp.suppressed = []
    · obtain ⟨hchanged, hfailed⟩ := h.resolve_left fun hne => hne hnone
      simp only [hchanged, not_true_eq_false, if_false]
      split
      · exact .inr ⟨_, _, _, rfl⟩
      · next hprogress =>
        simp only [not_not] at hprogress
        have hupdate := hfailed.resolve_left (by simp [hprogress])
        split
        · exact .inr ⟨_, _, _, rfl⟩
        · next hok =>
          rw [hok] at hupdate
          cases hupdate
    · right
      split
      · simp only [syncedStatus, hnone, if_false]
        exact ⟨_, _, _, rfl⟩
      · split
        · exact ⟨_, _, _, rfl⟩
        · split
          · exact ⟨_, _, _, rfl⟩
          · simp only [syncedStatus, hnone, if_false]
            exact ⟨_, _, _, rfl⟩

end Conditions

end ElCarro.Databases
