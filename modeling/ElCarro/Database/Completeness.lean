import ElCarro.Database.Detail
import ElCarro.Lib.Runs

/-! # PDBs that are reported as created

A reconcile reports its Database as created once `CreateDatabase` has returned, and that
takes a PDB that exists for one that was created before. A creation that stops halfway
leaves such a PDB behind, and errors of its last two requests do not stop it at all.
-/

namespace ElCarro.Databases

open GoTime K8s Api Flow Users

open Instance.Reconciler (World Result gone isStopped)

section Property

/-- Everything that `CreateDatabase` does about a PDB has been done. -/
structure PdbState.Complete (d : PdbState) : Prop where
  opened : d.opened = true
  saved : d.saved = true
  adminGrants : (pdbAdmin, adminPrivileges) ∈ d.grants
  loaderGrants : (pdbLoaderUser, loaderPrivileges) ∈ d.grants
  directory : dpdumpDirOracle ∈ d.directories
  directoryGrants : (pdbLoaderUser, directoryPrivileges) ∈ d.grants

/-- A PDB that a reconcile reports as created is there and complete. -/
def ReportsComplete (s : Site) (_ : SiteEvent) (t : Site) : Prop :=
  t.reported = s.reported ∨
    ∃ pdb, t.reported = pdb :: s.reported ∧ pdb ∈ t.pdbs ∧ (t.detail pdb).Complete

/-- All that follows the creation of a PDB is executed. -/
structure CreateEnv.Finishes (env : CreateEnv) : Prop where
  createPDB : env.createPDB.Answers 1
  openPDB : env.openPDB.Answers 2
  grants : env.grants.Runs 3
  directory : env.directory.Runs 3

/-- Where a reconcile gets to create a PDB, all that follows is executed. -/
def FinishesCreation (s : Site) : SiteEvent → Prop
  | .reconcile env name =>
    ∀ db ∈ s.databases.lookup name, reached env.toEnv .getDatabase = true →
      db.deletionTimestamp = none →
      (∃ t, prepare env name (s.toCluster.session db) = .next () t) →
      db.specName.toUpper ∉ s.pdbs → env.creating.starts (env.request db.specName) →
      env.creating.createDirs = none → env.creating.createPDB.TakesEffect → env.creating.Finishes
  | .objects _ => True
  | .dropPDB _ => True

end Property

section Engine

variable {sid : String} {env : CreateEnv} {toLower secret : String → String} {e : Engine} {p : Pdb}

/-- All PDBs are complete. -/
def AllComplete (e : Engine) : Prop := ∀ pdb ∈ e.pdbs, (e.detail pdb).Complete

theorem PdbState.Complete.better {d d' : PdbState} (h : d.Complete) (hb : Better d d') : d'.Complete where
  opened := hb.opened h.opened
  saved := hb.saved h.saved
  adminGrants := hb.grants _ h.adminGrants
  loaderGrants := hb.grants _ h.loaderGrants
  directory := hb.directories _ h.directory
  directoryGrants := hb.grants _ h.directoryGrants

theorem AllComplete.improve {t : Engine} (h : AllComplete e) (hbetter : Improves e t) :
    AllComplete t := by
  intro pdb hpdb
  rw [hbetter.pdbs] at hpdb
  exact (h pdb hpdb).better (hbetter.detail pdb)

theorem improves_syncAdmin {b : Bool} : Within Improves (syncAdmin plainCasing sid env b p) := by
  have hreq : ∀ st ∈ (alterAdminRequest p).commands, ∀ q, st ≠ .createPDB q := by
    intro st hst q
    simp only [alterAdminRequest, List.mem_cons, List.not_mem_nil, or_false] at hst
    rcases hst with rfl | rfl
    · exact Statement.noConfusion
    · exact Statement.noConfusion
  unfold syncAdmin
  apply Within.ite
  · intro _
    apply Within.bind (improves_sendSQL hreq)
    intro _
    apply Within.bind improves_orFail
    intro _
    exact Within.pure _
  · exact fun _ => Within.pure _

/-- The PDB after its request to open it, and to save that. -/
theorem opened_effects :
    let t := effects plainCasing "CDB$ROOT" e (openPDBRequest p).commands
    Improves e t ∧ (t.detail p.pluggableDatabaseName).opened = true ∧
      (t.detail p.pluggableDatabaseName).saved = true := by
  constructor
  · apply improves_effects
    simp [openPDBRequest]
  · simp [openPDBRequest, effects, effect]

theorem granted_effects :
    let t := effects plainCasing "CDB$ROOT" e (grantsRequest p).commands
    Improves e t ∧ (pdbAdmin, adminPrivileges) ∈ (t.detail p.pluggableDatabaseName).grants ∧
      (pdbLoaderUser, loaderPrivileges) ∈ (t.detail p.pluggableDatabaseName).grants := by
  constructor
  · apply improves_effects
    simp [grantsRequest]
  · simp [grantsRequest, effects, effect, containerAfter]

theorem directory_effects :
    let t := effects plainCasing "CDB$ROOT" e (directoryRequest p).commands
    Improves e t ∧ dpdumpDirOracle ∈ (t.detail p.pluggableDatabaseName).directories ∧
      (pdbLoaderUser, directoryPrivileges) ∈ (t.detail p.pluggableDatabaseName).grants := by
  constructor
  · apply improves_effects
    simp [directoryRequest]
  · simp [directoryRequest, effects, effect, containerAfter]

theorem isPrivilege_constants : isPrivilege adminPrivileges = true ∧
    isPrivilege loaderPrivileges = true ∧ isPrivilege directoryPrivileges = true := by
  decide +kernel

/-- The requests that follow the creation of a PDB can be built if that can. -/
theorem valid_of_createPDB (h : (createPDBRequest p).valid plainCasing = true) :
    (openPDBRequest p).valid plainCasing = true ∧ (grantsRequest p).valid plainCasing = true ∧
      (directoryRequest p).valid plainCasing = true := by
  have hname : isIdentifier (plainCasing.toUpper p.pluggableDatabaseName) = true := by
    simp only [createPDBRequest, Request.valid, List.all_cons, List.all_nil, Bool.and_true,
      Statement.valid, Bool.and_eq_true] at h
    exact h.1.1.1
  obtain ⟨hprivs, hprivs', hprivs''⟩ := isPrivilege_constants
  have hnames : isIdentifier (plainCasing.toUpper pdbAdmin) = true ∧
      isIdentifier (plainCasing.toUpper pdbLoaderUser) = true ∧
      isIdentifier (plainCasing.toUpper dpdumpDirOracle) = true := by decide +kernel
  obtain ⟨hadminName, hloaderName, hdir⟩ := hnames
  have hadmin : (Statement.grantPrivileges adminPrivileges pdbAdmin).valid plainCasing = true := by
    rw [Statement.valid, hprivs, hadminName, Bool.and_self]
  have hloader : (Statement.grantPrivileges loaderPrivileges pdbLoaderUser).valid plainCasing =
      true := by
    rw [Statement.valid, hprivs', hloaderName, Bool.and_self]
  have hdirGrant : (Statement.grantPrivileges directoryPrivileges pdbLoaderUser).valid plainCasing =
      true := by
    rw [Statement.valid, hprivs'', hloaderName, Bool.and_self]
  have hset : (Statement.setSessionContainer p.pluggableDatabaseName).valid plainCasing = true := hname
  have hopen : (Statement.openPDB p.pluggableDatabaseName).valid plainCasing = true := hname
  have hsave : (Statement.saveState p.pluggableDatabaseName).valid plainCasing = true := hname
  have hdir' : (Statement.createDir dpdumpDirOracle (p.pathPrefix ++ "/dmp")).valid plainCasing = true :=
    hdir
  simp only [openPDBRequest, grantsRequest, directoryRequest, Request.valid, List.all_cons,
    List.all_nil, hset, hopen, hsave, hadmin, hloader, hdir', hdirGrant, Bool.and_self, and_self]

theorem createPDB_effects : effects plainCasing "CDB$ROOT" e (createPDBRequest p).commands =
    { e with
      pdbs := p.pluggableDatabaseName :: e.pdbs
      detail := Function.update e.detail p.pluggableDatabaseName { newPdbState with
        accounts := noAccounts.set pdbAdmin ⟨p.pluggableAdminPasswd, [], true⟩ } } := rfl

/-- A PDB on which every request was executed is complete. -/
theorem complete_of_requests {t₁ t₂ t₃ t₄ : Engine}
    (hcreate : SamePdbs (effects plainCasing "CDB$ROOT" e (createPDBRequest p).commands) t₁)
    (hopen : SamePdbs (effects plainCasing "CDB$ROOT" t₁ (openPDBRequest p).commands) t₂)
    (hgrants : SamePdbs (effects plainCasing "CDB$ROOT" t₂ (grantsRequest p).commands) t₃)
    (hdir : SamePdbs (effects plainCasing "CDB$ROOT" t₃ (directoryRequest p).commands) t₄)
    (hall : AllComplete e) : AllComplete t₄ ∧ p.pluggableDatabaseName ∈ t₄.pdbs := by
  obtain ⟨hbetter₂, hopened, hsaved⟩ := opened_effects (e := t₁) (p := p)
  obtain ⟨hbetter₃, hadmin, hloader⟩ := granted_effects (e := t₂) (p := p)
  obtain ⟨hbetter₄, hdirectory, hdirGrant⟩ := directory_effects (e := t₃) (p := p)
  rw [← hopen.detail] at hopened hsaved
  rw [← hgrants.detail] at hadmin hloader
  rw [← hdir.detail] at hdirectory hdirGrant
  have himp₂ : Improves t₁ t₂ := IsTrans.trans _ _ _ hbetter₂ hopen.improves
  have himp₃ : Improves t₂ t₃ := IsTrans.trans _ _ _ hbetter₃ hgrants.improves
  have himp₄ : Improves t₃ t₄ := IsTrans.trans _ _ _ hbetter₄ hdir.improves
  have hpdbs : t₄.pdbs = p.pluggableDatabaseName :: e.pdbs := by
    rw [himp₄.pdbs, himp₃.pdbs, himp₂.pdbs, hcreate.pdbs]
    rfl
  constructor
  · intro pdb hpdb
    have hlast := himp₄.detail pdb
    have hlast' := (himp₃.detail pdb).trans hlast
    by_cases hname : pdb = p.pluggableDatabaseName
    · subst hname
      exact ⟨hlast'.opened hopened, hlast'.saved hsaved, hlast.grants _ hadmin,
        hlast.grants _ hloader, hdirectory, hdirGrant⟩
    · have hold : t₁.detail pdb = e.detail pdb := by
        rw [hcreate.detail, createPDB_effects]
        exact Function.update_of_ne hname _ _
      rw [hpdbs] at hpdb
      have hcomplete := hall pdb (List.mem_of_ne_of_mem hname hpdb)
      rw [← hold] at hcomplete
      exact hcomplete.better ((himp₂.detail pdb).trans hlast')
  · rw [hpdbs]
    exact List.mem_cons_self

theorem createNew_complete (hall : AllComplete e)
    (hfinishes : env.createDirs = none → env.createPDB.TakesEffect → env.Finishes) :
    wp (createNew plainCasing sid env p)
      (fun _ t => AllComplete t ∧ p.pluggableDatabaseName ∈ t.pdbs) (fun _ => AllComplete) e := by
  unfold createNew
  rw [wp_bind, wp_orFail]
  constructor
  swap
  · exact fun _ _ => hall
  intro hdirs
  by_cases hv : (createPDBRequest p).valid plainCasing = true
  · by_cases htake : env.createPDB.TakesEffect
    · have hfin := hfinishes hdirs htake
      obtain ⟨hopenValid, hgrantsValid, hdirValid⟩ := valid_of_createPDB hv
      obtain ⟨t₁, hsend₁, hcreate⟩ := sendSQL_of_answers hv hfin.createPDB sid e
      obtain ⟨t₂, hsend₂, hopen⟩ := sendSQL_of_answers hopenValid hfin.openPDB sid t₁
      obtain ⟨err₃, t₃, hsend₃, hgrants⟩ := sendSQL_of_runs hgrantsValid hfin.grants sid t₂
      obtain ⟨err₄, t₄, hsend₄, hdir⟩ := sendSQL_of_runs hdirValid hfin.directory sid t₃
      apply wp_bind_next hsend₁
      apply wp_bind_next (b := ()) (t := t₁) rfl
      apply wp_bind_next hsend₂
      apply wp_bind_next (b := ()) (t := t₂) rfl
      apply wp_bind_next hsend₃
      apply wp_bind_next hsend₄
      exact complete_of_requests hcreate hopen hgrants hdir hall
    · obtain ⟨err, t, hsend, hsame⟩ := sendSQL_of_not_takesEffect sid e rfl htake hv
      apply wp_bind_next hsend
      exact hall.improve hsame.improves
  · rw [wp_bind]
    apply wp_sendSQL
    · exact fun _ => hall
    · exact fun h => absurd h hv

/-- `CreateDatabase` leaves complete PDBs behind, if what follows the creation is executed. -/
theorem createDatabase_complete {req : CreateDatabaseRequest} (hall : AllComplete e)
    (hfinishes : req.name.toUpper ∉ e.pdbs → env.starts req → env.createDirs = none →
      env.createPDB.TakesEffect → env.Finishes) :
    wp (createDatabase plainCasing sid env toLower secret req)
      (fun _ t => AllComplete t ∧ req.name.toUpper ∈ t.pdbs) (fun _ => AllComplete) e := by
  by_cases hs : env.starts req
  · have hrun : createDatabase plainCasing sid env toLower secret req e = _ :=
      createDatabase_of_starts hs
    by_cases hmem : req.name.toUpper ∈ e.pdbs
    · rw [wp_congr (hrun.trans (if_pos hmem))]
      apply (improves_syncAdmin e).mono
      · intro _ t hbetter
        exact ⟨hall.improve hbetter, hbetter.pdbs.symm ▸ hmem⟩
      · exact fun _ t hbetter => hall.improve hbetter
    · rw [wp_congr (hrun.trans (if_neg hmem))]
      exact createNew_complete hall (hfinishes hmem hs)
  · apply (wp_createDatabase_of_not_starts hs).mono
    · exact fun _ _ h => h.elim
    · rintro _ _ rfl
      exact hall

end Engine

section Reconcile

variable {env : WorkEnv} {name : String} {s t : Session} {w v : Work}

/-- The PDBs and the name of the PDB stay as they are. -/
structure Spares (s t : Session) : Prop where
  pdbs : t.pdbs = s.pdbs
  specName : t.db.specName = s.db.specName

instance : Std.Refl Spares := ⟨fun _ => ⟨rfl, rfl⟩⟩

instance : IsTrans Session Spares :=
  ⟨fun _ _ _ h h' => ⟨h'.pdbs.trans h.pdbs, h'.specName.trans h.specName⟩⟩

theorem spares_setDatabase {f : Database → Database} (h : ∀ db, (f db).specName = db.specName) :
    Within Spares (setDatabase f) := Within.modify fun s => ⟨rfl, h s.db⟩

theorem spares_writeDatabase {env : Env} {c : Call} : Within Spares (writeDatabase env name c) := by
  intro s
  unfold wp writeDatabase
  split
  · next h =>
    obtain ⟨-, rfl⟩ := Res.next.inj h
    split
    · exact ⟨rfl, rfl⟩
    · exact ⟨rfl, rfl⟩
  · next h => cases h

theorem spares_writeDatabaseNames {env : Env} {names : List String} :
    Within Spares (writeDatabaseNames env names) := by
  intro s
  unfold wp writeDatabaseNames
  split
  · next h =>
    obtain ⟨-, rfl⟩ := Res.next.inj h
    split
    · exact ⟨rfl, rfl⟩
    · exact ⟨rfl, rfl⟩
  · next h => cases h

theorem spares_when_finish {c : Prop} [Decidable c] {r : Result} :
    Within Spares (when c (finish r : P Unit)) := Within.when fun _ => Within.finish r

theorem spares_setReady {env : Env} {status : CondStatus} {reason : Reason} {message : String}
    {phase : DatabasePhase} : Within Spares (setReady env status reason message phase) :=
  spares_setDatabase fun _ => rfl

theorem spares_handlePreflightCheckError {env : Env} {message : String} :
    Within Spares (handlePreflightCheckError env name message) := by
  apply Within.bind spares_setReady
  intro _
  apply Within.bind spares_writeDatabase
  intro _
  exact Within.finish _

theorem spares_preflight {env : Env} : Within Spares (preflight env name) := by
  apply Within.bind Within.get
  intro s
  split
  · exact spares_handlePreflightCheckError
  · apply Within.bind spares_when_finish
    intro _
    apply Within.bind (Within.when fun _ => spares_handlePreflightCheckError)
    intro _
    exact spares_when_finish

theorem spares_addFinalizer {env : Env} : Within Spares (addFinalizer env name) := by
  apply Within.bind Within.get
  intro s
  apply Within.when
  intro _
  have hset : Within Spares (setDatabase fun db => { db with hasFinalizer := true }) :=
    spares_setDatabase fun _ => rfl
  apply Within.bind hset
  intro _
  apply Within.bind spares_writeDatabase
  intro _
  exact spares_when_finish

theorem spares_prepare : Within Spares (prepare env name) := by
  apply Within.bind spares_when_finish
  intro _
  apply Within.bind spares_when_finish
  intro _
  apply Within.bind spares_preflight
  intro _
  exact spares_addFinalizer

theorem spares_report {env : Env} : Within Spares (report env name) := by
  have hset : Within Spares (setDatabase fun db => { db with reported := true }) :=
    spares_setDatabase fun _ => rfl
  apply Within.bind spares_setReady
  intro _
  apply Within.bind hset
  intro _
  apply Within.bind spares_writeDatabase
  intro _
  exact spares_when_finish

theorem spares_noteName {env : Env} : Within Spares (noteName env) := by
  apply Within.bind Within.get
  intro s
  apply Within.bind spares_writeDatabaseNames
  intro _
  exact spares_when_finish

/-- No PDB is new. -/
def Shrinks (s t : Session) : Prop := ∀ pdb ∈ t.pdbs, pdb ∈ s.pdbs

instance : Std.Refl Shrinks := ⟨fun _ _ h => h⟩

instance : IsTrans Session Shrinks := ⟨fun _ _ _ h h' pdb hpdb => h pdb (h' pdb hpdb)⟩

theorem Spares.shrinks (h : Spares s t) : Shrinks s t := by
  intro pdb hpdb
  rwa [h.pdbs] at hpdb

theorem shrinks_of_spares {α : Type} {p : P α} (h : Within Spares p) : Within Shrinks p := by
  intro s
  exact (h s).mono (fun _ _ h => h.shrinks) fun _ _ h => h.shrinks

theorem shrinks_dropPDB {env : Env} : Within Shrinks (dropPDB env) := by
  apply Within.bind Within.get
  intro s
  apply Within.when
  intro _
  have hdrop : Within Shrinks (modify fun s : Session =>
      { s with pdbs := s.pdbs.filter (· ≠ s.db.specName.toUpper) } : P Unit) :=
    Within.modify fun s pdb hpdb => (List.mem_filter.mp hpdb).1
  apply Within.bind (Within.when fun _ => hdrop)
  intro _
  exact Within.when fun _ => Within.finish _

theorem shrinks_removeDatabase {env : Env} : Within Shrinks (removeDatabase env name) := by
  intro s
  unfold wp removeDatabase
  split
  · next h =>
    obtain ⟨-, rfl⟩ := Res.next.inj h
    split
    · exact fun _ h => h
    · exact fun _ h => h
  · next h => cases h

theorem shrinks_reconcileDatabaseDeletion {env : Env} :
    Within Shrinks (reconcileDatabaseDeletion env name) := by
  have hfinish : ∀ {c : Prop} [Decidable c] {r : Result}, Within Shrinks (when c (finish r : P Unit)) :=
    fun {_ _ _} => Within.when fun _ => Within.finish _
  apply Within.bind hfinish
  intro _
  apply Within.bind hfinish
  intro _
  apply Within.bind Within.get
  intro s
  apply Within.bind hfinish
  intro _
  apply Within.when
  intro _
  apply Within.bind shrinks_dropPDB
  intro _
  apply Within.bind (shrinks_of_spares spares_writeDatabaseNames)
  intro _
  apply Within.bind hfinish
  intro _
  apply Within.bind shrinks_removeDatabase
  intro _
  exact hfinish

/-- Complete PDBs, and a report only of one of them. -/
structure Sound (s : Site) (w : Work) : Prop where
  complete : AllComplete w.engine
  reported : w.reported = s.reported ∨
    ∃ pdb, w.reported = pdb :: s.reported ∧ pdb ∈ w.pdbs ∧ (w.detail pdb).Complete

/-- Complete PDBs, and no report yet. -/
structure Unreported (s : Site) (w : Work) : Prop where
  complete : AllComplete w.engine
  reported : w.reported = s.reported

theorem Unreported.sound {s : Site} (h : Unreported s w) : Sound s w := ⟨h.complete, .inl h.reported⟩

theorem Unreported.onSession {s : Site} (h : Unreported s w) (hshrinks : Shrinks w.toSession t) :
    Unreported s { w with toSession := t } :=
  ⟨fun pdb hpdb => h.complete pdb (hshrinks pdb hpdb), h.reported⟩

theorem Sound.onSession {s : Site} (h : Sound s w) (hspares : Spares w.toSession t) :
    Sound s { w with toSession := t } := by
  constructor
  · exact fun pdb hpdb => h.complete pdb (hspares.shrinks pdb hpdb)
  · rcases h.reported with hsame | ⟨pdb, hrep, hmem, hcomplete⟩
    · exact .inl hsame
    · exact .inr ⟨pdb, hrep, hspares.pdbs.symm ▸ hmem, hcomplete⟩

theorem newPDB_sound {s : Site} (h : Unreported s w)
    (hfinishes : w.db.specName.toUpper ∉ w.pdbs → env.creating.starts (env.request w.db.specName) →
      env.creating.createDirs = none → env.creating.createPDB.TakesEffect → env.creating.Finishes) :
    wp (newPDB env) (fun _ v => Unreported s v ∧ v.db.specName.toUpper ∈ v.pdbs)
      (fun _ => Unreported s) w := by
  have hcreate : wp (createDatabase plainCasing env.sid env.creating String.toLower env.syncing.secret
      (env.request w.db.specName)) (fun _ t => AllComplete t ∧ w.db.specName.toUpper ∈ t.pdbs)
      (fun _ => AllComplete) w.engine := createDatabase_complete h.complete hfinishes
  unfold wp at hcreate ⊢
  unfold newPDB
  cases hrun : createDatabase plainCasing env.sid env.creating String.toLower env.syncing.secret
      (env.request w.db.specName) w.engine with
  | next status e =>
    rw [hrun] at hcreate
    exact ⟨⟨hcreate.1, h.reported⟩, hcreate.2⟩
  | done r e =>
    rw [hrun] at hcreate
    exact ⟨hcreate, h.reported⟩

theorem reportPDB_sound {s : Site} (h : Unreported s w) (hmem : w.db.specName.toUpper ∈ w.pdbs) :
    wp (reportPDB env name) (fun _ => Sound s) (fun _ => Sound s) w := by
  have hreported : Sound s (if (env.call .readyStatus).served then
      { w with reported := w.db.specName.toUpper :: w.reported } else w) := by
    split
    · exact ⟨h.complete, .inr ⟨_, by rw [h.reported], hmem, h.complete _ hmem⟩⟩
    · exact h.sound
  unfold reportPDB onSession
  rw [wp_bind, wp_modify, wp_zoom]
  exact (spares_report _).mono (fun _ _ hs => hreported.onSession hs) fun _ _ hs => hreported.onSession hs

theorem Sound.put {s : Site} {e : Engine} (h : Sound s w) (hbetter : Improves w.engine e) :
    Sound s (w.put e) := by
  constructor
  · intro pdb hpdb
    exact h.complete.improve hbetter pdb hpdb
  · rcases h.reported with hsame | ⟨pdb, hrep, hmem, hcomplete⟩
    · exact .inl hsame
    · have hmem' : pdb ∈ e.pdbs := hbetter.pdbs.symm ▸ hmem
      exact .inr ⟨pdb, hrep, hmem', hcomplete.better (hbetter.detail pdb)⟩

theorem setUserReady_sound {s : Site} {failed : Bool} (h : Sound s w) :
    wp (setUserReady env name failed) (fun _ => Sound s) (fun _ => Sound s) w := by
  unfold wp setUserReady
  simp only
  cases env.newUsers with
  | true => exact ⟨h.complete, h.reported⟩
  | false => exact ⟨h.complete, h.reported⟩

theorem newUsers_sound {s : Site} (h : Sound s w) :
    wp (newUsers env name) (fun _ => Sound s) (fun _ => Sound s) w := by
  have hcreate : wp (createUsers plainCasing env.sid env.creatingUsers env.syncing.secret
      w.db.specName env.users) (fun _ => Improves w.engine) (fun _ => Improves w.engine) w.engine :=
    improves_createUsers w.engine
  unfold wp at hcreate
  unfold wp newUsers
  cases hrun : createUsers plainCasing env.sid env.creatingUsers env.syncing.secret w.db.specName
      env.users w.engine with
  | next _ e =>
    rw [hrun] at hcreate
    exact setUserReady_sound (h.put hcreate)
  | done r e =>
    rw [hrun] at hcreate
    cases r with
    | error message => exact setUserReady_sound (h.put hcreate)
    | panic => exact h.put hcreate

/-- The users of a PDB have nothing to do with whether it is complete. -/
theorem complete_with_accounts {d : PdbState} {a : Accounts} (h : d.Complete) :
    ({ d with accounts := a }).Complete :=
  ⟨h.opened, h.saved, h.adminGrants, h.loaderGrants, h.directory, h.directoryGrants⟩

theorem syncUsersOf_sound {s : Site} (h : Sound s w) :
    wp (syncUsersOf env name) (fun _ => Sound s) (fun _ => Sound s) w := by
  have hkeep : ∀ {b : Accounts} {pdb : String}, (w.detail pdb).Complete →
      (Function.update w.detail w.db.specName.toUpper
        { w.detail w.db.specName.toUpper with accounts := b } pdb).Complete := by
    intro b pdb hcomplete
    by_cases hpdb : pdb = w.db.specName.toUpper
    · subst hpdb
      rw [Function.update_self]
      exact complete_with_accounts hcomplete
    · rwa [Function.update_of_ne hpdb]
  constructor
  · exact fun pdb hpdb => hkeep (h.complete pdb hpdb)
  · rcases h.reported with hsame | ⟨pdb, hrep, hmem, hcomplete⟩
    · exact .inl hsame
    · exact .inr ⟨pdb, hrep, hmem, hkeep hcomplete⟩

theorem reconcilePDB_sound {s : Site} (h : Unreported s w)
    (hfinishes : (∃ t, prepare env name w.toSession = .next () t) →
      w.db.specName.toUpper ∉ w.pdbs → env.creating.starts (env.request w.db.specName) →
      env.creating.createDirs = none → env.creating.createPDB.TakesEffect → env.creating.Finishes) :
    wp (reconcilePDB env name) (fun _ => Sound s) (fun _ => Sound s) w := by
  unfold reconcilePDB onSession
  rw [wp_bind, wp_zoom]
  refine ((spares_prepare w.toSession).and wp_self).mono ?_ ?_
  · rintro _ t ⟨hspares, hprepare⟩
    have ht : Unreported s { w with toSession := t } := h.onSession hspares.shrinks
    rw [wp_bind]
    refine (newPDB_sound ht ?_).mono ?_ ?_
    · intro hmissing hstarts
      simp only [hspares.specName, hspares.pdbs] at hmissing hstarts
      exact hfinishes ⟨t, hprepare⟩ hmissing hstarts
    · rintro b v ⟨hv, hmem⟩
      rw [wp_bind]
      exact (reportPDB_sound hv hmem).mono (fun _ _ hu => hu) fun _ _ hu => hu
    · exact fun _ _ hv => hv.sound
  · rintro _ t ⟨hspares, -⟩
    exact (h.onSession hspares.shrinks).sound

theorem reconcileCreation_sound {s : Site} (h : Unreported s w)
    (hfinishes : (∃ t, prepare env name w.toSession = .next () t) →
      w.db.specName.toUpper ∉ w.pdbs → env.creating.starts (env.request w.db.specName) →
      env.creating.createDirs = none → env.creating.createPDB.TakesEffect → env.creating.Finishes) :
    wp (reconcileCreation env name) (fun _ => Sound s) (fun _ => Sound s) w := by
  unfold reconcileCreation
  rw [wp_bind]
  apply (reconcilePDB_sound h hfinishes).mono
  · intro b v hv
    split
    · exact syncUsersOf_sound hv
    · unfold onSession
      rw [wp_bind]
      apply (newUsers_sound hv).mono
      · intro _ u hu
        rw [wp_zoom]
        exact (spares_noteName _).mono (fun _ _ hs => hu.onSession hs) fun _ _ hs => hu.onSession hs
      · exact fun _ _ hu => hu
  · exact fun _ _ hv => hv

theorem reconcileWork_sound {s : Site} {db : Database} (hdb : s.databases.lookup name = some db)
    (h : AllComplete (s.work db).engine) (hfinishes : FinishesCreation s (.reconcile env name)) :
    Sound s (reconcileWork env name (s.work db)).state := by
  have hstart : Unreported s (s.work db) := ⟨h, rfl⟩
  apply wp.state (P := Sound s)
  unfold reconcileWork onSession
  simp only [wp_bind, wp_zoom, wp_when, wp_finish, wp_get]
  refine ⟨fun _ => hstart.sound, fun _ => ⟨fun _ => hstart.sound, fun hreached => ?_⟩⟩
  split
  · rw [wp_zoom]
    apply (shrinks_reconcileDatabaseDeletion _).mono
    · exact fun _ _ hs => (hstart.onSession hs).sound
    · exact fun _ _ hs => (hstart.onSession hs).sound
  · next hlive =>
    apply reconcileCreation_sound hstart
    exact hfinishes db hdb (not_not.mp hreached) (Option.not_isSome_iff_eq_none.mp hlive)

/-- Every PDB of the site is complete. -/
def CompleteSite (s : Site) : Prop := ∀ pdb ∈ s.pdbs, (s.detail pdb).Complete

theorem site_step {s t : Site} (e : SiteEvent) (h : CompleteSite s) (hok : FinishesCreation s e)
    (hstep : siteStep s e = some t) : CompleteSite t ∧ ReportsComplete s e t := by
  cases e with
  | reconcile env name =>
    obtain rfl := Option.some.inj hstep
    unfold Site.reconcile
    cases hdb : s.databases.lookup name with
    | none => exact ⟨h, .inl rfl⟩
    | some db =>
      have hsound := reconcileWork_sound hdb h hok
      exact ⟨hsound.complete, hsound.reported⟩
  | objects w =>
    obtain rfl := Option.some.inj hstep
    exact ⟨h, .inl rfl⟩
  | dropPDB pdb =>
    obtain rfl := Option.some.inj hstep
    exact ⟨fun p hp => h p (List.mem_filter.mp hp).1, .inl rfl⟩

/-- In a run that starts with complete PDBs, and in which every creation that takes effect is
carried through, a PDB is only reported as created when it is there and complete. -/
theorem reportsComplete_of_finishesCreation (s : Site) (es : List SiteEvent) (hs : CompleteSite s)
    (hm : Runs.Meets siteStep FinishesCreation s es) : Runs.EachStep siteStep ReportsComplete s es :=
  Runs.eachStep_of_invariant (fun _ e _ h hok hstep => (site_step e h hok hstep).1)
    (fun _ e _ h hok hstep => (site_step e h hok hstep).2) hs hm

end Reconcile

section Sample

/-- A site with no PDB, and one Database for which there is to be one. -/
def newSite : Site where
  toCluster :=
    { createdCluster with databases := createdCluster.databases.insert "pdb1" (newObject "pdb1" none) }
  detail := fun _ => newPdbState
  reported := []
  notes := []

/-- A reconcile of a Database with one user. -/
def creatingEnv (now : Time) (creating : CreateEnv) : WorkEnv :=
  { healthy now with
    sid := "GCLOUD", cdbName := "GCLOUD", adminPassword := "lion", adminPasswordGsmSecretRef := none,
    users := [passwordScott], userResourceVersions := ∅, catalog := sampleCatalog, creating,
    creatingUsers := ⟨none, none, none, fun _ => none, smoothly, smoothly⟩,
    syncing := ⟨now, fun _ => "", everyCall, everyCall, true, true⟩ }

theorem smoothly_answers (n : Nat) : smoothly.Answers n :=
  { opened := rfl, enabled := rfl, executed := fun _ _ => rfl, output := fun _ _ => rfl,
    last := fun _ _ => rfl, lost := rfl }

theorem smooth_creation_complete :
    Runs.EachStep siteStep ReportsComplete newSite [.reconcile (creatingEnv 1000 smoothCreate) "pdb1"] ∧
      (newSite.reconcile (creatingEnv 1000 smoothCreate) "pdb1").reported = ["PDB1"] := by
  constructor
  · apply reportsComplete_of_finishesCreation
    · intro pdb hpdb
      cases hpdb
    · refine ⟨?_, fun _ _ => trivial⟩
      intro _ _ _ _ _ _ _ _ _
      exact ⟨smoothly_answers 1, smoothly_answers 2, (smoothly_answers 3).toRuns,
        (smoothly_answers 3).toRuns⟩
  · decide +kernel

/-- The PDB is created but cannot be opened, and the retry finds it. -/
def openFails : CreateEnv :=
  { smoothCreate with openPDB := { smoothly with executed := fun _ => some "ORA-65086" } }

theorem half_created_pdb_reported :
    CompleteSite newSite ∧ ¬ Runs.EachStep siteStep ReportsComplete newSite
      [.reconcile (creatingEnv 1000 openFails) "pdb1",
        .reconcile (creatingEnv 2000 smoothCreate) "pdb1"] := by
  constructor
  · intro pdb hpdb
    cases hpdb
  · intro h
    have hlast := (h _ rfl).2 _ rfl
    have hreported : ((newSite.reconcile (creatingEnv 1000 openFails) "pdb1").reported = [] ∧
        ((newSite.reconcile (creatingEnv 1000 openFails) "pdb1").reconcile
          (creatingEnv 2000 smoothCreate) "pdb1").reported = ["PDB1"] ∧
        (((newSite.reconcile (creatingEnv 1000 openFails) "pdb1").reconcile
          (creatingEnv 2000 smoothCreate) "pdb1").detail "PDB1").opened = false) := by
      decide +kernel
    obtain ⟨hfirst, hsecond, hclosed⟩ := hreported
    rcases hlast.1 with hsame | ⟨pdb, hrep, -, hcomplete⟩
    · rw [hfirst, hsecond] at hsame
      cases hsame
    · rw [hfirst, hsecond] at hrep
      obtain rfl : "PDB1" = pdb := by simpa using hrep
      rw [hcomplete.opened] at hclosed
      cases hclosed

end Sample

end ElCarro.Databases
