import ElCarro.Database.Completeness
import ElCarro.Database.Suppression

/-! # Passwords in repeated reconciles

A reconcile notes in the status which version of each password the PDB has, and a later
one sets a password again where the spec asks for another version. The version of a
secret is noted under its full name; the users' versions are compared in that form, but
the admin's is compared with the version alone.
-/

namespace ElCarro.Databases

open GoTime K8s Api Flow Users

/-- The container database, and the status of a Database between two reconciles. -/
structure PdbRecord where
  engine : Engine
  status : UserStatus

/-- Everything that one reconcile meets, the secrets included. -/
structure ReconcileEnv where
  sid : String
  cdbName : String
  catalog : Catalog
  /-- The checks before the turn of the PDB, other than that of the spec, and the finalizer. -/
  prepared : Bool
  creating : CreateEnv
  readyStatus : Bool
  creatingUsers : CreateUsersEnv
  newUsersStatus : Bool
  instanceStatus : Bool
  syncing : SyncEnv

section Model

variable (casing : Casing) (toLower : String → String) (env : ReconcileEnv) (spec : DatabaseSpec)

section Database

/-- The request of `NewDatabase`, with the version that the status notes. -/
def adminRequest (versions : StrMap) : CreateDatabaseRequest where
  name := spec.name
  cdbName := env.cdbName
  password := spec.adminPassword
  lastPassword := if spec.adminPassword ≠ "" then valueAt versions pdbAdmin else ""
  adminPasswordGsmSecretRef :=
    spec.adminPasswordGsmSecretRef.map fun ref => ⟨ref, valueAt versions pdbAdmin⟩

/-- `userVerStr`: what is noted for the admin. -/
def adminVersion : String :=
  match spec.adminPasswordGsmSecretRef with
  | some ref => gsmResourceVersion ref
  | none => spec.adminPassword

/-- The versions after `NewDatabase`; a PDB whose admin is left alone is not noted. -/
def notedAdmin (out : CreateDatabaseStatus) (versions : StrMap) : StrMap :=
  if out = .alreadyExists then versions else versions.insert pdbAdmin (adminVersion spec)

/-- The status that reports the PDB. -/
def reportedStatus (out : CreateDatabaseStatus) (status : UserStatus) : UserStatus :=
  { status with
    userResourceVersions := notedAdmin spec out status.userResourceVersions
    conditions := upsert env.syncing.now .ready .true .createComplete "" status.conditions }

end Database

section Users

/-- The status after `NewUsers`, whatever came of the users. -/
def createdStatus (status : UserStatus) : UserStatus where
  userResourceVersions := recordedVersions spec status.userResourceVersions
  userNames := (spec.users.take 3).map (·.name) ++ if 3 < spec.users.length then ["..."] else []
  conditions := upsert env.syncing.now .userReady .true .createComplete "" status.conditions

/-- `NewUsers` and the status of the instance; errors of `CreateUsers` are only logged. -/
def createdUsers (status : UserStatus) (e : Engine) : Option PdbRecord :=
  match createUsers casing env.sid env.creatingUsers env.syncing.secret spec.name spec.users e with
  | .done .panic _ => none
  | res =>
    if env.newUsersStatus ∧ env.instanceStatus then
      some ⟨res.state, createdStatus env spec status⟩
    else none

def syncedUsers (status : UserStatus) (e : Engine) : Option PdbRecord :=
  let pdb := casing.toUpper spec.name
  match syncUsers env.catalog env.syncing casing spec status (e.detail pdb).accounts with
  | (false, _, _) => none
  | (true, b, status') => some ⟨changePDB pdb (fun d => { d with accounts := b }) e, status'⟩

end Users

/-- A reconcile that returns without an error, and what it leaves behind. -/
def PdbRecord.reconcile (r : PdbRecord) : Option PdbRecord :=
  if validateSpec spec ≠ none ∨ ¬ env.prepared then none
  else
    match createDatabase casing env.sid env.creating toLower env.syncing.secret
        (adminRequest env spec r.status.userResourceVersions) r.engine with
    | .done _ _ => none
    | .next out e =>
      if ¬ env.readyStatus then none
      else if out = .ready then
        createdUsers casing env spec (reportedStatus env spec out r.status) e
      else syncedUsers casing env spec (reportedStatus env spec out r.status) e

section Requests

instance (env : CreateEnv) (req : CreateDatabaseRequest) : Decidable (env.starts req) :=
  inferInstanceAs (Decidable (_ ∧ _))

/-- What is sent after a request without an answer that says otherwise. -/
def afterSQL (e : Engine) (req : Request) (o : Execution)
    (next : Option String → Engine → List Request) : List Request :=
  send casing req ++
    match sendSQL casing env.sid req o e with
    | .next err t => next err t
    | .done _ _ => []

/-- What the creation of a PDB sends. -/
def createNewSends (p : Pdb) (e : Engine) : List Request :=
  if env.creating.createDirs.isSome then []
  else
    afterSQL casing env e (createPDBRequest p) env.creating.createPDB fun err e =>
      if err.isSome then []
      else
        afterSQL casing env e (openPDBRequest p) env.creating.openPDB fun err e =>
          if err.isSome then []
          else
            afterSQL casing env e (grantsRequest p) env.creating.grants fun _ _ =>
              send casing (directoryRequest p)

/-- What `CreateDatabase` sends. -/
def createDatabaseSends (req : CreateDatabaseRequest) (e : Engine) : List Request :=
  let p := buildPDB casing toLower req.cdbName req.name (req.pwd env.syncing.secret)
  if ¬ env.creating.starts req then []
  else if p.pluggableDatabaseName ∈ e.pdbs then
    if req.changes then send casing (alterAdminRequest p) else []
  else createNewSends casing env p e

/-- What `CreateUsers` sends. -/
def createUsersSends (e : Engine) : List Request :=
  let users := env.creatingUsers
  let container := Statement.setSessionContainer (casing.toUpper spec.name)
  if ¬ (plaintextCmds spec.users ++ grantCmds spec.users).all (·.valid casing) then []
  else if users.hostname.isSome ∨ users.newClient.isSome ∨ users.checkDatabaseState.isSome then []
  else
    match secretCmds users env.syncing.secret spec.users e with
    | .done _ _ => []
    | .next cmds e =>
      afterSQL casing env e ⟨container :: plaintextCmds spec.users ++ cmds, true⟩ users.users
        fun err _ =>
        if err.isSome then [] else send casing ⟨container :: grantCmds spec.users, false⟩

/-- What a reconcile sends, whether it returns without an error or not. -/
def PdbRecord.reconcileSends (r : PdbRecord) : List Request :=
  let req := adminRequest env spec r.status.userResourceVersions
  if validateSpec spec ≠ none ∨ ¬ env.prepared then []
  else
    createDatabaseSends casing toLower env req r.engine ++
      match createDatabase casing env.sid env.creating toLower env.syncing.secret req r.engine with
      | .done _ _ => []
      | .next out e =>
        if ¬ env.readyStatus then []
        else if out = .ready then createUsersSends casing env spec e
        else
          syncUsersSends env.catalog env.syncing casing spec (reportedStatus env spec out r.status)
            (e.detail (casing.toUpper spec.name)).accounts

end Requests

end Model

section Property

def Users.Statement.altersUser : Statement → Bool
  | .alterUser _ _ => true
  | _ => false

/-- No statement sets the password of a user that is there. -/
def NoAlterUser (rs : List Request) : Prop := ∀ r ∈ rs, ∀ st ∈ r.commands, st.altersUser = false

instance (rs : List Request) : Decidable (NoAlterUser rs) :=
  inferInstanceAs (Decidable (∀ r ∈ rs, _))

/-- A version that does not ask for whatever is the latest one. -/
def Users.GsmSecretRef.isFixed (ref : GsmSecretRef) : Bool :=
  ¬ "latest".toList <:+ ref.version.toList

structure FixedVersions (spec : DatabaseSpec) : Prop where
  admin : ∀ ref ∈ spec.adminPasswordGsmSecretRef, ref.isFixed = true
  users : ∀ u ∈ spec.users, ∀ ref ∈ u.gsmSecretRef, ref.isFixed = true

/-- After a reconcile without an error, no further one with the same spec and the same
secrets sets a password again. -/
def SetsPasswordsOnce (casing : Casing) (toLower : String → String) (spec : DatabaseSpec) : Prop :=
  ∀ env r t, PdbRecord.reconcile casing toLower env spec r = some t →
    ∀ env', env'.syncing.secret = env.syncing.secret →
      NoAlterUser (PdbRecord.reconcileSends casing toLower env' spec t)

/-- What the entries of the spec have noted under a name, the last one that has a password. -/
def notedForUser (spec : DatabaseSpec) (name : String) : Option String :=
  spec.users.reverse.findSome? fun u => if u.name = name then recordedVersion u else none

/-- The admin's version is noted as it is compared: a secret never is, but for the version of a
user with the name of the admin, and such a user hides a plaintext password unless it has the
same one. -/
structure NotedAsCompared (spec : DatabaseSpec) : Prop where
  secret : ∀ ref ∈ spec.adminPasswordGsmSecretRef, notedForUser spec pdbAdmin = some ref.version
  password : spec.adminPassword ≠ "" → ∀ v ∈ notedForUser spec pdbAdmin, v = spec.adminPassword

end Property

section Requests

variable {casing : Casing} {toLower : String → String} {env : ReconcileEnv} {spec : DatabaseSpec}
  {rs rs' : List Request} {req : Request}

theorem NoAlterUser.append (h : NoAlterUser rs) (h' : NoAlterUser rs') :
    NoAlterUser (rs ++ rs') := by
  intro r hr
  rcases List.mem_append.mp hr with hr | hr
  · exact h r hr
  · exact h' r hr

theorem noAlterUser_nil : NoAlterUser [] := fun _ hr => absurd hr List.not_mem_nil

theorem noAlterUser_send (h : ∀ st ∈ req.commands, st.altersUser = false) :
    NoAlterUser (send casing req) := by
  intro r hr
  obtain ⟨rfl, -⟩ := eq_of_mem_send hr
  exact h

theorem noAlterUser_afterSQL {e : Engine} {o : Execution}
    {next : Option String → Engine → List Request}
    (h : ∀ st ∈ req.commands, st.altersUser = false) (hnext : ∀ err t, NoAlterUser (next err t)) :
    NoAlterUser (afterSQL casing env e req o next) := by
  apply (noAlterUser_send h).append
  split
  · exact hnext _ _
  · exact noAlterUser_nil

theorem noAlterUser_createNewSends {p : Pdb} {e : Engine} :
    NoAlterUser (createNewSends casing env p e) := by
  unfold createNewSends
  split
  · exact noAlterUser_nil
  · apply noAlterUser_afterSQL (by simp [createPDBRequest, Statement.altersUser])
    intro err t
    split
    · exact noAlterUser_nil
    · apply noAlterUser_afterSQL (by simp [openPDBRequest, Statement.altersUser])
      intro err t
      split
      · exact noAlterUser_nil
      · apply noAlterUser_afterSQL (by simp [grantsRequest, Statement.altersUser])
        intro err t
        exact noAlterUser_send (by simp [directoryRequest, Statement.altersUser])

/-- The admin's password is all that `CreateDatabase` sets. -/
theorem noAlterUser_createDatabaseSends {req : CreateDatabaseRequest} {e : Engine}
    (h : req.changes = false) : NoAlterUser (createDatabaseSends casing toLower env req e) := by
  unfold createDatabaseSends
  simp only [h, Bool.false_eq_true, if_false]
  split
  · exact noAlterUser_nil
  · split
    · exact noAlterUser_nil
    · exact noAlterUser_createNewSends

theorem plaintextCmds_altersUser {users : List UserSpec} {st : Statement}
    (h : st ∈ plaintextCmds users) : st.altersUser = false := by
  obtain ⟨u, -, rfl⟩ := List.mem_map.mp h
  rfl

theorem grantCmds_altersUser {users : List UserSpec} {st : Statement} (h : st ∈ grantCmds users) :
    st.altersUser = false := by
  obtain ⟨u, -, hst⟩ := List.mem_flatMap.mp h
  obtain ⟨p, -, rfl⟩ := List.mem_map.mp hst
  rfl

theorem noAlterUser_createUsersSends {e : Engine} :
    NoAlterUser (createUsersSends casing env spec e) := by
  unfold createUsersSends
  simp only
  split
  · exact noAlterUser_nil
  · split
    · exact noAlterUser_nil
    · split
      · exact noAlterUser_nil
      · next cmds t hcmds =>
        have hcreate : wp (secretCmds env.creatingUsers env.syncing.secret spec.users)
            (fun cmds _ => ∀ st ∈ cmds, ∃ n p, st = .createUser n p) (fun _ _ => True) e :=
          secretCmds_createUser
        rw [wp, hcmds] at hcreate
        apply noAlterUser_afterSQL
        · intro st hst
          simp only [List.cons_append, List.mem_cons, List.mem_append] at hst
          rcases hst with rfl | hst | hst
          · rfl
          · exact plaintextCmds_altersUser hst
          · obtain ⟨n, p, rfl⟩ := hcreate st hst
            rfl
        · intro err t
          split
          · exact noAlterUser_nil
          · apply noAlterUser_send
            intro st hst
            rcases List.mem_cons.mp hst with rfl | hst
            · rfl
            · exact grantCmds_altersUser hst

section Users

variable {cat : Catalog} {secret : String → String} {uenv : Users.Env} {databaseName : String}
  {a : Accounts} {u : DbUser casing}

theorem noAlterUser_createSends : NoAlterUser (u.createSends databaseName) := by
  apply noAlterUser_send
  intro st hst
  simp only [DbUser.createRequest, List.mem_cons, List.mem_map] at hst
  rcases hst with rfl | rfl | ⟨p, -, rfl⟩
  · rfl
  · rfl
  · rfl

theorem noAlterUser_grantSends {ps : List String} : NoAlterUser (u.grantSends databaseName ps) := by
  unfold DbUser.grantSends
  split
  · exact noAlterUser_nil
  · apply noAlterUser_send
    intro st hst
    simp only [DbUser.grantRequest, List.mem_cons, List.mem_map] at hst
    rcases hst with rfl | ⟨p, -, rfl⟩
    · rfl
    · rfl

theorem noAlterUser_revokeSends {ps : List String} :
    NoAlterUser (u.revokeSends databaseName ps) := by
  unfold DbUser.revokeSends
  split
  · exact noAlterUser_nil
  · apply noAlterUser_send
    intro st hst
    simp only [DbUser.revokeRequest, List.mem_cons, List.mem_map] at hst
    rcases hst with rfl | ⟨p, -, rfl⟩
    · rfl
    · rfl

theorem noAlterUser_updatePrivsSends {stage : Stage} {kind : String → Bool} :
    NoAlterUser (u.updatePrivsSends cat secret uenv databaseName stage kind a) := by
  unfold DbUser.updatePrivsSends
  split
  · exact noAlterUser_nil
  · apply noAlterUser_grantSends.append
    split
    · exact noAlterUser_revokeSends
    · exact noAlterUser_nil

theorem noAlterUser_updateSends : NoAlterUser (u.updateSends cat secret uenv databaseName a) := by
  unfold DbUser.updateSends
  apply noAlterUser_updatePrivsSends.append
  split
  · exact noAlterUser_updatePrivsSends
  · exact noAlterUser_nil

theorem noAlterUser_forEachSends {op : DbUser casing → Accounts → Bool × Accounts}
    {sends : DbUser casing → Accounts → List Request} {us : List (DbUser casing)}
    (h : ∀ u ∈ us, ∀ b, NoAlterUser (sends u b)) : NoAlterUser (forEachSends op sends us a) := by
  intro r hr
  obtain ⟨u, hu, b, hr⟩ := mem_forEachSends hr
  exact h u hu b r hr

/-- A sync sets the passwords of the listed users that ask for it. -/
theorem noAlterUser_syncUsersSends {sync : SyncEnv} {status : UserStatus}
    (h : ∀ u, Counts casing spec u →
      (entryUser casing status.userResourceVersions u).asks = false) :
    NoAlterUser (syncUsersSends cat sync casing spec status a) := by
  unfold syncUsersSends
  simp only
  split
  · exact noAlterUser_nil
  · split
    · unfold updateUsersSends
      simp only
      split
      · exact noAlterUser_nil
      · next d hd =>
        obtain ⟨-, -, hpwd⟩ := usersDiff_eq_some hd
        apply NoAlterUser.append
        · apply NoAlterUser.append
          · exact noAlterUser_forEachSends fun _ _ _ => noAlterUser_createSends
          · exact noAlterUser_forEachSends fun _ _ _ => noAlterUser_updateSends
        · apply noAlterUser_forEachSends
          intro v hv
          rw [hpwd] at hv
          obtain ⟨w, hw, hasks, -⟩ := mem_chosen.mp hv
          obtain ⟨u, hu, rfl⟩ := exists_counts (mem_present.mp hw).1
          exact absurd ((h u hu).symm.trans hasks) Bool.false_ne_true
    · exact noAlterUser_nil

end Users

end Requests

section Versions

variable {casing : Casing} {toLower : String → String} {env : ReconcileEnv} {spec : DatabaseSpec}
  {r t : PdbRecord} {versions : StrMap} {u : UserSpec}

theorem createNew_ready {sid : String} {env : CreateEnv} {p : Pdb} {e : Engine} :
    wp (createNew casing sid env p) (fun out _ => out = .ready) (fun _ _ => True) e := by
  unfold createNew
  simp only [wp_bind, wp_orFail, implies_true, and_true]
  intro _
  apply wp_sendSQL (fun _ => trivial)
  intro _ err
  simp only [wp_bind, wp_orFail, implies_true, and_true]
  intro _
  apply wp_sendSQL (fun _ => trivial)
  intro _ err
  simp only [wp_bind, wp_orFail, implies_true, and_true]
  intro _
  apply wp_sendSQL (fun _ => trivial)
  intro _ err
  rw [wp_bind]
  apply wp_sendSQL (fun _ => trivial)
  intro _ err
  rfl

theorem syncAdmin_completed {sid : String} {env : CreateEnv} {p : Pdb} {e : Engine} :
    wp (syncAdmin casing sid env true p) (fun out _ => out = .adminUserSyncCompleted)
      (fun _ _ => True) e := by
  unfold syncAdmin
  simp only [if_true, wp_bind]
  apply wp_sendSQL (fun _ => trivial)
  intro _ err
  simp [wp_orFail]

/-- The answer of `CreateDatabase` tells whether the password of an admin was due. -/
theorem createDatabase_changes {sid : String} {env : CreateEnv} {secret : String → String}
    {req : CreateDatabaseRequest} {out : CreateDatabaseStatus} {e e' : Engine}
    (h : createDatabase casing sid env toLower secret req e = .next out e') :
    (out = .alreadyExists → req.changes = false) ∧
      (out = .adminUserSyncCompleted → req.changes = true) := by
  have hstarts : env.starts req := by
    by_contra hnot
    have hfalse : wp (createDatabase casing sid env toLower secret req)
        (fun _ _ => False) (fun _ t => t = e) e := wp_createDatabase_of_not_starts hnot
    rw [wp, h] at hfalse
    exact hfalse
  rw [createDatabase_of_starts hstarts] at h
  split at h
  · cases hchanges : req.changes with
    | false =>
      rw [hchanges] at h
      cases h
      simp
    | true =>
      rw [hchanges] at h
      have hout : wp (syncAdmin casing sid env true
          (buildPDB casing toLower req.cdbName req.name (req.pwd secret)))
          (fun out _ => out = .adminUserSyncCompleted) (fun _ _ => True) e := syncAdmin_completed
      rw [wp, h] at hout
      subst hout
      simp
  · have hout : wp (createNew casing sid env
        (buildPDB casing toLower req.cdbName req.name (req.pwd secret)))
        (fun out _ => out = .ready) (fun _ _ => True) e := createNew_ready
    rw [wp, h] at hout
    subst hout
    simp

theorem lookup_recordedVersions_eq (name : String) (versions : StrMap) :
    (recordedVersions spec versions).lookup name =
      (notedForUser spec name).or (if name = pdbAdmin then versions.lookup pdbAdmin else none) := by
  have hfold : ∀ (us : List UserSpec) (m : StrMap),
      (us.foldl (fun m u => ((recordedVersion u).map fun v => m.insert u.name v).getD m) m).lookup
          name =
        (us.reverse.findSome? fun u => if u.name = name then recordedVersion u else none).or
          (m.lookup name) := by
    intro us
    induction us with
    | nil => exact fun m => rfl
    | cons w us ih =>
      intro m
      rw [List.foldl_cons, ih, List.reverse_cons, List.findSome?_append, Option.or_assoc]
      congr 1
      cases hw : recordedVersion w with
      | none => simp [hw]
      | some v =>
        by_cases hname : w.name = name
        · simp [hw, hname]
        · simp [hname, Finmap.lookup_insert_of_ne m (Ne.symm hname)]
  rw [recordedVersions, hfold, notedForUser]
  congr 1
  cases versions.lookup pdbAdmin with
  | none => simp
  | some v =>
    split
    · next hname =>
      subst hname
      simp
    · next hname => simp [Finmap.lookup_insert_of_ne _ hname]

/-- What a reconcile without an error leaves in the status. -/
theorem versions_of_reconcile (h : PdbRecord.reconcile casing toLower env spec r = some t) :
    ∃ out, (out = .alreadyExists →
        (adminRequest env spec r.status.userResourceVersions).changes = false) ∧
      t.status.userResourceVersions =
        recordedVersions spec (notedAdmin spec out r.status.userResourceVersions) := by
  unfold PdbRecord.reconcile at h
  split at h
  · cases h
  · split at h
    · cases h
    · next out e hcreate =>
      refine ⟨out, (createDatabase_changes hcreate).1, ?_⟩
      split at h
      · cases h
      · split at h
        · unfold createdUsers at h
          split at h
          · cases h
          · split at h
            · cases h
              rfl
            · cases h
        · unfold syncedUsers at h
          simp only at h
          split at h
          · cases h
          · next b status' hsync =>
            cases h
            exact (syncUsers_true hsync).1

/-- A user whose version is noted does not ask for its password again. -/
theorem asks_eq_false (hvalid : validateSpec spec = none) (hfixed : FixedVersions spec)
    (hu : Counts casing spec u)
    (hnoted : ∀ v, recordedVersion u = some v → valueAt versions u.name = v) :
    (entryUser casing versions u).asks = false := by
  cases hrec : recordedVersion u with
  | none =>
    have hboth : u.gsmSecretRef = none ∧ u.password = "" := by
      cases href : u.gsmSecretRef with
      | none => simpa [recordedVersion, href] using hrec
      | some ref => simp [recordedVersion, href] at hrec
    have hnew : (entryUser casing versions u).gsmSecNewVer = "" := by
      simp only [entryUser, newUser, userRequest, hboth.1, Option.map_none]
    have hcur : (entryUser casing versions u).curPassword = "" := by
      simp only [entryUser, newUser, userRequest, hboth.2, ne_eq, not_true_eq_false, if_false]
    have hgsm : (entryUser casing versions u).toUpdateGsmPwd = false := by
      rw [DbUser.toUpdateGsmPwd, hnew]
      rfl
    rw [DbUser.asks, hgsm, DbUser.toUpdatePlaintextPwd, hcur]
    rfl
  | some v =>
    have hv := hnoted v hrec
    rw [asks_eq_not_upToDate hvalid hu.mem (by simp [hrec])]
    · cases href : u.gsmSecretRef with
      | none =>
        have hpwd : u.password = v := by
          simp only [recordedVersion, href] at hrec
          split at hrec
          · exact Option.some.inj hrec
          · cases hrec
        simp [upToDate, href, hv, hpwd]
      | some ref =>
        have hfix := hfixed.users u hu.mem ref href
        obtain rfl : gsmResourceVersion ref = v := by simpa [recordedVersion, href] using hrec
        have hlatest : asksLatest u = false := by
          rw [asksLatest, href, Option.any_some]
          exact decide_eq_false (of_decide_eq_true hfix)
        simp [upToDate, href, hv, casing.equalFold_self, hlatest]
    · intro href hempty
      have hpwd : u.password ≠ "" := by
        intro hpwd
        simp [recordedVersion, href, hpwd] at hrec
      have : u.password = v := by simpa [recordedVersion, href, hpwd] using hrec
      rw [hv, ← this] at hempty
      exact hpwd hempty

/-- One password at most for the admin, and every password can be quoted. -/
theorem passwords_of_validateSpec (hvalid : validateSpec spec = none) :
    (∀ ref ∈ spec.adminPasswordGsmSecretRef, spec.adminPassword = "") ∧
      isIdentifier spec.adminPassword = true ∧
      ∀ u ∈ spec.users, isIdentifier u.password = true := by
  have hempty : isIdentifier "" = true := by decide
  unfold validateSpec at hvalid
  split at hvalid
  · cases hvalid
  · next hboth =>
    split at hvalid
    · cases hvalid
    · split at hvalid
      · cases hvalid
      · split at hvalid
        · cases hvalid
        · next hadmin =>
          refine ⟨?_, ?_, ?_⟩
          · intro ref href
            by_contra hne
            exact hboth ⟨hne, by simp [Option.mem_def.mp href]⟩
          · by_contra hnot
            by_cases hne : spec.adminPassword = ""
            · exact hnot (hne ▸ hempty)
            · exact hadmin ⟨hne, hnot⟩
          · intro u hu
            have hnone := List.findSome?_eq_none_iff.mp hvalid u hu
            unfold validateUser at hnone
            split at hnone
            · cases hnone
            · split at hnone
              · cases hnone
              · next hpwd =>
                by_contra hnot
                by_cases hne : u.password = ""
                · exact hnot (hne ▸ hempty)
                · exact hpwd ⟨hne, hnot⟩

/-- The admin's password is due when the noted version is not the one asked for. -/
theorem changes_adminRequest (env : ReconcileEnv) (spec : DatabaseSpec) (versions : StrMap) :
    (adminRequest env spec versions).changes =
      ((spec.adminPasswordGsmSecretRef.any fun ref =>
          ref.version ≠ valueAt versions pdbAdmin || ref.version = "latest") ||
        (spec.adminPassword ≠ "" && spec.adminPassword ≠ valueAt versions pdbAdmin)) := by
  unfold CreateDatabaseRequest.changes CreateDatabaseRequest.toUpdateGsmAdminPwd
    CreateDatabaseRequest.toUpdatePlaintextAdminPwd adminRequest
  congr 1
  · simp only [Option.any_map]
  · by_cases hpwd : spec.adminPassword = ""
    · simp [hpwd]
    · simp [hpwd]

/-- The version that is compared with the admin's is the one that is noted. -/
theorem changes_eq_false {env' : ReconcileEnv}
    (h : PdbRecord.reconcile casing toLower env spec r = some t) (hvalid : validateSpec spec = none)
    (hfixed : FixedVersions spec) (hnoted : NotedAsCompared spec) :
    (adminRequest env' spec t.status.userResourceVersions).changes = false := by
  obtain ⟨out, hout, hversions⟩ := versions_of_reconcile h
  have hlookup : t.status.userResourceVersions.lookup pdbAdmin = (notedForUser spec pdbAdmin).or
      ((notedAdmin spec out r.status.userResourceVersions).lookup pdbAdmin) := by
    rw [hversions, lookup_recordedVersions_eq, if_pos rfl]
  cases href : spec.adminPasswordGsmSecretRef with
  | some ref =>
    have hpwd := (passwords_of_validateSpec hvalid).1 ref href
    have hlast : valueAt t.status.userResourceVersions pdbAdmin = ref.version := by
      rw [valueAt, hlookup, hnoted.secret ref href]
      rfl
    have hlatest : ref.version ≠ "latest" := by
      intro heq
      have hfix := hfixed.admin ref href
      rw [GsmSecretRef.isFixed, heq] at hfix
      revert hfix
      decide
    rw [changes_adminRequest, href, hpwd, hlast]
    simp [hlatest]
  | none =>
    by_cases hpwd : spec.adminPassword = ""
    · rw [changes_adminRequest, href, hpwd]
      rfl
    · have hlast : valueAt t.status.userResourceVersions pdbAdmin = spec.adminPassword := by
        rw [valueAt, hlookup]
        cases huser : notedForUser spec pdbAdmin with
        | some v => exact hnoted.password hpwd v huser
        | none =>
          by_cases hexists : out = .alreadyExists
          · have hsame : spec.adminPassword = valueAt r.status.userResourceVersions pdbAdmin := by
              have hsettled := hout hexists
              rw [changes_adminRequest, href] at hsettled
              simpa [hpwd] using hsettled
            rw [notedAdmin, if_pos hexists]
            exact hsame.symm
          · simp [notedAdmin, hexists, adminVersion, href]
      rw [changes_adminRequest, href, hlast]
      simp

/-- A further reconcile sets no password if the admin's version is noted as it is compared. -/
theorem setsPasswordsOnce_of_notedAsCompared (hfixed : FixedVersions spec)
    (hnoted : NotedAsCompared spec) : SetsPasswordsOnce casing toLower spec := by
  intro env r t h env' hsecret
  unfold PdbRecord.reconcileSends
  simp only
  split
  · exact noAlterUser_nil
  · next hchecks =>
    have hvalid : validateSpec spec = none := by
      by_contra hne
      exact hchecks (.inl hne)
    have hchanges : (adminRequest env' spec t.status.userResourceVersions).changes = false :=
      changes_eq_false h hvalid hfixed hnoted
    apply (noAlterUser_createDatabaseSends hchanges).append
    split
    · exact noAlterUser_nil
    · next out e hcreate =>
      split
      · exact noAlterUser_nil
      · split
        · exact noAlterUser_createUsersSends
        · next hready =>
          have hexists : out = .alreadyExists := by
            cases out with
            | alreadyExists => rfl
            | ready => exact absurd rfl hready
            | adminUserSyncCompleted =>
              have hdue := (createDatabase_changes hcreate).2 rfl
              rw [hchanges] at hdue
              cases hdue
          subst hexists
          apply noAlterUser_syncUsersSends
          intro u hu
          apply asks_eq_false hvalid hfixed hu
          intro v hv
          obtain ⟨first, -, hversions⟩ := versions_of_reconcile h
          change valueAt t.status.userResourceVersions u.name = v
          rw [hversions, valueAt, lookup_recordedVersions hu hv]
          rfl

end Versions

section Due

variable {casing : Casing} {toLower : String → String} {spec : DatabaseSpec} {p : Pdb} {e : Engine}

/-- A PDB whose requests can all be built. -/
structure Quotable (p : Pdb) : Prop where
  name : isIdentifier p.pluggableDatabaseName = true
  password : isIdentifier p.pluggableAdminPasswd = true
  tablespace : isIdentifier p.defaultTablespace = true

theorem Quotable.valid (hkeeps : casing.Keeps) (h : Quotable p) :
    (createPDBRequest p).valid casing = true ∧ (openPDBRequest p).valid casing = true ∧
      (grantsRequest p).valid casing = true ∧ (directoryRequest p).valid casing = true ∧
      (alterAdminRequest p).valid casing = true := by
  have hname := hkeeps.identifier _ h.name
  have htablespace := hkeeps.identifier _ h.tablespace
  have hadmin := hkeeps.identifier pdbAdmin (by decide)
  have hloader := hkeeps.identifier pdbLoaderUser (by decide)
  have hdir := hkeeps.identifier dpdumpDirOracle (by decide)
  have hprivs := isPrivilege_constants
  simp only [createPDBRequest, openPDBRequest, grantsRequest, directoryRequest, alterAdminRequest,
    Request.valid, Statement.valid, List.all_cons, List.all_nil, hname, htablespace, hadmin,
    hloader, hdir, hprivs, h.password, Bool.and_self, and_self]

/-- A creation in which nothing fails. -/
theorem createNew_smooth (hkeeps : casing.Keeps) (h : Quotable p) (sid : String) (e : Engine) :
    ∃ t, createNew casing sid smoothCreate p e = .next .ready t ∧
      p.pluggableDatabaseName ∈ t.pdbs := by
  obtain ⟨hcreate, hopen, hgrants, hdir, -⟩ := h.valid hkeeps
  obtain ⟨t₁, h₁, hsame₁⟩ := sendSQL_of_answers hcreate (smoothly_answers _) sid e
  obtain ⟨t₂, h₂, hsame₂⟩ := sendSQL_of_answers hopen (smoothly_answers _) sid t₁
  obtain ⟨t₃, h₃, hsame₃⟩ := sendSQL_of_answers hgrants (smoothly_answers _) sid t₂
  obtain ⟨t₄, h₄, hsame₄⟩ := sendSQL_of_answers hdir (smoothly_answers _) sid t₃
  refine ⟨t₄, ?_, ?_⟩
  · change (sendSQL casing sid (createPDBRequest p) smoothly >>= _) e = _
    rw [bind_next h₁]
    change (sendSQL casing sid (openPDBRequest p) smoothly >>= _) t₁ = _
    rw [bind_next h₂]
    change (sendSQL casing sid (grantsRequest p) smoothly >>= _) t₂ = _
    rw [bind_next h₃]
    exact bind_next h₄
  · have hpdbs₁ : t₁.pdbs = p.pluggableDatabaseName :: e.pdbs := hsame₁.pdbs
    have hpdbs₂ : t₂.pdbs = t₁.pdbs := hsame₂.pdbs
    have hpdbs₃ : t₃.pdbs = t₂.pdbs := hsame₃.pdbs
    have hpdbs₄ : t₄.pdbs = t₃.pdbs := hsame₄.pdbs
    rw [hpdbs₄, hpdbs₃, hpdbs₂, hpdbs₁]
    exact List.mem_cons_self

/-- No PDB yet, and nothing noted. -/
def newRecord : PdbRecord := ⟨emptyEngine, ⟨∅, [], []⟩⟩

/-- A reconcile in which nothing fails but, possibly, the creation of the users. -/
def smoothReconcile (hostname : Option String) (secret : String → String) : ReconcileEnv where
  sid := "GCLOUD"
  cdbName := "GCLOUD"
  catalog := sampleCatalog
  prepared := true
  creating := smoothCreate
  readyStatus := true
  creatingUsers := ⟨hostname, none, none, fun _ => none, smoothly, smoothly⟩
  newUsersStatus := true
  instanceStatus := true
  syncing := ⟨0, secret, everyCall, everyCall, true, true⟩

theorem smoothCreate_starts (req : CreateDatabaseRequest) : smoothCreate.starts req :=
  ⟨fun _ => rfl, rfl, rfl, rfl, rfl⟩

/-- The PDB of a spec that passed the check, when secrets can be quoted. -/
theorem quotable_buildPDB (hkeeps : casing.Keeps) (hvalid : validateSpec spec = none)
    {env : ReconcileEnv} {versions : StrMap} {secret : String → String}
    (hsecret : ∀ v, isIdentifier (secret v) = true) :
    Quotable (buildPDB casing toLower env.cdbName spec.name
      ((adminRequest env spec versions).pwd secret)) := by
  have hname := hkeeps.identifier _ (valid_of_validateSpec hvalid).1
  have hplain : isIdentifier (adminRequest env spec versions).plaintextPwd = true := by
    unfold CreateDatabaseRequest.plaintextPwd
    split
    · exact (passwords_of_validateSpec hvalid).2.1
    · decide
  constructor
  · exact hname
  · change isIdentifier ((adminRequest env spec versions).pwd secret) = true
    unfold CreateDatabaseRequest.pwd
    split
    · exact hplain
    · split
      · exact hsecret _
      · exact hplain
  · change isIdentifier (casing.toUpper spec.name ++ "_USERS") = true
    simpa [isIdentifier, String.toList_append] using hname

theorem userCmds_valid (hkeeps : casing.Keeps) (hvalid : validateSpec spec = none) :
    (plaintextCmds spec.users ++ grantCmds spec.users).all (·.valid casing) = true := by
  have husers := (valid_of_validateSpec hvalid).2
  rw [List.all_eq_true]
  intro st hst
  rcases List.mem_append.mp hst with hst | hst
  · obtain ⟨u, hu, rfl⟩ := List.mem_map.mp hst
    have hu := (List.mem_filter.mp hu).1
    simp [Statement.valid, hkeeps.identifier _ (husers u hu).1,
      (passwords_of_validateSpec hvalid).2.2 u hu]
  · obtain ⟨u, hu, hst⟩ := List.mem_flatMap.mp hst
    obtain ⟨q, hq, rfl⟩ := List.mem_map.mp hst
    simp [Statement.valid, hkeeps.identifier _ (husers u hu).1, (husers u hu).2 q hq]

/-- The reconcile that creates the PDB, but none of its users. -/
theorem reconcile_newRecord (hkeeps : casing.Keeps) (hvalid : validateSpec spec = none)
    {secret : String → String} (hsecret : ∀ v, isIdentifier (secret v) = true) (host : String) :
    ∃ t, PdbRecord.reconcile casing toLower (smoothReconcile (some host) secret) spec newRecord =
        some t ∧
      casing.toUpper spec.name ∈ t.engine.pdbs ∧
      t.status.userResourceVersions =
        recordedVersions spec ((∅ : StrMap).insert pdbAdmin (adminVersion spec)) := by
  let env := smoothReconcile (some host) secret
  have hquotable : Quotable (buildPDB casing toLower env.cdbName spec.name
      ((adminRequest env spec ∅).pwd secret)) := quotable_buildPDB hkeeps hvalid hsecret
  obtain ⟨e, hcreate, hmem⟩ := createNew_smooth hkeeps hquotable env.sid emptyEngine
  have hdatabase : createDatabase casing env.sid env.creating toLower env.syncing.secret
      (adminRequest env spec newRecord.status.userResourceVersions) newRecord.engine =
        .next .ready e := by
    have hstarts : env.creating.starts
        (adminRequest env spec newRecord.status.userResourceVersions) := smoothCreate_starts _
    rw [createDatabase_of_starts hstarts, if_neg (by simp [newRecord, emptyEngine])]
    exact hcreate
  have husers : createUsers casing env.sid env.creatingUsers env.syncing.secret spec.name spec.users
      e = .done (.error ("" ++ host)) e := by
    unfold createUsers
    rw [userCmds_valid hkeeps hvalid]
    rfl
  refine ⟨⟨e, createdStatus env spec (reportedStatus env spec .ready newRecord.status)⟩, ?_, hmem,
    rfl⟩
  have hchecks : ¬ (validateSpec spec ≠ none ∨ ¬ env.prepared = true) := by
    simp [hvalid, env, smoothReconcile]
  rw [PdbRecord.reconcile, if_neg hchecks, hdatabase]
  change createdUsers casing env spec (reportedStatus env spec .ready newRecord.status) e = _
  rw [createdUsers, husers]
  rfl

theorem gsmResourceVersion_ne_version (ref : GsmSecretRef) :
    gsmResourceVersion ref ≠ ref.version := by
  intro h
  have hlength := congrArg String.length h
  simp only [gsmResourceVersion, String.length_append] at hlength
  have : "projects/".length = 9 := by decide
  omega

/-- Where the versions differ, the next reconcile sets the password of the admin. -/
theorem not_noAlterUser_of_changes (hkeeps : casing.Keeps) (hvalid : validateSpec spec = none)
    {hostname : Option String} {secret : String → String}
    (hsecret : ∀ v, isIdentifier (secret v) = true) {r : PdbRecord}
    (hmem : casing.toUpper spec.name ∈ r.engine.pdbs)
    (hchanges : (adminRequest (smoothReconcile hostname secret) spec
      r.status.userResourceVersions).changes = true) :
    ¬ NoAlterUser
      (PdbRecord.reconcileSends casing toLower (smoothReconcile hostname secret) spec r) := by
  let env := smoothReconcile hostname secret
  let p := buildPDB casing toLower env.cdbName spec.name
    ((adminRequest env spec r.status.userResourceVersions).pwd secret)
  have hquotable : Quotable p := quotable_buildPDB hkeeps hvalid hsecret
  have hsends : alterAdminRequest p ∈ createDatabaseSends casing toLower env
      (adminRequest env spec r.status.userResourceVersions) r.engine := by
    have hstarts : env.creating.starts (adminRequest env spec r.status.userResourceVersions) :=
      smoothCreate_starts _
    have hpdb : p.pluggableDatabaseName ∈ r.engine.pdbs := hmem
    unfold createDatabaseSends
    rw [if_neg (not_not_intro hstarts)]
    change _ ∈ if p.pluggableDatabaseName ∈ r.engine.pdbs then _ else _
    rw [if_pos hpdb, if_pos hchanges]
    change _ ∈ if (alterAdminRequest p).valid casing = true then [alterAdminRequest p] else []
    rw [if_pos (hquotable.valid hkeeps).2.2.2.2]
    exact List.mem_singleton_self _
  intro h
  have hmem : alterAdminRequest p ∈ PdbRecord.reconcileSends casing toLower env spec r := by
    unfold PdbRecord.reconcileSends
    simp only
    rw [if_neg (by simp [hvalid, env, smoothReconcile])]
    exact List.mem_append_left _ hsends
  have hquiet := h _ hmem (.alterUser pdbAdmin p.pluggableAdminPasswd) (by simp [alterAdminRequest])
  cases hquiet

theorem tigerSecret_identifier (v : String) : isIdentifier (tigerSecret v) = true := by
  change isIdentifier "tiger" = true
  decide

theorem notedAsCompared_of_setsPasswordsOnce (hkeeps : casing.Keeps)
    (hvalid : validateSpec spec = none) (h : SetsPasswordsOnce casing toLower spec) :
    NotedAsCompared spec := by
  obtain ⟨t, hreconcile, hmem, hversions⟩ :=
    reconcile_newRecord hkeeps hvalid tigerSecret_identifier "host"
  have hnot : ¬ (adminRequest (smoothReconcile (some "host") tigerSecret) spec
      t.status.userResourceVersions).changes = true := by
    intro hchanges
    exact not_noAlterUser_of_changes hkeeps hvalid tigerSecret_identifier hmem hchanges
      (h _ _ _ hreconcile _ rfl)
  have hlookup : t.status.userResourceVersions.lookup pdbAdmin =
      (notedForUser spec pdbAdmin).or (some (adminVersion spec)) := by
    rw [hversions, lookup_recordedVersions_eq, if_pos rfl, Finmap.lookup_insert]
  constructor
  · intro ref href
    by_contra hne
    apply hnot
    have hversion : ref.version ≠ valueAt t.status.userResourceVersions pdbAdmin := by
      rw [valueAt, hlookup]
      cases huser : notedForUser spec pdbAdmin with
      | none =>
        rw [adminVersion, Option.mem_def.mp href]
        exact (gsmResourceVersion_ne_version ref).symm
      | some v =>
        rw [huser] at hne
        exact fun heq => hne (congrArg some heq.symm)
    rw [changes_adminRequest, Option.mem_def.mp href]
    simp [hversion]
  · intro hpwd v hv
    by_contra hne
    apply hnot
    have hlast : valueAt t.status.userResourceVersions pdbAdmin = v := by
      rw [valueAt, hlookup, Option.mem_def.mp hv]
      rfl
    rw [changes_adminRequest, hlast]
    simp [hpwd, Ne.symm hne]

/-- A spec with fixed versions has its passwords set once, whatever fails in between, exactly if
the admin's version is noted as it is compared. -/
theorem setsPasswordsOnce_iff (hkeeps : casing.Keeps) (hvalid : validateSpec spec = none)
    (hfixed : FixedVersions spec) :
    SetsPasswordsOnce casing toLower spec ↔ NotedAsCompared spec := by
  constructor
  · exact notedAsCompared_of_setsPasswordsOnce hkeeps hvalid
  · exact setsPasswordsOnce_of_notedAsCompared hfixed

/-- An admin and a user with plaintext passwords. -/
def plainSpec : DatabaseSpec := ⟨"pdb1", "lion", none, [passwordScott]⟩

theorem plainSpec_set_once :
    (PdbRecord.reconcile asciiCasing String.toLower (smoothReconcile (some "host") tigerSecret)
        plainSpec newRecord).isSome = true ∧
      SetsPasswordsOnce asciiCasing String.toLower plainSpec := by
  have hvalid : validateSpec plainSpec = none := by decide +kernel
  have hfixed : FixedVersions plainSpec := by
    constructor
    · intro ref href
      cases href
    · intro u hu ref href
      obtain rfl : u = passwordScott := by simpa [plainSpec] using hu
      cases href
  obtain ⟨t, ht, -⟩ := reconcile_newRecord asciiCasing_keeps hvalid tigerSecret_identifier "host"
  refine ⟨Option.isSome_iff_exists.mpr ⟨t, ht⟩,
    (setsPasswordsOnce_iff asciiCasing_keeps hvalid hfixed).mpr ?_⟩
  constructor
  · intro ref href
    cases href
  · intro _ v hv
    have hnone : notedForUser plainSpec pdbAdmin = none := by decide +kernel
    rw [hnone] at hv
    cases hv

/-- The admin's password is version 3 of a secret. -/
def secretSpec : DatabaseSpec := ⟨"pdb1", "", some ⟨"p", "admin", "3"⟩, []⟩

/-- The status notes the full name of the secret, the next reconcile compares it with "3", and
the password is set again. -/
theorem secretSpec_set_again :
    validateSpec secretSpec = none ∧ FixedVersions secretSpec ∧
      ((PdbRecord.reconcile asciiCasing String.toLower (smoothReconcile none tigerSecret) secretSpec
        newRecord).any fun t => valueAt t.status.userResourceVersions pdbAdmin =
          "projects/p/secrets/admin/versions/3") = true ∧
      ¬ SetsPasswordsOnce asciiCasing String.toLower secretSpec := by
  have hrun : ((PdbRecord.reconcile asciiCasing String.toLower (smoothReconcile none tigerSecret)
      secretSpec newRecord).any fun t => valueAt t.status.userResourceVersions pdbAdmin =
          "projects/p/secrets/admin/versions/3" ∧
        ¬ NoAlterUser (PdbRecord.reconcileSends asciiCasing String.toLower
          (smoothReconcile none tigerSecret) secretSpec t)) = true := by
    decide +kernel
  rw [Option.any_eq_true] at hrun
  obtain ⟨t, ht, hrun⟩ := hrun
  obtain ⟨hversion, hnot⟩ := of_decide_eq_true hrun
  refine ⟨by decide +kernel, ⟨?_, ?_⟩, ?_, ?_⟩
  · intro ref href
    cases href
    decide +kernel
  · intro u hu
    cases hu
  · rw [Option.any_eq_true]
    exact ⟨t, ht, decide_eq_true hversion⟩
  · intro h
    exact hnot (h _ _ _ ht _ rfl)

end Due

end ElCarro.Databases
