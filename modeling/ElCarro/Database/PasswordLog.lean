import ElCarro.Database.CreateDatabase
import ElCarro.Database.Passwords

/-! # Passwords in the log of the daemon

Two runs that differ in passwords only write the same log as long as no request shows
one. Requests that set the password of a user are suppressed, and so are those of
`CreateUsers`; the statement that creates a PDB shows the password of its admin, and
the one that creates a single user the password of that user.
-/

namespace ElCarro.Databases

open K8s Api Flow Users

variable {casing : Casing} {sid : String} {req req' : Request} {o : Execution} {e : Engine}

section Lines

/-- The same to a reader of the log: as many statements, with the same texts if they are shown. -/
structure Alike (casing : Casing) (req req' : Request) : Prop where
  suppress : req.suppress = req'.suppress
  length : req.commands.length = req'.commands.length
  shown : req.suppress = false → req.commands.map (·.text casing) = req'.commands.map (·.text casing)

theorem runStatements_of_length {sts sts' : List Statement} (h : sts.length = sts'.length)
    (sql : String) (i : Nat) (c c' : String) (e e' : Engine) :
    (runStatements casing sql o i c sts e).1 = (runStatements casing sql o i c' sts' e').1 ∧
      (runStatements casing sql o i c sts e).2.2 = (runStatements casing sql o i c' sts' e').2.2 := by
  induction sts generalizing i sts' c c' e e' with
  | nil =>
    obtain rfl := List.length_eq_zero_iff.mp h.symm
    exact ⟨rfl, rfl⟩
  | cons st sts ih =>
    obtain ⟨st', sts', rfl⟩ := List.exists_cons_of_length_eq_add_one h.symm
    simp only [runStatements]
    cases o.executed i with
    | some err => exact ⟨rfl, rfl⟩
    | none =>
      cases o.output i with
      | error err => exact ⟨rfl, rfl⟩
      | ok out =>
        obtain ⟨hlines, hres⟩ := ih (Nat.succ.inj h) (i + 1) (containerAfter c st)
          (containerAfter c' st') (effect casing c e st) (effect casing c' e' st')
        exact ⟨hlines, by rw [hres]⟩

theorem log_effect {c : String} {st : Statement} : (effect casing c e st).log = e.log := by
  cases st <;> rfl

theorem log_runStatements {sql : String} {i : Nat} {c : String} {sts : List Statement} :
    (runStatements casing sql o i c sts e).2.1.log = e.log := by
  induction sts generalizing i c e with
  | nil => rfl
  | cons st sts ih =>
    simp only [runStatements]
    cases o.executed i with
    | some err =>
      simp only
      split
      · exact log_effect
      · rfl
    | none =>
      cases o.output i with
      | error err => exact log_effect
      | ok out => exact ih.trans log_effect

theorem Alike.helper (h : Alike casing req req') (sid : String) (o : Execution) (e e' : Engine) :
    (runSQLPlusHelper casing sid req o e).1 = (runSQLPlusHelper casing sid req' o e').1 ∧
      (runSQLPlusHelper casing sid req o e).2.2 = (runSQLPlusHelper casing sid req' o e').2.2 := by
  have hsql : sqlForLogging casing req = sqlForLogging casing req' := by
    unfold sqlForLogging
    rw [h.suppress]
    split
    · rfl
    · next hs => rw [h.shown (by rw [h.suppress]; simpa using hs)]
  obtain ⟨hlines, hres⟩ := runStatements_of_length (o := o) h.length (sqlForLogging casing req') 0
    "CDB$ROOT" "CDB$ROOT" e e'
  unfold runSQLPlusHelper
  cases o.opened with
  | some err => exact ⟨rfl, rfl⟩
  | none =>
    simp only [runSQL, hsql]
    cases o.enabled with
    | some err => exact ⟨rfl, rfl⟩
    | none =>
      simp only
      rw [hlines, hres]
      exact ⟨rfl, rfl⟩

theorem log_helper : (runSQLPlusHelper casing sid req o e).2.1.log = e.log := by
  unfold runSQLPlusHelper
  cases o.opened with
  | some err => rfl
  | none =>
    simp only [runSQL]
    cases o.enabled with
    | some err => rfl
    | none => exact log_runStatements

theorem Alike.requestLine (h : Alike casing req req') :
    requestLine casing sid req = requestLine casing sid req' := by
  unfold Databases.requestLine
  rw [h.suppress]
  split
  · rfl
  · next hs => rw [h.shown (by rw [h.suppress]; simpa using hs)]

theorem log_runSQLPlus : (runSQLPlus casing sid req o e).1.log =
    e.log ++ requestLine casing sid req :: (runSQLPlusHelper casing sid req o e).1 := by
  have hlog : (runSQLPlus casing sid req o e).1.log = (runSQLPlusHelper casing sid req o e).2.1.log ++
      requestLine casing sid req :: (runSQLPlusHelper casing sid req o e).1 := rfl
  rw [hlog, log_helper]

/-- Requests that look alike are answered alike, and leave the same lines in the log. -/
theorem Alike.sendSQL (h : Alike casing req req') (hv : req.valid casing = true)
    (hv' : req'.valid casing = true) (sid : String) (o : Execution) {e e' : Engine}
    (hlog : e.log = e'.log) :
    ∃ err t t', Databases.sendSQL casing sid req o e = .next err t ∧
      Databases.sendSQL casing sid req' o e' = .next err t' ∧ t.log = t'.log := by
  obtain ⟨hlines, hres⟩ := h.helper sid o e e'
  have hreply : (runSQLPlus casing sid req o e).2 = (runSQLPlus casing sid req' o e').2 := hres
  have hlogs : (runSQLPlus casing sid req o e).1.log = (runSQLPlus casing sid req' o e').1.log := by
    rw [log_runSQLPlus, log_runSQLPlus, hlog, hlines, h.requestLine]
  unfold Databases.sendSQL
  simp only [hv, hv', not_true_eq_false, if_false, hreply]
  exact ⟨_, _, _, rfl, rfl, hlogs⟩

theorem Alike.refl (req : Request) : Alike casing req req := ⟨rfl, rfl, fun _ => rfl⟩

/-- The log of a request starts with the line about the request. -/
theorem sendSQL_requestLine (hv : req.valid casing = true) (sid : String) (o : Execution)
    (e : Engine) : ∃ err t rest,
    sendSQL casing sid req o e = .next err t ∧ t.log = e.log ++ requestLine casing sid req :: rest := by
  unfold sendSQL
  simp only [hv, not_true_eq_false, if_false]
  exact ⟨_, _, _, rfl, log_runSQLPlus⟩

end Lines

section Operations

/-- What is done about a PDB or about a user, with passwords. -/
inductive Operation (casing : Casing) where
  | createDatabase (req : CreateDatabaseRequest)
  | createUsers (pdbName : String) (users : List UserSpec)
  | createUser (databaseName : String) (u : DbUser casing)
  | changePassword (databaseName : String) (u : DbUser casing)

/-- What an operation meets: the outcomes of all calls, and what the PDB lists. -/
structure OperationEnv where
  creating : CreateEnv
  creatingUsers : CreateUsersEnv
  reading : Users.Env
  accounts : Accounts
  statement : Execution

variable (sid : String) (toLower : String → String) (env : OperationEnv) (secret : String → String)

def createUser (databaseName : String) (u : DbUser casing) : Agent Unit := do
  let err ← sendSQL casing sid (u.createRequest databaseName) env.statement
  orFail ("failed to create user " ++ u.userName ++ ": ") err

def updateUserPassword (databaseName : String) (u : DbUser casing) : Agent Unit :=
  match u.diff secret env.reading .check env.accounts with
  | none => finish (.error ("failed to get diff to update user " ++ u.userName))
  | some d =>
    when d.toUpdatePwd (do
      let err ← sendSQL casing sid (d.user.passwordRequest databaseName) env.statement
      orFail ("failed to alter user " ++ u.userName ++ ": ") err)

/-- The log of the daemon after an operation. -/
def Operation.log (e : Engine) : Operation casing → List LogLine
  | .createDatabase req =>
    (Databases.createDatabase casing sid env.creating toLower secret req e).state.log
  | .createUsers pdbName users =>
    (Databases.createUsers casing sid env.creatingUsers secret pdbName users e).state.log
  | .createUser databaseName u => (Databases.createUser sid env databaseName u e).state.log
  | .changePassword databaseName u =>
    (updateUserPassword sid env secret databaseName u e).state.log

/-- The entries differ in the password at most, if they have one. -/
structure SameEntry (u v : UserSpec) : Prop where
  name : u.name = v.name
  privileges : u.privileges = v.privileges
  gsmSecretRef : u.gsmSecretRef = v.gsmSecretRef
  password : u.password = "" ↔ v.password = ""

structure SameUser (u v : DbUser casing) : Prop where
  userName : u.userName = v.userName
  specPrivs : u.specPrivs = v.specPrivs
  gsmSecNewVer : u.gsmSecNewVer = v.gsmSecNewVer
  gsmSecCurVer : u.gsmSecCurVer = v.gsmSecCurVer

/-- The operations differ in password values only. -/
inductive SameButPasswords : Operation casing → Operation casing → Prop where
  | createDatabase {x y : CreateDatabaseRequest} (name : x.name = y.name)
      (cdbName : x.cdbName = y.cdbName)
      (secretRef : x.adminPasswordGsmSecretRef = y.adminPasswordGsmSecretRef) :
      SameButPasswords (.createDatabase x) (.createDatabase y)
  | createUsers {pdbName : String} {us vs : List UserSpec} (h : List.Forall₂ SameEntry us vs) :
      SameButPasswords (.createUsers pdbName us) (.createUsers pdbName vs)
  | createUser {databaseName : String} {u v : DbUser casing} (h : SameUser u v) :
      SameButPasswords (.createUser databaseName u) (.createUser databaseName v)
  | changePassword {databaseName : String} {u v : DbUser casing} (h : SameUser u v) :
      SameButPasswords (.changePassword databaseName u) (.changePassword databaseName v)

/-- The texts with the passwords can be built. -/
def Operation.Quotable : Operation casing → Prop
  | .createDatabase req =>
    let p := buildPDB casing toLower req.cdbName req.name (req.pwd secret)
    (createPDBRequest p).valid casing = true ∧ (alterAdminRequest p).valid casing = true
  | .createUsers pdbName users =>
    isIdentifier (casing.toUpper (casing.toUpper pdbName)) = true ∧
      (plaintextCmds users ++ grantCmds users).all (·.valid casing) = true ∧
      ∀ u ∈ users, isIdentifier (casing.toUpper u.name) = true ∧
        ∀ ref ∈ u.gsmSecretRef, isIdentifier (secret (gsmResourceVersion ref)) = true
  | .createUser databaseName u => (u.createRequest databaseName).valid casing = true
  | .changePassword databaseName u =>
    ((u.withSecret secret).passwordRequest databaseName).valid casing = true

/-- A run of `CreateDatabase` gets as far as to know whether the PDB is there. -/
def CreateEnv.starts (env : CreateEnv) (req : CreateDatabaseRequest) : Prop :=
  (req.toUpdateGsmAdminPwd = true → env.accessSecret = none) ∧ env.hostname = none ∧
    env.newClient = none ∧ env.checkDatabaseState = none ∧ env.checkPDB = none

/-- The password of the admin is to be set. -/
def CreateDatabaseRequest.changes (req : CreateDatabaseRequest) : Bool :=
  req.toUpdateGsmAdminPwd || req.toUpdatePlaintextAdminPwd

/-- The version of the user's password can be compared, and the secret read if it is due. -/
def Readable (env : Users.Env) (u : DbUser casing) : Prop :=
  env.call (.readPrivs .check u.userName) = true ∧
    (u.toUpdateGsmPwd = true → env.call (.accessSecret .check u.gsmSecNewVer) = true)

/-- Nothing shows the passwords by which two operations differ: the admin's is not part of a
statement that creates the PDB, no single user is created, and the two agree on whether a
password is due. -/
def Hidden (secret' : String → String) (e : Engine) : Operation casing → Operation casing → Prop
  | .createDatabase x, .createDatabase y =>
    env.creating.starts x →
      (casing.toUpper x.name ∈ e.pdbs → x.changes = y.changes) ∧
      (casing.toUpper x.name ∉ e.pdbs → env.creating.createDirs = none → x.pwd secret = y.pwd secret')
  | .createUser _ u, .createUser _ v => u.newPassword = v.newPassword
  | .changePassword _ u, .changePassword _ v =>
    Readable env.reading u → u.asks = v.asks
  | _, _ => True

end Operations

section Runs

variable {toLower : String → String} {env : OperationEnv} {secret secret' : String → String}

theorem wp_orFail {c : String} {err : Option String} {Q : Unit → Engine → Prop}
    {R : Failure → Engine → Prop} :
    wp (orFail c err) Q R e ↔ (err = none → Q () e) ∧ ∀ m, err = some m → R (.error (c ++ m)) e := by
  cases err with
  | none => simp [orFail]
  | some m => simp [orFail]

/-- A run that does not get to the PDB ends with an error and changes nothing. -/
theorem wp_createDatabase_of_not_starts {env : CreateEnv} {req : CreateDatabaseRequest}
    (h : ¬ env.starts req) : wp (createDatabase casing sid env toLower secret req)
      (fun _ _ => False) (fun _ t => t = e) e := by
  unfold createDatabase
  simp only [wp_bind, wp_when, wp_orFail, wp_get, implies_true, and_true]
  constructor
  · intro hg hsecret hhost hclient hstate hpdb
    exact absurd ⟨fun _ => hsecret, hhost, hclient, hstate, hpdb⟩ h
  · intro hg hhost hclient hstate hpdb
    exact absurd ⟨fun hg' => absurd hg' hg, hhost, hclient, hstate, hpdb⟩ h

theorem createDatabase_of_not_starts {env : CreateEnv} {req : CreateDatabaseRequest}
    (h : ¬ env.starts req) : (createDatabase casing sid env toLower secret req e).state = e := by
  apply wp.state (P := fun t => t = e)
  exact (wp_createDatabase_of_not_starts h).mono (fun _ _ => False.elim) fun _ _ h => h

theorem createDatabase_of_starts {env : CreateEnv} {req : CreateDatabaseRequest}
    (h : env.starts req) : createDatabase casing sid env toLower secret req e =
      if casing.toUpper req.name ∈ e.pdbs then
        syncAdmin casing sid env req.changes
          (buildPDB casing toLower req.cdbName req.name (req.pwd secret)) e
      else createNew casing sid env
        (buildPDB casing toLower req.cdbName req.name (req.pwd secret)) e := by
  obtain ⟨hsecret, hhost, hclient, hstate, hpdb⟩ := h
  have hwhen : ∀ c, when (req.toUpdateGsmAdminPwd = true) (orFail c env.accessSecret) = pure () := by
    intro c
    unfold when
    split
    · next hg => rw [hsecret hg]; rfl
    · rfl
  unfold createDatabase
  rw [hwhen, hhost, hclient, hstate, hpdb]
  change (if casing.toUpper req.name ∈ e.pdbs then _ else _ : Agent CreateDatabaseStatus) e = _
  split
  · rfl
  · rfl

/-- Lines are only added to the log. -/
def Grows (e t : Engine) : Prop := e.log <+: t.log

instance : Std.Refl Grows := ⟨fun _ => List.prefix_rfl⟩

instance : IsTrans Engine Grows := ⟨fun _ _ _ => List.IsPrefix.trans⟩

theorem within_sendSQL : Within Grows (sendSQL casing sid req o) := by
  intro e
  unfold wp
  cases hv : req.valid casing with
  | true =>
    obtain ⟨err, t, rest, heq, hlog⟩ := sendSQL_requestLine hv sid o e
    rw [heq]
    exact ⟨_, hlog.symm⟩
  | false =>
    unfold sendSQL
    simp only [hv, Bool.false_eq_true, not_false_eq_true, if_true]
    exact List.prefix_rfl

theorem within_orFail {c : String} {err : Option String} : Within Grows (orFail c err) := by
  intro e
  exact wp_orFail.mpr ⟨fun _ => List.prefix_rfl, fun _ _ => List.prefix_rfl⟩

theorem append_identifier_inj {before after a b : String}
    (h : before ++ identifier a ++ after = before ++ identifier b ++ after) : a = b := by
  simpa [identifier] using h

theorem eq_of_append_identifier (before : String) {a b : String}
    (h : before ++ identifier a = before ++ identifier b) : a = b := by
  simpa [identifier] using h

/-- Send a request about a password that is due. -/
def whenDue (casing : Casing) (sid : String) (b : Bool) (context : String) (req : Request)
    (o : Execution) : Agent Unit :=
  when (b = true) (do
    let err ← sendSQL casing sid req o
    orFail context err)

theorem whenDue_true {c : String} {err : Option String} {t : Engine}
    (h : sendSQL casing sid req o e = .next err t) : (whenDue casing sid true c req o e).state = t := by
  change ((sendSQL casing sid req o >>= orFail c) e).state = t
  rw [bind_next h]
  cases err <;> rfl

/-- Of requests that look alike the log shows whether they are due, and no more. -/
theorem log_whenDue_iff {b b' : Bool} {c c' : String} (halike : Alike casing req req')
    (hv : req.valid casing = true) (hv' : req'.valid casing = true) :
    (whenDue casing sid b c req o e).state.log = (whenDue casing sid b' c' req' o e).state.log ↔
      b = b' := by
  obtain ⟨err, t, t', hsend, hsend', hlog⟩ := halike.sendSQL hv hv' sid o (rfl : e.log = e.log)
  have hlonger : t.log ≠ e.log := by
    intro heq
    obtain ⟨_, _, rest, hsame, hrest⟩ := sendSQL_requestLine hv sid o e
    obtain ⟨-, rfl⟩ := Res.next.inj (hsend.symm.trans hsame)
    simp [hrest] at heq
  have hfalse : ∀ {c : String} {r : Request}, (whenDue casing sid false c r o e).state = e := rfl
  cases b with
  | false =>
    cases b' with
    | false => simp [hfalse]
    | true => simpa [hfalse, whenDue_true hsend', ← hlog] using hlonger.symm
  | true =>
    cases b' with
    | false => simpa [hfalse, whenDue_true hsend] using hlonger
    | true => simp [whenDue_true hsend, whenDue_true hsend', hlog]

section Pdb

variable {env : CreateEnv} {p q : Pdb}

/-- The first request shows the password. -/
theorem createNew_requestLine (hdirs : env.createDirs = none)
    (hv : (createPDBRequest p).valid casing = true) (sid : String) (e : Engine) : ∃ rest,
    (createNew casing sid env p e).state.log =
      e.log ++ requestLine casing sid (createPDBRequest p) :: rest := by
  obtain ⟨err, t, rest, hsend, hlog⟩ := sendSQL_requestLine hv sid env.createPDB e
  have hgrows : Grows t (createNew casing sid env p e).state := by
    unfold createNew
    rw [hdirs]
    change Grows t ((sendSQL casing sid (createPDBRequest p) env.createPDB >>= _) e).state
    rw [bind_next hsend]
    apply wp.state
    refine Within.bind within_orFail (fun _ => ?_) t
    apply Within.bind within_sendSQL
    intro _
    apply Within.bind within_orFail
    intro _
    apply Within.bind within_sendSQL
    intro _
    apply Within.bind within_sendSQL
    intro _
    exact Within.pure _
  obtain ⟨more, hmore⟩ := hgrows
  exact ⟨rest ++ more, by rw [← hmore, hlog]; simp⟩

theorem createNew_of_createDirs {err : String} (hdirs : env.createDirs = some err) :
    (createNew casing sid env p e).state = e := by
  unfold createNew
  rw [hdirs]
  rfl

theorem pwd_of_requestLine (hsame : q = { p with pluggableAdminPasswd := q.pluggableAdminPasswd })
    (h : requestLine casing sid (createPDBRequest p) = requestLine casing sid (createPDBRequest q)) :
    p.pluggableAdminPasswd = q.pluggableAdminPasswd := by
  have htext : (Statement.createPDB p).text casing = (Statement.createPDB q).text casing := by
    simpa [requestLine, createPDBRequest] using h
  rw [hsame] at htext
  exact append_identifier_inj htext

theorem syncAdmin_state {b : Bool} : (syncAdmin casing sid env b p e).state =
    (whenDue casing sid b ("failed to alter user " ++ pdbAdmin ++ ": ") (alterAdminRequest p)
      env.alterAdmin e).state := by
  cases b with
  | false => rfl
  | true =>
    change ((sendSQL casing sid (alterAdminRequest p) env.alterAdmin >>= fun err => do
      orFail ("failed to alter user " ++ pdbAdmin ++ ": ") err
      pure CreateDatabaseStatus.adminUserSyncCompleted) e).state =
        ((sendSQL casing sid (alterAdminRequest p) env.alterAdmin >>= fun err =>
          orFail ("failed to alter user " ++ pdbAdmin ++ ": ") err) e).state
    cases h : sendSQL casing sid (alterAdminRequest p) env.alterAdmin e with
    | next err t =>
      rw [bind_next h, bind_next h]
      cases err <;> rfl
    | done r t => rw [bind_done h, bind_done h]; rfl

theorem alike_alterAdminRequest : Alike casing (alterAdminRequest p) (alterAdminRequest q) :=
  ⟨rfl, rfl, fun h => Bool.noConfusion h⟩

/-- A PDB is created with the password in the log, once its directories are there. -/
theorem log_createNew_iff (hsame : q = { p with pluggableAdminPasswd := q.pluggableAdminPasswd })
    (hp : (createPDBRequest p).valid casing = true) (hq : (createPDBRequest q).valid casing = true) :
    (createNew casing sid env p e).state.log = (createNew casing sid env q e).state.log ↔
      (env.createDirs = none → p.pluggableAdminPasswd = q.pluggableAdminPasswd) := by
  cases hdirs : env.createDirs with
  | some err => simp [createNew_of_createDirs hdirs]
  | none =>
    constructor
    · intro h _
      obtain ⟨rest, hrest⟩ := createNew_requestLine hdirs hp sid e
      obtain ⟨rest', hrest'⟩ := createNew_requestLine hdirs hq sid e
      rw [hrest, hrest', List.append_cancel_left_eq, List.cons.injEq] at h
      exact pwd_of_requestLine hsame h.1
    · intro h
      rw [hsame, ← h rfl]

end Pdb

theorem log_createDatabase_iff {x y : CreateDatabaseRequest} (hname : x.name = y.name)
    (hcdb : x.cdbName = y.cdbName) (href : x.adminPasswordGsmSecretRef = y.adminPasswordGsmSecretRef)
    (hx : (Operation.createDatabase x : Operation casing).Quotable toLower secret)
    (hy : (Operation.createDatabase y : Operation casing).Quotable toLower secret') :
    (Operation.createDatabase x : Operation casing).log sid toLower env secret e =
        (Operation.createDatabase y : Operation casing).log sid toLower env secret' e ↔
      Hidden env secret secret' e (.createDatabase x : Operation casing) (.createDatabase y) := by
  have hgsm : x.toUpdateGsmAdminPwd = y.toUpdateGsmAdminPwd := by
    simp only [CreateDatabaseRequest.toUpdateGsmAdminPwd, href]
  have hstarts : env.creating.starts x ↔ env.creating.starts y := by
    simp only [CreateEnv.starts, hgsm]
  simp only [Operation.log, Hidden]
  by_cases hs : env.creating.starts x
  · rw [createDatabase_of_starts hs, createDatabase_of_starts (hstarts.mp hs), ← hname, ← hcdb]
    rw [Operation.Quotable, ← hname, ← hcdb] at hy
    by_cases hmem : casing.toUpper x.name ∈ e.pdbs
    · rw [if_pos hmem, if_pos hmem, syncAdmin_state, syncAdmin_state,
        log_whenDue_iff alike_alterAdminRequest hx.2 hy.2]
      simp [hs, hmem]
    · have hsame : buildPDB casing toLower x.cdbName x.name (y.pwd secret') =
          { buildPDB casing toLower x.cdbName x.name (x.pwd secret) with
            pluggableAdminPasswd := y.pwd secret' } := rfl
      rw [if_neg hmem, if_neg hmem, log_createNew_iff hsame hx.1 hy.1]
      simp [hs, hmem, buildPDB]
  · rw [createDatabase_of_not_starts hs, createDatabase_of_not_starts (mt hstarts.mpr hs)]
    simp [hs]

section Users

variable {databaseName : String} {u v : DbUser casing}

theorem createUser_state {err : Option String} {t : Engine}
    (h : sendSQL casing sid (u.createRequest databaseName) env.statement e = .next err t) :
    (createUser sid env databaseName u e).state = t := by
  unfold createUser
  rw [bind_next h]
  cases err <;> rfl

theorem log_createUser_iff (hsame : SameUser u v)
    (hu : (u.createRequest databaseName).valid casing = true)
    (hv : (v.createRequest databaseName).valid casing = true) :
    (createUser sid env databaseName u e).state.log = (createUser sid env databaseName v e).state.log ↔
      u.newPassword = v.newPassword := by
  obtain ⟨err, t, rest, hsend, hlog⟩ := sendSQL_requestLine hu sid env.statement e
  obtain ⟨err', t', rest', hsend', hlog'⟩ := sendSQL_requestLine hv sid env.statement e
  constructor
  · intro h
    rw [createUser_state hsend, createUser_state hsend', hlog, hlog', List.append_cancel_left_eq,
      List.cons.injEq] at h
    have htexts : (u.createRequest databaseName).commands.map (·.text casing) =
        (v.createRequest databaseName).commands.map (·.text casing) := by
      simpa [requestLine, DbUser.createRequest] using h.1
    simp only [DbUser.createRequest, List.map_cons, List.cons.injEq, hsame.userName] at htexts
    exact eq_of_append_identifier
      ("create user " ++ objectName casing v.userName ++ " identified by ") htexts.2.1
  · intro h
    have hreq : u.createRequest databaseName = v.createRequest databaseName := by
      simp only [DbUser.createRequest, hsame.userName, hsame.specPrivs, h]
    unfold createUser
    rw [hreq]
    obtain ⟨err, t, -, h, -⟩ := sendSQL_requestLine hv sid env.statement e
    rw [bind_next h, bind_next h]
    cases err <;> rfl

theorem isSome_diff_iff {env : Users.Env} {a : Accounts} :
    (u.diff secret env .check a).isSome = true ↔ Readable env u := by
  unfold DbUser.diff Readable
  simp only
  split
  · next hread => simp [hread]
  · next hread =>
    simp only [not_not] at hread
    simp only [hread, true_and]
    split
    · split
      · next hgsm hsecret => simp [hsecret]
      · next hgsm hsecret => simp [hgsm, hsecret]
    · next hgsm => simp [hgsm]

/-- A user whose password cannot be compared is left alone. -/
theorem updateUserPassword_of_not_readable (h : ¬ Readable env.reading u) :
    (updateUserPassword sid env secret databaseName u e).state = e := by
  have hnone : u.diff secret env.reading .check env.accounts = none := by
    rw [← Option.not_isSome_iff_eq_none]
    exact mt isSome_diff_iff.mp h
  unfold updateUserPassword
  rw [hnone]
  rfl

theorem updateUserPassword_of_readable (h : Readable env.reading u) :
    updateUserPassword sid env secret databaseName u =
      whenDue casing sid u.asks ("failed to alter user " ++ u.userName ++ ": ")
        ((u.withSecret secret).passwordRequest databaseName) env.statement := by
  obtain ⟨d, hd⟩ : ∃ d, u.diff secret env.reading .check env.accounts = some d :=
    Option.isSome_iff_exists.mp (isSome_diff_iff.mpr h)
  unfold updateUserPassword
  rw [hd]
  obtain rfl := diff_eq_some hd
  rfl

theorem alike_passwordRequest :
    Alike casing (u.passwordRequest databaseName) (v.passwordRequest databaseName) :=
  ⟨rfl, rfl, fun h => Bool.noConfusion h⟩

theorem log_updateUserPassword_iff (hsame : SameUser u v)
    (hu : ((u.withSecret secret).passwordRequest databaseName).valid casing = true)
    (hv : ((v.withSecret secret').passwordRequest databaseName).valid casing = true) :
    (updateUserPassword sid env secret databaseName u e).state.log =
        (updateUserPassword sid env secret' databaseName v e).state.log ↔
      (Readable env.reading u → u.asks = v.asks) := by
  have hgsm : u.toUpdateGsmPwd = v.toUpdateGsmPwd := by
    simp only [DbUser.toUpdateGsmPwd, hsame.gsmSecNewVer, hsame.gsmSecCurVer]
  have hreadable : Readable env.reading u ↔ Readable env.reading v := by
    simp only [Readable, hgsm, hsame.userName, hsame.gsmSecNewVer]
  by_cases hr : Readable env.reading u
  · rw [updateUserPassword_of_readable hr, updateUserPassword_of_readable (hreadable.mp hr),
      log_whenDue_iff alike_passwordRequest hu hv]
    simp [hr]
  · rw [updateUserPassword_of_not_readable hr,
      updateUserPassword_of_not_readable (mt hreadable.mpr hr)]
    simp [hr]

/-- The secrets of a list of entries can be quoted, and so can the names. -/
def QuotableSecrets (casing : Casing) (secret : String → String) (us : List UserSpec) : Prop :=
  ∀ u ∈ us, isIdentifier (casing.toUpper u.name) = true ∧
    ∀ ref ∈ u.gsmSecretRef, isIdentifier (secret (gsmResourceVersion ref)) = true

section Secrets

variable {env : CreateUsersEnv} {entry : UserSpec} {entries : List UserSpec} {ref : GsmSecretRef}

theorem secretCmds_cons_skip (h : entry.gsmSecretRef = none ∨ entry.name = "") :
    secretCmds env secret (entry :: entries) = secretCmds env secret entries := by
  rw [secretCmds]
  cases href : entry.gsmSecretRef with
  | none => rfl
  | some ref =>
    have hname : entry.name = "" := by simpa [href] using h
    simp only [hname, if_true]

variable (href : entry.gsmSecretRef = some ref) (hname : entry.name ≠ "")

include href hname

theorem secretCmds_cons_missing {err : String}
    (h : env.accessSecret (gsmResourceVersion ref) = some err) :
    secretCmds env secret (entry :: entries) e =
      .done (.error ("config_agent_helpers/CreateUsers: failed to retrieve secret from " ++
        "Google Secret Manager: " ++ err)) e := by
  rw [secretCmds, href]
  simp only [hname, if_false]
  rw [h]
  rfl

theorem secretCmds_cons (h : env.accessSecret (gsmResourceVersion ref) = none)
    (hquoted : isIdentifier (secret (gsmResourceVersion ref)) = true) :
    secretCmds env secret (entry :: entries) = (do
      let cmds ← secretCmds env secret entries
      pure (.createUser entry.name (secret (gsmResourceVersion ref)) :: cmds)) := by
  rw [secretCmds, href]
  simp only [hname, if_false]
  unfold when
  rw [h, if_neg (by simp [hquoted])]
  rfl

end Secrets

/-- The secrets are all read, or one of them is missing, in both runs. -/
theorem secretCmds_same {env : CreateUsersEnv} {us vs : List UserSpec}
    (h : List.Forall₂ SameEntry us vs) (hus : QuotableSecrets casing secret us)
    (hvs : QuotableSecrets casing secret' vs) :
    (∃ cmds cmds', secretCmds env secret us e = .next cmds e ∧
        secretCmds env secret' vs e = .next cmds' e ∧ cmds.length = cmds'.length ∧
        cmds.all (·.valid casing) = true ∧ cmds'.all (·.valid casing) = true) ∨
      ∃ r, secretCmds env secret us e = .done r e ∧ secretCmds env secret' vs e = .done r e := by
  induction h with
  | nil => exact .inl ⟨[], [], rfl, rfl, rfl, rfl, rfl⟩
  | @cons u v us vs hsame _ ih =>
    have ih := ih (fun w hw => hus w (List.mem_cons_of_mem _ hw))
      fun w hw => hvs w (List.mem_cons_of_mem _ hw)
    by_cases hskip : u.gsmSecretRef = none ∨ u.name = ""
    · rw [secretCmds_cons_skip hskip,
        secretCmds_cons_skip (by rwa [← hsame.gsmSecretRef, ← hsame.name])]
      exact ih
    · simp only [not_or] at hskip
      obtain ⟨ref, href⟩ := Option.ne_none_iff_exists'.mp hskip.1
      have href' : v.gsmSecretRef = some ref := hsame.gsmSecretRef ▸ href
      have hname' : v.name ≠ "" := hsame.name ▸ hskip.2
      obtain ⟨hid, hquoted⟩ := hus u List.mem_cons_self
      obtain ⟨hid', hquoted'⟩ := hvs v List.mem_cons_self
      cases hsecret : env.accessSecret (gsmResourceVersion ref) with
      | some err =>
        exact .inr ⟨_, secretCmds_cons_missing href hskip.2 hsecret,
          secretCmds_cons_missing href' hname' hsecret⟩
      | none =>
        rw [secretCmds_cons href hskip.2 hsecret (hquoted ref href),
          secretCmds_cons href' hname' hsecret (hquoted' ref href')]
        rcases ih with ⟨cmds, cmds', heq, heq', hlen, hall, hall'⟩ | ⟨r, heq, heq'⟩
        · refine .inl ⟨_, _, bind_next heq, bind_next heq', by simpa using hlen, ?_, ?_⟩
          · rw [List.all_cons, hall, Bool.and_true]
            exact (Bool.and_eq_true _ _).mpr ⟨hid, hquoted ref href⟩
          · rw [List.all_cons, hall', Bool.and_true]
            exact (Bool.and_eq_true _ _).mpr ⟨hid', hquoted' ref href'⟩
        · exact .inr ⟨r, bind_done heq, bind_done heq'⟩

theorem length_plaintextCmds {us vs : List UserSpec} (h : List.Forall₂ SameEntry us vs) :
    (plaintextCmds us).length = (plaintextCmds vs).length := by
  induction h with
  | nil => rfl
  | cons hsame _ ih =>
    simp only [plaintextCmds, List.filter_cons, hsame.password, ne_eq, List.length_map] at ih ⊢
    split
    · rw [List.length_cons, List.length_cons, ih]
    · exact ih

theorem grantCmds_same {us vs : List UserSpec} (h : List.Forall₂ SameEntry us vs) :
    grantCmds us = grantCmds vs := by
  induction h with
  | nil => rfl
  | cons hsame _ ih =>
    simp only [grantCmds, List.flatMap_cons, hsame.privileges, hsame.name] at ih ⊢
    rw [ih]

/-- `CreateUsers` once its texts are built and the checks are passed. -/
theorem createUsers_state {env : CreateUsersEnv} {pdbName : String} {us : List UserSpec}
    (hall : (plaintextCmds us ++ grantCmds us).all (·.valid casing) = true) :
    (createUsers casing sid env secret pdbName us e).state =
      if env.hostname = none ∧ env.newClient = none ∧ env.checkDatabaseState = none then
        ((secretCmds env secret us >>= runUserCmds casing sid env pdbName us) e).state
      else e := by
  unfold createUsers when
  rw [if_neg (by rw [hall]; decide)]
  cases env.hostname with
  | some err => rfl
  | none =>
    cases env.newClient with
    | some err => rfl
    | none =>
      cases env.checkDatabaseState with
      | some err => rfl
      | none => rfl

theorem log_runUserCmds_same {env : CreateUsersEnv} {pdbName : String} {us vs : List UserSpec}
    {cmds cmds' : List Statement} (h : List.Forall₂ SameEntry us vs)
    (hlen : cmds.length = cmds'.length)
    (hpdb : (Statement.setSessionContainer (casing.toUpper pdbName)).valid casing = true)
    (hus : (plaintextCmds us).all (·.valid casing) = true)
    (hvs : (plaintextCmds vs).all (·.valid casing) = true)
    (hgrants : (grantCmds us).all (·.valid casing) = true)
    (hcmds : cmds.all (·.valid casing) = true) (hcmds' : cmds'.all (·.valid casing) = true) :
    (runUserCmds casing sid env pdbName us cmds e).state.log =
      (runUserCmds casing sid env pdbName vs cmds' e).state.log := by
  have halike : Alike casing
      ⟨.setSessionContainer (casing.toUpper pdbName) :: plaintextCmds us ++ cmds, true⟩
      ⟨.setSessionContainer (casing.toUpper pdbName) :: plaintextCmds vs ++ cmds', true⟩ :=
    ⟨rfl, by simp [length_plaintextCmds h, hlen], fun h => Bool.noConfusion h⟩
  obtain ⟨err, t, t', hsend, hsend', hlog⟩ := halike.sendSQL
    (by simp only [Request.valid, List.cons_append, List.all_cons, List.all_append, hpdb, hus, hcmds,
      Bool.and_self])
    (by simp only [Request.valid, List.cons_append, List.all_cons, List.all_append, hpdb, hvs, hcmds',
      Bool.and_self]) sid env.users (rfl : e.log = e.log)
  unfold runUserCmds
  rw [bind_next hsend, bind_next hsend', ← grantCmds_same h]
  cases err with
  | some err => exact hlog
  | none =>
    have hv : Request.valid casing
        ⟨.setSessionContainer (casing.toUpper pdbName) :: grantCmds us, false⟩ = true := by
      simp only [Request.valid, List.all_cons, hpdb, hgrants, Bool.and_self]
    obtain ⟨err, r, r', hgrant, hgrant', hlog⟩ := (Alike.refl _).sendSQL hv hv sid env.privs hlog
    change ((sendSQL casing sid _ env.privs >>= _) t).state.log =
      ((sendSQL casing sid _ env.privs >>= _) t').state.log
    rw [bind_next hgrant, bind_next hgrant']
    cases err <;> exact hlog

/-- Users that come with a PDB are created by suppressed requests. -/
theorem log_createUsers_same {env : CreateUsersEnv} {pdbName : String} {us vs : List UserSpec}
    (h : List.Forall₂ SameEntry us vs)
    (hus : (Operation.createUsers pdbName us : Operation casing).Quotable toLower secret)
    (hvs : (Operation.createUsers pdbName vs : Operation casing).Quotable toLower secret') :
    (createUsers casing sid env secret pdbName us e).state.log =
      (createUsers casing sid env secret' pdbName vs e).state.log := by
  obtain ⟨hpdb, hall, hquoted⟩ := hus
  obtain ⟨-, hall', hquoted'⟩ := hvs
  rw [createUsers_state hall, createUsers_state hall']
  split
  · rcases secretCmds_same (e := e) h hquoted hquoted' with
      ⟨cmds, cmds', heq, heq', hlen, hcmds, hcmds'⟩ | ⟨r, heq, heq'⟩
    · rw [bind_next heq, bind_next heq']
      rw [List.all_append, Bool.and_eq_true] at hall hall'
      exact log_runUserCmds_same h hlen hpdb hall.1 hall'.1 hall.2 hcmds hcmds'
    · rw [bind_done heq, bind_done heq']
  · rfl

end Users

/-- Two runs that differ in passwords only, and meet the same outcomes, write the same log
exactly if nothing they show depends on a password. -/
theorem log_eq_iff_hidden {x y : Operation casing} (h : SameButPasswords x y)
    (hx : x.Quotable toLower secret) (hy : y.Quotable toLower secret') :
    x.log sid toLower env secret e = y.log sid toLower env secret' e ↔
      Hidden env secret secret' e x y := by
  cases h with
  | createDatabase hname hcdb href => exact log_createDatabase_iff hname hcdb href hx hy
  | createUsers h => exact iff_of_true (log_createUsers_same h hx hy) trivial
  | createUser h => exact log_createUser_iff h hx hy
  | changePassword h => exact log_updateUserPassword_iff h hx hy

end Runs

section Samples

/-- Everything succeeds, without output. -/
def smoothly : Execution := ⟨none, none, none, fun _ => none, false, fun _ => .ok [], none, none⟩

def smoothCreate : CreateEnv :=
  ⟨none, none, none, none, none, none, smoothly, smoothly, smoothly, smoothly, smoothly⟩

def smoothEnv : OperationEnv where
  creating := smoothCreate
  creatingUsers := ⟨none, none, none, fun _ => none, smoothly, smoothly⟩
  reading := everyCall
  accounts := sampleAccounts
  statement := smoothly

def emptyEngine : Engine := ⟨[], fun _ => newPdbState, []⟩

def scottWith (password : String) : DbUser asciiCasing :=
  newUser asciiCasing ⟨"scott", password, [], none, "tiger"⟩

def adminWith (password : String) : CreateDatabaseRequest := ⟨"pdb1", "GCLOUD", password, "", none⟩

/-- The log of an operation in which everything succeeds. -/
def sampleLog (op : Operation asciiCasing) : List LogLine :=
  op.log "GCLOUD" String.toLower smoothEnv (fun _ => "") emptyEngine

theorem scott_changes_password :
    sampleLog (.changePassword "PDB1" (scottWith "lion")) =
      sampleLog (.changePassword "PDB1" (scottWith "bear")) := by
  have hsame : SameButPasswords (.changePassword "PDB1" (scottWith "lion"))
      (.changePassword "PDB1" (scottWith "bear")) := .changePassword ⟨rfl, rfl, rfl, rfl⟩
  have hlion : (Operation.changePassword "PDB1" (scottWith "lion")).Quotable String.toLower
      (fun _ => "") := by
    unfold Operation.Quotable
    decide +kernel
  have hbear : (Operation.changePassword "PDB1" (scottWith "bear")).Quotable String.toLower
      (fun _ => "") := by
    unfold Operation.Quotable
    decide +kernel
  exact (log_eq_iff_hidden hsame hlion hbear).mpr fun _ => by decide +kernel

/-- The log shows the password of a user that is created, and that of the admin of a new PDB. -/
theorem passwords_shown :
    (SameButPasswords (.createUser "PDB1" (scottWith "lion")) (.createUser "PDB1" (scottWith "bear")) ∧
      sampleLog (.createUser "PDB1" (scottWith "lion")) ≠
        sampleLog (.createUser "PDB1" (scottWith "bear"))) ∧
    SameButPasswords (.createDatabase (adminWith "lion") : Operation asciiCasing)
        (.createDatabase (adminWith "bear")) ∧
      sampleLog (.createDatabase (adminWith "lion")) ≠
        sampleLog (.createDatabase (adminWith "bear")) := by
  refine ⟨⟨.createUser ⟨rfl, rfl, rfl, rfl⟩, ?_⟩, .createDatabase rfl rfl rfl, ?_⟩
  · decide +kernel
  · decide +kernel

end Samples

end ElCarro.Databases
