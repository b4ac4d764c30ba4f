import ElCarro.Backup.Reconcile
import ElCarro.Database.Users

/-! # Verification of the settings of a standby

Five tasks ask the daemon and the primary database. A task reports what it finds wrong
with the settings in a list of errors, and an error that it returns ends the sequence.
The caller only gets the list.
-/

namespace ElCarro.StandbyDR

open Flow
open Backups (Contains)
open Databases.Users (Casing)

section Types

inductive StandbySettingErrType where
  | unknown | connectionFailure | incompatibleDatabaseVersion | insufficientPrivilege
  | invalidLoggingSetup | invalidDBParam | invalidServiceImage | invalidCDBName | internalError
  deriving DecidableEq, Repr

structure StandbySettingErr where
  type : StandbySettingErrType
  detail : String
  deriving DecidableEq, Repr

structure Primary where
  host : String
  port : Int
  service : String
  deriving DecidableEq, Repr

structure Standby where
  cdbName : String
  version : String
  deriving DecidableEq, Repr

inductive Query where
  | dbVersion | dbParams | dbName | forceLogging | logMode
  deriving DecidableEq, Repr

def Query.sql : Query → String
  | .dbVersion => "select banner from v$version where banner like 'Oracle%'"
  | .forceLogging => "select force_logging from v$database"
  | .logMode => "select log_mode from v$database"
  | .dbName => "select value from v$parameter where name='db_name'"
  | .dbParams => "select value from v$parameter where name in " ++
    "('dg_broker_start', 'remote_login_passwordfile') order by name"

/-- Columns and values, by the order of the columns. -/
abbrev Row := List (String × String)

/-- A row of a response, with what decoding the text gives. -/
structure Message where
  text : String
  row : Except String Row

/-- What the tasks hear from the daemon, the primary and the secret manager. -/
structure Answers where
  fetchServiceImageMetaData : Except String String
  downloadPasswordFile : Option String
  downloadBackup : Option String
  password : Query → Except String String
  runSQLPlusFormatted : Query → Except String (List Message)

/-- What is verified, and against what. -/
structure Task where
  primary : Primary
  standby : Standby
  passwordGcsPath : String
  backupGcsPath : String
  answers : Answers

/-- What the tasks have done so far. -/
structure Progress where
  settingErrs : List StandbySettingErr
  executed : List String
  deriving DecidableEq, Repr

/-- A task that returns an error returns early. -/
abbrev T := Prog Progress String

end Types

section Queries

variable (a : Answers)

def parseSQLResponse (messages : List Message) : Except String (List Row) :=
  messages.mapM fun m =>
    match m.row with
    | .error err => .error ("failed to parse " ++ m.text ++ ": " ++ err)
    | .ok row => .ok row

def fetchAndParseQueries (q : Query) : Except String (List Row) :=
  match a.runSQLPlusFormatted q with
  | .error err => .error ("failed to run query [\"" ++ q.sql ++ "\"]: " ++ err)
  | .ok response => parseSQLResponse response

/-- `%v` of a map. -/
def formatRow (row : Row) : String :=
  "map[" ++ " ".intercalate (row.map fun (k, v) => k ++ ":" ++ v) ++ "]"

/-- `%v` of a slice. -/
def formatRows (rows : List String) : String := "[" ++ " ".intercalate rows ++ "]"

def singleColumn : Row → Except String String
  | [(_, v)] => .ok v
  | row => .error ("fetchAndParseSingleColumnMultiRowQueries: # of cols returned by query != 1: " ++
      formatRow row)

def fetchAndParseSingleColumnMultiRowQueries (q : Query) : Except String (List String) :=
  match a.password q with
  | .error err => .error err
  | .ok _ =>
    match fetchAndParseQueries a q with
    | .error err => .error err
    | .ok rows => rows.mapM singleColumn

end Queries

section Tasks

variable (casing : Casing) (task : Task)

def addResultAsErr (type : StandbySettingErrType) (detail : String) : T Unit :=
  modify fun p => { p with settingErrs := p.settingErrs ++ [⟨type, detail⟩] }

/-- Report an error of the task itself, and return it. -/
def internalErr (detail : String) : T Unit := do
  addResultAsErr .internalError detail
  finish detail

def verifyServiceImageUnseeded : T Unit :=
  match task.answers.fetchServiceImageMetaData with
  | .error err => internalErr ("failed to fetch image metadata: " ++ err)
  | .ok cdbName =>
    when (cdbName ≠ "") (addResultAsErr .invalidServiceImage
      "Service image is seeded. Requires unseeded service image.")

def insufficientGcsPermissionMsg (path err : String) : String :=
  "Insufficient permission. Requires granting service account object viewer permission to " ++
    "download the GCS object " ++ path ++ ". Details: " ++ err

def reportDownload (path : String) : Option String → T Unit
  | none => pure ()
  | some err => addResultAsErr .insufficientPrivilege (insufficientGcsPermissionMsg path err)

def verifyGcsPermission : T Unit := do
  reportDownload task.passwordGcsPath task.answers.downloadPasswordFile
  when (task.backupGcsPath ≠ "") (reportDownload task.backupGcsPath task.answers.downloadBackup)

def supportedDBVersionToKeyWord : String → Option String
  | "12.2" => some "12c Enterprise"
  | "19.3" => some "19c Enterprise"
  | _ => none

def failedToConnectMsg (reason : String) : String :=
  "Failed to connect to primary database server (host: " ++ task.primary.host ++ ", port: " ++
    toString task.primary.port ++ ", service: " ++ task.primary.service ++ ") due to " ++ reason

/-- An error of the first query tells why the primary cannot be reached. -/
def connectionErr (err : String) : T Unit :=
  if Contains err "ORA-12170:" then do
    addResultAsErr .connectionFailure (failedToConnectMsg task
      ("ORA-12170: TNS:Connect timeout occurred. Check if host, port, and service name are " ++
        "correctly set, and primary database is configured to accept connection."))
    finish err
  else if Contains err "ORA-12541:" then do
    addResultAsErr .connectionFailure (failedToConnectMsg task
      ("ORA-12541: TNS:No listener occurred. Check if host, port, and service name are " ++
        "correctly set, and primary database is configured to accept connection."))
    finish err
  else if Contains err "ORA-01017:" then do
    addResultAsErr .connectionFailure (failedToConnectMsg task
      ("ORA-01017: invalid username/password; logon denied. Check if sys password is correct " ++
        "and remote password file is in either exclusive or shared mode."))
    finish err
  else internalErr ("failed to query version: " ++ err)

/-- The banner of the primary names the edition that goes with the version of the standby. -/
def SupportedVersion (banner : String) : Prop :=
  ∃ keyWord, supportedDBVersionToKeyWord task.standby.version = some keyWord ∧
    Contains (casing.toUpper banner) (casing.toUpper keyWord)

instance (banner : String) : Decidable (SupportedVersion casing task banner) :=
  decidable_of_iff (∃ keyWord ∈ supportedDBVersionToKeyWord task.standby.version,
    Contains (casing.toUpper banner) (casing.toUpper keyWord)) (by simp [SupportedVersion])

def verifyVersion : T Unit :=
  match fetchAndParseSingleColumnMultiRowQueries task.answers .dbVersion with
  | .error err => connectionErr task err
  | .ok [banner] =>
    when (¬ SupportedVersion casing task banner) (addResultAsErr .incompatibleDatabaseVersion
      ("Replication from primary database server (" ++ banner ++ ") to the standby (" ++
        task.standby.version ++ ") is not supported."))
  | .ok version => internalErr ("got unexpected response for DB version query: " ++ formatRows version)

def verifyParams : T Unit :=
  match fetchAndParseSingleColumnMultiRowQueries task.answers .dbParams with
  | .error err => internalErr ("failed to query DB params: " ++ err)
  | .ok [broker, passwordFile] => do
    when (casing.toUpper broker ≠ "TRUE")
      (addResultAsErr .invalidDBParam "Primary database's data guard broker is not enabled.")
    when (casing.toUpper passwordFile ≠ "SHARED" ∧ casing.toUpper passwordFile ≠ "EXCLUSIVE")
      (addResultAsErr .invalidDBParam ("Primary database password file mode is " ++ passwordFile ++
        ". Requires EXCLUSIVE or SHARED mode for sync."))
  | .ok dbParams =>
    internalErr ("got unexpected response for DB params query: " ++ formatRows dbParams)

def verifyPrimaryDBParams : T Unit := do
  verifyVersion casing task
  verifyParams casing task

def verifyStandbyCDBName : T Unit :=
  match fetchAndParseSingleColumnMultiRowQueries task.answers .dbName with
  | .error err => internalErr ("failed to get database name: " ++ err)
  | .ok [name] =>
    when (casing.equalFold name task.standby.cdbName = false) (addResultAsErr .invalidCDBName
      ("The standby's CDB name " ++ task.standby.cdbName ++
        " is not consistent with the primary database name " ++ name))
  | .ok name => internalErr ("got unexpected response for database name query: " ++ formatRows name)

def verifyForceLogging : T Unit :=
  match fetchAndParseSingleColumnMultiRowQueries task.answers .forceLogging with
  | .error err => internalErr ("failed to query force logging: " ++ err)
  | .ok [forceLogging] =>
    when (casing.equalFold forceLogging "YES" = false)
      (addResultAsErr .invalidLoggingSetup "Primary database is not in FORCE_LOGGING mode")
  -- returned, but not reported
  | .ok forceLogging =>
    finish ("got unexpected response for force logging query: " ++ formatRows forceLogging)

/-- None of the errors that are returned here is reported. -/
def verifyLogMode : T Unit :=
  match fetchAndParseSingleColumnMultiRowQueries task.answers .logMode with
  | .error err => finish ("failed to query log mode: " ++ err)
  | .ok [logMode] =>
    when (casing.equalFold logMode "ARCHIVELOG" = false) (addResultAsErr .invalidLoggingSetup
      ("Primary database is in " ++ logMode ++ " mode, not ARCHIVELOG mode"))
  | .ok logMode => finish ("got unexpected response for log mode query: " ++ formatRows logMode)

def verifyPrimaryLogSettings : T Unit := do
  verifyForceLogging casing task
  verifyLogMode casing task

/-- `task.Do`: the tasks after one that returns an error are not executed. -/
def Do : List (String × T Unit) → T Unit
  | [] => pure ()
  | (name, call) :: rest => do
    modify fun p => { p with executed := p.executed ++ [name] }
    call
    Do rest

def newVerifyStandbySettingsTask : List (String × T Unit) :=
  [("VerifyServiceImageUnseeded", verifyServiceImageUnseeded task),
    ("verifyGcsPermission", verifyGcsPermission task),
    ("verifyPrimaryDBParams", verifyPrimaryDBParams casing task),
    ("verifyStandbyCDBName", verifyStandbyCDBName casing task),
    ("verifyPrimaryLogSettings", verifyPrimaryLogSettings casing task)]

/-- Where the tasks end, one way or the other. -/
def verification : Progress := (Do (newVerifyStandbySettingsTask casing task) ⟨[], []⟩).state

/-- The error that `task.Do` returns is dropped. -/
def verifyStandbySettings : List StandbySettingErr := (verification casing task).settingErrs

end Tasks

section Passing

variable (casing : Casing) (task : Task)

/-- The rows of a query to the primary. -/
def Gives (q : Query) (rows : List String) : Prop :=
  fetchAndParseSingleColumnMultiRowQueries task.answers q = .ok rows

def ServiceImageUnseeded : Prop := task.answers.fetchServiceImageMetaData = .ok ""

def GcsPermission : Prop :=
  task.answers.downloadPasswordFile = none ∧
    (task.backupGcsPath ≠ "" → task.answers.downloadBackup = none)

def PrimaryVersion : Prop := ∃ banner, Gives task .dbVersion [banner] ∧ SupportedVersion casing task banner

def PrimaryParams : Prop :=
  ∃ broker passwordFile, Gives task .dbParams [broker, passwordFile] ∧
    casing.toUpper broker = "TRUE" ∧
    (casing.toUpper passwordFile = "SHARED" ∨ casing.toUpper passwordFile = "EXCLUSIVE")

def StandbyCDBName : Prop :=
  ∃ name, Gives task .dbName [name] ∧ casing.equalFold name task.standby.cdbName = true

def ForceLogging : Prop :=
  ∃ forceLogging, Gives task .forceLogging [forceLogging] ∧
    casing.equalFold forceLogging "YES" = true

def ArchiveLog : Prop :=
  ∃ logMode, Gives task .logMode [logMode] ∧ casing.equalFold logMode "ARCHIVELOG" = true

/-- What each of the tasks before the last is there to find. -/
structure FirstFour : Prop where
  image : ServiceImageUnseeded task
  permission : GcsPermission task
  version : PrimaryVersion casing task
  params : PrimaryParams casing task
  cdbName : StandbyCDBName casing task

/-- Every task was executed and passed. -/
structure Verified : Prop where
  executed : (verification casing task).executed =
    ["VerifyServiceImageUnseeded", "verifyGcsPermission", "verifyPrimaryDBParams",
      "verifyStandbyCDBName", "verifyPrimaryLogSettings"]
  firstFour : FirstFour casing task
  forceLogging : ForceLogging casing task
  archiveLog : ArchiveLog casing task

/-- The primary does not say, in one row, whether it forces logging. -/
def ForceLoggingUnclear : Prop := ∃ rows, Gives task .forceLogging rows ∧ rows.length ≠ 1

/-- The primary does not say in one row which mode its log is in. -/
def LogModeUnclear : Prop := ∀ logMode, ¬ Gives task .logMode [logMode]

/-- The last task returns an error and has not reported any. -/
def Unreported : Prop := ForceLoggingUnclear task ∨ ForceLogging casing task ∧ LogModeUnclear task

end Passing

section Reports

/-- The program reports nothing and goes on if all is well, having executed these tasks; it
returns without a report if it is silent, and reports something otherwise. -/
def Reports (p : T Unit) (names : List String) (well silent : Prop) : Prop :=
  ∀ s, wp p
    (fun _ t => t.executed = s.executed ++ names ∧ ¬ silent ∧
      ∃ errs, t.settingErrs = s.settingErrs ++ errs ∧ (errs = [] ↔ well))
    (fun _ t => ¬ well ∧ ∃ errs, t.settingErrs = s.settingErrs ++ errs ∧ (errs = [] ↔ silent)) s

namespace Reports

variable {p q : T Unit} {names names' : List String} {well silent well' silent' : Prop}

theorem congr (h : Reports p names well silent) (hwell : well ↔ well') (hsilent : silent ↔ silent') :
    Reports p names well' silent' := by
  obtain rfl := propext hwell
  obtain rfl := propext hsilent
  exact h

theorem pure : Reports (pure ()) [] True False := by
  intro s
  simp

theorem finish {err : String} : Reports (Flow.finish err) [] False True := by
  intro s
  simp

theorem addResultAsErr {type : StandbySettingErrType} {detail : String} :
    Reports (addResultAsErr type detail) [] False False := by
  intro s
  simp [StandbyDR.addResultAsErr]

theorem internalErr {detail : String} : Reports (internalErr detail) [] False False := by
  intro s
  simp [StandbyDR.internalErr, StandbyDR.addResultAsErr]

theorem check (c : Prop) [Decidable c] (type : StandbySettingErrType) (detail : String) :
    Reports (when c (StandbyDR.addResultAsErr type detail)) [] (¬ c) False := by
  intro s
  rw [wp_when]
  constructor
  · intro hc
    simpa [hc] using addResultAsErr s
  · intro hc
    simp [hc]

theorem bind (hp : Reports p names well silent) (hq : Reports q names' well' silent') :
    Reports (p >>= fun _ => q) (names ++ names') (well ∧ well') (silent ∨ well ∧ silent') := by
  intro s
  rw [wp_bind]
  apply (hp s).mono
  · rintro _ t ⟨hexecuted, hsilent, errs, herrs, hwell⟩
    apply (hq t).mono
    · rintro _ u ⟨hexecuted', hsilent', errs', herrs', hwell'⟩
      refine ⟨by rw [hexecuted', hexecuted, List.append_assoc], ?_, errs ++ errs', ?_, ?_⟩
      · rintro (h | ⟨-, h⟩)
        · exact hsilent h
        · exact hsilent' h
      · rw [herrs', herrs, List.append_assoc]
      · rw [List.append_eq_nil_iff, hwell, hwell']
    · rintro _ u ⟨hwell', errs', herrs', hsilent'⟩
      refine ⟨fun h => hwell' h.2, errs ++ errs', ?_, ?_⟩
      · rw [herrs', herrs, List.append_assoc]
      · rw [List.append_eq_nil_iff, hwell, hsilent']
        constructor
        · exact .inr
        · rintro (h | h)
          · exact absurd h hsilent
          · exact h
  · rintro _ t ⟨hwell, errs, herrs, hsilent⟩
    refine ⟨fun h => hwell h.1, errs, herrs, ?_⟩
    rw [hsilent]
    constructor
    · exact .inl
    · rintro (h | ⟨h, -⟩)
      · exact h
      · exact absurd h hwell

end Reports

/-- One of the tasks is silent, and those before it pass. -/
def silentAfter : List (Prop × Prop) → Prop
  | [] => False
  | spec :: specs => spec.2 ∨ spec.1 ∧ silentAfter specs

theorem reports_do {tasks : List (String × T Unit)} {specs : List (Prop × Prop)}
    (h : List.Forall₂ (fun task spec => Reports task.2 [] spec.1 spec.2) tasks specs) :
    Reports (Do tasks) (tasks.map (·.1)) (∀ spec ∈ specs, spec.1) (silentAfter specs) := by
  induction h with
  | nil => exact Reports.pure.congr (by simp) Iff.rfl
  | @cons task spec tasks specs hhead _ ih =>
    have hexecuted : Reports (modify fun p => { p with executed := p.executed ++ [task.1] })
        [task.1] True False := by
      intro s
      simp
    have hall := hexecuted.bind (hhead.bind ih)
    apply hall.congr
    · simp
    · simp [silentAfter]

end Reports

section Steps

variable {casing : Casing} {task : Task}

theorem reports_verifyServiceImageUnseeded :
    Reports (verifyServiceImageUnseeded task) [] (ServiceImageUnseeded task) False := by
  unfold verifyServiceImageUnseeded ServiceImageUnseeded
  split
  · next err h => exact Reports.internalErr.congr (by simp [h]) Iff.rfl
  · next cdbName h => exact (Reports.check _ _ _).congr (by simp [h]) Iff.rfl

theorem reports_reportDownload {path : String} {err : Option String} :
    Reports (reportDownload path err) [] (err = none) False := by
  cases err with
  | none => exact Reports.pure.congr (by simp) Iff.rfl
  | some err => exact Reports.addResultAsErr.congr (by simp) Iff.rfl

theorem reports_verifyGcsPermission :
    Reports (verifyGcsPermission task) [] (GcsPermission task) False := by
  have hbackup : Reports (when (task.backupGcsPath ≠ "")
      (reportDownload task.backupGcsPath task.answers.downloadBackup)) []
      (task.backupGcsPath ≠ "" → task.answers.downloadBackup = none) False := by
    by_cases hpath : task.backupGcsPath = ""
    · unfold when
      rw [if_neg (not_not.mpr hpath)]
      exact Reports.pure.congr (by simp [hpath]) Iff.rfl
    · unfold when
      rw [if_pos hpath]
      exact reports_reportDownload.congr (by simp [hpath]) Iff.rfl
  exact (reports_reportDownload.bind hbackup).congr Iff.rfl (by simp)

theorem reports_connectionErr {err : String} : Reports (connectionErr task err) [] False False := by
  have hreport : ∀ detail, Reports (addResultAsErr .connectionFailure detail >>= fun _ =>
      (finish err : T Unit)) [] False False := by
    intro detail
    exact (Reports.addResultAsErr.bind .finish).congr (by simp) (by simp)
  unfold connectionErr
  split
  · exact hreport _
  · split
    · exact hreport _
    · split
      · exact hreport _
      · exact .internalErr

theorem reports_verifyVersion :
    Reports (verifyVersion casing task) [] (PrimaryVersion casing task) False := by
  unfold verifyVersion PrimaryVersion Gives
  split
  · next err h => exact reports_connectionErr.congr (by simp [h]) Iff.rfl
  · next banner h => exact (Reports.check _ _ _).congr (by simp [h]) Iff.rfl
  · next version hne h =>
    apply Reports.internalErr.congr _ Iff.rfl
    simp only [h, false_iff, not_exists, not_and]
    intro banner heq
    exact absurd (Except.ok.inj heq) (hne banner)

theorem reports_verifyParams :
    Reports (verifyParams casing task) [] (PrimaryParams casing task) False := by
  unfold verifyParams PrimaryParams Gives
  split
  · next err h => exact Reports.internalErr.congr (by simp [h]) Iff.rfl
  · next broker passwordFile h =>
    have hboth := (Reports.check (casing.toUpper broker ≠ "TRUE") .invalidDBParam
      "Primary database's data guard broker is not enabled.").bind
      (.check (casing.toUpper passwordFile ≠ "SHARED" ∧ casing.toUpper passwordFile ≠ "EXCLUSIVE")
        .invalidDBParam ("Primary database password file mode is " ++ passwordFile ++
          ". Requires EXCLUSIVE or SHARED mode for sync."))
    apply hboth.congr _ (by simp)
    rw [h]
    constructor
    · rintro ⟨hbroker, hfile⟩
      refine ⟨broker, passwordFile, rfl, not_not.mp hbroker, ?_⟩
      by_contra hno
      exact hfile (not_or.mp hno)
    · rintro ⟨_, _, heq, hbroker, hfile⟩
      simp only [Except.ok.injEq, List.cons.injEq, and_true] at heq
      obtain ⟨rfl, rfl⟩ := heq
      exact ⟨not_not.mpr hbroker, fun hno => hfile.elim hno.1 hno.2⟩
  · next dbParams hne h =>
    apply Reports.internalErr.congr _ Iff.rfl
    simp only [h, false_iff, not_exists, not_and]
    intro broker passwordFile heq
    exact absurd (Except.ok.inj heq) (hne broker passwordFile)

theorem reports_verifyPrimaryDBParams :
    Reports (verifyPrimaryDBParams casing task) []
      (PrimaryVersion casing task ∧ PrimaryParams casing task) False :=
  (reports_verifyVersion.bind reports_verifyParams).congr Iff.rfl (by simp)

theorem reports_verifyStandbyCDBName :
    Reports (verifyStandbyCDBName casing task) [] (StandbyCDBName casing task) False := by
  unfold verifyStandbyCDBName StandbyCDBName Gives
  split
  · next err h => exact Reports.internalErr.congr (by simp [h]) Iff.rfl
  · next name h => exact (Reports.check _ _ _).congr (by simp [h]) Iff.rfl
  · next names hne h =>
    apply Reports.internalErr.congr _ Iff.rfl
    simp only [h, false_iff, not_exists, not_and]
    intro name heq
    exact absurd (Except.ok.inj heq) (hne name)

theorem length_ne_one_of_ne_singleton {rows : List String} (h : ∀ row, rows = [row] → False) :
    rows.length ≠ 1 := by
  intro hlength
  obtain ⟨row, rfl⟩ := List.length_eq_one_iff.mp hlength
  exact h row rfl

theorem reports_verifyForceLogging :
    Reports (verifyForceLogging casing task) [] (ForceLogging casing task)
      (ForceLoggingUnclear task) := by
  unfold verifyForceLogging ForceLogging ForceLoggingUnclear Gives
  split
  · next err h => exact Reports.internalErr.congr (by simp [h]) (by simp [h])
  · next value h => exact (Reports.check _ _ _).congr (by simp [h]) (by simp [h])
  · next rows hne h =>
    have hlength := length_ne_one_of_ne_singleton hne
    apply Reports.finish.congr
    · simp only [h, false_iff, not_exists, not_and]
      intro value heq
      exact absurd (Except.ok.inj heq) (hne value)
    · simpa [h] using hlength

theorem reports_verifyLogMode :
    Reports (verifyLogMode casing task) [] (ArchiveLog casing task) (LogModeUnclear task) := by
  unfold verifyLogMode ArchiveLog LogModeUnclear Gives
  split
  · next err h => exact Reports.finish.congr (by simp [h]) (by simp [h])
  · next value h => exact (Reports.check _ _ _).congr (by simp [h]) (by simp [h])
  · next rows hne h =>
    have hrows : ∀ value, rows ≠ [value] := hne
    apply Reports.finish.congr
    · simp [h, hrows]
    · simp [h, hrows]

theorem reports_verifyPrimaryLogSettings :
    Reports (verifyPrimaryLogSettings casing task) []
      (ForceLogging casing task ∧ ArchiveLog casing task) (Unreported casing task) :=
  reports_verifyForceLogging.bind reports_verifyLogMode

end Steps

section Result

variable {casing : Casing} {task : Task}

/-- When each of the tasks passes, and when it fails without a report. -/
def taskSpecs (casing : Casing) (task : Task) : List (Prop × Prop) :=
  [(ServiceImageUnseeded task, False), (GcsPermission task, False),
    (PrimaryVersion casing task ∧ PrimaryParams casing task, False),
    (StandbyCDBName casing task, False),
    (ForceLogging casing task ∧ ArchiveLog casing task, Unreported casing task)]

theorem forall_taskSpecs : (∀ spec ∈ taskSpecs casing task, spec.1) ↔
    FirstFour casing task ∧ ForceLogging casing task ∧ ArchiveLog casing task := by
  simp only [taskSpecs, List.forall_mem_cons, List.not_mem_nil, false_implies, implies_true, and_true]
  constructor
  · rintro ⟨himage, hpermission, ⟨hversion, hparams⟩, hname, hlog⟩
    exact ⟨⟨himage, hpermission, hversion, hparams, hname⟩, hlog⟩
  · rintro ⟨⟨himage, hpermission, hversion, hparams, hname⟩, hlog⟩
    exact ⟨himage, hpermission, ⟨hversion, hparams⟩, hname, hlog⟩

theorem silentAfter_taskSpecs : silentAfter (taskSpecs casing task) ↔
    FirstFour casing task ∧ Unreported casing task := by
  simp only [taskSpecs, silentAfter, false_or, and_false, or_false]
  constructor
  · rintro ⟨himage, hpermission, ⟨hversion, hparams⟩, hname, hlog⟩
    exact ⟨⟨himage, hpermission, hversion, hparams, hname⟩, hlog⟩
  · rintro ⟨⟨himage, hpermission, hversion, hparams, hname⟩, hlog⟩
    exact ⟨himage, hpermission, ⟨hversion, hparams⟩, hname, hlog⟩

theorem reports_tasks :
    Reports (Do (newVerifyStandbySettingsTask casing task))
      ["VerifyServiceImageUnseeded", "verifyGcsPermission", "verifyPrimaryDBParams",
        "verifyStandbyCDBName", "verifyPrimaryLogSettings"]
      (FirstFour casing task ∧ ForceLogging casing task ∧ ArchiveLog casing task)
      (FirstFour casing task ∧ Unreported casing task) := by
  have hspecs : List.Forall₂ (fun (t : String × T Unit) (spec : Prop × Prop) =>
      Reports t.2 [] spec.1 spec.2) (newVerifyStandbySettingsTask casing task)
      (taskSpecs casing task) := by
    constructor
    · exact reports_verifyServiceImageUnseeded
    constructor
    · exact reports_verifyGcsPermission
    constructor
    · exact reports_verifyPrimaryDBParams
    constructor
    · exact reports_verifyStandbyCDBName
    constructor
    · exact reports_verifyPrimaryLogSettings
    · exact .nil
  exact (reports_do hspecs).congr forall_taskSpecs silentAfter_taskSpecs

/-- The list of errors is empty if everything is as it should be, and if the last task fails
without a report. -/
theorem verifyStandbySettings_eq_nil_iff :
    verifyStandbySettings casing task = [] ↔
      Verified casing task ∨ FirstFour casing task ∧ Unreported casing task := by
  have hend := @reports_tasks casing task ⟨[], []⟩
  unfold wp at hend
  unfold verifyStandbySettings
  cases hdo : Do (newVerifyStandbySettingsTask casing task) ⟨[], []⟩ with
  | next a t =>
    have ht : verification casing task = t := by
      unfold verification
      rw [hdo]
      rfl
    simp only [hdo, List.nil_append] at hend
    obtain ⟨hexecuted, hsilent, errs, herrs, hwell⟩ := hend
    rw [ht, herrs, hwell]
    constructor
    · rintro ⟨hfirst, hforce, harchive⟩
      exact .inl ⟨ht ▸ hexecuted, hfirst, hforce, harchive⟩
    · rintro (h | h)
      · exact ⟨h.firstFour, h.forceLogging, h.archiveLog⟩
      · exact absurd h hsilent
  | done err t =>
    have ht : verification casing task = t := by
      unfold verification
      rw [hdo]
      rfl
    simp only [hdo, List.nil_append] at hend
    obtain ⟨hwell, errs, herrs, hsilent⟩ := hend
    rw [ht, herrs, hsilent]
    constructor
    · exact .inr
    · rintro (h | h)
      · exact absurd ⟨h.firstFour, h.forceLogging, h.archiveLog⟩ hwell
      · exact h

/-- A task that fails without a report does not pass. -/
theorem not_verified_of_unreported (h : Unreported casing task) : ¬ Verified casing task := by
  intro hv
  obtain ⟨value, hgives, hyes⟩ := hv.forceLogging
  rcases h with ⟨rows, hrows, hlength⟩ | ⟨-, hunclear⟩
  · obtain rfl := Except.ok.inj (hgives.symm.trans hrows)
    exact hlength rfl
  · obtain ⟨mode, hmode, -⟩ := hv.archiveLog
    exact hunclear mode hmode

/-- Exactly when an empty list of errors means that everything was verified. -/
theorem verified_of_nil_iff :
    (verifyStandbySettings casing task = [] → Verified casing task) ↔
      ¬ (FirstFour casing task ∧ Unreported casing task) := by
  rw [verifyStandbySettings_eq_nil_iff]
  constructor
  · rintro h ⟨hfirst, hunreported⟩
    exact not_verified_of_unreported hunreported (h (.inr ⟨hfirst, hunreported⟩))
  · rintro h (hv | hno)
    · exact hv
    · exact absurd hno h

end Result

end ElCarro.StandbyDR
