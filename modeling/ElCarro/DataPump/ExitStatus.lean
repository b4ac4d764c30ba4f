import Mathlib.Order.Basic

/-! # Exit statuses of the data pump

The daemon runs `impdp` and `expdp` as processes. Both exit with 5 when they have come to
their end with warnings. The import goes on after that status and fails on every other one
but 0; the export has the test the wrong way round.
-/

namespace ElCarro.DataPump.Daemon

section Processes

/-- How a command ends: with an exit status (-1 after a signal), or it could not be run. -/
inductive Exit where
  | exited (code : Int)
  | notRun (err : String)
  deriving DecidableEq, Repr

/-- The error of `runCommand`, with the text of an exit status other than 0. -/
def Exit.error : Exit → Option String
  | .exited code => if code = 0 then none else some ("exit status " ++ toString code)
  | .notRun err => some err

/-- `isReturnCodeEqual` of the error that a command ends with. -/
def isReturnCodeEqual (exit : Exit) (code : Int) : Bool := exit = .exited code

/-- The process came to its end, maybe with warnings. -/
def Exit.Completed (exit : Exit) : Prop := exit = .exited 0 ∨ exit = .exited 5

instance (exit : Exit) : Decidable exit.Completed :=
  inferInstanceAs (Decidable (exit = .exited 0 ∨ exit = .exited 5))

end Processes

section Requests

structure ImportRequest where
  pdbName : String
  dbDomain : String
  gcsPath : String
  gcsLogPath : String
  commandParams : List String
  deriving DecidableEq, Repr

structure ExportRequest where
  pdbName : String
  dbDomain : String
  objectType : String
  objects : String
  gcsPath : String
  gcsLogPath : String
  flashbackTime : String
  commandParams : List String
  deriving DecidableEq, Repr

/-- The run that reads the metadata of a dump, and the one that imports or exports. -/
inductive Phase where
  | metadata | main
  deriving DecidableEq, Repr

/-- What the daemon does outside of itself. -/
inductive Effect where
  | download (gcsPath : String)
  | createFile (file : String)
  | removeFile (file : String)
  | run (phase : Phase) (bin : String) (params : List String) (exit : Exit)
  | createTablespaces (metaFile pdbName : String)
  | writeParFile (file : String) (params : List String)
  | upload (gcsPath file : String)
  deriving DecidableEq, Repr

structure Outcome where
  result : Except String Unit
  effects : List Effect

/-- The daemon and what its steps come back with. -/
structure Env where
  databaseSid : String
  databaseHome : String
  /-- `strings.ToUpper`. -/
  toUpper : String → String
  /-- `filepath.Join`. -/
  join : List String → String
  /-- The time as the layout `20060102150405` writes it. -/
  timeText : String
  /-- `%q`. -/
  quote : String → String
  download : Except String Unit
  createFile : Except String Unit
  /-- `SetupUserPwConnStringOnServer`. -/
  setupUser : Except String String
  /-- The removal of a dump file with the name of the export. -/
  removeDmp : Except String Unit
  writeParFile : Except String Unit
  exit : Phase → Exit
  upload : String → Except String Unit

def pdbLoaderUser : String := "gcsql$pdbloader"

variable (env : Env)

def pdbPath (pdbName : String) : String :=
  "/u02/app/oracle/oradata/" ++ env.databaseSid ++ "/" ++ env.toUpper pdbName

def impdp : String := env.join [env.databaseHome, "bin", "impdp"]

def expdp : String := env.join [env.databaseHome, "bin", "expdp"]

/-- The parameters that `sqlfile` does not go with are left out. -/
def filterParamsForMetadata (params : List String) : List String :=
  params.filter fun param =>
    (param.toList.takeWhile (· ≠ '=')) ≠ "TABLE_EXISTS_ACTION".toList

/-- The parameters of the run that writes the metadata of the dump to a file. -/
def metadataParams (target : String) (commandParams : List String) : List String :=
  target :: filterParamsForMetadata commandParams ++
    ["directory=PDB_DATA_PUMP_DIR", "dumpfile=import.dmp", "sqlfile=import.dmp.meta",
      "nologfile=YES", "include=TABLESPACE", "include=USER", "include=TABLESPACE_QUOTA"]

def importParams (target : String) (commandParams : List String) : List String :=
  target :: commandParams ++
    ["directory=PDB_DATA_PUMP_DIR", "dumpfile=import.dmp", "logfile=import.log"]

def exportParams (req : ExportRequest) (exportName : String) : List String :=
  [(if req.objectType = "" then "SCHEMAS" else req.objectType) ++ "=" ++ req.objects,
    "DIRECTORY=PDB_DATA_PUMP_DIR", "DUMPFILE=" ++ exportName ++ ".dmp",
    "LOGFILE=" ++ exportName ++ ".log"] ++ req.commandParams ++
    (if req.flashbackTime = "" then [] else ["FLASHBACK_TIME=" ++ env.quote req.flashbackTime])

/-- The dump file of an export. -/
def dmpPath (req : ExportRequest) : String :=
  env.join [pdbPath env req.pdbName, "dmp", "export_" ++ env.timeText ++ ".dmp"]

end Requests

section Code

variable (env : Env)

/-- The last step of both: the log is uploaded where the request asks for it. -/
def uploadLog (gcsLogPath file : String) (failure : String → String) (effects : List Effect) :
    Outcome :=
  if gcsLogPath = "" then ⟨.ok (), effects⟩
  else match env.upload gcsLogPath with
    | .error err => ⟨.error (failure err), effects⟩
    | .ok () => ⟨.ok (), effects ++ [.upload gcsLogPath file]⟩

/--
How the import takes the end of its runs. With status 5 the process has reached its end,
but data in the dump might have been skipped.
-/
def afterRun (exit : Exit) (failure : String → Outcome) (next : Outcome) : Outcome :=
  match exit.error with
  | some err => if ¬ isReturnCodeEqual exit 5 then failure err else next
  | none => next

def dataPumpImport (req : ImportRequest) : Outcome :=
  let dumpDir := env.join [pdbPath env req.pdbName, "dmp"]
  let importFile := env.join [dumpDir, "import.dmp"]
  -- the deferred removal of the dump, when the function returns
  let remove (out : Outcome) : Outcome := ⟨out.result, out.effects ++ [.removeFile importFile]⟩
  match env.download with
  | .error err =>
    ⟨.error ("dbdaemon/dataPumpImport: initiating GCS download failed: " ++ err), []⟩
  | .ok () =>
    match env.createFile with
    | .error err =>
      ⟨.error ("dbdaemon/dataPumpImport: download from GCS failed: " ++ err),
        [.download req.gcsPath]⟩
    | .ok () => remove <|
      let effects := [.download req.gcsPath, .createFile importFile]
      match env.setupUser with
      | .error _ =>
        ⟨.error ("dbdaemon/dataPumpImport: failed to alter user " ++ pdbLoaderUser), effects⟩
      | .ok target =>
        let effects := effects ++
          [.run .metadata (impdp env) (metadataParams target req.commandParams)
            (env.exit .metadata)]
        afterRun (env.exit .metadata)
          (fun err =>
            ⟨.error ("data pump import metadata gathering failed, err = " ++ err), effects⟩)
          (importMain target effects)
where
  /-- The import itself, after the tablespaces have been created. -/
  importMain (target : String) (effects : List Effect) : Outcome :=
    let dumpDir := env.join [pdbPath env req.pdbName, "dmp"]
    let effects := effects ++
      [.createTablespaces (env.join [dumpDir, "import.dmp.meta"]) req.pdbName,
        .run .main (impdp env) (importParams target req.commandParams) (env.exit .main)]
    afterRun (env.exit .main)
      (fun err => ⟨.error ("data pump import failed, err = " ++ err), effects⟩)
      (uploadLog env req.gcsLogPath (env.join [dumpDir, "import.log"])
        (fun err => "dbdaemon/dataPumpImport: import completed successfully, " ++
          "failed to upload import log to GCS: " ++ err) effects)

def dataPumpExport (req : ExportRequest) : Outcome :=
  let exportName := "export_" ++ env.timeText
  let dmpFile := dmpPath env req
  let parFile := env.join [pdbPath env req.pdbName, "dmp", exportName ++ ".par"]
  match env.removeDmp with
  | .error _ =>
    ⟨.error ("dataPumpExport failed: can't remove existing dmp file " ++ dmpFile), []⟩
  | .ok () =>
    match env.setupUser with
    | .error _ =>
      ⟨.error ("dbdaemon/dataPumpExport: failed to alter user " ++ pdbLoaderUser),
        [.removeFile dmpFile]⟩
    | .ok target =>
      match env.writeParFile with
      | .error err => ⟨.error ("data pump export failed, err = " ++ err), [.removeFile dmpFile]⟩
      | .ok () =>
        let effects :=
          [.removeFile dmpFile, .writeParFile parFile (exportParams env req exportName),
            .run .main (expdp env) [target, "parfile=" ++ parFile] (env.exit .main)]
        match (env.exit .main).error with
        | some err =>
          -- the import has a negation here
          if isReturnCodeEqual (env.exit .main) 5 then
            ⟨.error ("data pump export failed, err = " ++ err), effects⟩
          else exportUpload dmpFile effects
        | none => exportUpload dmpFile effects
where
  /-- The dump and its log are uploaded. -/
  exportUpload (dmpFile : String) (effects : List Effect) : Outcome :=
    match env.upload req.gcsPath with
    | .error err =>
      ⟨.error ("dbdaemon/dataPumpExport: failed to upload dmp file to " ++ req.gcsPath ++ ": " ++
        err), effects⟩
    | .ok () =>
      uploadLog env req.gcsLogPath
        (env.join [pdbPath env req.pdbName, "dmp", "export_" ++ env.timeText ++ ".log"])
        (fun err => "dbdaemon/dataPumpExport: failed to upload log file to " ++ req.gcsLogPath ++
          ": " ++ err) (effects ++ [.upload req.gcsPath dmpFile])

end Code

section Classification

/-- All steps but the data pump processes succeed. -/
structure OthersSucceed (env : Env) : Prop where
  download : env.download = .ok ()
  createFile : env.createFile = .ok ()
  setupUser : ∃ target, env.setupUser = .ok target
  removeDmp : env.removeDmp = .ok ()
  writeParFile : env.writeParFile = .ok ()
  upload : ∀ gcsPath, env.upload gcsPath = .ok ()

/-- The effect is a run of the main process that came to its end. -/
def Effect.Completes : Effect → Prop
  | .run .main _ _ exit => exit.Completed
  | _ => False

/-- The main process was run and came to its end. -/
def MainCompleted (effects : List Effect) : Prop := ∃ e ∈ effects, e.Completes

/-- Import and export go by the exit status of the main process, in the same way. -/
structure ClassifiesAlike (env : Env) (importReq : ImportRequest) (exportReq : ExportRequest) :
    Prop where
  importing : (dataPumpImport env importReq).result = .ok () ↔
    MainCompleted (dataPumpImport env importReq).effects
  exporting : (dataPumpExport env exportReq).result = .ok () ↔
    MainCompleted (dataPumpExport env exportReq).effects
  upload : .upload exportReq.gcsPath (dmpPath env exportReq) ∈
    (dataPumpExport env exportReq).effects ↔ MainCompleted (dataPumpExport env exportReq).effects

variable {env : Env}

theorem Exit.error_eq_none_iff {exit : Exit} : exit.error = none ↔ exit = .exited 0 := by
  cases exit with
  | exited code =>
    unfold Exit.error
    split <;> simp_all
  | notRun err => simp [Exit.error]

/-- The test of the import lets the two statuses through. -/
theorem Exit.completed_iff {exit : Exit} :
    exit.Completed ↔ exit.error = none ∨ isReturnCodeEqual exit 5 = true := by
  rw [Exit.error_eq_none_iff]
  simp [Exit.Completed, isReturnCodeEqual]

theorem afterRun_of_completed {exit : Exit} (h : exit.Completed) (failure : String → Outcome)
    (next : Outcome) : afterRun exit failure next = next := by
  unfold afterRun
  rcases Exit.completed_iff.mp h with herr | hcode
  · rw [herr]
  · split
    · rw [if_neg (by simp [hcode])]
    · rfl

theorem afterRun_of_not_completed {exit : Exit} (h : ¬ exit.Completed) (failure : String → Outcome)
    (next : Outcome) : ∃ err, afterRun exit failure next = failure err := by
  rw [Exit.completed_iff, not_or] at h
  obtain ⟨err, herr⟩ := Option.ne_none_iff_exists'.mp h.1
  refine ⟨err, ?_⟩
  rw [afterRun, herr]
  simp [h.2]

@[simp] theorem mainCompleted_nil : ¬ MainCompleted [] := by
  simp [MainCompleted]

@[simp] theorem mainCompleted_cons {e : Effect} {effects : List Effect} :
    MainCompleted (e :: effects) ↔ e.Completes ∨ MainCompleted effects := by
  simp [MainCompleted]

@[simp] theorem mainCompleted_append {effects more : List Effect} :
    MainCompleted (effects ++ more) ↔ MainCompleted effects ∨ MainCompleted more := by
  simp only [MainCompleted, List.mem_append, or_and_right, exists_or]

/-- With its uploads the last step of both always succeeds. -/
theorem uploadLog_of_upload (h : ∀ gcsPath, env.upload gcsPath = .ok ()) (gcsLogPath file : String)
    (failure : String → String) (effects : List Effect) :
    (uploadLog env gcsLogPath file failure effects).result = .ok () ∧
      ∃ log, (uploadLog env gcsLogPath file failure effects).effects = effects ++ log ∧
        ¬ MainCompleted log := by
  unfold uploadLog
  split
  · exact ⟨rfl, [], by simp, by simp⟩
  · rw [h]
    exact ⟨rfl, [.upload gcsLogPath file], rfl, by simp [Effect.Completes]⟩

/-- The main run of the import decides. -/
theorem importMain_classifies (h : OthersSucceed env) (req : ImportRequest) (target : String)
    {effects : List Effect} (heffects : ¬ MainCompleted effects) :
    (dataPumpImport.importMain env req target effects).result = .ok () ↔
      MainCompleted (dataPumpImport.importMain env req target effects).effects := by
  have hrun : ∀ file pdbName bin params, MainCompleted (effects ++
      [.createTablespaces file pdbName, .run .main bin params (env.exit .main)]) ↔
      (env.exit .main).Completed := by
    intro file pdbName bin params
    simp [heffects, Effect.Completes]
  unfold dataPumpImport.importMain
  by_cases hc : (env.exit .main).Completed
  · rw [afterRun_of_completed hc]
    obtain ⟨hok, log, heq, -⟩ := uploadLog_of_upload h.upload req.gcsLogPath _ _ _
    rw [hok, heq, mainCompleted_append, hrun]
    simp [hc]
  · obtain ⟨err, herr⟩ := afterRun_of_not_completed hc _ _
    rw [herr]
    simp [hrun, hc]

/-- The import goes by its main run, also when it does not come to it. -/
theorem dataPumpImport_classifies (h : OthersSucceed env) (req : ImportRequest) :
    (dataPumpImport env req).result = .ok () ↔
      MainCompleted (dataPumpImport env req).effects := by
  obtain ⟨target, htarget⟩ := h.setupUser
  simp only [dataPumpImport, h.download, h.createFile, htarget, mainCompleted_append,
    mainCompleted_cons, mainCompleted_nil, Effect.Completes, or_false]
  by_cases hc : (env.exit .metadata).Completed
  · rw [afterRun_of_completed hc]
    exact importMain_classifies h req target (by simp [Effect.Completes])
  · obtain ⟨err, herr⟩ := afterRun_of_not_completed hc _ _
    rw [herr]
    simp [Effect.Completes]

/-- The export fails on status 5 and on no other one. -/
theorem dataPumpExport_classifies (h : OthersSucceed env) (req : ExportRequest) :
    ((dataPumpExport env req).result = .ok () ↔ env.exit .main ≠ .exited 5) ∧
    (.upload req.gcsPath (dmpPath env req) ∈ (dataPumpExport env req).effects ↔
      env.exit .main ≠ .exited 5) ∧
    (MainCompleted (dataPumpExport env req).effects ↔ (env.exit .main).Completed) := by
  obtain ⟨target, htarget⟩ := h.setupUser
  have hupload : ∀ effects,
      (dataPumpExport.exportUpload env req (dmpPath env req) effects).result = .ok () ∧
      .upload req.gcsPath (dmpPath env req) ∈
        (dataPumpExport.exportUpload env req (dmpPath env req) effects).effects ∧
      (MainCompleted (dataPumpExport.exportUpload env req (dmpPath env req) effects).effects ↔
        MainCompleted effects) := by
    intro effects
    rw [dataPumpExport.exportUpload, h.upload]
    obtain ⟨hok, log, heq, hlog⟩ := uploadLog_of_upload h.upload req.gcsLogPath _ _ _
    rw [hok, heq]
    simp [hlog, Effect.Completes]
  simp only [dataPumpExport, h.removeDmp, htarget, h.writeParFile]
  by_cases h5 : env.exit .main = .exited 5
  · simp [h5, Exit.error, isReturnCodeEqual, Effect.Completes]
  · have hcode : isReturnCodeEqual (env.exit .main) 5 = false := by simp [isReturnCodeEqual, h5]
    simp only [hcode, Bool.false_eq_true, if_false]
    split
    all_goals
      obtain ⟨hok, hmem, hmain⟩ := hupload _
      rw [hok, hmain]
      simp [h5, hmem, Effect.Completes]

/-- Import and export classify the exit statuses alike only where the main process exits with 0. -/
theorem classifiesAlike_iff (env : Env) (h : OthersSucceed env) (importReq : ImportRequest)
    (exportReq : ExportRequest) :
    ClassifiesAlike env importReq exportReq ↔ env.exit .main = .exited 0 := by
  obtain ⟨hresult, hupload, hmain⟩ := dataPumpExport_classifies h exportReq
  constructor
  · intro hc
    have hexport := hc.exporting
    rw [hresult, hmain, Exit.Completed] at hexport
    by_cases h5 : env.exit .main = .exited 5
    · simp [h5] at hexport
    · exact (hexport.mp h5).resolve_right h5
  · intro h0
    refine ⟨dataPumpImport_classifies h importReq, ?_, ?_⟩
    · rw [hresult, hmain]
      simp [h0, Exit.Completed]
    · rw [hupload, hmain]
      simp [h0, Exit.Completed]

end Classification

section Sample

/-- A daemon whose steps succeed, with this exit status of the main process. -/
def daemonWith (exit : Exit) : Env where
  databaseSid := "GCLOUD"
  databaseHome := "/u01/app/oracle/product/12.2/db"
  toUpper _ := "PDB1"
  join parts := "/".intercalate parts
  timeText := "20220101000000"
  quote s := "\"" ++ s ++ "\""
  download := .ok ()
  createFile := .ok ()
  setupUser := .ok "gcsql$pdbloader/secret@localhost:6021/PDB1"
  removeDmp := .ok ()
  writeParFile := .ok ()
  exit phase := if phase = .main then exit else .exited 0
  upload _ := .ok ()

theorem othersSucceed_daemonWith (exit : Exit) : OthersSucceed (daemonWith exit) :=
  ⟨rfl, rfl, ⟨_, rfl⟩, rfl, rfl, fun _ => rfl⟩

def importOfPdb1 : ImportRequest := ⟨"pdb1", "", "gs://bucket/in.dmp", "", []⟩

def exportOfPdb1 : ExportRequest := ⟨"pdb1", "", "", "scott", "gs://bucket/out.dmp", "", "", []⟩

/-- An export with warnings fails, and one that failed is uploaded. -/
theorem export_takes_statuses_the_wrong_way :
    ¬ ClassifiesAlike (daemonWith (.exited 5)) importOfPdb1 exportOfPdb1 ∧
      ¬ ClassifiesAlike (daemonWith (.exited 1)) importOfPdb1 exportOfPdb1 := by
  constructor
  · intro h
    have hcompleted : MainCompleted
        (dataPumpExport (daemonWith (.exited 5)) exportOfPdb1).effects :=
      ⟨_, List.mem_cons_of_mem _ (List.mem_cons_of_mem _ List.mem_cons_self), Or.inr rfl⟩
    have hok := h.exporting.mpr hcompleted
    cases hok
  · intro h
    have hcompleted := h.exporting.mp rfl
    rw [(dataPumpExport_classifies (othersSucceed_daemonWith _) exportOfPdb1).2.2] at hcompleted
    exact absurd hcompleted (by decide)

theorem classifiesAlike_success :
    ClassifiesAlike (daemonWith (.exited 0)) importOfPdb1 exportOfPdb1 :=
  (classifiesAlike_iff _ (othersSucceed_daemonWith _) _ _).mpr rfl

end Sample

end ElCarro.DataPump.Daemon
