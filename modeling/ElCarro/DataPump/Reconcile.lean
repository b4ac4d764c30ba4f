import ElCarro.K8s.Condition
import ElCarro.Lib.Rfc3339
import ElCarro.Lro.Server

/-! # The Import and Export controllers

Both controllers take an object from Pending through InProgress to Complete or Failed: they
launch a data pump operation on the daemon of the instance, poll it, and record how it
ended. They differ in the spec, the request and the texts, which are the fields of a
`Controller`.
-/

namespace ElCarro.DataPump

open GoTime K8s

/-- An Import or an Export. -/
structure Object (Spec : Type) where
  uid : String
  spec : Spec
  conditions : List Condition
  deriving DecidableEq, Repr

/-- What the controllers read of a Database. -/
structure Database where
  instName : String
  name : String
  conditions : List Condition

/-- What the controllers read of an Instance. -/
structure Inst where
  dbDomain : String

/-- The reasons of the Ready condition that one of the controllers uses. -/
structure Reasons where
  pending : Reason
  inProgress : Reason
  complete : Reason
  failed : Reason
  distinct : [pending, inProgress, complete, failed].Nodup

structure Controller (Spec Request : Type) where
  reasons : Reasons
  /-- The kind of the objects, and what their operation does. -/
  kind : String
  verb : String
  /-- The name of the daemon's job. -/
  jobName : String
  instName : Spec → String
  databaseName : Spec → String
  /-- What is wrong with a spec by itself. -/
  invalid : Spec → Option String
  request : Spec → Database → Inst → (operationId : String) → Request
  failedText : Spec → (time message : String) → String
  completeText : Spec → (time : String) → String

/-- An error of a call to the daemon: its text, and the code of the gRPC status in it. -/
structure CallError where
  code : Option Lro.Code
  text : String
  deriving DecidableEq, Repr

/-- What the calls of one reconcile come back with. -/
structure Env where
  now : Time
  offset : Int
  database : (name : String) → Except String Database
  inst : (name : String) → Except String Inst
  launch : Except CallError Unit
  operation : Except String Lro.Operation

inductive RecorderEvent where
  | failed (message : String)
  | completed (elapsed : Duration)
  deriving DecidableEq, Repr

/-- How a reconcile ends before the deferred update of the status. -/
structure Outcome (Spec Request : Type) where
  object : Object Spec
  /-- The status is to be updated. -/
  changed : Bool
  request : Option Request
  /-- The operation is to be deleted. -/
  deletes : Bool
  event : Option RecorderEvent
  /-- The requeue time, zero for none, or an error. -/
  result : Except String Duration

/-- The deferred update: its error counts when there is no other. -/
def Outcome.updated {Spec Request : Type} (out : Outcome Spec Request)
    (update : Except String Unit) : Except String Duration :=
  match out.changed, out.result, update with
  | true, .ok _, .error err => .error err
  | _, result, _ => result

def requeueSoon : Duration := 30 * second
def requeueLater : Duration := minute

/-- `IsAlreadyExistsError`. -/
def isAlreadyExistsError (err : CallError) : Bool := err.code = some .alreadyExists

section Controllers

variable {Spec Request : Type} (c : Controller Spec Request)

def Object.state (o : Object Spec) : Option Reason :=
  (findCondition o.conditions .ready).map (·.reason)

def lroOperationID (o : Object Spec) : String := c.kind ++ "_" ++ o.uid

def setState (now : Time) (condReason : Reason) (message : String) (o : Object Spec) :
    Object Spec :=
  let condStatus := if condReason = c.reasons.complete then .true else .false
  { o with conditions := upsert now .ready condStatus condReason message o.conditions }

/-- `getState` of the wrapper: an object without the condition gets the default state. -/
def getState (now : Time) (o : Object Spec) : Object Spec × Bool :=
  if (findCondition o.conditions .ready).isNone then (setState c now c.reasons.pending "" o, true)
  else (o, false)

/-- `handleNotStartedImport` and `handleNotStartedExport`. -/
def handleNotStarted (env : Env) (o : Object Spec) (changed : Bool) : Outcome Spec Request :=
  let fail (err : String) : Outcome Spec Request := ⟨o, changed, none, false, none, .error err⟩
  match env.database (c.databaseName o.spec) with
  | .error err => fail err
  | .ok db =>
    match env.inst (c.instName o.spec) with
    | .error err => fail err
    | .ok inst =>
      if c.instName o.spec ≠ db.instName then
        fail ("instance names in " ++ c.kind ++ " and Database specs do not match: " ++
          (c.instName o.spec).quote ++ " != " ++ db.instName.quote)
      else match c.invalid o.spec with
        | some err => fail err
        | none =>
          if conditionStatusEquals (findCondition db.conditions .ready) .true then
            let request := c.request o.spec db inst (lroOperationID c o)
            let started : Outcome Spec Request :=
              ⟨setState c env.now c.reasons.inProgress "" o, true, some request, false, none,
                .ok requeueSoon⟩
            match env.launch with
            | .ok () => started
            | .error err =>
              if isAlreadyExistsError err then started
              else
                let text := "failed to start " ++ c.verb ++ ": " ++ err.text
                ⟨setState c env.now c.reasons.pending text o, true, some request, false, none,
                  .error text⟩
          else ⟨o, changed, none, false, none, .ok requeueSoon⟩

/-- `handleRunningImport` and `handleRunningExport`. -/
def handleRunning (env : Env) (o : Object Spec) (changed : Bool) : Outcome Spec Request :=
  match env.operation with
  | .error err => ⟨o, changed, none, false, none, .error err⟩
  | .ok operation =>
    if !operation.done then ⟨o, changed, none, false, none, .ok requeueLater⟩
    else
      let time := formatRFC3339 env.offset env.now
      match operation.getError with
      | some (_, message) =>
        ⟨setState c env.now c.reasons.failed (c.failedText o.spec time message) o, true, none, true,
          some (.failed message), .ok 0⟩
      | none =>
        let elapsed := elapsedTime env.now (findCondition o.conditions .ready)
        let event := if o.state = some c.reasons.complete then none else some (.completed elapsed)
        ⟨setState c env.now c.reasons.complete (c.completeText o.spec time) o, true, none, true,
          event, .ok 0⟩

/-- `Reconcile` of an object that has been read, up to the deferred update. -/
def reconcile (env : Env) (read : Object Spec) : Outcome Spec Request :=
  let (o, changed) := getState c env.now read
  if o.state = some c.reasons.pending then handleNotStarted c env o changed
  else if o.state = some c.reasons.inProgress then handleRunning c env o changed
  else ⟨o, changed, none, false, none, .ok 0⟩

end Controllers

section Import

structure ImportSpec where
  instName : String
  databaseName : String
  gcsPath : String
  gcsLogPath : String
  options : List (String × String)
  deriving DecidableEq, Repr

structure DataPumpImportRequest where
  pdbName : String
  dbDomain : String
  gcsPath : String
  gcsLogPath : String
  options : List (String × String)
  operationId : String
  deriving DecidableEq, Repr

def importController : Controller ImportSpec DataPumpImportRequest where
  reasons := ⟨.importPending, .importInProgress, .importComplete, .importFailed, by decide⟩
  kind := "Import"
  verb := "import"
  jobName := "DataPumpImport"
  instName := ImportSpec.instName
  databaseName := ImportSpec.databaseName
  invalid _ := none
  request spec db inst operationId :=
    ⟨db.name, inst.dbDomain, spec.gcsPath, spec.gcsLogPath, spec.options, operationId⟩
  failedText spec time message :=
    "Failed to import on " ++ time ++ " from " ++ spec.gcsPath ++ ": " ++ message
  completeText spec time := "Imported data on " ++ time ++ " from " ++ spec.gcsPath

end Import

section Export

structure ExportSpec where
  instName : String
  databaseName : String
  exportObjectType : String
  exportObjects : List String
  gcsPath : String
  gcsLogPath : String
  /-- As the layout `02-01-2006 15:04:05` writes it. -/
  flashbackTime : Option String
  deriving DecidableEq, Repr

structure DataPumpExportRequest where
  pdbName : String
  dbDomain : String
  objectType : String
  objects : String
  gcsPath : String
  gcsLogPath : String
  operationId : String
  flashbackTime : String
  deriving DecidableEq, Repr

def getFlashbackTime : Option String → String
  | some t => "TO_TIMESTAMP('" ++ t ++ "', 'DD-MM-YYYY HH24:MI:SS')"
  | none => ""

/-- A list of names as `%v` writes it. -/
def namesText (names : List String) : String := "[" ++ " ".intercalate names ++ "]"

def exportController : Controller ExportSpec DataPumpExportRequest where
  reasons := ⟨.exportPending, .exportInProgress, .exportComplete, .exportFailed, by decide⟩
  kind := "Export"
  verb := "export"
  jobName := "DataPumpExport"
  instName := ExportSpec.instName
  databaseName := ExportSpec.databaseName
  invalid spec :=
    if spec.exportObjects.length = 0 then
      some ("no object to export, exportObjects: " ++ namesText spec.exportObjects)
    else none
  request spec db inst operationId :=
    ⟨db.name, inst.dbDomain, spec.exportObjectType, ",".intercalate spec.exportObjects,
      spec.gcsPath, spec.gcsLogPath, operationId, getFlashbackTime spec.flashbackTime⟩
  failedText spec time message :=
    "Failed to export objectType " ++ spec.exportObjectType ++ " objects " ++
      namesText spec.exportObjects ++ " on " ++ time ++ " to " ++ spec.gcsPath ++ ": " ++ message
  completeText spec time :=
    "Exported objectType " ++ spec.exportObjectType ++ " objects " ++
      namesText spec.exportObjects ++ " on " ++ time ++ " to " ++ spec.gcsPath

end Export

end ElCarro.DataPump
