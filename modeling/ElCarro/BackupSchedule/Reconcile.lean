import ElCarro.Api.Types
import ElCarro.Cron.Types

/-! # The BackupSchedule reconciler

A BackupSchedule owns one CronAnything that creates its Backups. A reconcile
creates or updates that cron, then records the history of the Backups that carry
the name of the cron and deletes those beyond the retention count.
-/

namespace ElCarro.BackupSchedule

open GoTime K8s Api Cron

def defaultTriggerDeadlineSeconds : Int := 30
def defaultRetention : Int := 7
def defaultMaxHistoryRecords : Int := 7
def defaultTimeFormat : String := "20060102-150405"

structure BackupHistoryRecord where
  backupName : String
  creationTime : Time
  phase : BackupPhase
  deriving DecidableEq, Repr

structure BackupScheduleStatus where
  backupTotal : Option Int
  backupHistory : List BackupHistoryRecord
  deriving DecidableEq, Repr

structure Schedule where
  ns : String
  name : String
  schedule : String
  startingDeadlineSeconds : Option Int
  /-- The retention policy and the count inside it may both be left out. -/
  backupRetentionPolicy : Option (Option Int)
  /-- The serialized spec and labels of the Backups to create. -/
  backupSpec : String
  status : BackupScheduleStatus
  deriving DecidableEq, Repr

def getCronName (schedule : Schedule) : String := schedule.name ++ "-cron"

structure Cluster where
  schedules : List Schedule
  crons : List CronAnything
  backups : List Backup
  deriving DecidableEq

def Cluster.getSchedule (c : Cluster) (key : ObjectKey) : Option Schedule :=
  c.schedules.find? fun s => s.ns = key.ns ∧ s.name = key.name

def Cluster.getCron (c : Cluster) (key : ObjectKey) : Option CronAnything :=
  c.crons.find? fun ca => ca.ns = key.ns ∧ ca.name = key.name

/-- `RealBackupControl.List`: by label in all namespaces, without the Backups being deleted. -/
def Cluster.listBackups (c : Cluster) (cronAnythingName : String) : List Backup :=
  c.backups.filter fun b =>
    Selects createdByLabel cronAnythingName b.labels ∧ b.deletionTimestamp = none

structure Libs where
  /-- `GetBackupBytes`: the template of a schedule, as JSON. -/
  getBackupBytes : Schedule → Except String String
  /-- Whether two JSON objects are equal as maps. -/
  compareTemplate : String → String → Except String Bool
  /-- `sort.Slice`, which takes the order as `less` and only rearranges. -/
  sort : (Backup → Backup → Bool) → List Backup → List Backup
  sort_perm : ∀ less items, (sort less items).Perm items

/-- The answers of the API server; retried calls are numbered by their attempt. -/
structure Env where
  getErr : Option ApiError
  getCronErr : Option ApiError
  createCronErr : Option ApiError
  freshCronErr : Nat → Option ApiError
  updateCronErr : Nat → Option ApiError
  historyErr : Nat → Option ApiError
  deleteErr : Backup → Option ApiError

/-- A write that succeeded, or a delete request. -/
inductive Call where
  | createCron (key : ObjectKey) (spec : CronAnythingSpec)
  | updateCron (key : ObjectKey) (spec : CronAnythingSpec)
  | updateStatus (key : ObjectKey) (status : BackupScheduleStatus)
  | deleteBackup (backup : Backup) (ok : Bool)
  deriving DecidableEq

/-- The calls of one reconcile, the Backups whose history it recorded and its error. -/
structure Outcome where
  calls : List Call
  counted : List Backup
  err : Option ApiError

section

variable (lib : Libs) (env : Env)

def cronSpec (schedule : Schedule) (backupBytes : String) : CronAnythingSpec where
  schedule := schedule.schedule
  triggerDeadlineSeconds :=
    some (schedule.startingDeadlineSeconds.getD defaultTriggerDeadlineSeconds)
  concurrencyPolicy := .forbid
  suspend := none
  finishableStrategy := some (.stringField (some ("{.status.phase}", ["Succeeded", "Failed"])))
  template := backupBytes
  totalResourceLimit := none
  retention := none
  cascadeDelete := none
  resourceBaseName := some (getCronName schedule)
  resourceTimestampFormat := some defaultTimeFormat

def createCron (schedule : Schedule) : List Call × Option ApiError :=
  match lib.getBackupBytes schedule with
  | .error err => ([], some (.other err))
  | .ok backupBytes =>
    match env.createCronErr with
    | some err => ([], some err)
    | none =>
      ([.createCron ⟨schedule.ns, getCronName schedule⟩ (cronSpec schedule backupBytes)], none)

/-- `updateCron`: an update is sent when schedule, deadline or template differ. -/
def updateCron (schedule : Schedule) (cron : CronAnything) : List Call × Option ApiError :=
  match lib.getBackupBytes schedule with
  | .error err => ([], some (.other err))
  | .ok backupBytes =>
    let attempt (k : Nat) : Except ApiError Bool :=
      match env.freshCronErr k, lib.compareTemplate cron.spec.template backupBytes with
      | some err, _ => .error err
      | none, .error err => .error (.other err)
      | none, .ok templatesEqual =>
        if templatesEqual ∧ schedule.schedule = cron.spec.schedule ∧
            schedule.startingDeadlineSeconds = cron.spec.triggerDeadlineSeconds then
          .ok false
        else match env.updateCronErr k with
          | some err => .error err
          | none => .ok true
    match retryOnConflict attempt defaultBackoffSteps with
    | .error err => ([], some err)
    | .ok false => ([], none)
    | .ok true =>
      ([.updateCron ⟨cron.ns, cron.name⟩ { cron.spec with
        schedule := schedule.schedule
        template := backupBytes
        triggerDeadlineSeconds := schedule.startingDeadlineSeconds }], none)

/-- `getSortedBackupsForCron`: the listed Backups, newest first. -/
def getSortedBackupsForCron (c : Cluster) (cron : CronAnything) : List Backup :=
  lib.sort (fun i j => decide (j.creationTimestamp < i.creationTimestamp))
    (c.listBackups cron.name)

/-- The status that `updateHistory` writes. -/
def historyOf (sortedBackups : List Backup) : BackupScheduleStatus :=
  let records := sortedBackups.map fun b => ⟨b.name, b.creationTimestamp, b.status.phase⟩
  let backupTotal := int32 records.length
  { backupTotal := some backupTotal
    backupHistory :=
      if defaultMaxHistoryRecords < backupTotal then records.take defaultMaxHistoryRecords.toNat
      else records }

def retentionCount (schedule : Schedule) : Int :=
  match schedule.backupRetentionPolicy with
  | some (some max) => max
  | _ => defaultRetention

/-- The loop of `pruneBackups`, which stops at the first delete that fails. -/
def pruneLoop : Int → List Backup → List Call × Option ApiError
  | _, [] => ([], none)
  | count, backup :: rest =>
    let count' := if backup.status.phase = .succeeded ∧ 0 < count then count - 1 else count
    if count ≤ 0 then
      match env.deleteErr backup with
      | some err => ([.deleteBackup backup false], some err)
      | none =>
        let (calls, err) := pruneLoop count' rest
        (.deleteBackup backup true :: calls, err)
    else pruneLoop count' rest

def pruneBackups (max : Int) (sortedBackups : List Backup) : List Call × Option ApiError :=
  if max = 0 then ([], none) else pruneLoop env max sortedBackups

/-- Outcome of the retried list, get and status update of the history. -/
def recordHistory : Except ApiError Unit :=
  retryOnConflict (fun k => match env.historyErr k with
    | none => .ok ()
    | some e => .error e) defaultBackoffSteps

def reconcile (c : Cluster) (req : ObjectKey) : Outcome :=
  match env.getErr, c.getSchedule req with
  | some .notFound, _ => ⟨[], [], none⟩
  | some err, _ => ⟨[], [], some err⟩
  | none, none => ⟨[], [], none⟩
  | none, some schedule =>
    match env.getCronErr, c.getCron ⟨schedule.ns, getCronName schedule⟩ with
    | some .notFound, _ | none, none =>
      let (calls, err) := createCron lib env schedule
      ⟨calls, [], err⟩
    | some err, _ => ⟨[], [], some err⟩
    | none, some cron =>
      match updateCron lib env schedule cron with
      | (calls, some err) => ⟨calls, [], some err⟩
      | (calls, none) =>
        let backups := getSortedBackupsForCron lib c cron
        match recordHistory env with
        | .error err => ⟨calls, [], some err⟩
        | .ok () =>
          let (deletes, err) := pruneBackups env (retentionCount schedule) backups
          ⟨calls ++ [.updateStatus req (historyOf backups)] ++ deletes, backups, err⟩

end

end ElCarro.BackupSchedule
