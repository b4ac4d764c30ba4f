import ElCarro.Lib.GoTime

/-! # Conditions

Status conditions of the custom resources. The first entry of a type is the one
that counts; an update keeps the transition time unless status or reason change.
-/

namespace ElCarro.K8s

open GoTime

inductive CondType where
  | ready | databaseInstanceReady | databaseInstanceTimeout | userReady | standbyReady
  | pauseMode | standbyDRReady | instanceStopped
  deriving DecidableEq, Repr

/-- The reasons of `condition.go`; two of its condition types also serve as reasons. -/
inductive Reason where
  | backupPending | backupReady | backupInProgress | backupDeleting | backupFailed
  | createComplete | createFailed | createInProgress | createPending | bootstrapPending
  | bootstrapInProgress | reconcileServices | restorePending | resizingInProgress
  | importComplete | importFailed | importInProgress | importPending | restoreComplete
  | restoreFailed | restorePreparationInProgress | restorePreparationComplete
  | restoreInProgress | postRestoreBootstrapInProgress | postRestoreBootstrapComplete
  | postRestoreDatabasePatchingInProgress | syncInProgress | userOutOfSync | syncComplete
  | manuallySetUpStandbyInProgress | promoteStandbyInProgress | promoteStandbyComplete
  | promoteStandbyFailed | dBShutDown | instanceStoppingInProgress | exportComplete
  | exportFailed | exportInProgress | exportPending | parameterUpdateInProgress
  | parameterUpdateComplete | parameterUpdateRollbackInProgress | standbyDRInProgress
  | standbyDRVerifyCompleted | standbyDRVerifyFailed | standbyDRCreateInProgress
  | standbyDRCreateFailed | standbyDRCreateCompleted | standbyDRSetUpDataGuardFailed
  | standbyDRSetUpDataGuardCompleted | standbyDRDataGuardReplicationInProgress
  | standbyDRPromoteFailed | standbyDRPromoteCompleted | standbyDRBootstrapFailed
  | standbyDRBootstrapCompleted | patchingBackupStarted | patchingBackupCompleted
  | patchingBackupFailure | patchingRecoveryInProgress | patchingRecoveryCompleted
  | patchingRecoveryFailure | deploymentSetPatchingInProgress
  | deploymentSetPatchingRollbackInProgress | deploymentSetPatchingFailure
  | deploymentSetPatchingComplete | statefulSetPatchingInProgress | statefulSetPatchingComplete
  | statefulSetPatchingFailure | databasePatchingInProgress | databasePatchingComplete
  | databasePatchingFailure | notSupported
  | pauseMode | instanceStopped
  deriving DecidableEq, Repr

inductive CondStatus where
  | true | false | unknown
  deriving DecidableEq, Repr

structure Condition where
  type : CondType
  status : CondStatus
  reason : Reason
  message : String
  lastTransitionTime : Time
  deriving DecidableEq, Repr

def findCondition (conditions : List Condition) (name : CondType) : Option Condition :=
  conditions.find? (·.type = name)

def conditionStatusEquals (cond : Option Condition) (status : CondStatus) : Bool :=
  cond.any (·.status = status)

def conditionReasonEquals (cond : Option Condition) (reason : Reason) : Bool :=
  cond.any (·.reason = reason)

/-- Seconds precision, as `Rfc3339Copy` leaves it. -/
def rfc3339Copy (t : Time) : Time := t / second * second

def updateCondition (now : Time) (status : CondStatus) (reason : Reason) (message : String)
    (cond : Condition) : Condition :=
  if cond.status = status ∧ cond.reason = reason then { cond with message := message }
  else { cond with
    status := status, reason := reason, message := message
    lastTransitionTime := rfc3339Copy now }

/-- `Upsert`: change the first condition of the type, or append one. -/
def upsert (now : Time) (name : CondType) (status : CondStatus) (reason : Reason)
    (message : String) : List Condition → List Condition
  | [] => [⟨name, status, reason, message, rfc3339Copy now⟩]
  | cond :: rest =>
    if cond.type = name then updateCondition now status reason message cond :: rest
    else cond :: upsert now name status reason message rest

/-- Elapsed time since the last transition, rounded to a second, halves away from zero. -/
def elapsedTime (now : Time) (cond : Option Condition) : Duration :=
  match cond with
  | none => 0
  | some cond =>
    let d := sub (rfc3339Copy now) cond.lastTransitionTime
    if 0 ≤ d then (d + second / 2) / second * second
    else -((-d + second / 2) / second * second)

section

variable {now : Time} {name other : CondType} {status : CondStatus} {reason : Reason}
  {message : String} {conditions : List Condition}

@[simp] theorem updateCondition_type {cond : Condition} :
    (updateCondition now status reason message cond).type = cond.type := by
  unfold updateCondition
  split <;> rfl

@[simp] theorem updateCondition_reason {cond : Condition} :
    (updateCondition now status reason message cond).reason = reason := by
  unfold updateCondition
  split
  · next h => exact h.2
  · rfl

@[simp] theorem updateCondition_status {cond : Condition} :
    (updateCondition now status reason message cond).status = status := by
  unfold updateCondition
  split
  · next h => exact h.1
  · rfl

theorem findCondition_upsert_self :
    ∃ cond, findCondition (upsert now name status reason message conditions) name = some cond ∧
      cond.status = status ∧ cond.reason = reason := by
  induction conditions with
  | nil => exact ⟨_, by simp [upsert, findCondition]; rfl, rfl, rfl⟩
  | cons cond rest ih =>
    unfold upsert
    split
    · next h =>
      exact ⟨updateCondition now status reason message cond,
        by simp [findCondition, h], updateCondition_status, updateCondition_reason⟩
    · next h => simpa [findCondition, h] using ih

theorem findCondition_upsert_ne (hne : other ≠ name) :
    findCondition (upsert now name status reason message conditions) other =
      findCondition conditions other := by
  induction conditions with
  | nil => simp [upsert, findCondition, hne.symm]
  | cons cond rest ih =>
    unfold upsert
    split
    · next h => simp [findCondition, h, hne.symm]
    · by_cases ho : cond.type = other
      · simp [findCondition, ho]
      · simpa [findCondition, ho] using ih

end

end ElCarro.K8s
