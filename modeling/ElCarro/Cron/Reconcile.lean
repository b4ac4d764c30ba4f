import ElCarro.Cron.Types

/-! # The CronAnything reconciler

One reconcile lists the children, deletes finished ones beyond the retention
limits, works out the triggers that are due and creates at most one child. The
outcome `none` means that the call does not return: the schedule loop goes on,
or a timestamp strategy without its section is dereferenced.
-/

namespace ElCarro.Cron

open GoTime K8s

def errorText : ApiError → String
  | .notFound => "not found"
  | .alreadyExists => "already exists"
  | .conflict => "conflict"
  | .other message => message

section Children

variable (lib : Libs) (ca : CronAnything)

/-- The finish time of a resource and whether it has finished. -/
def getTimestamp (fieldPath : String) (resource : Unstructured) :
    Except String (Time × Bool) := do
  let value ← lib.getFieldValue fieldPath resource
  if value = "" then
    pure (0, false)
  else
    let timestamp ← lib.unmarshalTime value
    pure (timestamp, true)

def isFinished (resource : Unstructured) : Except String Bool :=
  match ca.spec.finishableStrategy with
  | none => pure false
  | some (.timestampField none) =>
    .error "FinishableStrategy type is timestampField, but TimestampField property is nil"
  | some (.timestampField (some fieldPath)) =>
    (getTimestamp lib fieldPath resource).map Prod.snd
  | some (.stringField none) =>
    .error "FinishableStrategy type is stringField, but StringField property is nil"
  | some (.stringField (some (fieldPath, finishedValues))) =>
    (lib.getFieldValue fieldPath resource).map fun value => finishedValues.contains value
  | some .unknown => pure false

/-- `getResourceTimestamp`, undefined when the section of the strategy is nil. -/
def getResourceTimestamp (retention : ResourceRetention) (resource : Unstructured) :
    Option (Except String Time) :=
  match retention.resourceTimestampStrategy with
  | .field none => none
  | .field (some fieldPath) => some ((getTimestamp lib fieldPath resource).map Prod.fst)
  | .unknown => some (.error ("can't find timestamp for resource " ++ resource.name))

/-- The cache of `newByTimestamp`; later entries of a UID win. -/
def timestampCache (retention : ResourceRetention) (items : List Unstructured) :
    Option (List (String × Time)) :=
  items.foldlM (fun cache item => (getResourceTimestamp lib retention item).map fun
    | .ok finishedTime => (item.uid, finishedTime) :: cache
    | .error _ => cache) []

/-- `byTimestamp.Less`: newest first, and resources without a timestamp last. -/
def less (cache : List (String × Time)) (i j : Unstructured) : Bool :=
  match cache.lookup i.uid, cache.lookup j.uid with
  | none, none => decide (j.creationTimestamp < i.creationTimestamp)
  | none, some _ => false
  | some _, none => true
  | some iTimestamp, some jTimestamp => decide (jTimestamp < iTimestamp)

/-- The loop of `cleanupHistory` that selects the children to delete. -/
def selectInactive (retention : ResourceRetention) (now : Time) :
    Int → List Unstructured → Option (List Unstructured)
  | _, [] => some []
  | keeperCount, child :: rest =>
    match isFinished lib ca child with
    | .ok true =>
      match getResourceTimestamp lib retention child with
      | none => none
      | some (.error _) => selectInactive retention now keeperCount rest
      | some (.ok timestamp) =>
        if ∃ limit ∈ retention.historyTimeLimitSeconds,
            timestamp < now ∧ lib.secondsExceed (sub now timestamp) limit then
          (selectInactive retention now keeperCount rest).map (child :: ·)
        else if ∃ limit ∈ retention.historyCountLimit, limit ≤ keeperCount then
          (selectInactive retention now keeperCount rest).map (child :: ·)
        else selectInactive retention now (int32 (keeperCount + 1)) rest
    | _ => selectInactive retention now keeperCount rest

/-- The delete calls for the given children, in order; one being deleted is skipped. -/
def deleteChildren (env : Env) (resource : GroupVersionResource) (children : List Unstructured) :
    List Call :=
  (children.filter fun child => child.deletionTimestamp.isNone).map fun child =>
    .delete resource child.ns child.name (env.deleteErr child.ns child.name).isNone

/-- The names under which a delete call succeeded. -/
def deletedNames (calls : List Call) : List String :=
  calls.filterMap fun
    | .delete _ _ name true => some name
    | _ => none

/-- `deleteInactiveResources`: the calls made and the children that remain. -/
def deleteInactiveResources (env : Env) (resource : GroupVersionResource)
    (toBeDeleted childResources : List Unstructured) : List Call × List Unstructured :=
  let calls := deleteChildren env resource toBeDeleted
  (calls, childResources.filter fun child => !(deletedNames calls).contains child.name)

def cleanupHistory (env : Env) (resource : GroupVersionResource)
    (childResources : List Unstructured) : Option (List Call × List Unstructured) :=
  match ca.spec.retention with
  | none => some ([], childResources)
  | some retention =>
    if retention.historyTimeLimitSeconds = none ∧ retention.historyCountLimit = none then
      some ([], childResources)
    else do
      let cache ← timestampCache lib retention childResources
      let sorted := lib.sort (less cache) childResources
      let toBeDeleted ← selectInactive lib ca retention env.now 0 sorted
      return deleteInactiveResources env resource toBeDeleted sorted

/-- `findActiveChildResources`: a child whose state cannot be read counts as active. -/
def findActiveChildResources (childResources : List Unstructured) : List Unstructured :=
  childResources.filter fun child =>
    match isFinished lib ca child with
    | .ok finished => !finished
    | .error _ => true

end Children

section Schedule

/-- The loop over unmet times: `t` is the next candidate. -/
def unmetTimes (next : Time → Time) (now : Time) : Nat → Time → Option (List Time)
  | 0, _ => none
  | fuel + 1, t => if t < now then (unmetTimes next now fuel (next t)).map (t :: ·) else some []

def getScheduleTimes (lib : Libs) (ca : CronAnything) (now : Time) (fuel : Nat) :
    Option (Except String (List Time × Time)) :=
  let parsed : Except String (Time → Time) := match lib.parseStandard ca.spec.schedule with
    | .ok next => .ok next
    | .error err => match lib.parse ca.spec.schedule with
      | .ok next => .ok next
      | .error _ => .error ("unable to parse schedule string: " ++ err)
  match parsed with
  | .error err => some (.error err)
  | .ok next =>
    let startSchedTime := ca.status.lastScheduleTime.getD ca.creationTimestamp
    (unmetTimes next now fuel (next startSchedTime)).map fun times => .ok (times, next now)

/-- Whether a trigger is past its deadline; the seconds are scaled in 64 bits. -/
def deadlineExceeded (ca : CronAnything) (scheduleTime now : Time) : Bool :=
  match ca.spec.triggerDeadlineSeconds with
  | none => false
  | some triggerDeadline => decide (scheduleTime + int64 (triggerDeadline * second) < now)

end Schedule

section Status

def updateLastScheduleTime (status : CronAnythingStatus) (scheduleTime : Time) :
    CronAnythingStatus :=
  match status.lastScheduleTime with
  | none => { status with lastScheduleTime := some scheduleTime }
  | some last =>
    if last < scheduleTime then { status with lastScheduleTime := some scheduleTime } else status

def addToTriggerHistory (status : CronAnythingStatus) (record : TriggerHistoryRecord) :
    CronAnythingStatus :=
  { status with triggerHistory := (record :: status.triggerHistory).take triggerHistoryMaxLength }

/-- The update that closes a trigger with a result. -/
def recordTrigger (scheduleTime now : Time) (result : TriggerResult)
    (freshStatus : CronAnythingStatus) : CronAnythingStatus :=
  addToTriggerHistory
    { updateLastScheduleTime freshStatus scheduleTime with pendingTrigger := none }
    ⟨scheduleTime, now, result⟩

/-- The update after a missed deadline, which prefers the result of a pending trigger. -/
def recordDeadline (scheduleTime now : Time) (freshStatus : CronAnythingStatus) :
    CronAnythingStatus :=
  let result := match freshStatus.pendingTrigger with
    | some pending =>
      if pending.scheduleTime = scheduleTime then pending.result else .deadlineExceeded
    | none => .deadlineExceeded
  { addToTriggerHistory (updateLastScheduleTime freshStatus scheduleTime)
      ⟨scheduleTime, now, result⟩ with pendingTrigger := none }

/--
`updateCronAnythingStatus`: the status updates sent, the status stored afterwards and the
error of the last attempt. `call` numbers the updates of one reconcile.
-/
def updateCronAnythingStatus (env : Env) (call : Nat) (key : ObjectKey)
    (stored : CronAnythingStatus) (updateFunc : CronAnythingStatus → CronAnythingStatus) :
    List Call × CronAnythingStatus × Except String Unit :=
  match retryOnConflict (fun k => match env.statusErr call k with
      | none => .ok ()
      | some e => .error e) defaultBackoffSteps with
  | .ok () => ([.updateStatus key (updateFunc stored) true], updateFunc stored, .ok ())
  | .error e =>
    ([.updateStatus key (updateFunc stored) false], stored, .error (errorText e))

end Status

def getResourceName (lib : Libs) (ca : CronAnything) (scheduleTime : Time) : String :=
  let baseName := match ca.spec.resourceBaseName with
    | some base => if base = "" then ca.name else base
    | none => ca.name
  let timestamp := match ca.spec.resourceTimestampFormat with
    | some layout =>
      if layout = "" then toString (unix scheduleTime) else lib.format layout scheduleTime
    | none => toString (unix scheduleTime)
  baseName ++ "-" ++ timestamp

/-- The child that a trigger creates from the template. -/
def childFor (lib : Libs) (ca : CronAnything) (crt : Unstructured) (scheduleTime : Time) :
    Unstructured :=
  { crt with
    name := getResourceName lib ca scheduleTime
    labels := (crt.labels.insert createdByLabel ca.name).insert scheduleTimeLabel
      (toString (unix scheduleTime))
    ownerReferences :=
      if ca.spec.cascadeDelete = some true then
        [⟨"db.anthosapis.com/v1alpha1", "CronAnything", ca.name, ca.uid, true, true⟩]
      else crt.ownerReferences }

def canonicalName (ca : CronAnything) : String := ca.ns ++ "/" ++ ca.name

section Trigger

variable (lib : Libs) (env : Env) (r : Reconciler) (ca : CronAnything)

/-- `updateTriggerTimes`, which asks for a requeue only when the next trigger is new. -/
def updateTriggerTimes (calls : List Call) (nextScheduleTime : Time) : Outcome :=
  if r.nextTrigger.lookup (canonicalName ca) = some nextScheduleTime then
    ⟨calls, r.nextTrigger, .ok ⟨0⟩⟩
  else
    ⟨calls, r.nextTrigger.insert (canonicalName ca) nextScheduleTime,
      .ok ⟨sub nextScheduleTime env.later⟩⟩

/-- Close a trigger with a status update and queue the next one. -/
def closeTrigger (call : Nat) (calls : List Call) (stored : CronAnythingStatus)
    (updateFunc : CronAnythingStatus → CronAnythingStatus) (nextScheduleTime : Time) : Outcome :=
  match updateCronAnythingStatus env call ⟨ca.ns, ca.name⟩ stored updateFunc with
  | (updates, _, .error err) => ⟨calls ++ updates, r.nextTrigger, .error err⟩
  | (updates, _, .ok ()) => updateTriggerTimes env r ca (calls ++ updates) nextScheduleTime

/-- The deletes of the Replace policy stop at the first error. -/
def replaceActive (resource : GroupVersionResource) : List Unstructured → List Call × Option ApiError
  | [] => ([], none)
  | child :: rest =>
    if child.deletionTimestamp.isSome then replaceActive resource rest
    else match env.deleteErr child.ns child.name with
      | some err => ([.delete resource child.ns child.name false], some err)
      | none =>
        let (calls, err) := replaceActive resource rest
        (.delete resource child.ns child.name true :: calls, err)

/-- The last part of a reconcile: create the child and record how it went. -/
def createChild (c : Cluster) (crt : Unstructured) (resource : GroupVersionResource)
    (calls : List Call) (stored : CronAnythingStatus) (scheduleTime nextScheduleTime : Time) :
    Outcome :=
  let child := childFor lib ca crt scheduleTime
  let createErr := if c.has resource ca.ns child.name then some .alreadyExists else env.createErr
  match createErr with
  | some err =>
    let (updates, _, _) := updateCronAnythingStatus env 1 ⟨ca.ns, ca.name⟩ stored fun freshStatus =>
      { freshStatus with pendingTrigger := some ⟨scheduleTime, .createFailed⟩ }
    ⟨calls ++ [.create resource ca.ns child false] ++ updates, r.nextTrigger,
      .error (errorText err)⟩
  | none =>
    closeTrigger env r ca 1 (calls ++ [.create resource ca.ns child true]) stored
      (recordTrigger scheduleTime env.now .createSucceeded) nextScheduleTime

/-- What happens to the latest unmet trigger once the dropped ones are recorded. -/
def handleTrigger (c : Cluster) (crt : Unstructured) (resource : GroupVersionResource)
    (childResources : List Unstructured) (calls : List Call) (stored : CronAnythingStatus)
    (scheduleTime nextScheduleTime : Time) : Outcome :=
  if deadlineExceeded ca scheduleTime env.now then
    closeTrigger env r ca 1 calls stored (recordDeadline scheduleTime env.now) nextScheduleTime
  else
    let active := findActiveChildResources lib ca childResources
    if active ≠ [] ∧ ca.spec.concurrencyPolicy = .forbid then
      closeTrigger env r ca 1 calls stored (recordTrigger scheduleTime env.now .forbidConcurrent)
        nextScheduleTime
    else if active ≠ [] ∧ ca.spec.concurrencyPolicy = .replace then
      match replaceActive env resource active with
      | (deletes, some err) => ⟨calls ++ deletes, r.nextTrigger, .error (errorText err)⟩
      | (deletes, none) => ⟨calls ++ deletes, r.nextTrigger, .ok ⟨1 * second⟩⟩
    else if ∃ limit ∈ ca.spec.totalResourceLimit, limit ≤ int32 childResources.length then
      closeTrigger env r ca 1 calls stored
        (recordTrigger scheduleTime env.now .resourceLimitReached) nextScheduleTime
    else
      createChild lib env r ca c crt resource calls stored scheduleTime nextScheduleTime

/-- The history record for the latest dropped trigger. -/
def droppedRecord (dropped : List Time) (latestDropped : Time) : TriggerHistoryRecord :=
  let result := match ca.status.pendingTrigger with
    | some pending =>
      if dropped.length = 1 ∧ pending.scheduleTime = latestDropped then pending.result else .missed
    | none => .missed
  ⟨latestDropped, env.now, result⟩

/-- The part of a reconcile that works on the remaining children and the unmet times. -/
def handleUnmet (c : Cluster) (crt : Unstructured) (resource : GroupVersionResource)
    (childResources : List Unstructured) (calls : List Call) (unmet : List Time)
    (nextScheduleTime : Time) : Outcome :=
  match unmet.getLast? with
  | none => updateTriggerTimes env r ca calls nextScheduleTime
  | some scheduleTime =>
    match unmet.dropLast.getLast? with
    | none =>
      handleTrigger lib env r ca c crt resource childResources calls ca.status scheduleTime
        nextScheduleTime
    | some latestDropped =>
      match updateCronAnythingStatus env 0 ⟨ca.ns, ca.name⟩ ca.status fun freshStatus =>
          addToTriggerHistory
            { updateLastScheduleTime freshStatus latestDropped with pendingTrigger := none }
            (droppedRecord env ca unmet.dropLast latestDropped) with
      | (updates, _, .error err) => ⟨calls ++ updates, r.nextTrigger, .error err⟩
      | (updates, stored, .ok ()) =>
        handleTrigger lib env r ca c crt resource childResources (calls ++ updates) stored
          scheduleTime nextScheduleTime

end Trigger

/-- `Reconcile`. -/
def reconcile (lib : Libs) (env : Env) (r : Reconciler) (fuel : Nat) (c : Cluster)
    (request : ObjectKey) : Option Outcome :=
  let done (result : Except String Result) : Option Outcome := some ⟨[], r.nextTrigger, result⟩
  match env.getErr with
  | some .notFound => done (.ok ⟨0⟩)
  | some err => done (.error (errorText err))
  | none =>
    match c.getCron request with
    | none => done (.ok ⟨0⟩)
    | some ca =>
      if ca.deletionTimestamp.isSome then done (.ok ⟨0⟩)
      else match lib.unmarshal ca.spec.template with
      | .error err => done (.error ("unable to parse template: " ++ err))
      | .ok crt =>
        match r.resolve crt.gvk with
        | none => done (.error ("unable to resolve child resource for " ++ canonicalName ca))
        | some resource =>
          match env.listErr with
          | some err => done (.error (errorText err))
          | none =>
            match cleanupHistory lib ca env resource (c.list resource ca.name) with
            | none => none
            | some (calls, childResources) =>
              if ca.spec.suspend = some true then some ⟨calls, r.nextTrigger, .ok ⟨0⟩⟩
              else match getScheduleTimes lib ca (env.now + 1 * second) fuel with
                | none => none
                | some (.error err) => some ⟨calls, r.nextTrigger, .error err⟩
                | some (.ok (unmet, nextScheduleTime)) =>
                  some (handleUnmet lib env r ca c crt resource childResources calls unmet
                    nextScheduleTime)

end ElCarro.Cron
