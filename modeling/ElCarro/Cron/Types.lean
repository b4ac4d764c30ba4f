import ElCarro.K8s.Api
import ElCarro.Lib.GoTime

/-! # CronAnything objects and their children

The children of a CronAnything are objects of any kind. What the controller
reads of them besides their metadata it reads through JSON paths, which are
evaluated by a library; the record `Libs` collects the libraries it calls.
-/

namespace ElCarro.Cron

open GoTime K8s

/-- The label that names the CronAnything which created an object. -/
def createdByLabel : String := "db.anthosapis.com/created-by"

def scheduleTimeLabel : String := "db.anthosapis.com/schedule-time"

def triggerHistoryMaxLength : Nat := 10

inductive ConcurrencyPolicy where
  | unset | allow | forbid | replace
  deriving DecidableEq, Repr

/-- A strategy of the given type; its own section may be missing. -/
inductive FinishableStrategy where
  | timestampField (fieldPath : Option String)
  | stringField (field : Option (String × List String))
  | unknown
  deriving DecidableEq, Repr

inductive ResourceTimestampStrategy where
  | field (fieldPath : Option String)
  | unknown
  deriving DecidableEq, Repr

structure ResourceRetention where
  historyCountLimit : Option Int
  historyTimeLimitSeconds : Option Nat
  resourceTimestampStrategy : ResourceTimestampStrategy
  deriving DecidableEq, Repr

structure CronAnythingSpec where
  schedule : String
  triggerDeadlineSeconds : Option Int
  concurrencyPolicy : ConcurrencyPolicy
  suspend : Option Bool
  finishableStrategy : Option FinishableStrategy
  template : String
  totalResourceLimit : Option Int
  retention : Option ResourceRetention
  cascadeDelete : Option Bool
  resourceBaseName : Option String
  resourceTimestampFormat : Option String
  deriving DecidableEq, Repr

inductive TriggerResult where
  | missed | createFailed | createSucceeded | resourceLimitReached | forbidConcurrent
  | deadlineExceeded
  deriving DecidableEq, Repr

structure PendingTrigger where
  scheduleTime : Time
  result : TriggerResult
  deriving DecidableEq, Repr

structure TriggerHistoryRecord where
  scheduleTime : Time
  creationTimestamp : Time
  result : TriggerResult
  deriving DecidableEq, Repr

structure CronAnythingStatus where
  lastScheduleTime : Option Time
  triggerHistory : List TriggerHistoryRecord
  pendingTrigger : Option PendingTrigger
  deriving DecidableEq, Repr

structure CronAnything where
  ns : String
  name : String
  uid : String
  creationTimestamp : Time
  deletionTimestamp : Option Time
  spec : CronAnythingSpec
  status : CronAnythingStatus
  deriving DecidableEq, Repr

structure OwnerReference where
  apiVersion : String
  kind : String
  name : String
  uid : String
  controller : Bool
  blockOwnerDeletion : Bool
  deriving DecidableEq, Repr

structure GroupVersionKind where
  apiVersion : String
  kind : String
  deriving DecidableEq, Repr

structure GroupVersionResource where
  groupVersion : String
  resource : String
  deriving DecidableEq, Repr

/-- An object of any kind; `content` is the part that only JSON paths look into. -/
structure Unstructured where
  gvk : GroupVersionKind
  ns : String
  name : String
  uid : String
  labels : StrMap
  creationTimestamp : Time
  deletionTimestamp : Option Time
  ownerReferences : List OwnerReference
  content : String
  deriving DecidableEq

structure Cluster where
  crons : List CronAnything
  objects : List (GroupVersionResource × Unstructured)
  deriving DecidableEq

/-- The object stored under a key, as `Get` reads it. -/
def Cluster.getCron (c : Cluster) (key : ObjectKey) : Option CronAnything :=
  c.crons.find? fun ca => ca.ns = key.ns ∧ ca.name = key.name

/-- `realResourceControl.List`: a label selector and no namespace. -/
def Cluster.list (c : Cluster) (resource : GroupVersionResource) (cronAnythingName : String) :
    List Unstructured :=
  (c.objects.filter fun o =>
    o.1 = resource ∧ Selects createdByLabel cronAnythingName o.2.labels).map Prod.snd

/-- Whether an object of this name exists already. -/
def Cluster.has (c : Cluster) (resource : GroupVersionResource) (ns name : String) : Bool :=
  c.objects.any fun o => o.1 = resource ∧ o.2.ns = ns ∧ o.2.name = name

/-- The libraries that the controller calls. -/
structure Libs where
  /-- `cron.ParseStandard` and `cron.Parse`, with the `Next` of the parsed schedule. -/
  parseStandard : String → Except String (Time → Time)
  parse : String → Except String (Time → Time)
  /-- Evaluation of a JSON path on an object. -/
  getFieldValue : String → Unstructured → Except String String
  /-- `metav1.Time.UnmarshalQueryParameter`. -/
  unmarshalTime : String → Except String Time
  /-- `json.Unmarshal` of a template. -/
  unmarshal : String → Except String Unstructured
  /-- `d.Seconds() > float64(limit)`. -/
  secondsExceed : Duration → Nat → Bool
  /-- `time.Time.Format`. -/
  format : String → Time → String
  /-- `sort.Sort`, which takes the order as `Less` and only rearranges. -/
  sort : (Unstructured → Unstructured → Bool) → List Unstructured → List Unstructured
  sort_perm : ∀ less items, (sort less items).Perm items

/-- What the rest of the world answers during one reconcile. -/
structure Env where
  now : Time
  /-- The clock when the next trigger is queued. -/
  later : Time
  getErr : Option ApiError
  listErr : Option ApiError
  deleteErr : String → String → Option ApiError
  createErr : Option ApiError
  /-- The outcome of one attempt of one status update of this reconcile. -/
  statusErr : Nat → Nat → Option ApiError

/-- The fields of the reconciler that one call reads. -/
structure Reconciler where
  resolve : GroupVersionKind → Option GroupVersionResource
  nextTrigger : Finmap fun _ : String => Time

structure Result where
  requeueAfter : Duration
  deriving DecidableEq, Repr

/-- A write request and whether it succeeded. -/
inductive Call where
  | delete (resource : GroupVersionResource) (ns name : String) (ok : Bool)
  | create (resource : GroupVersionResource) (ns : String) (obj : Unstructured) (ok : Bool)
  | updateStatus (key : ObjectKey) (status : CronAnythingStatus) (ok : Bool)
  deriving DecidableEq

/-- What one reconcile leaves behind. -/
structure Outcome where
  calls : List Call
  nextTrigger : Finmap fun _ : String => Time
  result : Except String Result

end ElCarro.Cron
