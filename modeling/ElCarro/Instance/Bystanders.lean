import ElCarro.Instance.RestoreView

/-! # Properties that most of a reconcile keeps

Most statements of a reconcile set the Ready condition, a field of the status that
is read where it is written, or an object other than the instance. A property of
the instance that looks at none of these holds of the stored instance and of the
copy after each of them. What is left are the machines for the database, for a
standby and for parameters, and the end of a restore.
-/

namespace ElCarro.Instance.Reconciler

open GoTime K8s Api Flow

/-- The instances agree on the conditions, on the parameters and on whether there is a standby. -/
structure Aligned (i j : Instance) : Prop where
  conditions : j.status.conditions = i.status.conditions
  current : j.status.currentParameters = i.status.currentParameters
  requested : j.spec.parameters = i.spec.parameters
  replication : j.spec.replicationSettings = i.spec.replicationSettings
  mode : j.spec.mode = i.spec.mode

def withReady (inst : Instance) (now : Time) (status : CondStatus) (reason : Reason)
    (message : String) : Instance :=
  withConditions inst (upsert now .ready status reason message inst.status.conditions)

/-- The property does not depend on what the ordinary statements of a reconcile change. -/
structure Robust (Q : Instance → Prop) : Prop where
  aligned : ∀ {i j}, Aligned i j → Q i → Q j
  ready : ∀ {i} now status {reason} message, reason ≠ .restoreComplete → Q i →
    Q (withReady i now status reason message)
  /-- A new message for the reason that is there. -/
  refresh : ∀ {i cond} now message, readyCond i = some cond → Q i →
    Q (withReady i now cond.status cond.reason message)
  status : ∀ {i j}, Q i → Q j → Q { i with status := j.status }

/-- The stored instance and the copy have the property. -/
structure Both (Q : Instance → Prop) (s : Session) : Prop where
  stored : Q s.stored
  mem : Q s.mem

def Maintains (Q : Instance → Prop) (s t : Session) : Prop := Both Q s → Both Q t

variable {Q : Instance → Prop} {env : Env} {s t : Session}

instance : Std.Refl (Maintains Q) := ⟨fun _ h => h⟩

instance : IsTrans Session (Maintains Q) := ⟨fun _ _ _ h h' hs => h' (h hs)⟩

section Objects

/-- A statement keeps a property if it does so wherever the property holds. -/
theorem maintains_of_both {α : Type} {p : P α}
    (h : ∀ s, Both Q s → wp p (fun _ => Both Q) (fun _ => Both Q) s) : Within (Maintains Q) p := by
  intro s
  by_cases hs : Both Q s
  · exact (h s hs).mono (fun _ _ ht _ => ht) fun _ _ ht _ => ht
  · unfold wp
    cases p s with
    | next a t => exact fun hb => absurd hb hs
    | done r t => exact fun hb => absurd hb hs

theorem both_of_maintains {α : Type} {p : P α} (h : Within (Maintains Q) p) (hs : Both Q s) :
    wp p (fun _ => Both Q) (fun _ => Both Q) s :=
  (h s).mono (fun _ _ ht => ht hs) fun _ _ ht => ht hs

theorem maintains_of_same (hstored : t.stored = s.stored) (hmem : t.mem = s.mem) :
    Maintains Q s t := by
  rintro ⟨hs, hm⟩
  exact ⟨hstored ▸ hs, hmem ▸ hm⟩

/-- A write of another object. -/
theorem maintains_effect {c : Call} {f : Session → Session}
    (hf : ∀ s, (f s).stored = s.stored ∧ (f s).mem = s.mem) :
    Within (Maintains Q) (effect env c f) := by
  intro s
  have hs : Maintains Q s (f s) := maintains_of_same (hf s).1 (hf s).2
  exact wp_effect (Std.Refl.refl s) hs hs

theorem Untouched.maintains (h : Untouched s t) : Maintains Q s t :=
  maintains_of_same (congrArg (·.value) h.server) (congrArg (·.value) h.copy)

theorem maintains_of_untouched {α : Type} {p : P α} (hp : Within Untouched p) :
    Within (Maintains Q) p :=
  fun s => (hp s).mono (fun _ _ h => h.maintains) fun _ _ h => h.maintains

theorem maintains_applySts {path : Path} {sts : StatefulSet} {c : Call} :
    Within (Maintains Q) (applySts env path sts c) :=
  maintains_effect fun _ => ⟨rfl, rfl⟩

theorem maintains_deleteSts {path : Path} {c : Call} :
    Within (Maintains Q) (deleteSts env path c) :=
  maintains_effect fun _ => ⟨rfl, rfl⟩

theorem maintains_rewriteSts {f : StatefulSet → StatefulSet} {c : Call} :
    Within (Maintains Q) (rewriteSts env f c) :=
  maintains_effect fun _ => ⟨rfl, rfl⟩

theorem maintains_createStatefulSet {path : Path} {sp : StsParams} {c : Call} :
    Within (Maintains Q) (createStatefulSet env path sp c) := by
  unfold createStatefulSet
  cases constructSTSandPVCs sp with
  | error e => exact .pure _
  | ok sts => exact maintains_applySts

theorem maintains_createFromSnapshot {path : Path} {inst : Instance} {sp : StsParams} :
    Within (Maintains Q) (createFromSnapshot env path inst sp) := by
  unfold createFromSnapshot
  cases restoreSnapshot inst sp with
  | error e => exact .pure _
  | ok sts => exact maintains_applySts

theorem maintains_createMonitoringDeployment {replicas : Nat} {images : StrMap} {c : Call} :
    Within (Maintains Q) (createMonitoringDeployment env replicas images c) :=
  maintains_effect fun _ => ⟨rfl, rfl⟩

theorem maintains_reconcileMonitoring {images : StrMap} :
    Within (Maintains Q) (reconcileMonitoring env images) := by
  refine .ite (fun _ => .pure _) fun _ => .ite (fun _ => .pure _) fun _ => ?_
  refine .ite (fun _ => .pure _) fun _ => ?_
  exact .bind maintains_createMonitoringDeployment fun _ => .pure _

theorem maintains_deleteDatabases {names : List String} :
    Within (Maintains Q) (deleteDatabases env names) := by
  induction names with
  | nil => exact .pure ()
  | cons name rest ih =>
    refine .bind (.when fun _ => .finish _) fun _ => ?_
    refine .bind (.when fun _ => .finish _) fun _ => ?_
    refine .bind (maintains_effect fun _ => ⟨rfl, rfl⟩) fun _ => ?_
    exact .bind (.when fun _ => .finish _) fun _ => ih

theorem maintains_takeSnapshots {backupID : String} {disks : List DiskSpec} :
    Within (Maintains Q) (takeSnapshots env backupID disks) := by
  induction disks with
  | nil => exact .pure _
  | cons disk rest ih =>
    refine .bind .get fun _ => .bind (maintains_effect fun _ => ⟨rfl, rfl⟩) fun _ => ?_
    exact .ite (fun _ => ih) fun _ => .pure _

theorem maintains_checkSnapshots {backupID : String} {disks : List DiskSpec} :
    Within (Maintains Q) (checkSnapshots env backupID disks) := by
  induction disks with
  | nil => exact .pure _
  | cons disk rest ih =>
    refine .bind .get fun s => .ite (fun _ => .pure _) fun _ => ?_
    split
    · exact .pure _
    · exact .pure _
    · exact .pure _
    · exact .pure _
    · exact ih
    · exact .bind (.modify fun _ => maintains_of_same rfl rfl) fun _ => ih

theorem maintains_write {object : Session → Instance} {c : Call} (hobject : ∀ s, Both Q s → Q (object s)) :
    Within (Maintains Q) (write env object c) := by
  intro s
  apply wp_write
  · exact Std.Refl.refl s
  · intro hs
    refine ⟨?_, ?_⟩
    · rw [store_stored]
      exact hobject s hs
    · rw [store_mem]
      exact hs.mem
  · intro hs
    have hstored : Q (s.store (object s)).stored := by
      rw [store_stored]
      exact hobject s hs
    exact ⟨hstored, hstored⟩

theorem maintains_withFresh {α : Type} {p : P α} (hp : Within (Maintains Q) p) :
    Within (Maintains Q) (withFresh p) := by
  intro s
  have hback : ∀ t, Maintains Q { s with mem := s.stored, memVersion := s.resourceVersion } t →
      Maintains Q s { t with mem := s.mem, memVersion := s.memVersion } := by
    intro t ht hs
    exact ⟨(ht ⟨hs.stored, hs.stored⟩).stored, hs.mem⟩
  exact wp_onCopy.mpr ((hp _).mono (fun _ => hback) fun _ => hback)

end Objects

namespace Robust

variable (h : Robust Q)
include h

section Statements

theorem setMem {f : Instance → Instance} (hf : ∀ i, Aligned i (f i)) :
    Within (Maintains Q) (setMem f) :=
  .modify fun _ hs => ⟨hs.stored, h.aligned (hf _) hs.mem⟩

theorem setReady {status : CondStatus} {reason : Reason} {message : String}
    (hr : reason ≠ .restoreComplete) : Within (Maintains Q) (setReady env status reason message) :=
  .modify fun _ hs => ⟨hs.stored, h.ready env.now status message hr hs.mem⟩

theorem updateStatus {c : Call} : Within (Maintains Q) (updateStatus env c) :=
  maintains_write fun _ hs => h.status hs.stored hs.mem

theorem update {c : Call} : Within (Maintains Q) (update env c) :=
  maintains_write fun _ hs => h.status hs.mem hs.stored

theorem record {c : Call} {status : CondStatus} {reason : Reason} {message : String}
    (hr : reason ≠ .restoreComplete) :
    Within (Maintains Q) (recordEventAndUpdateStatus env c status reason message) :=
  .bind (h.setReady hr) fun _ => .bind h.updateStatus fun _ => .pure ()

theorem leave {reason : Reason} {message : String} {r : Result} (hr : reason ≠ .restoreComplete) :
    Within (Maintains Q) (leave env reason message r) :=
  .bind (h.setReady hr) fun _ => .finish r

theorem updateProgressCondition {op : String} :
    Within (Maintains Q) (updateProgressCondition env op) := by
  intro s
  simp only [Reconciler.updateProgressCondition, wp_bind, wp_get]
  cases hc : readyCond s.mem with
  | none => exact fun hs => hs
  | some cond =>
    simp only [wp_bind, wp_when, wp_pure]
    exact ⟨fun _ hs => ⟨hs.stored, h.refresh env.now _ hc hs.mem⟩, fun _ hs => hs⟩

end Statements

section Preamble

theorem reconcileInstanceDeletion : Within (Maintains Q) (reconcileInstanceDeletion env) := by
  refine maintains_withFresh ?_
  refine .bind (.when fun _ => .finish _) fun _ => ?_
  refine .bind (.when fun _ => .finish _) fun _ => ?_
  refine .bind (.when fun _ => .finish _) fun _ => ?_
  refine .bind (.when fun _ => ?_) fun _ => ?_
  · exact .bind (maintains_effect fun _ => ⟨rfl, rfl⟩) fun _ => .finish _
  · refine .bind .get fun s => .bind (.when fun _ => ?_) fun _ => ?_
    · refine .bind (h.setMem fun _ => ⟨rfl, rfl, rfl, rfl, rfl⟩) fun _ => ?_
      exact .bind h.update fun _ => .finish _
    · exact .bind maintains_deleteDatabases fun _ => .finish _

theorem reconcileInstanceStop : Within (Maintains Q) (reconcileInstanceStop env) := by
  have hsts : Within (Maintains Q) (stopDBStatefulset env) := by
    refine .bind .get fun s => .bind (.when fun _ => .finish _) fun _ => ?_
    exact .bind maintains_rewriteSts fun _ => .when fun _ => .finish _
  have hmonitoring : Within (Maintains Q) (stopMonitoringDeployment env) := by
    refine .bind .get fun s => ?_
    cases env.config with
    | error e => exact .finish _
    | ok config =>
      dsimp only
      cases overrideDefaultImages env config s.mem with
      | error e => exact .finish _
      | ok map => exact .bind maintains_createMonitoringDeployment fun _ => .when fun _ => .finish _
  refine maintains_withFresh ?_
  refine .bind (.when fun _ => .finish _) fun _ => ?_
  refine .bind (.when fun _ => .finish _) fun _ => ?_
  refine .bind (h.record (by decide)) fun _ => ?_
  refine .bind hsts fun _ => .bind hmonitoring fun _ => ?_
  refine .bind (.when fun _ => .finish _) fun _ => ?_
  refine .bind (.when fun _ => .finish _) fun _ => ?_
  refine .bind (.when fun _ => .finish _) fun _ => ?_
  refine .bind (.modify fun _ hs => ⟨hs.stored, hs.stored⟩) fun _ => ?_
  refine .bind (.when fun _ => .finish _) fun _ => ?_
  refine .bind (.when fun _ => .finish _) fun _ => ?_
  exact .bind (h.record (by decide)) fun _ => .finish _

theorem handleDeletionAndStop : Within (Maintains Q) (handleDeletionAndStop env) := by
  refine .bind .get fun s => .ite (fun _ => h.reconcileInstanceDeletion) fun _ => ?_
  refine .ite (fun _ => h.reconcileInstanceStop) fun _ => ?_
  exact .when fun _ => h.setReady (by decide)

theorem addFinalizer : Within (Maintains Q) (addFinalizer env) := by
  refine .bind .get fun s => .when fun _ => ?_
  refine .bind (h.setMem fun _ => ⟨rfl, rfl, rfl, rfl, rfl⟩) fun _ => ?_
  exact .bind h.update fun _ => .when fun _ => .finish _

theorem handlePause : Within (Maintains Q) (handlePause env) :=
  .bind .get fun _ => .when fun _ => .bind (h.setReady (by decide)) fun _ => .finish _

theorem handleDnfs : Within (Maintains Q) (handleDnfs env) := by
  refine .bind .get fun s => .when fun _ => .bind (.when fun _ => .finish _) fun _ => ?_
  exact h.setMem fun _ => ⟨rfl, rfl, rfl, rfl, rfl⟩

/-- The machine for parameters keeps a property that does not depend on what it records: the
state of the database when the check passes, the request when the update is complete. Its caller
gets the conditions back. -/
theorem wp_parameterUpdateStateMachine (hs : Both Q s)
    (hchecked : parameterUpdateRequested s.mem = true →
      (readyCond s.mem).map (·.reason) = some .createComplete → env.maintenanceWindow = true →
      ∀ params, env.parameterState = some params → ∀ {i}, Q i →
        Q { i with status := { i.status with currentParameters := some params } })
    (hcompleted : parameterUpdateRequested s.mem = true →
      (readyCond s.mem).map (·.reason) = some .parameterUpdateComplete → ∀ {i}, Q i →
        Q { i with status := { i.status with currentParameters := i.spec.parameters } })
    (hshared : ∀ {i j}, Q i → Q j →
      Q { i with status := { i.status with conditions := j.status.conditions } }) :
    wp (parameterUpdateStateMachine env) (fun _ => Both Q) (fun _ => Both Q) s := by
  simp only [Reconciler.parameterUpdateStateMachine, wp_bind, wp_get, wp_when]
  refine ⟨fun hreq => ?_, fun _ => hs⟩
  have hstep : wp (parameterUpdate env) (fun _ => Both Q) (fun _ => Both Q) s := by
    unfold parameterUpdate
    rw [wp_bind, wp_get, wp_bind, wp_when]
    refine ⟨fun _ => hs, fun hopen => both_of_maintains ?_ hs⟩
    dsimp only
    split
    · next hreason =>
      refine .bind (h.setMem fun _ => ⟨rfl, rfl, rfl, rfl, rfl⟩) fun _ => ?_
      cases hstate : env.parameterState with
      | none => exact .bind (h.record (by decide)) fun _ => .finish _
      | some params =>
        have hset : Within (Maintains Q)
            (setStatus fun st => { st with currentParameters := some params }) :=
          .modify fun _ hs => ⟨hs.stored, hchecked hreq hreason (not_not.mp hopen) params hstate hs.mem⟩
        exact .bind hset fun _ => h.record (by decide)
    · cases env.setParameters with
      | none => exact h.record (by decide)
      | some restart => exact .ite (fun _ => h.record (by decide)) fun _ => h.record (by decide)
    · next hreason =>
      have hset : Within (Maintains Q) (Reconciler.setMem fun inst =>
          { inst with status := { inst.status with currentParameters := inst.spec.parameters } }) :=
        .modify fun _ hs => ⟨hs.stored, hcompleted hreq hreason hs.mem⟩
      exact .bind hset fun _ => h.record (by decide)
    · refine .bind (.when fun _ => .finish _) fun _ => ?_
      refine .bind (h.setMem fun _ => ⟨rfl, rfl, rfl, rfl, rfl⟩) fun _ => ?_
      exact h.record (by decide)
    · exact .pure _
  have hback : ∀ t, Both Q t → Both Q (returnedTo s t) :=
    fun t ht => ⟨ht.stored, hshared hs.mem ht.mem⟩
  exact wp_onCopy.mpr (hstep.mono (fun _ => hback) fun _ => hback)

theorem parameterUpdateStateMachine
    (hcurrent : ∀ {i} params, Q i →
      Q { i with status := { i.status with currentParameters := params } })
    (hshared : ∀ {i j}, Q i → Q j →
      Q { i with status := { i.status with conditions := j.status.conditions } }) :
    Within (Maintains Q) (parameterUpdateStateMachine env) := by
  apply maintains_of_both
  intro s hs
  apply h.wp_parameterUpdateStateMachine hs
  · exact fun _ _ _ _ _ _ hi => hcurrent _ hi
  · exact fun _ _ _ hi => hcurrent _ hi
  · exact hshared

end Preamble

section Patching

theorem startPatchingBackup {reason : Reason} :
    Within (Maintains Q) (startPatchingBackup env reason) := by
  refine .bind .get fun s => .bind (.when fun _ => .finish _) fun _ => ?_
  refine .bind (h.setMem fun _ => ⟨rfl, rfl, rfl, rfl, rfl⟩) fun _ => ?_
  have hbackup : ∀ id, Within (Maintains Q) (prePatchBackup env id) := by
    intro id
    refine .bind .get fun _ => .bind (.modify fun _ => maintains_of_same rfl rfl) fun _ => ?_
    exact maintains_takeSnapshots
  refine .bind (hbackup _) fun out => ?_
  cases out with
  | ok =>
    refine .bind (h.setMem fun _ => ⟨rfl, rfl, rfl, rfl, rfl⟩) fun _ => ?_
    exact h.leave (by decide)
  | conflict => exact .finish _
  | notFound => exact h.leave (by decide)
  | failed => exact h.leave (by decide)
  | lost => exact h.leave (by decide)

theorem awaitPatchingBackup : Within (Maintains Q) (awaitPatchingBackup env) := by
  refine .bind (.bind .get fun _ => maintains_checkSnapshots) fun poll => ?_
  cases poll with
  | failed => exact h.leave (by decide)
  | waiting => exact .finish _
  | done => exact h.leave (by decide)

theorem patchDeployment {cond : Condition} {images : StrMap} {failure success : Reason}
    (hfailure : failure ≠ .restoreComplete) (hsuccess : success ≠ .restoreComplete) :
    Within (Maintains Q) (patchDeployment env cond images failure success) := by
  refine .bind (.when fun _ => h.leave hfailure) fun _ => ?_
  refine .bind maintains_reconcileMonitoring fun poll => ?_
  cases poll with
  | failed => exact h.leave hfailure
  | waiting => exact .finish _
  | done => exact h.leave hsuccess

theorem patchStatefulSet {sp : StsParams} : Within (Maintains Q) (patchStatefulSet env sp) := by
  have hstart : Within (Maintains Q) (startStatefulSetPatching env sp) := by
    refine .bind .get fun _ => .ite (fun _ => .pure _) fun _ => ?_
    refine .bind maintains_deleteSts fun _ => .ite (fun _ => .pure _) fun _ => ?_
    cases constructSTSandPVCs sp with
    | error e => exact .pure _
    | ok sts => exact maintains_applySts
  refine .bind .get fun _ => .bind (.when fun _ => .finish _) fun _ => ?_
  refine .bind (.when fun _ => h.leave (by decide)) fun _ => .bind hstart fun _ => ?_
  exact .ite (fun _ => h.leave (by decide)) fun _ => h.leave (by decide)

theorem awaitStatefulSet {cond : Condition} {timeout : Duration} :
    Within (Maintains Q) (awaitStatefulSet env cond timeout) := by
  refine .bind (.when fun _ => h.leave (by decide)) fun _ => ?_
  refine .bind h.updateProgressCondition fun _ => ?_
  exact .ite (fun _ => h.leave (by decide)) fun _ => .finish _

theorem patchDatabase : Within (Maintains Q) (patchDatabase env) := by
  refine .bind (.when fun _ => .finish _) fun _ => ?_
  exact .ite (fun _ => h.leave (by decide)) fun _ => h.leave (by decide)

theorem awaitDatabasePatching {cond : Condition} {timeout : Duration} :
    Within (Maintains Q) (awaitDatabasePatching env cond timeout) := by
  refine .bind (.when fun _ => h.leave (by decide)) fun _ => ?_
  cases env.datapatch with
  | failed => exact h.leave (by decide)
  | waiting => exact .finish _
  | done => exact h.leave (by decide)

theorem completePatching {sp : StsParams} : Within (Maintains Q) (completePatching env sp) := by
  refine .bind (h.setReady (by decide)) fun _ => ?_
  exact .bind (h.setMem fun _ => ⟨rfl, rfl, rfl, rfl, rfl⟩) fun _ => .finish _

theorem prepareRecovery {sp : StsParams} : Within (Maintains Q) (prepareRecovery env sp) := by
  refine .bind (maintains_of_untouched untouched_deleteOldSTSandPVCs) fun poll => ?_
  cases poll with
  | failed => exact h.leave (by decide)
  | waiting => exact .finish _
  | done => exact h.leave (by decide)

theorem recover {sp : StsParams} : Within (Maintains Q) (recover env sp) := by
  refine .bind (.bind .get fun _ => maintains_createFromSnapshot) fun _ => ?_
  refine .bind (.when fun _ => .finish _) fun _ => .bind h.updateProgressCondition fun _ => ?_
  refine .bind (.when fun _ => .finish _) fun _ => .bind (.when fun _ => .finish _) fun _ => ?_
  refine .bind (h.setMem fun _ => ⟨rfl, rfl, rfl, rfl, rfl⟩) fun _ => ?_
  exact .bind (h.setReady (by decide)) fun _ => .finish _

theorem patchingState {sp : StsParams} {timeout : Duration} {cond : Condition} :
    Within (Maintains Q) (patchingState env sp timeout cond) := by
  unfold Reconciler.patchingState
  split
  · exact h.startPatchingBackup
  · exact h.startPatchingBackup
  · exact h.startPatchingBackup
  · exact h.startPatchingBackup
  · exact h.startPatchingBackup
  · exact h.awaitPatchingBackup
  · exact h.patchDeployment (by decide) (by decide)
  · exact h.patchStatefulSet
  · exact h.patchDeployment (by decide) (by decide)
  · exact h.awaitStatefulSet
  · exact h.patchDatabase
  · exact h.awaitDatabasePatching
  · exact h.completePatching
  · exact h.prepareRecovery
  · exact h.prepareRecovery
  · exact h.recover
  · exact .pure _

theorem handlePatching {sp : StsParams} : Within (Maintains Q) (handlePatching env sp) := by
  refine .bind .get fun _ => .when fun _ => .bind .get fun s => ?_
  split
  · exact h.patchingState
  · exact .pure _

end Patching

section Restore

/-- A property that does not depend on the Ready condition at all is kept by the restore machine. -/
theorem handleRestore {sp : StsParams}
    (hcomplete : ∀ {i} now status message, Q i → Q (withReady i now status .restoreComplete message)) :
    Within (Maintains Q) (handleRestore env sp) := by
  have hready : ∀ status reason message,
      Within (Maintains Q) (Reconciler.setReady env status reason message) := by
    intro status reason message
    by_cases hr : reason = .restoreComplete
    · rw [hr]
      exact .modify fun _ hs => ⟨hs.stored, hcomplete env.now status message hs.mem⟩
    · exact h.setReady hr
  have hconfines : Confines env (Maintains Q) :=
    { setReady := hready
      setLock := fun _ => h.setMem fun _ => ⟨rfl, rfl, rfl, rfl, rfl⟩
      setRequest := fun _ => h.setMem fun _ => ⟨rfl, rfl, rfl, rfl, rfl⟩
      removeRequest := h.setMem fun _ => ⟨rfl, rfl, rfl, rfl, rfl⟩
      updateStatus := fun _ => h.updateStatus
      update := fun _ => h.update
      deleteOld := fun _ => maintains_of_untouched untouched_deleteOldSTSandPVCs }
  have hnote : ∀ op, Within (Maintains Q) (noteLaunch op) :=
    fun _ => .modify fun _ => maintains_of_same rfl rfl
  apply hconfines.handleRestore
  intro restore
  refine .bind (hready _ _ _) fun _ => .bind h.updateStatus fun _ => ?_
  refine .bind (.when fun _ => .finish _) fun _ => ?_
  unfold startRestore
  cases restore.backupType with
  | snapshot =>
    refine .bind .get fun _ => .bind maintains_createFromSnapshot fun _ => ?_
    exact .bind (.when fun _ => hnote _) fun _ => .finish _
  | physical =>
    refine .bind .get fun _ => .bind (.when fun _ => hnote _) fun _ => ?_
    cases env.physicalRestore with
    | started => exact .finish _
    | finished => exact .bind hconfines.endRestore fun _ => .finish _
    | alreadyExists => exact .finish _
    | failed => exact .finish _
    | lost => exact .finish _
  | unset => exact .finish _
  | logical => exact .finish _

end Restore

section Creation

theorem resizeExisting {sp : StsParams} {sts : StatefulSet} {resizing : Bool} :
    Within (Maintains Q) (resizeExisting env sp sts resizing) := by
  have htry : ∀ newSts, Within (Maintains Q) (tryResizeDisksOf env newSts) := by
    intro newSts
    refine .bind .get fun s => ?_
    cases s.sts with
    | none => exact .pure _
    | some oldSts =>
      refine .ite (fun _ => .pure _) fun _ => .ite (fun _ => .pure _) fun _ => ?_
      refine .ite (fun _ => .pure _) fun _ => ?_
      cases env.resizePvcs with
      | failed => exact .pure _
      | waiting => exact .pure _
      | done => exact .bind maintains_deleteSts fun _ => .pure _
  refine .bind .get fun s => .bind (.when fun _ => ?_) fun _ => ?_
  · refine .bind (h.setReady (by decide)) fun _ => ?_
    exact .bind maintains_rewriteSts fun _ => .finish _
  · cases constructSTSandPVCs sp with
    | error e => exact .finish _
    | ok newSts =>
      refine .bind (htry newSts) fun poll => ?_
      cases poll with
      | failed => exact .finish _
      | waiting => exact h.leave (by decide)
      | done =>
        refine .when fun _ => .bind (.when fun _ => ?_) fun _ => .when fun _ => .finish _
        exact .bind (h.setReady (by decide)) fun _ => .finish _

theorem handleResize {sp : StsParams} : Within (Maintains Q) (handleResize env sp) := by
  refine .bind .get fun s => .ite (fun _ => .pure _) fun _ => .ite (fun _ => .finish _) fun _ => ?_
  cases s.sts with
  | none =>
    refine .bind (h.setReady (by decide)) fun _ => ?_
    exact .bind maintains_createStatefulSet fun _ => .finish _
  | some sts => exact h.resizeExisting

theorem handleProvisioned {images : StrMap} :
    Within (Maintains Q) (handleProvisioned env images) := by
  refine .bind .get fun s => .when fun _ => .bind maintains_reconcileMonitoring fun poll => ?_
  cases poll with
  | failed => exact .finish _
  | waiting => exact .finish _
  | done =>
    cases env.incarnation with
    | none => exact .finish _
    | some incarnation =>
      have hset : Within (Maintains Q) (updateDatabaseIncarnationStatus incarnation) := by
        unfold updateDatabaseIncarnationStatus
        exact h.setMem fun _ => ⟨rfl, rfl, rfl, rfl, rfl⟩
      exact .bind hset fun _ => .finish _

theorem createServices : Within (Maintains Q) (createServices env) := by
  refine .bind (.when fun _ => .finish _) fun _ => .bind (.when fun _ => .finish _) fun _ => ?_
  refine .bind .get fun s => .bind (.when fun _ => h.setReady (by decide)) fun _ => ?_
  exact h.setMem fun _ => ⟨rfl, rfl, rfl, rfl, rfl⟩

theorem awaitCreation {sp : StsParams} : Within (Maintains Q) (awaitCreation env sp) := by
  refine .bind .get fun s => .when fun _ => ?_
  refine .bind (.when fun _ => h.leave (by decide)) fun _ => ?_
  refine .bind h.updateProgressCondition fun _ => .bind (.when fun _ => .finish _) fun _ => ?_
  refine .when fun _ => .bind (h.setReady (by decide)) fun _ => ?_
  exact .bind (h.setMem fun _ => ⟨rfl, rfl, rfl, rfl, rfl⟩) fun _ => .finish _

theorem setLabels : Within (Maintains Q) (setLabels env) := by
  refine .bind .get fun s => .when fun _ => ?_
  refine .bind (h.setMem fun _ => ⟨rfl, rfl, rfl, rfl, rfl⟩) fun _ => ?_
  exact .bind h.update fun _ => .when fun _ => .finish _

end Creation

end Robust

end ElCarro.Instance.Reconciler
