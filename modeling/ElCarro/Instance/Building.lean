import ElCarro.Instance.Preamble

/-! # Work of the restore machine and of the creation steps

After the patching machine a reconcile applies StatefulSets with the configured
images only. The restore machine sets reasons of its own, the creation steps set
none of the reasons that the machines go by.
-/

namespace ElCarro.Instance.Reconciler

open GoTime K8s Api Flow

variable {tracked : Reason → Bool} {images : StrMap} {paths : Path → Prop} {env : Env}

section Primitives

variable {path : Path}

theorem works_effect {c : Call} {f : Session → Session}
    (h : ∀ s, Works tracked images paths s (f s)) :
    Within (Works tracked images paths) (effect env c f) :=
  fun s => wp_effect (Std.Refl.refl s) (h s) (h s)

theorem works_act {s t : Session} {act : Act} (hact : Work images paths s act)
    (hstored : t.stored = s.stored) (hmem : t.mem = s.mem) (hsnap : t.snapshots = s.snapshots)
    (hacts : t.acts = act :: s.acts) : Works tracked images paths s t := by
  refine ⟨by rw [hstored]; exact .of_stored, by rw [hmem]; exact .of_mem, hsnap, [act], hacts, ?_⟩
  intro act' h
  rw [List.mem_singleton.mp h]
  exact hact

theorem works_applySts {sts : StatefulSet} {c : Call} (hpath : paths path)
    (himages : sts.images = images) :
    Within (Works tracked images paths) (applySts env path sts c) :=
  works_effect fun _ => works_act (.applySts hpath himages (.inr (.inl rfl))) rfl rfl rfl rfl

theorem works_deleteSts {c : Call} (hpath : paths path) :
    Within (Works tracked images paths) (deleteSts env path c) :=
  works_effect fun _ => works_act (.deleteSts hpath) rfl rfl rfl rfl

theorem works_deletePvc {pvc snapshot : String} {c : Call} (hpath : paths path) :
    Within (Works tracked images paths) (deletePvc env path pvc snapshot c) :=
  works_effect fun _ => works_act (.deletePvc hpath) rfl rfl rfl rfl

theorem works_deleteOldPVCs {disks : List DiskSpec} (hpath : paths path) :
    Within (Works tracked images paths) (deleteOldPVCs env path disks) := by
  induction disks with
  | nil => exact .pure _
  | cons disk rest ih =>
    refine .bind .get fun s => .ite (fun _ => .pure _) fun _ => .ite (fun _ => ?_) fun _ => ih
    exact .bind (works_deletePvc hpath) fun _ => .pure _

theorem works_deleteOldSTSandPVCs {sp : StsParams} (hpath : paths path) :
    Within (Works tracked images paths) (deleteOldSTSandPVCs env path sp) := by
  refine .bind .get fun s => ?_
  cases constructSTSandPVCs sp with
  | error e => exact .pure _
  | ok sts =>
    refine .ite (fun _ => .pure _) fun _ => .ite (fun _ => ?_) fun _ => works_deleteOldPVCs hpath
    exact .bind (works_deleteSts hpath) fun _ => .pure _

theorem works_createFromSnapshot {inst : Instance} {sp : StsParams} (hpath : paths path)
    (himages : sp.images = images) :
    Within (Works tracked images paths) (createFromSnapshot env path inst sp) := by
  unfold createFromSnapshot
  cases hsts : restoreSnapshot inst sp with
  | error e => exact .pure _
  | ok sts => exact works_applySts hpath ((constructSTSandPVCs_ok hsts).2.2.1.trans himages)

theorem works_createStatefulSet {sp : StsParams} {c : Call} (hpath : paths path)
    (himages : sp.images = images) :
    Within (Works tracked images paths) (createStatefulSet env path sp c) := by
  unfold createStatefulSet
  cases hsts : constructSTSandPVCs sp with
  | error e => exact .pure _
  | ok sts => exact works_applySts hpath ((constructSTSandPVCs_ok hsts).2.2.1.trans himages)

end Primitives

section RestoreSteps

variable (htracked : ∀ r, claimedReason r = false → tracked r = false)
include htracked

omit htracked in
theorem quiet_acquireInstanceMaintenanceLock {owner : String} :
    Within (Quiet tracked images) (acquireInstanceMaintenanceLock env owner) := by
  refine .bind .get fun s => .bind (.when fun _ => quiet_setStatus ?_ ?_ ?_ ?_) fun _ => ?_
  · exact fun _ => rfl
  · exact fun _ => rfl
  · exact fun _ => rfl
  · exact fun _ => rfl
  · exact .bind quiet_updateStatus fun _ => .pure _

omit htracked in
theorem quiet_releaseInstanceMaintenanceLock {owner : String} :
    Within (Quiet tracked images) (releaseInstanceMaintenanceLock env owner) := by
  refine .bind .get fun s => .bind (.when fun _ => quiet_setStatus ?_ ?_ ?_ ?_) fun _ => ?_
  · exact fun _ => rfl
  · exact fun _ => rfl
  · exact fun _ => rfl
  · exact fun _ => rfl
  · exact quiet_updateStatus

omit htracked in
theorem quiet_endRestore {status : CondStatus} {reason : Reason} {message : String}
    (hr : tracked reason = false) :
    Within (Quiet tracked images) (endRestore env status reason message) := by
  refine .bind quiet_releaseInstanceMaintenanceLock fun _ => .ite (fun _ => .pure _) fun _ => ?_
  refine .bind (quiet_setMem ?_ ?_ ?_ ?_ ?_) fun _ => ?_
  · exact fun _ => rfl
  · exact fun _ => rfl
  · exact fun _ => rfl
  · exact fun _ => rfl
  · exact fun _ => rfl
  · refine .bind quiet_update fun _ => .ite (fun _ => .pure _) fun _ => ?_
    exact .bind (quiet_setReady hr) fun _ => .pure _

theorem quiet_setRestoreSucceeded {message : String} :
    Within (Quiet tracked images) (setRestoreSucceeded env message) :=
  quiet_endRestore (htracked _ rfl)

theorem quiet_setRestoreFailed {message : String} :
    Within (Quiet tracked images) (setRestoreFailed env message) :=
  quiet_endRestore (htracked _ rfl)

theorem quiet_failRestore {message : String} :
    Within (Quiet tracked images) (failRestore env message) :=
  .bind (quiet_setRestoreFailed htracked) fun _ => .when fun _ => .finish _

omit htracked in
theorem quiet_commit {reason : Reason} {message : String} {c : Call} {r : Result}
    (hr : tracked reason = false) :
    Within (Quiet tracked images) (commit env reason message c r) :=
  .bind (quiet_setReady hr) fun _ => .bind quiet_updateStatus fun _ => .finish _

omit htracked in
theorem quiet_noteLaunch {op : RestoreOp} : Within (Quiet tracked images) (noteLaunch op) :=
  .modify fun _ => ⟨.of_stored, .of_mem, rfl, rfl, rfl⟩

theorem quiet_launchPhysical : Within (Quiet tracked images) (launchPhysical env) := by
  refine .bind .get fun _ => .bind (.when fun _ => quiet_noteLaunch) fun _ => ?_
  cases env.physicalRestore with
  | started => exact .finish _
  | finished =>
    apply Within.bind _ fun _ => .finish _
    exact quiet_setRestoreSucceeded htracked
  | alreadyExists => exact .finish _
  | failed => exact .finish _
  | lost => exact .finish _

theorem quiet_awaitRestore {restore : RestoreSpec} :
    Within (Quiet tracked images) (awaitRestore env restore) := by
  refine .bind .get fun s => ?_
  cases restore.backupType with
  | snapshot => exact .ite (fun _ => quiet_commit (htracked _ rfl)) fun _ => .finish _
  | physical =>
    refine .ite (fun _ => .finish _) fun _ => .ite (fun _ => ?_) fun _ => quiet_commit (htracked _ rfl)
    exact .bind (quiet_failRestore htracked) fun _ => .finish _
  | unset => exact quiet_failRestore htracked
  | logical => exact quiet_failRestore htracked

theorem quiet_bootstrapRestored {restore : RestoreSpec} :
    Within (Quiet tracked images) (bootstrapRestored env restore) :=
  .ite (fun _ => quiet_failRestore htracked) fun _ =>
    .bind (.when fun _ => .finish _) fun _ => quiet_commit (htracked _ rfl)

theorem quiet_patchRestored {backup : Backup} :
    Within (Quiet tracked images) (patchRestored env backup) := by
  refine .bind .get fun s => .ite (fun _ => ?_) fun _ => .ite (fun _ => ?_) fun _ => ?_
  · refine .bind (quiet_setRestoreSucceeded htracked) fun _ => ?_
    exact .bind quiet_updateStatus fun _ => .when fun _ => .finish _
  · exact quiet_commit (htracked _ rfl)
  · refine .bind (quiet_setReady (htracked _ rfl)) fun _ => ?_
    exact .bind (quiet_setRestoreFailed htracked) fun _ => .pure _

theorem quiet_awaitRestoredPatching : Within (Quiet tracked images) (awaitRestoredPatching env) := by
  unfold awaitRestoredPatching
  cases env.datapatch with
  | failed =>
    refine .bind (quiet_setReady (htracked _ rfl)) fun _ => ?_
    exact .bind (quiet_setRestoreFailed htracked) fun _ => .pure _
  | waiting => exact .finish _
  | done => exact .bind (quiet_setRestoreSucceeded htracked) fun _ => .finish _

end RestoreSteps

section Restore

variable (htracked : ∀ r, midReason r = false → parameterReason r = false → tracked r = false)
include htracked

theorem untracked_of_midReason : ∀ r, claimedReason r = false → tracked r = false := by
  intro r hr
  obtain ⟨howned, hmid⟩ := Bool.or_eq_false_iff.mp hr
  exact htracked r hmid (Bool.or_eq_false_iff.mp howned).2

theorem quiet_acceptRequest {restore : RestoreSpec} :
    Within (Quiet tracked images) (acceptRequest env restore) := by
  refine .bind .get fun s => .ite (fun _ => .pure _) fun _ => ?_
  refine .bind quiet_acquireInstanceMaintenanceLock fun _ => ?_
  refine .bind (.when fun _ => .finish _) fun _ => .bind (quiet_setStatus ?_ ?_ ?_ ?_) fun _ => ?_
  · exact fun _ => rfl
  · exact fun _ => rfl
  · exact fun _ => rfl
  · exact fun _ => rfl
  · exact quiet_commit (htracked _ rfl rfl)

theorem works_prepareRestore {restore : RestoreSpec} {sp : StsParams} (hpath : paths .restore) :
    Within (Works tracked images paths) (prepareRestore env restore sp) := by
  have hmachine := untracked_of_midReason htracked
  refine .bind (.when fun _ => .bind (works_deleteOldSTSandPVCs hpath) fun poll => ?_) fun _ =>
    works_of_quiet (quiet_leave (htracked _ rfl rfl))
  cases poll with
  | failed => exact .bind (works_of_quiet (quiet_failRestore hmachine)) fun _ => .finish _
  | waiting => exact .finish _
  | done => exact .pure _

omit htracked in
theorem works_launchSnapshot {sp : StsParams} (hpath : paths .restore)
    (himages : sp.images = images) :
    Within (Works tracked images paths) (launchSnapshot env sp) := by
  refine .bind .get fun _ => .bind (works_createFromSnapshot hpath himages) fun _ => ?_
  exact .bind (.when fun _ => works_of_quiet quiet_noteLaunch) fun _ => .finish _

theorem works_launchRestore {restore : RestoreSpec} {sp : StsParams} (hpath : paths .restore)
    (himages : sp.images = images) :
    Within (Works tracked images paths) (launchRestore env restore sp) := by
  refine .bind (works_of_quiet (quiet_setReady (htracked _ rfl rfl))) fun _ => ?_
  refine .bind (works_of_quiet quiet_updateStatus) fun _ => .bind (.when fun _ => .finish _) fun _ => ?_
  unfold startRestore
  cases restore.backupType with
  | snapshot => exact works_launchSnapshot hpath himages
  | physical => exact works_of_quiet (quiet_launchPhysical (untracked_of_midReason htracked))
  | unset => exact .finish _
  | logical => exact .finish _

/-- The machine deletes and builds on its own path, and sets no reason of a patching attempt. -/
theorem works_restoreState {sp : StsParams} {restore : RestoreSpec} {backup : Backup}
    {reason : Reason} (hpath : paths .restore) (himages : sp.images = images) :
    Within (Works tracked images paths) (restoreState env sp restore backup reason) := by
  have hmachine := untracked_of_midReason htracked
  unfold restoreState
  split
  · exact works_of_quiet (quiet_acceptRequest htracked)
  · exact works_of_quiet (quiet_acceptRequest htracked)
  · exact works_of_quiet (quiet_acceptRequest htracked)
  · exact works_prepareRestore htracked hpath
  · exact works_launchRestore htracked hpath himages
  · exact works_of_quiet (quiet_awaitRestore hmachine)
  · exact works_of_quiet (quiet_bootstrapRestored hmachine)
  · exact works_of_quiet (quiet_patchRestored hmachine)
  · exact works_of_quiet (quiet_awaitRestoredPatching hmachine)
  · exact .pure _

theorem works_handleRestore {sp : StsParams} (hpath : paths .restore)
    (himages : sp.images = images) :
    Within (Works tracked images paths) (handleRestore env sp) := by
  have hmachine := untracked_of_midReason htracked
  refine .bind .get fun s => ?_
  cases s.mem.spec.restore with
  | none => exact .pure _
  | some restore =>
    refine .bind .get fun s => ?_
    cases readyCond s.mem with
    | none => exact .pure _
    | some cond =>
      refine .ite (fun _ => .pure _) fun _ => ?_
      cases findBackupForRestore env.catalog s.mem restore with
      | error e => exact works_of_quiet (quiet_failRestore hmachine)
      | ok backup =>
        refine .ite (fun _ => works_restoreState htracked hpath himages) fun _ => ?_
        exact .ite (fun _ => works_of_quiet (quiet_failRestore hmachine)) fun _ => .finish _

end Restore

section Creation

variable (htracked : ∀ r, claimedReason r = false → tracked r = false)
include htracked

omit htracked in
theorem works_tryResizeDisksOf {newSts : StatefulSet} (hpath : paths .resize) :
    Within (Works tracked images paths) (tryResizeDisksOf env newSts) := by
  refine .bind .get fun s => ?_
  cases s.sts with
  | none => exact .pure _
  | some oldSts =>
    refine .ite (fun _ => .pure _) fun _ => .ite (fun _ => .pure _) fun _ => ?_
    refine .ite (fun _ => .pure _) fun _ => ?_
    cases env.resizePvcs with
    | failed => exact .pure _
    | waiting => exact .pure _
    | done => exact .bind (works_deleteSts hpath) fun _ => .pure _

theorem works_resizeExisting {sp : StsParams} {sts : StatefulSet} {resizing : Bool}
    (hpath : paths .resize) :
    Within (Works tracked images paths) (resizeExisting env sp sts resizing) := by
  refine .bind .get fun s => .bind (.when fun _ => ?_) fun _ => ?_
  · refine .bind (works_of_quiet (quiet_setReady (htracked _ rfl))) fun _ => ?_
    exact .bind (works_of_quiet quiet_rewriteSts) fun _ => .finish _
  · cases constructSTSandPVCs sp with
    | error e => exact .finish _
    | ok newSts =>
      refine .bind (works_tryResizeDisksOf hpath) fun poll => ?_
      cases poll with
      | failed => exact .finish _
      | waiting => exact works_of_quiet (quiet_leave (htracked _ rfl))
      | done =>
        refine .when fun _ => .bind (.when fun _ => ?_) fun _ => .when fun _ => .finish _
        exact .bind (works_of_quiet (quiet_setReady (htracked _ rfl))) fun _ => .finish _

theorem works_handleResize {sp : StsParams} (hpath : paths .resize) (himages : sp.images = images) :
    Within (Works tracked images paths) (handleResize env sp) := by
  refine .bind .get fun s => .ite (fun _ => .pure _) fun _ => .ite (fun _ => .finish _) fun _ => ?_
  cases s.sts with
  | none =>
    refine .bind (works_of_quiet (quiet_setReady (htracked _ rfl))) fun _ => ?_
    exact .bind (works_createStatefulSet hpath himages) fun _ => .finish _
  | some sts => exact works_resizeExisting htracked hpath

omit htracked in
theorem quiet_handleProvisioned {map : StrMap} :
    Within (Quiet tracked images) (handleProvisioned env map) := by
  refine .bind .get fun s => .when fun _ => .bind quiet_reconcileMonitoring fun poll => ?_
  cases poll with
  | failed => exact .finish _
  | waiting => exact .finish _
  | done =>
    cases env.incarnation with
    | none => exact .finish _
    | some incarnation =>
      refine .bind (quiet_setStatus ?_ ?_ ?_ ?_) fun _ => .finish _
      all_goals exact fun _ => rfl

theorem quiet_createServices : Within (Quiet tracked images) (createServices env) := by
  refine .bind (.when fun _ => .finish _) fun _ => .bind (.when fun _ => .finish _) fun _ => ?_
  refine .bind .get fun s => .bind (.when fun _ => quiet_setReady (htracked _ rfl)) fun _ => ?_
  exact quiet_setStatus (fun _ => rfl) (fun _ => rfl) (fun _ => rfl) fun _ => rfl

omit htracked in
theorem cloneMap_getD {m : StrMap} : (cloneMap (some m)).getD ∅ = m := by
  unfold cloneMap
  split
  · next h => exact h.symm
  · rfl

omit htracked in
/-- The configured images become the active ones. -/
theorem quiet_setActiveImages {f : InstanceStatus → InstanceStatus} {sp : StsParams}
    (himages : sp.images = images)
    (hconds : ∀ st, (f st).conditions = st.conditions)
    (hactive : ∀ st, (f st).currentActiveStateMachine = st.currentActiveStateMachine)
    (hclone : ∀ st, (f st).activeImages = cloneMap (some sp.images))
    (hfailed : ∀ st, (f st).lastFailedImages = st.lastFailedImages) :
    Within (Quiet tracked images) (setStatus f) := by
  refine .modify fun s => quiet_mem ⟨.inr (.inl ⟨?_, hactive _⟩), .inr rfl, .inr (.inr ?_),
    .inr (.inl (hactive _)), .inr (hfailed _)⟩
  · simp only [readyView, readyCond, hconds]
  · simp only [hclone, cloneMap_getD, himages]

theorem quiet_awaitCreation {sp : StsParams} (himages : sp.images = images) :
    Within (Quiet tracked images) (awaitCreation env sp) := by
  refine .bind .get fun s => .when fun _ => ?_
  refine .bind (.when fun _ => quiet_leave (htracked _ rfl)) fun _ => ?_
  refine .bind quiet_updateProgressCondition fun _ => .bind (.when fun _ => .finish _) fun _ => ?_
  refine .when fun _ => .bind (quiet_setReady (htracked _ rfl)) fun _ => ?_
  refine .bind (quiet_setActiveImages himages ?_ ?_ ?_ ?_) fun _ => .finish _
  all_goals exact fun _ => rfl

omit htracked in
theorem quiet_setLabels : Within (Quiet tracked images) (setLabels env) := by
  refine .bind .get fun s => .when fun _ => .bind (quiet_setMem ?_ ?_ ?_ ?_ ?_) fun _ => ?_
  · exact fun _ => rfl
  · exact fun _ => rfl
  · exact fun _ => rfl
  · exact fun _ => rfl
  · exact fun _ => rfl
  · exact .bind quiet_update fun _ => .when fun _ => .finish _

theorem quiet_handleStandby : Within (Quiet tracked images) (handleStandby env) := by
  refine .bind .get fun s => .bind (.when fun _ => quiet_leave (htracked _ rfl)) fun _ => ?_
  refine .bind (.when fun _ => ?_) fun _ => .when fun _ => ?_
  · refine .bind (quiet_setReady (htracked _ rfl)) fun _ => ?_
    exact .bind (quiet_upsertCondition (by decide)) fun _ => .finish _
  · refine .bind (.when fun _ => .finish _) fun _ => ?_
    refine .bind (quiet_setReady (htracked _ rfl)) fun _ => ?_
    refine .bind (quiet_upsertCondition (by decide)) fun _ => ?_
    exact .bind (quiet_upsertCondition (by decide)) fun _ => .finish _

omit htracked in
theorem quiet_databaseNext {status : CondStatus} {reason : Reason} {message : String} :
    Within (Quiet tracked images) (databaseNext env status reason message) :=
  .bind (quiet_upsertCondition (by decide)) fun _ => .bind quiet_updateStatus fun _ => .finish _

omit htracked in
theorem quiet_databaseState {map : StrMap} {cond : Condition} :
    Within (Quiet tracked images) (databaseState env map cond) := by
  unfold databaseState
  split
  · exact .bind (.when fun _ => .finish _) fun _ => quiet_databaseNext
  · cases env.createCDBDone with
    | waiting => exact .finish _
    | failed => exact quiet_databaseNext
    | done => exact quiet_databaseNext
  · cases env.bootstrapCDB with
    | none => exact .finish _
    | some done => exact .ite (fun _ => quiet_databaseNext) fun _ => quiet_databaseNext
  · cases env.bootstrapCDBDone with
    | waiting => exact .finish _
    | failed => exact quiet_databaseNext
    | done => exact quiet_databaseNext
  · refine .bind quiet_reconcileMonitoring fun poll => ?_
    cases poll with
    | failed => exact .finish _
    | waiting => exact .finish _
    | done => exact quiet_databaseNext
  · exact .bind .get fun _ => .ite (fun _ => quiet_databaseNext) fun _ => .finish _
  · exact .finish _

omit htracked in
theorem quiet_reconcileDatabaseInstance {map : StrMap} :
    Within (Quiet tracked images) (reconcileDatabaseInstance env map) := by
  refine .bind .get fun s => .bind (.when fun _ => .finish _) fun _ => ?_
  cases env.seededImage with
  | none => exact .finish _
  | some seeded =>
    cases dbInstanceCond s.mem with
    | none =>
      refine .bind .get fun _ => .ite (fun _ => quiet_databaseNext) fun _ => ?_
      exact .ite (fun _ => quiet_databaseNext) fun _ => quiet_databaseNext
    | some cond =>
      refine .bind (.when fun _ => ?_) fun _ => quiet_databaseState
      exact .bind (quiet_upsertCondition (by decide)) fun _ => .finish _

theorem works_createInstance {sp : StsParams} (hresize : paths .resize) (hmain : paths .main)
    (himages : sp.images = images) :
    Within (Works tracked images paths) (createInstance env sp) := by
  refine .bind (works_handleResize htracked hresize himages) fun _ => ?_
  refine .bind (works_of_quiet quiet_handleProvisioned) fun _ => ?_
  refine .bind (works_createStatefulSet hmain himages) fun _ => ?_
  refine .bind (.when fun _ => .finish _) fun _ => ?_
  refine .bind (works_of_quiet (quiet_createServices htracked)) fun _ => ?_
  refine .bind (works_of_quiet (quiet_awaitCreation htracked himages)) fun _ => ?_
  refine .bind (works_of_quiet quiet_setLabels) fun _ => ?_
  exact .bind (works_of_quiet (quiet_handleStandby htracked)) fun _ =>
    works_of_quiet quiet_reconcileDatabaseInstance

end Creation

end ElCarro.Instance.Reconciler
