import ElCarro.Instance.Quiet

/-! # What the first part of a reconcile hands over

The steps before the configuration is loaded are quiet. When they go on, the
machines get the instance as it was read, but for a Ready condition that the
parameter update machine or the restart of a stopped instance has changed. An
instance that is being rebuilt they do not change at all.
-/

namespace ElCarro.Instance.Reconciler

open GoTime K8s Api Flow

/-- Reasons during a patching attempt, from its snapshots on. -/
def attemptReason : Reason → Bool
  | .patchingBackupStarted | .deploymentSetPatchingInProgress | .deploymentSetPatchingComplete
  | .statefulSetPatchingInProgress | .statefulSetPatchingComplete | .databasePatchingInProgress
  | .statefulSetPatchingFailure | .databasePatchingFailure | .patchingRecoveryInProgress => true
  | _ => false

/-- Reasons during a restore, until the new StatefulSet is there. -/
def restoringReason : Reason → Bool
  | .restorePreparationInProgress | .restorePreparationComplete | .restoreInProgress => true
  | _ => false

def machineReason (r : Reason) : Bool := attemptReason r || restoringReason r

/-- Reasons during an update of parameters. -/
def parameterReason : Reason → Bool
  | .parameterUpdateInProgress | .parameterUpdateComplete | .parameterUpdateRollbackInProgress => true
  | _ => false

/-- Reasons that only one of the machines sets. -/
def ownedReason (r : Reason) : Bool := machineReason r || parameterReason r

/-- Reasons of a patching attempt from its snapshots to its end, whichever way it ends. -/
def midReason : Reason → Bool
  | .deploymentSetPatchingRollbackInProgress | .databasePatchingComplete => true
  | r => attemptReason r

/-- Reasons that nothing but a machine sets, the last ones of an attempt included. -/
def claimedReason (r : Reason) : Bool := ownedReason r || midReason r

theorem ownedReason_of_not_claimedReason {r : Reason} (h : claimedReason r = false) :
    ownedReason r = false := (Bool.or_eq_false_iff.mp h).1

theorem midReason_of_not_claimedReason {r : Reason} (h : claimedReason r = false) :
    midReason r = false := (Bool.or_eq_false_iff.mp h).2

theorem machineReason_of_not_claimedReason {r : Reason} (h : claimedReason r = false) :
    machineReason r = false := (Bool.or_eq_false_iff.mp (ownedReason_of_not_claimedReason h)).1

theorem attemptReason_of_not_midReason {r : Reason} : midReason r = false → attemptReason r = false := by
  cases r <;> decide

/-- The Ready condition has no reason that a machine goes by. -/
def Unhurried (inst : Instance) : Prop :=
  ∀ v, readyView inst = some v → machineReason v.2 = false

/-- Before the first act of a reconcile, with no machine at work. -/
structure Idle (w : World) : Prop where
  acts : w.acts = []
  unhurried : Unhurried w.stored

variable {tracked : Reason → Bool} {images : StrMap} {env : Env}

section QuietSteps

theorem quiet_deleteDatabases {names : List String} :
    Within (Quiet tracked images) (deleteDatabases env names) := by
  induction names with
  | nil => exact .pure ()
  | cons name rest ih =>
    refine .bind (.when fun _ => .finish _) fun _ => ?_
    refine .bind (.when fun _ => .finish _) fun _ => ?_
    refine .bind (quiet_effect fun _ => ⟨.of_stored, .of_mem, rfl, rfl, rfl⟩) fun _ => ?_
    exact .bind (.when fun _ => .finish _) fun _ => ih

theorem quiet_reconcileInstanceDeletion :
    Within (Quiet tracked images) (reconcileInstanceDeletion env) := by
  refine quiet_withFresh ?_
  refine .bind (.when fun _ => .finish _) fun _ => ?_
  refine .bind (.when fun _ => .finish _) fun _ => ?_
  refine .bind (.when fun _ => .finish _) fun _ => ?_
  refine .bind (.when fun _ => ?_) fun _ => ?_
  · refine .bind (quiet_effect fun _ => ?_) fun _ => .finish _
    exact ⟨.of_stored, .of_mem, rfl, rfl, rfl⟩
  · refine .bind .get fun s => .bind (.when fun _ => ?_) fun _ => ?_
    · refine .bind (quiet_setMem ?_ ?_ ?_ ?_ ?_) fun _ => .bind quiet_update fun _ => .finish _
      all_goals exact fun _ => rfl
    · exact .bind quiet_deleteDatabases fun _ => .finish _

variable (htracked : ∀ r, claimedReason r = false → tracked r = false)
include htracked

theorem quiet_reconcileInstanceStop : Within (Quiet tracked images) (reconcileInstanceStop env) := by
  refine quiet_withFresh ?_
  refine .bind (.when fun _ => .finish _) fun _ => ?_
  refine .bind (.when fun _ => .finish _) fun _ => ?_
  refine .bind (quiet_recordEventAndUpdateStatus (htracked _ rfl)) fun _ => ?_
  have hsts : Within (Quiet tracked images) (stopDBStatefulset env) :=
    .bind .get fun s => .bind (.when fun _ => .finish _) fun _ =>
      .bind quiet_rewriteSts fun _ => .when fun _ => .finish _
  have hmonitoring : Within (Quiet tracked images) (stopMonitoringDeployment env) := by
    refine .bind .get fun s => ?_
    cases env.config with
    | error e => exact .finish _
    | ok config =>
      dsimp only
      cases overrideDefaultImages env config s.mem with
      | error e => exact .finish _
      | ok map => exact .bind quiet_createMonitoringDeployment fun _ => .when fun _ => .finish _
  refine .bind hsts fun _ => .bind hmonitoring fun _ => ?_
  refine .bind (.when fun _ => .finish _) fun _ => ?_
  refine .bind (.when fun _ => .finish _) fun _ => ?_
  refine .bind (.when fun _ => .finish _) fun _ => ?_
  refine .bind (.modify fun s => ⟨.of_stored, .of_stored, rfl, rfl, rfl⟩) fun _ => ?_
  refine .bind (.when fun _ => .finish _) fun _ => ?_
  refine .bind (.when fun _ => .finish _) fun _ => ?_
  exact .bind (quiet_recordEventAndUpdateStatus (htracked _ rfl)) fun _ => .finish _

theorem quiet_handleDeletionAndStop :
    Within (Quiet tracked images) (handleDeletionAndStop env) := by
  refine .bind .get fun s => .ite (fun _ => quiet_reconcileInstanceDeletion) fun _ => ?_
  refine .ite (fun _ => quiet_reconcileInstanceStop htracked) fun _ => ?_
  exact .when fun _ => quiet_setReady (htracked _ rfl)

omit htracked in
theorem quiet_standbyNext {nextState : Reason} {message : String} {r : Result} :
    Within (Quiet tracked images) (standbyNext env nextState message r) :=
  .bind (quiet_upsertCondition (by decide)) fun _ => .finish r

omit htracked in
theorem quiet_standbyReplicationSettings :
    Within (Quiet tracked images) standbyReplicationSettings :=
  quiet_setMem (fun _ => rfl) (fun _ => rfl) (fun _ => rfl) (fun _ => rfl) fun _ => rfl

theorem quiet_standbyReady : Within (Quiet tracked images) (standbyReady env) :=
  .bind (quiet_upsertCondition (by decide)) fun _ =>
    .bind (quiet_setReady (htracked _ rfl)) fun _ =>
      .bind (quiet_upsertCondition (by decide)) fun _ => .finish _

omit htracked in
theorem quiet_standbyPromote {retry : Result} :
    Within (Quiet tracked images) (standbyPromote env retry) :=
  .bind .get fun _ => .ite (fun _ => quiet_standbyNext) fun _ => quiet_standbyNext

omit htracked in
theorem quiet_standbyDataGuard {current : Reason} :
    Within (Quiet tracked images) (standbyDataGuard env current) :=
  .bind .get fun _ => .bind (.when fun _ => quiet_standbyNext) fun _ =>
    .bind quiet_standbyReplicationSettings fun _ =>
      .ite (fun _ => quiet_standbyNext) fun _ => quiet_standbyNext

theorem quiet_standbyStateMachine : Within (Quiet tracked images) (standbyStateMachine env) := by
  refine .bind .get fun s => ?_
  dsimp only
  split
  · exact .ite (fun _ => quiet_standbyNext) fun _ => quiet_standbyNext
  · exact .bind quiet_standbyReplicationSettings fun _ => quiet_standbyNext
  · refine .bind (.when fun _ => quiet_standbyNext) fun _ => ?_
    refine .bind quiet_standbyReplicationSettings fun _ => ?_
    refine .bind (.when fun _ => quiet_standbyNext) fun _ => ?_
    cases env.createStandby <;> exact quiet_standbyNext
  · exact .finish _
  · exact quiet_standbyDataGuard
  · exact quiet_standbyDataGuard
  · exact quiet_standbyNext
  · refine .ite (fun _ => quiet_standbyPromote) fun _ => ?_
    exact .bind (.when fun _ => quiet_standbyReplicationSettings) fun _ => quiet_standbyNext
  · exact quiet_standbyPromote
  · refine .bind (quiet_setStatus ?_ ?_ ?_ ?_) fun _ => ?_
    · exact fun _ => rfl
    · exact fun _ => rfl
    · exact fun _ => rfl
    · exact fun _ => rfl
    · exact .ite (fun _ => quiet_standbyReady htracked) fun _ => quiet_standbyNext
  · refine .bind (quiet_setStatus ?_ ?_ ?_ ?_) fun _ => ?_
    · exact fun _ => rfl
    · exact fun _ => rfl
    · exact fun _ => rfl
    · exact fun _ => rfl
    · exact .ite (fun _ => quiet_standbyReady htracked) fun _ => quiet_standbyNext
  · exact quiet_standbyReady htracked
  · exact .finish _

omit htracked in
theorem quiet_addFinalizer : Within (Quiet tracked images) (addFinalizer env) := by
  refine .bind .get fun s => .when fun _ => .bind (quiet_setMem ?_ ?_ ?_ ?_ ?_) fun _ => ?_
  · exact fun _ => rfl
  · exact fun _ => rfl
  · exact fun _ => rfl
  · exact fun _ => rfl
  · exact fun _ => rfl
  · exact .bind quiet_update fun _ => .when fun _ => .finish _

theorem quiet_handlePause : Within (Quiet tracked images) (handlePause env) :=
  .bind .get fun _ => .when fun _ =>
    .bind (quiet_setReady (htracked _ rfl)) fun _ => .finish _

theorem quiet_handleStandbyDR : Within (Quiet tracked images) (handleStandbyDR env) :=
  .bind .get fun _ => .when fun _ => quiet_standbyStateMachine htracked

omit htracked in
theorem quiet_handleDnfs : Within (Quiet tracked images) (handleDnfs env) := by
  refine .bind .get fun s => .when fun _ => .bind (.when fun _ => .finish _) fun _ => ?_
  exact quiet_setMem (fun _ => rfl) (fun _ => rfl) (fun _ => rfl) (fun _ => rfl) fun _ => rfl

end QuietSteps

section Parameters

variable {s t : Session}

/-- What the parameter update machine does to its caller: it may set the Ready condition, in
memory and at the server, to a reason of its own. -/
structure ParameterStep (s t : Session) : Prop where
  mem : t.mem = s.mem ∨ Unhurried s.mem ∧ ∃ now status reason message,
    machineReason reason = false ∧ t.mem = withConditions s.mem
      (upsert now .ready status reason message s.mem.status.conditions)
  stored : t.stored = s.stored ∨ t.stored.name = s.stored.name ∧
    t.stored.status.activeImages = s.mem.status.activeImages ∧
    t.stored.status.lastFailedImages = s.mem.status.lastFailedImages ∧ Unhurried t.stored ∧
    (t.stored.status.currentActiveStateMachine = s.mem.status.currentActiveStateMachine ∨
      t.stored.status.currentActiveStateMachine = .parameterUpdate)
  acts : t.acts = s.acts
  sts : t.sts = s.sts
  snapshots : t.snapshots = s.snapshots

theorem ParameterStep.refl : ParameterStep s s := ⟨.inl rfl, .inl rfl, rfl, rfl, rfl⟩

/-- The caller of the machine, after the callee has left `t`. -/
def returnedTo (s t : Session) : Session :=
  { t with mem := withConditions s.mem t.mem.status.conditions, memVersion := s.memVersion }

/-- A callee that has so far changed other fields of the status only. -/
structure SameSoFar (s t : Session) : Prop where
  conditions : t.mem.status.conditions = s.mem.status.conditions
  active : t.mem.status.activeImages = s.mem.status.activeImages
  failed : t.mem.status.lastFailedImages = s.mem.status.lastFailedImages
  machine : t.mem.status.currentActiveStateMachine = s.mem.status.currentActiveStateMachine ∨
    t.mem.status.currentActiveStateMachine = .parameterUpdate
  stored : t.stored = s.stored
  acts : t.acts = s.acts
  sts : t.sts = s.sts
  snapshots : t.snapshots = s.snapshots

/-- The last step of each state: the caller sees the condition, whether it was written or not. -/
theorem parameterStep_record {c : Call} {status : CondStatus} {reason : Reason}
    {message : String} {R : Result → Session → Prop} (hbefore : Unhurried s.mem)
    (h : SameSoFar s t) (hr : machineReason reason = false) :
    wp (recordEventAndUpdateStatus env c status reason message)
      (fun _ u => ParameterStep s (returnedTo s u)) R t := by
  have hmem : ∀ conditions,
      conditions = upsert env.now .ready status reason message t.mem.status.conditions →
      Unhurried s.mem ∧ ∃ now status reason message, machineReason reason = false ∧
        withConditions s.mem conditions = withConditions s.mem
          (upsert now .ready status reason message s.mem.status.conditions) := by
    rintro _ rfl
    exact ⟨hbefore, env.now, status, reason, message, hr, by rw [h.conditions]⟩
  have hview : Unhurried { t.stored with status := { t.mem.status with
      conditions := upsert env.now .ready status reason message t.mem.status.conditions } } := by
    intro v hv
    obtain rfl : (status, reason) = v := Option.some.inj (Eq.trans readyView_upsert_ready.symm hv)
    exact hr
  have hstored : ∀ u : Session, u.stored = t.stored ∨ u.stored = { t.stored with
      status := { t.mem.status with
        conditions := upsert env.now .ready status reason message t.mem.status.conditions } } →
      u.stored = s.stored ∨ u.stored.name = s.stored.name ∧
        u.stored.status.activeImages = s.mem.status.activeImages ∧
        u.stored.status.lastFailedImages = s.mem.status.lastFailedImages ∧ Unhurried u.stored ∧
        (u.stored.status.currentActiveStateMachine = s.mem.status.currentActiveStateMachine ∨
          u.stored.status.currentActiveStateMachine = .parameterUpdate) := by
    rintro u (hu | hu)
    · exact .inl (hu.trans h.stored)
    · have hname : t.stored.name = s.stored.name := by rw [h.stored]
      rw [hu]
      exact .inr ⟨hname, h.active, h.failed, hview, h.machine⟩
  simp only [recordEventAndUpdateStatus, setReady, upsertCondition, setStatus, setMem, wp_bind,
    wp_modify]
  refine wp_write ?_ ?_ ?_
  · exact ⟨.inr (hmem _ rfl), hstored _ (.inl rfl), h.acts, h.sts, h.snapshots⟩
  · unfold Session.store
    split
    · exact ⟨.inr (hmem _ rfl), hstored _ (.inl rfl), h.acts, h.sts, h.snapshots⟩
    · exact ⟨.inr (hmem _ rfl), hstored _ (.inr rfl), h.acts, h.sts, h.snapshots⟩
  · unfold Session.store
    split
    · next heq =>
      have hst := congrArg (fun i : Instance => i.status.conditions) heq
      exact ⟨.inr (hmem _ hst.symm), hstored _ (.inl rfl), h.acts, h.sts, h.snapshots⟩
    · exact ⟨.inr (hmem _ rfl), hstored _ (.inr rfl), h.acts, h.sts, h.snapshots⟩

theorem parameterStep_byValue :
    wp (byValue (parameterUpdate env)) (fun _ => ParameterStep s) (fun _ => ParameterStep s) s := by
  refine wp_onCopy.mpr ?_
  have hsame : ParameterStep s (returnedTo s s) := .refl
  have hbefore : ∀ reason, (readyCond s.mem).map (·.reason) = some reason →
      machineReason reason = false → Unhurried s.mem := by
    intro reason hreason hr v hv
    obtain ⟨cond, hc, rfl⟩ := readyView_eq_some.mp hv
    rw [hc] at hreason
    obtain rfl := Option.some.inj hreason
    exact hr
  simp only [parameterUpdate, wp_bind, wp_get, wp_when, wp_finish, id]
  refine ⟨fun _ => hsame, fun _ => ?_⟩
  split
  · -- a new request
    next hreason =>
    have hbefore := hbefore _ hreason rfl
    simp only [setStatus, setMem, wp_bind, wp_modify]
    cases env.parameterState with
    | none =>
      simp only [parameterUpdateRollback, wp_bind]
      exact parameterStep_record hbefore ⟨rfl, rfl, rfl, .inr rfl, rfl, rfl, rfl, rfl⟩ rfl
    | some params =>
      simp only [wp_bind, wp_modify]
      exact parameterStep_record hbefore ⟨rfl, rfl, rfl, .inr rfl, rfl, rfl, rfl, rfl⟩ rfl
  · next hreason =>
    have hbefore := hbefore _ hreason rfl
    cases env.setParameters with
    | none => exact parameterStep_record hbefore ⟨rfl, rfl, rfl, .inl rfl, rfl, rfl, rfl, rfl⟩ rfl
    | some restartRequired =>
      dsimp only
      split
      · exact parameterStep_record hbefore ⟨rfl, rfl, rfl, .inl rfl, rfl, rfl, rfl, rfl⟩ rfl
      · exact parameterStep_record hbefore ⟨rfl, rfl, rfl, .inl rfl, rfl, rfl, rfl, rfl⟩ rfl
  · next hreason =>
    have hbefore := hbefore _ hreason rfl
    simp only [setMem, wp_bind, wp_modify]
    exact parameterStep_record hbefore ⟨rfl, rfl, rfl, .inl rfl, rfl, rfl, rfl, rfl⟩ rfl
  · next hreason =>
    have hbefore := hbefore _ hreason rfl
    simp only [setMem, wp_bind, wp_modify, wp_when, wp_finish]
    refine ⟨fun _ => hsame, fun _ => ?_⟩
    exact parameterStep_record hbefore ⟨rfl, rfl, rfl, .inl rfl, rfl, rfl, rfl, rfl⟩ rfl
  · exact hsame

theorem parameterStep_parameterUpdateStateMachine :
    wp (parameterUpdateStateMachine env)
      (fun _ t => ParameterStep s t ∧ (¬ parameterUpdateRequested s.mem → t = s))
      (fun _ => ParameterStep s) s := by
  simp only [parameterUpdateStateMachine, wp_bind, wp_get, wp_when]
  refine ⟨fun hreq => parameterStep_byValue.mono ?_ fun _ _ h => h, fun _ => ⟨.refl, fun _ => trivial⟩⟩
  intro _ t h
  exact ⟨h, fun hn => absurd hreq hn⟩

theorem ParameterStep.quiet (htracked : ∀ r, machineReason r = false → tracked r = false)
    (h : ParameterStep s t) : Quiet tracked images s t := by
  refine ⟨?_, ?_, h.acts, by rw [h.sts], h.snapshots⟩
  · rcases h.stored with heq | ⟨hname, hactive, hfailed, hview, hmachine⟩
    · rw [heq]
      exact .of_stored
    · refine ⟨.inr (.inr fun v hv => htracked _ (hview v hv)), .inl hname, .inr (.inl ?_),
        .inr hmachine, .inr hfailed⟩
      rw [hactive]
  · rcases h.mem with heq | ⟨-, now, status, reason, message, hr, heq⟩
    · rw [heq]
      exact .of_mem
    · rw [heq]
      refine ⟨.inr (.inr fun v hv => ?_), .inr rfl, .inr (.inl rfl), .inr (.inl rfl), .inr rfl⟩
      obtain rfl : (status, reason) = v := Option.some.inj (readyView_upsert_ready.symm.trans hv)
      exact htracked _ hr

end Parameters

theorem quiet_preamble (htracked : ∀ r, machineReason r = false → tracked r = false) :
    Within (Quiet tracked images) (preamble env) := by
  have howned : ∀ r, claimedReason r = false → tracked r = false :=
    fun r h => htracked r (machineReason_of_not_claimedReason h)
  refine .bind (quiet_handleDeletionAndStop howned) fun _ => ?_
  refine .bind quiet_addFinalizer fun _ => ?_
  refine .bind (quiet_handlePause howned) fun _ => ?_
  refine .bind (quiet_handleStandbyDR howned) fun _ => ?_
  refine .bind ?_ fun _ => quiet_handleDnfs
  intro s
  exact parameterStep_parameterUpdateStateMachine.mono (fun _ _ h => h.1.quiet htracked)
    fun _ _ h => h.quiet htracked

section HandOver

variable {s t : Session}

theorem returns_reconcileInstanceDeletion : Returns (reconcileInstanceDeletion env) := by
  refine .onCopy (.bind fun _ => .bind fun _ => .bind fun _ => .bind fun _ => .bind fun _ => ?_)
  exact .bind fun _ => .bind fun _ => .finish _

theorem returns_reconcileInstanceStop : Returns (reconcileInstanceStop env) := by
  refine .onCopy (.bind fun _ => .bind fun _ => .bind fun _ => .bind fun _ => .bind fun _ => ?_)
  refine .bind fun _ => .bind fun _ => .bind fun _ => .bind fun _ => .bind fun _ => ?_
  exact .bind fun _ => .bind fun _ => .finish _

theorem returns_standbyNext {nextState : Reason} {message : String} {r : Result} :
    Returns (standbyNext env nextState message r) := .bind fun _ => .finish r

theorem returns_standbyReady : Returns (standbyReady env) :=
  .bind fun _ => .bind fun _ => .bind fun _ => .finish _

theorem returns_standbyStateMachine : Returns (standbyStateMachine env) := by
  have hdataGuard : ∀ current, Returns (standbyDataGuard env current) := by
    intro current
    refine .bind fun _ => .bind fun _ => .bind fun _ => ?_
    split <;> exact returns_standbyNext
  have hpromote : ∀ retry, Returns (standbyPromote env retry) := by
    intro retry
    refine .bind fun _ => ?_
    split <;> exact returns_standbyNext
  refine .bind fun s => ?_
  dsimp only
  split
  · split <;> exact returns_standbyNext
  · exact .bind fun _ => returns_standbyNext
  · refine .bind fun _ => .bind fun _ => .bind fun _ => ?_
    cases env.createStandby <;> exact returns_standbyNext
  · exact .finish _
  · exact hdataGuard _
  · exact hdataGuard _
  · exact returns_standbyNext
  · split
    · exact hpromote _
    · exact .bind fun _ => returns_standbyNext
  · exact hpromote _
  · refine .bind fun _ => ?_
    split
    · exact returns_standbyReady
    · exact returns_standbyNext
  · refine .bind fun _ => ?_
    split
    · exact returns_standbyReady
    · exact returns_standbyNext
  · exact returns_standbyReady
  · exact .finish _

/-- Conditions that the machines get instead of those that were read. -/
def Replaced (inst : Instance) (conditions : List Condition) : Prop :=
  (parameterUpdateRequested inst ∨ conditionReasonEquals (readyCond inst) .instanceStopped) ∧
  Unhurried inst ∧
  findCondition conditions .databaseInstanceReady = dbInstanceCond inst ∧
  ∀ cond, findCondition conditions .ready = some cond → machineReason cond.reason = false

/-- The machines see the instance as it was read, but for the Ready condition of an instance
that was stopped or whose parameters are to be updated. -/
def Handed (inst handed : Instance) : Prop :=
  ∃ hasFinalizer dnfsEnabled conditions,
    handed = { inst with hasFinalizer, status := { inst.status with conditions, dnfsEnabled } } ∧
    (conditions = inst.status.conditions ∨ Replaced inst conditions)

theorem Handed.refl (inst : Instance) : Handed inst inst :=
  ⟨inst.hasFinalizer, inst.status.dnfsEnabled, inst.status.conditions, rfl, .inl rfl⟩

/-- Nothing but the conditions can differ of what the patching machine reads. -/
theorem Handed.kept {inst handed : Instance} (h : Handed inst handed) :
    handed.spec = inst.spec ∧ handed.name = inst.name ∧
      handed.status.backupID = inst.status.backupID ∧
      handed.status.activeImages = inst.status.activeImages ∧
      handed.status.lastFailedImages = inst.status.lastFailedImages ∧
      handed.status.currentActiveStateMachine = inst.status.currentActiveStateMachine := by
  obtain ⟨_, _, _, rfl, -⟩ := h
  exact ⟨rfl, rfl, rfl, rfl, rfl, rfl⟩

theorem replaced_upsert {inst : Instance} {conditions : List Condition} {now : Time}
    {status : CondStatus} {reason : Reason} {message : String}
    (hwhy : parameterUpdateRequested inst ∨
      conditionReasonEquals (readyCond inst) .instanceStopped)
    (hbefore : Unhurried inst)
    (hdb : findCondition conditions .databaseInstanceReady = dbInstanceCond inst)
    (hr : machineReason reason = false) :
    Replaced inst (upsert now .ready status reason message conditions) := by
  refine ⟨hwhy, hbefore, (findCondition_upsert_ne (by decide)).trans hdb, ?_⟩
  intro cond hcond
  have hself : ∃ c, findCondition (upsert now .ready status reason message conditions) .ready =
      some c ∧ c.status = status ∧ c.reason = reason := findCondition_upsert_self
  obtain ⟨c, hc, -, rfl⟩ := hself
  obtain rfl := Option.some.inj (hc.symm.trans hcond)
  exact hr

theorem Handed.db {inst handed : Instance} (h : Handed inst handed) :
    dbInstanceCond handed = dbInstanceCond inst := by
  obtain ⟨_, _, conditions, rfl, rfl | ⟨-, -, hdb, -⟩⟩ := h
  · rfl
  · exact hdb

/-- The Ready condition is the one that was read, or none that a machine goes by on either side. -/
theorem Handed.ready {inst handed : Instance} (h : Handed inst handed) :
    readyCond handed = readyCond inst ∨ Unhurried inst ∧ Unhurried handed ∧
      (parameterUpdateRequested inst ∨
        conditionReasonEquals (readyCond inst) .instanceStopped) := by
  obtain ⟨_, _, conditions, rfl, rfl | ⟨hwhy, hbefore, -, hready⟩⟩ := h
  · exact .inl rfl
  · refine .inr ⟨hbefore, ?_, hwhy⟩
    intro v hv
    obtain ⟨cond, hc, rfl⟩ := readyView_eq_some.mp hv
    exact hready cond hc

/-- A reason that a machine goes by was read. -/
theorem Handed.readyCond_of_reason {inst handed : Instance} {r : Reason} (h : Handed inst handed)
    (hr : machineReason r = true) (heq : conditionReasonEquals (readyCond handed) r = true) :
    readyCond handed = readyCond inst := by
  rcases h.ready with hready | ⟨-, hun, -⟩
  · exact hready
  · obtain ⟨cond, hcond, hreason⟩ := (Option.any_eq_true _ _).mp heq
    have hnot := hun _ (readyView_eq_some.mpr ⟨cond, hcond, rfl⟩)
    rw [of_decide_eq_true hreason, hr] at hnot
    cases hnot

/-- The parameter update machine replaces the condition only if an update is requested. -/
theorem Handed.parameterStep {inst : Instance} (h : Handed inst s.mem) (hp : ParameterStep s t)
    (hn : ¬ parameterUpdateRequested s.mem → t = s) : Handed inst t.mem := by
  rcases hp.mem with heq | ⟨hbefore, now, status, reason, message, hr, heq⟩
  · rw [heq]
    exact h
  · have hdb := h.db
    have hreq : parameterUpdateRequested s.mem = true ∨ t = s := by
      by_cases hreq : parameterUpdateRequested s.mem = true
      · exact .inl hreq
      · exact .inr (hn hreq)
    rcases hreq with hreq | rfl
    · obtain ⟨f, d, conditions, hmem, hconds⟩ := h
      rw [hmem] at hreq hdb hbefore
      rw [heq, hmem]
      rcases hconds with rfl | hreplaced
      · exact ⟨f, d, _, rfl, .inr (replaced_upsert (.inl hreq) hbefore hdb hr)⟩
      · exact ⟨f, d, _, rfl, .inr (replaced_upsert hreplaced.1 hreplaced.2.1 hdb hr)⟩
    · exact h

/-- If no machine goes by the copy, none goes by what is stored. -/
theorem Handed.unhurried_stored (hs : s.mem = s.stored) (hq : Quiet machineReason images s t)
    (h : Handed s.stored t.mem) (hm : Unhurried t.mem) : Unhurried t.stored := by
  have hinst : Unhurried s.stored := by
    rcases h.ready with hready | ⟨hbefore, -⟩
    · intro v hv
      refine hm v ?_
      rw [← hv, readyView, hready]
      rfl
    · exact hbefore
  rcases hq.stored.view with ⟨hv, -⟩ | ⟨hv, -⟩ | hv
  · intro v hv'
    exact hinst v (hv ▸ hv')
  · intro v hv'
    rw [hs] at hv
    exact hinst v (hv ▸ hv')
  · exact hv

theorem store_stored {inst : Instance} : (s.store inst).stored = inst := by
  unfold Session.store
  split
  · next h => exact h.symm
  · rfl

theorem store_mem {inst : Instance} : (s.store inst).mem = s.mem := by
  unfold Session.store
  split <;> rfl

/-- A reconcile that gets past the pause has not been changed by it. -/
theorem handlePause_next : wp (handlePause env) (fun _ t => t = s) (fun _ _ => True) s := by
  refine wp_bind.mpr (wp_get.mpr (wp_when.mpr ⟨fun _ => ?_, fun _ => rfl⟩))
  exact Returns.wp (.bind fun _ => .finish _) s

theorem handleStandbyDR_next : wp (handleStandbyDR env) (fun _ t => t = s) (fun _ _ => True) s := by
  refine wp_bind.mpr (wp_get.mpr (wp_when.mpr ⟨fun _ => ?_, fun _ => rfl⟩))
  exact returns_standbyStateMachine.wp s

theorem handed_preamble (hs : s.mem = s.stored) :
    wp (preamble env) (fun _ t => Handed s.stored t.mem) (fun _ _ => True) s := by
  refine wp_bind.mpr ?_
  -- only the restart of a stopped instance goes on with a change
  have hfirst : wp (handleDeletionAndStop env)
      (fun _ t => t.stored = s.stored ∧ Handed s.stored t.mem) (fun _ _ => True) s := by
    simp only [handleDeletionAndStop, wp_bind, wp_get]
    split
    · exact returns_reconcileInstanceDeletion.wp s
    · split
      · exact returns_reconcileInstanceStop.wp s
      · simp only [wp_when, setReady, upsertCondition, setStatus, setMem, wp_modify, hs]
        refine ⟨fun hstop => ⟨trivial, ?_⟩, fun _ => ⟨trivial, .refl _⟩⟩
        refine ⟨_, _, _, rfl, .inr (replaced_upsert (.inr hstop.2) ?_ rfl rfl)⟩
        intro v hv
        obtain ⟨cond, hc, rfl⟩ := readyView_eq_some.mp hv
        have hreason := hstop.2
        rw [hc] at hreason
        simp only [conditionReasonEquals, Option.any_some, decide_eq_true_eq] at hreason
        rw [hreason]
        rfl
  refine hfirst.mono ?_ fun _ _ h => h
  rintro _ t ⟨hstored, ht⟩
  have hfinalizer : wp (addFinalizer env) (fun _ u => Handed s.stored u.mem) (fun _ _ => True) t := by
    simp only [addFinalizer, wp_bind, wp_get, wp_when, setMem, wp_modify]
    refine ⟨fun _ => wp_write (by simp) (by simp) ?_, fun _ => ht⟩
    obtain ⟨f, d, conditions, hmem, -⟩ := ht
    rw [store_stored, hstored, hmem]
    exact ⟨_, _, _, rfl, .inl rfl⟩
  refine wp_bind.mpr (hfinalizer.mono ?_ fun _ _ h => h)
  intro _ u hu
  refine wp_bind.mpr (handlePause_next.mono ?_ fun _ _ h => h)
  rintro _ _ rfl
  refine wp_bind.mpr (handleStandbyDR_next.mono ?_ fun _ _ h => h)
  rintro _ _ rfl
  refine wp_bind.mpr ?_
  refine parameterStep_parameterUpdateStateMachine.mono ?_ fun _ _ _ => trivial
  rintro _ v ⟨hv, hn⟩
  have hv := hu.parameterStep hv hn
  simp only [handleDnfs, wp_bind, wp_get, wp_when, wp_finish, setMem, wp_modify]
  refine ⟨fun _ => ⟨fun _ => trivial, fun _ => ?_⟩, fun _ => hv⟩
  obtain ⟨f, d, conditions, hmem, hconds⟩ := hv
  rw [hmem]
  exact ⟨_, _, _, rfl, hconds⟩

/-- An instance that is to be stopped does not get to the machines. -/
theorem preamble_of_isStopped (hstop : isStopped s.mem = true)
    (hn : conditionReasonEquals (readyCond s.mem) .instanceStopped = false) :
    wp (preamble env) (fun _ _ => False) (fun _ _ => True) s := by
  refine wp_bind.mpr ?_
  simp only [handleDeletionAndStop, wp_bind, wp_get]
  split
  · exact returns_reconcileInstanceDeletion.wp s
  · rw [if_pos ⟨hstop, by simp [hn]⟩]
    exact returns_reconcileInstanceStop.wp s

/-- A reconcile is left during its first part, or the machines get what was handed over and
the configured images. -/
theorem wp_body {I J : Session → Prop} (hs : s.mem = s.stored)
    (hpre : wp (preamble env) (fun _ => J) (fun _ => I) s) (hleave : ∀ t, J t → I t)
    (hmachines : ∀ t config map, J t → Handed s.stored t.mem → env.config = .ok config →
      overrideDefaultImages env config s.stored = .ok map →
      wp (machines env (stsParams t.mem config map)) (fun _ => I) (fun _ => I) t) :
    wp (body env) (fun _ => I) (fun _ => I) s := by
  refine wp_bind.mpr ((hpre.and (handed_preamble hs)).mono ?_ fun _ _ h => h.1)
  rintro _ t ⟨hj, hh⟩
  simp only [configured, wp_bind, wp_get]
  cases hconfig : env.config with
  | error e => exact hleave t hj
  | ok config =>
    dsimp only
    have hsame : overrideDefaultImages env config t.mem =
        overrideDefaultImages env config s.stored := by
      unfold overrideDefaultImages
      rw [hh.kept.1]
    rw [hsame]
    cases himages : overrideDefaultImages env config s.stored with
    | error e => exact hleave t hj
    | ok map =>
      simp only [wp_bind, wp_when, wp_finish]
      exact ⟨fun _ => hleave t hj, fun _ => hmachines t config map hj hh hconfig himages⟩

end HandOver

section Rebuilding

/-- Reasons between the deletion of the old disks and the creation of the new ones. -/
def rebuildReason : Reason → Bool
  | .restorePreparationInProgress | .restorePreparationComplete | .restoreInProgress
  | .statefulSetPatchingFailure | .databasePatchingFailure | .patchingRecoveryInProgress => true
  | _ => false

def Rebuilding (inst : Instance) : Prop :=
  ∃ reason, readyView inst = some (.false, reason) ∧ rebuildReason reason = true

def busyReason (r : Reason) : Bool := machineReason r || midReason r

/-- Not ready, for a reason of the patching machine or of a restore. -/
def Busy (inst : Instance) : Prop :=
  ∃ reason, readyView inst = some (.false, reason) ∧ busyReason reason = true

theorem Rebuilding.busy {inst : Instance} (h : Rebuilding inst) : Busy inst := by
  obtain ⟨reason, hview, hr⟩ := h
  refine ⟨reason, hview, ?_⟩
  revert hr
  cases reason <;> decide

/-- A step that keeps the status and the spec of the instance; only a deletion takes the
monitoring deployment away. -/
structure Kept (deletes : Prop) (s t : Session) : Prop where
  stored : t.stored.status = s.stored.status
  mem : t.mem.status = s.stored.status ∨ t.mem.status = s.mem.status
  spec : s.mem.spec = s.stored.spec → t.mem.spec = t.stored.spec ∧ t.stored.spec = s.stored.spec
  acts : t.acts = s.acts
  sts : t.sts.isSome = s.sts.isSome
  monitoring : t.monitoring = s.monitoring ∨ deletes ∧ t.monitoring = none

variable {deletes : Prop}

instance : Std.Refl (Kept deletes) :=
  ⟨fun _ => ⟨rfl, .inr rfl, fun h => ⟨h, rfl⟩, rfl, rfl, .inl rfl⟩⟩

instance : IsTrans Session (Kept deletes) where
  trans s t u h h' := by
    refine ⟨h'.stored.trans h.stored, ?_, fun hs => ?_, h'.acts.trans h.acts, h'.sts.trans h.sts, ?_⟩
    · rcases h'.mem with hm | hm
      · exact .inl (hm.trans h.stored)
      · rw [hm]
        exact h.mem
    · obtain ⟨hm, hst⟩ := h.spec hs
      obtain ⟨hm', hst'⟩ := h'.spec hm
      exact ⟨hm', hst'.trans hst⟩
    · rcases h'.monitoring with hm | hm
      · rw [hm]
        exact h.monitoring
      · exact .inr hm

variable {s t : Session}

theorem Kept.mono (h : Kept False s t) : Kept deletes s t :=
  ⟨h.stored, h.mem, h.spec, h.acts, h.sts, h.monitoring.imp id fun hm => hm.1.elim⟩

theorem kept_setMem {f : Instance → Instance} (hf : ∀ i, (f i).status = i.status)
    (hspec : ∀ i, (f i).spec = i.spec) : Within (Kept deletes) (setMem f) :=
  .modify fun _ => ⟨rfl, .inr (hf _), fun h => ⟨(hspec _).trans h, rfl⟩, rfl, rfl, .inl rfl⟩

theorem kept_update {c : Call} : Within (Kept deletes) (update env c) := by
  intro s
  have hstore : Kept deletes s (s.store { s.mem with status := s.stored.status }) := by
    unfold Session.store
    split
    · exact Std.Refl.refl s
    · exact ⟨rfl, .inr rfl, fun h => ⟨rfl, h⟩, rfl, rfl, .inl rfl⟩
  refine wp_write (Std.Refl.refl s) hstore ?_
  exact ⟨hstore.stored, .inl hstore.stored, fun h => ⟨rfl, (hstore.spec h).2⟩, hstore.acts,
    hstore.sts, hstore.monitoring⟩

theorem kept_withFresh {α : Type} {p : P α} (hp : Within (Kept deletes) p) : Within (Kept deletes) (withFresh p) := by
  intro s
  have hback : ∀ t, Kept deletes { s with mem := s.stored, memVersion := s.resourceVersion } t →
      Kept deletes s { t with mem := s.mem, memVersion := s.memVersion } := by
    intro t h
    obtain ⟨-, hst⟩ := h.spec rfl
    exact ⟨h.stored, .inr rfl, fun hs => ⟨hs.trans hst.symm, hst⟩, h.acts, h.sts, h.monitoring⟩
  exact wp_onCopy.mpr ((hp _).mono (fun _ => hback) fun _ => hback)

theorem kept_deleteDatabases {names : List String} : Within (Kept deletes) (deleteDatabases env names) := by
  induction names with
  | nil => exact .pure ()
  | cons name rest ih =>
    refine .bind (.when fun _ => .finish _) fun _ => ?_
    refine .bind (.when fun _ => .finish _) fun _ => .bind ?_ fun _ => ?_
    · intro s
      exact wp_effect (Std.Refl.refl s) ⟨rfl, .inr rfl, fun h => ⟨h, rfl⟩, rfl, rfl, .inl rfl⟩
        ⟨rfl, .inr rfl, fun h => ⟨h, rfl⟩, rfl, rfl, .inl rfl⟩
    · exact .bind (.when fun _ => .finish _) fun _ => ih

theorem kept_reconcileInstanceDeletion : Within (Kept True) (reconcileInstanceDeletion env) := by
  refine kept_withFresh ?_
  refine .bind (.when fun _ => .finish _) fun _ => ?_
  refine .bind (.when fun _ => .finish _) fun _ => ?_
  refine .bind (.when fun _ => .finish _) fun _ => ?_
  refine .bind (.when fun _ => ?_) fun _ => ?_
  · refine .bind (fun s => wp_effect (Std.Refl.refl s) ?_ ?_) fun _ => .finish _
    all_goals exact ⟨rfl, .inr rfl, fun h => ⟨h, rfl⟩, rfl, rfl, .inr ⟨trivial, rfl⟩⟩
  · refine .bind .get fun s => .bind (.when fun _ => ?_) fun _ => ?_
    · refine .bind (kept_setMem ?_ ?_) fun _ => .bind kept_update fun _ => .finish _
      all_goals exact fun _ => rfl
    · exact .bind kept_deleteDatabases fun _ => .finish _

theorem kept_addFinalizer : Within (Kept deletes) (addFinalizer env) := by
  refine .bind .get fun _ => .when fun _ => .bind (kept_setMem ?_ ?_) fun _ => ?_
  · exact fun _ => rfl
  · exact fun _ => rfl
  · exact .bind kept_update fun _ => .when fun _ => .finish _

/-- The Ready condition of a busy instance is none that the steps look for. -/
theorem Busy.idle {inst : Instance} (h : Busy inst) :
    conditionStatusEquals (readyCond inst) .true = false ∧
      ∀ r, busyReason r = false → conditionReasonEquals (readyCond inst) r = false := by
  obtain ⟨reason, hview, hr⟩ := h
  obtain ⟨cond, hc, heq⟩ := readyView_eq_some.mp hview
  obtain ⟨hstatus, hreason⟩ := Prod.mk.inj heq
  rw [hc]
  refine ⟨by simp [conditionStatusEquals, hstatus], ?_⟩
  intro r hr'
  simp only [conditionReasonEquals, Option.any_some, hreason, decide_eq_false_iff_not]
  rintro rfl
  rw [hr] at hr'
  cases hr'

theorem kept_parameterUpdateStateMachine (h : Busy s.mem) :
    wp (parameterUpdateStateMachine env) (fun _ => Kept deletes s) (fun _ => Kept deletes s) s := by
  simp only [parameterUpdateStateMachine, wp_bind, wp_get, wp_when]
  refine ⟨fun _ => wp_onCopy.mpr ?_, fun _ => Std.Refl.refl s⟩
  have hsame : Kept deletes s (returnedTo s s) := Std.Refl.refl s
  obtain ⟨reason, hview, hr⟩ := h
  obtain ⟨cond, hc, heq⟩ := readyView_eq_some.mp hview
  obtain ⟨-, rfl⟩ := Prod.mk.inj heq
  simp only [parameterUpdate, wp_bind, wp_get, wp_when, wp_finish, id, hc, Option.map_some]
  refine ⟨fun _ => hsame, fun _ => ?_⟩
  split
  · next heq =>
    rw [Option.some.inj heq] at hr
    cases hr
  · next heq =>
    rw [Option.some.inj heq] at hr
    cases hr
  · next heq =>
    rw [Option.some.inj heq] at hr
    cases hr
  · next heq =>
    rw [Option.some.inj heq] at hr
    cases hr
  · exact hsame

theorem kept_preamble (hs : s.mem = s.stored) (hstop : isStopped s.stored = false)
    (h : Busy s.stored) : wp (preamble env) (fun _ => Kept False s) (fun _ => Kept True s) s := by
  have hmem : ∀ t, Kept False s t → Busy t.mem := by
    intro t ht
    have hst : t.mem.status = s.stored.status := by
      rcases ht.mem with hm | hm
      · exact hm
      · rw [hm, hs]
    obtain ⟨reason, hview, hr⟩ := h
    refine ⟨reason, ?_, hr⟩
    rw [← hview]
    simp only [readyView, readyCond, hst]
  -- a step that starts in a kept state and keeps it
  have hseq : ∀ {α β : Type} {p : P α} {q : α → P β} {t : Session}, Kept False s t →
      wp p (fun _ => Kept False t) (fun _ => Kept True t) t →
      (∀ a u, Kept False s u → wp (q a) (fun _ => Kept False s) (fun _ => Kept True s) u) →
      wp (p >>= q) (fun _ => Kept False s) (fun _ => Kept True s) t := by
    intro α β p q t ht hp hq
    refine wp_bind.mpr (hp.mono ?_ fun _ _ hu => IsTrans.trans _ _ _ ht.mono hu)
    exact fun a u hu => hq a u (IsTrans.trans _ _ _ ht hu)
  refine hseq (Std.Refl.refl s) ?_ fun _ t ht => ?_
  · have hstop : isStopped s.mem = false := by rw [hs, hstop]
    have hidle : conditionReasonEquals (readyCond s.mem) .instanceStopped = false := by
      rw [hs]
      exact h.idle.2 _ rfl
    simp only [handleDeletionAndStop, wp_bind, wp_get]
    split
    · exact ((kept_reconcileInstanceDeletion s).and (returns_reconcileInstanceDeletion s)).mono
        (fun _ _ h => h.2.elim) fun _ _ h => h.1
    · rw [if_neg (by simp [hstop])]
      refine wp_when.mpr ⟨fun hc => ?_, fun _ => Std.Refl.refl s⟩
      rw [hidle] at hc
      exact absurd hc.2 Bool.false_ne_true
  refine hseq ht ((kept_addFinalizer t).mono (fun _ _ h => h) fun _ _ h => h.mono) fun _ t ht => ?_
  have hidle := (hmem t ht).idle
  refine hseq ht ?_ fun _ t ht => ?_
  · refine wp_bind.mpr (wp_get.mpr (wp_when.mpr ⟨fun hc => ?_, fun _ => Std.Refl.refl t⟩))
    rw [hidle.2 _ rfl] at hc
    exact absurd hc.2.2 Bool.false_ne_true
  have hidle := (hmem t ht).idle
  refine hseq ht ?_ fun _ t ht => ?_
  · refine wp_bind.mpr (wp_get.mpr (wp_when.mpr ⟨fun hc => ?_, fun _ => Std.Refl.refl t⟩))
    rw [hidle.2 _ rfl] at hc
    exact absurd hc.1 Bool.false_ne_true
  refine hseq ht ((kept_parameterUpdateStateMachine (hmem t ht)).mono (fun _ _ h => h)
    fun _ _ h => h.mono) fun _ t ht => ?_
  have hidle := (hmem t ht).idle
  refine wp_bind.mpr (wp_get.mpr (wp_when.mpr ⟨fun hc => ?_, fun _ => ht⟩))
  rw [hidle.1] at hc
  exact absurd hc.1 Bool.false_ne_true

end Rebuilding

end ElCarro.Instance.Reconciler
