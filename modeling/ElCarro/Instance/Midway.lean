import ElCarro.Instance.ParameterMachine

/-! # An attempt from its snapshots to its end

While an attempt is under way, a reconcile either leaves the status alone, stops the
instance, or takes one step of the patching machine. Nothing but that machine puts an
instance into the middle of an attempt.
-/

namespace ElCarro.Instance.Reconciler

open GoTime K8s Api Flow

variable {images : StrMap} {env : Env} {s t : Session} {inst : Instance} {r : Reason}

section Apart

/-- The Ready condition has no reason from the middle of an attempt. -/
def NotMid (inst : Instance) : Prop := ∀ v, readyView inst = some v → midReason v.2 = false

theorem notMid_of_view {v : CondStatus × Reason} (hview : readyView inst = some v)
    (hv : midReason v.2 = false) : NotMid inst := by
  intro v' hv'
  obtain rfl := Option.some.inj (hview.symm.trans hv')
  exact hv

theorem NotMid.congr {inst' : Instance} (h : NotMid inst)
    (hview : readyView inst' = readyView inst) : NotMid inst' := by
  intro v hv
  exact h v (hview ▸ hv)

/-- An attempt is under way: its snapshots were taken, and it has not ended. -/
def midway (inst : Instance) : Bool := (readyView inst).any fun v => midReason v.2

theorem notMid_of_not_midway (h : midway inst = false) : NotMid inst := by
  intro v hv
  rw [midway, hv] at h
  exact h

theorem NotMid.not_midway (h : NotMid inst) : midway inst = false := by
  apply Bool.eq_false_iff.mpr
  intro hmid
  obtain ⟨v, hview, hv⟩ := (Option.any_eq_true _ _).mp hmid
  rw [h v hview] at hv
  cases hv

/-- No attempt is under way, neither for the server nor in the copy. -/
structure Apart (s : Session) : Prop where
  stored : NotMid s.stored
  mem : NotMid s.mem

theorem Apart.origin (h : Apart s) (hi : Origin midReason images s inst) : NotMid inst := by
  rcases hi.view with ⟨hv, -⟩ | ⟨hv, -⟩ | hv
  · exact h.stored.congr hv
  · exact h.mem.congr hv
  · exact hv

theorem Apart.quiet (h : Apart s) (hq : Quiet midReason images s t) : Apart t :=
  ⟨h.origin hq.stored, h.origin hq.mem⟩

theorem Apart.works {paths : Path → Prop} (h : Apart s) (hw : Works midReason images paths s t) :
    Apart t := ⟨h.origin hw.stored, h.origin hw.mem⟩

theorem midReason_of_announced {v : CondStatus × Reason} (h : Announced v) :
    midReason v.2 = false := by
  rcases h with rfl | ⟨-, hr⟩
  · rfl
  · revert hr
    cases v.2 <;> decide

theorem Apart.announces (h : Apart s) (ha : Announces env s t) : Apart t := by
  constructor
  · rcases ha.stored with heq | ⟨v, hview, hv⟩
    · rw [heq]
      exact h.stored
    · exact notMid_of_view hview (midReason_of_announced (announced_of_nextView hv))
  · rcases ha.mem with hview | ⟨v, hview, hv⟩
    · exact h.mem.congr hview
    · exact notMid_of_view hview (midReason_of_announced (announced_of_nextView hv))

theorem apart_preamble (h : Apart s) :
    wp (preamble env) (fun _ => Apart) (fun _ => Apart) s := by
  have hclaimed : ∀ r, claimedReason r = false → midReason r = false :=
    fun _ hr => midReason_of_not_claimedReason hr
  have hbefore : Within (Quiet midReason ∅) (beforeParameters env) := by
    apply Within.bind (quiet_handleDeletionAndStop hclaimed)
    intro _
    apply Within.bind quiet_addFinalizer
    intro _
    exact Within.bind (quiet_handlePause hclaimed) fun _ => quiet_handleStandbyDR hclaimed
  apply wp_preamble.mpr ((hbefore s).mono _ fun _ _ hq => h.quiet hq)
  intro _ t hq
  have ht : Apart t := h.quiet hq
  apply announces_parameterUpdateStateMachine.mono _ fun _ _ ha => ht.announces ha
  intro _ u ha
  have hu : Apart u := ht.announces ha
  have hdnfs : Within (Quiet midReason ∅) (handleDnfs env) := quiet_handleDnfs
  exact (hdnfs u).mono (fun _ _ hq => hu.quiet hq) fun _ _ hq => hu.quiet hq

end Apart

section Start

/-- The act builds the instance again after a failed attempt. -/
def Act.rebuilds : Act → Bool
  | .applySts .recovery _ _ _ => true
  | _ => false

/-- Acts on top of those that were there, none of which builds the instance again. -/
def Extends (acts acts' : List Act) : Prop :=
  ∃ new, acts' = new ++ acts ∧ ∀ act ∈ new, act.rebuilds = false

theorem extends_of_eq {acts acts' : List Act} (h : acts' = acts) : Extends acts acts' :=
  ⟨[], h, by simp⟩

theorem extends_of_works {paths : Path → Prop} {tracked : Reason → Bool} (hpath : ¬ paths .recovery)
    (h : Works tracked images paths s t) : Extends s.acts t.acts := by
  obtain ⟨new, hacts, hwork⟩ := h.acts
  refine ⟨new, hacts, ?_⟩
  intro act hact
  cases hwork act hact with
  | @applySts path _ _ _ hp _ _ =>
    cases path with
    | recovery => exact absurd hp hpath
    | main | resize | patching | restore => rfl
  | deleteSts _ => rfl
  | deletePvc _ => rfl

/-- The attempt of the acts is under way, as the Ready condition and the machine say. -/
structure Attempting (acts : List Act) (inst : Instance) : Prop where
  view : ∃ r, readyView inst = some (.false, r) ∧ midReason r = true
  db : (dbInstanceCond inst).isSome
  machine : inst.status.currentActiveStateMachine = .patching
  backupID : ∃ a ∈ attempt acts, a.backupID = inst.status.backupID
  named : inst.status.backupID ≠ ""

theorem Attempting.of_status {acts acts' : List Act} {inst' : Instance} (h : Attempting acts inst)
    (hstatus : inst'.status = inst.status) (hacts : acts' = acts) : Attempting acts' inst' := by
  obtain ⟨hview, hdb, hmachine, hid, hnamed⟩ := h
  subst hacts
  constructor
  · simpa only [readyView, readyCond, hstatus] using hview
  · simpa only [dbInstanceCond, hstatus] using hdb
  · rw [hstatus]
    exact hmachine
  · rw [hstatus]
    exact hid
  · rw [hstatus]
    exact hnamed

theorem patchingBackupID_ne_empty : patchingBackupID env inst ≠ "" := by
  intro h
  have hlist := congrArg String.toList h
  unfold patchingBackupID at hlist
  rw [String.toList_append, String.toList_append] at hlist
  have hstart : "patching-backup-".toList = [] :=
    (List.append_eq_nil_iff.mp (List.append_eq_nil_iff.mp hlist).1).1
  exact absurd hstart (by decide)

/-- What the first state of the machine leaves in the copy. -/
def Started (s t : Session) : Prop :=
  t.stored = s.stored ∧ Extends s.acts t.acts ∧
    (readyView t.mem = readyView s.mem ∨ readyView t.mem = some (.false, .patchingBackupFailure) ∨
      readyView t.mem = some (.false, .patchingBackupStarted) ∧ Attempting t.acts t.mem)

theorem started_startPatchingBackup {Q : Unit → Session → Prop} (hdb : (dbInstanceCond s.mem).isSome) :
    wp (startPatchingBackup env r) Q (fun _ => Started s) s := by
  simp only [startPatchingBackup, wp_bind, wp_get, wp_when, wp_finish, setStatus, setMem, wp_modify]
  refine ⟨fun _ => ⟨rfl, extends_of_eq rfl, .inl rfl⟩, fun _ => ?_⟩
  simp only [prePatchBackup, wp_bind, wp_get, wp_modify]
  apply takeSnapshots_spec.mono _ fun _ _ h => h
  rintro out t ⟨htaking, -⟩
  obtain ⟨names, hacts, -⟩ := htaking.acts
  have hmem : t.mem = { s.mem with status := { s.mem.status with
      currentActiveStateMachine := .patching } } := htaking.mem
  have hstored : t.stored = s.stored := htaking.stored
  have hdb : (dbInstanceCond t.mem).isSome := by
    rw [hmem]
    exact hdb
  have hmachine : t.mem.status.currentActiveStateMachine = .patching := by rw [hmem]
  have hattempt : ∃ a ∈ attempt t.acts, a.backupID = patchingBackupID env s.mem := by
    rw [hacts, attempt_take]
    exact ⟨_, rfl, rfl⟩
  have hextends : Extends s.acts t.acts := by
    refine ⟨names.map Act.takeSnapshot ++
      [.beginBackup (patchingBackupID env s.mem) (s.mem.spec.disks.getD [])], ?_, ?_⟩
    · rw [hacts, List.append_assoc]
      rfl
    intro act hact
    rcases List.mem_append.mp hact with hact | hact
    · obtain ⟨name, -, rfl⟩ := List.mem_map.mp hact
      rfl
    · rw [List.mem_singleton.mp hact]
      rfl
  have hfailed : wp (leave env .patchingBackupFailure "" .error) Q (fun _ => Started s) t :=
    ⟨hstored, hextends, .inr (.inl readyView_upsert_ready)⟩
  cases out with
  | ok =>
    refine ⟨hstored, hextends, .inr (.inr ⟨readyView_upsert_ready, ?_⟩)⟩
    constructor
    · exact ⟨_, readyView_upsert_ready, rfl⟩
    · exact (congrArg Option.isSome dbInstanceCond_upsert_ready).trans hdb
    · exact hmachine
    · exact hattempt
    · exact patchingBackupID_ne_empty
  | conflict =>
    refine ⟨hstored, hextends, .inl ?_⟩
    rw [hmem]
    rfl
  | notFound => exact hfailed
  | failed => exact hfailed
  | lost => exact hfailed

end Start

section Going

variable (allowed : Act → Prop) (deploys : Prop)

/-- A state that goes on: it changes nothing of the instance but the conditions, the Ready
condition stays or is set to False, and what it does is allowed. -/
structure Going (s t : Session) : Prop where
  stored : t.stored = s.stored
  mem : ∃ conditions, t.mem = withConditions s.mem conditions
  db : dbInstanceCond t.mem = dbInstanceCond s.mem
  view : readyView t.mem = readyView s.mem ∨ ∃ reason, readyView t.mem = some (.false, reason)
  acts : ∃ new, t.acts = new ++ s.acts ∧ ∀ act ∈ new, allowed act
  monitoring : t.monitoring = s.monitoring ∨ deploys

variable {allowed deploys}

theorem going_of_mem (hstored : t.stored = s.stored) (hmem : t.mem = s.mem)
    (hacts : ∃ new, t.acts = new ++ s.acts ∧ ∀ act ∈ new, allowed act)
    (hmon : t.monitoring = s.monitoring ∨ deploys) : Going allowed deploys s t :=
  ⟨hstored, ⟨s.mem.status.conditions, hmem⟩, by rw [hmem], .inl (by rw [hmem]), hacts, hmon⟩

theorem going_act {act : Act} (hact : allowed act) (hstored : t.stored = s.stored)
    (hmem : t.mem = s.mem) (hacts : t.acts = act :: s.acts) (hmon : t.monitoring = s.monitoring) :
    Going allowed deploys s t := by
  apply going_of_mem hstored hmem _ (.inl hmon)
  refine ⟨[act], hacts, ?_⟩
  intro act' h
  rw [List.mem_singleton.mp h]
  exact hact

instance : Std.Refl (Going allowed deploys) :=
  ⟨fun _ => going_of_mem rfl rfl ⟨[], rfl, by simp⟩ (.inl rfl)⟩

instance : IsTrans Session (Going allowed deploys) where
  trans s t u h h' := by
    obtain ⟨conditions, hmem⟩ := h.mem
    obtain ⟨conditions', hmem'⟩ := h'.mem
    obtain ⟨new, hnew, hall⟩ := h.acts
    obtain ⟨new', hnew', hall'⟩ := h'.acts
    constructor
    · exact h'.stored.trans h.stored
    · exact ⟨conditions', by rw [hmem', hmem]; rfl⟩
    · exact h'.db.trans h.db
    · rcases h'.view with hv | hv
      · rw [hv]
        exact h.view
      · exact .inr hv
    · refine ⟨new' ++ new, by rw [hnew', hnew, List.append_assoc], ?_⟩
      intro act hact
      rcases List.mem_append.mp hact with hact | hact
      · exact hall' act hact
      · exact hall act hact
    · rcases h'.monitoring with hm | hm
      · rw [hm]
        exact h.monitoring
      · exact .inr hm

theorem going_leave {reason : Reason} {message : String} {res : Result} :
    Within (Going allowed deploys) (leave env reason message res) := by
  apply Within.bind
  · intro s
    exact ⟨rfl, ⟨_, rfl⟩, dbInstanceCond_upsert_ready, .inr ⟨reason, readyView_upsert_ready⟩,
      ⟨[], rfl, by simp⟩, .inl rfl⟩
  · exact fun _ => .finish res

theorem going_updateProgressCondition {op : String} :
    Within (Going allowed deploys) (updateProgressCondition env op) := by
  intro s
  unfold updateProgressCondition
  simp only [wp_bind, wp_get]
  cases hc : readyCond s.mem with
  | none => exact Std.Refl.refl s
  | some cond =>
    simp only [wp_bind, wp_when, wp_pure]
    constructor
    · intro _
      have hview : readyView s.mem = some (cond.status, cond.reason) :=
        readyView_eq_some.mpr ⟨cond, hc, rfl⟩
      refine ⟨rfl, ⟨_, rfl⟩, dbInstanceCond_upsert_ready, .inl ?_, ⟨[], rfl, by simp⟩, .inl rfl⟩
      rw [hview]
      exact readyView_upsert_ready
    · exact fun _ => Std.Refl.refl s

theorem going_patchDeployment {cond : Condition} {failure success : Reason} (hd : deploys) :
    Within (Going allowed deploys) (patchDeployment env cond images failure success) := by
  have hmonitoring : Within (Going allowed deploys) (reconcileMonitoring env images) := by
    unfold reconcileMonitoring
    refine .ite (fun _ => .pure _) fun _ => .ite (fun _ => .pure _) fun _ =>
      .ite (fun _ => .pure _) fun _ => .bind (fun s => ?_) fun _ => .pure _
    have hset : ∀ m, Going allowed deploys s { s with monitoring := m } :=
      fun _ => going_of_mem rfl rfl ⟨[], rfl, by simp⟩ (.inr hd)
    exact wp_effect (Std.Refl.refl s) (hset _) (hset _)
  apply Within.bind (.when fun _ => going_leave)
  intro _
  apply Within.bind hmonitoring
  intro poll
  cases poll with
  | failed => exact going_leave
  | waiting => exact .finish _
  | done => exact going_leave

theorem going_applySts {path : Path} {sts : StatefulSet} {c : Call}
    (h : ∀ created active, allowed (.applySts path created sts active)) :
    Within (Going allowed deploys) (applySts env path sts c) := by
  intro s
  exact wp_effect (Std.Refl.refl s) (going_act (h _ _) rfl rfl rfl rfl)
    (going_act (h _ _) rfl rfl rfl rfl)

theorem going_patchStatefulSet {sp : StsParams} (hdelete : allowed (.deleteSts .patching))
    (happly : ∀ created sts active, constructSTSandPVCs sp = .ok sts →
      allowed (.applySts .patching created sts active)) :
    Within (Going allowed deploys) (patchStatefulSet env sp) := by
  have hstart : Within (Going allowed deploys) (startStatefulSetPatching env sp) := by
    refine .bind .get fun _ => .ite (fun _ => .pure _) fun _ => .bind (fun s => ?_) fun _ => ?_
    · exact wp_effect (Std.Refl.refl s) (going_act hdelete rfl rfl rfl rfl)
        (going_act hdelete rfl rfl rfl rfl)
    · refine .ite (fun _ => .pure _) fun _ => ?_
      cases hsts : constructSTSandPVCs sp with
      | error e => exact .pure _
      | ok sts => exact going_applySts fun created active => happly created sts active hsts
  refine .bind .get fun s => .bind (.when fun _ => .finish _) fun _ => ?_
  refine .bind (.when fun _ => going_leave) fun _ => .bind hstart fun _ => ?_
  exact .ite (fun _ => going_leave) fun _ => going_leave

theorem going_awaitStatefulSet {cond : Condition} {timeout : Duration} :
    Within (Going allowed deploys) (awaitStatefulSet env cond timeout) := by
  refine .bind (.when fun _ => going_leave) fun _ => ?_
  refine .bind going_updateProgressCondition fun _ => ?_
  exact .ite (fun _ => going_leave) fun _ => .finish _

theorem going_patchDatabase : Within (Going allowed deploys) (patchDatabase env) :=
  .bind (.when fun _ => .finish _) fun _ => .ite (fun _ => going_leave) fun _ => going_leave

theorem going_awaitDatabasePatching {cond : Condition} {timeout : Duration} :
    Within (Going allowed deploys) (awaitDatabasePatching env cond timeout) := by
  refine .bind (.when fun _ => going_leave) fun _ => ?_
  cases env.datapatch with
  | failed => exact going_leave
  | waiting => exact .finish _
  | done => exact going_leave

theorem going_awaitPatchingBackup (hsee : ∀ name, allowed (.seeReady name)) :
    Within (Going allowed deploys) (awaitPatchingBackup env) := by
  have hcheck : ∀ backupID disks,
      Within (Going allowed deploys) (checkSnapshots env backupID disks) := by
    intro backupID disks s
    apply checkSnapshots_spec.mono _ fun _ _ h => h
    rintro poll t ⟨names, rfl, -⟩
    refine going_of_mem rfl rfl ⟨names.map Act.seeReady, rfl, ?_⟩ (.inl rfl)
    intro act hact
    obtain ⟨name, -, rfl⟩ := List.mem_map.mp hact
    exact hsee name
  refine .bind (.bind .get fun _ => hcheck _ _) fun poll => ?_
  cases poll with
  | failed => exact going_leave
  | waiting => exact .finish _
  | done => exact going_leave

/-- The removal of the old objects touches neither the instance nor the deployment. -/
theorem going_prepareRecovery {sp : StsParams} (hdelete : allowed (.deleteSts .recovery))
    (hpvc : ∀ pvc snapshot, allowed (.deletePvc .recovery pvc snapshot)) :
    Within (Going allowed deploys) (prepareRecovery env sp) := by
  have hpvcs : ∀ disks, Within (Going allowed deploys) (deleteOldPVCs env .recovery disks) := by
    intro disks
    induction disks with
    | nil => exact .pure _
    | cons disk rest ih =>
      refine .bind .get fun _ => .ite (fun _ => .pure _) fun _ => .ite (fun _ => ?_) fun _ => ih
      refine .bind (fun s => ?_) fun _ => .pure _
      exact wp_effect (Std.Refl.refl s) (going_act (hpvc _ _) rfl rfl rfl rfl)
        (going_act (hpvc _ _) rfl rfl rfl rfl)
  have hold : Within (Going allowed deploys) (deleteOldSTSandPVCs env .recovery sp) := by
    refine .bind .get fun _ => ?_
    cases constructSTSandPVCs sp with
    | error e => exact .pure _
    | ok sts =>
      refine .ite (fun _ => .pure _) fun _ => .ite (fun _ => ?_) fun _ => hpvcs _
      refine .bind (fun s => ?_) fun _ => .pure _
      exact wp_effect (Std.Refl.refl s) (going_act hdelete rfl rfl rfl rfl)
        (going_act hdelete rfl rfl rfl rfl)
  apply Within.bind hold
  intro poll
  cases poll with
  | failed => exact going_leave
  | waiting => exact .finish _
  | done => exact going_leave

/-- The attempt has ended with an instance that is ready, after some states that went on. -/
def Ended (allowed : Act → Prop) (s t : Session) : Prop :=
  t.stored = s.stored ∧ (∃ reason, readyView t.mem = some (.true, reason) ∧ midReason reason = false) ∧
    ∃ new, t.acts = new ++ s.acts ∧ ∀ act ∈ new, allowed act

/-- The StatefulSet that a recovery builds for the instance. -/
def Rebuilt (env : Env) (inst : Instance) (sp : StsParams) (sts : StatefulSet) : Prop :=
  ∃ images, restoreSnapshot { inst with spec := { inst.spec with
    restore := some (buildRestoreSpecUsingSnapshotBackupID env inst.status.backupID) } }
    { sp with images } = .ok sts

theorem going_recoverFromPatchingFailure {sp : StsParams}
    (hrebuild : ∀ created sts active, Rebuilt env s.mem sp sts →
      allowed (.applySts .recovery created sts active)) :
    wp (recoverFromPatchingFailure env sp) (fun _ => Going allowed deploys s)
      (fun _ => Going allowed deploys s) s := by
  simp only [recoverFromPatchingFailure, createFromSnapshot, wp_bind, wp_get]
  split
  · exact Std.Refl.refl s
  · next sts hsts =>
    exact going_applySts (fun created active => hrebuild created sts active ⟨_, hsts⟩) s

theorem ended_recover {sp : StsParams} {Q : Unit → Session → Prop}
    (hrebuild : ∀ created sts active, Rebuilt env s.mem sp sts →
      allowed (.applySts .recovery created sts active)) :
    wp (recover env sp) Q (fun _ t => Going allowed deploys s t ∨ Ended allowed s t) s := by
  apply wp_bind.mpr ((going_recoverFromPatchingFailure hrebuild).mono _ fun _ _ h => .inl h)
  intro ok t ht
  refine wp_bind.mpr (wp_when.mpr ⟨fun _ => .inl ht, fun _ => ?_⟩)
  apply wp_bind.mpr ((going_updateProgressCondition t).mono _ fun _ _ h => .inl (IsTrans.trans _ _ _ ht h))
  intro complete u hu
  have hu : Going allowed deploys s u := IsTrans.trans _ _ _ ht hu
  simp only [wp_bind, wp_when, wp_finish, setMem, wp_modify]
  refine ⟨fun _ => .inl hu, fun _ => ⟨fun _ => .inl hu, fun _ => .inr ⟨hu.stored, ?_, hu.acts⟩⟩⟩
  exact ⟨_, readyView_upsert_ready, rfl⟩

/-- What the states in the middle of an attempt do, but for the start and the rebuilt
StatefulSet. -/
def Act.plain : Act → Prop
  | .beginBackup _ _ | .takeSnapshot _ => False
  | .applySts path _ _ _ => path = .patching
  | .seeReady _ | .deleteSts _ | .deletePvc _ _ _ => True

/-- One state in the middle of an attempt. -/
theorem going_patchingState {sp : StsParams} {timeout : Duration} {cond : Condition}
    (hmid : midReason cond.reason = true) (hplain : ∀ act, Act.plain act → allowed act)
    (hrebuild : ∀ created sts active, Rebuilt env s.mem sp sts →
      allowed (.applySts .recovery created sts active)) :
    wp (patchingState env sp timeout cond) (fun _ _ => True)
      (fun _ t => Going allowed True s t ∨ Ended allowed s t) s := by
  have hgoing : ∀ {p : P Unit}, Within (Going allowed True) p →
      wp p (fun _ _ => True) (fun _ t => Going allowed True s t ∨ Ended allowed s t) s :=
    fun hp => (hp s).mono (fun _ _ _ => trivial) fun _ _ h => .inl h
  unfold patchingState
  split
  case h_6 => exact hgoing (going_awaitPatchingBackup fun _ => hplain _ trivial)
  case h_7 => exact hgoing (going_patchDeployment trivial)
  case h_8 => exact hgoing (going_patchStatefulSet (hplain _ trivial) fun _ _ _ _ => hplain _ rfl)
  case h_9 => exact hgoing (going_patchDeployment trivial)
  case h_10 => exact hgoing going_awaitStatefulSet
  case h_11 => exact hgoing going_patchDatabase
  case h_12 => exact hgoing going_awaitDatabasePatching
  case h_13 => exact .inr ⟨rfl, ⟨_, readyView_upsert_ready, rfl⟩, [], rfl, by simp⟩
  case h_14 => exact hgoing (going_prepareRecovery (hplain _ trivial) fun _ _ => hplain _ trivial)
  case h_15 => exact hgoing (going_prepareRecovery (hplain _ trivial) fun _ _ => hplain _ trivial)
  case h_16 => exact ended_recover hrebuild
  case h_17 => trivial
  all_goals
    next heq =>
    rw [heq] at hmid
    cases hmid

end Going

section Stop

/-- The reasons of an instance that is being stopped. -/
def stopReason : Reason → Bool
  | .instanceStoppingInProgress | .instanceStopped => true
  | _ => false

theorem midReason_of_stopReason (h : stopReason r = true) : midReason r = false := by
  revert h
  cases r <;> decide

/-- A stop so far: the status is the one before or says that the instance stops, and monitoring
is as it was or has the configured images. -/
structure Stopping (env : Env) (s t : Session) : Prop where
  acts : t.acts = s.acts
  spec : t.stored.spec = s.stored.spec
  memSpec : t.mem.spec = s.stored.spec
  stored : t.stored.status = s.stored.status ∨
    ∃ v, readyView t.stored = some v ∧ stopReason v.2 = true
  monitoring : t.monitoring = s.monitoring ∨ ∃ config map, env.config = .ok config ∧
    overrideDefaultImages env config s.stored = .ok map ∧ t.monitoring = some (map, 0)

variable {u : Session}

theorem stopping_record {c : Call} {status : CondStatus} {reason : Reason} {message : String}
    (hr : stopReason reason = true) (h : Stopping env s t) :
    wp (recordEventAndUpdateStatus env c status reason message) (fun _ => Stopping env s)
      (fun _ => Stopping env s) t := by
  simp only [recordEventAndUpdateStatus, setReady, upsertCondition, setStatus, setMem, wp_bind,
    wp_modify]
  have hview : readyView { t.stored with status := { t.mem.status with
      conditions := upsert env.now .ready status reason message t.mem.status.conditions } } =
        some (status, reason) := readyView_upsert_ready
  have hstore : ∀ v : Session, v.acts = t.acts → v.monitoring = t.monitoring →
      v.stored = { t.stored with status := { t.mem.status with
        conditions := upsert env.now .ready status reason message t.mem.status.conditions } } →
      v.mem.spec = s.stored.spec → Stopping env s v := by
    intro v hacts hmon hstored hmem
    refine ⟨hacts.trans h.acts, ?_, hmem, .inr ⟨(status, reason), ?_, hr⟩, ?_⟩
    · rw [hstored]
      exact h.spec
    · rw [hstored]
      exact hview
    · rw [hmon]
      exact h.monitoring
  apply wp_write
  · exact ⟨h.acts, h.spec, h.memSpec, h.stored, h.monitoring⟩
  · apply hstore
    · unfold Session.store
      split <;> rfl
    · unfold Session.store
      split <;> rfl
    · exact store_stored
    · rw [store_mem]
      exact h.memSpec
  · apply hstore
    · simp only
      unfold Session.store
      split <;> rfl
    · simp only
      unfold Session.store
      split <;> rfl
    · exact store_stored
    · simp only [store_stored]
      exact h.spec

theorem stopping_when {c : Prop} [Decidable c] {res : Result} (h : Stopping env s t) :
    wp (when c (finish res)) (fun _ => Stopping env s) (fun _ => Stopping env s) t :=
  wp_when.mpr ⟨fun _ => h, fun _ => h⟩

theorem stopping_stopDBStatefulset (h : Stopping env s t) :
    wp (stopDBStatefulset env) (fun _ => Stopping env s) (fun _ => Stopping env s) t := by
  refine wp_bind.mpr (wp_get.mpr ?_)
  apply Within.keeps_bind (stopping_when h)
  intro _ t h
  have hsts : ∀ sts, Stopping env s { t with sts } :=
    fun _ => ⟨h.acts, h.spec, h.memSpec, h.stored, h.monitoring⟩
  apply Within.keeps_bind (wp_effect h (hsts _) (hsts _))
  exact fun _ _ h => stopping_when h

theorem stopping_stopMonitoringDeployment (h : Stopping env s t) :
    wp (stopMonitoringDeployment env) (fun _ => Stopping env s) (fun _ => Stopping env s) t := by
  refine wp_bind.mpr (wp_get.mpr ?_)
  cases hconfig : env.config with
  | error e => exact h
  | ok config =>
    dsimp only
    have hsame : overrideDefaultImages env config t.mem = overrideDefaultImages env config s.stored := by
      unfold overrideDefaultImages
      rw [h.memSpec]
    cases himages : overrideDefaultImages env config t.mem with
    | error e => exact h
    | ok map =>
      have hmon : Stopping env s { t with monitoring := some (map, 0) } :=
        ⟨h.acts, h.spec, h.memSpec, h.stored, .inr ⟨config, map, hconfig, hsame ▸ himages, rfl⟩⟩
      apply Within.keeps_bind (wp_effect h hmon hmon)
      exact fun _ _ h => stopping_when h

/-- What a stop leaves to its caller. -/
theorem stopping_reconcileInstanceStop (hspec : s.mem.spec = s.stored.spec) :
    wp (reconcileInstanceStop env) (fun _ t => Stopping env s t ∧ t.mem = s.mem)
      (fun _ t => Stopping env s t ∧ t.mem = s.mem) s := by
  have hback : ∀ t, Stopping env s t →
      Stopping env s { t with mem := s.mem, memVersion := s.memVersion } :=
    fun t h => ⟨h.acts, h.spec, hspec, h.stored, h.monitoring⟩
  apply wp_onCopy.mpr
  apply wp.mono (Q := fun _ => Stopping env s) (R := fun _ => Stopping env s) _
    (fun _ t h => ⟨hback t h, rfl⟩) fun _ t h => ⟨hback t h, rfl⟩
  have hfresh : Stopping env s { s with mem := s.stored, memVersion := s.resourceVersion } :=
    ⟨rfl, rfl, rfl, .inl rfl, .inl rfl⟩
  apply Within.keeps_bind (stopping_when hfresh)
  intro _ t h
  apply Within.keeps_bind (stopping_when h)
  intro _ t h
  apply Within.keeps_bind (stopping_record rfl h)
  intro _ t h
  apply Within.keeps_bind (stopping_stopDBStatefulset h)
  intro _ t h
  apply Within.keeps_bind (stopping_stopMonitoringDeployment h)
  intro _ t h
  apply Within.keeps_bind (stopping_when h)
  intro _ t h
  apply Within.keeps_bind (stopping_when h)
  intro _ t h
  apply Within.keeps_bind (stopping_when h)
  intro _ t h
  have hagain : Stopping env s { t with mem := t.stored, memVersion := t.resourceVersion } :=
    ⟨h.acts, h.spec, h.spec, h.stored, h.monitoring⟩
  apply Within.keeps_bind (wp_modify.mpr hagain)
  intro _ t h
  apply Within.keeps_bind (stopping_when h)
  intro _ t h
  apply Within.keeps_bind (stopping_when h)
  intro _ t h
  apply Within.keeps_bind (stopping_record rfl h)
  intro _ t h
  exact h

end Stop

section Bodies

/-- The machine is at work on an attempt at this reason. -/
structure At (r : Reason) (inst : Instance) : Prop where
  view : readyView inst = some (.false, r)
  mid : midReason r = true
  db : (dbInstanceCond inst).isSome
  machine : inst.status.currentActiveStateMachine = .patching

theorem At.busy (h : At r inst) : Busy inst := by
  refine ⟨r, h.view, ?_⟩
  rw [busyReason, h.mid, Bool.or_true]

theorem At.of_status {inst' : Instance} (h : At r inst) (hstatus : inst'.status = inst.status) :
    At r inst' := by
  obtain ⟨hview, hmid, hdb, hmachine⟩ := h
  constructor
  · simpa only [readyView, readyCond, hstatus] using hview
  · exact hmid
  · simpa only [dbInstanceCond, hstatus] using hdb
  · rw [hstatus]
    exact hmachine

theorem At.external {w w' : World} (h : At r w.stored) (hext : External w w') : At r w'.stored := by
  constructor
  · rw [hext.readyView]
    exact h.view
  · exact h.mid
  · rw [dbInstanceCond, hext.conditions]
    exact h.db
  · rw [hext.machine]
    exact h.machine

/-- What a reconcile hands to the state it finds the instance in. -/
structure Resumed (env : Env) (r : Reason) (s t : Session) (config : Option Config) (map : StrMap)
    (cond : Condition) : Prop where
  running : isStopped s.stored = false
  kept : Kept False s t
  status : t.mem.status = s.stored.status
  spec : t.mem.spec = s.stored.spec
  ready : readyCond t.mem = some cond
  reason : cond.reason = r
  loaded : env.config = .ok config
  merged : overrideDefaultImages env config s.stored = .ok map

theorem patching_machines {I : Session → Prop} {sp : StsParams} (h : At r s.mem)
    (hstate : ∀ timeout cond, readyCond s.mem = some cond → cond.reason = r →
      wp (patchingState env sp timeout cond) (fun _ _ => True) (fun _ => I) s) :
    wp (machines env sp) (fun _ => I) (fun _ => I) s := by
  obtain ⟨cond, hcond, hv⟩ := readyView_eq_some.mp h.view
  obtain ⟨-, hreason⟩ := Prod.mk.inj hv
  obtain ⟨db, hdb⟩ := Option.isSome_iff_exists.mp h.db
  have hhandles : Handles s.mem sp.images := by
    refine ⟨.inr h.machine, h.db, cond, hcond, ?_⟩
    have hmid := h.mid
    rw [hreason]
    revert hmid
    cases r <;> decide
  have hrun : wp (handlePatching env sp) (fun _ _ => True) (fun _ => I) s := by
    simp only [handlePatching, wp_bind, wp_get, wp_when]
    refine ⟨fun _ => ?_, fun _ => trivial⟩
    simp only [patchingStateMachine, wp_bind, wp_get, hcond, hdb]
    exact hstate _ cond hcond hreason
  apply wp_bind.mpr ((hrun.and patchStep_handlePatching).mono _ fun _ _ h => h.1)
  rintro _ t ⟨-, rfl, hn⟩
  exact absurd hhandles hn

/-- In the middle of an attempt the status is kept, the instance is stopped, or one state of
the machine runs. -/
theorem wp_body_mid {I : Session → Prop} (hs : s.mem = s.stored) (h : At r s.stored)
    (hkept : ∀ t, Kept True s t → I t)
    (hstops : isStopped s.stored = true → ∀ t, Stopping env s t → t.mem = s.mem → I t)
    (hstate : ∀ t config map timeout cond, Resumed env r s t config map cond →
      Handed s.stored t.mem → t.snapshots = s.snapshots →
      wp (patchingState env (stsParams t.mem config map) timeout cond) (fun _ _ => True)
        (fun _ => I) t) :
    wp (body env) (fun _ => I) (fun _ => I) s := by
  have hstatus : ∀ t, Kept False s t → t.mem.status = s.stored.status := by
    intro t ht
    rcases ht.mem with hm | hm
    · exact hm
    · rw [hm, hs]
  have hspec : s.mem.spec = s.stored.spec := by rw [hs]
  by_cases hstop : isStopped s.stored = true
  · have hidle : conditionReasonEquals (readyCond s.mem) .instanceStopped = false := by
      rw [hs]
      exact h.busy.idle.2 _ rfl
    have hfirst : wp (handleDeletionAndStop env) (fun _ _ => False) (fun _ => I) s := by
      simp only [handleDeletionAndStop, wp_bind, wp_get]
      split
      · exact ((kept_reconcileInstanceDeletion s).and (returns_reconcileInstanceDeletion s)).mono
          (fun _ _ h => h.2) fun _ t h => hkept t h.1
      · have hcond : isStopped s.mem = true ∧
            ¬ conditionReasonEquals (readyCond s.mem) .instanceStopped = true := by
          rw [hidle, hs]
          exact ⟨hstop, Bool.false_ne_true⟩
        rw [if_pos hcond]
        exact ((stopping_reconcileInstanceStop hspec).and (returns_reconcileInstanceStop s)).mono
          (fun _ _ h => h.2) fun _ t h => hstops hstop t h.1.1 h.1.2
    exact wp_bind.mpr (wp_bind.mpr (hfirst.mono (fun _ _ h => h.elim) fun _ _ h => h))
  · have hstop : isStopped s.stored = false := Bool.eq_false_iff.mpr hstop
    have hquiet : Within (Quiet machineReason ∅) (preamble env) := quiet_preamble fun _ h => h
    have hpre : wp (preamble env) (fun _ t => Kept False s t ∧ t.snapshots = s.snapshots)
        (fun _ => I) s :=
      ((kept_preamble hs hstop h.busy).and (hquiet s)).mono (fun _ _ h => ⟨h.1, h.2.snapshots⟩)
        fun _ t h => hkept t h.1
    apply wp_body hs hpre fun t ht => hkept t ht.1.mono
    rintro t config map ⟨hk, hsnap⟩ hh hconfig himages
    have hat : At r t.mem := h.of_status (hstatus t hk)
    apply patching_machines hat
    intro timeout cond hcond hreason
    refine hstate t config map timeout cond
      ⟨hstop, hk, hstatus t hk, ?_, hcond, hreason, hconfig, himages⟩ hh hsnap
    obtain ⟨hmem, hstored⟩ := hk.spec hspec
    exact hmem.trans hstored

/-- Outside of an attempt a reconcile stays there, or begins one. -/
structure Begun (acts : List Act) (s : Session) : Prop where
  stored : NotMid s.stored
  mem : NotMid s.mem ∨
    readyView s.mem = some (.false, .patchingBackupStarted) ∧ Attempting s.acts s.mem
  acts : Extends acts s.acts

theorem patchingState_of_start {sp : StsParams} {timeout : Duration} {cond : Condition}
    (h : startReason cond.reason = true) :
    patchingState env sp timeout cond = startPatchingBackup env cond.reason := by
  unfold patchingState
  split
  case h_17 =>
    generalize cond.reason = r at *
    cases r <;> contradiction
  all_goals first
    | rfl
    | next heq =>
      rw [heq] at h
      cases h

theorem startReason_of_handled (hn : midReason r = false) (h : handledReason r = true) :
    startReason r = true := by
  revert hn h
  cases r <;> decide

theorem begun_handlePatching {sp : StsParams} (h : Apart s) :
    wp (handlePatching env sp) (fun _ t => t = s) (fun _ => Begun s.acts) s := by
  simp only [handlePatching, wp_bind, wp_get, wp_when]
  refine ⟨fun _ => ?_, fun _ => trivial⟩
  simp only [patchingStateMachine, wp_bind, wp_get]
  split
  · next cond db hcond hdb =>
    have hn : midReason cond.reason = false := h.mem _ (readyView_eq_some.mpr ⟨cond, hcond, rfl⟩)
    by_cases hhandled : handledReason cond.reason = true
    · rw [patchingState_of_start (startReason_of_handled hn hhandled)]
      apply (started_startPatchingBackup (by rw [hdb]; rfl)).mono fun _ _ h => h
      rintro _ t ⟨hstored, hacts, hview | hview | hbegun⟩
      · exact ⟨hstored ▸ h.stored, .inl (h.mem.congr hview), hacts⟩
      · exact ⟨hstored ▸ h.stored, .inl (notMid_of_view hview rfl), hacts⟩
      · exact ⟨hstored ▸ h.stored, .inr hbegun, hacts⟩
    · rw [patchingState_of_not_handled (Bool.eq_false_iff.mpr hhandled)]
      rfl
  · rfl

theorem works_afterAttempt {sp : StsParams} :
    Within (Works midReason sp.images (· ≠ .recovery))
      (handleRestore env sp >>= fun _ => createInstance env sp) := by
  apply Within.bind
  · exact works_handleRestore (fun _ h _ => h) (by decide) rfl
  · intro _
    exact works_createInstance (fun _ h => midReason_of_not_claimedReason h) (by decide) (by decide) rfl

theorem begun_body (hs : s.mem = s.stored) (h : NotMid s.stored) :
    wp (body env) (fun _ => Begun s.acts) (fun _ => Begun s.acts) s := by
  have hapart : Apart s := ⟨h, hs ▸ h⟩
  have hbegun : ∀ t, Apart t ∧ t.acts = s.acts → Begun s.acts t :=
    fun t ht => ⟨ht.1.stored, .inl ht.1.mem, extends_of_eq ht.2⟩
  have hquiet : Within (Quiet machineReason ∅) (preamble env) := quiet_preamble fun _ h => h
  have hpre : wp (preamble env) (fun _ t => Apart t ∧ t.acts = s.acts) (fun _ => Begun s.acts) s :=
    ((apart_preamble hapart).and (hquiet s)).mono (fun _ _ h => ⟨h.1, h.2.acts⟩)
      fun _ t h => hbegun t ⟨h.1, h.2.acts⟩
  apply wp_body hs hpre hbegun
  intro t config map ht _ _ _
  rw [← ht.2]
  apply wp_bind.mpr ((begun_handlePatching ht.1).mono _ fun _ _ h => h)
  intro _ v hv
  subst hv
  have hworks : ∀ u, Works midReason map (· ≠ .recovery) v u → Begun v.acts u := by
    intro u hw
    have hu := ht.1.works hw
    exact ⟨hu.stored, .inl hu.mem, extends_of_works (by decide) hw⟩
  exact (works_afterAttempt v).mono (fun _ => hworks) fun _ => hworks

/-- What the last write of a reconcile makes of the world. -/
structure Deferred (t : Session) (w : World) : Prop where
  stored : w.stored = t.stored ∨ w.stored = { t.stored with status := t.mem.status }
  acts : w.acts = t.acts
  monitoring : w.monitoring = t.monitoring

theorem deferred_updateStatus {c : Call} : Deferred t (updateStatus env c t).state.toWorld := by
  have hstore : Deferred t (t.store { t.stored with status := t.mem.status }).toWorld := by
    refine ⟨.inr store_stored, ?_, ?_⟩
    · unfold Session.store
      split <;> rfl
    · unfold Session.store
      split <;> rfl
  have hwrite : wp (updateStatus env c) (fun _ (u : Session) => Deferred t u.toWorld)
      (fun _ (u : Session) => Deferred t u.toWorld) t :=
    wp_write ⟨.inl rfl, rfl, rfl⟩ hstore ⟨hstore.stored, hstore.acts, hstore.monitoring⟩
  exact hwrite.state

/-- A property of worlds after a reconcile, from one of the sessions in which its body can end. -/
theorem reconcile_of_body {I : Session → Prop} {J : World → Prop} {w : World} (hw : J w)
    (hbody : wp (body env) (fun _ => I) (fun _ => I) w.session)
    (hwrite : ∀ t v, I t → Deferred t v → J v) : J (reconcile env w) := by
  unfold reconcile
  split
  · exact hw
  · exact hwrite _ _ hbody.state deferred_updateStatus

end Bodies

end ElCarro.Instance.Reconciler
