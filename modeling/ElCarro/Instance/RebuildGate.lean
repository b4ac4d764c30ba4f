import ElCarro.Instance.PatchingSteps

/-! # No other path builds what was removed for a rebuild

Once a restore or a recovery has begun to remove the old objects, the Ready
condition alone keeps the creation and the resize steps away. It does so as long
as nothing takes the instance out of the reasons of the rebuild: the request has
to stand, the removal may meet no error, and the instance may not be stopped.
-/

namespace ElCarro.Instance.Reconciler

open GoTime K8s Api Flow

section Property

/-- Every claim of the StatefulSet takes its data from a snapshot. -/
def fromSnapshots (sts : StatefulSet) : Bool :=
  sts.volumeClaimTemplates.all fun pvc => pvc.dataSource.any (·.kind = "VolumeSnapshot")

/-- Objects were removed for a rebuild that has not created its StatefulSet yet. -/
def pending : List Act → Bool
  | [] => false
  | .deleteSts path :: older => path.Rebuilds || pending older
  | .deletePvc path _ _ :: older => path.Rebuilds || pending older
  | .applySts _ created sts _ :: older => pending older && !(created && fromSnapshots sts)
  | .beginBackup _ _ :: older => pending older
  | .takeSnapshot _ :: older => pending older
  | .seeReady _ :: older => pending older

/-- Meanwhile no other path has created a StatefulSet. -/
def Protected : List Act → Prop
  | [] => True
  | .applySts path created _ _ :: older =>
    (created = true → ¬ path.Rebuilds → pending older = false) ∧ Protected older
  | _ :: older => Protected older

instance decidableProtected : (acts : List Act) → Decidable (Protected acts)
  | [] => .isTrue trivial
  | .applySts _ _ _ _ :: older =>
    haveI := decidableProtected older
    inferInstanceAs (Decidable (_ ∧ _))
  | .beginBackup _ _ :: older => decidableProtected older
  | .takeSnapshot _ :: older => decidableProtected older
  | .seeReady _ :: older => decidableProtected older
  | .deleteSts _ :: older => decidableProtected older
  | .deletePvc _ _ _ :: older => decidableProtected older

/-- The restore request is still there and its Backup has not failed. -/
def RequestStands (env : Env) (inst : Instance) : Prop :=
  ∃ restore ∈ inst.spec.restore, restore.force = true ∧ restore.backupType = .snapshot ∧
    ∃ backup ∈ (findBackupForRestore env.catalog inst restore).toOption,
      conditionStatusEquals (findCondition backup.status.conditions .ready) .true = true ∨
        conditionReasonEquals (findCondition backup.status.conditions .ready) .backupFailed = false

instance (env : Env) (inst : Instance) : Decidable (RequestStands env inst) := by
  unfold RequestStands
  infer_instance

/-- Reasons for which the old objects are removed. -/
def removingReason : Reason → Bool
  | .restorePreparationInProgress | .statefulSetPatchingFailure | .databasePatchingFailure => true
  | _ => false

/-- The rebuild of the instance can go on from its reason. -/
def OnCourse (env : Env) (sp : StsParams) (inst : Instance) : Prop :=
  ∀ cond ∈ readyCond inst,
    (restoringReason cond.reason = true → RequestStands env inst) ∧
    (removingReason cond.reason = true → Removable env inst.name sp) ∧
    (cond.reason = .restorePreparationComplete →
      ∀ restore ∈ inst.spec.restore, restore.backupID ≠ "") ∧
    (cond.reason = .patchingRecoveryInProgress → inst.status.backupID ≠ "")

instance (env : Env) (sp : StsParams) (inst : Instance) : Decidable (OnCourse env sp inst) := by
  unfold OnCourse
  infer_instance

/-- A reconcile during a rebuild finds it on its course, and the instance not stopped. -/
def Continues (w : World) : Event → Prop
  | .reconcile env => pending w.acts = true → isStopped w.stored = false ∧
      ∀ config ∈ env.config.toOption,
        ∀ images ∈ (overrideDefaultImages env config w.stored).toOption,
          OnCourse env (stsParams w.stored config images) w.stored
  | _ => True

instance (w : World) : (e : Event) → Decidable (Continues w e)
  | .reconcile _ => inferInstanceAs (Decidable (_ → _))
  | .editSpec _ | .deleteInstance _ | .writeStatus _ _ _ | .addSnapshot _ _ | .setSnapshotStatus _ _
  | .removeSnapshot _ | .stsGone | .addPvc _ | .pvcGone _ => isTrue trivial

end Property

section Invariant

/-- The reasons of a rebuild go with the status False. -/
def Halted (view : Option (CondStatus × Reason)) : Prop :=
  ∀ v ∈ view, rebuildReason v.2 = true → v.1 = .false

/-- The instance is in a reason from which only its rebuild goes on. -/
inductive Awaits (built : Bool) (inst : Instance) : Prop where
  | restore {r : Reason} (hview : readyView inst = some (.false, r)) (hdb : restorable inst = true)
      (hr : r = .restorePreparationInProgress ∨
        (r = .restorePreparationComplete ∨ r = .restoreInProgress) ∧ built = false)
  | recovery {r : Reason} (hview : readyView inst = some (.false, r))
      (hactive : inst.status.currentActiveStateMachine = .patching)
      (hdb : (dbInstanceCond inst).isSome = true)
      (hr : (r = .statefulSetPatchingFailure ∨ r = .databasePatchingFailure) ∨
        r = .patchingRecoveryInProgress ∧ built = false)

structure Rebuildable (s : Session) : Prop where
  protect : Protected s.acts
  stored : Halted (readyView s.stored)
  mem : Halted (readyView s.mem)
  awaits : pending s.acts = true → Awaits s.sts.isSome s.stored ∧ Awaits s.sts.isSome s.mem

variable {s t : Session} {inst inst' : Instance} {built built' : Bool}

theorem Awaits.congr (h : Awaits built inst)
    (hconds : inst'.status.conditions = inst.status.conditions)
    (hactive : inst'.status.currentActiveStateMachine = inst.status.currentActiveStateMachine)
    (hbuilt : built = false → built' = false) : Awaits built' inst' := by
  have hview : readyView inst' = readyView inst := by
    unfold readyView readyCond
    rw [hconds]
  have hdb : dbInstanceCond inst' = dbInstanceCond inst := by
    unfold dbInstanceCond
    rw [hconds]
  cases h with
  | restore hv hd hr =>
    apply Awaits.restore (hview.trans hv)
    · unfold restorable at hd ⊢
      rw [hdb]
      exact hd
    · exact hr.imp_right fun h => ⟨h.1, hbuilt h.2⟩
  | recovery hv ha hd hr =>
    apply Awaits.recovery (hview.trans hv) (hactive.trans ha)
    · rw [hdb]
      exact hd
    · exact hr.imp_right fun h => ⟨h.1, hbuilt h.2⟩

theorem Awaits.rebuilding (h : Awaits built inst) : Rebuilding inst := by
  cases h with
  | restore hv hd hr =>
    refine ⟨_, hv, ?_⟩
    rcases hr with rfl | ⟨rfl | rfl, -⟩ <;> rfl
  | recovery hv ha hd hr =>
    refine ⟨_, hv, ?_⟩
    rcases hr with (rfl | rfl) | ⟨rfl, -⟩ <;> rfl

theorem machineReason_of_rebuildReason {r : Reason} :
    rebuildReason r = true → machineReason r = true := by
  cases r <;> decide

theorem rebuildReason_of_not_machineReason :
    ∀ r, machineReason r = false → rebuildReason r = false := by
  intro r
  cases r <;> decide

theorem rebuildReason_of_not_claimedReason :
    ∀ r, claimedReason r = false → rebuildReason r = false :=
  fun r h => rebuildReason_of_not_machineReason r (machineReason_of_not_claimedReason h)

theorem halted_of_not_rebuildReason {view : Option (CondStatus × Reason)}
    (h : ∀ v, view = some v → rebuildReason v.2 = false) : Halted view := by
  intro v hv hr
  rw [h v hv] at hr
  cases hr

theorem halted_false {r : Reason} : Halted (some (.false, r)) := by
  rintro _ ⟨⟩ -
  rfl

end Invariant

section Tame

/-- The act removes objects for a rebuild. -/
def Act.removes : Act → Bool
  | .deleteSts path => path.Rebuilds
  | .deletePvc path _ _ => path.Rebuilds
  | _ => false

/-- A step that removes nothing for a rebuild. -/
structure Tame (s t : Session) : Prop where
  halted : Halted (readyView s.stored) → Halted (readyView s.mem) →
    Halted (readyView t.stored) ∧ Halted (readyView t.mem)
  acts : ∃ new, t.acts = new ++ s.acts ∧ ∀ act ∈ new, act.removes = false

instance : Std.Refl Tame := ⟨fun _ => ⟨fun h h' => ⟨h, h'⟩, [], rfl, by simp⟩⟩

instance : IsTrans Session Tame where
  trans s t u h h' := by
    obtain ⟨new, hnew, hall⟩ := h.acts
    obtain ⟨new', hnew', hall'⟩ := h'.acts
    refine ⟨fun hs hm => ?_, new' ++ new, by rw [hnew', hnew, List.append_assoc], ?_⟩
    · obtain ⟨hs, hm⟩ := h.halted hs hm
      exact h'.halted hs hm
    · intro act hact
      rcases List.mem_append.mp hact with hact | hact
      · exact hall' act hact
      · exact hall act hact

variable {s t : Session} {images : StrMap} {paths : Path → Prop} {env : Env} {α : Type}

theorem Works.tame (hpaths : ∀ p, paths p → ¬ p.Rebuilds)
    (h : Works rebuildReason images paths s t) : Tame s t := by
  have hview : ∀ inst, Origin rebuildReason images s inst → Halted (readyView s.stored) →
      Halted (readyView s.mem) → Halted (readyView inst) := by
    intro inst ho hs hm
    rcases ho.view with ⟨hv, -⟩ | ⟨hv, -⟩ | hv
    · rw [hv]
      exact hs
    · rw [hv]
      exact hm
    · exact halted_of_not_rebuildReason hv
  obtain ⟨new, hacts, hwork⟩ := h.acts
  refine ⟨fun hs hm => ⟨hview _ h.stored hs hm, hview _ h.mem hs hm⟩, new, hacts, ?_⟩
  intro act hact
  cases hwork act hact with
  | applySts _ _ _ => rfl
  | deleteSts hpath => exact decide_eq_false (hpaths _ hpath)
  | deletePvc hpath => exact decide_eq_false (hpaths _ hpath)

theorem tame_of_quiet {p : P α} (hp : Within (Quiet rebuildReason ∅) p) : Within Tame p := by
  have hnone : ∀ p : Path, False → ¬ p.Rebuilds := fun _ h => h.elim
  exact fun s => (hp s).mono (fun _ _ h => h.works.tame hnone) fun _ _ h => h.works.tame hnone

theorem tame_setReady {reason : Reason} {message : String} :
    Within Tame (setReady env .false reason message) := by
  apply Within.modify
  intro s
  refine ⟨fun hs _ => ⟨hs, ?_⟩, [], rfl, by simp⟩
  have hview : readyView (withConditions s.mem
      (upsert env.now .ready .false reason message s.mem.status.conditions)) =
      some (.false, reason) := readyView_upsert_ready
  exact hview ▸ halted_false

theorem tame_commit {reason : Reason} {message : String} {c : Call} {r : Result} :
    Within Tame (commit env reason message c r) :=
  .bind tame_setReady fun _ => .bind (tame_of_quiet quiet_updateStatus) fun _ => .finish _

theorem tame_applySts {path : Path} {sts : StatefulSet} {c : Call} :
    Within Tame (applySts env path sts c) := by
  intro s
  have hact : ∀ t : Session, t.stored = s.stored → t.mem = s.mem →
      t.acts = .applySts path s.sts.isNone sts (s.mem.status.activeImages.getD ∅) :: s.acts →
      Tame s t := by
    intro t hstored hmem hacts
    rw [← List.singleton_append] at hacts
    refine ⟨by rw [hstored, hmem]; exact fun h h' => ⟨h, h'⟩, _, hacts, ?_⟩
    intro act hact
    rw [List.mem_singleton.mp hact]
    rfl
  exact wp_effect (Std.Refl.refl s) (hact _ rfl rfl rfl) (hact _ rfl rfl rfl)

theorem tame_createFromSnapshot {path : Path} {inst : Instance} {sp : StsParams} :
    Within Tame (createFromSnapshot env path inst sp) := by
  unfold createFromSnapshot
  split
  · exact .pure _
  · exact tame_applySts

/-- As long as nothing is pending, a tame step leaves it so. -/
theorem pending_append {new acts : List Act} (hnew : ∀ act ∈ new, act.removes = false)
    (hp : pending acts = false) : pending (new ++ acts) = false := by
  induction new with
  | nil => exact hp
  | cons act rest ih =>
    have hact := hnew act List.mem_cons_self
    have ih := ih fun act hact => hnew act (List.mem_cons_of_mem _ hact)
    cases act with
    | deleteSts path => exact Bool.or_eq_false_iff.mpr ⟨hact, ih⟩
    | deletePvc path pvc snapshot => exact Bool.or_eq_false_iff.mpr ⟨hact, ih⟩
    | applySts path created sts active => exact Bool.and_eq_false_iff.mpr (.inl ih)
    | beginBackup backupID disks => exact ih
    | takeSnapshot name => exact ih
    | seeReady name => exact ih

theorem protected_append {new acts : List Act} (hnew : ∀ act ∈ new, act.removes = false)
    (hp : pending acts = false) (h : Protected acts) : Protected (new ++ acts) := by
  induction new with
  | nil => exact h
  | cons act rest ih =>
    have hrest : ∀ act ∈ rest, act.removes = false :=
      fun act hact => hnew act (List.mem_cons_of_mem _ hact)
    cases act with
    | applySts path created sts active => exact ⟨fun _ _ => pending_append hrest hp, ih hrest⟩
    | deleteSts path => exact ih hrest
    | deletePvc path pvc snapshot => exact ih hrest
    | beginBackup backupID disks => exact ih hrest
    | takeSnapshot name => exact ih hrest
    | seeReady name => exact ih hrest

theorem Rebuildable.tame (hr : Rebuildable s) (hp : pending s.acts = false) (h : Tame s t) :
    Rebuildable t ∧ pending t.acts = false := by
  obtain ⟨new, hacts, hnew⟩ := h.acts
  obtain ⟨hstored, hmem⟩ := h.halted hr.stored hr.mem
  have hpt : pending t.acts = false := by
    rw [hacts]
    exact pending_append hnew hp
  refine ⟨⟨?_, hstored, hmem, fun h => ?_⟩, hpt⟩
  · rw [hacts]
    exact protected_append hnew hp hr.protect
  · rw [hpt] at h
    cases h

end Tame

section NothingPending

variable {s t : Session} {env : Env} {sp : StsParams} {disks : List DiskSpec} {r : Reason}

/-- A first object is removed, and from then on the rebuild is awaited. -/
theorem Rebuildable.removed {path : Path} (hr : Rebuildable s) (h : Removed path disks s t)
    (hawaits : ∀ built, Awaits built s.stored ∧ Awaits built s.mem) : Rebuildable t := by
  have hprotect : Protected t.acts := by
    rcases h.acts with hacts | ⟨disk, -, hacts⟩
    · rw [hacts]
      exact hr.protect
    · rw [hacts]
      exact hr.protect
  constructor
  · exact hprotect
  · rw [h.stored]
    exact hr.stored
  · rw [h.mem]
    exact hr.mem
  · intro _
    rw [h.stored, h.mem]
    exact hawaits _

theorem PatchStep.tame_or_removed (h : PatchStep disks r s t) :
    Tame s t ∨ (r = .statefulSetPatchingFailure ∨ r = .databasePatchingFailure) ∧
      Removed .recovery disks s t := by
  have htame : ∀ new, t.acts = new ++ s.acts → (∀ act ∈ new, act.removes = false) →
      (Halted (readyView s.mem) → Halted (readyView t.mem)) → Tame s t := by
    intro new hacts hnew hm
    refine ⟨fun hs hm' => ⟨?_, hm hm'⟩, new, hacts, hnew⟩
    rw [h.stored]
    exact hs
  have happlied : ∀ act, Applied r act → act.removes = false := by
    intro act hact
    cases hact <;> rfl
  cases h.move with
  | stay hsame _ hacts =>
    obtain ⟨new, hacts, hnew⟩ := hacts
    refine .inl (htame new hacts (fun act hact => happlied act (hnew act hact)) ?_)
    rw [hsame]
    exact id
  | next hnext hnew' hstatus _ hacts =>
    obtain ⟨new, hacts, hnew⟩ := hacts
    refine .inl (htame new hacts (fun act hact => happlied act (hnew act hact)) fun _ => ?_)
    rw [hnew']
    rintro _ ⟨⟩ hr
    exact hstatus (machineReason_of_rebuildReason hr)
  | remove hr hact hmem hsnap hacts =>
    refine .inr ⟨hr, h.stored, hmem, hsnap, ?_⟩
    cases hact with
    | sts => exact .inl hacts
    | pvc hdisk => exact .inr ⟨_, hdisk, hacts⟩
  | @begin backupID names hr hacts _ hnew =>
    left
    have hacts : t.acts = (names.map Act.takeSnapshot ++
        [.beginBackup backupID (s.mem.spec.disks.getD [])]) ++ s.acts := by
      rw [hacts, List.append_assoc]
      rfl
    apply htame _ hacts
    · intro act hact
      rcases List.mem_append.mp hact with hact | hact
      · obtain ⟨name, -, rfl⟩ := List.mem_map.mp hact
        rfl
      · rw [List.mem_singleton.mp hact]
        rfl
    · rcases hnew with hsame | hfail | ⟨hstart, -⟩
      · rw [hsame]
        exact id
      · rw [hfail]
        exact fun _ => halted_false
      · rw [hstart]
        exact fun _ => halted_false
  | @check names hr _ hacts hnew =>
    left
    apply htame _ hacts
    · intro act hact
      obtain ⟨name, -, rfl⟩ := List.mem_map.mp hact
      rfl
    · rcases hnew with hsame | hfail | ⟨hdone, -⟩
      · rw [hsame]
        exact id
      · rw [hfail]
        exact fun _ => halted_false
      · rw [hdone]
        exact fun _ => halted_false

/-- The reason of a rebuild that was read is that of the copy and of the object. -/
def SameStatus (s : Session) : Prop := Rebuilding s.mem → s.mem.status = s.stored.status

theorem Awaits.both (h : ∀ built, Awaits built s.mem) (hsame : SameStatus s) (built : Bool) :
    Awaits built s.stored ∧ Awaits built s.mem := by
  have hst := hsame (h built).rebuilding
  exact ⟨(h built).congr (by rw [hst]) (by rw [hst]) id, h built⟩

theorem rebuildable_handlePatching (hr : Rebuildable s) (hp : pending s.acts = false)
    (hsame : SameStatus s) :
    wp (handlePatching env sp) (fun _ t => t = s) (fun _ => Rebuildable) s := by
  refine patchStep_handlePatching.mono (fun _ _ h => h.1) ?_
  rintro _ t ⟨⟨hentry, hdb, -⟩, cond, hcond, hstep⟩
  have hview : readyView s.mem = some (cond.status, cond.reason) :=
    readyView_eq_some.mpr ⟨cond, hcond, rfl⟩
  rcases hstep.tame_or_removed with htame | ⟨hreason, hremoved⟩
  · exact (hr.tame hp htame).1
  · have hrebuild : rebuildReason cond.reason = true := by
      rcases hreason with h | h <;> rw [h] <;> rfl
    have hstatus : cond.status = .false := hr.mem _ hview hrebuild
    -- with the status False the machine was not entered but at work
    have hactive : s.mem.status.currentActiveStateMachine = .patching := by
      apply hentry.resolve_left
      simp [isPatchingStateMachineEntryCondition, hcond, conditionStatusEquals, hstatus]
    rw [hstatus] at hview
    apply hr.removed hremoved
    apply Awaits.both _ hsame
    intro built
    exact .recovery hview hactive hdb (.inl hreason)

theorem tame_acceptRequest {restore : RestoreSpec} : Within Tame (acceptRequest env restore) := by
  refine .bind .get fun s => .ite (fun _ => .pure _) fun _ => ?_
  refine .bind (tame_of_quiet quiet_acquireInstanceMaintenanceLock) fun _ => ?_
  refine .bind (.when fun _ => .finish _) fun _ => ?_
  refine .bind (tame_of_quiet (quiet_setStatus ?_ ?_ ?_ ?_)) fun _ => tame_commit
  all_goals exact fun _ => rfl

theorem tame_launchRestore {restore : RestoreSpec} :
    Within Tame (launchRestore env restore sp) := by
  refine .bind tame_setReady fun _ => .bind (tame_of_quiet quiet_updateStatus) fun _ => ?_
  refine .bind (.when fun _ => .finish _) fun _ => ?_
  unfold startRestore
  cases restore.backupType with
  | snapshot =>
    refine .bind .get fun _ => .bind tame_createFromSnapshot fun _ => ?_
    exact .bind (.when fun _ => tame_of_quiet quiet_noteLaunch) fun _ => .finish _
  | physical => exact tame_of_quiet (quiet_launchPhysical rebuildReason_of_not_claimedReason)
  | unset => exact .finish _
  | logical => exact .finish _

/-- Every other state of the restore removes nothing. -/
theorem tame_restoreState {restore : RestoreSpec} {backup : Backup} {reason : Reason}
    (hr : reason ≠ .restorePreparationInProgress) :
    Within Tame (restoreState env sp restore backup reason) := by
  have hmachine := rebuildReason_of_not_claimedReason
  unfold restoreState
  split
  · exact tame_acceptRequest
  · exact tame_acceptRequest
  · exact tame_acceptRequest
  · exact absurd rfl hr
  · exact tame_launchRestore
  · exact tame_of_quiet (quiet_awaitRestore hmachine)
  · exact tame_of_quiet (quiet_bootstrapRestored hmachine)
  · exact tame_of_quiet (quiet_patchRestored hmachine)
  · exact tame_of_quiet (quiet_awaitRestoredPatching hmachine)
  · exact .pure _

theorem prepareRestore_spec {restore : RestoreSpec} :
    wp (prepareRestore env restore sp) (fun _ => Tame s)
      (fun _ t => Tame s t ∨ Removed .restore sp.disks s t) s := by
  have hleave : Within Tame (leave env .restorePreparationComplete "" .requeue) :=
    .bind tame_setReady fun _ => .finish _
  simp only [prepareRestore, wp_bind, wp_when]
  constructor
  · intro _
    refine deleteOldSTSandPVCs_spec.mono ?_ fun _ _ h => h
    rintro poll t (⟨rfl, -⟩ | ⟨rfl, hremoved⟩)
    · cases poll with
      | failed =>
        have hfail : Within Tame (failRestore env "failed to remove the old StatefulSet and claims") :=
          tame_of_quiet (quiet_failRestore rebuildReason_of_not_claimedReason)
        exact wp_bind.mpr ((hfail t).mono (fun _ _ h => .inl h) fun _ _ h => .inl h)
      | waiting => exact .inl (Std.Refl.refl t)
      | done =>
        apply wp_pure.mpr
        exact (hleave t).mono (fun _ _ h => h) fun _ _ h => .inl h
    · exact .inr hremoved
  · intro _
    exact (hleave s).mono (fun _ _ h => h) fun _ _ h => .inl h

theorem rebuildable_handleRestore (hr : Rebuildable s) (hp : pending s.acts = false)
    (hsame : SameStatus s) :
    wp (handleRestore env sp) (fun _ t => Tame s t) (fun _ => Rebuildable) s := by
  have hin : ∀ {p : P Unit}, Within Tame p → wp p (fun _ t => Tame s t) (fun _ => Rebuildable) s :=
    fun hp' => (hp' s).mono (fun _ _ h => h) fun _ t h => (hr.tame hp h).1
  have hfail : ∀ message, Within Tame (failRestore env message) :=
    fun _ => tame_of_quiet (quiet_failRestore rebuildReason_of_not_claimedReason)
  simp only [handleRestore, wp_bind, wp_get]
  cases s.mem.spec.restore with
  | none => exact Std.Refl.refl s
  | some restore =>
    simp only [restoreStateMachine, wp_bind, wp_get]
    cases hcond : readyCond s.mem with
    | none => exact Std.Refl.refl s
    | some cond =>
      dsimp only
      split
      · exact Std.Refl.refl s
      · next hskip =>
        cases findBackupForRestore env.catalog s.mem restore with
        | error e => exact hin (hfail _)
        | ok backup =>
          dsimp only
          split
          · by_cases hreason : cond.reason = .restorePreparationInProgress
            · rw [hreason]
              refine prepareRestore_spec.mono (fun _ _ h => h) ?_
              rintro _ t (htame | hremoved)
              · exact (hr.tame hp htame).1
              · have hview : readyView s.mem = some (cond.status, cond.reason) :=
                  readyView_eq_some.mpr ⟨cond, hcond, rfl⟩
                have hstatus : cond.status = .false := hr.mem _ hview (by rw [hreason]; rfl)
                rw [hstatus, hreason] at hview
                have hdb : restorable s.mem = true := by
                  by_contra hn
                  exact hskip (.inr (.inl hn))
                apply hr.removed hremoved
                apply Awaits.both _ hsame
                intro built
                exact .restore hview hdb (.inl rfl)
            · exact hin (tame_restoreState hreason)
          · split
            · exact hin (hfail _)
            · exact hr

theorem rebuildable_machines (hr : Rebuildable s) (hp : pending s.acts = false)
    (hsame : SameStatus s) :
    wp (machines env sp) (fun _ => Rebuildable) (fun _ => Rebuildable) s := by
  refine wp_bind.mpr ((rebuildable_handlePatching hr hp hsame).mono ?_ fun _ _ h => h)
  rintro _ _ rfl
  refine wp_bind.mpr ((rebuildable_handleRestore hr hp hsame).mono ?_ fun _ _ h => h)
  intro _ t ht
  obtain ⟨htr, hpt⟩ := hr.tame hp ht
  have hcreate : Within (Works rebuildReason sp.images fun p => p = .resize ∨ p = .main)
      (createInstance env sp) :=
    works_createInstance rebuildReason_of_not_claimedReason (.inl rfl) (.inr rfl) rfl
  have hpaths : ∀ p : Path, p = .resize ∨ p = .main → ¬ p.Rebuilds := by
    rintro p (rfl | rfl) <;> decide
  exact (hcreate t).mono (fun _ _ h => (htr.tame hpt (h.tame hpaths)).1)
    fun _ _ h => (htr.tame hpt (h.tame hpaths)).1

end NothingPending

section Pending

variable {s t : Session} {env : Env} {sp : StsParams}

/-- The rebuild goes on from one of its reasons to the next. -/
theorem Rebuildable.advance (hr : Rebuildable s) (hacts : t.acts = s.acts)
    (hstored : Awaits t.sts.isSome t.stored) (hmem : Awaits t.sts.isSome t.mem) :
    Rebuildable t := by
  have hhalted : ∀ inst, Awaits t.sts.isSome inst → Halted (readyView inst) := by
    intro inst h
    cases h with
    | restore hview _ _ =>
      rw [hview]
      exact halted_false
    | recovery hview _ _ _ =>
      rw [hview]
      exact halted_false
  refine ⟨?_, hhalted _ hstored, hhalted _ hmem, fun _ => ⟨hstored, hmem⟩⟩
  rw [hacts]
  exact hr.protect

theorem fromSnapshots_of_backupID {restore : RestoreSpec} {sts : StatefulSet}
    (hrestore : sp.restore = some restore) (hid : restore.backupID ≠ "")
    (hsts : constructSTSandPVCs sp = .ok sts) : fromSnapshots sts = true := by
  apply List.all_eq_true.mpr
  intro pvc hpvc
  have hall := (constructSTSandPVCs_ok hsts).2.2.2
  obtain ⟨disk, -, hnew⟩ : ∃ disk ∈ sp.disks, newPVC sp disk = .ok pvc := by
    clear hsts
    generalize sp.disks = disks at hall
    generalize sts.volumeClaimTemplates = pvcs at hall hpvc
    induction hall with
    | nil => cases hpvc
    | cons hhead _ ih =>
      rcases List.mem_cons.mp hpvc with rfl | hpvc
      · exact ⟨_, List.mem_cons_self, hhead⟩
      · obtain ⟨disk, hdisk, hnew⟩ := ih hpvc
        exact ⟨disk, List.mem_cons_of_mem _ hdisk, hnew⟩
  rw [(newPVC_ok hnew).2.2, hrestore]
  simp [dataSourceOf, hid, volumeSnapshot]

/-- The StatefulSet of the rebuild is created, and nothing is pending any more. -/
theorem rebuildable_createFromSnapshot {path : Path} {inst : Instance} {restore : RestoreSpec}
    {R : Result → Session → Prop} (hr : Rebuildable s) (hbuilt : s.sts.isSome = false)
    (hpath : path.Rebuilds) (hrestore : inst.spec.restore = some restore)
    (hid : restore.backupID ≠ "") :
    wp (createFromSnapshot env path inst sp)
      (fun ok t => ok = false ∧ t = s ∨ Rebuildable t ∧ pending t.acts = false) R s := by
  unfold createFromSnapshot
  cases hsts : restoreSnapshot inst sp with
  | error e => exact .inl ⟨rfl, rfl⟩
  | ok sts =>
    have hfrom : fromSnapshots sts = true := fromSnapshots_of_backupID hrestore hid hsts
    have hnone : s.sts.isNone = true := by
      rw [← Option.not_isSome, hbuilt]
      rfl
    have hcreated : ∀ t : Session, t.stored = s.stored → t.mem = s.mem →
        t.acts = .applySts path s.sts.isNone sts (s.mem.status.activeImages.getD ∅) :: s.acts →
        Rebuildable t ∧ pending t.acts = false := by
      intro t hstored hmem hacts
      have hp : pending t.acts = false := by
        rw [hacts]
        simp [pending, hnone, hfrom]
      refine ⟨⟨?_, ?_, ?_, fun h => ?_⟩, hp⟩
      · rw [hacts]
        exact ⟨fun _ hn => absurd hpath hn, hr.protect⟩
      · rw [hstored]
        exact hr.stored
      · rw [hmem]
        exact hr.mem
      · rw [hp] at h
        cases h
    apply wp_effect
    · exact .inl ⟨rfl, rfl⟩
    · exact .inr (hcreated _ rfl rfl rfl)
    · exact .inr (hcreated _ rfl rfl rfl)

section Upsert

variable {inst : Instance} {now : Time} {reason : Reason} {message : String} {built : Bool}

theorem awaits_restore_upsert (hdb : restorable inst = true)
    (hr : reason = .restorePreparationComplete ∨ reason = .restoreInProgress)
    (hbuilt : built = false) :
    Awaits built (withConditions inst
      (upsert now .ready .false reason message inst.status.conditions)) := by
  apply Awaits.restore readyView_upsert_ready _ (.inr ⟨hr, hbuilt⟩)
  unfold restorable at hdb ⊢
  rw [dbInstanceCond_upsert_ready]
  exact hdb

theorem awaits_recovery_upsert (hactive : inst.status.currentActiveStateMachine = .patching)
    (hdb : (dbInstanceCond inst).isSome = true) (hr : reason = .patchingRecoveryInProgress)
    (hbuilt : built = false) :
    Awaits built (withConditions inst
      (upsert now .ready .false reason message inst.status.conditions)) := by
  apply Awaits.recovery readyView_upsert_ready hactive _ (.inr ⟨hr, hbuilt⟩)
  rw [dbInstanceCond_upsert_ready]
  exact hdb

end Upsert

theorem tame_setMem {f : Instance → Instance} (hview : ∀ i, readyView (f i) = readyView i) :
    Within Tame (setMem f) := by
  apply Within.modify
  intro s
  refine ⟨fun hs hm => ⟨hs, ?_⟩, [], rfl, by simp⟩
  rw [hview]
  exact hm

/-- The recovery builds from its snapshots, or tries again in the next reconcile. -/
theorem rebuildable_recover (hr : Rebuildable s) (hbuilt : s.sts.isSome = false)
    (hid : s.mem.status.backupID ≠ "") :
    wp (recover env sp) (fun _ _ => False) (fun _ => Rebuildable) s := by
  have hcreate : wp (recoverFromPatchingFailure env sp)
      (fun ok t => ok = false ∧ t = s ∨ Rebuildable t ∧ pending t.acts = false)
      (fun _ => Rebuildable) s := by
    refine wp_bind.mpr (wp_get.mpr ?_)
    apply rebuildable_createFromSnapshot hr hbuilt (.inr rfl) rfl
    exact hid
  refine wp_bind.mpr (hcreate.mono ?_ fun _ _ h => h)
  rintro ok t (⟨rfl, rfl⟩ | ⟨ht, hp⟩)
  · simp only [wp_bind, wp_when, wp_finish]
    exact ⟨fun _ => hr, fun h => absurd Bool.false_ne_true h⟩
  · have hprogress : Within Tame (updateProgressCondition env "PatchingRecoveryInProgress") :=
      tame_of_quiet quiet_updateProgressCondition
    refine wp_bind.mpr (wp_when.mpr ⟨fun _ => ht, fun _ => wp_bind.mpr ?_⟩)
    refine (hprogress t).mono ?_ fun _ _ h => (ht.tame hp h).1
    intro complete u hu
    obtain ⟨hur, hup⟩ := ht.tame hp hu
    simp only [wp_bind, wp_when, wp_finish]
    refine ⟨fun _ => hur, fun _ => ⟨fun _ => hur, fun _ => ?_⟩⟩
    have hlast : Within Tame (setMem fun inst => { inst with
        status := { inst.status with
          lastFailedImages := cloneMap inst.spec.images, currentActiveStateMachine := .none } }) :=
      tame_setMem fun _ => rfl
    have hready : Within Tame (setReady env .true .patchingRecoveryCompleted
        "Finished restoring from snapshot after patching failure") :=
      tame_of_quiet (quiet_setReady rfl)
    refine (hlast u).mono ?_ fun _ _ h => (hur.tame hup h).1
    intro _ v hv
    obtain ⟨hvr, hvp⟩ := hur.tame hup hv
    exact (hready v).mono (fun _ _ h => (hvr.tame hvp h).1) fun _ _ h => (hvr.tame hvp h).1

theorem rebuildable_prepareRecovery {r : Reason} (hr : Rebuildable s) (hp : pending s.acts = true)
    (hview : readyView s.mem = some (.false, r))
    (hactive : s.mem.status.currentActiveStateMachine = .patching)
    (hdb : (dbInstanceCond s.mem).isSome = true)
    (hreason : r = .statefulSetPatchingFailure ∨ r = .databasePatchingFailure)
    (hsame : SameStatus s) (hremovable : Removable env s.mem.name sp) :
    wp (prepareRecovery env sp) (fun _ _ => False) (fun _ => Rebuildable) s := by
  refine wp_bind.mpr (deleteOldSTSandPVCs_spec.mono ?_ fun _ _ h => h)
  rintro poll t (⟨rfl, hdone, hfailed⟩ | ⟨rfl, hremoved⟩)
  · cases poll with
    | failed => exact absurd hremovable (hfailed rfl)
    | waiting => exact hr
    | done =>
      have hbuilt : t.sts.isSome = false := by simp [hdone rfl]
      exact hr.advance rfl (hr.awaits hp).1 (awaits_recovery_upsert hactive hdb rfl hbuilt)
  · apply hr.removed hremoved
    apply Awaits.both _ hsame
    intro built
    exact .recovery hview hactive hdb (.inl hreason)

theorem rebuildable_prepareRestore {restore : RestoreSpec} (hr : Rebuildable s)
    (hp : pending s.acts = true)
    (hview : readyView s.mem = some (.false, .restorePreparationInProgress))
    (hdb : restorable s.mem = true) (hsame : SameStatus s) (htype : restore.backupType = .snapshot)
    (hremovable : Removable env s.mem.name sp) :
    wp (prepareRestore env restore sp) (fun _ _ => False) (fun _ => Rebuildable) s := by
  simp only [prepareRestore, wp_bind, wp_when]
  refine ⟨fun _ => ?_, fun h => absurd htype h⟩
  refine deleteOldSTSandPVCs_spec.mono ?_ fun _ _ h => h
  rintro poll t (⟨rfl, hdone, hfailed⟩ | ⟨rfl, hremoved⟩)
  · cases poll with
    | failed => exact absurd hremovable (hfailed rfl)
    | waiting => exact hr
    | done =>
      have hbuilt : t.sts.isSome = false := by simp [hdone rfl]
      apply wp_pure.mpr
      exact hr.advance rfl (hr.awaits hp).1 (awaits_restore_upsert hdb (.inl rfl) hbuilt)
  · apply hr.removed hremoved
    apply Awaits.both _ hsame
    intro built
    exact .restore hview hdb (.inl rfl)

/-- The note of a launch is nothing that the invariant is about. -/
theorem Rebuildable.noteLaunch {c : Prop} [Decidable c] {op : RestoreOp} {r : Result}
    (hr : Rebuildable s) :
    wp (when c (noteLaunch op) >>= fun _ => finish r : P Unit)
      (fun _ _ => False) (fun _ => Rebuildable) s := by
  simp only [wp_bind, wp_when, Reconciler.noteLaunch, wp_modify, wp_finish]
  exact ⟨fun _ => ⟨hr.protect, hr.stored, hr.mem, hr.awaits⟩, fun _ => hr⟩

/-- The reason is written before the StatefulSet is created; both wait for it if that fails. -/
theorem rebuildable_launchRestore {restore : RestoreSpec} (hr : Rebuildable s)
    (hp : pending s.acts = true) (hdb : restorable s.mem = true) (hbuilt : s.sts.isSome = false)
    (hspec : s.mem.spec = s.stored.spec) (hrestore : s.mem.spec.restore = some restore)
    (htype : restore.backupType = .snapshot) (hid : restore.backupID ≠ "") :
    wp (launchRestore env restore sp) (fun _ _ => False) (fun _ => Rebuildable) s := by
  let noted := withConditions s.mem
    (upsert env.now .ready .false .restoreInProgress "" s.mem.status.conditions)
  have hnoted : Awaits s.sts.isSome noted := awaits_restore_upsert hdb (.inr rfl) hbuilt
  let written : Session := Session.store { s with mem := noted }
    { s.stored with status := noted.status }
  have hstored : written.stored = { s.stored with status := noted.status } := store_stored
  have hsts : written.sts = s.sts := by
    unfold written Session.store
    split <;> rfl
  have hacts : written.acts = s.acts := by
    unfold written Session.store
    split <;> rfl
  have hmem : written.mem = noted := by
    unfold written Session.store
    split <;> rfl
  have hwritten : Awaits written.sts.isSome written.stored := by
    rw [hsts, hstored]
    exact hnoted.congr rfl rfl id
  refine wp_bind.mpr (wp_bind.mpr (wp_write ?_ ?_ ?_))
  · exact hr.advance rfl (hr.awaits hp).1 hnoted
  · apply hr.advance hacts hwritten
    rw [hsts, hmem]
    exact hnoted
  · have hnext : Rebuildable { written with
        mem := written.stored, memVersion := written.resourceVersion } :=
      hr.advance hacts hwritten hwritten
    simp only [wp_bind, wp_when]
    refine ⟨fun h => absurd trivial h, fun _ => ?_⟩
    rw [startRestore, htype]
    refine wp_bind.mpr (wp_get.mpr (wp_bind.mpr ?_))
    have hbuilt' : written.sts.isSome = false := by rw [hsts, hbuilt]
    have hrestore' : written.stored.spec.restore = some restore := by
      rw [hstored, ← hrestore, hspec]
    refine (rebuildable_createFromSnapshot hnext hbuilt' (.inl rfl) hrestore' hid).mono ?_
      fun _ _ h => h
    rintro ok t (⟨rfl, rfl⟩ | ⟨ht, -⟩)
    · exact hnext.noteLaunch
    · exact ht.noteLaunch

theorem rebuildable_handleRestore_pending {r : Reason} (hr : Rebuildable s)
    (hp : pending s.acts = true) (hview : readyView s.mem = some (.false, r))
    (hdb : restorable s.mem = true)
    (hreason : r = .restorePreparationInProgress ∨
      (r = .restorePreparationComplete ∨ r = .restoreInProgress) ∧ s.sts.isSome = false)
    (hsame : SameStatus s) (hspec : s.mem.spec = s.stored.spec)
    (hcourse : OnCourse env sp s.mem) :
    wp (handleRestore env sp) (fun _ _ => False) (fun _ => Rebuildable) s := by
  obtain ⟨cond, hcond, heq⟩ := readyView_eq_some.mp hview
  obtain ⟨-, hcondreason⟩ := Prod.mk.inj heq
  obtain ⟨hstands, hremovable, hid, -⟩ := hcourse cond hcond
  rw [hcondreason] at hstands hremovable hid
  have hrestoring : restoringReason r = true := by
    rcases hreason with rfl | ⟨rfl | rfl, -⟩ <;> rfl
  obtain ⟨restore, hrestore, hforce, htype, backup, hfound, hbackup⟩ := hstands hrestoring
  have hrestore : s.mem.spec.restore = some restore := hrestore
  have hfound : findBackupForRestore env.catalog s.mem restore = .ok backup := by
    generalize findBackupForRestore env.catalog s.mem restore = found at hfound
    cases found with
    | error e => cases hfound
    | ok b => rw [Option.some.inj hfound]
  have hskip : ¬ (cond.reason = .createInProgress ∨ ¬ restorable s.mem ∨ ¬ restore.force) := by
    rw [hcondreason, hdb, hforce]
    rintro (h | h | h)
    · rw [h] at hrestoring
      cases hrestoring
    · exact h rfl
    · exact h rfl
  simp only [handleRestore, wp_bind, wp_get, hrestore, restoreStateMachine, hcond, if_neg hskip,
    hfound]
  split
  · rw [hcondreason]
    rcases hreason with rfl | ⟨rfl | rfl, hbuilt⟩
    · exact rebuildable_prepareRestore hr hp hview hdb hsame htype (hremovable rfl)
    · exact rebuildable_launchRestore hr hp hdb hbuilt hspec hrestore htype
        (hid rfl restore hrestore)
    · simp only [restoreState, awaitRestore, wp_bind, wp_get, htype, stsComplete, hbuilt,
        Bool.false_and]
      exact hr
  · next hnotReady =>
    have hnotFailed := hbackup.resolve_left hnotReady
    rw [if_neg (by rw [hnotFailed]; exact Bool.false_ne_true)]
    exact hr

/-- While the rebuild is pending, its machine takes the whole reconcile. -/
theorem rebuildable_machines_pending (hr : Rebuildable s) (hp : pending s.acts = true)
    (hsame : SameStatus s) (hspec : s.mem.spec = s.stored.spec) (hcourse : OnCourse env sp s.mem) :
    wp (machines env sp) (fun _ => Rebuildable) (fun _ => Rebuildable) s := by
  refine wp_bind.mpr ?_
  cases (hr.awaits hp).2 with
  | @restore r hview hdb hreason =>
    have hpatching : wp (handlePatching env sp) (fun _ t => t = s) (fun _ => Rebuildable) s := by
      refine patchStep_handlePatching.mono (fun _ _ h => h.1) ?_
      rintro _ t ⟨⟨-, -, cond, hcond, hhandled⟩, -⟩
      have hreason' : cond.reason = r := by
        have hv : readyView s.mem = some (cond.status, cond.reason) :=
          readyView_eq_some.mpr ⟨cond, hcond, rfl⟩
        exact (Prod.mk.inj (Option.some.inj (hv.symm.trans hview))).2
      rw [hreason'] at hhandled
      rcases hreason with rfl | ⟨rfl | rfl, -⟩ <;> cases hhandled
    refine hpatching.mono ?_ fun _ _ h => h
    rintro _ _ rfl
    refine wp_bind.mpr ?_
    refine (rebuildable_handleRestore_pending hr hp hview hdb hreason hsame hspec hcourse).mono ?_
      fun _ _ h => h
    intro _ _ h
    exact h.elim
  | @recovery r hview hactive hdb hreason =>
    obtain ⟨cond, hcond, heq⟩ := readyView_eq_some.mp hview
    obtain ⟨-, hcondreason⟩ := Prod.mk.inj heq
    obtain ⟨-, hremovable, -, hid⟩ := hcourse cond hcond
    obtain ⟨db, hdbcond⟩ := Option.isSome_iff_exists.mp hdb
    rw [hcondreason] at hremovable hid
    have hstate : wp (handlePatching env sp) (fun _ _ => False) (fun _ => Rebuildable) s := by
      simp only [handlePatching, wp_bind, wp_get, wp_when]
      refine ⟨fun _ => ?_, fun h => absurd (.inr hactive) h⟩
      simp only [patchingStateMachine, wp_bind, wp_get, hcond, hdbcond, patchingState, hcondreason]
      rcases hreason with (rfl | rfl) | ⟨rfl, hbuilt⟩
      · exact rebuildable_prepareRecovery hr hp hview hactive hdb (.inl rfl) hsame (hremovable rfl)
      · exact rebuildable_prepareRecovery hr hp hview hactive hdb (.inr rfl) hsame (hremovable rfl)
      · exact rebuildable_recover hr hbuilt (hid rfl)
    exact hstate.mono (fun _ _ h => h.elim) fun _ _ h => h

end Pending

section Steps

variable {s : Session} {env : Env} {w w' : World}

theorem rebuildable_body (hs : s.mem = s.stored) (hr : Rebuildable s)
    (hp : pending s.acts = false) :
    wp (body env) (fun _ => Rebuildable) (fun _ => Rebuildable) s := by
  have hquiet : Within (Quiet rebuildReason ∅) (preamble env) :=
    quiet_preamble rebuildReason_of_not_machineReason
  have htame : wp (preamble env) (fun _ => Tame s) (fun _ => Tame s) s :=
    tame_of_quiet hquiet s
  -- the reason of a rebuild is handed over as it was read, or there is none
  have hsame : wp (preamble env) (fun _ => SameStatus) (fun _ _ => True) s := by
    by_cases hrebuild : Rebuilding s.stored
    · by_cases hstop : isStopped s.mem = true
      · have hn : conditionReasonEquals (readyCond s.mem) .instanceStopped = false := by
          rw [hs]
          exact hrebuild.busy.idle.2 _ rfl
        exact (preamble_of_isStopped hstop hn).mono (fun _ _ h => h.elim) fun _ _ h => h
      · rw [Bool.not_eq_true, hs] at hstop
        refine (kept_preamble hs hstop hrebuild.busy).mono ?_ fun _ _ _ => trivial
        intro _ t ht _
        rw [ht.stored]
        exact ht.mem.elim id fun h => by rw [h, hs]
    · refine (handed_preamble hs).mono ?_ fun _ _ h => h
      rintro _ t hh ⟨reason, hview, hreason⟩
      rcases hh.ready with hready | ⟨-, hun, -⟩
      · apply absurd _ hrebuild
        exact ⟨reason, by rw [← hview, readyView, readyView, hready], hreason⟩
      · have hnot := rebuildReason_of_not_machineReason _ (hun _ hview)
        rw [hreason] at hnot
        cases hnot
  have hpre : wp (preamble env) (fun _ t => Tame s t ∧ SameStatus t) (fun _ => Rebuildable) s :=
    (htame.and hsame).mono (fun _ _ h => h) fun _ _ h => (hr.tame hp h.1).1
  apply wp_body hs hpre
  · exact fun t h => (hr.tame hp h.1).1
  · intro t config images h _ _ _
    obtain ⟨htr, hpt⟩ := hr.tame hp h.1
    exact rebuildable_machines htr hpt h.2

/-- What was handed over is on course if what was read is. -/
theorem OnCourse.handed {inst : Instance} {config : Option Config} {images : StrMap} {f : Bool}
    (h : OnCourse env (stsParams inst config images) inst) :
    OnCourse env (stsParams { inst with hasFinalizer := f } config images)
      { inst with hasFinalizer := f } := h

theorem rebuildable_body_pending (hs : s.mem = s.stored) (hr : Rebuildable s)
    (hp : pending s.acts = true) (hok : Continues s.toWorld (.reconcile env)) :
    wp (body env) (fun _ => Rebuildable) (fun _ => Rebuildable) s := by
  obtain ⟨hstop, hcourse⟩ := hok hp
  have hstatus : ∀ t, Kept True s t → t.mem.status = s.stored.status := by
    intro t ht
    exact ht.mem.elim id fun h => by rw [h, hs]
  have hkept : ∀ t, Kept True s t → Rebuildable t := by
    intro t ht
    apply hr.advance ht.acts
    · apply (hr.awaits hp).1.congr
      · rw [ht.stored]
      · rw [ht.stored]
      · rw [ht.sts]
        exact id
    · apply (hr.awaits hp).1.congr
      · rw [hstatus t ht]
      · rw [hstatus t ht]
      · rw [ht.sts]
        exact id
  have hpre : wp (preamble env) (fun _ => Kept True s) (fun _ => Kept True s) s :=
    (kept_preamble hs hstop (hr.awaits hp).1.rebuilding.busy).mono (fun _ _ h => h.mono) fun _ _ h => h
  apply wp_body hs (hpre.mono (fun _ _ h => h) fun _ => hkept) hkept
  intro t config images ht hh hconfig himages
  have hpt : pending t.acts = true := by
    rw [ht.acts]
    exact hp
  have hspec : t.mem.spec = t.stored.spec := (ht.spec (by rw [hs])).1
  apply rebuildable_machines_pending (hkept t ht) hpt _ hspec
  · have hmem : ∃ f, t.mem = { s.stored with hasFinalizer := f } := by
      obtain ⟨f, d, conditions, hmem, -⟩ := hh
      have hst := hstatus t ht
      rw [hmem] at hst ⊢
      dsimp only at hst
      rw [hst]
      exact ⟨f, rfl⟩
    obtain ⟨f, hmem⟩ := hmem
    rw [hmem]
    apply OnCourse.handed
    exact hcourse config (by rw [hconfig]; rfl) images (by rw [himages]; rfl)
  · intro _
    rw [hstatus t ht, ht.stored]

theorem rebuildable_reconcile (hr : Rebuildable w.session)
    (hok : Continues w (.reconcile env)) : Rebuildable (reconcile env w).session := by
  unfold reconcile
  split
  · exact hr
  · have hbody : Rebuildable (body env w.session).state := by
      apply wp.state
      cases hp : pending w.acts with
      | false => exact rebuildable_body rfl hr hp
      | true => exact rebuildable_body_pending rfl hr hp hok
    have hend : ∀ t : Session, Rebuildable t →
        Rebuildable ((updateStatus env .deferredStatus t).state.toWorld).session := by
      intro t ht
      have hstay : Rebuildable t.toWorld.session :=
        ⟨ht.protect, ht.stored, ht.stored, fun hp => ⟨(ht.awaits hp).1, (ht.awaits hp).1⟩⟩
      have hstore : Rebuildable (t.store { t.stored with status := t.mem.status }).toWorld.session := by
        unfold Session.store
        split
        · exact hstay
        · have hview : Halted (readyView { t.stored with status := t.mem.status }) := ht.mem
          refine ⟨ht.protect, hview, hview, fun hp => ?_⟩
          have hawaits := (ht.awaits hp).2.congr
            (rfl : ({ t.stored with status := t.mem.status } : Instance).status.conditions = _) rfl id
          exact ⟨hawaits, hawaits⟩
      apply wp.state (P := fun u : Session => Rebuildable u.toWorld.session)
      exact wp_write hstay hstore hstore
    exact hend _ hbody

theorem rebuildable_step {e : Event} (hr : Rebuildable w.session) (hok : Continues w e)
    (h : step w e = some w') : Rebuildable w'.session := by
  have hkeep : ∀ v : World, v.acts = w.acts →
      v.stored.status.conditions = w.stored.status.conditions →
      v.stored.status.currentActiveStateMachine = w.stored.status.currentActiveStateMachine →
      (w.sts.isSome = false → v.sts.isSome = false) → Rebuildable v.session := by
    intro v hacts hconds hactive hsts
    have hview : Halted (readyView v.stored) := by
      unfold readyView readyCond
      rw [hconds]
      exact hr.stored
    refine ⟨?_, hview, hview, fun hp => ?_⟩
    · rw [World.session, hacts]
      exact hr.protect
    · have hp : pending w.acts = true := by
        rw [← hacts]
        exact hp
      have hawaits := (hr.awaits hp).1.congr hconds hactive hsts
      exact ⟨hawaits, hawaits⟩
  cases e with
  | reconcile env =>
    obtain rfl := Option.some.inj h
    exact rebuildable_reconcile hr hok
  | addSnapshot name pvc =>
    simp only [step] at h
    split at h
    · cases h
    · obtain rfl := Option.some.inj h
      exact hkeep _ rfl rfl rfl id
  | setSnapshotStatus name status =>
    obtain ⟨snap, -, rfl⟩ := Option.map_eq_some_iff.mp h
    exact hkeep _ rfl rfl rfl id
  | editSpec spec =>
    obtain rfl := Option.some.inj h
    exact hkeep _ rfl rfl rfl id
  | deleteInstance now =>
    obtain rfl := Option.some.inj h
    exact hkeep _ rfl rfl rfl id
  | writeStatus backupID locked names =>
    obtain rfl := Option.some.inj h
    exact hkeep _ rfl rfl rfl id
  | removeSnapshot name =>
    obtain rfl := Option.some.inj h
    exact hkeep _ rfl rfl rfl id
  | stsGone =>
    obtain rfl := Option.some.inj h
    exact hkeep _ rfl rfl rfl fun _ => rfl
  | addPvc name =>
    obtain rfl := Option.some.inj h
    exact hkeep _ rfl rfl rfl id
  | pvcGone name =>
    obtain rfl := Option.some.inj h
    exact hkeep _ rfl rfl rfl id

theorem Idle.rebuildable (h : Idle w) : Rebuildable w.session := by
  have hview : Halted (readyView w.stored) := by
    apply halted_of_not_rebuildReason
    intro v hv
    exact rebuildReason_of_not_machineReason _ (h.unhurried v hv)
  refine ⟨?_, hview, hview, fun hp => ?_⟩
  · rw [World.session, h.acts]
    trivial
  · rw [World.session, h.acts] at hp
    cases hp

/-- In a run whose rebuilds stay on course, no other path creates a StatefulSet during one. -/
theorem protected_of_continues (w : World) (events : List Event) (hw : Idle w)
    (hm : Runs.Meets step Continues w events) :
    Runs.Always step (fun w => Protected w.acts) w events := by
  have hstep : ∀ w e w', Rebuildable w.session → Continues w e → step w e = some w' →
      Rebuildable w'.session := fun _ _ _ => rebuildable_step
  have hprotect : ∀ w : World, Rebuildable w.session → Protected w.acts := fun _ hr => hr.protect
  exact Runs.always_of_invariant hstep hprotect hw.rebuildable hm

end Steps

section Sample

def requestRestore : Event :=
  .editSpec { (createdInstance (some [dataDisk])).spec with restore := some byID }

/-- The user takes the request back while the old StatefulSet is gone already. -/
def withdrawnRestore : List Event :=
  [requestRestore, .reconcile (calm 1000), .reconcile (calm 2000),
    .editSpec (createdInstance (some [dataDisk])).spec, .reconcile (calm 3000)]

/-- The resize step creates a StatefulSet with empty disks. -/
theorem withdrawn_restore_recreated :
    Idle (createdWorld (some [dataDisk])) ∧
      ∃ w, Runs.run step (createdWorld (some [dataDisk])) withdrawnRestore = some w ∧
        ¬ Protected w.acts := by
  refine ⟨⟨rfl, ?_⟩, ?_⟩
  · rintro v ⟨⟩
    rfl
  · have hbad : ((Runs.run step (createdWorld (some [dataDisk])) withdrawnRestore).any
        fun w => ¬ Protected w.acts) = true := by
      decide +kernel
    obtain ⟨w, hw, hn⟩ := (Option.any_eq_true _ _).mp hbad
    exact ⟨w, hw, of_decide_eq_true hn⟩

/-- The same request is served to its end. -/
def servedRestore : List Event :=
  requestRestore :: .reconcile (calm 1000) :: List.replicate 7 (.reconcile (calm 2000))

theorem served_restore_protected :
    Runs.Meets step Continues (createdWorld (some [dataDisk])) servedRestore ∧
      Runs.Always step (fun w => Protected w.acts) (createdWorld (some [dataDisk]))
        servedRestore := by
  have hidle : Idle (createdWorld (some [dataDisk])) := by
    refine ⟨rfl, ?_⟩
    rintro v ⟨⟩
    rfl
  have hm : Runs.Meets step Continues (createdWorld (some [dataDisk])) servedRestore := by
    decide +kernel
  exact ⟨hm, protected_of_continues _ _ hidle hm⟩

end Sample

end ElCarro.Instance.Reconciler
