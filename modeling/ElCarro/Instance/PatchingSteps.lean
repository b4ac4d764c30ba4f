import ElCarro.Instance.Attempts

/-! # What one state of the patching machine does

A state of the machine writes nothing to the server and leaves the reconcile. It
stays or goes on to one of the reasons that follow, and what it does on the way
depends on the reason it started from: it takes the snapshots, checks them,
applies a StatefulSet, or removes the old one and its claims.
-/

namespace ElCarro.Instance.Reconciler

open GoTime K8s Api Flow

section Reasons

/-- Reasons from which the machine starts an attempt. -/
def startReason : Reason → Bool
  | .createComplete | .exportComplete | .restoreComplete | .importComplete
  | .patchingRecoveryCompleted => true
  | _ => false

theorem machineReason_of_startReason {r : Reason} :
    startReason r = true → machineReason r = false := by
  cases r <;> decide

/-- Reasons for which the machine has a state. -/
def handledReason : Reason → Bool
  | .deploymentSetPatchingRollbackInProgress | .databasePatchingComplete => true
  | r => startReason r || attemptReason r

/-- The reasons that a state after the check of the snapshots leads to. -/
def follows : Reason → List Reason
  | .deploymentSetPatchingInProgress =>
    [.deploymentSetPatchingRollbackInProgress, .deploymentSetPatchingComplete]
  | .deploymentSetPatchingComplete =>
    [.statefulSetPatchingComplete, .statefulSetPatchingInProgress, .statefulSetPatchingFailure]
  | .deploymentSetPatchingRollbackInProgress =>
    [.patchingRecoveryFailure, .patchingRecoveryCompleted]
  | .statefulSetPatchingInProgress => [.statefulSetPatchingFailure, .statefulSetPatchingComplete]
  | .statefulSetPatchingComplete => [.databasePatchingInProgress, .databasePatchingFailure]
  | .databasePatchingInProgress => [.databasePatchingFailure, .databasePatchingComplete]
  | .databasePatchingComplete => [.createComplete]
  | .statefulSetPatchingFailure | .databasePatchingFailure =>
    [.patchingRecoveryFailure, .patchingRecoveryInProgress]
  | .patchingRecoveryInProgress => [.patchingRecoveryCompleted]
  | _ => []

/-- The machine is at work and has a state for the instance and these images. -/
def Handles (inst : Instance) (images : StrMap) : Prop :=
  (isPatchingStateMachineEntryCondition inst images ∨
    inst.status.currentActiveStateMachine = .patching) ∧
  (dbInstanceCond inst).isSome ∧ ∃ cond ∈ readyCond inst, handledReason cond.reason

instance (inst : Instance) (images : StrMap) : Decidable (Handles inst images) := by
  unfold Handles
  infer_instance

end Reasons

section Moves

/-- What the machine applies: new images from one reason only, else the active ones. -/
inductive Applied (r : Reason) : Act → Prop where
  | deleteSts (hr : r = .deploymentSetPatchingComplete) : Applied r (.deleteSts .patching)
  | applySts {created : Bool} {sts : StatefulSet} {active : StrMap}
      (hr : r = .deploymentSetPatchingComplete) :
      Applied r (.applySts .patching created sts active)
  | rebuild {created : Bool} {sts : StatefulSet} {active : StrMap} (himages : sts.images = active) :
      Applied r (.applySts .recovery created sts active)

/-- The old StatefulSet or the claim of a disk is removed. -/
inductive Removal (disks : List DiskSpec) (s : Session) : Act → Prop where
  | sts : Removal disks s (.deleteSts .recovery)
  | pvc {disk : DiskSpec} (hdisk : disk ∈ disks) :
      Removal disks s (.deletePvc .recovery (fullPVCName s.mem.name disk.name)
        (s.snapshots.lookup (snapshotName s.mem.status.backupID disk.name)))

/-- The state has not moved on yet. -/
structure Stays (r : Reason) (s t : Session) : Prop where
  stored : t.stored = s.stored
  name : t.mem.name = s.mem.name
  view : readyView t.mem = readyView s.mem
  snapshots : t.snapshots = s.snapshots
  acts : ∃ new, t.acts = new ++ s.acts ∧ ∀ act ∈ new, Applied r act

/-- How the state can end, where the disks are those of the parameters. -/
inductive Move (disks : List DiskSpec) (r : Reason) (s t : Session) : Prop where
  | stay (h : readyView t.mem = readyView s.mem) (hsnap : t.snapshots = s.snapshots)
      (hacts : ∃ new, t.acts = new ++ s.acts ∧ ∀ act ∈ new, Applied r act)
  | next {status : CondStatus} {reason : Reason} (hnext : reason ∈ follows r)
      (hview : readyView t.mem = some (status, reason))
      (hstatus : machineReason reason = true → status = .false)
      (hsnap : t.snapshots = s.snapshots)
      (hacts : ∃ new, t.acts = new ++ s.acts ∧ ∀ act ∈ new, Applied r act)
  | remove {act : Act} (hr : r = .statefulSetPatchingFailure ∨ r = .databasePatchingFailure)
      (hact : Removal disks s act) (hmem : t.mem = s.mem) (hsnap : t.snapshots = s.snapshots)
      (hacts : t.acts = act :: s.acts)
  | begin {backupID : String} {names : List String} (hr : startReason r = true)
      (hacts : t.acts = names.map Act.takeSnapshot ++
        .beginBackup backupID (s.mem.spec.disks.getD []) :: s.acts)
      (hnames : ∀ name ∈ names, ∃ disk ∈ s.mem.spec.disks.getD [],
        name = snapshotName backupID disk.name)
      (hview : readyView t.mem = readyView s.mem ∨
        readyView t.mem = some (.false, .patchingBackupFailure) ∨
        readyView t.mem = some (.false, .patchingBackupStarted) ∧
          ∀ disk ∈ s.mem.spec.disks.getD [], SnapshotOf backupID s.mem.name t.toWorld disk)
  | check {names : List String} (hr : r = .patchingBackupStarted)
      (hsnap : t.snapshots = s.snapshots) (hacts : t.acts = names.map Act.seeReady ++ s.acts)
      (hview : readyView t.mem = readyView s.mem ∨
        readyView t.mem = some (.false, .patchingBackupFailure) ∨
        readyView t.mem = some (.false, .deploymentSetPatchingInProgress) ∧
          (Decided s.snapshots s.mem.status.backupID (s.mem.spec.disks.getD []) →
            ∀ disk ∈ s.mem.spec.disks.getD [],
              snapshotName s.mem.status.backupID disk.name ∈ names ∧
              SeenReady s.mem.status.backupID s.toWorld disk))

structure PatchStep (disks : List DiskSpec) (r : Reason) (s t : Session) : Prop where
  stored : t.stored = s.stored
  name : t.mem.name = s.mem.name
  move : Move disks r s t

theorem Applied.not_ofBackup {r : Reason} {act : Act} (h : Applied r act) :
    act.ofBackup = false := by
  cases h <;> rfl

theorem Removal.not_ofBackup {disks : List DiskSpec} {s : Session} {act : Act}
    (h : Removal disks s act) : act.ofBackup = false := by
  cases h <;> rfl

end Moves

section Primitives

variable {disks : List DiskSpec} {r : Reason} {s t : Session} {env : Env}

instance : Std.Refl (Stays r) := ⟨fun _ => ⟨rfl, rfl, rfl, rfl, [], rfl, by simp⟩⟩

instance : IsTrans Session (Stays r) where
  trans s t u h h' := by
    obtain ⟨new, hnew, hall⟩ := h.acts
    obtain ⟨new', hnew', hall'⟩ := h'.acts
    refine ⟨h'.stored.trans h.stored, h'.name.trans h.name, h'.view.trans h.view,
      h'.snapshots.trans h.snapshots, new' ++ new, by rw [hnew', hnew, List.append_assoc], ?_⟩
    intro act hact
    rcases List.mem_append.mp hact with hact | hact
    · exact hall' act hact
    · exact hall act hact

theorem Stays.patchStep (h : Stays r s t) : PatchStep disks r s t :=
  ⟨h.stored, h.name, .stay h.view h.snapshots h.acts⟩

/-- Served or not, a request with these effects leaves the state where it was. -/
theorem stays_effect {c : Call} {f : Session → Session} (h : ∀ s, Stays r s (f s)) :
    Within (Stays r) (effect env c f) :=
  fun s => wp_effect (Std.Refl.refl s) (h s) (h s)

theorem stays_act {act : Act} (hact : Applied r act) (hstored : t.stored = s.stored)
    (hmem : t.mem = s.mem) (hsnap : t.snapshots = s.snapshots) (hacts : t.acts = act :: s.acts) :
    Stays r s t := by
  refine ⟨hstored, by rw [hmem], by rw [hmem], hsnap, [act], hacts, ?_⟩
  intro act' h
  rw [List.mem_singleton.mp h]
  exact hact

theorem stays_reconcileMonitoring {images : StrMap} :
    Within (Stays r) (reconcileMonitoring env images) := by
  unfold reconcileMonitoring
  refine .ite (fun _ => .pure _) fun _ => .ite (fun _ => .pure _) fun _ =>
    .ite (fun _ => .pure _) fun _ => .bind (stays_effect fun _ => ?_) fun _ => .pure _
  exact ⟨rfl, rfl, rfl, rfl, [], rfl, by simp⟩

theorem stays_updateProgressCondition {op : String} :
    Within (Stays r) (updateProgressCondition env op) := by
  intro s
  unfold updateProgressCondition
  simp only [wp_bind, wp_get]
  cases hc : readyCond s.mem with
  | none => exact Std.Refl.refl s
  | some cond =>
    simp only [wp_bind, wp_when, wp_pure]
    constructor
    · intro _
      refine ⟨rfl, rfl, ?_, rfl, [], rfl, by simp⟩
      have hview : readyView s.mem = some (cond.status, cond.reason) :=
        readyView_eq_some.mpr ⟨cond, hc, rfl⟩
      rw [hview]
      exact readyView_upsert_ready
    · intro _
      exact Std.Refl.refl s

/-- Steps that stay may come before the rest of a state. -/
theorem patchStep_bind {α : Type} {p : P α} {q : α → P Unit} {Q : Unit → Session → Prop}
    (hst : Stays r s t) (hp : Within (Stays r) p)
    (hq : ∀ a u, Stays r s u → wp (q a) Q (fun _ => PatchStep disks r s) u) :
    wp (p >>= q) Q (fun _ => PatchStep disks r s) t := by
  refine wp_bind.mpr ((hp t).mono ?_ ?_)
  · intro a u hu
    exact hq a u (IsTrans.trans _ _ _ hst hu)
  · intro _ u hu
    exact Stays.patchStep (IsTrans.trans _ _ _ hst hu)

theorem patchStep_setReady {status : CondStatus} {reason : Reason} {message : String}
    {R : Result → Session → Prop} (hst : Stays r s t) (hnext : reason ∈ follows r)
    (hstatus : machineReason reason = true → status = .false) :
    wp (setReady env status reason message) (fun _ => PatchStep disks r s) R t :=
  ⟨hst.stored, hst.name, .next hnext readyView_upsert_ready hstatus hst.snapshots hst.acts⟩

theorem patchStep_leave {reason : Reason} {message : String} {res : Result}
    {Q : Unit → Session → Prop} (hst : Stays r s t) (hnext : reason ∈ follows r) :
    wp (leave env reason message res) Q (fun _ => PatchStep disks r s) t :=
  wp_bind.mpr (patchStep_setReady hst hnext fun _ => rfl)

end Primitives

section States

variable {disks : List DiskSpec} {r : Reason} {s : Session} {env : Env} {sp : StsParams}
  {Q : Unit → Session → Prop}

theorem patchStep_startPatchingBackup (hr : startReason r = true) :
    wp (startPatchingBackup env r) Q (fun _ => PatchStep disks r s) s := by
  simp only [startPatchingBackup, wp_bind, wp_get, wp_when, wp_finish, setStatus, setMem, wp_modify]
  refine ⟨fun _ => (Std.Refl.refl s : Stays r s s).patchStep, fun _ => ?_⟩
  simp only [prePatchBackup, wp_bind, wp_get, wp_modify]
  refine takeSnapshots_spec.mono ?_ fun _ _ h => h
  rintro out t ⟨htaking, hall⟩
  obtain ⟨names, hacts, hnames⟩ := htaking.acts
  have hmem : t.mem = { s.mem with status := { s.mem.status with
      currentActiveStateMachine := .patching } } := htaking.mem
  have hname : t.mem.name = s.mem.name := by rw [hmem]
  -- a failed request, unless it is a conflict, is noted
  have hfailed : wp (leave env .patchingBackupFailure "" .error) Q
      (fun _ => PatchStep disks r s) t :=
    ⟨htaking.stored, hname, .begin hr hacts hnames (.inr (.inl readyView_upsert_ready))⟩
  cases out with
  | ok =>
    refine ⟨htaking.stored, hname, .begin hr hacts hnames (.inr (.inr ⟨?_, ?_⟩))⟩
    · exact readyView_upsert_ready
    · intro disk hdisk
      exact hall disk (.inl ⟨rfl, hdisk⟩)
  | conflict =>
    refine ⟨htaking.stored, hname, .begin hr hacts hnames (.inl ?_)⟩
    rw [hmem]
    rfl
  | notFound => exact hfailed
  | failed => exact hfailed
  | lost => exact hfailed

theorem patchStep_awaitPatchingBackup (hr : r = .patchingBackupStarted) :
    wp (awaitPatchingBackup env) Q (fun _ => PatchStep disks r s) s := by
  simp only [awaitPatchingBackup, isPatchingBackupCompleted, wp_bind, wp_get]
  refine checkSnapshots_spec.mono ?_ fun _ _ h => h
  rintro poll t ⟨names, rfl, hall⟩
  cases poll with
  | failed => exact ⟨rfl, rfl, .check hr rfl rfl (.inr (.inl readyView_upsert_ready))⟩
  | waiting => exact ⟨rfl, rfl, .check hr rfl rfl (.inl rfl)⟩
  | done =>
    exact ⟨rfl, rfl, .check hr rfl rfl (.inr (.inr ⟨readyView_upsert_ready, hall rfl⟩))⟩

theorem patchStep_patchDeployment {cond : Condition} {images : StrMap} {failure success : Reason}
    (hfailure : failure ∈ follows r) (hsuccess : success ∈ follows r) :
    wp (patchDeployment env cond images failure success) Q (fun _ => PatchStep disks r s) s := by
  have hs : Stays r s s := Std.Refl.refl s
  simp only [patchDeployment, wp_bind, wp_when]
  refine ⟨fun _ => patchStep_leave hs hfailure, fun _ => ?_⟩
  refine wp_bind.mp (patchStep_bind hs stays_reconcileMonitoring ?_)
  intro poll t ht
  cases poll with
  | failed => exact patchStep_leave ht hfailure
  | waiting => exact ht.patchStep
  | done => exact patchStep_leave ht hsuccess

theorem stays_startStatefulSetPatching (hr : r = .deploymentSetPatchingComplete) :
    Within (Stays r) (startStatefulSetPatching env sp) := by
  refine .bind .get fun s => .ite (fun _ => .pure _) fun _ => .bind ?_ fun deleted => ?_
  · exact stays_effect fun _ => stays_act (.deleteSts hr) rfl rfl rfl rfl
  · refine .ite (fun _ => .pure _) fun _ => ?_
    cases constructSTSandPVCs sp with
    | error e => exact .pure _
    | ok sts => exact stays_effect fun _ => stays_act (.applySts hr) rfl rfl rfl rfl

theorem patchStep_patchStatefulSet (hr : r = .deploymentSetPatchingComplete) :
    wp (patchStatefulSet env sp) Q (fun _ => PatchStep disks r s) s := by
  have hs : Stays r s s := Std.Refl.refl s
  subst hr
  simp only [patchStatefulSet, wp_bind, wp_get, wp_when, wp_finish]
  refine ⟨fun _ => hs.patchStep, fun _ => ⟨fun _ => patchStep_leave hs (by decide), fun _ => ?_⟩⟩
  refine wp_bind.mp (patchStep_bind hs (stays_startStatefulSetPatching rfl) ?_)
  intro ok t ht
  split
  · exact patchStep_leave ht (by decide)
  · exact patchStep_leave ht (by decide)

theorem patchStep_awaitStatefulSet {cond : Condition} {timeout : Duration}
    (hr : r = .statefulSetPatchingInProgress) :
    wp (awaitStatefulSet env cond timeout) Q (fun _ => PatchStep disks r s) s := by
  have hs : Stays r s s := Std.Refl.refl s
  subst hr
  simp only [awaitStatefulSet, wp_bind, wp_when]
  refine ⟨fun _ => patchStep_leave hs (by decide), fun _ => ?_⟩
  refine wp_bind.mp (patchStep_bind hs stays_updateProgressCondition ?_)
  intro complete t ht
  split
  · exact patchStep_leave ht (by decide)
  · exact ht.patchStep

theorem patchStep_patchDatabase (hr : r = .statefulSetPatchingComplete) :
    wp (patchDatabase env) Q (fun _ => PatchStep disks r s) s := by
  have hs : Stays r s s := Std.Refl.refl s
  subst hr
  simp only [patchDatabase, wp_bind, wp_when, wp_finish]
  refine ⟨fun _ => hs.patchStep, fun _ => ?_⟩
  split
  · exact patchStep_leave hs (by decide)
  · exact patchStep_leave hs (by decide)

theorem patchStep_awaitDatabasePatching {cond : Condition} {timeout : Duration}
    (hr : r = .databasePatchingInProgress) :
    wp (awaitDatabasePatching env cond timeout) Q (fun _ => PatchStep disks r s) s := by
  have hs : Stays r s s := Std.Refl.refl s
  subst hr
  simp only [awaitDatabasePatching, wp_bind, wp_when]
  refine ⟨fun _ => patchStep_leave hs (by decide), fun _ => ?_⟩
  cases env.datapatch with
  | failed => exact patchStep_leave hs (by decide)
  | waiting => exact hs.patchStep
  | done => exact patchStep_leave hs (by decide)

theorem patchStep_completePatching (hr : r = .databasePatchingComplete) :
    wp (completePatching env sp) Q (fun _ => PatchStep disks r s) s := by
  subst hr
  refine ⟨rfl, rfl, .next ?_ readyView_upsert_ready ?_ rfl ⟨[], rfl, by simp⟩⟩
  · exact List.mem_singleton_self _
  · exact fun h => by cases h

/-- The removal of the old objects meets no error. -/
def Removable (env : Env) (instName : String) (sp : StsParams) : Prop :=
  (constructSTSandPVCs sp).toOption.isSome ∧ reached env .oldGetSts ∧
    ∀ disk ∈ sp.disks, reached env (.oldGetPvc (fullPVCName instName disk.name))

instance (env : Env) (instName : String) (sp : StsParams) :
    Decidable (Removable env instName sp) := by
  unfold Removable
  infer_instance

/-- An object of a removal is deleted and has to be waited for. -/
structure Removed (path : Path) (disks : List DiskSpec) (s t : Session) : Prop where
  stored : t.stored = s.stored
  mem : t.mem = s.mem
  snapshots : t.snapshots = s.snapshots
  acts : t.acts = .deleteSts path :: s.acts ∨ ∃ disk ∈ disks,
    t.acts = .deletePvc path (fullPVCName s.mem.name disk.name)
      (s.snapshots.lookup (snapshotName s.mem.status.backupID disk.name)) :: s.acts

theorem deleteOldPVCs_spec {path : Path} {R : Result → Session → Prop} :
    wp (deleteOldPVCs env path disks)
      (fun poll t => t = s ∧ (poll = .failed → ∃ disk ∈ disks,
          ¬ reached env (.oldGetPvc (fullPVCName s.mem.name disk.name))) ∨
        poll = .waiting ∧ Removed path disks s t) R s := by
  induction disks with
  | nil => exact .inl ⟨rfl, fun h => by cases h⟩
  | cons disk rest ih =>
    refine wp_bind.mpr (wp_get.mpr ?_)
    dsimp only
    split
    · next hn => exact .inl ⟨rfl, fun _ => ⟨disk, List.mem_cons_self, hn⟩⟩
    · split
      · refine wp_bind.mpr (wp_effect (.inl ⟨rfl, fun h => by cases h⟩) ?_ ?_)
        all_goals exact .inr ⟨rfl, rfl, rfl, rfl, .inr ⟨disk, List.mem_cons_self, rfl⟩⟩
      · refine ih.mono ?_ fun _ _ h => h
        rintro poll t (⟨rfl, hfailed⟩ | ⟨hpoll, hstored, hmem, hsnap, hacts⟩)
        · refine .inl ⟨rfl, fun h => ?_⟩
          obtain ⟨d, hd, hn⟩ := hfailed h
          exact ⟨d, List.mem_cons_of_mem _ hd, hn⟩
        · refine .inr ⟨hpoll, hstored, hmem, hsnap, hacts.imp_right ?_⟩
          rintro ⟨d, hd, hacts⟩
          exact ⟨d, List.mem_cons_of_mem _ hd, hacts⟩

/-- One object is removed at a time; the removal is done once there is none left. -/
theorem deleteOldSTSandPVCs_spec {path : Path} {R : Result → Session → Prop} :
    wp (deleteOldSTSandPVCs env path sp)
      (fun poll t => t = s ∧ (poll = .done → s.sts = none) ∧
          (poll = .failed → ¬ Removable env s.mem.name sp) ∨
        poll = .waiting ∧ Removed path sp.disks s t) R s := by
  simp only [deleteOldSTSandPVCs, wp_bind, wp_get]
  cases hsts : constructSTSandPVCs sp with
  | error e =>
    refine .inl ⟨rfl, (fun h => by cases h), ?_⟩
    rintro - ⟨hok, -⟩
    rw [hsts] at hok
    cases hok
  | ok sts =>
    dsimp only
    split
    · next hn =>
      refine .inl ⟨rfl, (fun h => by cases h), ?_⟩
      rintro - ⟨-, hget, -⟩
      exact hn hget
    · split
      · refine wp_bind.mpr (wp_effect (.inl ⟨rfl, (fun h => by cases h), fun h => by cases h⟩) ?_ ?_)
        all_goals exact .inr ⟨rfl, rfl, rfl, rfl, .inl rfl⟩
      · next hnone =>
        refine deleteOldPVCs_spec.mono ?_ fun _ _ h => h
        rintro poll t (⟨rfl, hfailed⟩ | hremoved)
        · refine .inl ⟨rfl, fun _ => by simpa using hnone, fun h => ?_⟩
          rintro ⟨-, -, hget⟩
          obtain ⟨disk, hdisk, hn⟩ := hfailed h
          exact hn (hget disk hdisk)
        · exact .inr hremoved

theorem patchStep_prepareRecovery
    (hr : r = .statefulSetPatchingFailure ∨ r = .databasePatchingFailure) :
    wp (prepareRecovery env sp) Q (fun _ => PatchStep sp.disks r s) s := by
  have hs : Stays r s s := Std.Refl.refl s
  have hfollows : follows r = [.patchingRecoveryFailure, .patchingRecoveryInProgress] := by
    rcases hr with rfl | rfl <;> rfl
  refine wp_bind.mpr (deleteOldSTSandPVCs_spec.mono ?_ fun _ _ h => h)
  rintro poll t (⟨rfl, -⟩ | ⟨rfl, hstored, hmem, hsnap, hacts⟩)
  · cases poll with
    | failed => exact patchStep_leave hs (by rw [hfollows]; decide)
    | waiting => exact hs.patchStep
    | done => exact patchStep_leave hs (by rw [hfollows]; decide)
  · refine ⟨hstored, by rw [hmem], ?_⟩
    rcases hacts with hacts | ⟨disk, hdisk, hacts⟩
    · exact .remove hr .sts hmem hsnap hacts
    · exact .remove hr (.pvc hdisk) hmem hsnap hacts

/-- The StatefulSet of the recovery has the active images. -/
theorem stays_recoverFromPatchingFailure :
    Within (Stays r) (recoverFromPatchingFailure env sp) := by
  intro s
  simp only [recoverFromPatchingFailure, wp_bind, wp_get, createFromSnapshot]
  split
  · exact Std.Refl.refl s
  · next sts hsts =>
    have himages : sts.images = s.mem.status.activeImages.getD ∅ :=
      (constructSTSandPVCs_ok hsts).2.2.1
    apply wp_effect
    · exact Std.Refl.refl s
    · exact stays_act (.rebuild himages) rfl rfl rfl rfl
    · exact stays_act (.rebuild himages) rfl rfl rfl rfl

theorem patchStep_recover (hr : r = .patchingRecoveryInProgress) :
    wp (recover env sp) Q (fun _ => PatchStep disks r s) s := by
  have hs : Stays r s s := Std.Refl.refl s
  subst hr
  refine patchStep_bind hs stays_recoverFromPatchingFailure ?_
  intro ok t ht
  refine wp_bind.mpr (wp_when.mpr ⟨fun _ => ht.patchStep, fun _ => ?_⟩)
  refine patchStep_bind ht stays_updateProgressCondition ?_
  intro complete u hu
  simp only [wp_bind, wp_when, wp_finish, setMem, wp_modify]
  refine ⟨fun _ => hu.patchStep, fun _ => ⟨fun _ => hu.patchStep, fun _ => ?_⟩⟩
  refine ⟨hu.stored, hu.name, .next ?_ readyView_upsert_ready ?_ hu.snapshots hu.acts⟩
  · exact List.mem_singleton_self _
  · exact fun h => by cases h

/-- What the machine has no state for it hands on unchanged. -/
theorem patchStep_patchingState {timeout : Duration} {cond : Condition} :
    wp (patchingState env sp timeout cond) (fun _ t => t = s ∧ handledReason cond.reason = false)
      (fun _ => PatchStep sp.disks cond.reason s) s := by
  unfold patchingState
  split
  case h_6 heq => exact patchStep_awaitPatchingBackup heq
  case h_7 heq => exact patchStep_patchDeployment (by rw [heq]; decide) (by rw [heq]; decide)
  case h_8 heq => exact patchStep_patchStatefulSet heq
  case h_9 heq => exact patchStep_patchDeployment (by rw [heq]; decide) (by rw [heq]; decide)
  case h_10 heq => exact patchStep_awaitStatefulSet heq
  case h_11 heq => exact patchStep_patchDatabase heq
  case h_12 heq => exact patchStep_awaitDatabasePatching heq
  case h_13 heq => exact patchStep_completePatching heq
  case h_14 heq => exact patchStep_prepareRecovery (.inl heq)
  case h_15 heq => exact patchStep_prepareRecovery (.inr heq)
  case h_16 heq => exact patchStep_recover heq
  case h_17 =>
    refine ⟨rfl, ?_⟩
    generalize cond.reason = r at *
    cases r <;> first | rfl | contradiction
  all_goals
    next heq => exact patchStep_startPatchingBackup (by rw [heq]; rfl)

theorem patchingState_of_not_handled {timeout : Duration} {cond : Condition}
    (hn : handledReason cond.reason = false) : patchingState env sp timeout cond = pure () := by
  unfold patchingState
  split
  case h_17 => rfl
  all_goals
    next heq =>
    rw [heq] at hn
    cases hn

/-- The machine takes one step, or leaves the reconcile to the others as it was. -/
theorem patchStep_handlePatching :
    wp (handlePatching env sp) (fun _ t => t = s ∧ ¬ Handles s.mem sp.images)
      (fun _ t => Handles s.mem sp.images ∧ ∃ cond, readyCond s.mem = some cond ∧
        PatchStep sp.disks cond.reason s t) s := by
  simp only [handlePatching, wp_bind, wp_get, wp_when]
  constructor
  · intro hentry
    simp only [patchingStateMachine, wp_bind, wp_get]
    split
    · next cond db hcond hdb =>
      by_cases hr : handledReason cond.reason = true
      · refine patchStep_patchingState.mono ?_ ?_
        · rintro _ t ⟨-, hn⟩
          rw [hr] at hn
          cases hn
        · intro _ t ht
          exact ⟨⟨hentry, by rw [hdb]; rfl, cond, hcond, hr⟩, cond, hcond, ht⟩
      · have hnot : ¬ Handles s.mem sp.images := by
          rintro ⟨-, -, cond', hcond', hr'⟩
          obtain rfl := Option.some.inj (hcond.symm.trans hcond')
          exact hr hr'
        rw [patchingState_of_not_handled (Bool.eq_false_iff.mpr hr)]
        exact ⟨rfl, hnot⟩
    · next hnone =>
      constructor
      · rfl
      · rintro ⟨-, hdb, cond, hcond, -⟩
        obtain ⟨db, hdb⟩ := Option.isSome_iff_exists.mp hdb
        exact hnone cond db hcond hdb
  · intro hentry
    constructor
    · trivial
    · rintro ⟨h, -⟩
      exact hentry h

end States

end ElCarro.Instance.Reconciler
