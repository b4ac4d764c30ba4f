import ElCarro.Instance.PatchedImages
import ElCarro.Instance.RecoveryGate

/-! # Images that have failed before

The status remembers the images of an attempt that was recovered from its snapshots.
The entry condition of the machine compares them with the merged images, and the
first state of the machine compares the images of the spec. An attempt that fails
before its StatefulSet is touched leaves nothing behind to compare with.
-/

namespace ElCarro.Instance.Reconciler

open GoTime K8s Api Flow

section System

def Act.begins : Act → Bool
  | .beginBackup _ _ => true
  | _ => false

/-- An attempt begins on the way to the next world. -/
def attempted (w w' : World) : Bool := w.acts.countP Act.begins < w'.acts.countP Act.begins

/-- Reasons with which an attempt has failed or is rolled back. -/
def failureReason : Reason → Bool
  | .patchingBackupFailure | .deploymentSetPatchingRollbackInProgress
  | .statefulSetPatchingFailure | .databasePatchingFailure => true
  | _ => false

/-- The machine is at work on an attempt that has failed. -/
def hasFailed (inst : Instance) : Bool :=
  inst.status.currentActiveStateMachine = .patching && (readyView inst).any fun v => failureReason v.2

structure Traced where
  world : World
  /-- The merged images of the last attempt that has begun. -/
  current : Option StrMap
  /-- The merged images of the attempts that have failed, newest first. -/
  failed : List StrMap

/-- The images of the last attempt, after an event. -/
def Traced.images (a : Traced) (w : World) : Event → Option StrMap
  | .reconcile env =>
    if attempted a.world w then mergedImages env a.world.stored else a.current
  | _ => a.current

def Traced.observe (a : Traced) (e : Event) (w : World) : Traced where
  world := w
  current := a.images w e
  failed := if hasFailed w.stored ∧ ¬ hasFailed a.world.stored then
    (a.images w e).toList ++ a.failed else a.failed

def Traced.step (a : Traced) (e : Event) : Option Traced :=
  (Reconciler.step a.world e).map (a.observe e)

end System

section Property

/-- The reconcile gets past the patching step as it came to it. -/
def PassesPatching (env : Env) (w : World) : Prop :=
  ∀ t config map, preamble env w.session = .next () t → env.config = .ok config →
    overrideDefaultImages env config t.mem = .ok map →
    handlePatching env (stsParams t.mem config map) t = .next () t

/-- A reconcile with images that have failed before begins no attempt, and gets past the patching
step unless an attempt is under way. -/
def NotTriedAgain (a : Traced) (e : Event) (a' : Traced) : Prop :=
  ∀ env, e = .reconcile env → ∀ images ∈ mergedImages env a.world.stored, images ∈ a.failed →
    attempted a.world a'.world = false ∧
      (midway a.world.stored = false → PassesPatching env a.world)

/-- The snapshots of the attempt can be read, and none of them reports an error. -/
def SnapshotsFine (env : Env) (w : World) : Prop :=
  ∀ disk ∈ w.stored.spec.disks.getD [],
    reached env (.getSnapshot (snapshotName w.stored.status.backupID disk.name)) = true ∧
      ∃ snap ∈ w.snapshots.lookup (snapshotName w.stored.status.backupID disk.name),
        ∀ st ∈ snap.status, st.error = none

/-- The monitoring deployment can be brought up in time. -/
def DeploymentFine (env : Env) (inst : Instance) : Prop :=
  elapsedTime env.now (readyCond inst) ≤ deploymentPatchingTimeout ∧
    reached env .monitoringSecret = true ∧ env.databaseClient = true ∧
    reached env .monitoringDeployment = true

/-- The old StatefulSet and the old claims can be looked up. -/
def RecoveryFine (env : Env) (inst : Instance) : Prop :=
  ∀ config ∈ env.config.toOption, ∀ images ∈ (overrideDefaultImages env config inst).toOption,
    Removable env inst.name (stsParams inst config images)

/-- What the memory of the failed images needs from a reconcile in the middle of an attempt. -/
structure Unbroken (env : Env) (a : Traced) (r : Reason) : Prop where
  running : isStopped a.world.stored = false
  snapshots : r = .patchingBackupStarted → SnapshotsFine env a.world
  deployment : r = .deploymentSetPatchingInProgress → DeploymentFine env a.world.stored
  removal : r = .statefulSetPatchingFailure ∨ r = .databasePatchingFailure →
    RecoveryFine env a.world.stored
  recovered : r = .patchingRecoveryInProgress →
    cloneMap a.world.stored.spec.images = a.current

/-- What it needs from a reconcile otherwise: the snapshots of an attempt that begins are taken,
and images that have failed before are those that have failed last. -/
structure Undisputed (env : Env) (a : Traced) : Prop where
  taken : ∀ disk ∈ a.world.stored.spec.disks.getD [],
    env.call (.snapshot (snapshotName (patchingBackupID env a.world.stored) disk.name)) = .ok
  last : ∀ images ∈ mergedImages env a.world.stored, images ∈ a.failed →
    a.failed.head? = some images

/-- The condition under which no failed images are tried again. -/
def Remembers (a : Traced) : Event → Prop
  | .reconcile env =>
    (∀ v ∈ readyView a.world.stored, midReason v.2 = true → Unbroken env a v.2) ∧
      (midway a.world.stored = false → Undisputed env a)
  | _ => True

end Property

section Decidable

instance (env : Env) (w : World) : Decidable (SnapshotsFine env w) :=
  inferInstanceAs (Decidable (∀ _ ∈ _, _ ∧ ∃ _ ∈ _, _))

instance (env : Env) (inst : Instance) : Decidable (DeploymentFine env inst) :=
  inferInstanceAs (Decidable (_ ∧ _))

instance (env : Env) (inst : Instance) : Decidable (RecoveryFine env inst) :=
  inferInstanceAs (Decidable (∀ _ ∈ _, _))

instance (env : Env) (a : Traced) (r : Reason) : Decidable (Unbroken env a r) :=
  decidable_of_iff
    (isStopped a.world.stored = false ∧
      (r = .patchingBackupStarted → SnapshotsFine env a.world) ∧
      (r = .deploymentSetPatchingInProgress → DeploymentFine env a.world.stored) ∧
      (r = .statefulSetPatchingFailure ∨ r = .databasePatchingFailure →
        RecoveryFine env a.world.stored) ∧
      (r = .patchingRecoveryInProgress → cloneMap a.world.stored.spec.images = a.current))
    ⟨fun ⟨h, h', h'', h₃, h₄⟩ => ⟨h, h', h'', h₃, h₄⟩,
      fun h => ⟨h.running, h.snapshots, h.deployment, h.removal, h.recovered⟩⟩

instance (env : Env) (a : Traced) : Decidable (Undisputed env a) :=
  decidable_of_iff
    ((∀ disk ∈ a.world.stored.spec.disks.getD [],
        env.call (.snapshot (snapshotName (patchingBackupID env a.world.stored) disk.name)) = .ok) ∧
      ∀ images ∈ mergedImages env a.world.stored, images ∈ a.failed → a.failed.head? = some images)
    ⟨fun ⟨h, h'⟩ => ⟨h, h'⟩, fun h => ⟨h.taken, h.last⟩⟩

instance (a : Traced) : (e : Event) → Decidable (Remembers a e)
  | .reconcile _ => inferInstanceAs (Decidable ((∀ _ ∈ _, _) ∧ _))
  | .editSpec _ | .deleteInstance _ | .writeStatus _ _ _ | .addSnapshot _ _ | .setSnapshotStatus _ _
  | .removeSnapshot _ | .stsGone | .addPvc _ | .pvcGone _ => isTrue trivial

end Decidable

section Rest

variable {env : Env} {s t : Session} {inst inst' : Instance} {f : Option StrMap} {images : StrMap}

/-- No attempt is under way, and the status remembers these failed images. -/
structure Resting (f : Option StrMap) (inst : Instance) : Prop where
  notMid : NotMid inst
  machine : inst.status.currentActiveStateMachine ≠ .patching
  failed : inst.status.lastFailedImages = f

theorem Resting.of_status (h : Resting f inst) (hstatus : inst'.status = inst.status) :
    Resting f inst' := by
  constructor
  · apply h.notMid.congr
    simp only [readyView, readyCond, hstatus]
  · rw [hstatus]
    exact h.machine
  · rw [hstatus]
    exact h.failed

theorem Resting.not_hasFailed (h : Resting f inst) : hasFailed inst = false := by
  unfold hasFailed
  rw [decide_eq_false h.machine, Bool.false_and]

structure Rests (f : Option StrMap) (s : Session) : Prop where
  stored : Resting f s.stored
  mem : Resting f s.mem

theorem Rests.origin {tracked : Reason → Bool} (h : Rests f s) (hi : Origin tracked images s inst)
    (hn : NotMid inst) : Resting f inst := by
  constructor
  · exact hn
  · rcases hi.machine with hm | hm | hm
    · rw [hm]
      exact h.stored.machine
    · rw [hm]
      exact h.mem.machine
    · rw [hm]
      decide
  · rcases hi.failed with hf | hf
    · exact hf.trans h.stored.failed
    · exact hf.trans h.mem.failed

theorem Rests.apart (h : Rests f s) : Apart s := ⟨h.stored.notMid, h.mem.notMid⟩

theorem rests_preamble (h : Rests f s) :
    wp (preamble env) (fun _ t => Rests f t ∧ t.acts = s.acts)
      (fun _ t => Rests f t ∧ t.acts = s.acts) s := by
  have hquiet : Within (Quiet machineReason ∅) (preamble env) := quiet_preamble fun _ h => h
  have hrests : ∀ t, Apart t ∧ Quiet machineReason ∅ s t → Rests f t ∧ t.acts = s.acts := by
    rintro t ⟨ha, hq⟩
    exact ⟨⟨h.origin hq.stored ha.stored, h.origin hq.mem ha.mem⟩, hq.acts⟩
  exact ((apart_preamble h.apart).and (hquiet s)).mono (fun _ => hrests) fun _ => hrests

/-- The number of attempts that have begun. -/
def begun (s : Session) : Nat := s.acts.countP Act.begins

theorem begun_of_acts {new : List Act} (hacts : t.acts = new ++ s.acts)
    (hnew : ∀ act ∈ new, act.begins = false) : begun t = begun s := by
  unfold begun
  rw [hacts, List.countP_append, List.countP_eq_zero.mpr, Nat.zero_add]
  intro act hact h
  rw [hnew act hact] at h
  cases h

theorem Rests.works {paths : Path → Prop} (h : Rests f s) (hw : Works midReason images paths s t) :
    Rests f t ∧ begun t = begun s := by
  have ht := h.apart.works hw
  obtain ⟨new, hacts, hwork⟩ := hw.acts
  refine ⟨⟨h.origin hw.stored ht.stored, h.origin hw.mem ht.mem⟩, begun_of_acts hacts ?_⟩
  intro act hact
  cases hwork act hact <;> rfl

end Rest

section Start

variable {env : Env} {s t : Session} {f : Option StrMap} {backupID : String} {r : Reason}

/-- Every request for a snapshot is answered, so that all of them are taken. -/
theorem takeSnapshots_ok {disks : List DiskSpec} {R : Result → Session → Prop}
    (hok : ∀ disk ∈ disks, env.call (.snapshot (snapshotName backupID disk.name)) = .ok) :
    wp (takeSnapshots env backupID disks) (fun out _ => out = .ok) R s := by
  induction disks generalizing s with
  | nil => exact rfl
  | cons disk rest ih =>
    have hcall := hok disk List.mem_cons_self
    refine wp_bind.mpr (wp_get.mpr (wp_bind.mpr (wp_effect_call ?_ ?_ ?_)))
    · exact fun h => absurd hcall h
    · exact fun h => absurd hcall h
    · intro _
      exact ih fun disk hdisk => hok disk (List.mem_cons_of_mem _ hdisk)

/-- An attempt has begun in the copy, which still remembers these failed images. -/
structure Opened (f : Option StrMap) (s t : Session) : Prop where
  stored : t.stored = s.stored
  started : At .patchingBackupStarted t.mem
  failed : t.mem.status.lastFailedImages = f
  begins : begun t = begun s + 1

theorem opened_startPatchingBackup {Q : Unit → Session → Prop}
    (hdb : (dbInstanceCond s.mem).isSome)
    (htaken : ∀ disk ∈ s.mem.spec.disks.getD [],
      env.call (.snapshot (snapshotName (patchingBackupID env s.mem) disk.name)) = .ok) :
    wp (startPatchingBackup env r) Q
      (fun _ t => t = s ∨ Opened s.mem.status.lastFailedImages s t) s := by
  simp only [startPatchingBackup, wp_bind, wp_get, wp_when, wp_finish, setStatus, setMem, wp_modify]
  refine ⟨fun _ => .inl trivial, fun _ => ?_⟩
  simp only [prePatchBackup, wp_bind, wp_get, wp_modify]
  apply (takeSnapshots_spec.and (takeSnapshots_ok (R := fun _ _ => True) htaken)).mono _
    fun _ _ h => h.1
  rintro out t ⟨⟨htaking, -⟩, rfl⟩
  obtain ⟨names, hacts, -⟩ := htaking.acts
  have hmem : t.mem = { s.mem with status := { s.mem.status with
      currentActiveStateMachine := .patching } } := htaking.mem
  refine .inr ⟨htaking.stored, ⟨readyView_upsert_ready, rfl, ?_, ?_⟩, ?_, ?_⟩
  · refine (congrArg Option.isSome dbInstanceCond_upsert_ready).trans ?_
    change (dbInstanceCond t.mem).isSome = true
    rw [hmem]
    exact hdb
  · change t.mem.status.currentActiveStateMachine = .patching
    rw [hmem]
  · change t.mem.status.lastFailedImages = _
    rw [hmem]
  · have hnames : (names.map Act.takeSnapshot).countP Act.begins = 0 := by
      apply List.countP_eq_zero.mpr
      intro act hact
      obtain ⟨name, -, rfl⟩ := List.mem_map.mp hact
      exact Bool.false_ne_true
    change t.acts.countP Act.begins = s.acts.countP Act.begins + 1
    rw [hacts, List.countP_append, hnames, Nat.zero_add, List.countP_cons_of_pos rfl]

/-- The machine begins an attempt only with images that are not remembered. -/
theorem opened_handlePatching {sp : StsParams} (h : Rests f s)
    (htaken : ∀ disk ∈ s.mem.spec.disks.getD [],
      env.call (.snapshot (snapshotName (patchingBackupID env s.mem) disk.name)) = .ok) :
    wp (handlePatching env sp) (fun _ t => t = s)
      (fun _ t => f ≠ some sp.images ∧ (t = s ∨ Opened f s t)) s := by
  simp only [handlePatching, wp_bind, wp_get, wp_when]
  refine ⟨fun hentry => ?_, fun _ => trivial⟩
  have hentry := hentry.resolve_right h.mem.machine
  have hnew : f ≠ some sp.images := by
    have hfailed := (Bool.and_eq_true_iff.mp hentry).2
    rw [h.mem.failed] at hfailed
    exact of_decide_eq_true hfailed
  simp only [patchingStateMachine, wp_bind, wp_get]
  split
  · next cond db hcond hdb =>
    have hn : midReason cond.reason = false :=
      h.mem.notMid _ (readyView_eq_some.mpr ⟨cond, hcond, rfl⟩)
    by_cases hhandled : handledReason cond.reason = true
    · rw [patchingState_of_start (startReason_of_handled hn hhandled)]
      apply (opened_startPatchingBackup (by rw [hdb]; rfl) htaken).mono fun _ _ h => h
      intro _ t ht
      rw [h.mem.failed] at ht
      exact ⟨hnew, ht⟩
    · rw [patchingState_of_not_handled (Bool.eq_false_iff.mpr hhandled)]
      rfl
  · rfl

/-- Images that are remembered do not hold the reconcile up. -/
theorem handlePatching_of_remembered {sp : StsParams} (h : Resting (some sp.images) s.mem) :
    handlePatching env sp s = .next () s := by
  have hentry : ¬ (isPatchingStateMachineEntryCondition s.mem sp.images = true ∨
      s.mem.status.currentActiveStateMachine = .patching) := by
    rintro (hentry | hmachine)
    · have hfailed := (Bool.and_eq_true_iff.mp hentry).2
      exact of_decide_eq_true hfailed h.failed
    · exact h.machine hmachine
  unfold handlePatching
  rw [get_bind_apply, when, if_neg hentry]
  rfl

/-- Outside of an attempt a reconcile rests, or begins an attempt with images that are not
remembered. -/
inductive Turned (env : Env) (f : Option StrMap) (s t : Session) : Prop where
  | rests (h : Rests f t) (hbegun : begun t = begun s)
  | opened {images : StrMap} (hmerged : images ∈ mergedImages env s.stored)
      (hnew : f ≠ some images) (hstored : Resting f t.stored)
      (hstarted : At .patchingBackupStarted t.mem) (hfailed : t.mem.status.lastFailedImages = f)
      (hbegun : begun t = begun s + 1)

theorem turned_body (hs : s.mem = s.stored) (h : Resting f s.stored)
    (htaken : ∀ disk ∈ s.stored.spec.disks.getD [],
      env.call (.snapshot (snapshotName (patchingBackupID env s.stored) disk.name)) = .ok) :
    wp (body env) (fun _ => Turned env f s) (fun _ => Turned env f s) s := by
  have hacts : ∀ t, Rests f t ∧ t.acts = s.acts → Turned env f s t :=
    fun t ht => .rests ht.1 (congrArg (List.countP _) ht.2)
  have hpre := @rests_preamble env s f ⟨h, hs ▸ h⟩
  apply wp_body hs (hpre.mono (fun _ _ h => h) fun _ => hacts) hacts
  intro t config map ht hh hconfig himages
  have hbegun : begun t = begun s := congrArg (List.countP _) ht.2
  have htaken' : ∀ disk ∈ t.mem.spec.disks.getD [],
      env.call (.snapshot (snapshotName (patchingBackupID env t.mem) disk.name)) = .ok := by
    obtain ⟨_, _, _, hmem, -⟩ := hh
    rw [hmem]
    exact htaken
  apply wp_bind.mpr ((opened_handlePatching ht.1 htaken').mono _ _)
  · intro _ u hu
    subst hu
    have hworks : ∀ v, Works midReason map (· ≠ .recovery) u v → Turned env f s v := by
      intro v hw
      obtain ⟨hv, hcount⟩ := ht.1.works hw
      exact .rests hv (hcount.trans hbegun)
    exact (works_afterAttempt u).mono (fun _ => hworks) fun _ => hworks
  · rintro _ u ⟨hnew, rfl | hu⟩
    · exact .rests ht.1 hbegun
    · refine .opened (mem_mergedImages hconfig himages) hnew ?_ hu.started hu.failed ?_
      · rw [hu.stored]
        exact ht.1.stored
      · rw [hu.begins, hbegun]

end Start

section Middle

variable {env : Env} {s t u : Session} {r : Reason} {Q : Unit → Session → Prop}

/-- The reasons that a state goes on to, if its attempt neither ends nor fails with nothing to
remember. -/
def nextReasons : Reason → List Reason
  | .patchingBackupStarted => [.deploymentSetPatchingInProgress]
  | .deploymentSetPatchingInProgress => [.deploymentSetPatchingComplete]
  | .statefulSetPatchingFailure | .databasePatchingFailure => [.patchingRecoveryInProgress]
  | .databasePatchingComplete | .patchingRecoveryInProgress => []
  | r => follows r

/-- The Ready condition stays, or goes on. -/
def GoesOnFrom (r : Reason) (s u : Session) : Prop :=
  readyView u.mem = readyView s.mem ∨ ∃ r' ∈ nextReasons r, readyView u.mem = some (.false, r')

/-- What a state in the middle of an attempt leaves in the copy. -/
inductive Moved (r : Reason) (s u : Session) : Prop where
  | going (h : Going (fun act => act.begins = false) True s u) (hview : GoesOnFrom r s u)
  | ended (hstored : u.stored = s.stored) (hbegun : begun u = begun s) (hn : NotMid u.mem)
      (hmachine : u.mem.status.currentActiveStateMachine = .none)
      (hfailed : r = .databasePatchingComplete ∧
          u.mem.status.lastFailedImages = s.mem.status.lastFailedImages ∨
        r = .patchingRecoveryInProgress ∧
          u.mem.status.lastFailedImages = cloneMap s.mem.spec.images)

/-- A state that goes on, and where to. -/
theorem moved_of_going {p : P Unit} (hp : Within (Going (fun act => act.begins = false) True) p)
    (hview : wp p (fun _ _ => True) (fun _ u => GoesOnFrom r s u) s) :
    wp p (fun _ _ => True) (fun _ => Moved r s) s :=
  ((hp s).and hview).mono (fun _ _ _ => trivial) fun _ _ h => .going h.1 h.2

theorem goesOnFrom_leave {reason : Reason} {message : String} {res : Result}
    (hr : reason ∈ nextReasons r) :
    wp (leave env reason message res) Q (fun _ u => GoesOnFrom r s u) t :=
  .inr ⟨reason, hr, readyView_upsert_ready⟩

/-- The loop finds every snapshot, and none of them with an error. -/
theorem checkSnapshots_fine {backupID : String} {disks : List DiskSpec}
    {R : Result → Session → Prop}
    (h : ∀ disk ∈ disks, reached env (.getSnapshot (snapshotName backupID disk.name)) = true ∧
      ∃ snap ∈ s.snapshots.lookup (snapshotName backupID disk.name),
        ∀ st ∈ snap.status, st.error = none) :
    wp (checkSnapshots env backupID disks) (fun poll _ => poll ≠ .failed) R s := by
  induction disks generalizing s with
  | nil => exact Poll.noConfusion
  | cons disk rest ih =>
    obtain ⟨hget, snap, hsnap, hfine⟩ := h disk List.mem_cons_self
    have hrest := fun d hd => h d (List.mem_cons_of_mem disk hd)
    refine wp_bind.mpr (wp_get.mpr ?_)
    dsimp only
    rw [if_neg (not_not.mpr hget)]
    split
    · next hlook => cases hlook.symm.trans hsnap
    · exact Poll.noConfusion
    · next e _ _ _ hlook =>
      obtain rfl := Option.some.inj (hlook.symm.trans hsnap)
      cases hfine _ rfl
    · exact Poll.noConfusion
    · exact ih hrest
    · exact wp_bind.mpr (wp_modify.mpr (ih hrest))

theorem moved_awaitPatchingBackup (hr : r = .patchingBackupStarted)
    (h : ∀ disk ∈ s.mem.spec.disks.getD [],
      reached env (.getSnapshot (snapshotName s.mem.status.backupID disk.name)) = true ∧
        ∃ snap ∈ s.snapshots.lookup (snapshotName s.mem.status.backupID disk.name),
          ∀ st ∈ snap.status, st.error = none) :
    wp (awaitPatchingBackup env) (fun _ _ => True) (fun _ => Moved r s) s := by
  subst hr
  apply moved_of_going (going_awaitPatchingBackup fun _ => rfl)
  have hcheck : wp (isPatchingBackupCompleted env)
      (fun poll t => poll ≠ .failed ∧ t.mem = s.mem) (fun _ _ => False) s := by
    have hspec := (checkSnapshots_spec (R := fun _ _ => False)).and
      (checkSnapshots_fine (R := fun _ _ => False) h)
    refine wp_bind.mpr (wp_get.mpr (hspec.mono ?_ fun _ _ h => h.1))
    rintro poll t ⟨⟨names, rfl, -⟩, hpoll⟩
    exact ⟨hpoll, rfl⟩
  refine wp_bind.mpr (hcheck.mono ?_ fun _ _ h => h.elim)
  rintro poll t ⟨hpoll, hmem⟩
  cases poll with
  | failed => exact absurd rfl hpoll
  | waiting => exact .inl (by rw [hmem])
  | done => exact goesOnFrom_leave (List.mem_singleton_self _)

theorem moved_patchDeployment {cond : Condition} {images : StrMap} {failure success : Reason}
    (htime : elapsedTime env.now (some cond) ≤ deploymentPatchingTimeout)
    (hsecret : reached env .monitoringSecret = true) (hclient : env.databaseClient = true)
    (hdeploy : reached env .monitoringDeployment = true) (hnext : success ∈ nextReasons r) :
    wp (patchDeployment env cond images failure success) (fun _ _ => True)
      (fun _ => Moved r s) s := by
  apply moved_of_going (going_patchDeployment trivial)
  have hmonitoring : wp (reconcileMonitoring env images)
      (fun poll t => poll ≠ .failed ∧ t.mem = s.mem) (fun _ _ => False) s := by
    unfold reconcileMonitoring
    rw [if_neg (not_not.mpr hsecret)]
    split
    · exact ⟨Poll.noConfusion, rfl⟩
    · refine wp_bind.mpr (wp_effect_call ?_ ?_ ?_)
      · exact fun h => absurd (of_decide_eq_true hdeploy) h
      · exact fun h => absurd (of_decide_eq_true hdeploy) h
      · intro _
        refine ⟨?_, rfl⟩
        rw [if_pos rfl]
        split <;> exact Poll.noConfusion
  refine wp_bind.mpr (wp_when.mpr ⟨fun h => absurd htime (Int.not_le.mpr h), fun _ => ?_⟩)
  refine wp_bind.mpr (hmonitoring.mono ?_ fun _ _ h => h.elim)
  rintro poll t ⟨hpoll, hmem⟩
  cases poll with
  | failed => exact absurd rfl hpoll
  | waiting => exact .inl (by rw [hmem])
  | done => exact goesOnFrom_leave hnext

theorem moved_prepareRecovery {sp : StsParams} (hr : .patchingRecoveryInProgress ∈ nextReasons r)
    (hremovable : Removable env s.mem.name sp) :
    wp (prepareRecovery env sp) (fun _ _ => True) (fun _ => Moved r s) s := by
  apply moved_of_going (going_prepareRecovery rfl fun _ _ => rfl)
  refine wp_bind.mpr (deleteOldSTSandPVCs_spec.mono ?_ fun _ _ h => h)
  rintro poll t (⟨rfl, -, hfailed⟩ | ⟨rfl, hremoved⟩)
  · cases poll with
    | failed => exact absurd hremovable (hfailed rfl)
    | waiting => exact .inl rfl
    | done => exact goesOnFrom_leave hr
  · exact .inl (by rw [hremoved.mem])

/-- The other states go on to the reasons that follow. -/
theorem goesOnFrom_of_patchStep {disks : List DiskSpec}
    (hg : Going (fun act => act.begins = false) True s u) (h : PatchStep disks r s u)
    (hr : nextReasons r = follows r) (hstart : startReason r = false)
    (hcheck : r ≠ .patchingBackupStarted) : GoesOnFrom r s u := by
  cases h.move with
  | stay hview => exact .inl hview
  | @next status reason hnext hview =>
    rcases hg.view with hsame | ⟨reason', hview'⟩
    · exact .inl hsame
    · obtain ⟨rfl, rfl⟩ := Prod.mk.inj (Option.some.inj (hview.symm.trans hview'))
      exact .inr ⟨reason, hr ▸ hnext, hview⟩
  | remove _ _ hmem => exact .inl (by rw [hmem])
  | begin hr' =>
    rw [hr'] at hstart
    cases hstart
  | check hr' => exact absurd hr' hcheck

theorem moved_completePatching {sp : StsParams} (hr : r = .databasePatchingComplete) :
    wp (completePatching env sp) Q (fun _ => Moved r s) s := by
  refine .ended rfl rfl (notMid_of_view readyView_upsert_ready rfl) rfl (.inl ⟨hr, rfl⟩)

theorem moved_recover {sp : StsParams} (hr : r = .patchingRecoveryInProgress) :
    wp (recover env sp) Q (fun _ => Moved r s) s := by
  let Stayed (t : Session) : Prop :=
    Going (fun act => act.begins = false) True s t ∧ readyView t.mem = readyView s.mem
  have hmoved : ∀ t, Stayed t → Moved r s t := fun t h => .going h.1 (.inl h.2)
  have hbuild : wp (recoverFromPatchingFailure env sp) (fun _ => Stayed) (fun _ => Stayed) s := by
    have hgoing := @going_recoverFromPatchingFailure env s (fun act => act.begins = false) True sp
      fun _ _ _ _ => rfl
    exact (hgoing.and (stays_recoverFromPatchingFailure (r := r) s)).mono
      (fun _ _ h => ⟨h.1, h.2.view⟩) fun _ _ h => ⟨h.1, h.2.view⟩
  apply wp_bind.mpr (hbuild.mono _ fun _ => hmoved)
  intro ok t ht
  refine wp_bind.mpr (wp_when.mpr ⟨fun _ => hmoved t ht, fun _ => ?_⟩)
  have hprogress : wp (updateProgressCondition env "PatchingRecoveryInProgress") (fun _ => Stayed)
      (fun _ => Stayed) t := by
    have hstayed : ∀ u, Going (fun act => act.begins = false) True t u ∧ Stays r t u → Stayed u :=
      fun u h => ⟨IsTrans.trans _ _ _ ht.1 h.1, h.2.view.trans ht.2⟩
    exact ((going_updateProgressCondition t).and (stays_updateProgressCondition t)).mono
      (fun _ => hstayed) fun _ => hstayed
  apply wp_bind.mpr (hprogress.mono _ fun _ => hmoved)
  intro complete u hu
  simp only [wp_bind, wp_when, wp_finish, setMem, wp_modify]
  refine ⟨fun _ => hmoved u hu, fun _ => ⟨fun _ => hmoved u hu, fun _ => ?_⟩⟩
  obtain ⟨conditions, hmem⟩ := hu.1.mem
  obtain ⟨new, hacts, hnew⟩ := hu.1.acts
  refine .ended hu.1.stored (begun_of_acts hacts hnew) (notMid_of_view readyView_upsert_ready rfl)
    rfl (.inr ⟨hr, ?_⟩)
  change cloneMap u.mem.spec.images = _
  rw [hmem]
  rfl

/-- What a state needs not to fail with nothing to remember. -/
structure Fit (env : Env) (sp : StsParams) (cond : Condition) (s : Session) : Prop where
  noRollback : cond.reason ≠ .deploymentSetPatchingRollbackInProgress
  snapshots : cond.reason = .patchingBackupStarted → ∀ disk ∈ s.mem.spec.disks.getD [],
    reached env (.getSnapshot (snapshotName s.mem.status.backupID disk.name)) = true ∧
      ∃ snap ∈ s.snapshots.lookup (snapshotName s.mem.status.backupID disk.name),
        ∀ st ∈ snap.status, st.error = none
  deployment : cond.reason = .deploymentSetPatchingInProgress →
    elapsedTime env.now (some cond) ≤ deploymentPatchingTimeout ∧
      reached env .monitoringSecret = true ∧ env.databaseClient = true ∧
      reached env .monitoringDeployment = true
  removal : cond.reason = .statefulSetPatchingFailure ∨ cond.reason = .databasePatchingFailure →
    Removable env s.mem.name sp

theorem moved_patchingState {sp : StsParams} {timeout : Duration} {cond : Condition}
    (hmid : midReason cond.reason = true) (hfit : Fit env sp cond s) :
    wp (patchingState env sp timeout cond) (fun _ _ => True) (fun _ => Moved cond.reason s) s := by
  have hother : ∀ {p : P Unit}, Within (Going (fun act => act.begins = false) True) p →
      wp p (fun _ _ => True) (fun _ => PatchStep sp.disks cond.reason s) s →
      nextReasons cond.reason = follows cond.reason → cond.reason ≠ .patchingBackupStarted →
      wp p (fun _ _ => True) (fun _ => Moved cond.reason s) s := by
    intro p hp hstep hr hcheck
    apply ((hp s).and hstep).mono (fun _ _ _ => trivial)
    intro _ u hu
    exact .going hu.1 (goesOnFrom_of_patchStep hu.1 hu.2 hr (startReason_of_midReason hmid) hcheck)
  unfold patchingState
  split
  case h_6 heq => exact moved_awaitPatchingBackup heq (hfit.snapshots heq)
  case h_7 heq =>
    obtain ⟨htime, hsecret, hclient, hdeploy⟩ := hfit.deployment heq
    exact moved_patchDeployment htime hsecret hclient hdeploy (by rw [heq]; decide)
  case h_8 heq =>
    exact hother (going_patchStatefulSet rfl fun _ _ _ _ => rfl) (patchStep_patchStatefulSet heq)
      (by rw [heq]; rfl) (by rw [heq]; decide)
  case h_9 heq => exact absurd heq hfit.noRollback
  case h_10 heq =>
    exact hother going_awaitStatefulSet (patchStep_awaitStatefulSet heq) (by rw [heq]; rfl)
      (by rw [heq]; decide)
  case h_11 heq =>
    exact hother going_patchDatabase (patchStep_patchDatabase heq) (by rw [heq]; rfl)
      (by rw [heq]; decide)
  case h_12 heq =>
    exact hother going_awaitDatabasePatching (patchStep_awaitDatabasePatching heq)
      (by rw [heq]; rfl) (by rw [heq]; decide)
  case h_13 heq => exact moved_completePatching heq
  case h_14 heq => exact moved_prepareRecovery (by rw [heq]; decide) (hfit.removal (.inl heq))
  case h_15 heq => exact moved_prepareRecovery (by rw [heq]; decide) (hfit.removal (.inr heq))
  case h_16 heq => exact moved_recover heq
  case h_17 => trivial
  all_goals
    next heq =>
    rw [heq] at hmid
    cases hmid

end Middle

section Advance

variable {env : Env} {s t u : Session} {r r' : Reason} {inst inst' : Instance} {a : Traced}

/-- What a reconcile makes of an instance in the middle of an attempt. -/
inductive Advanced (r : Reason) (inst inst' : Instance) : Prop where
  | goes {r' : Reason} (hr : r' = r ∨ r' ∈ nextReasons r) (h : At r' inst')
      (hfailed : inst'.status.lastFailedImages = inst.status.lastFailedImages)
  | ends (hn : NotMid inst') (hmachine : inst'.status.currentActiveStateMachine = .none)
      (hfailed : r = .databasePatchingComplete ∧
          inst'.status.lastFailedImages = inst.status.lastFailedImages ∨
        r = .patchingRecoveryInProgress ∧
          inst'.status.lastFailedImages = cloneMap inst.spec.images)

theorem midReason_of_nextReasons (hr : midReason r = true)
    (hrollback : r ≠ .deploymentSetPatchingRollbackInProgress) :
    ∀ r' ∈ nextReasons r, midReason r' = true := by
  revert hr hrollback
  cases r <;> decide

theorem Advanced.of_status {inst'' : Instance} (h : Advanced r inst inst')
    (hstatus : inst''.status = inst'.status) : Advanced r inst inst'' := by
  cases h with
  | goes hr h hfailed => exact .goes hr (h.of_status hstatus) (by rw [hstatus, hfailed])
  | ends hn hmachine hfailed =>
    refine .ends (hn.congr ?_) (by rw [hstatus, hmachine]) (by rwa [hstatus])
    simp only [readyView, readyCond, hstatus]

theorem Advanced.source {inst'' : Instance} (h : Advanced r inst inst')
    (hstatus : inst.status = inst''.status) (hspec : inst.spec = inst''.spec) :
    Advanced r inst'' inst' := by
  cases h with
  | goes hr h hfailed => exact .goes hr h (by rw [hfailed, hstatus])
  | ends hn hmachine hfailed =>
    rw [hstatus, hspec] at hfailed
    exact .ends hn hmachine hfailed

theorem advanced_of_status (h : At r inst) (hstatus : inst'.status = inst.status) :
    Advanced r inst inst' := .goes (.inl rfl) (h.of_status hstatus) (by rw [hstatus])

theorem Moved.advanced (h : Moved r s u) (hat : At r s.mem)
    (hrollback : r ≠ .deploymentSetPatchingRollbackInProgress) : Advanced r s.mem u.mem := by
  cases h with
  | going hg hview =>
    obtain ⟨conditions, hmem⟩ := hg.mem
    have hmachine : u.mem.status.currentActiveStateMachine = .patching := by
      rw [hmem]
      exact hat.machine
    have hdb : (dbInstanceCond u.mem).isSome := by
      rw [hg.db]
      exact hat.db
    have hfailed : u.mem.status.lastFailedImages = s.mem.status.lastFailedImages := by
      rw [hmem]
      rfl
    rcases hview with hview | ⟨r', hr', hview⟩
    · exact .goes (.inl rfl) ⟨hview.trans hat.view, hat.mid, hdb, hmachine⟩ hfailed
    · have hmid := midReason_of_nextReasons hat.mid hrollback r' hr'
      exact .goes (.inr hr') ⟨hview, hmid, hdb, hmachine⟩ hfailed
  | ended _ _ hn hmachine hfailed => exact .ends hn hmachine hfailed

theorem Moved.begun (h : Moved r s u) : begun u = begun s := by
  cases h with
  | going hg =>
    obtain ⟨new, hacts, hnew⟩ := hg.acts
    exact begun_of_acts hacts hnew
  | ended _ hbegun => exact hbegun

theorem Moved.stored (h : Moved r s u) : u.stored = s.stored := by
  cases h with
  | going hg => exact hg.stored
  | ended hstored => exact hstored

/-- Both the stored instance and the copy have advanced, and no attempt has begun. -/
structure Carried (r : Reason) (s t : Session) : Prop where
  stored : Advanced r s.stored t.stored
  mem : Advanced r s.stored t.mem
  begun : begun t = begun s

theorem carried_body (hs : s.mem = s.stored) (hat : At r s.stored)
    (hrollback : r ≠ .deploymentSetPatchingRollbackInProgress)
    (hrunning : isStopped s.stored = false)
    (hsnapshots : r = .patchingBackupStarted → SnapshotsFine env s.toWorld)
    (hdeployment : r = .deploymentSetPatchingInProgress → DeploymentFine env s.stored)
    (hremoval : r = .statefulSetPatchingFailure ∨ r = .databasePatchingFailure →
      RecoveryFine env s.stored) :
    wp (body env) (fun _ => Carried r s) (fun _ => Carried r s) s := by
  apply wp_body_mid hs hat
  · intro t hk
    have hstatus : t.mem.status = s.stored.status := by
      rcases hk.mem with hm | hm
      · exact hm
      · rw [hm, hs]
    exact ⟨advanced_of_status hat hk.stored, advanced_of_status hat hstatus,
      congrArg (List.countP _) hk.acts⟩
  · intro hstop
    rw [hrunning] at hstop
    cases hstop
  · intro t config map timeout cond hres hh hsnap
    -- the copy that the machine gets is the one that was read, but for the finalizer
    have hmem : ∃ finalizer, t.mem = { s.stored with hasFinalizer := finalizer } := by
      obtain ⟨finalizer, _, _, hmem, -⟩ := hh
      have hstatus := hres.status
      rw [hmem] at hstatus ⊢
      dsimp only at hstatus
      exact ⟨finalizer, by rw [hstatus]⟩
    obtain ⟨finalizer, hmem⟩ := hmem
    have hcond : readyCond s.stored = some cond := by
      have hready := hres.ready
      rwa [hmem] at hready
    have hfit : Fit env (stsParams t.mem config map) cond t := by
      rw [← hres.reason] at hrollback hsnapshots hdeployment hremoval
      constructor
      · exact hrollback
      · intro hr
        rw [hmem, hsnap]
        exact hsnapshots hr
      · intro hr
        have hfine := hdeployment hr
        rwa [DeploymentFine, hcond] at hfine
      · intro hr
        rw [hmem]
        exact hremoval hr config (by rw [hres.loaded]; rfl) map (by rw [hres.merged]; rfl)
    have hstarted : At r t.mem := hat.of_status hres.status
    have hmoved := @moved_patchingState env t (stsParams t.mem config map) timeout cond
      (hres.reason ▸ hat.mid) hfit
    apply hmoved.mono fun _ _ h => h
    rw [hres.reason]
    intro _ u hu
    refine ⟨?_, ?_, hu.begun.trans (congrArg (List.countP _) hres.kept.acts)⟩
    · rw [hu.stored]
      exact advanced_of_status hat hres.kept.stored
    · exact (hu.advanced hstarted hrollback).source hres.status hres.spec

end Advance

section Runs

variable {env : Env} {a a' : Traced} {w w' : World} {r : Reason} {e : Event} {f : Option StrMap}

/-- Reasons of an attempt that is not over, and has not failed. -/
def openReason (r : Reason) : Bool :=
  midReason r && !failureReason r && r ≠ .patchingRecoveryInProgress

def recoveringReason : Reason → Bool
  | .statefulSetPatchingFailure | .databasePatchingFailure | .patchingRecoveryInProgress => true
  | _ => false

/-- The status remembers the images that have failed last, but while it recovers from them. -/
inductive Tracked (a : Traced) : Prop where
  | rest (h : Resting a.failed.head? a.world.stored)
  | under {r : Reason} (hat : At r a.world.stored) (hr : openReason r = true)
      (hcurrent : a.current.isSome)
      (hfailed : a.world.stored.status.lastFailedImages = a.failed.head?)
  | recovers {r : Reason} (hat : At r a.world.stored) (hr : recoveringReason r = true)
      (hcurrent : a.failed.head? = a.current)

theorem At.hasFailed {inst : Instance} (h : At r inst) : hasFailed inst = failureReason r := by
  unfold Reconciler.hasFailed
  rw [h.machine, h.view]
  rfl

theorem attempted_self (w : World) : attempted w w = false := decide_eq_false (Nat.lt_irrefl _)

/-- What a reconcile outside of an attempt makes of the world. -/
inductive Turns (env : Env) (f : Option StrMap) (w w' : World) : Prop where
  | rests (h : Resting f w'.stored)
      (hnew : attempted w w' = true → ∃ images ∈ mergedImages env w.stored, f ≠ some images)
  | opened {images : StrMap} (hmerged : images ∈ mergedImages env w.stored) (hnew : f ≠ some images)
      (hat : At .patchingBackupStarted w'.stored)
      (hfailed : w'.stored.status.lastFailedImages = f) (hbegins : attempted w w' = true)

theorem turns_reconcile (h : Resting f w.stored)
    (htaken : ∀ disk ∈ w.stored.spec.disks.getD [],
      env.call (.snapshot (snapshotName (patchingBackupID env w.stored) disk.name)) = .ok) :
    Turns env f w (reconcile env w) := by
  apply reconcile_of_body (J := Turns env f w) _ (turned_body rfl h htaken)
  · intro t v ht hv
    have hcount : attempted w v = decide (begun w.session < begun t) := by
      unfold attempted begun
      rw [hv.acts]
      rfl
    cases ht with
    | rests ht hbegun =>
      have hno : attempted w v = false := by
        rw [hcount, hbegun]
        exact decide_eq_false (Nat.lt_irrefl _)
      refine .rests ?_ (fun hyes => absurd (hno.symm.trans hyes) Bool.false_ne_true)
      rcases hv.stored with heq | heq
      · rw [heq]
        exact ht.stored
      · rw [heq]
        exact ht.mem.of_status rfl
    | opened hmerged hnew hstored hstarted hfailed hbegun =>
      rcases hv.stored with heq | heq
      · refine .rests ?_ fun _ => ⟨_, hmerged, hnew⟩
        rw [heq]
        exact hstored
      · refine .opened hmerged hnew ?_ ?_ ?_
        · rw [heq]
          exact hstarted.of_status rfl
        · rw [heq]
          exact hfailed
        · rw [hcount, hbegun]
          exact decide_eq_true (Nat.lt_succ_self _)
  · refine .rests h fun hyes => ?_
    rw [attempted_self] at hyes
    cases hyes

theorem advanced_reconcile (hat : At r a.world.stored)
    (hrollback : r ≠ .deploymentSetPatchingRollbackInProgress) (hok : Unbroken env a r) :
    Advanced r a.world.stored (reconcile env a.world).stored ∧
      attempted a.world (reconcile env a.world) = false := by
  have hbody := @carried_body env a.world.session r rfl hat hrollback hok.running hok.snapshots
    hok.deployment hok.removal
  apply reconcile_of_body (J := fun v => Advanced r a.world.stored v.stored ∧
    attempted a.world v = false) _ hbody
  · intro t v ht hv
    constructor
    · rcases hv.stored with heq | heq
      · rw [heq]
        exact ht.stored
      · rw [heq]
        exact ht.mem.of_status rfl
    · have hbegun : begun t = begun a.world.session := ht.begun
      unfold attempted
      rw [hv.acts]
      exact decide_eq_false (Nat.not_lt.mpr (Nat.le_of_eq hbegun))
  · exact ⟨advanced_of_status hat rfl, attempted_self _⟩

theorem observe_failed (h : hasFailed w.stored = false ∨ hasFailed a.world.stored = true) :
    (a.observe e w).failed = a.failed := by
  apply if_neg
  rintro ⟨hfails, hnot⟩
  rcases h with h | h
  · rw [hfails] at h
    cases h
  · exact hnot h

theorem observe_current (h : attempted a.world w = false) :
    (a.observe (.reconcile env) w).current = a.current := by
  apply if_neg
  rw [h]
  exact Bool.false_ne_true

/-- Images that the status remembers do not hold a reconcile up. -/
theorem passesPatching_of_resting {images : StrMap} (h : Resting (some images) w.stored)
    (hmerged : images ∈ mergedImages env w.stored) : PassesPatching env w := by
  intro t config map hpre hconfig hmap
  have hrests := @rests_preamble env w.session (some images) ⟨h, h⟩
  have hhanded := @handed_preamble env w.session rfl
  unfold wp at hrests hhanded
  rw [hpre] at hrests hhanded
  have hsame : overrideDefaultImages env config w.stored = .ok map := by
    rw [← hmap]
    unfold overrideDefaultImages
    rw [hhanded.kept.1]
    rfl
  obtain rfl := Option.some.inj (hmerged.symm.trans (mem_mergedImages hconfig hsame))
  exact handlePatching_of_remembered hrests.1.mem

theorem tracked_rest (h : Resting a.failed.head? a.world.stored) (hok : Undisputed env a) :
    Tracked (a.observe (.reconcile env) (reconcile env a.world)) ∧
      NotTriedAgain a (.reconcile env) (a.observe (.reconcile env) (reconcile env a.world)) := by
  have hturns := turns_reconcile h hok.taken
  have hnot : ∀ images ∈ mergedImages env a.world.stored, a.failed.head? ≠ some images →
      images ∉ a.failed := fun images hmerged hnew hfailed => hnew (hok.last images hmerged hfailed)
  constructor
  · cases hturns with
    | rests hrest hnew =>
      apply Tracked.rest
      rw [observe_failed (.inl hrest.not_hasFailed)]
      exact hrest
    | opened hmerged hnew hat hfailed hbegins =>
      refine .under hat rfl ?_ ?_
      · change ((if attempted a.world (reconcile env a.world) then mergedImages env a.world.stored
          else a.current).isSome) = true
        rw [if_pos hbegins, hmerged]
        rfl
      · rw [observe_failed (.inl hat.hasFailed)]
        exact hfailed
  · rintro env' ⟨⟩ images hmerged hfailed
    have hlast := hok.last images hmerged hfailed
    constructor
    · apply Bool.eq_false_iff.mpr
      intro hbegins
      have hnew : ∃ images ∈ mergedImages env a.world.stored, a.failed.head? ≠ some images := by
        cases hturns with
        | rests _ hnew => exact hnew hbegins
        | opened hmerged hnew => exact ⟨_, hmerged, hnew⟩
      obtain ⟨images', hmerged', hnew⟩ := hnew
      obtain rfl := Option.some.inj (hmerged.symm.trans hmerged')
      exact hnew hlast
    · intro _
      rw [hlast] at h
      exact passesPatching_of_resting h hmerged

theorem not_hasFailed_of_machine {inst : Instance}
    (h : inst.status.currentActiveStateMachine = .none) : hasFailed inst = false := by
  unfold hasFailed
  rw [h]
  rfl

theorem failureReason_of_openReason (h : openReason r = true) : failureReason r = false := by
  revert h
  cases r <;> decide

theorem openReason_next (h : openReason r = true) : ∀ r' ∈ nextReasons r,
    openReason r' = true ∨ failureReason r' = true ∧ recoveringReason r' = true := by
  revert h
  cases r <;> decide

theorem recoveringReason_next (h : recoveringReason r = true) : ∀ r' ∈ nextReasons r,
    recoveringReason r' = true ∧ failureReason r' = false := by
  revert h
  cases r <;> decide

/-- An attempt that goes on has not failed, or has just failed with the images it began with. -/
theorem tracked_under (hat : At r a.world.stored) (hr : openReason r = true)
    (hcurrent : a.current.isSome)
    (hfailed : a.world.stored.status.lastFailedImages = a.failed.head?)
    (h : Advanced r a.world.stored w.stored) (hno : attempted a.world w = false) :
    Tracked (a.observe (.reconcile env) w) := by
  cases h with
  | @goes r' hr' hat' hsame =>
    have hcases : openReason r' = true ∨ failureReason r' = true ∧ recoveringReason r' = true := by
      rcases hr' with rfl | hr'
      · exact .inl hr
      · exact openReason_next hr r' hr'
    rcases hcases with hopen | ⟨hfails, hrecovers⟩
    · refine .under hat' hopen ?_ ?_
      · rw [observe_current hno]
        exact hcurrent
      · rw [observe_failed (.inl (hat'.hasFailed.trans (failureReason_of_openReason hopen)))]
        exact hsame.trans hfailed
    · refine .recovers hat' hrecovers ?_
      obtain ⟨images, himages⟩ := Option.isSome_iff_exists.mp hcurrent
      have hnow : hasFailed w.stored = true := hat'.hasFailed.trans hfails
      have hbefore : hasFailed a.world.stored = false :=
        hat.hasFailed.trans (failureReason_of_openReason hr)
      have hfail : (a.observe (.reconcile env) w).failed =
          ((a.observe (.reconcile env) w).current).toList ++ a.failed := by
        apply if_pos
        exact ⟨hnow, by rw [hbefore]; exact Bool.false_ne_true⟩
      rw [hfail, observe_current hno, himages]
      rfl
  | ends hn hmachine hends =>
    have hdone : w.stored.status.lastFailedImages = a.world.stored.status.lastFailedImages := by
      rcases hends with ⟨-, hsame⟩ | ⟨rfl, -⟩
      · exact hsame
      · cases hr
    have hrest : w.stored.status.currentActiveStateMachine ≠ .patching := by
      rw [hmachine]
      decide
    apply Tracked.rest
    rw [observe_failed (.inl (not_hasFailed_of_machine hmachine))]
    exact ⟨hn, hrest, hdone.trans hfailed⟩

/-- A recovery goes on, or is over and has the images of its attempt remembered. -/
theorem tracked_recovers (hat : At r a.world.stored) (hr : recoveringReason r = true)
    (hcurrent : a.failed.head? = a.current)
    (hspec : r = .patchingRecoveryInProgress → cloneMap a.world.stored.spec.images = a.current)
    (h : Advanced r a.world.stored w.stored) (hno : attempted a.world w = false) :
    Tracked (a.observe (.reconcile env) w) := by
  cases h with
  | @goes r' hr' hat' _ =>
    have hcases : recoveringReason r' = true ∧
        (hasFailed w.stored = false ∨ hasFailed a.world.stored = true) := by
      rw [hat'.hasFailed, hat.hasFailed]
      rcases hr' with rfl | hr'
      · exact ⟨hr, by cases failureReason r' <;> simp⟩
      · obtain ⟨hrecovers, hfails⟩ := recoveringReason_next hr r' hr'
        exact ⟨hrecovers, .inl hfails⟩
    refine .recovers hat' hcases.1 ?_
    rw [observe_current hno, observe_failed hcases.2]
    exact hcurrent
  | ends hn hmachine hends =>
    have hdone : w.stored.status.lastFailedImages = a.failed.head? := by
      rcases hends with ⟨rfl, -⟩ | ⟨rfl, hclone⟩
      · cases hr
      · rw [hclone, hspec rfl, hcurrent]
    have hrest : w.stored.status.currentActiveStateMachine ≠ .patching := by
      rw [hmachine]
      decide
    apply Tracked.rest
    rw [observe_failed (.inl (not_hasFailed_of_machine hmachine))]
    exact ⟨hn, hrest, hdone⟩

theorem midway_of_at {inst : Instance} (h : At r inst) : midway inst = true := by
  rw [midway, h.view]
  exact h.mid

/-- In the middle of an attempt no other one begins. -/
theorem notTriedAgain_of_at (hat : At r a.world.stored) (hno : attempted a.world w = false) :
    NotTriedAgain a (.reconcile env) (a.observe (.reconcile env) w) := by
  rintro env' ⟨⟩ images _ _
  refine ⟨hno, ?_⟩
  intro hmid
  rw [midway_of_at hat] at hmid
  cases hmid

theorem tracked_reconcile (h : Tracked a) (hok : Remembers a (.reconcile env)) :
    Tracked (a.observe (.reconcile env) (reconcile env a.world)) ∧
      NotTriedAgain a (.reconcile env) (a.observe (.reconcile env) (reconcile env a.world)) := by
  cases h with
  | rest h => exact tracked_rest h (hok.2 h.notMid.not_midway)
  | @under r hat hr hcurrent hfailed =>
    have hunbroken : Unbroken env a r := hok.1 _ hat.view hat.mid
    obtain ⟨hadvanced, hno⟩ := advanced_reconcile hat (by rintro rfl; cases hr) hunbroken
    exact ⟨tracked_under hat hr hcurrent hfailed hadvanced hno, notTriedAgain_of_at hat hno⟩
  | @recovers r hat hr hcurrent =>
    have hunbroken : Unbroken env a r := hok.1 _ hat.view hat.mid
    obtain ⟨hadvanced, hno⟩ := advanced_reconcile hat (by rintro rfl; cases hr) hunbroken
    exact ⟨tracked_recovers hat hr hcurrent hunbroken.recovered hadvanced hno,
      notTriedAgain_of_at hat hno⟩

/-- What is not a reconcile leaves everything as it was that the attempts go by. -/
theorem tracked_external (h : Tracked a) (hext : External a.world w)
    (hcurrent : a.images w e = a.current) : Tracked (a.observe e w) := by
  have hsame : hasFailed w.stored = hasFailed a.world.stored := by
    unfold hasFailed
    rw [hext.machine, hext.readyView]
  have hfailed : (a.observe e w).failed = a.failed := by
    apply observe_failed
    rw [hsame]
    cases hasFailed a.world.stored <;> simp
  cases h with
  | rest h =>
    apply Tracked.rest
    rw [hfailed]
    refine ⟨h.notMid.congr hext.readyView, ?_, ?_⟩
    · rw [Traced.observe, hext.machine]
      exact h.machine
    · rw [Traced.observe, hext.lastFailedImages]
      exact h.failed
  | under hat hr hcur hlast =>
    refine .under (hat.external hext) hr ?_ ?_
    · change (a.images w e).isSome = true
      rw [hcurrent]
      exact hcur
    · rw [hfailed, Traced.observe, hext.lastFailedImages]
      exact hlast
  | recovers hat hr hcur =>
    refine .recovers (hat.external hext) hr ?_
    rw [hfailed, hcur]
    exact hcurrent.symm

theorem tracked_step (h : Tracked a) (hok : Remembers a e) (hstep : a.step e = some a') :
    Tracked a' ∧ NotTriedAgain a e a' := by
  obtain ⟨w, hw, rfl⟩ := Option.map_eq_some_iff.mp hstep
  rcases step_cases hw with ⟨env, rfl, rfl⟩ | hext
  · exact tracked_reconcile h hok
  · cases e with
    | reconcile env =>
      obtain rfl := Option.some.inj hw
      exact tracked_reconcile h hok
    | editSpec _ | deleteInstance _ | writeStatus _ _ _ | addSnapshot _ _ | setSnapshotStatus _ _
    | removeSnapshot _ | stsGone | addPvc _ | pvcGone _ =>
      refine ⟨tracked_external h hext rfl, ?_⟩
      intro env henv
      cases henv

/-- In a run whose steps meet the condition, images that have failed are not tried again and do not
hold a reconcile up. -/
theorem failed_images_not_tried_again {f : Option StrMap} (w : World) (events : List Event)
    (h : Resting f w.stored) (hm : Runs.Meets Traced.step Remembers ⟨w, none, f.toList⟩ events) :
    Runs.EachStep Traced.step NotTriedAgain ⟨w, none, f.toList⟩ events := by
  have hs : Tracked ⟨w, none, f.toList⟩ := by
    apply Tracked.rest
    rw [Option.head?_toList]
    exact h
  apply Runs.eachStep_of_invariant (I := Tracked) _ _ hs hm
  · intro a e a' ha hok hstep
    exact (tracked_step ha hok hstep).1
  · intro a e a' ha hok hstep
    exact (tracked_step ha hok hstep).2

end Runs

section Sample

/-- The monitoring deployment cannot be patched, and goes back to the active images. -/
def rolledBackPatching : List Event :=
  requestImage (some [dataDisk]) :: .reconcile (calm 1000) ::
    .setSnapshotStatus patchingSnapshot ⟨none, some true⟩ :: .reconcile (calm 2000) ::
      .reconcile { calm 2000 with databaseClient := false } :: [.reconcile (calm 2000)]

theorem resting_created (disks : Option (List DiskSpec)) :
    Resting none (createdWorld disks).stored := by
  refine ⟨?_, ?_, rfl⟩
  · rintro v ⟨⟩
    rfl
  · exact (by decide : StateMachine.none ≠ .patching)

/-- The next reconcile begins another attempt with the images that were rolled back. -/
theorem rolled_back_images_tried_again :
    Resting none (createdWorld (some [dataDisk])).stored ∧
      ¬ Runs.EachStep Traced.step NotTriedAgain ⟨createdWorld (some [dataDisk]), none, []⟩
        (rolledBackPatching ++ [.reconcile (calm 3000)]) := by
  refine ⟨resting_created _, ?_⟩
  intro h
  have hbad : ((Runs.run Traced.step ⟨createdWorld (some [dataDisk]), none, []⟩
      rolledBackPatching).any fun a =>
        (mergedImages (calm 3000) a.world.stored).any fun images =>
          images ∈ a.failed ∧ attempted a.world (reconcile (calm 3000) a.world) = true) = true := by
    decide +kernel
  obtain ⟨a, ha, hany⟩ := (Option.any_eq_true _ _).mp hbad
  obtain ⟨images, himages, htried⟩ := (Option.any_eq_true _ _).mp hany
  obtain ⟨hfailed, hattempted⟩ := of_decide_eq_true htried
  have hnot := (h.last ha rfl _ rfl images himages hfailed).1
  exact Bool.false_ne_true (hnot.symm.trans hattempted)

/-- The images of a failed datapatch are remembered, and are not tried again. -/
theorem recovered_images_not_tried_again :
    Runs.Meets Traced.step Remembers ⟨createdWorld (some [dataDisk]), none, []⟩
        (recoveredPatching ++ [.reconcile (calm 3000)]) ∧
      Runs.EachStep Traced.step NotTriedAgain ⟨createdWorld (some [dataDisk]), none, []⟩
        (recoveredPatching ++ [.reconcile (calm 3000)]) := by
  have hm : Runs.Meets Traced.step Remembers ⟨createdWorld (some [dataDisk]), none, []⟩
      (recoveredPatching ++ [.reconcile (calm 3000)]) := by
    decide +kernel
  exact ⟨hm, failed_images_not_tried_again _ _ (resting_created _) hm⟩

end Sample

end ElCarro.Instance.Reconciler
