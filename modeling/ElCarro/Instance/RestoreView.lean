import ElCarro.Instance.MaintenanceLock
import ElCarro.Instance.Preamble

/-! # What a reconcile of the restore machine persists

A reconcile of a restore makes up to four writes of the status, each of which can
be refused, and can be served with an error. What is left of the Ready condition,
the lock and the restore time is a function of the answers alone: the machine
persists exactly the view that is computed here.
-/

namespace ElCarro.Instance.Reconciler

open GoTime K8s Api Flow

/-- The fields by which the restore machine goes, and what it has launched. -/
structure RestoreView where
  ready : Option (CondStatus × Reason)
  lock : String
  restoreTime : Option Time
  launches : List RestoreOp
  deriving DecidableEq

def restoreView (inst : Instance) (launches : List RestoreOp) : RestoreView :=
  ⟨readyView inst, inst.status.lockedByController, inst.status.lastRestoreTime, launches⟩

def World.restoreView (w : World) : RestoreView := Reconciler.restoreView w.stored w.launches

section Machine

variable (env : Env)

/-- What the machine does about the request of an instance, before it looks at the reason. -/
inductive Decision where
  | skip
  | wait
  | reject (message : String)
  | serve (restore : RestoreSpec) (backup : Backup) (reason : Reason)

def decision (inst : Instance) : Decision :=
  match inst.spec.restore, readyCond inst with
  | some restore, some cond =>
    if cond.reason = .createInProgress ∨ ¬ restorable inst ∨ ¬ restore.force then .skip
    else match findBackupForRestore env.catalog inst restore with
      | .error _ => .reject "Could not find a matching backup"
      | .ok backup =>
        let backupReadyCond := findCondition backup.status.conditions .ready
        if conditionStatusEquals backupReadyCond .true then .serve restore backup cond.reason
        else if conditionReasonEquals backupReadyCond .backupFailed then
          .reject "Backup is in failed state"
        else .wait
  | _, _ => .skip

def Decision.act (sp : StsParams) : Decision → P Unit
  | .skip => pure ()
  | .wait => finish (.requeueAfter (10 * second))
  | .reject message => failRestore env message
  | .serve restore backup reason => restoreState env sp restore backup reason

theorem handleRestore_eq (sp : StsParams) (s : Session) :
    handleRestore env sp s = (decision env s.mem).act env sp s := by
  unfold handleRestore restoreStateMachine decision
  simp only [get_bind_apply]
  cases s.mem.spec.restore with
  | none => rfl
  | some restore =>
    simp only [get_bind_apply]
    cases readyCond s.mem with
    | none => rfl
    | some cond =>
      dsimp only
      split
      · rfl
      · cases findBackupForRestore env.catalog s.mem restore with
        | error e => rfl
        | ok backup =>
          dsimp only
          split
          · rfl
          · split <;> rfl

/-- What is served is the request of the instance, by the reason of its Ready condition. -/
theorem decision_serve {env : Env} {inst : Instance} {restore : RestoreSpec} {backup : Backup}
    {reason : Reason} (h : decision env inst = .serve restore backup reason) :
    inst.spec.restore = some restore ∧ ∃ status, readyView inst = some (status, reason) := by
  unfold decision at h
  split at h
  · next cond hspec hcond =>
    split at h
    · cases h
    · split at h
      · cases h
      · dsimp only at h
        split at h
        · obtain ⟨rfl, -, rfl⟩ := Decision.serve.inj h
          exact ⟨hspec, cond.status, readyView_eq_some.mpr ⟨cond, hcond, rfl⟩⟩
        · split at h <;> cases h
  · cases h

/-- It insists on the restore, and its Backup has been found and is Ready. -/
theorem decision_found {env : Env} {inst : Instance} {restore : RestoreSpec} {backup : Backup}
    {reason : Reason} (h : decision env inst = .serve restore backup reason) :
    restore.force = true ∧ findBackupForRestore env.catalog inst restore = .ok backup ∧
      conditionStatusEquals (findCondition backup.status.conditions .ready) .true = true := by
  unfold decision at h
  split at h
  · split at h
    · cases h
    · next hskip =>
      push Not at hskip
      split at h
      · cases h
      · next found hfound =>
        dsimp only at h
        split at h
        · next hready =>
          obtain ⟨rfl, rfl, -⟩ := Decision.serve.inj h
          exact ⟨hskip.2.2, hfound, hready⟩
        · split at h <;> cases h
  · cases h

/-- A reconcile as far as the restore machine goes, with the write of the status at its end. -/
def restoreReconcile (sp : StsParams) (w : World) : World :=
  if ¬ reached env .getInstance then w
  else (updateStatus env .deferredStatus (handleRestore env sp w.session).state).state.toWorld

end Machine

namespace RestoreView

variable (env : Env) (v : RestoreView)

/-- A status is stored by the given write or by the one at the end of the reconcile. -/
def written (c : Call) : Bool := (env.call c).served || (env.call .deferredStatus).served

def setReady (status : CondStatus) (reason : Reason) : RestoreView :=
  { v with ready := some (status, reason) }

def release : RestoreView := { v with lock := releaseField instanceController v.lock }

def acquire : RestoreView := { v with lock := acquireField instanceController v.lock }

def advance (c : Call) (reason : Reason) : RestoreView :=
  if written env c then v.setReady .false reason else v

/-- The lock is released before the request is removed and the outcome is set. -/
def finish (c : Call) (status : CondStatus) (reason : Reason) : RestoreView :=
  if env.call .releaseLock = .ok ∧ env.call .restoreSpec = .ok ∧ written env c then
    v.release.setReady status reason
  else if (env.call .releaseLock).served ∨ written env c then v.release
  else v

/-- The outcome is set before the lock is released. -/
def fail : RestoreView :=
  if written env .releaseLock then v.release.setReady .false .restoreFailed else v

def accept (restore : RestoreSpec) : RestoreView :=
  if env.call .acquireLock = .ok ∧ v.acquire.lock = instanceController ∧
      written env .preparationStatus then
    { v.acquire.setReady .false .restorePreparationInProgress with
      restoreTime := some (rfc3339Copy restore.requestTime) }
  else if written env .acquireLock then v.acquire
  else v

/-- The operation that a launch with these answers starts. -/
def operation (sp : StsParams) (inst : Instance) (restore : RestoreSpec) (restoreTime : Option Time) :
    List RestoreOp :=
  match restore.backupType with
  | .snapshot => if rebuilds env inst sp then [.snapshot restoreTime] else []
  | .physical =>
    if env.physicalRestore.runs then
      [.physical restoreTime (env.physicalRestore = .finished)]
    else []
  | _ => []

def start (sp : StsParams) (inst : Instance) (restore : RestoreSpec) : RestoreView :=
  let v' := { v with launches := operation env sp inst restore v.restoreTime ++ v.launches }
  if restore.backupType = .physical ∧ env.physicalRestore = .finished then
    v'.finish env .deferredStatus .true .restoreComplete
  else v'

def launch (sp : StsParams) (inst : Instance) (restore : RestoreSpec) : RestoreView :=
  if env.call .restoreStatus = .ok then
    (v.setReady .false .restoreInProgress).start env sp inst restore
  else v.advance env .restoreStatus .restoreInProgress

end RestoreView

section Persisted

variable (env : Env) (sp : StsParams) (w : World)

/-- The answer of the removal of the old objects; a restore in place has none to remove. -/
def removal (restore : RestoreSpec) (s : Session) : Poll :=
  if restore.backupType = .snapshot then
    match deleteOldSTSandPVCs env .restore sp s with
    | .next poll _ => poll
    | .done _ _ => .waiting
  else .done

def turnsDown (inst : Instance) (restore : RestoreSpec) : Bool :=
  (restore.backupType ≠ .snapshot ∧ restore.backupType ≠ .physical) ∨
    inst.status.lastRestoreTime.any (rfc3339Copy restore.requestTime ≤ ·)

def persistedState (restore : RestoreSpec) (backup : Backup) (reason : Reason) : RestoreView :=
  let v := w.restoreView
  match reason with
  | .restoreComplete | .createComplete | .restoreFailed =>
    if turnsDown w.stored restore then v else v.accept env restore
  | .restorePreparationInProgress =>
    match removal env sp restore w.session with
    | .failed => v.finish env .deferredStatus .false .restoreFailed
    | .waiting => v
    | .done => v.advance env .deferredStatus .restorePreparationComplete
  | .restorePreparationComplete => v.launch env sp w.stored restore
  | .restoreInProgress =>
    match restore.backupType with
    | .snapshot =>
      if stsComplete env w.session then
        v.advance env .bootstrapStatus .postRestoreBootstrapInProgress
      else v
    | .physical =>
      if ¬ env.physicalRestoreDone then v
      else if env.physicalRestoreError then v.finish env .deferredStatus .false .restoreFailed
      else v.advance env .bootstrapStatus .postRestoreBootstrapInProgress
    | _ => v.finish env .deferredStatus .false .restoreFailed
  | .postRestoreBootstrapInProgress =>
    if restore.backupType = .physical ∧ ¬ env.bootstrapDatabase then
      v.finish env .deferredStatus .false .restoreFailed
    else if restore.backupType = .snapshot ∧ ¬ env.oracleRunning then v
    else v.advance env .bootstrappedStatus .postRestoreBootstrapComplete
  | .postRestoreBootstrapComplete =>
    if valueAt backup.annotations databaseImageAnnotation =
        imageAt w.stored.status.activeImages "service" then
      v.finish env .restoredStatus .true .restoreComplete
    else if env.applyDataPatch then
      v.advance env .datapatchStatus .postRestoreDatabasePatchingInProgress
    else v.fail env
  | .postRestoreDatabasePatchingInProgress =>
    match env.datapatch with
    | .failed => v.fail env
    | .waiting => v
    | .done => v.finish env .deferredStatus .true .restoreComplete
  | _ => v

/-- What is stored when the reconcile is over. -/
def persisted : RestoreView :=
  if ¬ reached env .getInstance then w.restoreView
  else match decision env w.stored with
    | .skip | .wait => w.restoreView
    | .reject _ => w.restoreView.finish env .deferredStatus .false .restoreFailed
    | .serve restore backup reason => persistedState env sp w restore backup reason

end Persisted

section Writes

variable {env : Env} {s t : Session} {Q : Bool → Session → Prop} {R : Result → Session → Prop}

def Session.current (s : Session) : Prop := s.memVersion = s.resourceVersion

def Session.memView (s : Session) : RestoreView := restoreView s.mem s.launches

/-- What the write at the end of the reconcile leaves behind. -/
def Session.settled (env : Env) (s : Session) : RestoreView :=
  if s.memVersion = s.resourceVersion ∧ (env.call .deferredStatus).served then s.memView
  else s.restoreView

theorem store_launches {inst : Instance} : (s.store inst).launches = s.launches := by
  unfold Session.store
  split <;> rfl

/-- A view depends on the status alone. -/
theorem restoreView_congr {inst inst' : Instance} {launches launches' : List RestoreOp}
    (hstatus : inst.status = inst'.status) (hl : launches = launches') :
    restoreView inst launches = restoreView inst' launches' := by
  unfold restoreView readyView readyCond
  rw [hstatus, hl]

theorem settled_of_eq (h : s.memView = s.restoreView) : s.settled env = s.restoreView := by
  unfold Session.settled
  split
  · exact h
  · rfl

theorem settled_of_current (h : s.current) :
    s.settled env = if (env.call .deferredStatus).served then s.memView else s.restoreView := by
  unfold Session.settled
  have hv : s.memVersion = s.resourceVersion := h
  simp only [hv, true_and]

/-- A write of the current copy is refused, served with an error, or served. -/
theorem wp_write_current {object : Session → Instance} {c : Call} (hs : s.current)
    (hrefused : (env.call c).served = false → Q false s)
    (hlost : env.call c = .lost → ∀ t : Session, t.stored = object s → t.mem = s.mem →
      t.launches = s.launches → Q false t)
    (hok : env.call c = .ok → ∀ t : Session, t.stored = object s → t.mem = object s → t.current →
      t.launches = s.launches → Q true t) :
    wp (write env object c) Q R s := by
  have hv : ¬ s.memVersion ≠ s.resourceVersion := not_not.mpr hs
  unfold wp write
  simp only [if_neg hv]
  cases hc : env.call c with
  | ok => exact hok hc _ store_stored store_stored rfl store_launches
  | lost => exact hlost hc _ store_stored store_mem store_launches
  | notFound => exact hrefused (by rw [hc]; rfl)
  | conflict => exact hrefused (by rw [hc]; rfl)
  | failed => exact hrefused (by rw [hc]; rfl)

theorem updateStatus_deferred (t : Session) :
    (updateStatus env .deferredStatus t).state.toWorld.restoreView = t.settled env := by
  unfold updateStatus write Session.settled
  dsimp only
  by_cases hv : t.memVersion = t.resourceVersion
  · rw [if_neg (not_not.mpr hv)]
    have hstored : ∀ u : World, u.stored = { t.stored with status := t.mem.status } →
        u.launches = t.launches → u.restoreView = t.memView := by
      intro u hu hl
      exact restoreView_congr (by rw [hu]) hl
    cases hc : env.call .deferredStatus with
    | ok =>
      rw [if_pos ⟨hv, rfl⟩]
      exact hstored _ store_stored store_launches
    | lost =>
      rw [if_pos ⟨hv, rfl⟩]
      exact hstored _ store_stored store_launches
    | notFound => exact (if_neg fun h => Bool.false_ne_true h.2).symm
    | conflict => exact (if_neg fun h => Bool.false_ne_true h.2).symm
    | failed => exact (if_neg fun h => Bool.false_ne_true h.2).symm
  · rw [if_pos hv, if_neg fun h => hv h.1]
    rfl

theorem wp_updateStatus_current {c : Call} (hs : s.current)
    (hrefused : (env.call c).served = false → Q false s)
    (hlost : env.call c = .lost → ∀ t : Session,
      t.memView = s.memView → t.restoreView = s.memView → Q false t)
    (hok : env.call c = .ok → ∀ t : Session, t.current →
      t.memView = s.memView → t.restoreView = s.memView → Q true t) :
    wp (updateStatus env c) Q R s := by
  apply wp_write_current hs hrefused
  · intro hc t hstored hmem hl
    apply hlost hc t
    · exact restoreView_congr (by rw [hmem]) hl
    · exact restoreView_congr (by rw [hstored]) hl
  · intro hc t hstored hmem ht hl
    apply hok hc t ht
    · exact restoreView_congr (by rw [hmem]) hl
    · exact restoreView_congr (by rw [hstored]) hl

/-- After a write of the status, only the one at the end of the reconcile can change anything. -/
theorem wp_updateStatus_settled {c : Call} (hs : s.current)
    (h : ∀ ok t, t.settled env = (if RestoreView.written env c then s.memView else s.restoreView) →
      Q ok t) : wp (updateStatus env c) Q R s := by
  have hserved : ∀ t : Session, t.memView = s.memView → t.restoreView = s.memView →
      (env.call c).served = true →
      t.settled env = if RestoreView.written env c then s.memView else s.restoreView := by
    intro t hmem hstored hc
    rw [settled_of_eq (hmem.trans hstored.symm), hstored, RestoreView.written, hc]
    rfl
  apply wp_updateStatus_current hs
  · intro hc
    apply h
    rw [settled_of_current hs, RestoreView.written, hc, Bool.false_or]
  · intro hc t hmem hstored
    exact h _ _ (hserved t hmem hstored (by rw [hc]; rfl))
  · intro hc t _ hmem hstored
    exact h _ _ (hserved t hmem hstored (by rw [hc]; rfl))

/-- A copy that shows what is stored changes nothing by being written, current or not. -/
theorem wp_updateStatus_same {c : Call} (hsame : s.memView = s.restoreView)
    (h : ∀ ok t, t.settled env = s.restoreView → Q ok t) : wp (updateStatus env c) Q R s := by
  by_cases hs : s.current
  · apply wp_updateStatus_settled hs
    intro ok t ht
    apply h
    rw [ht, hsame, ite_self]
  · have hq := h false s (settled_of_eq hsame)
    have hv : s.memVersion ≠ s.resourceVersion := hs
    unfold wp updateStatus write
    simpa only [if_pos hv] using hq

end Writes

section Steps

variable {env : Env} {s t : Session} {Q : Unit → Session → Prop} {status : CondStatus}
  {reason : Reason} {message : String}

theorem wp_setReady {R : Result → Session → Prop}
    (h : ∀ t : Session, (s.current → t.current) → t.restoreView = s.restoreView →
      t.memView = s.memView.setReady status reason → t.stored = s.stored → Q () t) :
    wp (setReady env status reason message) Q R s := by
  let mem := withConditions s.mem
    (upsert env.now .ready status reason message s.mem.status.conditions)
  refine h { s with mem := mem } id rfl ?_ rfl
  unfold Session.memView restoreView RestoreView.setReady
  rw [readyView_upsert_ready]
  rfl

/-- The copy is written with a new reason, now or at the end of the reconcile. -/
theorem commit_settled {c : Call} {r : Result} (hs : s.current) :
    wp (commit env reason message c r) Q
      (fun _ t => t.settled env =
        if RestoreView.written env c then s.memView.setReady .false reason else s.restoreView) s := by
  refine wp_bind.mpr (wp_setReady ?_)
  intro t ht hstored hmem _
  refine wp_bind.mpr (wp_updateStatus_settled (ht hs) ?_)
  intro ok u hu
  rw [wp_finish, hu, hstored, hmem]

/-- What is left when a restore is ended: everything was written, nothing was, or the lock is
released and the outcome is not set. -/
inductive EndOutcome (env : Env) (s : Session) (status : CondStatus) (reason : Reason) :
    Bool → Session → Prop
  | whole {t : Session} (hrelease : env.call .releaseLock = .ok)
      (hspec : env.call .restoreSpec = .ok) (ht : t.current)
      (hmem : t.memView = s.memView.release.setReady status reason)
      (hstored : t.restoreView = s.memView.release) : EndOutcome env s status reason true t
  | kept {t : Session} (hrelease : (env.call .releaseLock).served = false) (ht : t.current)
      (hmem : t.memView = s.memView.release) (hstored : t.restoreView = s.restoreView) :
      EndOutcome env s status reason false t
  | half {t : Session} (hrelease : (env.call .releaseLock).served = true)
      (hnot : ¬ (env.call .releaseLock = .ok ∧ env.call .restoreSpec = .ok))
      (hmem : t.memView = s.memView.release) (hstored : t.restoreView = s.memView.release) :
      EndOutcome env s status reason false t

theorem wp_release_current {Q : Bool → Session → Prop} {R : Result → Session → Prop}
    (hs : s.current)
    (hrefused : (env.call .releaseLock).served = false → ∀ t : Session, t.current →
      t.memView = s.memView.release → t.restoreView = s.restoreView → Q false t)
    (hlost : env.call .releaseLock = .lost → ∀ t : Session,
      t.memView = s.memView.release → t.restoreView = s.memView.release → Q false t)
    (hok : env.call .releaseLock = .ok → ∀ t : Session, t.current →
      t.memView = s.memView.release → t.restoreView = s.memView.release → Q true t) :
    wp (releaseInstanceMaintenanceLock env instanceController) Q R s := by
  have hwrite : ∀ edited : Session, edited.current → edited.restoreView = s.restoreView →
      edited.memView = s.memView.release → wp (updateStatus env .releaseLock) Q R edited := by
    intro edited hcur hstored hview
    apply wp_updateStatus_current hcur
    · intro hc
      exact hrefused hc edited hcur hview hstored
    · intro hc t hmem hstored
      exact hlost hc t (hmem.trans hview) (hstored.trans hview)
    · intro hc t ht hmem hstored
      exact hok hc t ht (hmem.trans hview) (hstored.trans hview)
  unfold releaseInstanceMaintenanceLock
  simp only [wp_bind, wp_get, wp_when, setStatus, setMem, wp_modify]
  -- the copy is edited only if the lock is ours
  constructor
  · intro howner
    apply hwrite
    · exact hs
    · rfl
    · have hlock : releaseField instanceController s.mem.status.lockedByController = "" :=
        if_pos howner
      unfold RestoreView.release Session.memView restoreView
      rw [hlock]
      rfl
  · intro howner
    apply hwrite s hs rfl
    unfold RestoreView.release Session.memView restoreView
    rw [releaseField_of_ne howner]

theorem acquireField_eq_iff {owner locked : String} :
    acquireField owner locked = owner ↔ locked = "" ∨ locked = owner := by
  unfold acquireField
  by_cases h : locked = ""
  · simp [h]
  · simp [h]

theorem wp_acquire_current {Q : Bool → Session → Prop} {R : Result → Session → Prop}
    (hs : s.current)
    (hrefused : (env.call .acquireLock).served = false → ∀ t : Session, t.current →
      t.memView = s.memView.acquire → t.restoreView = s.restoreView → Q false t)
    (hlost : env.call .acquireLock = .lost → ∀ t : Session,
      t.memView = s.memView.acquire → t.restoreView = s.memView.acquire → Q false t)
    (hok : env.call .acquireLock = .ok → ∀ t : Session, t.current →
      t.memView = s.memView.acquire → t.restoreView = s.memView.acquire →
      Q (decide (s.memView.acquire.lock = instanceController)) t) :
    wp (acquireInstanceMaintenanceLock env instanceController) Q R s := by
  have hwrite : ∀ edited : Session, edited.current → edited.restoreView = s.restoreView →
      edited.memView = s.memView.acquire →
      wp (updateStatus env .acquireLock) (fun ok => Q (decide (ok = true ∧
        (s.mem.status.lockedByController = "" ∨
          s.mem.status.lockedByController = instanceController)))) R edited := by
    intro edited hcur hstored hview
    apply wp_updateStatus_current hcur
    · intro hc
      simpa using hrefused hc edited hcur hview hstored
    · intro hc t hmem hstored
      simpa using hlost hc t (hmem.trans hview) (hstored.trans hview)
    · intro hc t ht hmem hstored
      have h := hok hc t ht (hmem.trans hview) (hstored.trans hview)
      have hiff : s.memView.acquire.lock = instanceController ↔ _ := acquireField_eq_iff
      simp only [hiff] at h
      simp only [true_and]
      exact h
  unfold acquireInstanceMaintenanceLock
  simp only [wp_bind, wp_get, wp_when, setStatus, setMem, wp_modify]
  constructor
  · intro hfree
    apply hwrite
    · exact hs
    · rfl
    · have hlock : acquireField instanceController s.mem.status.lockedByController =
          instanceController := if_pos hfree
      unfold RestoreView.acquire Session.memView restoreView
      rw [hlock]
      rfl
  · intro hlocked
    apply hwrite s hs rfl
    unfold RestoreView.acquire Session.memView restoreView
    rw [acquireField_of_ne hlocked]

theorem wp_endRestore {R : Result → Session → Prop} (hs : s.current) :
    wp (endRestore env status reason message) (EndOutcome env s status reason) R s := by
  refine wp_bind.mpr (wp_release_current hs ?_ ?_ ?_)
  · intro hc t ht hmem hstored
    exact .kept hc ht hmem hstored
  · intro hc t hmem hstored
    exact .half (by rw [hc]; rfl) (fun h => Outcome.ne_ok_of_lost hc h.1) hmem hstored
  · intro hc t ht hmem hstored
    have hserved : (env.call .releaseLock).served = true := by rw [hc]; rfl
    refine wp_bind.mpr (wp_modify.mpr (wp_bind.mpr ?_))
    apply wp_write_current
    · exact ht
    · intro hu
      exact .half hserved (fun h => Outcome.ne_ok_of_not_served hu h.2) hmem hstored
    · intro hu u hustored humem hl
      apply EndOutcome.half hserved (fun h => Outcome.ne_ok_of_lost hu h.2)
      · exact (restoreView_congr (congrArg _ humem) hl).trans hmem
      · exact (restoreView_congr (congrArg _ hustored) hl).trans hstored
    · intro hu u hustored humem hcur hl
      have hview : u.restoreView = s.memView.release := by
        exact (restoreView_congr (congrArg _ hustored) hl).trans hstored
      have hmview : u.memView = s.memView.release := by
        exact (restoreView_congr (congrArg _ humem) hl).trans hstored
      refine wp_bind.mpr (wp_setReady ?_)
      intro x hx hxstored hxmem _
      exact .whole hc hu (hx hcur) (by rw [hxmem, hmview]) (by rw [hxstored, hview])

/-- The outcome is set only in memory when the program returns. -/
theorem EndOutcome.settled {ok : Bool} (h : EndOutcome env s status reason ok t)
    (hsame : s.memView = s.restoreView) :
    t.settled env = s.restoreView.finish env .deferredStatus status reason := by
  unfold RestoreView.finish RestoreView.written
  rw [Bool.or_self, ← hsame]
  cases h with
  | whole hrelease hspec ht hmem hstored =>
    rw [settled_of_current ht, hmem, hstored, hrelease, hspec]
    simp [Outcome.served]
  | kept hrelease ht hmem hstored =>
    have hnot : env.call .releaseLock ≠ .ok := Outcome.ne_ok_of_not_served hrelease
    rw [settled_of_current ht, hmem, hstored, hrelease, hsame]
    simp [hnot]
  | half hrelease hnot hmem hstored =>
    rw [settled_of_eq (hmem.trans hstored.symm), hstored, if_neg fun h => hnot ⟨h.1, h.2.1⟩,
      if_pos (.inl hrelease)]

end Steps

section States

variable {env : Env} {s : Session}

/-- Whichever way out, the reconcile leaves this view behind. -/
def Settles (env : Env) (p : P Unit) (s : Session) (v : RestoreView) : Prop :=
  wp p (fun _ t => t.settled env = v) (fun _ t => t.settled env = v) s

/-- The copy is the current one and shows what is stored. -/
structure InStep (s : Session) : Prop where
  current : s.current
  same : s.memView = s.restoreView

theorem InStep.settled (hs : InStep s) : s.settled env = s.restoreView := settled_of_eq hs.same

theorem commit_settles {reason : Reason} {message : String} {c : Call} {r : Result}
    (hs : InStep s) :
    Settles env (commit env reason message c r) s (s.restoreView.advance env c reason) := by
  unfold RestoreView.advance
  rw [← hs.same]
  apply (commit_settled hs.current).mono fun _ _ h => h
  intro _ t ht
  rw [ht, hs.same]

theorem failRestore_settles {message : String} (hs : InStep s) :
    Settles env (failRestore env message) s
      (s.restoreView.finish env .deferredStatus .false .restoreFailed) := by
  refine wp_bind.mpr ((wp_endRestore hs.current).mono ?_ fun _ _ h => h)
  intro ok t ht
  exact wp_when.mpr ⟨fun _ => ht.settled hs.same, fun _ => ht.settled hs.same⟩

theorem succeedRestore_settles {message : String} {r : Bool → Result} (hs : InStep s) :
    Settles env (setRestoreSucceeded env message >>= fun ok => finish (r ok)) s
      (s.restoreView.finish env .deferredStatus .true .restoreComplete) := by
  refine wp_bind.mpr ((wp_endRestore hs.current).mono ?_ fun _ _ h => h)
  intro ok t ht
  exact ht.settled hs.same

/-- The outcome is in the copy already when the lock is released. -/
theorem failEarly_settles {message message' : String} (hs : InStep s) :
    Settles env (do
      setReady env .false .restoreFailed message
      let _ ← setRestoreFailed env message'
      pure ()) s (s.restoreView.fail env) := by
  refine wp_bind.mpr (wp_setReady ?_)
  intro t ht hstored hmem _
  refine wp_bind.mpr ((wp_endRestore (ht hs.current)).mono ?_ fun _ _ h => h)
  intro ok u hu
  rw [wp_pure, RestoreView.fail, RestoreView.written, ← hs.same]
  have hrelease : t.memView.release = s.memView.release.setReady .false .restoreFailed := by
    rw [hmem]
    rfl
  cases hu with
  | whole hc _ hcur humem hustored =>
    have hsame : u.memView = u.restoreView := by
      rw [humem, hustored, hrelease]
      rfl
    rw [settled_of_eq hsame, hustored, hrelease, hc]
    rfl
  | kept hc hcur humem hustored =>
    rw [settled_of_current hcur, humem, hustored, hstored, hrelease, hc, hs.same, Bool.false_or]
  | half hc _ humem hustored =>
    rw [settled_of_eq (humem.trans hustored.symm), hustored, hrelease, hc]
    rfl

theorem wp_noteRequest {Q : Unit → Session → Prop} {R : Result → Session → Prop}
    {requestTime : Time}
    (h : ∀ t : Session, (s.current → t.current) → t.restoreView = s.restoreView →
      t.memView = { s.memView with restoreTime := some requestTime } → Q () t) :
    wp (setStatus fun st => { st with lastRestoreTime := some requestTime, backupID := "" }) Q R s :=
  h _ id rfl rfl

theorem acceptRequest_settles {restore : RestoreSpec} (hs : InStep s) :
    Settles env (acceptRequest env restore) s
      (if turnsDown s.mem restore then s.restoreView else s.restoreView.accept env restore) := by
  refine wp_bind.mpr (wp_get.mpr ?_)
  by_cases hdown : turnsDown s.mem restore = true
  · rw [if_pos hdown, if_pos (of_decide_eq_true hdown)]
    exact hs.settled
  · rw [if_neg hdown, if_neg fun h => hdown (decide_eq_true h), ← hs.same]
    unfold RestoreView.accept
    refine wp_bind.mpr (wp_acquire_current hs.current ?_ ?_ ?_)
    · intro hc t ht hmem hstored
      have hno : env.call .acquireLock ≠ .ok := Outcome.ne_ok_of_not_served hc
      rw [if_neg fun h => hno h.1]
      refine wp_bind.mpr (wp_when.mpr ⟨fun _ => ?_, fun h => absurd Bool.false_ne_true h⟩)
      rw [wp_finish, settled_of_current ht, hmem, hstored, RestoreView.written, hc, hs.same,
        Bool.false_or]
    · intro hc t hmem hstored
      have hno : env.call .acquireLock ≠ .ok := Outcome.ne_ok_of_lost hc
      rw [if_neg fun h => hno h.1]
      refine wp_bind.mpr (wp_when.mpr ⟨fun _ => ?_, fun h => absurd Bool.false_ne_true h⟩)
      rw [wp_finish, settled_of_eq (hmem.trans hstored.symm), hstored, RestoreView.written, hc]
      rfl
    · intro hc t ht hmem hstored
      have hwritten : RestoreView.written env .acquireLock = true := by
        rw [RestoreView.written, hc]
        rfl
      simp only [hc, hwritten, true_and, if_true]
      refine wp_bind.mpr (wp_when.mpr ⟨fun hlocked => ?_, fun hlocked => ?_⟩)
      · have hlocked : ¬ s.memView.acquire.lock = instanceController := by simpa using hlocked
        rw [wp_finish, settled_of_eq (hmem.trans hstored.symm), hstored, if_neg fun h => hlocked h.1]
      · have hlocked : s.memView.acquire.lock = instanceController := by simpa using hlocked
        refine wp_bind.mpr (wp_noteRequest ?_)
        intro u hu hustored humem
        apply (commit_settled (hu ht)).mono fun _ _ h => h
        intro _ x hx
        rw [hx, humem, hustored, hmem, hstored]
        by_cases hw : RestoreView.written env .preparationStatus = true
        · rw [if_pos hw, if_pos ⟨hlocked, hw⟩]
          rfl
        · rw [if_neg hw, if_neg fun h => hw h.2]

/-- Neither the copy nor the stored instance changes, and nothing is launched. -/
structure Untouched (s t : Session) : Prop where
  server : t.server = s.server
  copy : t.copy = s.copy
  launches : t.launches = s.launches

instance : Std.Refl Untouched := ⟨fun _ => ⟨rfl, rfl, rfl⟩⟩

instance : IsTrans Session Untouched :=
  ⟨fun _ _ _ h h' => ⟨h'.server.trans h.server, h'.copy.trans h.copy, h'.launches.trans h.launches⟩⟩

theorem Untouched.restoreView {t : Session} (h : Untouched s t) : t.restoreView = s.restoreView :=
  restoreView_congr (congrArg (·.value.status) h.server) h.launches

theorem Untouched.inStep {t : Session} (h : Untouched s t) (hs : InStep s) : InStep t where
  current := by
    have hver : t.memVersion = s.memVersion := congrArg (·.version) h.copy
    have hres : t.resourceVersion = s.resourceVersion := congrArg (·.version) h.server
    unfold Session.current
    rw [hver, hres]
    exact hs.current
  same := by
    rw [h.restoreView, ← hs.same]
    exact restoreView_congr (congrArg (·.value.status) h.copy) h.launches

theorem untouched_effect {c : Call} {f : Session → Session} (h : ∀ s, Untouched s (f s)) :
    Within Untouched (effect env c f) :=
  fun s => wp_effect (Std.Refl.refl s) (h s) (h s)

theorem untouched_deleteOldPVCs {path : Path} {disks : List DiskSpec} :
    Within Untouched (deleteOldPVCs env path disks) := by
  induction disks with
  | nil => exact .pure _
  | cons disk rest ih =>
    refine .bind .get fun s => .ite (fun _ => .pure _) fun _ => .ite (fun _ => ?_) fun _ => ih
    exact .bind (untouched_effect fun _ => ⟨rfl, rfl, rfl⟩) fun _ => .pure _

theorem untouched_deleteOldSTSandPVCs {path : Path} {sp : StsParams} :
    Within Untouched (deleteOldSTSandPVCs env path sp) := by
  refine .bind .get fun s => ?_
  cases constructSTSandPVCs sp with
  | error e => exact .pure _
  | ok sts =>
    refine .ite (fun _ => .pure _) fun _ => .ite (fun _ => ?_) fun _ => untouched_deleteOldPVCs
    exact .bind (untouched_effect fun _ => ⟨rfl, rfl, rfl⟩) fun _ => .pure _

theorem untouched_createFromSnapshot {path : Path} {inst : Instance} {sp : StsParams}
    {R : Result → Session → Prop} :
    wp (createFromSnapshot env path inst sp) (fun _ => Untouched s) R s := by
  unfold createFromSnapshot
  cases restoreSnapshot inst sp with
  | error e => exact Std.Refl.refl s
  | ok sts => exact wp_effect (Std.Refl.refl s) ⟨rfl, rfl, rfl⟩ ⟨rfl, rfl, rfl⟩

theorem leave_settles {reason : Reason} {message : String} {r : Result} (hs : InStep s) :
    Settles env (leave env reason message r) s
      (s.restoreView.advance env .deferredStatus reason) := by
  refine wp_bind.mpr (wp_setReady ?_)
  intro t ht hstored hmem _
  rw [wp_finish, settled_of_current (ht hs.current), hmem, hstored, hs.same,
    RestoreView.advance, RestoreView.written, Bool.or_self]

theorem prepareRestore_settles {restore : RestoreSpec} {sp : StsParams} (hs : InStep s) :
    Settles env (prepareRestore env restore sp) s
      (match removal env sp restore s with
      | .failed => s.restoreView.finish env .deferredStatus .false .restoreFailed
      | .waiting => s.restoreView
      | .done => s.restoreView.advance env .deferredStatus .restorePreparationComplete) := by
  refine wp_bind.mpr (wp_when.mpr ⟨fun htype => ?_, fun htype => ?_⟩)
  · have hwp : wp (deleteOldSTSandPVCs env .restore sp) (fun _ => Untouched s)
        (fun _ => Untouched s) s := untouched_deleteOldSTSandPVCs s
    rw [removal, if_pos htype]
    refine wp_bind.mpr ?_
    unfold wp at hwp ⊢
    cases hrun : deleteOldSTSandPVCs env .restore sp s with
    | done r t =>
      rw [hrun] at hwp
      exact (hwp.inStep hs).settled.trans hwp.restoreView
    | next poll t =>
      rw [hrun] at hwp
      have ht := hwp.inStep hs
      dsimp only
      rw [← hwp.restoreView]
      cases poll with
      | failed =>
        refine wp_bind.mpr ((failRestore_settles ht).mono ?_ fun _ _ h => h)
        exact fun _ _ h => h
      | waiting => exact ht.settled
      | done => exact leave_settles (r := .requeue) ht
  · rw [removal, if_neg htype]
    exact leave_settles hs

/-- A launch that is noted changes nothing but the list of launches. -/
theorem wp_noteLaunch {Q : Unit → Session → Prop} {R : Result → Session → Prop} {c : Prop}
    [Decidable c] {op : RestoreOp} (hs : InStep s)
    (h : ∀ t : Session, InStep t → t.restoreView = { s.restoreView with
      launches := (if c then [op] else []) ++ s.restoreView.launches } → Q () t) :
    wp (when c (noteLaunch op)) Q R s := by
  refine wp_when.mpr ⟨fun hc => ?_, fun hc => ?_⟩
  · have hsame := hs.same
    refine h { s with launches := op :: s.launches } ⟨hs.current, ?_⟩ ?_
    · exact congrArg (fun v : RestoreView => { v with launches := op :: s.launches }) hsame
    · rw [if_pos hc]
      rfl
  · apply h s hs
    rw [if_neg hc]
    rfl

theorem launchSnapshot_settles {sp : StsParams} (hs : InStep s) :
    Settles env (launchSnapshot env sp) s { s.restoreView with
      launches := (if rebuilds env s.mem sp then
        [.snapshot s.restoreView.restoreTime] else []) ++ s.restoreView.launches } := by
  have htime : s.mem.status.lastRestoreTime = s.restoreView.restoreTime :=
    congrArg (·.restoreTime) hs.same
  refine wp_bind.mpr (wp_get.mpr (wp_bind.mpr ?_))
  apply untouched_createFromSnapshot.mono _ fun _ _ h => h
  intro ok t ht
  refine wp_bind.mpr (wp_noteLaunch (ht.inStep hs) ?_)
  intro u hu hview
  rw [wp_finish, hu.settled, hview, ht.restoreView, htime]

theorem launchPhysical_settles (hs : InStep s) :
    Settles env (launchPhysical env) s
      (let v := { s.restoreView with
        launches := (if env.physicalRestore.runs then
          [.physical s.restoreView.restoreTime (env.physicalRestore = .finished)]
          else []) ++ s.restoreView.launches }
      if env.physicalRestore = .finished then v.finish env .deferredStatus .true .restoreComplete
      else v) := by
  have htime : s.mem.status.lastRestoreTime = s.restoreView.restoreTime :=
    congrArg (·.restoreTime) hs.same
  refine wp_bind.mpr (wp_get.mpr (wp_bind.mpr (wp_noteLaunch hs ?_)))
  intro t ht hview
  rw [htime] at hview
  dsimp only
  rw [← hview]
  cases env.physicalRestore with
  | started => exact ht.settled
  | finished => exact succeedRestore_settles ht
  | alreadyExists => exact ht.settled
  | failed => exact ht.settled
  | lost => exact ht.settled

theorem startRestore_settles {restore : RestoreSpec} {sp : StsParams} (hs : InStep s) :
    Settles env (startRestore env restore sp) s (s.restoreView.start env sp s.mem restore) := by
  unfold RestoreView.start RestoreView.operation startRestore
  cases restore.backupType with
  | snapshot =>
    dsimp only
    rw [if_neg fun h => by cases h.1]
    exact launchSnapshot_settles hs
  | physical =>
    simp only [true_and]
    exact launchPhysical_settles hs
  | unset => exact hs.settled
  | logical => exact hs.settled

theorem launchRestore_settles {restore : RestoreSpec} {sp : StsParams} (hs : InStep s) :
    Settles env (launchRestore env restore sp) s (s.restoreView.launch env sp s.stored restore) := by
  unfold RestoreView.launch
  refine wp_bind.mpr (wp_setReady ?_)
  intro t ht hview hmem hstored
  rw [hs.same] at hmem
  refine wp_bind.mpr (wp_write_current (ht hs.current) ?_ ?_ ?_)
  · intro hc
    have hno : env.call .restoreStatus ≠ .ok := Outcome.ne_ok_of_not_served hc
    refine wp_bind.mpr (wp_when.mpr ⟨fun _ => ?_, fun h => absurd Bool.false_ne_true h⟩)
    rw [wp_finish, if_neg hno, settled_of_current (ht hs.current), hmem, hview,
      RestoreView.advance, RestoreView.written, hc, Bool.false_or]
  · intro hc u hustored humem hl
    have hno : env.call .restoreStatus ≠ .ok := Outcome.ne_ok_of_lost hc
    have humview : u.memView = t.memView := restoreView_congr (by rw [humem]) hl
    have huview : u.restoreView = t.memView := restoreView_congr (by rw [hustored]) hl
    refine wp_bind.mpr (wp_when.mpr ⟨fun _ => ?_, fun h => absurd Bool.false_ne_true h⟩)
    rw [wp_finish, if_neg hno, settled_of_eq (humview.trans huview.symm), huview, hmem,
      RestoreView.advance, RestoreView.written, hc]
    rfl
  · intro hc u hustored humem hcur hl
    have huview : u.restoreView = t.memView := restoreView_congr (by rw [hustored]) hl
    have hu : InStep u := ⟨hcur, restoreView_congr (by rw [hustored, humem]) rfl⟩
    refine wp_bind.mpr (wp_when.mpr ⟨fun h => absurd rfl h, fun _ => ?_⟩)
    have hstart : Settles env (startRestore env restore sp) u
        (u.restoreView.start env sp u.mem restore) := startRestore_settles hu
    have hsame : u.restoreView.start env sp u.mem restore =
        u.restoreView.start env sp s.stored restore := by
      rw [humem, hstored]
      rfl
    rw [if_pos hc, ← hmem, ← huview, ← hsame]
    exact hstart

theorem awaitRestore_settles {restore : RestoreSpec} (hs : InStep s) :
    Settles env (awaitRestore env restore) s
      (match restore.backupType with
      | .snapshot =>
        if stsComplete env s then
          s.restoreView.advance env .bootstrapStatus .postRestoreBootstrapInProgress
        else s.restoreView
      | .physical =>
        if ¬ env.physicalRestoreDone then s.restoreView
        else if env.physicalRestoreError then
          s.restoreView.finish env .deferredStatus .false .restoreFailed
        else s.restoreView.advance env .bootstrapStatus .postRestoreBootstrapInProgress
      | _ => s.restoreView.finish env .deferredStatus .false .restoreFailed) := by
  refine wp_bind.mpr (wp_get.mpr ?_)
  cases restore.backupType with
  | snapshot =>
    dsimp only
    split
    · exact commit_settles hs
    · exact hs.settled
  | physical =>
    dsimp only
    split
    · exact hs.settled
    · split
      · refine wp_bind.mpr ((failRestore_settles hs).mono ?_ fun _ _ h => h)
        exact fun _ _ h => h
      · exact commit_settles hs
  | unset => exact failRestore_settles hs
  | logical => exact failRestore_settles hs

theorem bootstrapRestored_settles {restore : RestoreSpec} (hs : InStep s) :
    Settles env (bootstrapRestored env restore) s
      (if restore.backupType = .physical ∧ ¬ env.bootstrapDatabase then
        s.restoreView.finish env .deferredStatus .false .restoreFailed
      else if restore.backupType = .snapshot ∧ ¬ env.oracleRunning then s.restoreView
      else s.restoreView.advance env .bootstrappedStatus .postRestoreBootstrapComplete) := by
  unfold bootstrapRestored
  split
  · exact failRestore_settles hs
  · refine wp_bind.mpr (wp_when.mpr ⟨fun hwait => ?_, fun hwait => ?_⟩)
    · rw [if_pos hwait]
      exact hs.settled
    · rw [if_neg hwait]
      exact commit_settles hs

/-- A success is written once more before the reconcile goes on. -/
theorem succeedAndWrite_settles {message : String} (hs : InStep s) :
    Settles env (do
      let _ ← setRestoreSucceeded env message
      let ok ← updateStatus env .restoredStatus
      when (¬ ok) (finish .error)) s
      (s.restoreView.finish env .restoredStatus .true .restoreComplete) := by
  refine wp_bind.mpr ((wp_endRestore hs.current).mono ?_ fun _ _ h => h)
  intro ok t ht
  -- the rest only writes, so what it settles is all that matters
  have hrest : ∀ v : RestoreView, wp (updateStatus env .restoredStatus)
      (fun _ u => u.settled env = v) (fun _ u => u.settled env = v) t →
      wp (do
        let ok ← updateStatus env .restoredStatus
        when (¬ ok) (finish .error) : P Unit) (fun _ u => u.settled env = v)
        (fun _ u => u.settled env = v) t := by
    intro v h
    refine wp_bind.mpr (h.mono ?_ fun _ _ h => h)
    intro ok u hu
    exact wp_when.mpr ⟨fun _ => hu, fun _ => hu⟩
  apply hrest
  unfold RestoreView.finish
  rw [← hs.same]
  cases ht with
  | whole hrelease hspec hcur hmem hstored =>
    apply wp_updateStatus_settled hcur
    intro ok u hu
    rw [hu, hmem, hstored, hrelease, hspec]
    simp [Outcome.served]
  | kept hrelease hcur hmem hstored =>
    have hno : env.call .releaseLock ≠ .ok := Outcome.ne_ok_of_not_served hrelease
    apply wp_updateStatus_settled hcur
    intro ok u hu
    rw [hu, hmem, hstored, hrelease, hs.same]
    simp [hno]
  | half hrelease hnot hmem hstored =>
    apply wp_updateStatus_same (hmem.trans hstored.symm)
    intro ok u hu
    rw [hu, hstored, if_neg fun h => hnot ⟨h.1, h.2.1⟩, if_pos (.inl hrelease)]

theorem patchRestored_settles {backup : Backup} (hs : InStep s) :
    Settles env (patchRestored env backup) s
      (if valueAt backup.annotations databaseImageAnnotation =
          imageAt s.mem.status.activeImages "service" then
        s.restoreView.finish env .restoredStatus .true .restoreComplete
      else if env.applyDataPatch then
        s.restoreView.advance env .datapatchStatus .postRestoreDatabasePatchingInProgress
      else s.restoreView.fail env) := by
  refine wp_bind.mpr (wp_get.mpr ?_)
  split
  · exact succeedAndWrite_settles hs
  · split
    · exact commit_settles hs
    · exact failEarly_settles hs

theorem awaitRestoredPatching_settles (hs : InStep s) :
    Settles env (awaitRestoredPatching env) s
      (match env.datapatch with
      | .failed => s.restoreView.fail env
      | .waiting => s.restoreView
      | .done => s.restoreView.finish env .deferredStatus .true .restoreComplete) := by
  unfold awaitRestoredPatching
  cases env.datapatch with
  | failed => exact failEarly_settles hs
  | waiting => exact hs.settled
  | done => exact succeedRestore_settles hs

end States

section Refinement

variable (env : Env) (sp : StsParams) (w : World)

theorem inStep_session : InStep w.session := ⟨rfl, rfl⟩

theorem restoreState_settles (restore : RestoreSpec) (backup : Backup) (reason : Reason) :
    Settles env (restoreState env sp restore backup reason) w.session
      (persistedState env sp w restore backup reason) := by
  have hs := inStep_session w
  unfold restoreState persistedState
  cases reason with
  | restoreComplete => exact acceptRequest_settles hs
  | createComplete => exact acceptRequest_settles hs
  | restoreFailed => exact acceptRequest_settles hs
  | restorePreparationInProgress => exact prepareRestore_settles hs
  | restorePreparationComplete => exact launchRestore_settles hs
  | restoreInProgress => exact awaitRestore_settles hs
  | postRestoreBootstrapInProgress => exact bootstrapRestored_settles hs
  | postRestoreBootstrapComplete => exact patchRestored_settles hs
  | postRestoreDatabasePatchingInProgress => exact awaitRestoredPatching_settles hs
  | _ => exact hs.settled

/-- The machine persists the view that is computed from the answers. -/
theorem restoreReconcile_restoreView :
    (restoreReconcile env sp w).restoreView = persisted env sp w := by
  unfold restoreReconcile persisted
  split
  · rfl
  · rw [updateStatus_deferred, handleRestore_eq]
    have hs := inStep_session w
    change _ = match decision env w.session.mem with
      | .skip | .wait => w.restoreView
      | .reject _ => w.restoreView.finish env .deferredStatus .false .restoreFailed
      | .serve restore backup reason => persistedState env sp w restore backup reason
    cases decision env w.session.mem with
    | skip => exact hs.settled
    | wait => exact hs.settled
    | reject message => exact (failRestore_settles hs).state
    | serve restore backup reason => exact (restoreState_settles env sp w restore backup reason).state

end Refinement

section Statements

variable {env : Env} {rel : Session → Session → Prop}

/-- The statements of the restore machine stay within a relation, the launch aside. -/
structure Confines (env : Env) (rel : Session → Session → Prop) : Prop where
  setReady : ∀ status reason message, Within rel (setReady env status reason message)
  setLock : ∀ owner, Within rel (setStatus fun st => { st with lockedByController := owner })
  setRequest : ∀ time,
    Within rel (setStatus fun st => { st with lastRestoreTime := time, backupID := "" })
  removeRequest :
    Within rel (setMem fun inst => { inst with spec := { inst.spec with restore := none } })
  updateStatus : ∀ c, Within rel (updateStatus env c)
  update : ∀ c, Within rel (update env c)
  deleteOld : ∀ sp, Within rel (deleteOldSTSandPVCs env .restore sp)

namespace Confines

variable [Std.Refl rel] [IsTrans Session rel] (h : Confines env rel)
include h

theorem acquire {owner : String} : Within rel (acquireInstanceMaintenanceLock env owner) := by
  refine .bind .get fun _ => .bind (.when fun _ => h.setLock _) fun _ => ?_
  exact .bind (h.updateStatus _) fun _ => .pure _

theorem endRestore {status : CondStatus} {reason : Reason} {message : String} :
    Within rel (endRestore env status reason message) := by
  have hrelease : Within rel (releaseInstanceMaintenanceLock env instanceController) :=
    .bind .get fun _ => .bind (.when fun _ => h.setLock _) fun _ => h.updateStatus _
  refine .bind hrelease fun _ => .ite (fun _ => .pure _) fun _ => .bind h.removeRequest fun _ => ?_
  refine .bind (h.update _) fun _ => .ite (fun _ => .pure _) fun _ => ?_
  exact .bind (h.setReady _ _ _) fun _ => .pure _

theorem failRestore {message : String} : Within rel (failRestore env message) :=
  .bind h.endRestore fun _ => .when fun _ => .finish _

theorem commit {reason : Reason} {message : String} {c : Call} {r : Result} :
    Within rel (commit env reason message c r) :=
  .bind (h.setReady _ _ _) fun _ => .bind (h.updateStatus _) fun _ => .finish _

theorem acceptRequest {restore : RestoreSpec} : Within rel (acceptRequest env restore) := by
  refine .bind .get fun _ => .ite (fun _ => .pure _) fun _ => .bind h.acquire fun _ => ?_
  exact .bind (.when fun _ => .finish _) fun _ => .bind (h.setRequest _) fun _ => h.commit

theorem prepareRestore {restore : RestoreSpec} {sp : StsParams} :
    Within rel (prepareRestore env restore sp) := by
  refine .bind (.when fun _ => .bind (h.deleteOld sp) ?_) fun _ => ?_
  · intro poll
    cases poll with
    | failed => exact .bind h.failRestore fun _ => .finish _
    | waiting => exact .finish _
    | done => exact .pure _
  · exact .bind (h.setReady _ _ _) fun _ => .finish _

theorem awaitRestore {restore : RestoreSpec} : Within rel (awaitRestore env restore) := by
  refine .bind .get fun s => ?_
  cases restore.backupType with
  | snapshot => exact .ite (fun _ => h.commit) fun _ => .finish _
  | physical =>
    refine .ite (fun _ => .finish _) fun _ => .ite (fun _ => ?_) fun _ => h.commit
    exact .bind h.failRestore fun _ => .finish _
  | unset => exact h.failRestore
  | logical => exact h.failRestore

theorem bootstrapRestored {restore : RestoreSpec} : Within rel (bootstrapRestored env restore) := by
  refine .ite (fun _ => h.failRestore) fun _ => ?_
  exact .bind (.when fun _ => .finish _) fun _ => h.commit

theorem patchRestored {backup : Backup} : Within rel (patchRestored env backup) := by
  refine .bind .get fun s => .ite (fun _ => ?_) fun _ => .ite (fun _ => h.commit) fun _ => ?_
  · refine .bind h.endRestore fun _ => .bind (h.updateStatus _) fun _ => ?_
    exact .when fun _ => .finish _
  · exact .bind (h.setReady _ _ _) fun _ => .bind h.endRestore fun _ => .pure _

theorem awaitRestoredPatching : Within rel (awaitRestoredPatching env) := by
  unfold Reconciler.awaitRestoredPatching
  cases env.datapatch with
  | failed => exact .bind (h.setReady _ _ _) fun _ => .bind h.endRestore fun _ => .pure _
  | waiting => exact .finish _
  | done => exact .bind h.endRestore fun _ => .finish _

theorem restoreState {sp : StsParams} {restore : RestoreSpec} {backup : Backup} {reason : Reason}
    (hlaunch : Within rel (launchRestore env restore sp)) :
    Within rel (restoreState env sp restore backup reason) := by
  unfold Reconciler.restoreState
  cases reason with
  | restoreComplete => exact h.acceptRequest
  | createComplete => exact h.acceptRequest
  | restoreFailed => exact h.acceptRequest
  | restorePreparationInProgress => exact h.prepareRestore
  | restorePreparationComplete => exact hlaunch
  | restoreInProgress => exact h.awaitRestore
  | postRestoreBootstrapInProgress => exact h.bootstrapRestored
  | postRestoreBootstrapComplete => exact h.patchRestored
  | postRestoreDatabasePatchingInProgress => exact h.awaitRestoredPatching
  | _ => exact .pure _

theorem handleRestore {sp : StsParams}
    (hlaunch : ∀ restore, Within rel (launchRestore env restore sp)) :
    Within rel (handleRestore env sp) := by
  intro s
  rw [wp_congr (handleRestore_eq env sp s)]
  cases decision env s.mem with
  | skip => exact Within.pure _ s
  | wait => exact Within.finish _ s
  | reject message => exact h.failRestore s
  | serve restore backup reason => exact h.restoreState (hlaunch restore) s

end Confines

end Statements

end ElCarro.Instance.Reconciler
