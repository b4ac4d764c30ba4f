import ElCarro.Instance.RestoreLaunch

/-! # The maintenance lock during a restore

The lock, the request and the outcome are written one after the other: a restore
that ends releases the lock first, and one that begins takes it first. The lock
goes with the restore as long as these writes are made together or not at all,
and as long as a reconcile that finds an operation running goes on with its
restore.
-/

namespace ElCarro.Instance.Reconciler

open GoTime K8s Api Flow

section Property

/-- The instance controller owns the lock during a restore and while an operation runs, and does
not own it once the restore is over. -/
structure Guarded (v : RestoreView) : Prop where
  chain : ∀ r ∈ v.ready, chainReason r.2 = true → v.lock = instanceController
  running : ∀ op ∈ v.launches, op.finished = false → v.lock = instanceController
  ended : ∀ r ∈ v.ready, endReason r.2 = true → v.lock ≠ instanceController

instance (v : RestoreView) : Decidable (Guarded v) :=
  decidable_of_iff
    ((∀ r ∈ v.ready, chainReason r.2 = true → v.lock = instanceController) ∧
      (∀ op ∈ v.launches, op.finished = false → v.lock = instanceController) ∧
      ∀ r ∈ v.ready, endReason r.2 = true → v.lock ≠ instanceController)
    ⟨fun ⟨hc, hr, he⟩ => ⟨hc, hr, he⟩, fun h => ⟨h.chain, h.running, h.ended⟩⟩

variable (env : Env) (sp : StsParams) (w : World)

/-- The write that has to store the outcome, of a reconcile that ends the restore. -/
def endingCall : Option Call :=
  match decision env w.stored with
  | .skip | .wait => none
  | .reject _ => some .deferredStatus
  | .serve restore backup reason =>
    match reason with
    | .restorePreparationInProgress =>
      if removal env sp restore w.session = .failed then some .deferredStatus else none
    | .restorePreparationComplete =>
      if env.call .restoreStatus = .ok ∧ restore.backupType = .physical ∧
        env.physicalRestore = .finished then some .deferredStatus else none
    | .restoreInProgress =>
      match restore.backupType with
      | .snapshot => none
      | .physical =>
        if env.physicalRestoreDone ∧ env.physicalRestoreError then some .deferredStatus else none
      | _ => some .deferredStatus
    | .postRestoreBootstrapInProgress =>
      if restore.backupType = .physical ∧ ¬ env.bootstrapDatabase then some .deferredStatus else none
    | .postRestoreBootstrapComplete =>
      if valueAt backup.annotations databaseImageAnnotation =
        imageAt w.stored.status.activeImages "service" then some .restoredStatus else none
    | .postRestoreDatabasePatchingInProgress =>
      if env.datapatch = .done then some .deferredStatus else none
    | _ => none

/-- The lock is released, the request removed and the outcome stored, or nothing of it. -/
def EndsWhole (c : Call) : Prop :=
  (env.call .releaseLock = .ok ∧ env.call .restoreSpec = .ok ∧ RestoreView.written env c = true) ∨
    (env.call .releaseLock).served = false ∧ RestoreView.written env c = false

/-- The reconcile gets to accept a request, with the lock free. -/
def accepts : Bool :=
  match decision env w.stored with
  | .serve restore _ reason =>
    endReason reason && !turnsDown w.stored restore && w.stored.status.lockedByController = ""
  | _ => false

/-- The lock is taken and the acceptance stored, or nothing of it. -/
def AcceptsWhole : Prop :=
  (env.call .acquireLock = .ok ∧ RestoreView.written env .preparationStatus = true) ∨
    RestoreView.written env .acquireLock = false

/-- A reconcile that finds the operation running goes on with its restore, or does nothing. -/
def GoesOn (op : RestoreOp) : Prop :=
  match decision env w.stored with
  | .skip | .wait => True
  | .reject _ => False
  | .serve restore _ reason => reason = .restoreInProgress ∧
    restore.backupType = op.backupType ∧ w.stored.status.lastRestoreTime = op.restoreTime

/-- Writes that belong together are made together, and no operation is left behind. -/
def Orderly : RestoreEvent → Prop
  | .reconcile env sp => reached env .getInstance →
    (∀ c ∈ endingCall env sp w, (∀ r ∈ w.reason, chainReason r = true) → EndsWhole env c) ∧
    (accepts env w = true → AcceptsWhole env) ∧
    ∀ op ∈ w.launches, op.finished = false → GoesOn env w op
  | .outside _ => True
  | .finish _ => True

instance (c : Call) : Decidable (EndsWhole env c) := inferInstanceAs (Decidable (_ ∨ _))

instance : Decidable (AcceptsWhole env) := inferInstanceAs (Decidable (_ ∨ _))

instance (op : RestoreOp) : Decidable (GoesOn env w op) := by
  unfold GoesOn
  split <;> infer_instance

instance : (e : RestoreEvent) → Decidable (Orderly w e)
  | .reconcile _ _ => inferInstanceAs (Decidable (_ → _))
  | .outside _ | .finish _ => isTrue trivial

end Property

section Moves

variable {env : Env} {v : RestoreView} {c : Call} {status : CondStatus} {reason : Reason}

theorem instanceController_ne : instanceController ≠ "" := by decide

theorem releaseField_instanceController (locked : String) :
    releaseField instanceController locked ≠ instanceController :=
  releaseField_ne ⟨instanceController, instanceController_ne⟩ locked

/-- Within the chain a reason can be set, with the lock held. -/
theorem Guarded.setReady (hlock : v.lock = instanceController) (hr : endReason reason = false) :
    Guarded (v.setReady status reason) where
  chain _ _ _ := hlock
  running _ _ _ := hlock
  ended := by
    rintro r ⟨⟩ he
    rw [hr] at he
    cases he

theorem Guarded.advance (hv : Guarded v) (hlock : v.lock = instanceController)
    (hr : endReason reason = false) : Guarded (v.advance env c reason) := by
  unfold RestoreView.advance
  split
  · exact .setReady hlock hr
  · exact hv

/-- No operation is running, and the lock is not ours: an outcome can be set. -/
theorem Guarded.over (hnone : ∀ op ∈ v.launches, op.finished = true)
    (hr : chainReason reason = false) : Guarded (v.release.setReady status reason) where
  chain := by
    rintro r ⟨⟩ hc
    rw [hr] at hc
    cases hc
  running := by
    intro op hop hf
    rw [hnone op hop] at hf
    cases hf
  ended _ _ _ := releaseField_instanceController _

theorem Guarded.finish (hv : Guarded v) (hnone : ∀ op ∈ v.launches, op.finished = true)
    (hr : chainReason reason = false)
    (hwhole : (∀ r ∈ v.ready, chainReason r.2 = true) → EndsWhole env c) :
    Guarded (v.finish env c status reason) := by
  unfold RestoreView.finish
  split
  · exact .over hnone hr
  · next hno =>
    split
    · next hpart =>
      have hchain : ¬ ∀ r ∈ v.ready, chainReason r.2 = true := by
        intro h
        rcases hwhole h with h | ⟨hserved, hwritten⟩
        · exact hno h
        · rcases hpart with h | h
          · rw [hserved] at h
            cases h
          · rw [hwritten] at h
            cases h
      constructor
      · intro r hr hc
        apply absurd _ hchain
        intro r' hr'
        obtain rfl := Option.some.inj (Option.mem_def.mp hr ▸ Option.mem_def.mp hr')
        exact hc
      · intro op hop hf
        rw [hnone op hop] at hf
        cases hf
      · exact fun _ _ _ => releaseField_instanceController _
    · exact hv

theorem Guarded.fail (hv : Guarded v) (hnone : ∀ op ∈ v.launches, op.finished = true) :
    Guarded (v.fail env) := by
  unfold RestoreView.fail
  split
  · exact .over hnone rfl
  · exact hv

theorem Guarded.accept {restore : RestoreSpec} (hv : Guarded v)
    (hchain : ∀ r ∈ v.ready, chainReason r.2 = false)
    (hwhole : (∃ r ∈ v.ready, endReason r.2 = true) → v.lock = "" → AcceptsWhole env) :
    Guarded (v.accept env restore) := by
  unfold RestoreView.accept
  split
  · next hok =>
    constructor
    · exact fun _ _ _ => hok.2.1
    · exact fun _ _ _ => hok.2.1
    · rintro r ⟨⟩ he
      cases he
  · next hno =>
    split
    · next hpart =>
      constructor
      · intro r hr hc
        rw [hchain r hr] at hc
        cases hc
      · intro op hop hf
        change acquireField instanceController v.lock = instanceController
        rw [hv.running op hop hf]
        rfl
      · intro r hr he
        change acquireField instanceController v.lock ≠ instanceController
        by_cases hfree : v.lock = ""
        · rcases hwhole ⟨r, hr, he⟩ hfree with ⟨hok, hwritten⟩ | hwritten
          · apply absurd _ hno
            exact ⟨hok, if_pos hfree, hwritten⟩
          · rw [hwritten] at hpart
            cases hpart
        · rw [acquireField_of_ne hfree]
          exact hv.ended r hr he
    · exact hv

end Moves

section Steps

variable {env : Env} {sp : StsParams} {w w' : World} {restore : RestoreSpec} {backup : Backup}
  {reason : Reason} {c : Call}

theorem ready_of_serve (h : decision env w.stored = .serve restore backup reason) :
    ∃ status, w.restoreView.ready = some (status, reason) := (decision_serve h).2

/-- What a reconcile that meets the condition can rely on when it serves a request. -/
structure Serving (env : Env) (sp : StsParams) (w : World) (restore : RestoreSpec) (backup : Backup)
    (reason : Reason) : Prop where
  guarded : Guarded w.restoreView
  serve : decision env w.stored = .serve restore backup reason
  truthful : Truthful env w
  ends : ∀ c ∈ endingCall env sp w, (∀ r ∈ w.reason, chainReason r = true) → EndsWhole env c
  accepts : accepts env w = true → AcceptsWhole env
  goesOn : ∀ op ∈ w.launches, op.finished = false → GoesOn env w op

namespace Serving

variable (h : Serving env sp w restore backup reason)
include h

theorem lock (hr : chainReason reason = true) : w.restoreView.lock = instanceController := by
  obtain ⟨status, hready⟩ := ready_of_serve h.serve
  exact h.guarded.chain _ hready hr

theorem running {op : RestoreOp} (hop : op ∈ w.launches) (hf : op.finished = false) :
    reason = .restoreInProgress ∧ restore.backupType = op.backupType ∧
      w.stored.status.lastRestoreTime = op.restoreTime := by
  have hgoes := h.goesOn op hop hf
  simp only [GoesOn, h.serve] at hgoes
  exact hgoes

theorem none_running (hr : reason ≠ .restoreInProgress) :
    ∀ op ∈ w.restoreView.launches, op.finished = true := by
  intro op hop
  by_contra hf
  exact hr (h.running hop (by simpa using hf)).1

/-- The chain reason is the stored one, so an end within the chain is made as a whole. -/
theorem endsWhole (hc : c ∈ endingCall env sp w) (hr : chainReason reason = true) :
    EndsWhole env c := by
  obtain ⟨status, hready⟩ := ready_of_serve h.serve
  apply h.ends c hc
  intro r hmem
  have hreason : w.reason = some reason := congrArg (Option.map Prod.snd) hready
  obtain rfl := Option.some.inj (hreason ▸ hmem)
  exact hr

theorem finish {status : CondStatus} {outcome : Reason} (hc : c ∈ endingCall env sp w)
    (hr : chainReason reason = true) (hout : chainReason outcome = false)
    (hnone : ∀ op ∈ w.restoreView.launches, op.finished = true) :
    Guarded (w.restoreView.finish env c status outcome) :=
  h.guarded.finish hnone hout fun _ => h.endsWhole hc hr

theorem advance {next : Reason} (hr : chainReason reason = true) (hnext : endReason next = false) :
    Guarded (w.restoreView.advance env c next) :=
  h.guarded.advance (h.lock hr) hnext

theorem accept (hr : reason = .restoreComplete ∨ reason = .createComplete ∨ reason = .restoreFailed) :
    Guarded (if turnsDown w.stored restore then w.restoreView
      else w.restoreView.accept env restore) := by
  obtain ⟨status, hready⟩ := ready_of_serve h.serve
  split
  · exact h.guarded
  · next hdown =>
    apply h.guarded.accept
    · intro r hmem
      obtain rfl := Option.some.inj (hready ▸ hmem)
      rcases hr with rfl | rfl | rfl <;> rfl
    · rintro ⟨r, hmem, he⟩ hfree
      obtain rfl := Option.some.inj (hready ▸ hmem)
      apply h.accepts
      have hfree : w.stored.status.lockedByController = "" := hfree
      simp only [Reconciler.accepts, h.serve]
      simp [he, hdown, hfree]

/-- The operation of a launch is finished, or the restore goes on with the lock. -/
theorem launch (hr : reason = .restorePreparationComplete) :
    Guarded (w.restoreView.launch env sp w.stored restore) := by
  subst hr
  have hlock := h.lock rfl
  have hnone := h.none_running (by decide)
  unfold RestoreView.launch
  split
  · next hok =>
    unfold RestoreView.start
    dsimp only
    split
    · next hfin =>
      apply Guarded.finish
      · exact ⟨fun _ _ _ => hlock, fun _ _ _ => hlock, by rintro r ⟨⟩ ⟨⟩⟩
      · intro op hop
        rcases List.mem_append.mp hop with hop | hop
        · simp only [RestoreView.operation, hfin.1, hfin.2] at hop
          simp only [Launch.runs] at hop
          obtain rfl := List.mem_singleton.mp hop
          rfl
        · exact hnone op hop
      · rfl
      · intro _
        apply h.endsWhole _ rfl
        simp only [endingCall, h.serve]
        rw [if_pos ⟨hok, hfin⟩]
        rfl
    · exact ⟨fun _ _ _ => hlock, fun _ _ _ => hlock, by rintro r ⟨⟩ ⟨⟩⟩
  · exact h.advance rfl rfl

/-- An operation that is done has finished, so the restore can be given up. -/
theorem await (hr : reason = .restoreInProgress) :
    Guarded (persistedState env sp w restore backup reason) := by
  subst hr
  have hmatch := fun op (hop : op ∈ w.launches) (hf : op.finished = false) => (h.running hop hf).2
  have hnone : restore.backupType ≠ .snapshot →
      (restore.backupType = .physical → env.physicalRestoreDone = true) →
      ∀ op ∈ w.restoreView.launches, op.finished = true := by
    intro hsnap hdone op hop
    by_contra hf
    obtain ⟨htype, htime⟩ := hmatch op hop (by simpa using hf)
    have hphysical : op.backupType = .physical := by
      rcases op.restores with hop' | hop'
      · exact absurd (htype.trans hop') hsnap
      · exact hop'
    exact hf ((h.truthful op hop htime.symm).2 hphysical (hdone (htype.trans hphysical)))
  have hend : restore.backupType ≠ .snapshot →
      (restore.backupType = .physical →
        env.physicalRestoreDone = true ∧ env.physicalRestoreError = true) →
      Guarded (w.restoreView.finish env .deferredStatus .false .restoreFailed) := by
    intro hsnap hdone
    apply h.finish _ rfl rfl (hnone hsnap fun ht => (hdone ht).1)
    simp only [endingCall, h.serve]
    cases htype : restore.backupType with
    | snapshot => exact absurd htype hsnap
    | physical =>
      dsimp only
      rw [if_pos (hdone htype)]
      rfl
    | unset => rfl
    | logical => rfl
  unfold persistedState
  cases htype : restore.backupType with
  | snapshot =>
    dsimp only
    split
    · exact h.advance rfl rfl
    · exact h.guarded
  | physical =>
    dsimp only
    split
    · exact h.guarded
    · next hdone =>
      split
      · next herror =>
        apply hend (by rw [htype]; decide)
        exact fun _ => ⟨not_not.mp hdone, herror⟩
      · exact h.advance rfl rfl
  | unset =>
    apply hend (by rw [htype]; decide)
    intro ht
    rw [htype] at ht
    cases ht
  | logical =>
    apply hend (by rw [htype]; decide)
    intro ht
    rw [htype] at ht
    cases ht

theorem persistedState : Guarded (persistedState env sp w restore backup reason) := by
  have hending : ∀ c', endingCall env sp w = some c' → c' ∈ endingCall env sp w :=
    fun _ h => Option.mem_def.mpr h
  by_cases hr : reason = .restoreInProgress
  · exact h.await hr
  · have hnone := h.none_running hr
    unfold Reconciler.persistedState
    cases reason with
    | restoreComplete => exact h.accept (.inl rfl)
    | createComplete => exact h.accept (.inr (.inl rfl))
    | restoreFailed => exact h.accept (.inr (.inr rfl))
    | restorePreparationInProgress =>
      cases hpoll : removal env sp restore w.session with
      | failed =>
        apply h.finish (hending _ _) rfl rfl hnone
        simp only [endingCall, h.serve, hpoll, if_true]
      | waiting => exact h.guarded
      | done => exact h.advance rfl rfl
    | restorePreparationComplete => exact h.launch rfl
    | restoreInProgress => exact absurd rfl hr
    | postRestoreBootstrapInProgress =>
      dsimp only
      split
      · next hfailed =>
        apply h.finish (hending _ _) rfl rfl hnone
        simp only [endingCall, h.serve]
        exact if_pos hfailed
      · split
        · exact h.guarded
        · exact h.advance rfl rfl
    | postRestoreBootstrapComplete =>
      dsimp only
      split
      · next himage =>
        apply h.finish (hending _ _) rfl rfl hnone
        simp only [endingCall, h.serve]
        exact if_pos himage
      · split
        · exact h.advance rfl rfl
        · exact h.guarded.fail hnone
    | postRestoreDatabasePatchingInProgress =>
      cases hpoll : env.datapatch with
      | failed => exact h.guarded.fail hnone
      | waiting => exact h.guarded
      | done =>
        apply h.finish (hending _ _) rfl rfl hnone
        simp only [endingCall, h.serve, hpoll, if_true]
    | _ => exact h.guarded

end Serving

theorem guarded_reconcile (hw : Guarded w.restoreView) (htruthful : Truthful env w)
    (hok : Orderly w (.reconcile env sp)) : Guarded (restoreReconcile env sp w).restoreView := by
  rw [restoreReconcile_restoreView]
  unfold persisted
  split
  · exact hw
  · next hget =>
    obtain ⟨hends, haccepts, hgoes⟩ := hok (not_not.mp hget)
    cases hd : decision env w.stored with
    | skip => exact hw
    | wait => exact hw
    | reject message =>
      apply hw.finish _ rfl
      · intro hchain
        apply hends _ (by simp only [endingCall, hd]; rfl)
        intro r hr
        obtain ⟨v, hv, rfl⟩ := Option.map_eq_some_iff.mp (Option.mem_def.mp hr)
        exact hchain v hv
      · intro op hop
        by_contra hf
        have hno := hgoes op hop (by simpa using hf)
        simp only [GoesOn, hd] at hno
    | serve restore backup reason =>
      exact Serving.persistedState ⟨hw, hd, htruthful, hends, haccepts, hgoes⟩

theorem Guarded.outside {v v' : RestoreView} (hv : Guarded v) (h : Outside v v') : Guarded v' := by
  constructor
  · intro r hr hc
    rcases h.ready with heq | hno
    · have hlock := hv.chain r (heq ▸ hr) hc
      rcases h.lock with hl | ⟨hl, -⟩
      · exact hl.trans hlock
      · exact absurd hlock hl
    · rw [(hno r hr).1] at hc
      cases hc
  · intro op hop hf
    have hlock := hv.running op (h.launches ▸ hop) hf
    rcases h.lock with hl | ⟨hl, -⟩
    · exact hl.trans hlock
    · exact absurd hlock hl
  · intro r hr he
    rcases h.ready with heq | hno
    · rcases h.lock with hl | ⟨-, hl⟩
      · rw [hl]
        exact hv.ended r (heq ▸ hr) he
      · exact hl
    · rw [(hno r hr).2] at he
      cases he

theorem guarded_step {e : RestoreEvent} (hw : Guarded w.restoreView) (hok : Orderly w e)
    (h : restoreStep w e = some w') : Guarded w'.restoreView := by
  cases e with
  | reconcile env sp =>
    simp only [restoreStep, Option.ite_none_right_eq_some] at h
    obtain ⟨htruthful, h⟩ := h
    obtain rfl := Option.some.inj h
    exact guarded_reconcile hw htruthful hok
  | outside u =>
    simp only [restoreStep, Option.ite_none_right_eq_some] at h
    obtain ⟨hout, h⟩ := h
    obtain rfl := Option.some.inj h
    exact hw.outside hout
  | finish op =>
    obtain rfl := Option.some.inj h
    refine ⟨hw.chain, ?_, hw.ended⟩
    intro op' hop' hf
    obtain ⟨op₀, hop₀, rfl⟩ := List.mem_map.mp hop'
    apply hw.running op₀ hop₀
    unfold RestoreOp.finish at hf
    split at hf
    · cases hf
    · exact hf

end Steps

section Sample

/-- The Backup is deleted while its snapshots are being restored. -/
def deletedBackup (now : Time) : Env :=
  { calm now with catalog := { oneSnapshot with backups := [] }, progress := 50 }

/-- The restore comes to its end, with every write served. -/
def completedRestore : List RestoreEvent :=
  launchedRestore ++ List.replicate 4 (.reconcile (calm 4000) restoreParams)

end Sample

end ElCarro.Instance.Reconciler
