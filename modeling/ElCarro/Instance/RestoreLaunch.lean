import ElCarro.Instance.RestoreView

/-! # A restore in progress has been launched

The machine persists RestoreInProgress before it launches the restore, and from
there it only polls. A launch that fails, or a write that is served although its
caller sees an error, leaves an instance that waits for an operation nobody has
started.
-/

namespace ElCarro.Instance.Reconciler

open GoTime K8s Api Flow

section System

/-- Reasons from the acceptance of a request to its end. -/
def chainReason : Reason → Bool
  | .restorePreparationInProgress | .restorePreparationComplete | .restoreInProgress
  | .postRestoreBootstrapInProgress | .postRestoreBootstrapComplete
  | .postRestoreDatabasePatchingInProgress => true
  | _ => false

def endReason (r : Reason) : Bool := r = .restoreComplete ∨ r = .restoreFailed

/-- The rest of the operator and the user: they set no reason of a restore, accept no request,
and leave the lock of the instance controller alone. -/
structure Outside (v v' : RestoreView) : Prop where
  ready : v'.ready = v.ready ∨ ∀ r ∈ v'.ready, chainReason r.2 = false ∧ endReason r.2 = false
  lock : v'.lock = v.lock ∨ v.lock ≠ instanceController ∧ v'.lock ≠ instanceController
  restoreTime : v'.restoreTime = v.restoreTime
  launches : v'.launches = v.launches

instance (v v' : RestoreView) : Decidable (Outside v v') :=
  decidable_of_iff
    ((v'.ready = v.ready ∨ ∀ r ∈ v'.ready, chainReason r.2 = false ∧ endReason r.2 = false) ∧
      (v'.lock = v.lock ∨ v.lock ≠ instanceController ∧ v'.lock ≠ instanceController) ∧
      v'.restoreTime = v.restoreTime ∧ v'.launches = v.launches)
    ⟨fun ⟨hr, hl, ht, ho⟩ => ⟨hr, hl, ht, ho⟩, fun h => ⟨h.ready, h.lock, h.restoreTime, h.launches⟩⟩

def RestoreOp.finish (op op' : RestoreOp) : RestoreOp :=
  if op' = op then { op' with finished := true } else op'

theorem RestoreOp.finish_restoreTime (op op' : RestoreOp) :
    (op.finish op').restoreTime = op'.restoreTime := by
  unfold RestoreOp.finish
  split <;> rfl

/-- The polls say that a restore is done only when its operation has finished. -/
def Truthful (env : Env) (w : World) : Prop :=
  ∀ op ∈ w.launches, op.restoreTime = w.stored.status.lastRestoreTime →
    (op.backupType = .snapshot → stsComplete env w.session = true → op.finished = true) ∧
    (op.backupType = .physical → env.physicalRestoreDone = true → op.finished = true)

instance (env : Env) (w : World) : Decidable (Truthful env w) :=
  inferInstanceAs (Decidable (∀ _ ∈ _, _))

inductive RestoreEvent where
  | reconcile (env : Env) (sp : StsParams)
  | outside (w : World)
  /-- A launched operation comes to its end. -/
  | finish (op : RestoreOp)

def restoreStep (w : World) : RestoreEvent → Option World
  | .reconcile env sp => if Truthful env w then some (restoreReconcile env sp w) else none
  | .outside w' => if Outside w.restoreView w'.restoreView then some w' else none
  | .finish op => some { w with launches := w.launches.map op.finish }

end System

section Property

def World.reason (w : World) : Option Reason := (readyView w.stored).map Prod.snd

/-- The restore of the last request that was accepted has been launched. -/
def Launched (w : World) : Prop :=
  ∃ op ∈ w.launches, op.restoreTime = w.stored.status.lastRestoreTime

instance (w : World) : Decidable (Launched w) := inferInstanceAs (Decidable (∃ _ ∈ _, _))

/-- A reconcile in which every call succeeds. -/
structure Healthy (env : Env) : Prop where
  call : ∀ c, env.call c = .ok
  launch : env.physicalRestore = .started ∨ env.physicalRestore = .finished
  poll : env.physicalRestoreError = true → env.physicalRestoreDone = true

/-- The next healthy reconcile launches the restore or gives it up. -/
def Recovers (w : World) : Prop :=
  ∀ env sp, Healthy env → Launched (restoreReconcile env sp w) ∨
    (restoreReconcile env sp w).reason = some .restoreFailed

def LaunchedOrRecovers (w : World) : Prop :=
  w.reason = some .restoreInProgress → Launched w ∨ Recovers w

/-- The launch has its effect, whether or not the caller gets to know. -/
def launchTakes (env : Env) (sp : StsParams) (inst : Instance) (restore : RestoreSpec) : Bool :=
  restore.backupType = .snapshot ∧ rebuilds env inst sp ∨
    restore.backupType = .physical ∧ env.physicalRestore.runs

/-- A reconcile that gets to the launch: it either writes the reason and launches the restore,
or writes nothing. -/
def LaunchesWhole (w : World) : RestoreEvent → Prop
  | .reconcile env sp =>
    match decision env w.stored with
    | .serve restore _ .restorePreparationComplete =>
      reached env .getInstance → Launched w ∨
        (env.call .restoreStatus = .ok ∧ launchTakes env sp w.stored restore) ∨
        RestoreView.written env .restoreStatus = false
    | _ => True
  | .outside _ => True
  | .finish _ => True

instance (w : World) (e : RestoreEvent) : Decidable (LaunchesWhole w e) := by
  unfold LaunchesWhole
  split
  · split <;> infer_instance
  · infer_instance
  · infer_instance

end Property

namespace RestoreView

variable {env : Env} {v : RestoreView} {c : Call} {status : CondStatus} {reason : Reason}

def Launched (v : RestoreView) : Prop := ∃ op ∈ v.launches, op.restoreTime = v.restoreTime

/-- A view that waits only for what was launched. -/
def Sound (v : RestoreView) : Prop :=
  v.ready.map Prod.snd = some .restoreInProgress → v.Launched

theorem sound_setReady (hr : reason ≠ .restoreInProgress) : (v.setReady status reason).Sound := by
  intro h
  exact absurd (Option.some.inj h) hr

theorem Sound.advance (hv : v.Sound) (hr : reason ≠ .restoreInProgress) :
    (v.advance env c reason).Sound := by
  unfold RestoreView.advance
  split
  · exact sound_setReady hr
  · exact hv

theorem Sound.finish (hv : v.Sound) (hr : reason ≠ .restoreInProgress) :
    (v.finish env c status reason).Sound := by
  unfold RestoreView.finish
  split
  · exact sound_setReady hr
  · split
    · exact hv
    · exact hv

theorem Sound.fail (hv : v.Sound) : (v.fail env).Sound := by
  unfold RestoreView.fail
  split
  · exact sound_setReady (by decide)
  · exact hv

theorem Sound.accept {restore : RestoreSpec} (hv : v.Sound) : (v.accept env restore).Sound := by
  unfold RestoreView.accept
  split
  · intro h
    cases h
  · split
    · exact hv
    · exact hv

variable {sp : StsParams} {inst : Instance} {restore : RestoreSpec}

theorem launched_start (h : v.Launched ∨ launchTakes env sp inst restore = true) :
    Launched { v with launches := operation env sp inst restore v.restoreTime ++ v.launches } := by
  rcases h with ⟨op, hop, htime⟩ | h
  · exact ⟨op, List.mem_append_right _ hop, htime⟩
  · unfold operation
    rcases of_decide_eq_true h with ⟨htype, hr⟩ | ⟨htype, hr⟩
    · simp only [htype, if_pos hr]
      exact ⟨_, List.mem_append_left _ (List.mem_singleton_self _), rfl⟩
    · simp only [htype, if_pos hr]
      exact ⟨_, List.mem_append_left _ (List.mem_singleton_self _), rfl⟩

theorem Sound.start (h : v.Launched ∨ launchTakes env sp inst restore = true) :
    (v.start env sp inst restore).Sound := by
  have hlaunched := launched_start h
  unfold RestoreView.start
  dsimp only
  split
  · apply Sound.finish _ (by decide)
    exact fun _ => hlaunched
  · exact fun _ => hlaunched

theorem Sound.launch (hv : v.Sound)
    (h : v.Launched ∨ (env.call .restoreStatus = .ok ∧ launchTakes env sp inst restore = true) ∨
      written env .restoreStatus = false) : (v.launch env sp inst restore).Sound := by
  unfold RestoreView.launch
  split
  · next hok =>
    apply Sound.start
    rcases h with h | ⟨-, h⟩ | h
    · exact .inl h
    · exact .inr h
    · rw [written, hok] at h
      cases h
  · next hno =>
    unfold RestoreView.advance
    rcases h with h | ⟨hok, -⟩ | h
    · split
      · exact fun _ => h
      · exact hv
    · exact absurd hok hno
    · rw [if_neg (by rw [h]; decide)]
      exact hv

end RestoreView

section Steps

variable {env : Env} {sp : StsParams} {w w' : World}

theorem sound_persistedState {restore : RestoreSpec} {backup : Backup} {reason : Reason}
    (hw : w.restoreView.Sound)
    (hlaunch : reason = .restorePreparationComplete → w.restoreView.Launched ∨
      (env.call .restoreStatus = .ok ∧ launchTakes env sp w.stored restore = true) ∨
      RestoreView.written env .restoreStatus = false) :
    (persistedState env sp w restore backup reason).Sound := by
  have haccept : (if turnsDown w.stored restore then w.restoreView
      else w.restoreView.accept env restore).Sound := by
    split
    · exact hw
    · exact hw.accept
  unfold persistedState
  cases reason with
  | restoreComplete => exact haccept
  | createComplete => exact haccept
  | restoreFailed => exact haccept
  | restorePreparationInProgress =>
    cases removal env sp restore w.session with
    | failed => exact hw.finish (by decide)
    | waiting => exact hw
    | done => exact hw.advance (by decide)
  | restorePreparationComplete => exact hw.launch (hlaunch rfl)
  | restoreInProgress =>
    cases restore.backupType with
    | snapshot =>
      dsimp only
      split
      · exact hw.advance (by decide)
      · exact hw
    | physical =>
      dsimp only
      split
      · exact hw
      · split
        · exact hw.finish (by decide)
        · exact hw.advance (by decide)
    | unset => exact hw.finish (by decide)
    | logical => exact hw.finish (by decide)
  | postRestoreBootstrapInProgress =>
    dsimp only
    split
    · exact hw.finish (by decide)
    · split
      · exact hw
      · exact hw.advance (by decide)
  | postRestoreBootstrapComplete =>
    dsimp only
    split
    · exact hw.finish (by decide)
    · split
      · exact hw.advance (by decide)
      · exact hw.fail
  | postRestoreDatabasePatchingInProgress =>
    cases env.datapatch with
    | failed => exact hw.fail
    | waiting => exact hw
    | done => exact hw.finish (by decide)
  | _ => exact hw

theorem sound_reconcile (hw : w.restoreView.Sound)
    (hok : LaunchesWhole w (.reconcile env sp)) : (restoreReconcile env sp w).restoreView.Sound := by
  rw [restoreReconcile_restoreView]
  unfold persisted
  split
  · exact hw
  · next hget =>
    cases hd : decision env w.stored with
    | skip => exact hw
    | wait => exact hw
    | reject message => exact hw.finish (by decide)
    | serve restore backup reason =>
      apply sound_persistedState hw
      rintro rfl
      simp only [LaunchesWhole, hd] at hok
      exact hok (not_not.mp hget)

theorem sound_step {e : RestoreEvent} (hw : w.restoreView.Sound) (hok : LaunchesWhole w e)
    (h : restoreStep w e = some w') : w'.restoreView.Sound := by
  cases e with
  | reconcile env sp =>
    simp only [restoreStep, Option.ite_none_right_eq_some] at h
    obtain ⟨-, h⟩ := h
    obtain rfl := Option.some.inj h
    exact sound_reconcile hw hok
  | outside v =>
    simp only [restoreStep, Option.ite_none_right_eq_some] at h
    obtain ⟨hout, h⟩ := h
    obtain rfl := Option.some.inj h
    intro hr
    have hlaunched : w.restoreView.Launched := by
      rcases hout.ready with heq | hno
      · exact hw (heq ▸ hr)
      · obtain ⟨r, hr, hreason⟩ := Option.map_eq_some_iff.mp hr
        have hno := (hno r hr).1
        rw [hreason] at hno
        cases hno
    unfold RestoreView.Launched
    rw [hout.launches, hout.restoreTime]
    exact hlaunched
  | finish op =>
    obtain rfl := Option.some.inj h
    intro hr
    obtain ⟨op', hop', htime⟩ := hw hr
    exact ⟨op.finish op', List.mem_map_of_mem hop', (op.finish_restoreTime op').trans htime⟩

/--
In every run in which each reconcile that gets to the launch either writes RestoreInProgress and
launches the restore, or writes nothing, an instance whose stored reason is RestoreInProgress has
the restore of its request launched, or the next healthy reconcile launches it or gives it up.
-/
theorem launched_of_launchesWhole (w : World) (events : List RestoreEvent)
    (hw : w.reason = some .restoreInProgress → Launched w)
    (hm : Runs.Meets restoreStep LaunchesWhole w events) :
    Runs.Always restoreStep LaunchedOrRecovers w events := by
  have hsound : w.restoreView.Sound := hw
  apply Runs.always_of_invariant (fun _ _ _ => sound_step) _ hsound hm
  intro u hu hr
  exact .inl (hu hr)

end Steps

section Sample

/-- The instance is asked to restore its one disk from a snapshot. -/
def requestedWorld : World :=
  let w := createdWorld (some [dataDisk])
  { w with stored := { w.stored with spec := { w.stored.spec with restore := some byID } } }

def restoreParams : StsParams := stsParams requestedWorld.stored none (serviceImage "old")

/-- The request is accepted, and the old objects are removed. -/
def preparedRestore : List RestoreEvent :=
  List.replicate 4 (.reconcile (calm 1000) restoreParams)

/-- The server refuses the new StatefulSet. -/
def refusedRebuild (now : Time) : Env :=
  { calm now with call := fun c => if c = .rebuildSts then .failed else .ok }

/-- The reason is persisted, and the reconciles after it only look for a StatefulSet. -/
theorem refused_rebuild_waits_forever :
    requestedWorld.reason = some .createComplete ∧
      ∃ w, Runs.run restoreStep requestedWorld
        (preparedRestore ++ [.reconcile (refusedRebuild 2000) restoreParams]) = some w ∧
        ¬ LaunchedOrRecovers w := by
  refine ⟨rfl, ?_⟩
  have hbad : ((Runs.run restoreStep requestedWorld
      (preparedRestore ++ [.reconcile (refusedRebuild 2000) restoreParams])).any fun w =>
        w.reason = some .restoreInProgress ∧ ¬ Launched w ∧
          ¬ Launched (restoreReconcile (calm 3000) restoreParams w) ∧
          (restoreReconcile (calm 3000) restoreParams w).reason ≠ some .restoreFailed) = true := by
    decide +kernel
  obtain ⟨w, hw, hn⟩ := (Option.any_eq_true _ _).mp hbad
  obtain ⟨hreason, hlaunched, hagain, hfailed⟩ := of_decide_eq_true hn
  refine ⟨w, hw, ?_⟩
  intro h
  rcases h hreason with h | h
  · exact hlaunched h
  · have hhealthy : Healthy (calm 3000) := ⟨fun _ => rfl, .inl rfl, fun h => by cases h⟩
    rcases h (calm 3000) restoreParams hhealthy with h | h
    · exact hagain h
    · exact hfailed h

/-- The launch goes through, and the restore comes to its end. -/
def launchedRestore : List RestoreEvent :=
  preparedRestore ++ ([.reconcile (calm 2000) restoreParams,
    .finish (.snapshot (some 0)), .reconcile (calm 3000) restoreParams] : List RestoreEvent)

theorem launched_restore_launched :
    Runs.Meets restoreStep LaunchesWhole requestedWorld launchedRestore ∧
      Runs.Always restoreStep LaunchedOrRecovers requestedWorld launchedRestore := by
  have hm : Runs.Meets restoreStep LaunchesWhole requestedWorld launchedRestore := by
    decide +kernel
  exact ⟨hm, launched_of_launchesWhole _ _ (fun h => by cases h) hm⟩

end Sample

end ElCarro.Instance.Reconciler
