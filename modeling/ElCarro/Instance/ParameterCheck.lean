import ElCarro.Instance.ParameterMachine
import ElCarro.Instance.ParameterRollback

/-! # Restarts and the check before an update

The instance and its database as one system: the answers that the parameter update
machine gets come from the table of parameters, and its work changes that table. A
map that the check rejects sends the machine to its rollback, whose restart comes in
a later reconcile; apart from that, no restart and no change follows a rejection.
-/

namespace ElCarro.Instance.Parameters

open GoTime K8s Api Flow Runs Reconciler

variable {engine : Engine}

structure System (engine : Engine) where
  world : World
  table : Table engine
  /-- The maintenance window of the spec. -/
  window : MaintenanceWindow
  /-- Whether the last sanity check has rejected the map it was made for. -/
  rejected : Bool

/-- What a reconcile meets at the clock and at the database. -/
structure Visit where
  /-- The time of `sanityCheckTimeRange`. -/
  now : Time
  /-- The time of `fetchCurrentParameterState`, which reads the clock again. -/
  currentTime : Time
  daemon : Daemon
  order : List String
  recoveryOrder : List String

/-- Whether `sanityCheckTimeRange` lets the machine go on. -/
def sanityCheckTimeRange (mw : MaintenanceWindow) (now : Time) : Bool :=
  hasValidTimeRanges mw && inRange mw now

namespace System

variable (σ : System engine) (env : Env) (v : Visit)

/-- The requested parameters. -/
def params : StrMap := σ.world.stored.spec.parameters.getD ∅

/-- The parameters that a rollback sets. -/
def rollbackParams : StrMap := σ.world.stored.status.currentParameters.getD ∅

/-- The answers of the database for each thing that the machine can ask. -/
def answered : Env :=
  let set := setParameters v.daemon σ.table σ.params v.order
  { env with
    maintenanceWindow := sanityCheckTimeRange σ.window v.now
    parameterState :=
      (fetchCurrentParameterState v.daemon σ.table v.order σ.window v.currentTime).map (·.2)
    setParameters := set.1
    bounceDatabase := (bounceDatabase v.daemon set.2).1
    recoverParameters := (initiateRecovery v.daemon σ.table σ.rollbackParams v.recoveryOrder).1 }

/-- What the machine does at the database in one reconcile. -/
inductive Work where
  | check | update | recover
  deriving DecidableEq

/-- The reason of the Ready condition that asks for the work. -/
def Work.reason : Work → Reason
  | .check => .createComplete
  | .update => .parameterUpdateInProgress
  | .recover => .parameterUpdateRollbackInProgress

/-- The work of a reconcile: the machine is entered within a window, in one of three states. -/
def work : Option Work :=
  if reads (σ.answered env v) σ.world ∧ sanityCheckTimeRange σ.window v.now then
    (entered (σ.answered env v) σ.world.session).bind fun inst =>
      let reason : Option Reason := (readyCond inst).map (·.reason)
      match reason with
      | some .createComplete => some .check
      | some .parameterUpdateInProgress => some .update
      | some .parameterUpdateRollbackInProgress => some .recover
      | _ => none
  else none

/-- The machine asks for a restart of the database. -/
def restarts : Bool :=
  match σ.work env v with
  | some .update => (setParameters v.daemon σ.table σ.params v.order).1 = some true
  | some .recover => v.daemon.recoverConfigFile
  | _ => false

def tableAfter : Table engine :=
  match σ.work env v with
  | some .update => (applyUpdate v.daemon σ.table σ.params v.order).2
  | some .recover => (initiateRecovery v.daemon σ.table σ.rollbackParams v.recoveryOrder).2
  | _ => σ.table

def rejectedAfter : Bool :=
  match σ.work env v with
  | some .check =>
    (fetchCurrentParameterState v.daemon σ.table v.order σ.window v.currentTime).isNone
  | _ => σ.rejected

end System

instance (order : List String) (params : StrMap) : Decidable (Ranges order params) :=
  decidable_of_iff (order.Nodup ∧ order.toFinset = params.keys) (by
    constructor
    · rintro ⟨hnodup, heq⟩
      refine ⟨hnodup, fun key => ?_⟩
      rw [← Finmap.mem_keys, ← heq, List.mem_toFinset]
    · intro h
      refine ⟨h.nodup, ?_⟩
      ext key
      rw [List.mem_toFinset, h.mem, Finmap.mem_keys])

inductive SystemEvent (engine : Engine) where
  | reconcile (env : Env) (v : Visit)
  | editWindow (window : MaintenanceWindow)
  /-- Somebody else changes the parameters of the database. -/
  | alter (table : Table engine)
  | other (e : Event)

/-- Every other event of the instance; its reconciles go through the database. -/
def otherStep (w : World) : Event → Option World
  | .reconcile _ => none
  | e => step w e

def System.step (σ : System engine) : SystemEvent engine → Option (System engine)
  | .reconcile env v =>
    if Ranges v.order σ.params ∧ Ranges v.recoveryOrder σ.rollbackParams then
      some { σ with
        world := Reconciler.reconcile (σ.answered env v) σ.world
        table := σ.tableAfter env v
        rejected := σ.rejectedAfter env v }
    else none
  | .editWindow window => some { σ with window }
  | .alter table => some { σ with table }
  | .other e => (otherStep σ.world e).map fun world => { σ with world }

section Entry

variable {env : Env} {s : Session} {inst : Instance}

/-- The copy that the machine gets, of the instance that was read. -/
structure Begun (stored inst : Instance) : Prop where
  spec : inst.spec = stored.spec
  current : inst.status.currentParameters = stored.status.currentParameters
  ready : readyCond inst = readyCond stored ∨
    ∃ v, readyView inst = some v ∧ v.2 = .createInProgress

theorem begun_beforeParameters (hs : s.mem = s.stored) :
    wp (beforeParameters env) (fun _ t => Begun s.stored t.mem) (fun _ _ => True) s := by
  have hfirst : wp (handleDeletionAndStop env)
      (fun _ t => t.stored = s.stored ∧ Begun s.stored t.mem) (fun _ _ => True) s := by
    simp only [handleDeletionAndStop, wp_bind, wp_get]
    split
    · exact returns_reconcileInstanceDeletion.wp s
    · split
      · exact returns_reconcileInstanceStop.wp s
      · simp only [wp_when, setReady, upsertCondition, setStatus, setMem, wp_modify, hs]
        constructor
        · intro _
          exact ⟨trivial, rfl, rfl, .inr ⟨_, readyView_upsert_ready, rfl⟩⟩
        · intro _
          exact ⟨trivial, rfl, rfl, .inl rfl⟩
  apply wp_bind.mpr (hfirst.mono _ fun _ _ h => h)
  rintro _ t ⟨hstored, ht⟩
  have hfinalizer : wp (addFinalizer env) (fun _ u => Begun s.stored u.mem) (fun _ _ => True) t := by
    simp only [addFinalizer, wp_bind, wp_get, wp_when, setMem, wp_modify]
    constructor
    · intro _
      apply wp_write
      · simp
      · simp
      · simp only [store_stored, hstored]
        exact ⟨ht.spec, rfl, .inl rfl⟩
    · exact fun _ => ht
  apply wp_bind.mpr (hfinalizer.mono _ fun _ _ h => h)
  intro _ u hu
  apply wp_bind.mpr (handlePause_next.mono _ fun _ _ h => h)
  rintro _ _ rfl
  apply handleStandbyDR_next.mono _ fun _ _ h => h
  rintro _ _ rfl
  exact hu

theorem Begun.of_entered (hs : s.mem = s.stored) (h : entered env s = some inst) :
    Begun s.stored inst := by
  obtain ⟨t, ht, -, rfl⟩ := entered_eq_some.mp h
  have hwp : wp (beforeParameters env) (fun _ u => Begun s.stored u.mem) (fun _ _ => True) s :=
    begun_beforeParameters hs
  unfold wp at hwp
  rw [ht] at hwp
  exact hwp

/-- A reason other than that of a restart is the one that was read. -/
theorem Begun.readyView {stored : Instance} {r : Reason} (h : Begun stored inst)
    (hr : (readyCond inst).map (·.reason) = some r) (hne : r ≠ .createInProgress) :
    ∃ v, Reconciler.readyView stored = some v ∧ v.2 = r := by
  obtain ⟨cond, hc, rfl⟩ := Option.map_eq_some_iff.mp hr
  rcases h.ready with heq | ⟨v, hv, hcreate⟩
  · exact ⟨_, readyView_eq_some.mpr ⟨cond, heq ▸ hc, rfl⟩, rfl⟩
  · obtain ⟨cond', hc', rfl⟩ := readyView_eq_some.mp hv
    obtain rfl := Option.some.inj (hc.symm.trans hc')
    exact absurd hcreate hne

end Entry

section Runs

variable {σ τ : System engine} {env : Env} {v : Visit}

/-- The machine works on an instance that was read in the state of that work. -/
theorem work_eq_some {k : System.Work} (h : σ.work env v = some k) :
    sanityCheckTimeRange σ.window v.now = true ∧
      ∃ inst, entered (σ.answered env v) σ.world.session = some inst ∧
        (readyCond inst).map (·.reason) = some k.reason := by
  unfold System.work at h
  split at h
  · next hopen =>
    obtain ⟨inst, hinst, hk⟩ := Option.bind_eq_some_iff.mp h
    refine ⟨hopen.2, inst, hinst, ?_⟩
    simp only at hk
    split at hk
    · next hreason =>
      cases hk
      exact hreason
    · next hreason =>
      cases hk
      exact hreason
    · next hreason =>
      cases hk
      exact hreason
    · cases hk
  · cases h

theorem work_of_entered {inst : Instance} {k : System.Work}
    (hreads : reads (σ.answered env v) σ.world = true)
    (hopen : sanityCheckTimeRange σ.window v.now = true)
    (hinst : entered (σ.answered env v) σ.world.session = some inst)
    (hreason : (readyCond inst).map (·.reason) = some k.reason) : σ.work env v = some k := by
  unfold System.work
  rw [if_pos ⟨hreads, hopen⟩, hinst]
  cases k <;> simp [hreason, System.Work.reason]

theorem readyView_of_work {k : System.Work} (h : σ.work env v = some k) :
    ∃ view, readyView σ.world.stored = some view ∧ view.2 = k.reason := by
  obtain ⟨-, inst, hinst, hreason⟩ := work_eq_some h
  have hbegun : Begun σ.world.stored inst := .of_entered rfl hinst
  exact hbegun.readyView hreason (by cases k <;> decide)

/-- After a rejection the only state of an update that the instance can be in is a rollback. -/
def Checked (σ : System engine) : Prop :=
  σ.rejected = true →
    Shows (fun view => view.2 = .parameterUpdateRollbackInProgress) σ.world.stored

theorem Checked.not_update (hc : Checked σ) (hr : σ.rejected = true) :
    σ.work env v ≠ some .update := by
  intro hwork
  obtain ⟨view, hview, hreason⟩ := readyView_of_work hwork
  have hshown : view.2 = .parameterUpdateRollbackInProgress :=
    hc hr view hview (by rw [hreason]; rfl)
  rw [hreason] at hshown
  cases hshown

theorem rejectedAfter_of_not_check (h : σ.work env v ≠ some .check) :
    σ.rejectedAfter env v = σ.rejected := by
  unfold System.rejectedAfter
  split
  · next hwork => exact absurd hwork h
  · rfl

/-- What the machine sets after a check that rejects, or without one, is not an update. -/
theorem checked_reconcile (hc : Checked σ) (hr : σ.rejectedAfter env v = true) :
    Shows (fun view => view.2 = .parameterUpdateRollbackInProgress)
      (Reconciler.reconcile (σ.answered env v) σ.world).stored := by
  by_cases hcheck : σ.work env v = some .check
  · have hnone : fetchCurrentParameterState v.daemon σ.table v.order σ.window v.currentTime =
        none := by
      simpa [System.rejectedAfter, hcheck] using hr
    obtain ⟨view, hview, hreason⟩ := readyView_of_work hcheck
    obtain ⟨-, inst, hinst, hstate⟩ := work_eq_some hcheck
    apply shows_reconcile
    · refine shows_of_view hview ?_
      rw [hreason]
      rintro ⟨⟩
    · intro inst' _ hinst' next hnext _
      obtain rfl := Option.some.inj (hinst.symm.trans hinst')
      simp only [nextView, hstate, System.Work.reason, System.answered, hnone] at hnext
      split at hnext
      · cases hnext
      · cases hnext
        rfl
  · have hrejected : σ.rejected = true := (rejectedAfter_of_not_check hcheck) ▸ hr
    apply shows_reconcile (hc hrejected)
    intro inst hreads hinst next hnext hparam
    simp only [nextView] at hnext
    split at hnext
    · cases hnext
    · next hopen =>
      have hopen : sanityCheckTimeRange σ.window v.now = true := not_not.mp hopen
      split at hnext
      · next hreason => exact absurd (work_of_entered hreads hopen hinst (k := .check) hreason) hcheck
      · next hreason =>
        exact absurd (work_of_entered hreads hopen hinst (k := .update) hreason)
          (hc.not_update hrejected)
      · cases hnext
        cases hparam
      · split at hnext <;> cases hnext
        cases hparam
      · cases hnext

theorem checked_step {e : SystemEvent engine} (hc : Checked σ) (h : σ.step e = some τ) :
    Checked τ := by
  cases e with
  | reconcile env v =>
    simp only [System.step] at h
    split at h <;> cases h
    exact checked_reconcile hc
  | editWindow window =>
    cases h
    exact hc
  | alter table =>
    cases h
    exact hc
  | other e =>
    obtain ⟨w, hw, rfl⟩ := Option.map_eq_some_iff.mp h
    have hstep : Reconciler.step σ.world e = some w := by
      cases e <;> first | exact hw | cases hw
    have hnot : ∀ env, e ≠ .reconcile env := by
      rintro env rfl
      cases hw
    rcases step_cases hstep with ⟨env, he, -⟩ | hext
    · exact absurd he (hnot env)
    · intro hr
      exact Shows.congr (hc hr) hext.readyView

/-- A restart is asked for within a maintenance window; after a rejection there is neither a
restart nor a change of the parameters. -/
def Safe (σ : System engine) (e : SystemEvent engine) (τ : System engine) : Prop :=
  ∀ env v, e = .reconcile env v →
    (σ.restarts env v = true →
      hasValidTimeRanges σ.window = true ∧ inRange σ.window v.now = true) ∧
    (τ.rejected = true → σ.restarts env v = false ∧ τ.table = σ.table)

/-- The reconcile does not roll back after a rejection, or it does not get past the first step. -/
def SparesRejected (σ : System engine) (e : SystemEvent engine) : Prop :=
  ∀ env v, e = .reconcile env v → σ.rejected = true → σ.work env v = some .recover →
    v.daemon.recoverConfigFile = false

theorem restarts_in_window (h : σ.restarts env v = true) :
    hasValidTimeRanges σ.window = true ∧ inRange σ.window v.now = true := by
  have hopen : sanityCheckTimeRange σ.window v.now = true := by
    unfold System.restarts at h
    split at h
    · next hwork => exact (work_eq_some hwork).1
    · next hwork => exact (work_eq_some hwork).1
    · cases h
  exact Bool.and_eq_true_iff.mp hopen

/-- A step is safe exactly when it spares what was rejected. -/
theorem safe_iff {e : SystemEvent engine} (hc : Checked σ) (h : σ.step e = some τ) :
    Safe σ e τ ↔ SparesRejected σ e := by
  constructor
  · rintro hsafe env v rfl hr hwork
    simp only [System.step] at h
    split at h <;> cases h
    have hafter : σ.rejectedAfter env v = true := by
      rw [rejectedAfter_of_not_check (by simp [hwork])]
      exact hr
    have hrestart : σ.restarts env v = false := ((hsafe env v rfl).2 hafter).1
    simpa [System.restarts, hwork] using hrestart
  · rintro hspares env v rfl
    refine ⟨restarts_in_window, ?_⟩
    simp only [System.step] at h
    split at h <;> cases h
    intro hr
    simp only at hr ⊢
    cases hwork : σ.work env v with
    | none => simp [System.restarts, System.tableAfter, hwork]
    | some k =>
      cases k with
      | check => simp [System.restarts, System.tableAfter, hwork]
      | update =>
        rw [rejectedAfter_of_not_check (by simp [hwork])] at hr
        exact absurd hwork (hc.not_update hr)
      | recover =>
        rw [rejectedAfter_of_not_check (by simp [hwork])] at hr
        have hfile := hspares env v rfl hr hwork
        simp [System.restarts, System.tableAfter, hwork, initiateRecovery, hfile]

/-- In every run in which no rejection is followed by a rollback, each step is safe. -/
theorem safe_of_sparesRejected (σ : System engine) (es : List (SystemEvent engine))
    (hσ : σ.rejected = false) (hm : Meets System.step SparesRejected σ es) :
    EachStep System.step Safe σ es := by
  have hc : Checked σ := by
    intro hr
    rw [hσ] at hr
    cases hr
  apply eachStep_of_invariant (I := Checked) _ _ hc hm
  · intro σ e τ hc _ h
    exact checked_step hc h
  · intro σ e τ hc hok h
    exact (safe_iff hc h).mpr hok

instance (σ : System engine) : (e : SystemEvent engine) → Decidable (SparesRejected σ e)
  | .reconcile env v =>
    decidable_of_iff (σ.rejected = true → σ.work env v = some .recover →
      v.daemon.recoverConfigFile = false)
      ⟨fun h _ _ heq => by cases heq; exact h, fun h => h env v rfl⟩
  | .editWindow _ => .isTrue fun _ _ h => by cases h
  | .alter _ => .isTrue fun _ _ h => by cases h
  | .other _ => .isTrue fun _ _ h => by cases h

end Runs

section Sample

/-- An instance with its database, within its maintenance window. -/
def createdSystem (table : Table plain) : System plain := ⟨createdWorld none, table, openWindow, false⟩

/-- The user asks for a value of one parameter. -/
def requestParameter (key value : String) : SystemEvent plain :=
  .other (.editSpec { (createdInstance none).spec with
    parameters := some ((∅ : StrMap).insert key value) })

def visit (key : String) : SystemEvent plain :=
  .reconcile (calm 0) ⟨0, 0, steady, [key], []⟩

/-- A reserved parameter is rejected, and the next reconcile restarts the database. -/
theorem rejected_map_restarts :
    ¬ EachStep System.step Safe (createdSystem cursorTable)
      ([requestParameter "audit_trail" "none", visit "audit_trail"] ++ [visit "audit_trail"]) := by
  intro h
  have hrun : ∃ σ, run System.step (createdSystem cursorTable)
      [requestParameter "audit_trail" "none", visit "audit_trail"] = some σ ∧
        σ.restarts (calm 0) ⟨0, 0, steady, ["audit_trail"], []⟩ = true ∧
          ∃ τ, σ.step (visit "audit_trail") = some τ ∧ τ.rejected = true := by
    decide +kernel
  obtain ⟨σ, hσ, hrestarts, τ, hτ, hrejected⟩ := hrun
  have hsafe : Safe σ (visit "audit_trail") τ := h.last hσ hτ
  have hnot := ((hsafe _ _ rfl).2 hrejected).1
  rw [hrestarts] at hnot
  cases hnot

def processesTable : Table plain :=
  .single "processes" ⟨.static, false, "300", "300", "300"⟩ (by decide)

/-- An update of a static parameter restarts the database, within the window. -/
theorem static_update_restarts_in_window :
    ∃ σ τ, run System.step (createdSystem processesTable)
        [requestParameter "processes" "400", visit "processes"] = some σ ∧
      σ.step (visit "processes") = some τ ∧
      σ.restarts (calm 0) ⟨0, 0, steady, ["processes"], []⟩ = true ∧
      hasValidTimeRanges σ.window = true ∧ inRange σ.window 0 = true := by
  have hrun : ∃ σ, run System.step (createdSystem processesTable)
      [requestParameter "processes" "400", visit "processes"] = some σ ∧
        σ.restarts (calm 0) ⟨0, 0, steady, ["processes"], []⟩ = true ∧
          (σ.step (visit "processes")).isSome = true := by
    decide +kernel
  have hm : Meets System.step SparesRejected (createdSystem processesTable)
      ([requestParameter "processes" "400", visit "processes"] ++ [visit "processes"]) := by
    decide +kernel
  obtain ⟨σ, hσ, hrestarts, hstep⟩ := hrun
  obtain ⟨τ, hτ⟩ := Option.isSome_iff_exists.mp hstep
  have hsafe : Safe σ (visit "processes") τ :=
    (safe_of_sparesRejected _ _ rfl hm).last hσ hτ
  exact ⟨σ, τ, hσ, hτ, hrestarts, (hsafe _ _ rfl).1 hrestarts⟩

end Sample

end ElCarro.Instance.Parameters
