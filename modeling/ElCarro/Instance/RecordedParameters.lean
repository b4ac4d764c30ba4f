import ElCarro.Instance.Bystanders
import ElCarro.Instance.ParameterMachine

/-! # What a reconcile records of the parameters

The status of an instance has the parameters that a rollback sets. Only the machine for
parameters writes them: what the check has read from the database, and the request once
an update is complete. The request itself is the user's, and no reconcile changes it.
-/

namespace ElCarro.Instance.Reconciler

open GoTime K8s Api Flow

namespace Robust

variable {Q : Instance → Prop} {env : Env}

section Conditions

variable (h : Robust Q) (hcond : ∀ {i} conditions, Q i → Q (withConditions i conditions))

include hcond in
theorem upsertCondition {name : CondType} {status : CondStatus} {reason : Reason} {message : String} :
    Within (Maintains Q) (upsertCondition env name status reason message) :=
  .modify fun _ hs => ⟨hs.stored, hcond _ hs.mem⟩

include hcond in
theorem standbyNext {nextState : Reason} {message : String} {r : Result} :
    Within (Maintains Q) (standbyNext env nextState message r) :=
  .bind (upsertCondition hcond) fun _ => .finish r

include hcond in
theorem standbyReady : Within (Maintains Q) (standbyReady env) := by
  apply Within.bind (upsertCondition hcond)
  intro _
  apply Within.bind (upsertCondition hcond)
  intro _
  exact Within.bind (upsertCondition hcond) fun _ => Within.finish _

include hcond in
theorem standbyPromote {retry : Result} : Within (Maintains Q) (standbyPromote env retry) := by
  apply Within.bind Within.get
  intro _
  exact Within.ite (fun _ => standbyNext hcond) fun _ => standbyNext hcond

include h in
theorem standbyReplicationSettings : Within (Maintains Q) standbyReplicationSettings :=
  h.setMem fun _ => ⟨rfl, rfl, rfl, rfl, rfl⟩

include h hcond

theorem standbyDataGuard {current : Reason} : Within (Maintains Q) (standbyDataGuard env current) := by
  apply Within.bind Within.get
  intro _
  apply Within.bind (Within.when fun _ => standbyNext hcond)
  intro _
  apply Within.bind h.standbyReplicationSettings
  intro _
  exact Within.ite (fun _ => standbyNext hcond) fun _ => standbyNext hcond

theorem standbyStateMachine : Within (Maintains Q) (standbyStateMachine env) := by
  have hbootstrap : ∀ {f : InstanceStatus → InstanceStatus} {p : P Unit},
      (∀ inst : Instance, Aligned inst { inst with status := f inst.status }) →
        Within (Maintains Q) p → Within (Maintains Q) (do setStatus f; p) := by
    intro f p hf hp
    exact Within.bind (h.setMem hf) fun _ => hp
  apply Within.bind Within.get
  intro s
  dsimp only
  split
  · exact Within.ite (fun _ => standbyNext hcond) fun _ => standbyNext hcond
  · exact Within.bind h.standbyReplicationSettings fun _ => standbyNext hcond
  · apply Within.bind (Within.when fun _ => standbyNext hcond)
    intro _
    apply Within.bind h.standbyReplicationSettings
    intro _
    apply Within.bind (Within.when fun _ => standbyNext hcond)
    intro _
    cases env.createStandby with
    | failed => exact standbyNext hcond
    | waiting => exact standbyNext hcond
    | done => exact standbyNext hcond
  · exact Within.finish _
  · exact h.standbyDataGuard hcond
  · exact h.standbyDataGuard hcond
  · exact standbyNext hcond
  · apply Within.ite (fun _ => standbyPromote hcond)
    intro _
    apply Within.bind (Within.when fun _ => h.standbyReplicationSettings)
    exact fun _ => standbyNext hcond
  · exact standbyPromote hcond
  · apply hbootstrap (fun _ => ⟨rfl, rfl, rfl, rfl, rfl⟩)
    exact Within.ite (fun _ => standbyReady hcond) fun _ => standbyNext hcond
  · apply hbootstrap (fun _ => ⟨rfl, rfl, rfl, rfl, rfl⟩)
    exact Within.ite (fun _ => standbyReady hcond) fun _ => standbyNext hcond
  · exact standbyReady hcond
  · exact Within.finish _

theorem handleStandby : Within (Maintains Q) (handleStandby env) := by
  apply Within.bind Within.get
  intro _
  apply Within.bind (Within.when fun _ => h.leave (by decide))
  intro _
  apply Within.bind
  · apply Within.when
    intro _
    apply Within.bind (upsertCondition hcond)
    intro _
    exact Within.bind (upsertCondition hcond) fun _ => Within.finish _
  · intro _
    apply Within.when
    intro _
    apply Within.bind (Within.when fun _ => Within.finish _)
    intro _
    apply Within.bind (upsertCondition hcond)
    intro _
    apply Within.bind (upsertCondition hcond)
    intro _
    exact Within.bind (upsertCondition hcond) fun _ => Within.finish _

theorem databaseNext {status : CondStatus} {reason : Reason} {message : String} :
    Within (Maintains Q) (databaseNext env status reason message) := by
  apply Within.bind (upsertCondition hcond)
  intro _
  exact Within.bind h.updateStatus fun _ => Within.finish _

theorem databaseState {images : StrMap} {cond : Condition} :
    Within (Maintains Q) (databaseState env images cond) := by
  unfold Reconciler.databaseState
  split
  · exact Within.bind (Within.when fun _ => Within.finish _) fun _ => h.databaseNext hcond
  · cases env.createCDBDone with
    | waiting => exact Within.finish _
    | failed => exact h.databaseNext hcond
    | done => exact h.databaseNext hcond
  · cases env.bootstrapCDB with
    | none => exact Within.finish _
    | some done => exact Within.ite (fun _ => h.databaseNext hcond) fun _ => h.databaseNext hcond
  · cases env.bootstrapCDBDone with
    | waiting => exact Within.finish _
    | failed => exact h.databaseNext hcond
    | done => exact h.databaseNext hcond
  · apply Within.bind maintains_reconcileMonitoring
    intro poll
    cases poll with
    | failed => exact Within.finish _
    | waiting => exact Within.finish _
    | done => exact h.databaseNext hcond
  · apply Within.bind Within.get
    intro _
    exact Within.ite (fun _ => h.databaseNext hcond) fun _ => Within.finish _
  · exact Within.finish _

theorem reconcileDatabaseInstance {images : StrMap} :
    Within (Maintains Q) (reconcileDatabaseInstance env images) := by
  apply Within.bind Within.get
  intro s
  apply Within.bind (Within.when fun _ => Within.finish _)
  intro _
  cases env.seededImage with
  | none => exact Within.finish _
  | some seeded =>
    cases dbInstanceCond s.mem with
    | none =>
      apply Within.bind Within.get
      intro _
      apply Within.ite (fun _ => h.databaseNext hcond)
      intro _
      exact Within.ite (fun _ => h.databaseNext hcond) fun _ => h.databaseNext hcond
    | some cond =>
      apply Within.bind
      · apply Within.when
        intro _
        exact Within.bind (upsertCondition hcond) fun _ => Within.finish _
      · exact fun _ => h.databaseState hcond

/-- Everything behind the machine for parameters. -/
theorem configured : Within (Maintains Q) (configured env) := by
  apply Within.bind Within.get
  intro s
  cases env.config with
  | error e => exact Within.finish _
  | ok config =>
    dsimp only
    cases overrideDefaultImages env config s.mem with
    | error e => exact Within.finish _
    | ok images =>
      apply Within.bind (Within.when fun _ => Within.finish _)
      intro _
      apply Within.bind h.handlePatching
      intro _
      apply Within.bind (h.handleRestore fun _ _ _ hi => hcond _ hi)
      intro _
      apply Within.bind h.handleResize
      intro _
      apply Within.bind h.handleProvisioned
      intro _
      apply Within.bind maintains_createStatefulSet
      intro _
      apply Within.bind (Within.when fun _ => Within.finish _)
      intro _
      apply Within.bind h.createServices
      intro _
      apply Within.bind h.awaitCreation
      intro _
      apply Within.bind h.setLabels
      intro _
      exact Within.bind (h.handleStandby hcond) fun _ => h.reconcileDatabaseInstance hcond

end Conditions

end Robust

section Recorded

variable {env : Env} {w : World} {s : Session} {A B : Option StrMap → Prop}

/-- A property of the parameters that are requested and of those that are recorded. -/
def OnParameters (A B : Option StrMap → Prop) (inst : Instance) : Prop :=
  A inst.spec.parameters ∧ B inst.status.currentParameters

theorem robust_onParameters : Robust (OnParameters A B) where
  aligned ha hi := ⟨ha.requested ▸ hi.1, ha.current ▸ hi.2⟩
  ready _ _ _ _ _ hi := hi
  refresh _ _ _ hi := hi
  status hi hj := ⟨hi.1, hj.2⟩

theorem onParameters_preamble (hs : Both (OnParameters A B) s)
    (hchecked : ∀ inst, entered env s = some inst →
      (readyCond inst).map (·.reason) = some .createComplete → env.maintenanceWindow = true →
      ∀ params, env.parameterState = some params → B (some params))
    (hcompleted : ∀ inst, entered env s = some inst →
      (readyCond inst).map (·.reason) = some .parameterUpdateComplete → ∀ params, A params → B params) :
    wp (preamble env) (fun _ => Both (OnParameters A B)) (fun _ => Both (OnParameters A B)) s := by
  have hrobust : Robust (OnParameters A B) := robust_onParameters
  have hbefore : Within (Maintains (OnParameters A B)) (beforeParameters env) := by
    apply Within.bind hrobust.handleDeletionAndStop
    intro _
    apply Within.bind hrobust.addFinalizer
    intro _
    apply Within.bind hrobust.handlePause
    intro _
    apply Within.bind Within.get
    intro _
    exact Within.when fun _ => hrobust.standbyStateMachine fun _ hi => hi
  apply wp_preamble.mpr (((both_of_maintains hbefore hs).and wp_self).mono _ fun _ _ ht => ht.1)
  rintro _ t ⟨ht, hend⟩
  have hentered : parameterUpdateRequested t.mem = true → entered env s = some t.mem :=
    fun hreq => entered_eq_some.mpr ⟨t, hend, hreq, rfl⟩
  have hmachine : wp (parameterUpdateStateMachine env) (fun _ => Both (OnParameters A B))
      (fun _ => Both (OnParameters A B)) t := by
    apply hrobust.wp_parameterUpdateStateMachine ht
    · intro hreq hreason hopen params hstate i hi
      exact ⟨hi.1, hchecked t.mem (hentered hreq) hreason hopen params hstate⟩
    · intro hreq hreason i hi
      exact ⟨hi.1, hcompleted t.mem (hentered hreq) hreason _ hi.1⟩
    · exact fun hi _ => hi
  apply hmachine.mono _ fun _ _ hu => hu
  intro _ u hu
  exact both_of_maintains hrobust.handleDnfs hu

/-- A reconcile leaves the request alone, and records what the check has read or what is
requested. -/
theorem onParameters_reconcile (hw : OnParameters A B w.stored)
    (hchecked : ∀ inst, reads env w = true → entered env w.session = some inst →
      (readyCond inst).map (·.reason) = some .createComplete → env.maintenanceWindow = true →
      ∀ params, env.parameterState = some params → B (some params))
    (hcompleted : ∀ inst, reads env w = true → entered env w.session = some inst →
      (readyCond inst).map (·.reason) = some .parameterUpdateComplete → ∀ params, A params → B params) :
    OnParameters A B (reconcile env w).stored := by
  unfold reconcile
  split
  · exact hw
  · next hreads =>
    have hread : reads env w = true := by simpa [reads] using hreads
    have hrobust : Robust (OnParameters A B) := robust_onParameters
    have hbody : wp (body env) (fun _ => Both (OnParameters A B)) (fun _ => Both (OnParameters A B))
        w.session := by
      apply wp_bind.mpr ((onParameters_preamble ⟨hw, hw⟩ (fun inst => hchecked inst hread)
        fun inst => hcompleted inst hread).mono _ fun _ _ ht => ht)
      intro _ t ht
      exact both_of_maintains (hrobust.configured fun _ hi => hi) ht
    have hdeferred : Within (Maintains (OnParameters A B)) (updateStatus env .deferredStatus) :=
      hrobust.updateStatus
    exact (both_of_maintains hdeferred hbody.state).state.stored

end Recorded

end ElCarro.Instance.Reconciler
