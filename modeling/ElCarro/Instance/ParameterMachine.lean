import ElCarro.Instance.PatchingSteps

/-! # The end of a parameter update

The parameter update machine works on a copy of the instance. It marks an update
as its own in the status, and takes the mark away only after the last write of the
status, on a copy that is dropped: an instance that has come through an update or
a rollback is never without a mark.
-/

namespace ElCarro.Instance.Reconciler

open GoTime K8s Api Flow Runs

/-- An instance whose parameters are being updated is not ready. -/
def Unready (inst : Instance) : Prop :=
  ∀ v, readyView inst = some v → parameterReason v.2 = true → v.1 = .false

/-- What the machine sets the Ready condition to. -/
def Announced (v : CondStatus × Reason) : Prop :=
  v = (.true, .createComplete) ∨ v.1 = .false ∧ parameterReason v.2 = true

variable {images : StrMap} {env : Env} {s t : Session} {inst : Instance}

/-- The Ready condition of an update has the property. -/
def Shows (shown : CondStatus × Reason → Prop) (inst : Instance) : Prop :=
  ∀ v, readyView inst = some v → parameterReason v.2 = true → shown v

variable {shown : CondStatus × Reason → Prop}

theorem shows_of_view {v : CondStatus × Reason} (hview : readyView inst = some v)
    (hv : parameterReason v.2 = true → shown v) : Shows shown inst := by
  intro v' hv' hr
  obtain rfl := Option.some.inj (hview.symm.trans hv')
  exact hv hr

theorem shows_of_untracked (h : ∀ v, readyView inst = some v → parameterReason v.2 = false) :
    Shows shown inst := by
  intro v hv hr
  rw [h v hv] at hr
  cases hr

theorem Shows.congr {inst' : Instance} (h : Shows shown inst)
    (hview : readyView inst' = readyView inst) : Shows shown inst' := by
  intro v hv
  exact h v (hview ▸ hv)

/-- Both the object and the copy have the property. -/
structure BothShow (shown : CondStatus × Reason → Prop) (s : Session) : Prop where
  stored : Shows shown s.stored
  mem : Shows shown s.mem

theorem BothShow.origin (h : BothShow shown s) (hi : Origin parameterReason images s inst) :
    Shows shown inst := by
  rcases hi.view with ⟨hv, -⟩ | ⟨hv, -⟩ | hv
  · exact h.stored.congr hv
  · exact h.mem.congr hv
  · exact shows_of_untracked hv

section Update

/-- The last step of each state tells the caller and the server the same. -/
theorem announce_record {c : Call} {status : CondStatus} {reason : Reason} {message : String}
    {R : Result → Session → Prop} (h : SameSoFar s t) :
    wp (recordEventAndUpdateStatus env c status reason message)
      (fun _ u => readyView (returnedTo s u).mem = some (status, reason) ∧
        (u.stored = s.stored ∨ readyView u.stored = some (status, reason))) R t := by
  have hview : readyView (withConditions t.mem
      (upsert env.now .ready status reason message t.mem.status.conditions)) =
        some (status, reason) := readyView_upsert_ready
  simp only [recordEventAndUpdateStatus, setReady, upsertCondition, setStatus, setMem, wp_bind,
    wp_modify]
  apply wp_write
  · exact ⟨hview, .inl h.stored⟩
  · refine ⟨?_, .inr ?_⟩
    · simp only [returnedTo, store_mem]
      exact hview
    · rw [store_stored]
      exact hview
  · refine ⟨?_, .inr ?_⟩
    · simp only [returnedTo, store_stored]
      exact hview
    · simp only [store_stored]
      exact hview

/-- What the machine makes of the Ready condition, by the answers it gets. -/
def nextView (env : Env) (inst : Instance) : Option (CondStatus × Reason) :=
  let reason : Option Reason := (readyCond inst).map (·.reason)
  if ¬ env.maintenanceWindow then none
  else match reason with
    | some .createComplete =>
      some (.false, if env.parameterState.isSome then .parameterUpdateInProgress
        else .parameterUpdateRollbackInProgress)
    | some .parameterUpdateInProgress =>
      some (.false, if env.setParameters = none ∨
          env.setParameters = some true ∧ ¬ env.bounceDatabase then
        .parameterUpdateRollbackInProgress else .parameterUpdateComplete)
    | some .parameterUpdateComplete => some (.true, .createComplete)
    | some .parameterUpdateRollbackInProgress =>
      if env.recoverParameters then some (.true, .createComplete) else none
    | _ => none

theorem announced_of_nextView {v : CondStatus × Reason} (h : nextView env inst = some v) :
    Announced v := by
  simp only [nextView] at h
  split at h
  · cases h
  split at h
  · cases h
    exact .inr ⟨rfl, by split <;> rfl⟩
  · cases h
    exact .inr ⟨rfl, by split <;> rfl⟩
  · cases h
    exact .inl rfl
  · split at h <;> cases h
    exact .inl rfl
  · cases h

/-- The copy and the object have their Ready conditions from before, or what the machine says. -/
structure Announces (env : Env) (s t : Session) : Prop where
  mem : readyView t.mem = readyView s.mem ∨
    ∃ v, readyView t.mem = some v ∧ nextView env s.mem = some v
  stored : t.stored = s.stored ∨ ∃ v, readyView t.stored = some v ∧ nextView env s.mem = some v

theorem announces_record {c : Call} {status : CondStatus} {reason : Reason} {message : String}
    {R : Result → Session → Prop} (h : SameSoFar s t)
    (hv : nextView env s.mem = some (status, reason)) :
    wp (recordEventAndUpdateStatus env c status reason message)
      (fun _ u => Announces env s (returnedTo s u)) R t := by
  apply (announce_record h).mono
  · rintro _ u ⟨hmem, hstored⟩
    exact ⟨.inr ⟨_, hmem, hv⟩, hstored.imp_right fun hst => ⟨_, hst, hv⟩⟩
  · exact fun _ _ h => h

theorem announces_byValue :
    wp (byValue (parameterUpdate env)) (fun _ => Announces env s) (fun _ => Announces env s) s := by
  apply wp_onCopy.mpr
  have hsame : Announces env s (returnedTo s s) := ⟨.inl rfl, .inl rfl⟩
  simp only [parameterUpdate, wp_bind, wp_get, wp_when, wp_finish, id]
  constructor
  · exact fun _ => hsame
  · intro hwindow
    split
    · next hreason =>
      simp only [setStatus, setMem, wp_bind, wp_modify]
      cases hstate : env.parameterState with
      | none =>
        simp only [parameterUpdateRollback, wp_bind]
        exact announces_record ⟨rfl, rfl, rfl, .inr rfl, rfl, rfl, rfl, rfl⟩
          (by simp [nextView, hwindow, hreason, hstate])
      | some params =>
        simp only [wp_bind, wp_modify]
        exact announces_record ⟨rfl, rfl, rfl, .inr rfl, rfl, rfl, rfl, rfl⟩
          (by simp [nextView, hwindow, hreason, hstate])
    · next hreason =>
      cases hset : env.setParameters with
      | none =>
        exact announces_record ⟨rfl, rfl, rfl, .inl rfl, rfl, rfl, rfl, rfl⟩
          (by simp [nextView, hwindow, hreason, hset])
      | some restartRequired =>
        dsimp only
        split
        · next hbounce =>
          obtain ⟨rfl, hbounce⟩ := hbounce
          exact announces_record ⟨rfl, rfl, rfl, .inl rfl, rfl, rfl, rfl, rfl⟩
            (by simp [nextView, hwindow, hreason, hset, hbounce])
        · next hbounce =>
          exact announces_record ⟨rfl, rfl, rfl, .inl rfl, rfl, rfl, rfl, rfl⟩
            (by simpa [nextView, hwindow, hreason, hset] using hbounce)
    · next hreason =>
      simp only [setMem, wp_bind, wp_modify]
      exact announces_record ⟨rfl, rfl, rfl, .inl rfl, rfl, rfl, rfl, rfl⟩
        (by simp [nextView, hwindow, hreason])
    · next hreason =>
      simp only [setMem, wp_bind, wp_modify, wp_when, wp_finish]
      constructor
      · exact fun _ => hsame
      · intro hrecover
        exact announces_record ⟨rfl, rfl, rfl, .inl rfl, rfl, rfl, rfl, rfl⟩
          (by simp [nextView, hwindow, hreason, not_not.mp hrecover])
    · exact hsame

theorem announces_parameterUpdateStateMachine :
    wp (parameterUpdateStateMachine env) (fun _ => Announces env s) (fun _ => Announces env s)
      s := by
  simp only [parameterUpdateStateMachine, wp_bind, wp_get, wp_when]
  exact ⟨fun _ => announces_byValue, fun _ => ⟨.inl rfl, .inl rfl⟩⟩

theorem BothShow.announces (h : BothShow shown s) (ha : Announces env s t)
    (hnext : ∀ v, nextView env s.mem = some v → parameterReason v.2 = true → shown v) :
    BothShow shown t := by
  constructor
  · rcases ha.stored with heq | ⟨v, hview, hv⟩
    · rw [heq]
      exact h.stored
    · exact shows_of_view hview (hnext v hv)
  · rcases ha.mem with hview | ⟨v, hview, hv⟩
    · exact h.mem.congr hview
    · exact shows_of_view hview (hnext v hv)

end Update

section Machines

theorem BothShow.quiet (h : BothShow shown s) (hq : Quiet parameterReason images s t) :
    BothShow shown t := ⟨h.origin hq.stored, h.origin hq.mem⟩

theorem BothShow.works {paths : Path → Prop} (h : BothShow shown s)
    (hw : Works parameterReason images paths s t) : BothShow shown t :=
  ⟨h.origin hw.stored, h.origin hw.mem⟩

theorem parameterReason_of_not_claimedReason :
    ∀ r, claimedReason r = false → parameterReason r = false :=
  fun _ h => (Bool.or_eq_false_iff.mp (ownedReason_of_not_claimedReason h)).2

theorem handledReason_of_parameterReason {r : Reason} :
    parameterReason r = true → handledReason r = false := by
  cases r <;> decide

/-- No state of the patching machine leads to a reason of this one. -/
theorem parameterReason_of_follows {r : Reason} :
    ∀ reason ∈ follows r, parameterReason reason = false := by
  cases r <;> decide

theorem BothShow.patchStep {disks : List DiskSpec} {r : Reason} (h : BothShow shown s)
    (hp : PatchStep disks r s t) : BothShow shown t := by
  constructor
  · rw [hp.stored]
    exact h.stored
  · have hplain : ∀ {status reason}, readyView t.mem = some (status, reason) →
        parameterReason reason = false → Shows shown t.mem := by
      intro status reason hview hr
      apply shows_of_untracked
      rintro v hv
      obtain rfl := Option.some.inj (hview.symm.trans hv)
      exact hr
    cases hp.move with
    | stay hview _ _ => exact h.mem.congr hview
    | next hnext hview _ _ _ => exact hplain hview (parameterReason_of_follows _ hnext)
    | remove _ _ hmem _ _ =>
      rw [hmem]
      exact h.mem
    | begin _ _ _ hview =>
      rcases hview with hview | hview | ⟨hview, -⟩
      · exact h.mem.congr hview
      · exact hplain hview rfl
      · exact hplain hview rfl
    | check _ _ _ hview =>
      rcases hview with hview | hview | ⟨hview, -⟩
      · exact h.mem.congr hview
      · exact hplain hview rfl
      · exact hplain hview rfl

theorem works_afterPatching {sp : StsParams} :
    Within (Works parameterReason sp.images fun _ => True)
      (handleRestore env sp >>= fun _ => createInstance env sp) := by
  apply Within.bind
  · exact works_handleRestore (fun _ _ h => h) trivial rfl
  · intro _
    exact works_createInstance parameterReason_of_not_claimedReason trivial trivial rfl

theorem bothShow_machines {sp : StsParams} (h : BothShow shown s) :
    wp (machines env sp) (fun _ => BothShow shown) (fun _ => BothShow shown) s := by
  apply wp_bind.mpr
  apply patchStep_handlePatching.mono
  · rintro _ t ⟨rfl, -⟩
    exact (works_afterPatching t).mono (fun _ _ hw => h.works hw) fun _ _ hw => h.works hw
  · rintro _ t ⟨-, cond, -, hstep⟩
    exact h.patchStep hstep

/-- The first part up to the machine for parameters. -/
def beforeParameters (env : Env) : P Unit := do
  handleDeletionAndStop env
  addFinalizer env
  handlePause env
  handleStandbyDR env

theorem wp_preamble {Q : Unit → Session → Prop} {R : Result → Session → Prop} :
    wp (preamble env) Q R s ↔ wp (beforeParameters env)
      (fun _ => wp (parameterUpdateStateMachine env) (fun _ => wp (handleDnfs env) Q R) R) R s := by
  have hbind : ∀ {p : P Unit} {f : Unit → P Unit} {Q : Unit → Session → Prop},
      wp (p >>= f) Q R = wp p (fun b => wp (f b) Q R) R := funext fun _ => propext wp_bind
  simp only [preamble, beforeParameters, hbind]

/-- The instance that the machine for parameters starts to work on, if it does. -/
def entered (env : Env) (s : Session) : Option Instance :=
  match beforeParameters env s with
  | .next _ t => if parameterUpdateRequested t.mem then some t.mem else none
  | .done _ _ => none

theorem entered_eq_some : entered env s = some inst ↔
    ∃ t, beforeParameters env s = .next () t ∧ parameterUpdateRequested t.mem = true ∧
      t.mem = inst := by
  unfold entered
  split
  · next t ht =>
    rw [ht]
    split <;> simp_all
  · next ht => simp [ht]

/-- The first part keeps the property if what the machine sets has it. -/
theorem bothShow_preamble (h : BothShow shown s)
    (hnext : ∀ inst, entered env s = some inst →
      ∀ v, nextView env inst = some v → parameterReason v.2 = true → shown v) :
    wp (preamble env) (fun _ => BothShow shown) (fun _ => BothShow shown) s := by
  have howned := parameterReason_of_not_claimedReason
  have hbefore : Within (Quiet parameterReason ∅) (beforeParameters env) := by
    apply Within.bind (quiet_handleDeletionAndStop howned)
    intro _
    apply Within.bind quiet_addFinalizer
    intro _
    exact Within.bind (quiet_handlePause howned) fun _ => quiet_handleStandbyDR howned
  apply wp_preamble.mpr (((hbefore s).and wp_self).mono _ fun _ _ hq => h.quiet hq.1)
  rintro _ t ⟨hq, ht⟩
  have hb : BothShow shown t := h.quiet hq
  have hmachine : wp (parameterUpdateStateMachine env) (fun _ => BothShow shown) (fun _ => BothShow shown)
      t := by
    simp only [parameterUpdateStateMachine, wp_bind, wp_get, wp_when]
    constructor
    · intro hreq
      have hstep : ∀ u, Announces env t u → BothShow shown u :=
        fun u ha => hb.announces ha (hnext t.mem (entered_eq_some.mpr ⟨t, ht, hreq, rfl⟩))
      exact announces_byValue.mono (fun _ => hstep) fun _ => hstep
    · exact fun _ => hb
  apply hmachine.mono _ fun _ _ hu => hu
  intro _ u hu
  have hdnfs : Within (Quiet parameterReason ∅) (handleDnfs env) := quiet_handleDnfs
  exact (hdnfs u).mono (fun _ _ hq => hu.quiet hq) fun _ _ hq => hu.quiet hq

end Machines

section Marks

/-- The Ready condition of the copy is one that the machine sets. -/
def Told (s : Session) : Prop := ∃ v, readyView s.mem = some v ∧ Announced v

/-- The active machine is the one for parameters, for the server and in the copy. -/
structure UpdateMarked (s : Session) : Prop where
  stored : s.stored.status.currentActiveStateMachine = .parameterUpdate
  mem : s.mem.status.currentActiveStateMachine = .parameterUpdate

/-- Some machine is active, for the server and in the copy. -/
structure Marked (s : Session) : Prop where
  stored : s.stored.status.currentActiveStateMachine ≠ .none
  mem : s.mem.status.currentActiveStateMachine ≠ .none

theorem UpdateMarked.marked (h : UpdateMarked s) : Marked s :=
  ⟨by simp [h.stored], by simp [h.mem]⟩

theorem UpdateMarked.origin {tracked : Reason → Bool} (h : UpdateMarked s)
    (hi : Origin tracked images s inst) :
    inst.status.currentActiveStateMachine = .parameterUpdate := by
  rcases hi.machine with hm | hm | hm
  · exact hm.trans h.stored
  · exact hm.trans h.mem
  · exact hm

theorem not_stopped_of_announced {v : CondStatus × Reason} (hview : readyView inst = some v)
    (hv : Announced v) : conditionReasonEquals (readyCond inst) .instanceStopped = false := by
  obtain ⟨cond, hc, rfl⟩ := readyView_eq_some.mp hview
  rw [hc]
  rcases hv with heq | ⟨-, hr⟩
  · simp [conditionReasonEquals, (Prod.mk.inj heq).2]
  · simp only [conditionReasonEquals, Option.any_some, decide_eq_false_iff_not]
    intro heq
    rw [heq] at hr
    cases hr

/-- Up to the machines, the Ready condition stays one that the machine sets. -/
theorem told_preamble (hs : s.mem = s.stored) (h : Told s) :
    wp (preamble env) (fun _ => Told) (fun _ _ => True) s := by
  obtain ⟨v, hview, hv⟩ := h
  have hfirst : wp (handleDeletionAndStop env) (fun _ t => t = s) (fun _ _ => True) s := by
    simp only [handleDeletionAndStop, wp_bind, wp_get]
    split
    · exact returns_reconcileInstanceDeletion.wp s
    · split
      · exact returns_reconcileInstanceStop.wp s
      · rw [wp_when]
        constructor
        · intro hstop
          rw [not_stopped_of_announced hview hv] at hstop
          cases hstop.2
        · intro _
          rfl
  apply wp_bind.mpr (hfirst.mono _ fun _ _ h => h)
  rintro _ s rfl
  have hadd : Within (Kept False) (addFinalizer env) := kept_addFinalizer
  apply wp_bind.mpr ((hadd s).mono _ fun _ _ _ => trivial)
  intro _ t hkept
  have ht : Told t := by
    have hst : t.mem.status = s.mem.status := by
      rcases hkept.mem with hm | hm
      · rw [hm, hs]
      · exact hm
    refine ⟨v, ?_, hv⟩
    rw [← hview]
    simp only [readyView, readyCond, hst]
  apply wp_bind.mpr (handlePause_next.mono _ fun _ _ h => h)
  rintro _ _ rfl
  apply wp_bind.mpr (handleStandbyDR_next.mono _ fun _ _ h => h)
  rintro _ _ rfl
  apply wp_bind.mpr (announces_parameterUpdateStateMachine.mono _ fun _ _ _ => trivial)
  intro _ u ha
  have hu : Told u := by
    rcases ha.mem with hsame | hnew
    · obtain ⟨v, hview, hv⟩ := ht
      exact ⟨v, hsame.trans hview, hv⟩
    · obtain ⟨v, hview, hnext⟩ := hnew
      exact ⟨v, hview, announced_of_nextView hnext⟩
  simp only [handleDnfs, wp_bind, wp_get, wp_when, wp_finish, setMem, wp_modify]
  exact ⟨fun _ => ⟨fun _ => trivial, fun _ => hu⟩, fun _ => hu⟩

/-- From there the patching machine can only start an attempt of its own. -/
theorem marked_handlePatching {sp : StsParams} (h : UpdateMarked s) (htold : Told s) :
    wp (handlePatching env sp) (fun _ t => t = s) (fun _ => Marked) s := by
  have hm : Marked s := h.marked
  obtain ⟨v, hview, hv⟩ := htold
  obtain ⟨cond, hcond, rfl⟩ := readyView_eq_some.mp hview
  simp only [handlePatching, patchingStateMachine, wp_bind, wp_get, wp_when, hcond]
  constructor
  · intro _
    split
    · next cond' db hcond' hdb =>
      obtain rfl := Option.some.inj hcond'
      rcases hv with heq | ⟨-, hr⟩
      · have hstart : patchingState env sp
            (s.mem.spec.databasePatchingTimeout.getD defaultStsPatchingTimeout) cond =
              startPatchingBackup env .createComplete := by
          simp only [patchingState, (Prod.mk.inj heq).2]
        rw [hstart]
        simp only [startPatchingBackup, wp_bind, wp_get, wp_when, wp_finish, setStatus, setMem,
          wp_modify]
        constructor
        · exact fun _ => hm
        · intro _
          simp only [prePatchBackup, wp_bind, wp_get, wp_modify]
          apply takeSnapshots_spec.mono
          · rintro out t ⟨htaking, -⟩
            have hstored : t.stored = s.stored := htaking.stored
            have hmem : t.mem = { s.mem with status := { s.mem.status with
              currentActiveStateMachine := .patching } } := htaking.mem
            have ht : Marked t := ⟨by rw [hstored]; exact hm.stored, by rw [hmem]; simp⟩
            cases out with
            | ok => exact ⟨ht.stored, ht.mem⟩
            | conflict => exact ht
            | notFound => exact ⟨ht.stored, ht.mem⟩
            | failed => exact ⟨ht.stored, ht.mem⟩
            | lost => exact ⟨ht.stored, ht.mem⟩
          · exact fun _ _ h => h
      · rw [patchingState_of_not_handled (handledReason_of_parameterReason hr)]
        rfl
    · rfl
  · exact fun _ => trivial

theorem marked_machines {sp : StsParams} (h : UpdateMarked s) (htold : Told s) :
    wp (machines env sp) (fun _ => Marked) (fun _ => Marked) s := by
  apply wp_bind.mpr ((marked_handlePatching h htold).mono _ fun _ _ h => h)
  rintro _ s rfl
  have hmarked : ∀ t, Works parameterReason sp.images (fun _ => True) s t → Marked t := by
    intro t hw
    exact UpdateMarked.marked ⟨h.origin hw.stored, h.origin hw.mem⟩
  exact (works_afterPatching s).mono (fun _ => hmarked) fun _ => hmarked

end Marks

section Runs

variable {w w' : World}

/-- The reconcile gets to work on the instance. -/
def reads (env : Env) (w : World) : Bool :=
  ¬ (gone w.stored ∨ ¬ reached env .getInstance ∨ ¬ validateSpec w.stored)

/-- A reconcile keeps the property if what the machine sets has it. -/
theorem shows_reconcile (h : Shows shown w.stored)
    (hnext : ∀ inst, reads env w = true → entered env w.session = some inst →
      ∀ v, nextView env inst = some v → parameterReason v.2 = true → shown v) :
    Shows shown (reconcile env w).stored := by
  unfold reconcile
  split
  · exact h
  · next hreads =>
    have hnext := fun inst => hnext inst (by simpa [reads] using hreads)
    have hbody : wp (body env) (fun _ => BothShow shown) (fun _ => BothShow shown) w.session := by
      apply wp_body rfl (bothShow_preamble ⟨h, h⟩ hnext) fun _ ht => ht
      intro t config map ht _ _ _
      exact bothShow_machines ht
    have hdeferred : Within (Quiet parameterReason ∅) (updateStatus env .deferredStatus) :=
      quiet_updateStatus
    exact (hbody.state.quiet (hdeferred _).state).stored

theorem unready_step {e : Event} (h : Unready w.stored) (hw : step w e = some w') :
    Unready w'.stored := by
  rcases step_cases hw with ⟨env, -, rfl⟩ | hext
  · apply shows_reconcile h
    intro inst _ _ v hv hr
    rcases announced_of_nextView hv with rfl | ⟨hstatus, -⟩
    · cases hr
    · exact hstatus
  · exact Shows.congr h hext.readyView

/-- The instance has an update or a rollback behind it that the machine is to close. -/
def Closing (inst : Instance) : Prop :=
  isParameterUpdateStateMachineEntryCondition inst ∧
    ∃ v, readyView inst = some v ∧
      (v.2 = .parameterUpdateComplete ∨ v.2 = .parameterUpdateRollbackInProgress)

/-- An instance that is closing an update is marked by the machine. -/
theorem Closing.machine {inst : Instance} (h : Closing inst) (hun : Unready inst) :
    inst.status.currentActiveStateMachine = .parameterUpdate ∧
      ∃ v, readyView inst = some v ∧ Announced v := by
  obtain ⟨hentry, v, hview, hv⟩ := h
  have hr : parameterReason v.2 = true := by
    rcases hv with hv | hv <;> rw [hv] <;> rfl
  have hstatus : v.1 = .false := hun v hview hr
  refine ⟨?_, v, hview, .inr ⟨hstatus, hr⟩⟩
  obtain ⟨cond, hc, rfl⟩ := readyView_eq_some.mp hview
  have hnot : conditionStatusEquals (readyCond inst) .true = false := by
    rw [hc]
    simp [conditionStatusEquals, show cond.status = .false from hstatus]
  simpa [isParameterUpdateStateMachineEntryCondition, hnot] using hentry

theorem marked_reconcile (hun : Unready w.stored) (h : Closing w.stored) :
    (reconcile env w).stored.status.currentActiveStateMachine ≠ .none := by
  obtain ⟨hmachine, v, hview, hv⟩ := h.machine hun
  have hs : UpdateMarked w.session := ⟨hmachine, hmachine⟩
  unfold reconcile
  split
  · simp [hmachine]
  · have hpre : wp (preamble env) (fun _ t => UpdateMarked t ∧ Told t) (fun _ => Marked)
        w.session := by
      have hquiet : Within (Quiet machineReason ∅) (preamble env) := quiet_preamble fun _ h => h
      have htold : wp (preamble env) (fun _ => Told) (fun _ _ => True) w.session :=
        told_preamble rfl ⟨v, hview, hv⟩
      apply ((hquiet w.session).and htold).mono
      · rintro _ t ⟨hq, ht⟩
        exact ⟨⟨hs.origin hq.stored, hs.origin hq.mem⟩, ht⟩
      · rintro _ t ⟨hq, -⟩
        exact UpdateMarked.marked ⟨hs.origin hq.stored, hs.origin hq.mem⟩
    have hbody : wp (body env) (fun _ => Marked) (fun _ => Marked) w.session := by
      apply wp_body rfl hpre fun _ ht => ht.1.marked
      rintro t config map ⟨ht, htold⟩ _ _ _
      exact marked_machines ht htold
    -- the write at the end takes the copy, which is marked as well
    have hend : wp (updateStatus env .deferredStatus)
        (fun _ t => t.stored.status.currentActiveStateMachine ≠ .none)
        (fun _ t => t.stored.status.currentActiveStateMachine ≠ .none)
        (body env w.session).state := by
      apply wp_write
      · exact hbody.state.stored
      · rw [store_stored]
        exact hbody.state.mem
      · simp only [store_stored]
        exact hbody.state.mem
    exact hend.state

/-- Whenever a reconcile ends an update or a rollback with the instance complete, the active
machine that it leaves behind is not empty. -/
theorem active_after_update (w : World) (es : List Event) (hw : Unready w.stored) :
    EachStep step (fun w e w' => ∀ env, e = .reconcile env → Closing w.stored →
      readyView w'.stored = some (.true, .createComplete) →
        w'.stored.status.currentActiveStateMachine ≠ .none) w es := by
  have hstep : ∀ w e w', Unready w.stored → True → step w e = some w' → Unready w'.stored :=
    fun _ _ _ hun _ h => unready_step hun h
  apply eachStep_of_invariant hstep _ hw (meets_of_forall (fun _ _ => trivial) w es)
  rintro w e w' hun - h env rfl hclosing -
  cases h
  exact marked_reconcile hun hclosing

end Runs

section Sample

/-- A new value for one parameter, none of which needs a restart. -/
def requestParameters : Event :=
  .editSpec { (createdInstance none).spec with
    parameters := some ((∅ : StrMap).insert "open_cursors" "400") }

def parameterEnv : Env :=
  { calm 0 with
    parameterState := some ((∅ : StrMap).insert "open_cursors" "300")
    setParameters := some false }

/-- An update that succeeds leaves the instance marked by the parameter update machine. -/
theorem updated_instance_still_marked :
    ∃ w, run step (createdWorld none) [requestParameters, .reconcile parameterEnv,
        .reconcile parameterEnv, .reconcile parameterEnv] = some w ∧
      readyView w.stored = some (.true, .createComplete) ∧
      w.stored.status.currentParameters = w.stored.spec.parameters ∧
      w.stored.status.currentActiveStateMachine = .parameterUpdate :=
  ⟨_, rfl, by decide +kernel, by decide +kernel, by decide +kernel⟩

/-- The reconcile that closes an update, from the start of the update on. -/
theorem closed_update_active :
    ∃ w w', run step (createdWorld none) [requestParameters, .reconcile parameterEnv,
        .reconcile parameterEnv] = some w ∧ step w (.reconcile parameterEnv) = some w' ∧
      Closing w.stored ∧ readyView w'.stored = some (.true, .createComplete) ∧
      w'.stored.status.currentActiveStateMachine ≠ .none := by
  have hunready : Unready (createdWorld none).stored := by
    apply shows_of_untracked
    rintro _ ⟨⟩
    rfl
  have heach := active_after_update (createdWorld none)
    ([requestParameters, .reconcile parameterEnv, .reconcile parameterEnv] ++
      [.reconcile parameterEnv]) hunready
  have hclosing : ∀ w, run step (createdWorld none) [requestParameters, .reconcile parameterEnv,
      .reconcile parameterEnv] = some w → Closing w.stored ∧
        readyView (reconcile parameterEnv w).stored = some (.true, .createComplete) := by
    rintro _ ⟨⟩
    exact ⟨⟨by decide +kernel, (.false, .parameterUpdateComplete), by decide +kernel, .inl rfl⟩,
      by decide +kernel⟩
  obtain ⟨w, hw⟩ : ∃ w, run step (createdWorld none) [requestParameters, .reconcile parameterEnv,
      .reconcile parameterEnv] = some w := ⟨_, rfl⟩
  obtain ⟨hc, hready⟩ := hclosing w hw
  exact ⟨w, _, hw, rfl, hc, hready, heach.last hw rfl parameterEnv rfl hc hready⟩

end Sample

end ElCarro.Instance.Reconciler
