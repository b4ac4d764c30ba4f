import ElCarro.Instance.Midway
import ElCarro.Instance.RebuildGate
import ElCarro.Instance.RestoreView

/-! # What a restore may delete

The old StatefulSet and the old claims are deleted in a later reconcile than the
one that has accepted the request. Each reconcile looks for the Backup again, so
that the request is checked where it is served, and the reason that leads to the
deletion is set by an acceptance only.
-/

namespace ElCarro.Instance.Reconciler

open GoTime K8s Api Flow

section System

/-- The act deletes an object for a restore. -/
def Act.deletesForRestore : Act → Bool
  | .deleteSts path => path = .restore
  | .deletePvc path _ _ => path = .restore
  | _ => false

def Preparing (inst : Instance) : Prop :=
  (readyView inst).map Prod.snd = some .restorePreparationInProgress

instance (inst : Instance) : Decidable (Preparing inst) := inferInstanceAs (Decidable (_ = _))

/-- A request that was accepted, with the restore time that was stored before and after. -/
structure Acceptance where
  requestTime : Time
  previous : Option Time
  persisted : Option Time

/-- The request is the first one or later than the one before it, and its time is stored. -/
structure Acceptance.Valid (acceptance : Acceptance) : Prop where
  later : ∀ t ∈ acceptance.previous, t < acceptance.requestTime
  persisted : acceptance.persisted = some (rfc3339Copy acceptance.requestTime)

structure Prepared where
  world : World
  /-- What the preparation under way goes back to. -/
  accepted : Option Acceptance

def Prepared.observe (a : Prepared) (w : World) : Prepared where
  world := w
  accepted :=
    if ¬ Preparing w.stored then none
    else if Preparing a.world.stored then a.accepted
    else a.world.stored.spec.restore.map fun restore =>
      ⟨restore.requestTime, a.world.stored.status.lastRestoreTime, w.stored.status.lastRestoreTime⟩

def Prepared.step (a : Prepared) (e : Event) : Option Prepared :=
  (Reconciler.step a.world e).map a.observe

end System

section Property

/-- The request insists on the restore, and its Backup is a snapshot that is Ready. -/
def Authorised (env : Env) (inst : Instance) : Prop :=
  ∃ restore backup, inst.spec.restore = some restore ∧ restore.force = true ∧
    findBackupForRestore env.catalog inst restore = .ok backup ∧ backup.type = .snapshot ∧
      conditionStatusEquals (findCondition backup.status.conditions .ready) .true = true

/-- What is deleted for a restore is deleted in a reconcile of a request that is authorised, and
after its acceptance. -/
def DeletesAuthorised (a : Prepared) (e : Event) (a' : Prepared) : Prop :=
  ∃ new, a'.world.acts = new ++ a.world.acts ∧
    ∀ act ∈ new, act.deletesForRestore = true →
      (∃ env, e = .reconcile env ∧ Authorised env a.world.stored) ∧
        ∃ acceptance ∈ a.accepted, acceptance.Valid

end Property

section Uninvolved

/-- A step that neither accepts a request nor deletes anything for one. -/
structure Uninvolved (s t : Session) : Prop where
  stored : Preparing t.stored → Preparing s.stored ∨ Preparing s.mem
  mem : Preparing t.mem → Preparing s.stored ∨ Preparing s.mem
  acts : ∃ new, t.acts = new ++ s.acts ∧ ∀ act ∈ new, act.deletesForRestore = false

instance : Std.Refl Uninvolved := ⟨fun _ => ⟨.inl, .inr, [], rfl, by simp⟩⟩

instance : IsTrans Session Uninvolved where
  trans s t u h h' := by
    obtain ⟨new, hnew, hall⟩ := h.acts
    obtain ⟨new', hnew', hall'⟩ := h'.acts
    refine ⟨?_, ?_, new' ++ new, by rw [hnew', hnew, List.append_assoc], ?_⟩
    · intro hu
      exact (h'.stored hu).elim h.stored h.mem
    · intro hu
      exact (h'.mem hu).elim h.stored h.mem
    · intro act hact
      rcases List.mem_append.mp hact with hact | hact
      · exact hall' act hact
      · exact hall act hact

def preparationReason (r : Reason) : Bool := r = .restorePreparationInProgress

variable {env : Env} {s t u : Session} {images : StrMap} {paths : Path → Prop} {α : Type}

theorem preparationReason_of_not_claimedReason :
    ∀ r, claimedReason r = false → preparationReason r = false := by
  intro r
  cases r <;> decide

theorem preparationReason_of_not_machineReason :
    ∀ r, machineReason r = false → preparationReason r = false := by
  intro r
  cases r <;> decide

theorem Origin.preparing {inst : Instance} (h : Origin preparationReason images s inst)
    (hp : Preparing inst) : Preparing s.stored ∨ Preparing s.mem := by
  rcases h.view with ⟨hv, -⟩ | ⟨hv, -⟩ | hv
  · left
    unfold Preparing at hp ⊢
    rwa [hv] at hp
  · right
    unfold Preparing at hp ⊢
    rwa [hv] at hp
  · obtain ⟨v, hview, hreason⟩ := Option.map_eq_some_iff.mp hp
    have hnot := hv v hview
    rw [hreason] at hnot
    cases hnot

theorem Works.uninvolved (h : Works preparationReason images paths s t) (hpaths : ¬ paths .restore) :
    Uninvolved s t := by
  obtain ⟨new, hacts, hwork⟩ := h.acts
  refine ⟨h.stored.preparing, h.mem.preparing, new, hacts, ?_⟩
  intro act hact
  cases hwork act hact with
  | applySts _ _ _ => rfl
  | deleteSts hpath =>
    apply decide_eq_false
    rintro rfl
    exact hpaths hpath
  | deletePvc hpath =>
    apply decide_eq_false
    rintro rfl
    exact hpaths hpath

theorem uninvolved_of_works {p : P α} (hp : Within (Works preparationReason images paths) p)
    (hpaths : ¬ paths .restore) : Within Uninvolved p :=
  fun s => (hp s).mono (fun _ _ h => h.uninvolved hpaths) fun _ _ h => h.uninvolved hpaths

theorem uninvolved_of_quiet {p : P α} (hp : Within (Quiet preparationReason ∅) p) :
    Within Uninvolved p := by
  have hworks : Within (Works preparationReason ∅ fun _ => False) p := works_of_quiet hp
  exact uninvolved_of_works hworks id

theorem deletesForRestore_of_not_removes {act : Act} (h : act.removes = false) :
    act.deletesForRestore = false := by
  cases act with
  | deleteSts path =>
    apply decide_eq_false
    rintro rfl
    cases h
  | deletePvc path _ _ =>
    apply decide_eq_false
    rintro rfl
    cases h
  | _ => rfl

/-- Building from snapshots is work of the restore, but deletes nothing. -/
theorem uninvolved_createFromSnapshot {inst : Instance} {sp : StsParams} :
    Within Uninvolved (createFromSnapshot env .restore inst sp) := by
  intro s
  have hworks : Within (Works preparationReason sp.images (· = .restore))
      (createFromSnapshot env .restore inst sp) := works_createFromSnapshot rfl rfl
  have huninvolved : ∀ t, Works preparationReason sp.images (· = .restore) s t ∧ Tame s t →
      Uninvolved s t := by
    rintro t ⟨hw, htame⟩
    obtain ⟨new, hacts, hnone⟩ := htame.acts
    refine ⟨hw.stored.preparing, hw.mem.preparing, new, hacts, ?_⟩
    intro act hact
    exact deletesForRestore_of_not_removes (hnone act hact)
  exact ((hworks s).and (tame_createFromSnapshot s)).mono (fun _ => huninvolved)
    fun _ => huninvolved

theorem uninvolved_launchRestore {restore : RestoreSpec} {sp : StsParams} :
    Within Uninvolved (launchRestore env restore sp) := by
  refine .bind (uninvolved_of_quiet (quiet_setReady rfl)) fun _ => ?_
  refine .bind (uninvolved_of_quiet quiet_updateStatus) fun _ => .bind (.when fun _ => .finish _) ?_
  intro _
  unfold startRestore
  cases restore.backupType with
  | snapshot =>
    refine .bind .get fun _ => .bind uninvolved_createFromSnapshot fun _ => ?_
    exact .bind (.when fun _ => uninvolved_of_quiet quiet_noteLaunch) fun _ => .finish _
  | physical =>
    exact uninvolved_of_quiet (quiet_launchPhysical preparationReason_of_not_claimedReason)
  | unset => exact .finish _
  | logical => exact .finish _

theorem follows_ne_preparation {r : Reason} :
    ∀ reason ∈ follows r, reason ≠ .restorePreparationInProgress := by
  cases r <;> decide

theorem Applied.not_deletesForRestore {r : Reason} {act : Act} (h : Applied r act) :
    act.deletesForRestore = false := by
  cases h <;> rfl

theorem Removal.not_deletesForRestore {disks : List DiskSpec} {act : Act}
    (h : Removal disks s act) : act.deletesForRestore = false := by
  cases h <;> rfl

/-- A Ready condition that was just set to another reason. -/
theorem not_preparing_of_view {inst : Instance} {status : CondStatus} {reason : Reason}
    (hview : readyView inst = some (status, reason))
    (hr : reason ≠ .restorePreparationInProgress) : ¬ Preparing inst := by
  intro hp
  unfold Preparing at hp
  rw [hview] at hp
  exact hr (Option.some.inj hp)

theorem Preparing.congr {inst inst' : Instance} (h : Preparing inst)
    (hview : readyView inst = readyView inst') : Preparing inst' := by
  unfold Preparing at h ⊢
  rwa [hview] at h

/-- The patching machine has reasons and paths of its own. -/
theorem PatchStep.uninvolved {disks : List DiskSpec} {r : Reason} (h : PatchStep disks r s t) :
    Uninvolved s t := by
  have hstored : Preparing t.stored → Preparing s.stored ∨ Preparing s.mem := by
    rw [h.stored]
    exact .inl
  have hstay : readyView t.mem = readyView s.mem →
      Preparing t.mem → Preparing s.stored ∨ Preparing s.mem :=
    fun hview hp => .inr (hp.congr hview)
  have hnext : ∀ {status reason}, readyView t.mem = some (status, reason) →
      reason ≠ .restorePreparationInProgress →
        Preparing t.mem → Preparing s.stored ∨ Preparing s.mem :=
    fun hview hr hp => absurd hp (not_preparing_of_view hview hr)
  cases h.move with
  | stay hview _ hacts =>
    obtain ⟨new, hacts, hall⟩ := hacts
    exact ⟨hstored, hstay hview, new, hacts, fun act hact => (hall act hact).not_deletesForRestore⟩
  | next hfollows hview _ _ hacts =>
    obtain ⟨new, hacts, hall⟩ := hacts
    exact ⟨hstored, hnext hview (follows_ne_preparation _ hfollows), new, hacts,
      fun act hact => (hall act hact).not_deletesForRestore⟩
  | @remove act _ hact hmem _ hacts =>
    refine ⟨hstored, hstay (by rw [hmem]), [act], hacts, ?_⟩
    intro act' hact'
    rw [List.mem_singleton.mp hact']
    exact hact.not_deletesForRestore
  | @begin backupID names _ hacts _ hview =>
    refine ⟨hstored, ?_, names.map Act.takeSnapshot ++
      [.beginBackup backupID (s.mem.spec.disks.getD [])], ?_, ?_⟩
    · rcases hview with hview | hview | ⟨hview, -⟩
      · exact hstay hview
      · exact hnext hview (by decide)
      · exact hnext hview (by decide)
    · rw [hacts, List.append_assoc]
      rfl
    · intro act hact
      rcases List.mem_append.mp hact with hact | hact
      · obtain ⟨name, -, rfl⟩ := List.mem_map.mp hact
        rfl
      · rw [List.mem_singleton.mp hact]
        rfl
  | @check names _ _ hacts hview =>
    refine ⟨hstored, ?_, names.map Act.seeReady, hacts, ?_⟩
    · rcases hview with hview | hview | ⟨hview, -⟩
      · exact hstay hview
      · exact hnext hview (by decide)
      · exact hnext hview (by decide)
    · intro act hact
      obtain ⟨name, -, rfl⟩ := List.mem_map.mp hact
      rfl

end Uninvolved

section Machine

variable {env : Env} {s t : Session} {sp : StsParams} {restore : RestoreSpec} {backup : Backup}

/-- The request is the first one or later than the restore time of the instance. -/
def Later (inst : Instance) (restore : RestoreSpec) : Prop :=
  ∀ t ∈ inst.status.lastRestoreTime, t < rfc3339Copy restore.requestTime

/-- The restore time of a request that was accepted is noted. -/
def Noted (inst : Instance) (restore : RestoreSpec) : Prop :=
  inst.status.lastRestoreTime = some (rfc3339Copy restore.requestTime)

/-- How a reconcile is left by the restore machine. -/
inductive Restores (env : Env) (s t : Session) : Prop where
  | uninvolved (h : Uninvolved s t)
  | deletes (hp : Preparing s.mem) (hauthorised : Authorised env s.mem)
      (hacts : ∃ new, t.acts = new ++ s.acts)
  | accepts {restore : RestoreSpec} (hrequest : s.mem.spec.restore = some restore)
      (hlater : Later s.mem restore)
      (hstored : Preparing t.stored → Preparing s.stored ∨ Preparing s.mem ∨ Noted t.stored restore)
      (hmem : Noted t.mem restore) (hacts : t.acts = s.acts)

theorem later_of_not_turnsDown {inst : Instance}
    (h : ¬ inst.status.lastRestoreTime.any (rfc3339Copy restore.requestTime ≤ ·) = true) :
    Later inst restore := by
  intro t ht
  by_contra hle
  apply h
  exact (Option.any_eq_true _ _).mpr ⟨t, ht, decide_eq_true (Int.not_lt.mp hle)⟩

theorem store_acts {inst : Instance} : (s.store inst).acts = s.acts := by
  unfold Session.store
  split <;> rfl

/-- The acceptance is noted in the copy, and in what is stored if that says so. -/
theorem noted_commit {reason : Reason} {message : String} {c : Call} {r : Result}
    (hmem : Noted s.mem restore) :
    wp (commit env reason message c r) (fun _ _ => False)
      (fun _ t => (t.stored = s.stored ∨ Noted t.stored restore) ∧ Noted t.mem restore ∧
        t.acts = s.acts) s := by
  simp only [commit, setReady, upsertCondition, setStatus, setMem, wp_bind, wp_modify, updateStatus]
  apply wp_write
  · exact ⟨.inl rfl, hmem, rfl⟩
  · refine ⟨.inr ?_, ?_, store_acts⟩
    · rw [store_stored]
      exact hmem
    · rw [store_mem]
      exact hmem
  · refine ⟨.inr ?_, ?_, store_acts⟩
    · rw [store_stored]
      exact hmem
    · change Noted (Session.store _ _).stored restore
      rw [store_stored]
      exact hmem

theorem restores_acceptRequest (hrequest : s.mem.spec.restore = some restore) :
    wp (acceptRequest env restore) (fun _ t => Uninvolved s t) (fun _ t => Restores env s t) s := by
  simp only [acceptRequest, wp_bind, wp_get]
  split
  · exact Std.Refl.refl s
  · next hdown =>
    push Not at hdown
    have hlater : Later s.mem restore := later_of_not_turnsDown hdown.2
    have hquiet : Within (Quiet preparationReason ∅)
        (acquireInstanceMaintenanceLock env instanceController) :=
      quiet_acquireInstanceMaintenanceLock
    have hlock := uninvolved_of_quiet hquiet
    simp only [wp_bind]
    apply ((hlock s).and (hquiet s)).mono _ fun _ _ h => .uninvolved h.1
    rintro locked t ⟨hun, hq⟩
    simp only [wp_bind, wp_when, wp_finish, setStatus, setMem, wp_modify]
    refine ⟨fun _ => .uninvolved hun, fun _ => ?_⟩
    refine wp.mono (@noted_commit env _ restore _ _ _ _ ?_) (fun _ _ h => h.elim) ?_
    · rfl
    · rintro _ u ⟨hstored, hmem, hacts⟩
      refine .accepts hrequest hlater ?_ hmem (hacts.trans hq.acts)
      rcases hstored with hstored | hnoted
      · rw [hstored]
        intro hp
        exact (hun.stored hp).imp_right .inl
      · exact fun _ => .inr (.inr hnoted)

theorem restores_prepareRestore (hp : Preparing s.mem)
    (hauthorised : restore.backupType = .snapshot → Authorised env s.mem) :
    wp (prepareRestore env restore sp) (fun _ t => Uninvolved s t)
      (fun _ t => Restores env s t) s := by
  have hleave : Within Uninvolved (leave env .restorePreparationComplete "" .requeue) :=
    uninvolved_of_quiet (quiet_leave rfl)
  by_cases hsnapshot : restore.backupType = .snapshot
  · have hworks : Within (Works (fun _ => false) ∅ (· = .restore)) (prepareRestore env restore sp) :=
      works_prepareRestore (fun _ _ _ => rfl) rfl
    have hreturns : Returns (prepareRestore env restore sp) := .bind fun _ => .bind fun _ => .finish _
    apply ((hreturns s).and (hworks s)).mono (fun _ _ h => h.1.elim)
    rintro _ t ⟨-, hw⟩
    obtain ⟨new, hacts, -⟩ := hw.acts
    exact .deletes hp (hauthorised hsnapshot) ⟨new, hacts⟩
  · simp only [prepareRestore, wp_bind, wp_when]
    refine ⟨fun h => absurd h hsnapshot, fun _ => ?_⟩
    exact (hleave s).mono (fun _ _ h => h) fun _ _ h => .uninvolved h

theorem restores_of_uninvolved {p : P Unit} (hp : Within Uninvolved p) :
    wp p (fun _ t => Uninvolved s t) (fun _ t => Restores env s t) s :=
  (hp s).mono (fun _ _ h => h) fun _ _ h => .uninvolved h

theorem authorised_of_serve {inst : Instance} {reason : Reason}
    (h : decision env inst = .serve restore backup reason)
    (hsnapshot : restore.backupType = .snapshot) : Authorised env inst := by
  obtain ⟨hrequest, -⟩ := decision_serve h
  obtain ⟨hforce, hfound, hready⟩ := decision_found h
  have htype : backup.type = .snapshot := (findBackupForRestore_ok hfound).2.trans hsnapshot
  exact ⟨restore, backup, hrequest, hforce, hfound, htype, hready⟩

theorem restores_restoreState {reason : Reason} {status : CondStatus}
    (hrequest : s.mem.spec.restore = some restore)
    (hview : readyView s.mem = some (status, reason))
    (hauthorised : restore.backupType = .snapshot → Authorised env s.mem) :
    wp (restoreState env sp restore backup reason) (fun _ t => Uninvolved s t)
      (fun _ t => Restores env s t) s := by
  have hclaimed := preparationReason_of_not_claimedReason
  unfold restoreState
  cases reason with
  | restoreComplete => exact restores_acceptRequest hrequest
  | createComplete => exact restores_acceptRequest hrequest
  | restoreFailed => exact restores_acceptRequest hrequest
  | restorePreparationInProgress =>
    exact restores_prepareRestore (congrArg (Option.map Prod.snd) hview) hauthorised
  | restorePreparationComplete => exact restores_of_uninvolved uninvolved_launchRestore
  | restoreInProgress =>
    exact restores_of_uninvolved (uninvolved_of_quiet (quiet_awaitRestore hclaimed))
  | postRestoreBootstrapInProgress =>
    exact restores_of_uninvolved (uninvolved_of_quiet (quiet_bootstrapRestored hclaimed))
  | postRestoreBootstrapComplete =>
    exact restores_of_uninvolved (uninvolved_of_quiet (quiet_patchRestored hclaimed))
  | postRestoreDatabasePatchingInProgress =>
    exact restores_of_uninvolved (uninvolved_of_quiet (quiet_awaitRestoredPatching hclaimed))
  | _ => exact Std.Refl.refl s

theorem restores_handleRestore :
    wp (handleRestore env sp) (fun _ t => Uninvolved s t) (fun _ t => Restores env s t) s := by
  rw [wp_congr (handleRestore_eq env sp s)]
  cases hd : decision env s.mem with
  | skip => exact Std.Refl.refl s
  | wait => exact .uninvolved (Std.Refl.refl s)
  | reject message =>
    exact restores_of_uninvolved
      (uninvolved_of_quiet (quiet_failRestore preparationReason_of_not_claimedReason))
  | serve restore backup reason =>
    obtain ⟨hrequest, status, hview⟩ := decision_serve hd
    exact restores_restoreState hrequest hview (authorised_of_serve hd)

end Machine

section Reconcile

variable {env : Env} {s t : Session} {w w' : World}

/-- What a reconcile does about restores, as seen from the instance that it reads. -/
structure Course (env : Env) (inst : Instance) (acts : List Act) (t : Session) : Prop where
  stored : Preparing t.stored → Preparing inst ∨
    ∃ restore, inst.spec.restore = some restore ∧ Later inst restore ∧ Noted t.stored restore
  mem : Preparing t.mem → Preparing inst ∨
    ∃ restore, inst.spec.restore = some restore ∧ Later inst restore ∧ Noted t.mem restore
  acts : ∃ new, t.acts = new ++ acts ∧ ∀ act ∈ new, act.deletesForRestore = true →
    Preparing inst ∧ Authorised env inst

theorem Uninvolved.course (hs : s.mem = s.stored) (h : Uninvolved s t) :
    Course env s.stored s.acts t := by
  have hpreparing : Preparing s.stored ∨ Preparing s.mem → Preparing s.stored := by
    rw [hs]
    exact fun h => h.elim id id
  obtain ⟨new, hacts, hnone⟩ := h.acts
  refine ⟨fun hp => .inl (hpreparing (h.stored hp)), fun hp => .inl (hpreparing (h.mem hp)), new,
    hacts, ?_⟩
  intro act hact hdeletes
  rw [hnone act hact] at hdeletes
  cases hdeletes

theorem Handed.authorised {inst handed : Instance} (h : Handed inst handed)
    (ha : Authorised env handed) : Authorised env inst := by
  obtain ⟨_, _, _, rfl, -⟩ := h
  exact ha

theorem Handed.later {inst handed : Instance} {restore : RestoreSpec} (h : Handed inst handed)
    (hl : Later handed restore) : Later inst restore := by
  obtain ⟨_, _, _, rfl, -⟩ := h
  exact hl

/-- The machine is handed the instance as it was read, but for conditions that do not matter. -/
theorem Restores.course {u : Session} (hs : s.mem = s.stored) (hpre : Uninvolved s t)
    (hh : Handed s.stored t.mem) (h : Restores env t u) : Course env s.stored s.acts u := by
  have hpreparing : Preparing t.stored ∨ Preparing t.mem → Preparing s.stored := by
    have hboth : Preparing s.stored ∨ Preparing s.mem → Preparing s.stored := by
      rw [hs]
      exact fun h => h.elim id id
    exact fun h => hboth (h.elim hpre.stored hpre.mem)
  cases h with
  | uninvolved h => exact Uninvolved.course hs (IsTrans.trans _ _ _ hpre h)
  | deletes hp hauthorised hacts =>
    have hinst : Preparing s.stored := hpreparing (.inr hp)
    obtain ⟨new, hacts⟩ := hacts
    obtain ⟨new', hacts', -⟩ := hpre.acts
    refine ⟨fun _ => .inl hinst, fun _ => .inl hinst, new ++ new', ?_, ?_⟩
    · rw [hacts, hacts', List.append_assoc]
    · exact fun _ _ _ => ⟨hinst, hh.authorised hauthorised⟩
  | @accepts restore hrequest hlater hstored hmem hacts =>
    have hrequest' : s.stored.spec.restore = some restore := by
      rw [← hh.kept.1]
      exact hrequest
    obtain ⟨new, hacts', hnone⟩ := hpre.acts
    refine ⟨?_, ?_, new, hacts.trans hacts', ?_⟩
    · intro hp
      rcases hstored hp with hp | hp | hnoted
      · exact .inl (hpreparing (.inl hp))
      · exact .inl (hpreparing (.inr hp))
      · exact .inr ⟨restore, hrequest', hh.later hlater, hnoted⟩
    · exact fun _ => .inr ⟨restore, hrequest', hh.later hlater, hmem⟩
    · intro act hact hdeletes
      rw [hnone act hact] at hdeletes
      cases hdeletes

theorem uninvolved_createInstance {sp : StsParams} : Within Uninvolved (createInstance env sp) := by
  have hworks : Within (Works preparationReason sp.images fun p => p = .resize ∨ p = .main)
      (createInstance env sp) :=
    works_createInstance preparationReason_of_not_claimedReason (.inl rfl) (.inr rfl) rfl
  exact uninvolved_of_works hworks (by decide)

theorem course_body (hs : s.mem = s.stored) :
    wp (body env) (fun _ => Course env s.stored s.acts) (fun _ => Course env s.stored s.acts) s := by
  have hpre : Within Uninvolved (preamble env) :=
    uninvolved_of_quiet (quiet_preamble preparationReason_of_not_machineReason)
  apply wp_body (J := Uninvolved s) hs
  · exact (hpre s).mono (fun _ _ h => h) fun _ _ h => h.course hs
  · exact fun _ h => h.course hs
  · intro t config map ht hh _ _
    refine wp_bind.mpr (patchStep_handlePatching.mono ?_ ?_)
    · rintro _ u ⟨rfl, -⟩
      refine wp_bind.mpr (restores_handleRestore.mono ?_ fun _ _ h => h.course hs ht hh)
      intro _ v hv
      have hcourse : ∀ v', Uninvolved v v' → Course env s.stored s.acts v' := fun v' hv' =>
        Uninvolved.course hs (IsTrans.trans _ _ _ ht (IsTrans.trans _ _ _ hv hv'))
      exact (uninvolved_createInstance v).mono (fun _ => hcourse) fun _ => hcourse
    · rintro _ u ⟨-, cond, -, hstep⟩
      exact Uninvolved.course hs (IsTrans.trans _ _ _ ht hstep.uninvolved)

/-- The acceptances and deletions of one reconcile. -/
structure Turn (env : Env) (w w' : World) : Prop where
  accepts : Preparing w'.stored → Preparing w.stored ∨
    ∃ restore, w.stored.spec.restore = some restore ∧ Later w.stored restore ∧
      Noted w'.stored restore
  acts : ∃ new, w'.acts = new ++ w.acts ∧ ∀ act ∈ new, act.deletesForRestore = true →
    Preparing w.stored ∧ Authorised env w.stored

theorem turn_reconcile : Turn env w (reconcile env w) := by
  apply reconcile_of_body (I := Course env w.stored w.acts) (J := Turn env w)
  · exact ⟨.inl, [], rfl, by simp⟩
  · exact course_body rfl
  · intro t v ht hv
    constructor
    · rcases hv.stored with hstored | hstored
      · rw [hstored]
        exact ht.stored
      · rw [hstored]
        exact ht.mem
    · rw [hv.acts]
      exact ht.acts

end Reconcile

section Runs

variable {a a' : Prepared} {w : World} {e : Event}

/-- A preparation under way goes back to an acceptance. -/
def Founded (a : Prepared) : Prop :=
  Preparing a.world.stored → ∃ acceptance ∈ a.accepted, acceptance.Valid

theorem rfc3339Copy_le (t : Time) : rfc3339Copy t ≤ t :=
  Int.ediv_mul_le t (by decide)

theorem founded_observe (h : Founded a)
    (haccepts : Preparing w.stored → Preparing a.world.stored ∨
      ∃ restore, a.world.stored.spec.restore = some restore ∧ Later a.world.stored restore ∧
        Noted w.stored restore) : Founded (a.observe w) := by
  intro hp
  have hp' : Preparing w.stored := hp
  unfold Prepared.observe
  rw [if_neg (not_not.mpr hp')]
  by_cases hbefore : Preparing a.world.stored
  · rw [if_pos hbefore]
    exact h hbefore
  · rw [if_neg hbefore]
    obtain ⟨restore, hrequest, hlater, hnoted⟩ := (haccepts hp').resolve_left hbefore
    rw [hrequest]
    refine ⟨_, rfl, ?_, hnoted⟩
    intro t ht
    exact lt_of_lt_of_le (hlater t ht) (rfc3339Copy_le _)

theorem founded_step (h : Founded a) (hstep : a.step e = some a') :
    Founded a' ∧ DeletesAuthorised a e a' := by
  obtain ⟨w, hw, rfl⟩ := Option.map_eq_some_iff.mp hstep
  rcases step_cases hw with ⟨env, rfl, rfl⟩ | hext
  · have hturn : Turn env a.world (reconcile env a.world) := turn_reconcile
    obtain ⟨new, hacts, hdeletes⟩ := hturn.acts
    refine ⟨founded_observe h hturn.accepts, new, hacts, ?_⟩
    intro act hact hd
    obtain ⟨hp, hauthorised⟩ := hdeletes act hact hd
    exact ⟨⟨env, rfl, hauthorised⟩, h hp⟩
  · constructor
    · apply founded_observe h
      intro hp
      exact .inl (hp.congr hext.readyView)
    · exact ⟨[], hext.acts, by simp⟩

/--
In every run of the reconciler, whatever the user makes of the request meanwhile, the restore
machine deletes only in a reconcile that finds a request with force and a Ready snapshot Backup,
and only after it has accepted and stored a request that is later than the one before.
-/
theorem restore_deletes_authorised (w : World) (events : List Event) (hw : ¬ Preparing w.stored) :
    Runs.EachStep Prepared.step DeletesAuthorised ⟨w, none⟩ events := by
  have hrun : Runs.Meets Prepared.step (fun _ _ => True) ⟨w, none⟩ events :=
    Runs.meets_of_forall (fun _ _ => trivial) _ _
  have hs : Founded ⟨w, none⟩ := fun hp => absurd hp hw
  apply Runs.eachStep_of_invariant (I := Founded) _ _ hs hrun
  · intro a e a' ha _ hstep
    exact (founded_step ha hstep).1
  · intro a e a' ha _ hstep
    exact (founded_step ha hstep).2

/-- The old StatefulSet of a request is deleted on the way. -/
theorem served_restore_deletes_authorised :
    ((Runs.run step (createdWorld (some [dataDisk])) servedRestore).any fun w =>
        w.acts.any Act.deletesForRestore) = true ∧
      Runs.EachStep Prepared.step DeletesAuthorised ⟨createdWorld (some [dataDisk]), none⟩
        servedRestore := by
  refine ⟨by decide +kernel, ?_⟩
  exact restore_deletes_authorised _ _ (by decide)

end Runs

end ElCarro.Instance.Reconciler
