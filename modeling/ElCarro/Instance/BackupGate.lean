import ElCarro.Instance.PatchingSteps

/-! # New images only after complete snapshots

The patching machine applies new images from one reason only, which it reaches
through its check of the snapshots. The other parts of the reconciler apply the
configured images without such a check, so they have to be the active ones
whenever the machine leaves the reconcile to them.
-/

namespace ElCarro.Instance.Reconciler

open GoTime K8s Api Flow

section Property

/-- The snapshots that the current attempt has taken were all seen ready, and they are those of
all disks with which it began. -/
def Complete (acts : List Act) : Prop :=
  ∃ a ∈ attempt acts, a.taken ⊆ a.seen ∧
    ∀ disk ∈ a.disks, snapshotName a.backupID disk.name ∈ a.seen

instance (acts : List Act) : Decidable (Complete acts) := by
  unfold Complete
  infer_instance

/-- A StatefulSet with other than the active images was applied only when the snapshots of
the attempt were complete. -/
def BackedUp : List Act → Prop
  | [] => True
  | .applySts _ _ sts active :: older => (sts.images ≠ active → Complete older) ∧ BackedUp older
  | _ :: older => BackedUp older

instance decidableBackedUp : (acts : List Act) → Decidable (BackedUp acts)
  | [] => .isTrue trivial
  | .applySts _ _ _ _ :: older =>
    haveI := decidableBackedUp older
    inferInstanceAs (Decidable (_ ∧ _))
  | .beginBackup _ _ :: older => decidableBackedUp older
  | .takeSnapshot _ :: older => decidableBackedUp older
  | .seeReady _ :: older => decidableBackedUp older
  | .deleteSts _ :: older => decidableBackedUp older
  | .deletePvc _ _ _ :: older => decidableBackedUp older

/-- The images that a reconcile gets from its configuration. -/
def configuredImages (env : Env) (inst : Instance) : Option StrMap :=
  match env.config with
  | .error _ => none
  | .ok config => (overrideDefaultImages env config inst).toOption

/-- The check of the snapshots looks at all those of the attempt and finds none undecided. -/
def ChecksAll (w : World) (inst : Instance) : Prop :=
  (∀ a ∈ attempt w.acts, a.backupID = inst.status.backupID ∧
    Covers (inst.spec.disks.getD []) a.disks) ∧
  Decided w.snapshots inst.status.backupID (inst.spec.disks.getD [])

instance (w : World) (inst : Instance) : Decidable (ChecksAll w inst) := by
  unfold ChecksAll
  infer_instance

/-- Images other than the active ones are left to the patching machine, and its check looks at
all snapshots of the attempt. -/
def ChecksFirst (w : World) : Event → Prop
  | .reconcile env =>
    (∀ images ∈ configuredImages env w.stored, images = w.stored.status.activeImages.getD ∅ ∨
      Handles w.stored images ∧ ¬ parameterUpdateRequested w.stored) ∧
    (conditionReasonEquals (readyCond w.stored) .patchingBackupStarted → ChecksAll w w.stored)
  | _ => True

instance (w : World) : (e : Event) → Decidable (ChecksFirst w e)
  | .reconcile _ => inferInstanceAs (Decidable (_ ∧ _))
  | .editSpec _ | .deleteInstance _ | .writeStatus _ _ _ | .addSnapshot _ _ | .setSnapshotStatus _ _
  | .removeSnapshot _ | .stsGone | .addPvc _ | .pvcGone _ => isTrue trivial

end Property

section Gate

/-- Reasons from which new images are or will be applied. -/
def gateReason : Reason → Bool
  | .deploymentSetPatchingInProgress | .deploymentSetPatchingComplete => true
  | _ => false

/-- What the Ready condition promises about the attempt. -/
def Promises (acts : List Act) (view : Option (CondStatus × Reason)) : Prop :=
  ∀ v ∈ view, (v.2 = .patchingBackupStarted → (attempt acts).isSome) ∧
    (gateReason v.2 = true → Complete acts)

/-- The snapshots taken are those of the disks with which the attempt began. -/
def TakenOnly (acts : List Act) : Prop :=
  ∀ a ∈ attempt acts, ∀ name ∈ a.taken, ∃ disk ∈ a.disks, name = snapshotName a.backupID disk.name

structure Gated (s : Session) : Prop where
  backedUp : BackedUp s.acts
  taken : TakenOnly s.acts
  stored : Promises s.acts (readyView s.stored)
  mem : Promises s.acts (readyView s.mem)

variable {s t : Session} {images : StrMap} {acts : List Act}

theorem promises_of_untracked {view : Option (CondStatus × Reason)}
    (h : ∀ v, view = some v → attemptReason v.2 = false) : Promises acts view := by
  intro v hv
  have hr := h v hv
  constructor
  · intro heq
    rw [heq] at hr
    cases hr
  · intro hgate
    generalize v.2 = r at hr hgate
    cases r <;> cases hgate <;> cases hr

theorem promises_of_unhurried {inst : Instance} (h : Unhurried inst) :
    Promises acts (readyView inst) := by
  apply promises_of_untracked
  intro v hv
  exact (Bool.or_eq_false_iff.mp (h v hv)).1

/-- Acts that belong to no backup, where images other than the active ones need one. -/
theorem BackedUp.append {new : List Act} (hacts : BackedUp acts)
    (hnew : ∀ act ∈ new, act.ofBackup = false)
    (happly : ∀ path created sts active, .applySts path created sts active ∈ new →
      sts.images ≠ active → Complete acts) : BackedUp (new ++ acts) := by
  induction new with
  | nil => exact hacts
  | cons act rest ih =>
    have hrest : ∀ act ∈ rest, act.ofBackup = false :=
      fun act hact => hnew act (List.mem_cons_of_mem _ hact)
    have ih := ih hrest fun path created sts active hact =>
      happly path created sts active (List.mem_cons_of_mem _ hact)
    cases act with
    | applySts path created sts active =>
      refine ⟨fun hne => ?_, ih⟩
      have hcomplete := happly path created sts active List.mem_cons_self hne
      change Complete (rest ++ acts)
      unfold Complete at hcomplete ⊢
      rw [attempt_append hrest]
      exact hcomplete
    | beginBackup backupID disks => exact ih
    | takeSnapshot name => exact ih
    | seeReady name => exact ih
    | deleteSts path => exact ih
    | deletePvc path pvc snapshot => exact ih

/-- The gate looks at the acts, and at the reasons of the copy and of the object. -/
theorem Gated.append {new : List Act} (hg : Gated s) (hacts : t.acts = new ++ s.acts)
    (hnew : ∀ act ∈ new, act.ofBackup = false)
    (happly : ∀ path created sts active, .applySts path created sts active ∈ new →
      sts.images ≠ active → Complete s.acts)
    (hstored : Promises s.acts (readyView t.stored)) (hmem : Promises s.acts (readyView t.mem)) :
    Gated t := by
  have hattempt : attempt t.acts = attempt s.acts := by
    rw [hacts]
    exact attempt_append hnew
  have hpromise : ∀ view, Promises s.acts view → Promises t.acts view := by
    intro view hp
    unfold Promises Complete
    rw [hattempt]
    exact hp
  constructor
  · rw [hacts]
    exact hg.backedUp.append hnew happly
  · unfold TakenOnly
    rw [hattempt]
    exact hg.taken
  · exact hpromise _ hstored
  · exact hpromise _ hmem

theorem Promises.of_origin {inst : Instance} (hg : Gated s)
    (h : Origin attemptReason images s inst) : Promises s.acts (readyView inst) := by
  rcases h.view with ⟨hv, -⟩ | ⟨hv, -⟩ | hv
  · rw [hv]
    exact hg.stored
  · rw [hv]
    exact hg.mem
  · exact promises_of_untracked hv

theorem Gated.quiet (hg : Gated s) (h : Quiet attemptReason images s t) : Gated t := by
  have hacts : t.acts = [] ++ s.acts := h.acts
  apply hg.append hacts
  · simp
  · simp
  · exact Promises.of_origin hg h.stored
  · exact Promises.of_origin hg h.mem

/-- Where the active images are the configured ones, work of any kind keeps the gate. -/
theorem Gated.works {paths : Path → Prop} (hg : Gated s) (h : Works attemptReason images paths s t)
    (hstored : s.stored.status.activeImages.getD ∅ = images)
    (hmem : s.mem.status.activeImages.getD ∅ = images) : Gated t := by
  obtain ⟨new, hacts, hwork⟩ := h.acts
  apply hg.append hacts
  · exact fun act hact => (hwork act hact).not_ofBackup
  · intro path created sts active hact hne
    cases hwork _ hact with
    | applySts _ himages hactive =>
      apply absurd _ hne
      rw [himages]
      rcases hactive with rfl | rfl | rfl
      · exact hstored.symm
      · exact hmem.symm
      · rfl
  · exact Promises.of_origin hg h.stored
  · exact Promises.of_origin hg h.mem

end Gate

section Moves

variable {s t : Session} {disks : List DiskSpec} {r : Reason} {status : CondStatus}

/-- Complete snapshots are behind every reason that leads to new images. -/
theorem gateReason_of_follows : ∀ reason ∈ follows r,
    reason ≠ .patchingBackupStarted ∧ (gateReason reason = true → gateReason r = true) := by
  cases r <;> decide

theorem promises_plain {acts : List Act} {reason : Reason} (hstart : reason ≠ .patchingBackupStarted)
    (hgate : gateReason reason = true → Complete acts) :
    Promises acts (some (status, reason)) := by
  rintro _ ⟨⟩
  exact ⟨fun h => absurd h hstart, hgate⟩

theorem Gated.applied {new : List Act} (hg : Gated s) (hview : readyView s.mem = some (status, r))
    (hstored : t.stored = s.stored) (hacts : t.acts = new ++ s.acts)
    (hnew : ∀ act ∈ new, Applied r act) (hmem : Promises s.acts (readyView t.mem)) : Gated t := by
  apply hg.append hacts
  · exact fun act hact => (hnew act hact).not_ofBackup
  · intro path created sts active hact hne
    cases hnew _ hact with
    | applySts hr => exact (hg.mem _ hview).2 (by rw [hr]; rfl)
    | rebuild himages => exact absurd himages hne
  · rw [hstored]
    exact hg.stored
  · exact hmem

/-- A new attempt has taken no snapshots but its own, and its check has yet to come. -/
theorem Gated.begin {backupID : String} {names : List String} (hg : Gated s)
    (hstored : Unhurried s.stored) (hst : t.stored = s.stored)
    (hacts : t.acts = names.map Act.takeSnapshot ++ .beginBackup backupID disks :: s.acts)
    (hnames : ∀ name ∈ names, ∃ disk ∈ disks, name = snapshotName backupID disk.name)
    (hmem : ∀ acts, (attempt acts).isSome → Promises acts (readyView t.mem)) : Gated t := by
  have hattempt : attempt t.acts = some ⟨backupID, disks, names, []⟩ := by
    rw [hacts, attempt_take]
    simp [attempt]
  have hbacked : ∀ names : List String,
      BackedUp (names.map Act.takeSnapshot ++ .beginBackup backupID disks :: s.acts) := by
    intro names
    induction names with
    | nil => exact hg.backedUp
    | cons name rest ih => exact ih
  constructor
  · rw [hacts]
    exact hbacked names
  · intro a ha
    rw [hattempt] at ha
    obtain rfl := Option.some.inj ha
    exact hnames
  · rw [hst]
    exact promises_of_unhurried hstored
  · apply hmem
    rw [hattempt]
    rfl

/-- The check leads on only when it has seen every snapshot of the attempt ready. -/
theorem Gated.check {names : List String} {a : Attempt} (hg : Gated s)
    (ha : attempt s.acts = some a) (hst : t.stored = s.stored)
    (hacts : t.acts = names.map Act.seeReady ++ s.acts)
    (hmem : readyView t.mem = readyView s.mem ∨
      ∃ reason, readyView t.mem = some (.false, reason) ∧ reason ≠ .patchingBackupStarted ∧
        (gateReason reason = true →
          ∀ disk ∈ a.disks, snapshotName a.backupID disk.name ∈ names)) : Gated t := by
  have hattempt : attempt t.acts = some { a with seen := names ++ a.seen } := by
    rw [hacts, attempt_see, ha]
    rfl
  have hbacked : ∀ names : List String, BackedUp (names.map Act.seeReady ++ s.acts) := by
    intro names
    induction names with
    | nil => exact hg.backedUp
    | cons name rest ih => exact ih
  have hpromise : ∀ view, Promises s.acts view → Promises t.acts view := by
    intro view hp v hv
    obtain ⟨-, hgate⟩ := hp v hv
    refine ⟨fun _ => by rw [hattempt]; rfl, fun h => ?_⟩
    obtain ⟨a', ha', hsub, hall⟩ := hgate h
    obtain rfl := Option.some.inj (ha.symm.trans ha')
    refine ⟨_, hattempt, fun n hn => List.mem_append_right _ (hsub hn), ?_⟩
    exact fun disk hdisk => List.mem_append_right _ (hall disk hdisk)
  constructor
  · rw [hacts]
    exact hbacked names
  · intro a' ha'
    obtain rfl := Option.some.inj (hattempt.symm.trans ha')
    exact hg.taken a ha
  · rw [hst]
    exact hpromise _ hg.stored
  · rcases hmem with hview | ⟨reason, hview, hstart, hseen⟩
    · rw [hview]
      exact hpromise _ hg.mem
    · rw [hview]
      refine promises_plain hstart fun hgate => ⟨_, hattempt, ?_, ?_⟩
      · intro name hname
        obtain ⟨disk, hdisk, rfl⟩ := hg.taken a ha name hname
        exact List.mem_append_left _ (hseen hgate disk hdisk)
      · intro disk hdisk
        exact List.mem_append_left _ (hseen hgate disk hdisk)

/-- A step of the machine keeps the gate. -/
theorem Gated.patchStep (hg : Gated s) (hview : readyView s.mem = some (status, r))
    (hstored : Unhurried s.mem → Unhurried s.stored)
    (hcheck : r = .patchingBackupStarted → ChecksAll s.toWorld s.mem)
    (h : PatchStep disks r s t) : Gated t := by
  cases h.move with
  | stay hsame _ hacts =>
    obtain ⟨new, hacts, hnew⟩ := hacts
    apply hg.applied hview h.stored hacts hnew
    rw [hsame]
    exact hg.mem
  | next hnext hnew' _ _ hacts =>
    obtain ⟨new, hacts, hnew⟩ := hacts
    apply hg.applied hview h.stored hacts hnew
    obtain ⟨hstart, hgate⟩ := gateReason_of_follows _ hnext
    rw [hnew']
    exact promises_plain hstart fun hr => (hg.mem _ hview).2 (hgate hr)
  | @remove act _ hact hmem _ hacts =>
    have hacts : t.acts = [act] ++ s.acts := hacts
    apply hg.append hacts
    · intro act' hact'
      rw [List.mem_singleton.mp hact']
      exact hact.not_ofBackup
    · intro path created sts active hmem
      rw [← List.mem_singleton.mp hmem] at hact
      cases hact
    · rw [h.stored]
      exact hg.stored
    · rw [hmem]
      exact hg.mem
  | begin hr hacts hnames hnew =>
    have hun : Unhurried s.mem := by
      intro v hv
      obtain rfl := Option.some.inj (hview.symm.trans hv)
      exact machineReason_of_startReason hr
    apply hg.begin (hstored hun) h.stored hacts hnames
    intro acts hsome
    rcases hnew with hsame | hfail | ⟨hstart, -⟩
    · rw [hsame]
      exact promises_of_unhurried hun
    · rw [hfail]
      exact promises_plain (by decide) (fun h => by cases h)
    · rw [hstart]
      rintro _ ⟨⟩
      exact ⟨fun _ => hsome, fun h => by cases h⟩
  | check hr _ hacts hnew =>
    obtain ⟨a, ha⟩ := Option.isSome_iff_exists.mp ((hg.mem _ hview).1 hr)
    apply hg.check ha h.stored hacts
    obtain ⟨hsame, hdecided⟩ := hcheck hr
    obtain ⟨hid, hcovers⟩ := hsame a ha
    rcases hnew with hsame | hfail | ⟨hdone, hseen⟩
    · exact .inl hsame
    · exact .inr ⟨_, hfail, by decide, fun h => by cases h⟩
    · refine .inr ⟨_, hdone, by decide, fun _ disk hdisk => ?_⟩
      obtain ⟨disk', hdisk', hn⟩ := hcovers disk hdisk
      rw [hid, ← hn]
      exact (hseen hdecided disk' hdisk').1

end Moves

section Steps

variable {s t : Session} {images : StrMap} {env : Env} {w w' : World}

/-- Both the object and the copy have these active images. -/
def Uniform (images : StrMap) (s : Session) : Prop :=
  s.stored.status.activeImages.getD ∅ = images ∧ s.mem.status.activeImages.getD ∅ = images

theorem gated_machines {sp : StsParams} (hg : Gated s)
    (hstored : Unhurried s.mem → Unhurried s.stored)
    (hcheck : conditionReasonEquals (readyCond s.mem) .patchingBackupStarted →
      ChecksAll s.toWorld s.mem)
    (himages : Uniform sp.images s ∨ Handles s.mem sp.images) :
    wp (machines env sp) (fun _ => Gated) (fun _ => Gated) s := by
  refine wp_bind.mpr (patchStep_handlePatching.mono ?_ ?_)
  · rintro _ t ⟨rfl, hn⟩
    have hsame : Uniform sp.images t := himages.resolve_right hn
    have hworks : Within (Works attemptReason sp.images fun _ => True)
        (handleRestore env sp >>= fun _ => createInstance env sp) := by
      apply Within.bind
      · exact works_handleRestore (fun _ h _ => attemptReason_of_not_midReason h) trivial rfl
      · intro _
        apply works_createInstance _ trivial trivial rfl
        intro r hr
        exact (Bool.or_eq_false_iff.mp (machineReason_of_not_claimedReason hr)).1
    exact (hworks t).mono (fun _ _ h => hg.works h hsame.1 hsame.2)
      fun _ _ h => hg.works h hsame.1 hsame.2
  · rintro _ t ⟨-, cond, hcond, hstep⟩
    apply hg.patchStep (readyView_eq_some.mpr ⟨cond, hcond, rfl⟩) hstored _ hstep
    intro hr
    apply hcheck
    rw [hcond]
    simp [conditionReasonEquals, hr]

/-- What the machine handles at the start of a reconcile it still handles after the first part. -/
theorem Handles.handed {inst handed : Instance} (h : Handed inst handed) (hh : Handles inst images)
    (hp : ¬ parameterUpdateRequested inst) : Handles handed images := by
  obtain ⟨hentry, hdb, cond, hcond, hr⟩ := hh
  have hready : readyCond handed = readyCond inst := by
    rcases h.ready with heq | ⟨-, -, hreq | hstop⟩
    · exact heq
    · exact absurd hreq hp
    · rw [hcond] at hstop
      simp only [conditionReasonEquals, Option.any_some, decide_eq_true_eq] at hstop
      rw [hstop] at hr
      cases hr
  obtain ⟨hspec, -, -, hactive, hfailed, hmachine⟩ := h.kept
  refine ⟨?_, by rw [h.db]; exact hdb, cond, hready.trans hcond, hr⟩
  unfold isPatchingStateMachineEntryCondition at hentry ⊢
  rw [hspec, h.db, hready, hactive, hfailed, hmachine]
  exact hentry

theorem gated_body (hs : s.mem = s.stored) (hg : Gated s)
    (hok : ChecksFirst s.toWorld (.reconcile env)) :
    wp (body env) (fun _ => Gated) (fun _ => Gated) s := by
  have hquiet : ∀ t, Quiet machineReason (s.stored.status.activeImages.getD ∅) s t → Gated t :=
    fun t hq => hg.quiet (hq.mono fun _ h => (Bool.or_eq_false_iff.mp h).1)
  have hpre : Within (Quiet machineReason (s.stored.status.activeImages.getD ∅)) (preamble env) :=
    quiet_preamble fun _ h => h
  apply wp_body hs ((hpre s).mono (fun _ _ h => h) fun _ => hquiet) hquiet
  intro t config images hq hh hconfig himages
  obtain ⟨hconfigured, hchecked⟩ := hok
  have hcheck : conditionReasonEquals (readyCond t.mem) .patchingBackupStarted →
      ChecksAll t.toWorld t.mem := by
    intro heq
    obtain ⟨hspec, -, hid, -⟩ := hh.kept
    unfold ChecksAll
    rw [hspec, hid, hq.acts, hq.snapshots]
    apply hchecked
    rw [← hh.readyCond_of_reason rfl heq]
    exact heq
  have huniform : Uniform (s.stored.status.activeImages.getD ∅) t := by
    constructor
    · rcases hq.stored.active with ha | ha | ha
      · exact ha
      · rw [ha, hs]
      · exact ha
    · rcases hq.mem.active with ha | ha | ha
      · exact ha
      · rw [ha, hs]
      · exact ha
  apply gated_machines (hquiet t hq) (hh.unhurried_stored hs hq) hcheck
  have hmem : images ∈ configuredImages env s.stored := by
    simp [configuredImages, hconfig, himages, Except.toOption]
  rcases hconfigured images hmem with rfl | ⟨hhandles, hp⟩
  · exact .inl huniform
  · exact .inr (hhandles.handed hh hp)

theorem gated_reconcile (hg : Gated w.session) (hok : ChecksFirst w (.reconcile env)) :
    Gated (reconcile env w).session := by
  unfold reconcile
  split
  · exact hg
  · have hbody : Gated (body env w.session).state := (gated_body rfl hg hok).state
    have hdeferred : Within (Quiet attemptReason ∅) (updateStatus env .deferredStatus) :=
      quiet_updateStatus
    have hend := hbody.quiet (hdeferred _).state
    exact ⟨hend.backedUp, hend.taken, hend.stored, hend.stored⟩

theorem gated_step {e : Event} (hg : Gated w.session) (hok : ChecksFirst w e)
    (h : step w e = some w') : Gated w'.session := by
  have hkeep : ∀ v : World, v.acts = w.acts →
      v.stored.status.conditions = w.stored.status.conditions → Gated v.session := by
    intro v hacts hconds
    have hview : Promises v.acts (readyView v.stored) := by
      unfold readyView readyCond
      rw [hacts, hconds]
      exact hg.stored
    refine ⟨?_, ?_, hview, hview⟩
    · rw [World.session, hacts]
      exact hg.backedUp
    · rw [World.session, hacts]
      exact hg.taken
  cases e with
  | reconcile env =>
    obtain rfl := Option.some.inj h
    exact gated_reconcile hg hok
  | addSnapshot name pvc =>
    simp only [step] at h
    split at h
    · cases h
    · obtain rfl := Option.some.inj h
      exact hkeep _ rfl rfl
  | setSnapshotStatus name status =>
    obtain ⟨snap, -, rfl⟩ := Option.map_eq_some_iff.mp h
    exact hkeep _ rfl rfl
  | editSpec spec =>
    obtain rfl := Option.some.inj h
    exact hkeep _ rfl rfl
  | deleteInstance now =>
    obtain rfl := Option.some.inj h
    exact hkeep _ rfl rfl
  | writeStatus backupID locked names =>
    obtain rfl := Option.some.inj h
    exact hkeep _ rfl rfl
  | removeSnapshot name =>
    obtain rfl := Option.some.inj h
    exact hkeep _ rfl rfl
  | stsGone =>
    obtain rfl := Option.some.inj h
    exact hkeep _ rfl rfl
  | addPvc name =>
    obtain rfl := Option.some.inj h
    exact hkeep _ rfl rfl
  | pvcGone name =>
    obtain rfl := Option.some.inj h
    exact hkeep _ rfl rfl

theorem Idle.gated (h : Idle w) : Gated w.session := by
  have hp : Promises w.acts (readyView w.stored) := promises_of_unhurried h.unhurried
  refine ⟨?_, ?_, hp, hp⟩
  · rw [World.session, h.acts]
    trivial
  · rw [World.session, h.acts]
    rintro _ ⟨⟩

/-- In a run whose reconciles all check first, images change only after complete snapshots. -/
theorem backedUp_of_checksFirst (w : World) (events : List Event) (hw : Idle w)
    (hm : Runs.Meets step ChecksFirst w events) :
    Runs.Always step (fun w => BackedUp w.acts) w events := by
  have hstep : ∀ w e w', Gated w.session → ChecksFirst w e → step w e = some w' →
      Gated w'.session := fun _ _ _ => gated_step
  have hbacked : ∀ w : World, Gated w.session → BackedUp w.acts := fun _ hg => hg.backedUp
  exact Runs.always_of_invariant hstep hbacked hw.gated hm

end Steps

section Sample

/-- The snapshot of the attempt fails, which its check finds. -/
def failedBackup : List Event :=
  [requestImage (some [dataDisk]), .reconcile (calm 1000),
    .setSnapshotStatus patchingSnapshot ⟨some "disk unavailable", some false⟩,
    .reconcile (calm 2000), .reconcile (calm 3000)]

/-- The reconcile after the failed check applies the new image on the main path. -/
theorem failed_backup_applies_new_images :
    Idle (createdWorld (some [dataDisk])) ∧
      ∃ w, Runs.run step (createdWorld (some [dataDisk])) failedBackup = some w ∧
        ¬ BackedUp w.acts := by
  refine ⟨⟨rfl, ?_⟩, ?_⟩
  · rintro v ⟨⟩
    rfl
  · have hbad : ((Runs.run step (createdWorld (some [dataDisk])) failedBackup).any
        fun w => ¬ BackedUp w.acts) = true := by
      decide +kernel
    obtain ⟨w, hw, hn⟩ := (Option.any_eq_true _ _).mp hbad
    exact ⟨w, hw, of_decide_eq_true hn⟩

/-- A whole attempt, from the request to the new active images. -/
def successfulPatching : List Event :=
  requestImage (some [dataDisk]) :: .reconcile (calm 1000) ::
    .setSnapshotStatus patchingSnapshot ⟨none, some true⟩ ::
      List.replicate 7 (.reconcile (calm 2000))

theorem successful_patching_backed_up :
    Runs.Meets step ChecksFirst (createdWorld (some [dataDisk])) successfulPatching ∧
      Runs.Always step (fun w => BackedUp w.acts) (createdWorld (some [dataDisk]))
        successfulPatching := by
  have hidle : Idle (createdWorld (some [dataDisk])) := by
    refine ⟨rfl, ?_⟩
    rintro v ⟨⟩
    rfl
  have hm : Runs.Meets step ChecksFirst (createdWorld (some [dataDisk])) successfulPatching := by
    decide +kernel
  exact ⟨hm, backedUp_of_checksFirst _ _ hidle hm⟩

end Sample

end ElCarro.Instance.Reconciler
