import ElCarro.Instance.BackupGate

/-! # Claims are deleted only with a snapshot to come back to

Three loops of the patching machine run over disks: one takes the snapshots, one
checks them, and one deletes the claims. The first two read the list in the spec,
the third one falls back to the Config and the defaults. A claim is deleted with
its snapshot in place as long as the three lists agree and the snapshots of the
attempt are left alone.
-/

namespace ElCarro.Instance.Reconciler

open GoTime K8s Api Flow

section Property

/-- A claim that is deleted for a recovery has a snapshot that was reported ready to use. -/
def Act.Secured : Act → Prop
  | .deletePvc path pvc snapshot =>
    path = .recovery → ∃ snap ∈ snapshot, snap.pvc = pvc ∧ snap.reported = true
  | _ => True

instance (act : Act) : Decidable act.Secured := by
  unfold Act.Secured
  split <;> infer_instance

/-- The Ready condition has a reason after which the machine deletes claims. -/
def failedPatching (inst : Instance) : Bool :=
  conditionReasonEquals (readyCond inst) .statefulSetPatchingFailure ||
    conditionReasonEquals (readyCond inst) .databasePatchingFailure

/-- The machine checks the snapshots that it took and deletes no other claims than those it took
them of; nobody removes a snapshot during the attempt. -/
def SparesSnapshots (w : World) : Event → Prop
  | .reconcile env =>
    (conditionReasonEquals (readyCond w.stored) .patchingBackupStarted → ChecksAll w w.stored) ∧
    (failedPatching w.stored → ∀ config ∈ env.config.toOption, ∀ a ∈ attempt w.acts,
      a.backupID = w.stored.status.backupID ∧ Covers a.disks (diskSpecs w.stored config))
  | .removeSnapshot name =>
    (∃ cond ∈ readyCond w.stored, attemptReason cond.reason) →
      ∀ a ∈ attempt w.acts, ∀ disk ∈ a.disks, name ≠ snapshotName a.backupID disk.name
  | _ => True

instance (w : World) : (e : Event) → Decidable (SparesSnapshots w e)
  | .reconcile _ => inferInstanceAs (Decidable (_ ∧ _))
  | .removeSnapshot _ => inferInstanceAs (Decidable (_ → _))
  | .editSpec _ | .deleteInstance _ | .writeStatus _ _ _ | .addSnapshot _ _ | .setSnapshotStatus _ _
  | .stsGone | .addPvc _ | .pvcGone _ => isTrue trivial

end Property

section Vouching

/-- The snapshot of the disk is there and was reported ready to use. -/
def ReadySnapshotOf (backupID instName : String) (w : World) (disk : DiskSpec) : Prop :=
  ∃ snap, w.snapshots.lookup (snapshotName backupID disk.name) = some snap ∧
    snap.pvc = fullPVCName instName disk.name ∧ snap.reported = true

/-- Reasons between the check of the snapshots and the deletion of the claims. -/
def checkedReason : Reason → Bool
  | .deploymentSetPatchingInProgress | .deploymentSetPatchingComplete
  | .statefulSetPatchingInProgress | .statefulSetPatchingComplete | .databasePatchingInProgress
  | .statefulSetPatchingFailure | .databasePatchingFailure => true
  | _ => false

/-- What the Ready condition says about the snapshots of the attempt. -/
def Vouches (instName : String) (w : World) (view : Option (CondStatus × Reason)) : Prop :=
  ∀ v ∈ view,
    (v.2 = .patchingBackupStarted →
      ∃ a ∈ attempt w.acts, ∀ disk ∈ a.disks, SnapshotOf a.backupID instName w disk) ∧
    (checkedReason v.2 = true →
      ∃ a ∈ attempt w.acts, ∀ disk ∈ a.disks, ReadySnapshotOf a.backupID instName w disk)

structure Held (instName : String) (s : Session) : Prop where
  secured : ∀ act ∈ s.acts, act.Secured
  storedName : s.stored.name = instName
  memName : s.mem.name = instName
  stored : Vouches instName s.toWorld (readyView s.stored)
  mem : Vouches instName s.toWorld (readyView s.mem)

variable {instName : String} {w w' : World} {s t : Session} {images : StrMap}
  {view : Option (CondStatus × Reason)}

theorem vouches_of_untracked (h : ∀ v, view = some v → attemptReason v.2 = false) :
    Vouches instName w view := by
  intro v hv
  have hr := h v hv
  constructor
  · intro heq
    rw [heq] at hr
    cases hr
  · intro hchecked
    generalize v.2 = r at hr hchecked
    cases r <;> cases hchecked <;> cases hr

theorem vouches_of_unhurried {inst : Instance} (h : Unhurried inst) :
    Vouches instName w (readyView inst) := by
  apply vouches_of_untracked
  intro v hv
  exact (Bool.or_eq_false_iff.mp (h v hv)).1

/-- The snapshots of the attempt may report more, as long as they stay. -/
theorem Vouches.mono (h : Vouches instName w view) (hattempt : attempt w'.acts = attempt w.acts)
    (hsnap : ∀ a ∈ attempt w.acts, ∀ disk ∈ a.disks, ∀ snap,
      w.snapshots.lookup (snapshotName a.backupID disk.name) = some snap →
      ∃ snap', w'.snapshots.lookup (snapshotName a.backupID disk.name) = some snap' ∧
        snap'.pvc = snap.pvc ∧ (snap.reported = true → snap'.reported = true)) :
    Vouches instName w' view := by
  intro v hv
  obtain ⟨hstart, hchecked⟩ := h v hv
  rw [hattempt]
  constructor
  · intro heq
    obtain ⟨a, ha, hall⟩ := hstart heq
    refine ⟨a, ha, fun disk hdisk => ?_⟩
    obtain ⟨snap, hlook, hpvc⟩ := hall disk hdisk
    obtain ⟨snap', hlook', hpvc', -⟩ := hsnap a ha disk hdisk snap hlook
    exact ⟨snap', hlook', hpvc'.trans hpvc⟩
  · intro hr
    obtain ⟨a, ha, hall⟩ := hchecked hr
    refine ⟨a, ha, fun disk hdisk => ?_⟩
    obtain ⟨snap, hlook, hpvc, hrep⟩ := hall disk hdisk
    obtain ⟨snap', hlook', hpvc', hrep'⟩ := hsnap a ha disk hdisk snap hlook
    exact ⟨snap', hlook', hpvc'.trans hpvc, hrep' hrep⟩

theorem Vouches.congr (h : Vouches instName w view) (hattempt : attempt w'.acts = attempt w.acts)
    (hsnap : w'.snapshots = w.snapshots) : Vouches instName w' view := by
  apply h.mono hattempt
  intro a _ disk _ snap hlook
  exact ⟨snap, by rw [hsnap]; exact hlook, rfl, id⟩

/-- Acts that belong to no backup leave the snapshots vouched for. -/
theorem Held.append {new : List Act} (hh : Held instName s) (hacts : t.acts = new ++ s.acts)
    (hnew : ∀ act ∈ new, act.ofBackup = false ∧ act.Secured)
    (hsnap : t.snapshots = s.snapshots) (hstoredName : t.stored.name = instName)
    (hmemName : t.mem.name = instName)
    (hstored : Vouches instName s.toWorld (readyView t.stored))
    (hmem : Vouches instName s.toWorld (readyView t.mem)) : Held instName t := by
  have hattempt : attempt t.acts = attempt s.acts := by
    rw [hacts]
    exact attempt_append fun act hact => (hnew act hact).1
  refine ⟨?_, hstoredName, hmemName, hstored.congr hattempt hsnap, hmem.congr hattempt hsnap⟩
  rw [hacts]
  intro act hact
  rcases List.mem_append.mp hact with hact | hact
  · exact (hnew act hact).2
  · exact hh.secured act hact

theorem Held.view_of_origin {inst : Instance} (hh : Held instName s)
    (h : Origin attemptReason images s inst) : Vouches instName s.toWorld (readyView inst) := by
  rcases h.view with ⟨hv, -⟩ | ⟨hv, -⟩ | hv
  · rw [hv]
    exact hh.stored
  · rw [hv]
    exact hh.mem
  · exact vouches_of_untracked hv

theorem Held.name_of_origin {inst : Instance} (hh : Held instName s)
    (h : Origin attemptReason images s inst) : inst.name = instName := by
  rcases h.name with hn | hn
  · exact hn.trans hh.storedName
  · exact hn.trans hh.memName

/-- Work on other paths than the recovery deletes no claims for one. -/
theorem Held.works (hh : Held instName s) (h : Works attemptReason images (· ≠ .recovery) s t) :
    Held instName t := by
  obtain ⟨new, hacts, hwork⟩ := h.acts
  have hnew : ∀ act ∈ new, act.ofBackup = false ∧ act.Secured := by
    intro act hact
    refine ⟨(hwork act hact).not_ofBackup, ?_⟩
    cases hwork act hact with
    | applySts _ _ _ => trivial
    | deleteSts _ => trivial
    | deletePvc hpath => exact fun heq => absurd heq hpath
  exact hh.append hacts hnew h.snapshots (hh.name_of_origin h.stored) (hh.name_of_origin h.mem)
    (hh.view_of_origin h.stored) (hh.view_of_origin h.mem)

theorem Held.quiet (hh : Held instName s) (h : Quiet attemptReason images s t) :
    Held instName t := hh.works h.works

end Vouching

section Moves

variable {instName : String} {s t : Session} {disks : List DiskSpec} {r : Reason}
  {status : CondStatus}

theorem checkedReason_of_follows : ∀ reason ∈ follows r,
    reason ≠ .patchingBackupStarted ∧ (checkedReason reason = true → checkedReason r = true) := by
  cases r <;> decide

theorem Held.applied (hh : Held instName s) (h : PatchStep disks r s t)
    (hsnap : t.snapshots = s.snapshots)
    (hacts : ∃ new, t.acts = new ++ s.acts ∧ ∀ act ∈ new, Applied r act)
    (hmem : Vouches instName s.toWorld (readyView t.mem)) : Held instName t := by
  obtain ⟨new, hacts, hnew⟩ := hacts
  apply hh.append hacts _ hsnap _ _ _ hmem
  · intro act hact
    refine ⟨(hnew act hact).not_ofBackup, ?_⟩
    cases hnew act hact <;> trivial
  · rw [h.stored]
    exact hh.storedName
  · rw [h.name]
    exact hh.memName
  · rw [h.stored]
    exact hh.stored

/-- The claim of a disk with which the attempt began has its snapshot. -/
theorem Removal.secured {act : Act} {a : Attempt} (hact : Removal disks s act)
    (hname : s.mem.name = instName) (hid : a.backupID = s.mem.status.backupID)
    (hcovers : Covers a.disks disks)
    (hall : ∀ disk ∈ a.disks, ReadySnapshotOf a.backupID instName s.toWorld disk) :
    act.Secured := by
  cases hact with
  | sts => trivial
  | pvc hdisk =>
    intro _
    obtain ⟨disk', hdisk', hn⟩ := hcovers _ hdisk
    obtain ⟨snap, hlook, hpvc, hrep⟩ := hall disk' hdisk'
    rw [hid, hn] at hlook
    rw [hn, ← hname] at hpvc
    exact ⟨snap, hlook, hpvc, hrep⟩

/-- A snapshot that is ready to use has been reported so. -/
theorem SeenReady.readySnapshotOf {backupID : String} {w : World} {disk disk' : DiskSpec}
    (h : SeenReady backupID w disk') (hn : disk'.name = disk.name)
    (hs : SnapshotOf backupID instName w disk) : ReadySnapshotOf backupID instName w disk := by
  obtain ⟨snap, st, hlook, hst, hready⟩ := h
  obtain ⟨snap', hlook', hpvc⟩ := hs
  rw [hn] at hlook
  obtain rfl := Option.some.inj (hlook.symm.trans hlook')
  exact ⟨snap, hlook, hpvc, snap.honest st hst hready⟩

theorem Held.patchStep (hh : Held instName s) (hview : readyView s.mem = some (status, r))
    (hstored : Unhurried s.mem → Unhurried s.stored)
    (hcheck : r = .patchingBackupStarted → ChecksAll s.toWorld s.mem)
    (hremove : r = .statefulSetPatchingFailure ∨ r = .databasePatchingFailure →
      ∀ a ∈ attempt s.acts, a.backupID = s.mem.status.backupID ∧ Covers a.disks disks)
    (h : PatchStep disks r s t) : Held instName t := by
  have hvouched := hh.mem _ hview
  have hstoredName : t.stored.name = instName := by
    rw [h.stored]
    exact hh.storedName
  have hmemName : t.mem.name = instName := h.name.trans hh.memName
  cases h.move with
  | stay hsame hsnap hacts =>
    apply hh.applied h hsnap hacts
    rw [hsame]
    exact hh.mem
  | next hnext hnew _ hsnap hacts =>
    apply hh.applied h hsnap hacts
    obtain ⟨hstart, hchecked⟩ := checkedReason_of_follows _ hnext
    rw [hnew]
    rintro _ ⟨⟩
    exact ⟨fun heq => absurd heq hstart, fun hr => hvouched.2 (hchecked hr)⟩
  | @remove act hr hact hmem hsnap hacts =>
    have hchecked : checkedReason r = true := by
      rcases hr with rfl | rfl <;> rfl
    obtain ⟨a, ha, hall⟩ := hvouched.2 hchecked
    obtain ⟨hid, hcovers⟩ := hremove hr a ha
    have hacts : t.acts = [act] ++ s.acts := hacts
    apply hh.append hacts _ hsnap hstoredName hmemName
    · rw [h.stored]
      exact hh.stored
    · rw [hmem]
      exact hh.mem
    · intro act' hact'
      rw [List.mem_singleton.mp hact']
      exact ⟨hact.not_ofBackup, hact.secured hh.memName hid hcovers hall⟩
  | @begin backupID names hr hacts _ hnew =>
    have hun : Unhurried s.mem := by
      intro v hv
      obtain rfl := Option.some.inj (hview.symm.trans hv)
      exact machineReason_of_startReason hr
    have hattempt : attempt t.acts = some ⟨backupID, s.mem.spec.disks.getD [], names, []⟩ := by
      rw [hacts, attempt_take]
      simp [attempt]
    refine ⟨?_, hstoredName, hmemName, ?_, ?_⟩
    · rw [hacts]
      intro act hact
      rcases List.mem_append.mp hact with hact | hact
      · obtain ⟨name, -, rfl⟩ := List.mem_map.mp hact
        trivial
      · rcases List.mem_cons.mp hact with rfl | hact
        · trivial
        · exact hh.secured act hact
    · rw [h.stored]
      exact vouches_of_unhurried (hstored hun)
    · rcases hnew with hsame | hfail | ⟨hstart, hall⟩
      · rw [hsame]
        exact vouches_of_unhurried hun
      · rw [hfail]
        apply vouches_of_untracked
        rintro _ ⟨⟩
        rfl
      · rw [hstart]
        rintro _ ⟨⟩
        refine ⟨fun _ => ⟨_, hattempt, ?_⟩, fun h => by cases h⟩
        rw [← hh.memName]
        exact hall
  | @check names hr hsnap hacts hnew =>
    obtain ⟨a, ha, htaken⟩ := hvouched.1 hr
    obtain ⟨hsame, hdecided⟩ := hcheck hr
    obtain ⟨hid, hcovers⟩ := hsame a ha
    have hattempt : attempt t.acts = some { a with seen := names ++ a.seen } := by
      rw [hacts, attempt_see, ha]
      rfl
    -- the disks and the backup ID of the attempt stay
    have hkeep : ∀ view, Vouches instName s.toWorld view → Vouches instName t.toWorld view := by
      intro view hv v hmem
      obtain ⟨hstart, hchecked⟩ := hv v hmem
      unfold SnapshotOf at hstart ⊢
      unfold ReadySnapshotOf at hchecked ⊢
      rw [hattempt, hsnap]
      rw [ha] at hstart hchecked
      constructor
      · intro heq
        obtain ⟨_, ⟨⟩, hall⟩ := hstart heq
        exact ⟨_, rfl, hall⟩
      · intro heq
        obtain ⟨_, ⟨⟩, hall⟩ := hchecked heq
        exact ⟨_, rfl, hall⟩
    refine ⟨?_, hstoredName, hmemName, ?_, ?_⟩
    · rw [hacts]
      intro act hact
      rcases List.mem_append.mp hact with hact | hact
      · obtain ⟨name, -, rfl⟩ := List.mem_map.mp hact
        trivial
      · exact hh.secured act hact
    · rw [h.stored]
      exact hkeep _ hh.stored
    · rcases hnew with hsame | hfail | ⟨hdone, hseen⟩
      · rw [hsame]
        exact hkeep _ hh.mem
      · rw [hfail]
        apply vouches_of_untracked
        rintro _ ⟨⟩
        rfl
      · rw [hdone]
        apply hkeep
        rintro _ ⟨⟩
        refine ⟨(fun h => by cases h), fun _ => ⟨a, ha, fun disk hdisk => ?_⟩⟩
        obtain ⟨disk', hdisk', hn⟩ := hcovers disk hdisk
        have hready := (hseen hdecided disk' hdisk').2
        rw [← hid] at hready
        exact hready.readySnapshotOf hn (htaken disk hdisk)

end Moves

section Steps

variable {instName : String} {s : Session} {env : Env} {w w' : World}

theorem held_machines {sp : StsParams} (hh : Held instName s)
    (hstored : Unhurried s.mem → Unhurried s.stored)
    (hcheck : conditionReasonEquals (readyCond s.mem) .patchingBackupStarted →
      ChecksAll s.toWorld s.mem)
    (hremove : failedPatching s.mem → ∀ a ∈ attempt s.acts,
      a.backupID = s.mem.status.backupID ∧ Covers a.disks sp.disks) :
    wp (machines env sp) (fun _ => Held instName) (fun _ => Held instName) s := by
  refine wp_bind.mpr (patchStep_handlePatching.mono ?_ ?_)
  · rintro _ t ⟨rfl, -⟩
    have hworks : Within (Works attemptReason sp.images (· ≠ .recovery))
        (handleRestore env sp >>= fun _ => createInstance env sp) := by
      apply Within.bind
      · exact works_handleRestore (fun _ h _ => attemptReason_of_not_midReason h) (by decide) rfl
      · intro _
        apply works_createInstance _ (by decide) (by decide) rfl
        intro r hr
        exact (Bool.or_eq_false_iff.mp (machineReason_of_not_claimedReason hr)).1
    exact (hworks t).mono (fun _ _ h => hh.works h) fun _ _ h => hh.works h
  · rintro _ t ⟨-, cond, hcond, hstep⟩
    have hequals : ∀ r, cond.reason = r → conditionReasonEquals (readyCond s.mem) r = true := by
      intro r hr
      rw [hcond]
      simp [conditionReasonEquals, hr]
    apply hh.patchStep (readyView_eq_some.mpr ⟨cond, hcond, rfl⟩) hstored _ _ hstep
    · exact fun hr => hcheck (hequals _ hr)
    · intro hr
      apply hremove
      unfold failedPatching
      rcases hr with hr | hr
      · rw [hequals _ hr]
        rfl
      · rw [hequals _ hr, Bool.or_true]

theorem held_body (hs : s.mem = s.stored) (hh : Held instName s)
    (hok : SparesSnapshots s.toWorld (.reconcile env)) :
    wp (body env) (fun _ => Held instName) (fun _ => Held instName) s := by
  have hquiet : ∀ t, Quiet machineReason ∅ s t → Held instName t :=
    fun t hq => hh.quiet (hq.mono fun _ h => (Bool.or_eq_false_iff.mp h).1)
  have hpre : Within (Quiet machineReason ∅) (preamble env) := quiet_preamble fun _ h => h
  apply wp_body hs ((hpre s).mono (fun _ _ h => h) fun _ => hquiet) hquiet
  intro t config images hq hd hconfig _
  obtain ⟨hchecked, hremoved⟩ := hok
  obtain ⟨hspec, -, hid, -⟩ := hd.kept
  apply held_machines (hquiet t hq) (hd.unhurried_stored hs hq)
  · intro heq
    unfold ChecksAll
    rw [hspec, hid, hq.acts, hq.snapshots]
    apply hchecked
    rw [← hd.readyCond_of_reason rfl heq]
    exact heq
  · intro hfailed
    have hready : readyCond t.mem = readyCond s.stored := by
      rcases Bool.or_eq_true_iff.mp hfailed with heq | heq
      · exact hd.readyCond_of_reason rfl heq
      · exact hd.readyCond_of_reason rfl heq
    have hdisks : (stsParams t.mem config images).disks = diskSpecs s.stored config := by
      unfold stsParams diskSpecs
      rw [hspec]
    rw [hdisks, hid, hq.acts]
    apply hremoved
    · unfold failedPatching at hfailed ⊢
      rw [← hready]
      exact hfailed
    · rw [hconfig]
      rfl

theorem held_reconcile (hh : Held instName w.session)
    (hok : SparesSnapshots w (.reconcile env)) : Held instName (reconcile env w).session := by
  unfold reconcile
  split
  · exact hh
  · have hbody : Held instName (body env w.session).state := (held_body rfl hh hok).state
    have hdeferred : Within (Quiet attemptReason ∅) (updateStatus env .deferredStatus) :=
      quiet_updateStatus
    have hend := hbody.quiet (hdeferred _).state
    exact ⟨hend.secured, hend.storedName, hend.storedName, hend.stored, hend.stored⟩

/-- What happens between reconciles takes no snapshot away that the condition vouches for. -/
theorem held_step {e : Event} (hh : Held instName w.session) (hok : SparesSnapshots w e)
    (h : step w e = some w') : Held instName w'.session := by
  have hkeep : ∀ v : World, v.acts = w.acts → v.stored.name = w.stored.name →
      Vouches instName v (readyView v.stored) → Held instName v.session := by
    intro v hacts hname hview
    have hname := hname.trans hh.storedName
    refine ⟨?_, hname, hname, hview, hview⟩
    rw [World.session, hacts]
    exact hh.secured
  have hedit : ∀ v : World, v.acts = w.acts → v.stored.name = w.stored.name →
      v.stored.status.conditions = w.stored.status.conditions → v.snapshots = w.snapshots →
      Held instName v.session := by
    intro v hacts hname hconds hsnap
    apply hkeep v hacts hname
    unfold readyView readyCond
    rw [hconds]
    exact hh.stored.congr (by rw [hacts]; rfl) hsnap
  have hstored : Vouches instName w (readyView w.stored) := hh.stored
  cases e with
  | reconcile env =>
    obtain rfl := Option.some.inj h
    exact held_reconcile hh hok
  | addSnapshot name pvc =>
    simp only [step] at h
    split at h
    · cases h
    · next hnew =>
      obtain rfl := Option.some.inj h
      refine hkeep _ rfl rfl (hstored.mono rfl ?_)
      intro a _ disk _ snap hlook
      have hne : snapshotName a.backupID disk.name ≠ name := by
        rintro rfl
        exact hnew (Finmap.mem_of_lookup_eq_some hlook)
      exact ⟨snap, (Finmap.lookup_insert_of_ne _ hne).trans hlook, rfl, id⟩
  | setSnapshotStatus name status =>
    obtain ⟨old, hold, rfl⟩ := Option.map_eq_some_iff.mp h
    refine hkeep _ rfl rfl (hstored.mono rfl ?_)
    intro a _ disk _ snap hlook
    by_cases hne : snapshotName a.backupID disk.name = name
    · subst hne
      obtain rfl := Option.some.inj (hold.symm.trans hlook)
      refine ⟨old.report status, Finmap.lookup_insert _, rfl, fun hrep => ?_⟩
      simp [VolumeSnapshot.report, hrep]
    · exact ⟨snap, (Finmap.lookup_insert_of_ne _ hne).trans hlook, rfl, id⟩
  | removeSnapshot name =>
    obtain rfl := Option.some.inj h
    by_cases hattempt : ∃ cond ∈ readyCond w.stored, attemptReason cond.reason = true
    · refine hkeep _ rfl rfl (hstored.mono rfl ?_)
      intro a ha disk hdisk snap hlook
      have hne := hok hattempt a ha disk hdisk
      exact ⟨snap, (Finmap.lookup_erase_ne hne.symm).trans hlook, rfl, id⟩
    · refine hkeep _ rfl rfl (vouches_of_untracked ?_)
      intro v hv
      obtain ⟨cond, hcond, rfl⟩ := readyView_eq_some.mp hv
      apply Bool.eq_false_iff.mpr
      exact fun hr => hattempt ⟨cond, hcond, hr⟩
  | editSpec spec =>
    obtain rfl := Option.some.inj h
    exact hedit _ rfl rfl rfl rfl
  | deleteInstance now =>
    obtain rfl := Option.some.inj h
    exact hedit _ rfl rfl rfl rfl
  | writeStatus backupID locked names =>
    obtain rfl := Option.some.inj h
    exact hedit _ rfl rfl rfl rfl
  | stsGone =>
    obtain rfl := Option.some.inj h
    exact hedit _ rfl rfl rfl rfl
  | addPvc name =>
    obtain rfl := Option.some.inj h
    exact hedit _ rfl rfl rfl rfl
  | pvcGone name =>
    obtain rfl := Option.some.inj h
    exact hedit _ rfl rfl rfl rfl

theorem Idle.held (h : Idle w) : Held w.stored.name w.session := by
  have hv : Vouches w.stored.name w (readyView w.stored) := vouches_of_unhurried h.unhurried
  refine ⟨?_, rfl, rfl, hv, hv⟩
  rw [World.session, h.acts]
  simp

/-- In a run that spares the snapshots of its attempts, no claim is deleted without one. -/
theorem secured_of_sparesSnapshots (w : World) (events : List Event) (hw : Idle w)
    (hm : Runs.Meets step SparesSnapshots w events) :
    Runs.Always step (fun w => ∀ act ∈ w.acts, act.Secured) w events := by
  have hstep : ∀ v e v', Held w.stored.name v.session → SparesSnapshots v e →
      step v e = some v' → Held w.stored.name v'.session := fun _ _ _ => held_step
  have hsecured : ∀ v : World, Held w.stored.name v.session → ∀ act ∈ v.acts, act.Secured :=
    fun _ hh => hh.secured
  exact Runs.always_of_invariant hstep hsecured hw.held hm

end Steps

section Sample

/-- The new image cannot be patched, so that the disks come back from their snapshots. -/
def failingPatch (now : Time) : Env := { calm now with applyDataPatch := false }

/-- An instance that leaves its disks to the defaults is patched in vain. -/
def defaultDisksPatching : List Event :=
  requestImage none :: .reconcile (calm 1000) ::
    List.replicate 7 (.reconcile (failingPatch 2000))

/-- No snapshot was taken, and yet the claim is deleted. -/
theorem default_disks_deleted_without_snapshot :
    Idle (createdWorld none) ∧
      ∃ w, Runs.run step (createdWorld none) defaultDisksPatching = some w ∧
        ¬ ∀ act ∈ w.acts, act.Secured := by
  refine ⟨⟨rfl, ?_⟩, ?_⟩
  · rintro v ⟨⟩
    rfl
  · have hbad : ((Runs.run step (createdWorld none) defaultDisksPatching).any
        fun w => ¬ ∀ act ∈ w.acts, act.Secured) = true := by
      decide +kernel
    obtain ⟨w, hw, hn⟩ := (Option.any_eq_true _ _).mp hbad
    exact ⟨w, hw, of_decide_eq_true hn⟩

/-- The same attempt with the disk in the spec, up to the recovered instance. -/
def recoveredPatching : List Event :=
  requestImage (some [dataDisk]) :: .reconcile (calm 1000) ::
    .setSnapshotStatus patchingSnapshot ⟨none, some true⟩ ::
      List.replicate 9 (.reconcile (failingPatch 2000))

theorem recovered_patching_secured :
    Runs.Meets step SparesSnapshots (createdWorld (some [dataDisk])) recoveredPatching ∧
      Runs.Always step (fun w => ∀ act ∈ w.acts, act.Secured) (createdWorld (some [dataDisk]))
        recoveredPatching := by
  have hidle : Idle (createdWorld (some [dataDisk])) := by
    refine ⟨rfl, ?_⟩
    rintro v ⟨⟩
    rfl
  have hm : Runs.Meets step SparesSnapshots (createdWorld (some [dataDisk])) recoveredPatching := by
    decide +kernel
  exact ⟨hm, secured_of_sparesSnapshots _ _ hidle hm⟩

end Sample

end ElCarro.Instance.Reconciler
