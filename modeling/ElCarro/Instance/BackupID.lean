import ElCarro.Backup.Completion
import ElCarro.Instance.Midway
import ElCarro.Instance.RecoveryGate

/-! # The backup ID of an attempt

Two controllers write the backup ID of an instance: the patching machine when an
attempt begins, and the controller of Backups whenever a Backup is done. A recovery
takes the disks from the snapshots that the ID names. These are the ones of the attempt
as long as no other Backup of the instance is done before the attempt has ended.
-/

namespace ElCarro.Instance.BackupID

open GoTime K8s Api Flow Reconciler

section System

structure System where
  world : World
  /-- The Backups, by the name of the object. -/
  backups : Finmap fun _ : String => Backups.Backup

inductive Event where
  | manager (e : Reconciler.Event)
  | reconcileBackup (name : String) (env : Backups.Env)
  /-- A Backup is created, or changed by somebody else than its controller. -/
  | putBackup (name : String) (backup : Backups.Backup)
  | dropBackup (name : String)

/-- The Databases and the maintenance lock leave the backup ID to the two controllers. -/
def leavesID (w : World) : Reconciler.Event → Bool
  | .writeStatus backupID _ _ => backupID = w.stored.status.backupID
  | _ => true

def System.session (σ : System) (backup : Backups.Backup) : Backups.Session :=
  ⟨σ.world, some backup, 0, backup, 0⟩

def reconcileBackup (name : String) (env : Backups.Env) (σ : System) : System :=
  match σ.backups.lookup name with
  | none => σ
  | some backup =>
    if ¬ Backups.reached env .getBackup then σ
    else
      let t := (Backups.body env (σ.session backup)).state
      { world := t.world
        backups := match t.stored with
          | none => σ.backups.erase name
          | some backup => σ.backups.insert name backup }

def step (σ : System) : Event → Option System
  | .manager e =>
    if leavesID σ.world e then (Reconciler.step σ.world e).map fun world => { σ with world }
    else none
  | .reconcileBackup name env => some (reconcileBackup name env σ)
  | .putBackup name backup => some { σ with backups := σ.backups.insert name backup }
  | .dropBackup name => some { σ with backups := σ.backups.erase name }

end System

section Property

/-- The ID under which the last attempt took its snapshots. -/
def attemptID (acts : List Act) : Option String := (attempt acts).map (·.backupID)

/-- Every claim of the StatefulSet is filled from the snapshot of its disk with this ID. -/
def RestoresFrom (backupID : String) (sts : StatefulSet) : Prop :=
  ∃ instName, ∃ disks : List DiskSpec, sts.name = stsName instName ∧
    List.Forall₂ (fun disk pvc => pvc.name = pvcName instName disk.name ∧
      pvc.dataSource = some (volumeSnapshot (snapshotName backupID disk.name)))
      disks sts.volumeClaimTemplates

/-- Every recovery has restored the snapshots of its own attempt. -/
def Restored : List Act → Prop
  | [] => True
  | .applySts .recovery _ sts _ :: older =>
    (∃ backupID ∈ attemptID older, RestoresFrom backupID sts) ∧ Restored older
  | _ :: older => Restored older

/-- While an attempt is under way, the instance has the ID of its snapshots. -/
def KeepsID (w : World) : Prop :=
  midway w.stored → attemptID w.acts = some w.stored.status.backupID

instance (w : World) : Decidable (KeepsID w) := inferInstanceAs (Decidable (_ → _))

/-- No Backup of the instance is done during an attempt, unless it has the ID of the attempt. -/
def SparesID (σ : System) : Event → Prop
  | .reconcileBackup name env =>
    ∀ backup ∈ σ.backups.lookup name, Backups.Completes env σ.world backup →
      midway σ.world.stored → backup.status.backupID = σ.world.stored.status.backupID
  | _ => True

instance (σ : System) : (e : Event) → Decidable (SparesID σ e)
  | .reconcileBackup _ _ => inferInstanceAs (Decidable (∀ _ ∈ _, _))
  | .manager _ | .putBackup _ _ | .dropBackup _ => isTrue trivial

end Property

section Acts

variable {acts acts' new : List Act} {backupID : String} {act : Act}

/-- What may happen during an attempt with this ID. -/
def Fits (backupID : String) : Act → Prop
  | .beginBackup _ _ | .takeSnapshot _ => False
  | .applySts .recovery _ sts _ => RestoresFrom backupID sts
  | _ => True

theorem fits_of_plain (h : act.plain) : Fits backupID act := by
  cases act with
  | beginBackup _ _ => exact h
  | takeSnapshot _ => exact h
  | applySts path _ _ _ =>
    obtain rfl : path = .patching := h
    trivial
  | seeReady _ | deleteSts _ | deletePvc _ _ _ => trivial

theorem attemptID_cons (h : Fits backupID act) : attemptID (act :: acts) = attemptID acts := by
  unfold attemptID
  cases act with
  | beginBackup _ _ => exact h.elim
  | takeSnapshot _ => exact h.elim
  | seeReady name =>
    rw [attempt, Option.map_map]
    rfl
  | applySts _ _ _ _ | deleteSts _ | deletePvc _ _ _ => rfl

theorem restored_cons (h : Fits backupID act) (hid : attemptID acts = some backupID)
    (hr : Restored acts) : Restored (act :: acts) := by
  cases act with
  | applySts path _ _ _ =>
    cases path with
    | recovery => exact ⟨⟨backupID, hid, h⟩, hr⟩
    | main | resize | patching | restore => exact hr
  | beginBackup _ _ | takeSnapshot _ | seeReady _ | deleteSts _ | deletePvc _ _ _ => exact hr

theorem restored_append (h : ∀ act ∈ new, Fits backupID act) (hid : attemptID acts = some backupID)
    (hr : Restored acts) :
    attemptID (new ++ acts) = some backupID ∧ Restored (new ++ acts) := by
  induction new with
  | nil => exact ⟨hid, hr⟩
  | cons act rest ih =>
    obtain ⟨hid', hr'⟩ := ih fun act hact => h act (List.mem_cons_of_mem _ hact)
    have hact := h act List.mem_cons_self
    exact ⟨(attemptID_cons hact).trans hid', restored_cons hact hid' hr'⟩

theorem restored_of_extends (h : Extends acts acts') (hr : Restored acts) : Restored acts' := by
  obtain ⟨new, rfl, hnew⟩ := h
  induction new with
  | nil => exact hr
  | cons act rest ih =>
    have hrest := ih fun act hact => hnew act (List.mem_cons_of_mem _ hact)
    have hact := hnew act List.mem_cons_self
    cases act with
    | applySts path _ _ _ =>
      cases path with
      | recovery => cases hact
      | main | resize | patching | restore => exact hrest
    | beginBackup _ _ | takeSnapshot _ | seeReady _ | deleteSts _ | deletePvc _ _ _ => exact hrest

theorem exists_attempt : (∃ a ∈ attempt acts, a.backupID = backupID) ↔ attemptID acts = some backupID := by
  unfold attemptID
  rw [Option.map_eq_some_iff]
  rfl

/-- A recovery builds its claims from the snapshots that the status names. -/
theorem restoresFrom_of_rebuilt {env : Env} {inst : Instance} {sp : StsParams} {sts : StatefulSet}
    (hne : inst.status.backupID ≠ "") (h : Rebuilt env inst sp sts) :
    RestoresFrom inst.status.backupID sts := by
  obtain ⟨images, hsts⟩ := h
  obtain ⟨-, hname, -, hpvcs⟩ := constructSTSandPVCs_ok hsts
  refine ⟨sp.inst.name, sp.disks, hname, hpvcs.imp ?_⟩
  intro disk pvc hpvc
  obtain ⟨-, hpvcName, hsource⟩ := newPVC_ok hpvc
  exact ⟨hpvcName, hsource.trans (if_pos hne)⟩

end Acts

section Reconcile

variable {env : Env} {s t u : Session} {w : World} {inst : Instance} {acts : List Act}
  {backupID : String}

/-- No attempt is under way, or the instance has the ID of its snapshots. -/
def Sound (acts : List Act) (inst : Instance) : Prop := NotMid inst ∨ Attempting acts inst

theorem Sound.of_status {inst' : Instance} (h : Sound acts inst) (hstatus : inst'.status = inst.status) :
    Sound acts inst' := by
  rcases h with h | h
  · apply Or.inl
    apply h.congr
    simp only [readyView, readyCond, hstatus]
  · exact .inr (h.of_status hstatus rfl)

theorem midway_of_attempting (h : Attempting acts inst) : midway inst = true := by
  obtain ⟨r, hview, hr⟩ := h.view
  rw [midway, hview]
  exact hr

/-- A session whose two instances are sound, after recoveries that were. -/
structure Safe (s : Session) : Prop where
  stored : Sound s.acts s.stored
  mem : Sound s.acts s.mem
  restored : Restored s.acts

theorem sound_of_going (h : Attempting s.acts s.mem) (hr : Restored s.acts)
    (hg : Going (Fits s.mem.status.backupID) True s t) : Sound t.acts t.mem ∧ Restored t.acts := by
  obtain ⟨new, hacts, hnew⟩ := hg.acts
  obtain ⟨hid, hrestored⟩ := restored_append hnew (exists_attempt.mp h.backupID) hr
  obtain ⟨conditions, hmem⟩ := hg.mem
  rw [← hacts] at hid hrestored
  refine ⟨?_, hrestored⟩
  have hattempting : ∀ r, readyView t.mem = some (.false, r) → midReason r = true →
      Attempting t.acts t.mem := by
    intro r hview hmid
    refine ⟨⟨r, hview, hmid⟩, ?_, ?_, exists_attempt.mpr ?_, ?_⟩
    · rw [hg.db]
      exact h.db
    · rw [hmem]
      exact h.machine
    · rw [hmem]
      exact hid
    · rw [hmem]
      exact h.named
  obtain ⟨r, hview, hmid⟩ := h.view
  rcases hg.view with heq | ⟨r', hview'⟩
  · exact .inr (hattempting r (heq.trans hview) hmid)
  · by_cases hmid' : midReason r' = true
    · exact .inr (hattempting r' hview' hmid')
    · exact .inl (notMid_of_view hview' (Bool.eq_false_iff.mpr hmid'))

theorem safe_of_begun (h : Begun s.acts t) (hr : Restored s.acts) : Safe t := by
  refine ⟨.inl h.stored, ?_, restored_of_extends h.acts hr⟩
  rcases h.mem with hmem | ⟨-, hmem⟩
  · exact .inl hmem
  · exact .inr hmem

/-- One state of the machine, in the middle of an attempt. -/
theorem safe_patchingState {sp : StsParams} {timeout : Duration} {cond : Condition}
    (hstored : Attempting s.acts s.stored) (hmem : Attempting s.acts s.mem)
    (hmid : midReason cond.reason = true) (hr : Restored s.acts)
    (hid : s.stored.status.backupID = s.mem.status.backupID) :
    wp (patchingState env sp timeout cond) (fun _ _ => True) (fun _ => Safe) s := by
  have hrebuild : ∀ created sts active, Rebuilt env s.mem sp sts →
      Fits s.mem.status.backupID (.applySts .recovery created sts active) :=
    fun _ _ _ h => restoresFrom_of_rebuilt hmem.named h
  apply (going_patchingState hmid (fun _ => fits_of_plain) hrebuild).mono (fun _ _ h => h)
  have hkept : ∀ t : Session, (∃ new, t.acts = new ++ s.acts ∧ ∀ act ∈ new, Fits s.mem.status.backupID act) →
      t.stored = s.stored → Sound t.acts t.stored ∧ Restored t.acts := by
    rintro t ⟨new, hacts, hnew⟩ heq
    obtain ⟨hid', hr'⟩ := restored_append hnew (exists_attempt.mp hmem.backupID) hr
    rw [hacts, heq]
    refine ⟨.inr ⟨hstored.view, hstored.db, hstored.machine, exists_attempt.mpr ?_, hstored.named⟩, hr'⟩
    rw [hid', hid]
  rintro _ t (hg | ⟨heq, ⟨r, hview, hmid'⟩, hacts⟩)
  · obtain ⟨hsound, hr'⟩ := hkept t hg.acts hg.stored
    exact ⟨hsound, (sound_of_going hmem hr hg).1, hr'⟩
  · obtain ⟨hsound, hr'⟩ := hkept t hacts heq
    exact ⟨hsound, .inl (notMid_of_view hview hmid'), hr'⟩

theorem safe_body (hs : s.mem = s.stored) (h : Sound s.acts s.stored) (hr : Restored s.acts) :
    wp (body env) (fun _ => Safe) (fun _ => Safe) s := by
  rcases h with h | h
  · exact (begun_body hs h).mono (fun _ _ hb => safe_of_begun hb hr) fun _ _ hb => safe_of_begun hb hr
  · obtain ⟨r, hview, hmid⟩ := h.view
    apply wp_body_mid hs ⟨hview, hmid, h.db, h.machine⟩
    · intro t hk
      have hstatus : t.mem.status = s.stored.status := by
        rcases hk.mem with hm | hm
        · exact hm
        · rw [hm, hs]
      refine ⟨.inr (h.of_status hk.stored hk.acts), .inr (h.of_status hstatus hk.acts), ?_⟩
      rw [hk.acts]
      exact hr
    · intro _ t hstop hmem
      have hsound : Sound t.acts t.stored := by
        rcases hstop.stored with hstatus | ⟨v, hv, hreason⟩
        · exact .inr (h.of_status hstatus hstop.acts)
        · apply Or.inl
          exact notMid_of_view hv (midReason_of_stopReason hreason)
      refine ⟨hsound, .inr (h.of_status (by rw [hmem, hs]) hstop.acts), ?_⟩
      rw [hstop.acts]
      exact hr
    · intro t config map timeout cond hres _ _
      have hacts := hres.kept.acts
      apply safe_patchingState (h.of_status hres.kept.stored hacts) (h.of_status hres.status hacts)
      · rw [hres.reason]
        exact hmid
      · rw [hacts]
        exact hr
      · rw [hres.kept.stored, hres.status]

theorem sound_reconcile (h : Sound w.acts w.stored) (hr : Restored w.acts) :
    Sound (reconcile env w).acts (reconcile env w).stored ∧ Restored (reconcile env w).acts := by
  apply reconcile_of_body (J := fun v : World => Sound v.acts v.stored ∧ Restored v.acts) ⟨h, hr⟩
    (safe_body rfl h hr)
  intro t v ht hv
  rw [hv.acts]
  refine ⟨?_, ht.restored⟩
  rcases hv.stored with heq | heq
  · rw [heq]
    exact ht.stored
  · rw [heq]
    exact ht.mem.of_status rfl

end Reconcile

section Runs

variable {σ σ' : System} {e : Event}

theorem backupID_of_leavesID {w w' : World} {e : Reconciler.Event} (hleaves : leavesID w e = true)
    (h : Reconciler.step w e = some w') (hne : ∀ env, e ≠ .reconcile env) :
    w'.stored.status.backupID = w.stored.status.backupID := by
  cases e with
  | reconcile env => exact absurd rfl (hne env)
  | writeStatus backupID locked names =>
    cases h
    exact of_decide_eq_true hleaves
  | addSnapshot name pvc =>
    simp only [Reconciler.step] at h
    split at h
    · cases h
    · cases h
      rfl
  | setSnapshotStatus name status =>
    obtain ⟨snap, -, rfl⟩ := Option.map_eq_some_iff.mp h
    rfl
  | editSpec spec | deleteInstance now | removeSnapshot name | stsGone | addPvc name | pvcGone name =>
    cases h
    rfl

/-- What happens to the instance, other than by its Backups. -/
theorem sound_manager {w w' : World} {e : Reconciler.Event} (hleaves : leavesID w e = true)
    (h : Reconciler.step w e = some w') (hs : Sound w.acts w.stored) (hr : Restored w.acts) :
    Sound w'.acts w'.stored ∧ Restored w'.acts := by
  by_cases hrec : ∃ env, e = .reconcile env
  · obtain ⟨env, rfl⟩ := hrec
    obtain rfl := Option.some.inj h
    exact sound_reconcile hs hr
  · have hid := backupID_of_leavesID hleaves h fun env heq => hrec ⟨env, heq⟩
    obtain ⟨env, heq, -⟩ | hext := step_cases h
    · exact absurd ⟨env, heq⟩ hrec
    · rw [hext.acts]
      refine ⟨?_, hr⟩
      rcases hs with hs | hs
      · exact .inl (hs.congr hext.readyView)
      · refine .inr ⟨?_, ?_, ?_, ?_, ?_⟩
        · rw [hext.readyView]
          exact hs.view
        · rw [dbInstanceCond, hext.conditions]
          exact hs.db
        · rw [hext.machine]
          exact hs.machine
        · rw [hid]
          exact hs.backupID
        · rw [hid]
          exact hs.named

/-- A Backup leaves the attempt its ID, unless it is done during the attempt. -/
theorem sound_reconcileBackup {name : String} {env : Backups.Env}
    (hok : SparesID σ (.reconcileBackup name env)) (hs : Sound σ.world.acts σ.world.stored)
    (hr : Restored σ.world.acts) :
    Sound (reconcileBackup name env σ).world.acts (reconcileBackup name env σ).world.stored ∧
      Restored (reconcileBackup name env σ).world.acts := by
  unfold reconcileBackup
  split
  · exact ⟨hs, hr⟩
  · next backup hbackup =>
    split
    · exact ⟨hs, hr⟩
    · have hbody : wp (Backups.body env)
          (fun _ t => Sound t.world.acts t.world.stored ∧ Restored t.world.acts)
          (fun _ t => Sound t.world.acts t.world.stored ∧ Restored t.world.acts)
          (σ.session backup) := by
        have hspares : ∀ t : Backups.Session, Backups.Spares (σ.session backup) t →
            Sound t.world.acts t.world.stored ∧ Restored t.world.acts := by
          rintro t ⟨snapshots, ht⟩
          rw [ht]
          exact ⟨hs, hr⟩
        apply (Backups.wp_backup_body rfl).mono fun _ => hspares
        rintro _ t (ht | ⟨hcompletes, ht⟩)
        · exact hspares t ht
        · rw [ht]
          refine ⟨?_, hr⟩
          rcases hs with hs | hs
          · exact .inl (hs.congr rfl)
          · have hid := hok backup hbackup hcompletes (midway_of_attempting hs)
            refine .inr ⟨hs.view, hs.db, hs.machine, ?_, ?_⟩
            · exact (hid ▸ hs.backupID :)
            · exact (hid ▸ hs.named :)
      exact hbody.state

theorem sound_step (hs : Sound σ.world.acts σ.world.stored) (hr : Restored σ.world.acts)
    (hok : SparesID σ e) (h : step σ e = some σ') :
    Sound σ'.world.acts σ'.world.stored ∧ Restored σ'.world.acts := by
  cases e with
  | manager e =>
    simp only [step] at h
    split at h
    · next hleaves =>
      obtain ⟨world, hworld, rfl⟩ := Option.map_eq_some_iff.mp h
      exact sound_manager hleaves hworld hs hr
    · cases h
  | reconcileBackup name env =>
    cases h
    exact sound_reconcileBackup hok hs hr
  | putBackup name backup | dropBackup name =>
    cases h
    exact ⟨hs, hr⟩

theorem keepsID_of_sound {w : World} (h : Sound w.acts w.stored) : KeepsID w := by
  intro hmid
  rcases h with h | h
  · rw [h.not_midway] at hmid
    cases hmid
  · exact exists_attempt.mp h.backupID

/-- In a run in which no Backup is done during an attempt, the instance keeps the ID of the
attempt, and every recovery restores the snapshots of its own attempt. -/
theorem keepsID_of_sparesID (σ : System) (events : List Event) (hacts : σ.world.acts = [])
    (hmid : midway σ.world.stored = false) (hm : Runs.Meets step SparesID σ events) :
    Runs.Always step (fun σ => KeepsID σ.world ∧ Restored σ.world.acts) σ events := by
  have hnot : NotMid σ.world.stored := notMid_of_not_midway hmid
  have hrestored : Restored σ.world.acts := by
    rw [hacts]
    trivial
  apply Runs.always_of_invariant
    (I := fun σ : System => Sound σ.world.acts σ.world.stored ∧ Restored σ.world.acts) _ _
    ⟨.inl hnot, hrestored⟩ hm
  · intro σ e σ' hσ hok hstep
    exact sound_step hσ.1 hσ.2 hok hstep
  · intro σ hσ
    exact ⟨keepsID_of_sound hσ.1, hσ.2⟩

end Runs

section Sample

/-- A physical backup of the instance that has been started. -/
def startedBackup : Backups.Backup where
  ns := "db"
  name := "nightly"
  uid := "2"
  labels := none
  annotations := none
  deletionTimestamp := none
  hasFinalizer := false
  spec := ⟨.physical, "gs://bucket/nightly", "", ""⟩
  instName := "mydb"
  mode := .unset
  subtype := .unset
  volumeSnapshotClass := ""
  status :=
    { phase := .inProgress
      ready := some ⟨.false, some .backupInProgress, "Starting to create a backup.", 0⟩
      backupID := "mydb-20240101-phys-1"
      backupTime := "20240101000000"
      startTime := some 0
      duration := none
      gcsPath := "" }

/-- Every call succeeds and the operation is done. -/
def doneBackup (now : Time) : Backups.Env where
  now := now
  date := "20240101"
  nanosecond := 1
  timeText := "20240101000000"
  call := fun _ => .ok
  errorText := fun _ => ""
  printed := ""
  other := none
  config := .ok none
  volSnaps := .ok []
  physicalBackup := .ok ()
  operation := .ok ⟨true, none⟩
  metadata := some none
  physicalDelete := true
  verify := some []

def startedSystem : System where
  world := createdWorld (some [dataDisk])
  backups := (∅ : Finmap fun _ : String => Backups.Backup).insert "nightly" startedBackup

/-- The Backup is done after the snapshots of an attempt were taken. -/
def overtakenAttempt : List Event :=
  [.manager (requestImage (some [dataDisk])), .manager (.reconcile (calm 1000)),
    .reconcileBackup "nightly" (doneBackup 2000)]

/-- The attempt goes on, and its ID is gone. -/
theorem overtaken_attempt_loses_id :
    startedSystem.world.acts = [] ∧ midway startedSystem.world.stored = false ∧
      ∃ σ, Runs.run step startedSystem overtakenAttempt = some σ ∧ midway σ.world.stored = true ∧
        σ.world.stored.status.backupID = "mydb-20240101-phys-1" ∧ ¬ KeepsID σ.world := by
  refine ⟨rfl, rfl, ?_⟩
  have hbad : ((Runs.run step startedSystem overtakenAttempt).any fun σ =>
      midway σ.world.stored = true ∧ σ.world.stored.status.backupID = "mydb-20240101-phys-1" ∧
        ¬ KeepsID σ.world) = true := by
    decide +kernel
  obtain ⟨σ, hσ, h⟩ := (Option.any_eq_true _ _).mp hbad
  exact ⟨σ, hσ, of_decide_eq_true h⟩

/-- The Backup is done before the attempt begins, which then fails and is recovered. -/
def precededAttempt : List Event :=
  .reconcileBackup "nightly" (doneBackup 500) ::
    recoveredPatching.map Event.manager

theorem preceded_attempt_keeps_id :
    Runs.Meets step SparesID startedSystem precededAttempt ∧
      Runs.Always step (fun σ => KeepsID σ.world ∧ Restored σ.world.acts) startedSystem
        precededAttempt := by
  have hm : Runs.Meets step SparesID startedSystem precededAttempt := by
    decide +kernel
  exact ⟨hm, keepsID_of_sparesID startedSystem precededAttempt rfl rfl hm⟩

end Sample

end ElCarro.Instance.BackupID
