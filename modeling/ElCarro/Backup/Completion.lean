import ElCarro.Backup.Reconcile

/-! # What a Backup does to its instance

A reconcile of a Backup takes snapshots and otherwise leaves the instance alone, until
the Backup is found done: then its ID is written to the status of the instance, in
whatever state the instance is by that time.
-/

namespace ElCarro.Backups

open GoTime K8s Api Flow
open Instance.Reconciler (World Outcome Result gone)

section Spares

/-- Nothing of the instance and its objects changes, but for the snapshots. -/
def Spares (s t : Session) : Prop := ∃ snapshots, t.world = { s.world with snapshots }

instance : Std.Refl Spares := ⟨fun s => ⟨s.world.snapshots, rfl⟩⟩

instance : IsTrans Session Spares where
  trans := by
    rintro s t u ⟨_, ht⟩ ⟨snapshots, hu⟩
    refine ⟨snapshots, ?_⟩
    rw [hu, ht]

variable {env : Env} {s t : Session}

theorem spares_of_world (h : t.world = s.world) : Spares s t := ⟨s.world.snapshots, h⟩

theorem spares_setMem {f : Backup → Backup} : Within Spares (setMem f) :=
  .modify fun _ => spares_of_world rfl

theorem spares_setStatus {f : Status → Status} : Within Spares (setStatus f) := spares_setMem

theorem spares_setReady {status : CondStatus} {reason : Option Reason} {message : String} :
    Within Spares (setReady env status reason message) := spares_setStatus

theorem store_world {backup : Backup} : (s.store backup).world = s.world := by
  unfold Session.store
  split <;> rfl

/-- A write of the Backup: the answer replaces the copy, a failure leaves it alone. -/
theorem wp_write {object : Backup → Backup → Backup} {c : Call} :
    wp (write env object c) (fun ok t => t.world = s.world ∧
      (ok = true ∧ reached env c = true ∧ (∃ b ∈ s.stored, t.mem = object b s.mem) ∨
        ok = false ∧ t.mem = s.mem)) (fun _ _ => False) s := by
  unfold wp write
  cases hstored : s.stored with
  | none => exact ⟨rfl, .inr ⟨rfl, rfl⟩⟩
  | some stored =>
    simp only
    split
    · next h =>
      revert h
      split
      · rintro ⟨⟩
        exact ⟨rfl, .inr ⟨rfl, rfl⟩⟩
      · cases hc : env.call c with
        | ok =>
          rintro ⟨⟩
          refine ⟨store_world, .inl ⟨rfl, ?_, stored, rfl, rfl⟩⟩
          rw [reached, hc]
          rfl
        | lost =>
          rintro ⟨⟩
          refine ⟨store_world, .inr ⟨rfl, ?_⟩⟩
          unfold Session.store
          split <;> rfl
        | notFound | conflict | failed =>
          rintro ⟨⟩
          exact ⟨rfl, .inr ⟨rfl, rfl⟩⟩
    · next h =>
      revert h
      split
      · intro h
        cases h
      · intro h
        cases hc : env.call c <;> rw [hc] at h <;> cases h

theorem spares_write {object : Backup → Backup → Backup} {c : Call} :
    Within Spares (write env object c) :=
  fun _ => wp_write.mono (fun _ _ h => spares_of_world h.1) fun _ _ h => h.elim

theorem spares_finishWith {r : Result} {ok : Bool} : Within Spares (finishWith r ok) := .finish _

theorem spares_leave {status : CondStatus} {reason : Reason} {phase : Phase} {message : String}
    {r : Result} : Within Spares (leave env status reason phase message r) := by
  apply Within.bind spares_setReady
  intro _
  apply Within.bind spares_setStatus
  intro _
  exact Within.bind spares_write fun _ => spares_finishWith

/-- Reading the instance changes nothing; what is read goes by the name that the Backup has. -/
theorem wp_getInstance : wp (getInstance env)
    (fun read t => t = s ∧ ∀ inst, read = some inst → inst.ns = s.mem.ns ∧
      inst.name = s.mem.instName ∧ reached env .getInstance = true ∧
      (Names s.world s.mem.ns s.mem.instName → gone s.world.stored = false))
    (fun _ _ => False) s := by
  simp only [getInstance, wp_bind, wp_get]
  split
  · exact ⟨rfl, fun _ h => by cases h⟩
  · next hcall =>
    have hcall : reached env .getInstance = true := by simpa using hcall
    split
    · next hnames =>
      refine ⟨rfl, ?_⟩
      split
      · exact fun _ h => by cases h
      · next hgone =>
        rintro _ ⟨⟩
        exact ⟨hnames.1, hnames.2, hcall, fun _ => by simpa using hgone⟩
    · next hother =>
      refine ⟨rfl, ?_⟩
      intro inst h
      obtain ⟨_, -, rfl⟩ := Option.map_eq_some_iff.mp h
      exact ⟨rfl, rfl, hcall, fun h => absurd h hother⟩

theorem wp_instReady : wp (instReady env) (fun _ t => t = s) (fun _ _ => False) s := by
  apply wp_bind.mpr (wp_getInstance.mono _ fun _ _ h => h)
  rintro inst _ ⟨rfl, -⟩
  cases inst with
  | none => rfl
  | some inst =>
    simp only
    split <;> rfl

theorem spares_snapshotDisks {backupID instName : String} {disks : List DiskSpec} :
    Within Spares (snapshotDisks env backupID instName disks) := by
  induction disks with
  | nil => exact .pure _
  | cons disk rest ih =>
    apply Within.bind
    · apply Within.when
      intro _
      apply Within.modify
      intro s
      split
      · exact Std.Refl.refl s
      · exact ⟨_, rfl⟩
    · intro _
      exact .ite (fun _ => ih) fun _ => .pure _

theorem spares_create {inst : Instance} : Within Spares (create env inst) := by
  apply Within.bind .get
  intro s
  apply Within.ite _ fun _ => .pure _
  intro _
  apply Within.bind .get
  intro s
  cases env.config with
  | error _ => exact .pure _
  | ok config => exact .ite (fun _ => .pure _) fun _ => spares_snapshotDisks

/-- The backup ID goes to the instance of the world. -/
structure Assigned (env : Env) (inst : Instance) (s t : Session) : Prop where
  ready : s.mem.state = some .backupReady
  names : Names s.world inst.ns inst.name
  called : reached env .backupStatus = true
  served : (env.call .instanceStatus).served = true
  world : t.world = s.world.edit { s.world.stored with
    status := { s.world.stored.status with backupID := s.mem.status.backupID } }

/-- Only a Backup that is ready has its ID written to the instance. -/
theorem wp_updateBackupStatus {inst : Instance} : wp (updateBackupStatus env inst)
    (fun _ t => Spares s t ∨ Assigned env inst s t) (fun _ _ => False) s := by
  simp only [updateBackupStatus, wp_bind, setMem, wp_modify, wp_get]
  apply wp_write.mono _ fun _ _ h => h
  rintro ok t ⟨hworld, hmem⟩
  split
  · next h =>
    obtain ⟨rfl, hstate⟩ := h
    obtain ⟨-, hcall, -⟩ | ⟨h, -⟩ := hmem
    · change Spares s (if _ then _ else _) ∨ Assigned env inst s (if _ then _ else _)
      split
      · next h =>
        refine .inr ⟨hstate, ?_, hcall, h.1, ?_⟩
        · rw [← hworld]
          exact h.2
        · rw [hworld]
      · exact .inl (spares_of_world hworld)
    · cases h
  · exact .inl (spares_of_world hworld)

theorem assigned_finishWith {inst : Instance} {r : Result} {Q : Unit → Session → Prop} :
    wp (do finishWith r (← updateBackupStatus env inst)) Q
      (fun _ t => Spares s t ∨ Assigned env inst s t) s :=
  wp_bind.mpr (wp_updateBackupStatus.mono (fun _ _ h => h) fun _ _ h => h.elim)

/-- With any other reason the instance is left alone. -/
theorem spares_finishWith_updateBackupStatus {inst : Instance} {r : Result}
    {Q : Unit → Session → Prop} (h : s.mem.state ≠ some .backupReady) :
    wp (do finishWith r (← updateBackupStatus env inst)) Q (fun _ => Spares s) s := by
  apply assigned_finishWith.mono fun _ _ h => h
  rintro _ t (hs | ha)
  · exact hs
  · exact absurd ha.ready h

/-- The spec is checked on the copy, which at most notes the errors. -/
theorem wp_validateBackupSpec : wp (validateBackupSpec env)
    (fun valid t => t.world = s.world ∧ (valid = true → t = s ∧ specErrMsgs env s.mem = []))
    (fun _ _ => False) s := by
  simp only [validateBackupSpec, wp_bind, wp_get]
  split
  · next h => exact ⟨rfl, fun _ => ⟨rfl, h⟩⟩
  · exact ⟨rfl, fun h => by cases h⟩

theorem spares_addBackupMetadata {metadata : Option Metadata} :
    Within Spares (addBackupMetadata env metadata) := by
  cases metadata with
  | none => exact .pure _
  | some m => exact Within.bind spares_setMem fun _ => spares_write

theorem upsertReady_reason {now : Time} {status : CondStatus} {reason : Option Reason}
    {message : String} {ready : Option ReadyCond} :
    (upsertReady now status reason message ready).reason = reason := by
  unfold upsertReady
  split
  · rfl
  · split
    · next h => exact h.2
    · rfl

/-- The new reason, and what a new condition leaves as it is. -/
theorem wp_setReady {status : CondStatus} {reason : Reason} {message : String}
    {Q : Unit → Session → Prop} {R : Result → Session → Prop}
    (h : ∀ t : Session, t.world = s.world → t.mem.state = some reason →
      t.mem.status.backupID = s.mem.status.backupID →
      t.mem.status.startTime = s.mem.status.startTime → Q () t) :
    wp (setReady env status (some reason) message) Q R s :=
  h _ rfl upsertReady_reason rfl rfl

theorem spares_startBackup (hstate : s.mem.state = some .backupPending) :
    wp (startBackup env) (fun _ => Spares s) (fun _ => Spares s) s := by
  apply wp_bind.mpr (wp_instReady.mono _ fun _ _ h => h.elim)
  intro ready t ht
  subst ht
  cases ready with
  | error err => exact spares_leave _
  | ok inst =>
    simp only [wp_bind, wp_get, wp_when]
    constructor
    · intro _
      simp only [setStatus, setMem, wp_modify]
      apply spares_finishWith_updateBackupStatus
      change t.mem.state ≠ _
      rw [hstate]
      decide
    · intro _
      apply (spares_addBackupMetadata t).mono _ fun _ _ h => h
      intro added u hu
      refine wp_bind.mpr (wp_when.mpr ⟨fun _ => hu, fun _ => ?_⟩)
      apply wp_bind.mpr ((spares_create u).mono _ fun _ _ h => IsTrans.trans _ _ _ hu h)
      intro created v hv
      have hv : Spares t v := IsTrans.trans _ _ _ hu hv
      refine wp_bind.mpr (wp_when.mpr ⟨fun _ => hv, fun _ => wp_bind.mpr (wp_setReady ?_)⟩)
      intro w hworld hstate _ _
      have hw : Spares t w := IsTrans.trans _ _ _ hv (spares_of_world hworld)
      have hready : w.mem.state ≠ some .backupReady := by
        rw [hstate]
        decide
      exact (spares_finishWith_updateBackupStatus hready).mono (fun _ _ h => h)
        fun _ _ h => IsTrans.trans _ _ _ hw h

/-- What a reconcile needs to find a Backup of the instance done and to write its ID. -/
structure Completes (env : Env) (w : World) (backup : Backup) : Prop where
  mode : backup.mode = .unset
  kept : backup.deletionTimestamp = none
  valid : specErrMsgs env backup = []
  state : backup.state = some .backupInProgress
  names : Names w backup.ns backup.instName
  exists_instance : gone w.stored = false
  read : reached env .getInstance = true
  done : poll env backup = some ⟨true, none⟩
  fetched : (fetchMetadata env backup).isSome
  updated : fetchMetadata env backup ≠ some none → reached env .update = true
  started : backup.status.startTime.isSome
  called : reached env .backupStatus = true
  served : (env.call .instanceStatus).served = true

instance (env : Env) (w : World) (backup : Backup) : Decidable (Completes env w backup) :=
  decidable_of_iff (backup.mode = .unset ∧ backup.deletionTimestamp = none ∧
    specErrMsgs env backup = [] ∧ backup.state = some .backupInProgress ∧
    Names w backup.ns backup.instName ∧ gone w.stored = false ∧ reached env .getInstance = true ∧
    poll env backup = some ⟨true, none⟩ ∧ (fetchMetadata env backup).isSome ∧
    (fetchMetadata env backup ≠ some none → reached env .update = true) ∧
    backup.status.startTime.isSome ∧ reached env .backupStatus = true ∧
    (env.call .instanceStatus).served = true)
    ⟨fun ⟨h1, h2, h3, h4, h5, h6, h7, h8, h9, h10, h11, h12, h13⟩ =>
      ⟨h1, h2, h3, h4, h5, h6, h7, h8, h9, h10, h11, h12, h13⟩,
      fun ⟨h1, h2, h3, h4, h5, h6, h7, h8, h9, h10, h11, h12, h13⟩ =>
      ⟨h1, h2, h3, h4, h5, h6, h7, h8, h9, h10, h11, h12, h13⟩⟩

/-- The ID of the Backup is the one that the instance has now. -/
def Handed (s t : Session) : Prop :=
  t.world = s.world.edit { s.world.stored with
    status := { s.world.stored.status with backupID := s.mem.status.backupID } }

/-- The metadata of a backup that is done changes nothing that the rest of the reconcile reads. -/
theorem wp_addBackupMetadata {metadata : Option Metadata} (hs : s.stored = some s.mem) :
    wp (addBackupMetadata env metadata) (fun ok t => t.world = s.world ∧
      t.mem.status = s.mem.status ∧ (ok = true → metadata ≠ none → reached env .update = true))
      (fun _ _ => False) s := by
  cases metadata with
  | none => exact ⟨rfl, rfl, fun _ h => absurd rfl h⟩
  | some m =>
    simp only [addBackupMetadata, wp_bind, setMem, wp_modify]
    apply wp_write.mono _ fun _ _ h => h
    rintro ok t ⟨hworld, ⟨-, hcall, b, hb, hmem⟩ | ⟨rfl, hmem⟩⟩
    · obtain rfl := Option.some.inj (hs.symm.trans hb)
      exact ⟨hworld, by rw [hmem], fun _ _ => hcall⟩
    · exact ⟨hworld, by rw [hmem], fun h => by cases h⟩

theorem wp_completeBackup {inst : Instance} (hs : s.stored = some s.mem)
    (hfound : Names s.world inst.ns inst.name → (fetchMetadata env s.mem).isSome →
      (fetchMetadata env s.mem ≠ some none → reached env .update = true) →
      s.mem.status.startTime.isSome → reached env .backupStatus = true →
      (env.call .instanceStatus).served = true → Completes env s.world s.mem) :
    wp (completeBackup env inst) (fun _ => Spares s)
      (fun _ t => Spares s t ∨ Completes env s.world s.mem ∧ Handed s t) s := by
  simp only [completeBackup, wp_bind, wp_get]
  cases hmeta : fetchMetadata env s.mem with
  | none => exact .inl (Std.Refl.refl s)
  | some metadata =>
    apply wp_bind.mpr ((wp_addBackupMetadata hs).mono _ fun _ _ h => h.elim)
    rintro added t ⟨hworld, hstatus, hadded⟩
    refine wp_bind.mpr (wp_when.mpr ⟨fun _ => .inl (spares_of_world hworld), fun hok => ?_⟩)
    have hok : added = true := by simpa using hok
    refine wp_bind.mpr (wp_setReady ?_)
    intro u huworld hstate hid htime
    have hworld := huworld.trans hworld
    simp only [wp_bind, wp_get]
    rw [htime, hstatus]
    cases hstart : s.mem.status.startTime with
    | none => exact .inl (spares_of_world hworld)
    | some startTime =>
      refine wp_bind.mpr ?_
      simp only [setStatus, setMem, wp_modify]
      apply assigned_finishWith.mono fun _ _ h => h
      rintro _ v (hv | hv)
      · exact .inl (IsTrans.trans _ _ _ (spares_of_world hworld) hv)
      · refine .inr ⟨?_, ?_⟩
        · have hnames : Names u.world inst.ns inst.name := hv.names
          rw [hworld] at hnames
          apply hfound hnames _ _ _ hv.called hv.served
          · rw [hmeta]
            rfl
          · intro hne
            rw [hmeta] at hne
            exact hadded hok fun h => hne (congrArg some h)
          · rw [hstart]
            rfl
        · have hedit := hv.world
          rw [hid, hstatus] at hedit
          rw [Handed, hedit, hworld]

theorem wp_awaitBackup (hs : s.stored = some s.mem)
    (hfound : Names s.world s.mem.ns s.mem.instName → gone s.world.stored = false →
      reached env .getInstance = true → poll env s.mem = some ⟨true, none⟩ →
      (fetchMetadata env s.mem).isSome →
      (fetchMetadata env s.mem ≠ some none → reached env .update = true) →
      s.mem.status.startTime.isSome → reached env .backupStatus = true →
      (env.call .instanceStatus).served = true → Completes env s.world s.mem) :
    wp (awaitBackup env) (fun _ => Spares s)
      (fun _ t => Spares s t ∨ Completes env s.world s.mem ∧ Handed s t) s := by
  apply wp_bind.mpr (wp_getInstance.mono _ fun _ _ h => h.elim)
  rintro read t ⟨ht, hread⟩
  subst ht
  have hfailed : ∀ {message : String} {inst : Instance},
      wp (do setReady env .false (some .backupFailed) message
             finishWith .stop (← updateBackupStatus env inst)) (fun _ => Spares t)
        (fun _ u => Spares t u ∨ Completes env t.world t.mem ∧ Handed t u) t := by
    intro message inst
    refine wp_bind.mpr (wp_setReady ?_)
    intro u hworld hstate _ _
    have hready : u.mem.state ≠ some .backupReady := by
      rw [hstate]
      decide
    exact (spares_finishWith_updateBackupStatus hready).mono (fun _ _ h => h)
      fun _ _ h => .inl (IsTrans.trans _ _ _ (spares_of_world hworld) h)
  cases read with
  | none => exact .inl (Std.Refl.refl t)
  | some inst =>
    obtain ⟨hns, hname, hcall, hgone⟩ := hread inst rfl
    simp only [wp_bind, wp_get]
    cases hpoll : poll env t.mem with
    | none => exact .inl (Std.Refl.refl t)
    | some progress =>
      simp only
      split
      · exact hfailed
      · split
        · next hdone =>
          split
          · next hnone =>
            have hpoll : poll env t.mem = some ⟨true, none⟩ := by
              rw [hpoll, ← hdone, ← hnone]
            apply wp_completeBackup hs
            rw [hns, hname]
            exact fun hnames => hfound hnames (hgone hnames) hcall hpoll
          · exact hfailed
        · exact .inl (Std.Refl.refl t)

theorem spares_removeFinalizer : Within Spares (removeFinalizer env) := by
  apply Within.bind spares_setMem
  intro _
  exact Within.bind spares_write fun _ => spares_finishWith

theorem spares_getInstance : Within Spares (getInstance env) := by
  intro s
  apply wp_getInstance.mono _ fun _ _ h => h.elim
  rintro _ _ ⟨rfl, -⟩
  exact Std.Refl.refl _

theorem spares_reconcileBackupDeletion : Within Spares (reconcileBackupDeletion env) := by
  apply Within.bind .get
  intro s
  apply Within.bind (.when fun _ => .finish _)
  intro _
  apply Within.bind (.when fun _ => spares_leave)
  intro _
  apply Within.bind spares_getInstance
  intro inst
  cases inst with
  | none => exact .ite (fun _ => spares_removeFinalizer) fun _ => .finish _
  | some _ => exact Within.bind (.when fun _ => .finish _) fun _ => spares_removeFinalizer

theorem spares_reconcileVerifyExists : Within Spares (reconcileVerifyExists env) := by
  apply Within.bind .get
  intro s
  split
  · exact spares_leave
  · apply Within.bind
    · intro t
      apply wp_instReady.mono _ fun _ _ h => h.elim
      rintro _ _ rfl
      exact Std.Refl.refl _
    · intro inst
      split
      · exact .finish _
      · split
        · exact .finish _
        · exact spares_leave
        · exact spares_leave

/-- A reconcile of a Backup leaves the instance alone, or hands its ID over to it. -/
theorem wp_backup_body (hs : s.stored = some s.mem) :
    wp (body env) (fun _ => Spares s)
      (fun _ t => Spares s t ∨ Completes env s.world s.mem ∧ Handed s t) s := by
  have hspares : ∀ {p : P Unit}, Within Spares p → wp p (fun _ => Spares s)
      (fun _ t => Spares s t ∨ Completes env s.world s.mem ∧ Handed s t) s :=
    fun hp => (hp s).mono (fun _ _ h => h) fun _ _ h => .inl h
  simp only [body, wp_bind, wp_get]
  split
  · exact hspares spares_reconcileVerifyExists
  · next hmode =>
    split
    · exact hspares spares_reconcileBackupDeletion
    · next hdeletion =>
      apply wp_bind.mpr (wp_validateBackupSpec.mono _ fun _ _ h => h.elim)
      rintro valid t ⟨hworld, hvalid⟩
      refine wp_bind.mpr (wp_when.mpr ⟨fun _ => ?_, fun hok => ?_⟩)
      · exact wp_bind.mpr (wp_write.mono
          (fun _ _ h => .inl (spares_of_world (h.1.trans hworld))) fun _ _ h => h.elim)
      · obtain ⟨rfl, hmsgs⟩ := hvalid (by simpa using hok)
        simp only [wp_bind, wp_get]
        split
        · exact hspares spares_leave
        · next hstate => exact (spares_startBackup hstate).mono (fun _ _ h => h) fun _ _ h => .inl h
        · next hstate =>
          apply wp_awaitBackup hs
          have hmode : t.mem.mode = .unset := by
            revert hmode
            cases t.mem.mode <;> decide
          have hkept : t.mem.deletionTimestamp = none := by simpa using hdeletion
          intro hnames hgone hread hdone hfetched hupdated hstarted hcalled hserved
          exact ⟨hmode, hkept, hmsgs, hstate, hnames, hgone, hread, hdone, hfetched, hupdated,
            hstarted, hcalled, hserved⟩
        · apply hspares
          apply Within.bind _ fun _ => .finish _
          apply Within.when
          intro _
          exact Within.bind spares_setMem fun _ => Within.bind spares_write fun _ => spares_finishWith
        · exact .inl (Std.Refl.refl _)

end Spares

end ElCarro.Backups
