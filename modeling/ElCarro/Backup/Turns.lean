import ElCarro.Backup.Completion

/-! # What a reconcile makes of a Backup

Every write of the controller is checked against the version that it read. What it
leaves in the API server is the object it found with another reason, with the finalizer,
or, once the data is gone, nothing.
-/

namespace ElCarro.Backups

open GoTime K8s Api Flow
open Instance.Reconciler (World Outcome Result readyCond gone)

section Instance

variable {env : Env} {s t : Session}

/-- What `GetInstance` comes back with. -/
def readInstance (env : Env) (w : World) (backup : Backup) : Option Instance :=
  if ¬ reached env .getInstance then none
  else if Names w backup.ns backup.instName then if gone w.stored then none else some w.stored
  else env.other.map fun inst => { inst with ns := backup.ns, name := backup.instName }

/-- The instance can be read and is ready. -/
def instIsReady (env : Env) (w : World) (backup : Backup) : Bool :=
  (readInstance env w backup).any fun inst => conditionStatusEquals (readyCond inst) .true

theorem getInstance_eq : getInstance env s = .next (readInstance env s.world s.mem) s := by
  unfold getInstance readInstance
  rw [get_bind_apply]
  split
  · rfl
  · split
    · rfl
    · rfl

theorem wp_instReady_iff {Q : Except String Instance → Session → Prop} {R : Result → Session → Prop}
    (herr : instIsReady env s.world s.mem = false → ∀ err, Q (.error err) s)
    (hok : instIsReady env s.world s.mem = true → ∀ inst, Q (.ok inst) s) :
    wp (instReady env) Q R s := by
  apply wp_bind_next getInstance_eq
  unfold instIsReady at herr hok
  cases hread : readInstance env s.world s.mem with
  | none => exact herr (by rw [hread]; rfl) _
  | some inst =>
    simp only [hread, Option.any_some] at herr hok
    simp only
    split
    · next hready => exact hok hready inst
    · next hready => exact herr (by simpa using hready) _

end Instance

section Write

variable {env : Env} {s t : Session} {object : Backup → Backup → Backup} {c : Call}

/-- What is left of an object that is written. -/
def remaining (backup : Backup) : Option Backup :=
  if backup.deletionTimestamp.isSome ∧ ¬ backup.hasFinalizer then none else some backup

structure Written (object : Backup → Backup → Backup) (s t : Session) : Prop where
  world : t.world = s.world
  mem : t.mem = s.mem ∨ ∃ b ∈ s.stored, t.mem = object b s.mem
  stored : t.stored = s.stored ∨ ∃ b ∈ s.stored, t.stored = remaining (object b s.mem)

theorem store_stored {backup : Backup} :
    (s.store backup).stored = s.stored ∨ (s.store backup).stored = remaining backup := by
  unfold Session.store
  split
  · exact .inl rfl
  · exact .inr rfl

theorem store_mem {backup : Backup} : (s.store backup).mem = s.mem := by
  unfold Session.store
  split <;> rfl

theorem written_write : wp (write env object c) (fun _ => Written object s) (fun _ _ => False) s := by
  have hsame : Written object s s := ⟨rfl, .inl rfl, .inl rfl⟩
  unfold wp write
  cases hstored : s.stored with
  | none => exact hsame
  | some b =>
    have hwritten : (s.store (object b s.mem)).stored = s.stored ∨
        ∃ a ∈ s.stored, (s.store (object b s.mem)).stored = remaining (object a s.mem) :=
      store_stored.imp_right fun h => ⟨b, hstored, h⟩
    by_cases hversion : s.memVersion = s.resourceVersion
    · cases hc : env.call c with
      | ok =>
        simp only [hversion, ne_eq, not_true_eq_false, if_false]
        exact ⟨store_world, .inr ⟨b, hstored, rfl⟩, hwritten⟩
      | lost =>
        simp only [hversion, ne_eq, not_true_eq_false, if_false]
        exact ⟨store_world, .inl store_mem, hwritten⟩
      | notFound | conflict | failed =>
        simp only [hversion, ne_eq, not_true_eq_false, if_false]
        exact hsame
    · simp only [hversion, ne_eq, not_false_eq_true, if_true]
      exact hsame

end Write

section World

variable {env : Env} {rel : Session → Session → Prop} [Std.Refl rel] [IsTrans Session rel]

/-- A backup that is started touches nothing but the snapshots. -/
theorem within_snapshotDisks {backupID instName : String} {disks : List DiskSpec}
    (h : ∀ s snapshots, rel s { s with world := { s.world with snapshots } }) :
    Within rel (snapshotDisks env backupID instName disks) := by
  induction disks with
  | nil => exact Within.pure _
  | cons disk rest ih =>
    apply Within.bind
    · apply Within.when
      intro _
      apply Within.modify
      intro s
      split
      · exact Std.Refl.refl s
      · exact h s _
    · intro _
      exact Within.ite (fun _ => ih) fun _ => Within.pure _

theorem within_create {inst : Instance}
    (h : ∀ s snapshots, rel s { s with world := { s.world with snapshots } }) :
    Within rel (create env inst) := by
  apply Within.bind Within.get
  intro s
  apply Within.ite
  · intro _
    apply Within.bind Within.get
    intro s
    split
    · exact Within.pure _
    · exact Within.ite (fun _ => Within.pure _) fun _ => within_snapshotDisks h
  · exact fun _ => Within.pure _

/-- Nothing but the instance and its objects changes. -/
def OnlyWorld (s t : Session) : Prop := t = { s with world := t.world }

instance : Std.Refl OnlyWorld := ⟨fun _ => rfl⟩

instance : IsTrans Session OnlyWorld where
  trans := by
    intro s t u ht hu
    unfold OnlyWorld at *
    rw [hu, ht]

theorem onlyWorld_create {inst : Instance} : Within OnlyWorld (create env inst) :=
  within_create fun _ _ => rfl

end World

section Creation

variable {env : Env} {w : World} {b c : Backup} {s t : Session}

/-- Where a reconcile can take the reason of a Backup that is to be taken. -/
inductive Turn (env : Env) (w : World) (b : Backup) : Option Reason → Prop where
  | same : Turn env w b b.state
  | wait (h : b.state = none) : Turn env w b (some .backupPending)
  | unready (h : b.state = some .backupPending) (hinst : instIsReady env w b = false) :
      Turn env w b (some .backupFailed)
  | start (h : b.state = some .backupPending) (hinst : instIsReady env w b = true) :
      Turn env w b (some .backupInProgress)
  | fail {done : Bool} {err : String} (h : b.state = some .backupInProgress)
      (hpoll : poll env b = some ⟨done, some err⟩) (hfail : Contains err "code = NotFound" ∨ done = true) :
      Turn env w b (some .backupFailed)
  | complete (h : b.state = some .backupInProgress) (hpoll : poll env b = some ⟨true, none⟩) :
      Turn env w b (some .backupReady)

/-- The same object, but for its labels, annotations and status. -/
def SameObject (b c : Backup) : Prop :=
  c = { b with labels := c.labels, annotations := c.annotations, status := c.status }

/-- The object as such a reconcile can leave it. -/
def Turned (env : Env) (w : World) (b : Backup) (stored : Option Backup) : Prop :=
  ∃ c, stored = some c ∧ SameObject b c ∧ Turn env w b c.state

structure Held (env : Env) (w : World) (b : Backup) (s : Session) : Prop where
  stored : Turned env w b s.stored
  mem : SameObject b s.mem

theorem Held.withMem {m : Backup} (h : Held env w b s) (hmem : SameObject b m) :
    Held env w b { s with mem := m } := ⟨h.stored, hmem⟩

theorem Held.onlyWorld (h : Held env w b s) (hworld : OnlyWorld s t) : Held env w b t := by
  rw [hworld]
  exact ⟨h.stored, h.mem⟩

theorem SameObject.status {c : Backup} {st : Status} (h : SameObject b c) :
    SameObject b { c with status := st } := by
  unfold SameObject at h ⊢
  rw [h]

theorem SameObject.remaining {c : Backup} (h : SameObject b c) (hb : b.deletionTimestamp = none) :
    remaining c = some c := by
  have hkept : c.deletionTimestamp = none := by rw [h]; exact hb
  simp [Backups.remaining, hkept]

/-- A Backup that is ready turns to nothing else, except that it is deleted. -/
theorem Turn.ready {r : Option Reason} (h : Turn env w b r) (hb : b.state = some .backupReady) :
    r = some .backupReady := by
  cases h with
  | same => exact hb
  | wait h => simp [hb] at h
  | unready h => simp [hb] at h
  | start h => simp [hb] at h
  | fail h => simp [hb] at h
  | complete => rfl

theorem SameObject.hasFinalizer (h : SameObject b c) : c.hasFinalizer = b.hasFinalizer := by
  rw [h]

/-- A write that keeps the object and leads to a reason it may have. -/
theorem Held.write {object : Backup → Backup → Backup} {c : Call} (hb : b.deletionTimestamp = none)
    (h : Held env w b s) (hobject : ∀ a, SameObject b a → Turn env w b a.state →
      SameObject b (object a s.mem) ∧ Turn env w b (object a s.mem).state) :
    wp (write env object c) (fun _ => Held env w b) (fun _ _ => False) s := by
  apply written_write.mono _ fun _ _ h => h
  intro _ t ht
  obtain ⟨a, ha, hsame, hturn⟩ := h.stored
  obtain ⟨hsame', hturn'⟩ := hobject a hsame hturn
  constructor
  · rcases ht.stored with hkept | ⟨a', ha', hnew⟩
    · rw [hkept]
      exact ⟨a, ha, hsame, hturn⟩
    · obtain rfl : a = a' := Option.some.inj (ha.symm.trans ha')
      rw [hnew, hsame'.remaining hb]
      exact ⟨_, rfl, hsame', hturn'⟩
  · rcases ht.mem with hkept | ⟨a', ha', hnew⟩
    · rw [hkept]
      exact h.mem
    · obtain rfl : a = a' := Option.some.inj (ha.symm.trans ha')
      rw [hnew]
      exact hsame'

theorem Held.updateStatus (hb : b.deletionTimestamp = none) (h : Held env w b s)
    (hturn : Turn env w b s.mem.state) :
    wp (updateStatus env) (fun _ => Held env w b) (fun _ _ => False) s :=
  h.write hb fun _ hsame _ => ⟨hsame.status, hturn⟩

/-- `Update` leaves the reason as it was. -/
theorem Held.update (hb : b.deletionTimestamp = none) (h : Held env w b s) :
    wp (update env) (fun _ => Held env w b) (fun _ _ => False) s :=
  h.write hb fun _ _ hturn => ⟨h.mem.status, hturn⟩

theorem Held.finishWith {p : P Bool} {r : Result} {Q : Unit → Session → Prop}
    (h : wp p (fun _ => Held env w b) (fun _ _ => False) s) :
    wp (do finishWith r (← p)) Q (fun _ => Held env w b) s :=
  wp_bind.mpr (h.mono (fun _ _ h => h) fun _ _ h => h.elim)

theorem Held.updateBackupStatus {inst : Instance} (hb : b.deletionTimestamp = none) (h : Held env w b s)
    (hturn : Turn env w b s.mem.state) :
    wp (updateBackupStatus env inst) (fun _ => Held env w b) (fun _ _ => False) s := by
  simp only [Backups.updateBackupStatus, wp_bind, setMem, wp_modify, wp_get]
  have hphase : Held env w b { s with mem := { s.mem with status :=
      { s.mem.status with phase := Phase.of s.mem.state } } } := h.withMem h.mem.status
  apply (hphase.updateStatus hb hturn).mono _ fun _ _ h => h
  intro ok t ht
  split
  · unfold updateInstanceStatus wp
    simp only
    split
    · exact ⟨ht.stored, ht.mem⟩
    · exact ht
  · exact ht

theorem Held.setReady {status : CondStatus} {reason : Reason} {message : String} {Q : Unit → Session → Prop}
    {R : Result → Session → Prop} (h : Held env w b s)
    (hQ : ∀ t, Held env w b t → t.mem.state = some reason →
      t.mem.status.startTime = s.mem.status.startTime → Q () t) :
    wp (setReady env status (some reason) message) Q R s :=
  hQ _ (h.withMem h.mem.status) upsertReady_reason rfl

theorem Held.leave {status : CondStatus} {reason : Reason} {phase : Phase} {message : String}
    {r : Result} {Q : Unit → Session → Prop} (hb : b.deletionTimestamp = none) (h : Held env w b s)
    (hturn : Turn env w b (some reason)) :
    wp (leave env status reason phase message r) Q (fun _ => Held env w b) s := by
  refine wp_bind.mpr (h.setReady fun t ht hstate _ => ?_)
  rw [wp_bind]
  unfold setStatus setMem
  rw [wp_modify]
  have hphase : Held env w b { t with mem := { t.mem with status := { t.mem.status with phase } } } :=
    ht.withMem ht.mem.status
  apply Held.finishWith
  apply hphase.updateStatus hb
  change Turn env w b t.mem.state
  rwa [hstate]

theorem Held.addBackupMetadata {metadata : Option Metadata} (hb : b.deletionTimestamp = none)
    (h : Held env w b s) :
    wp (addBackupMetadata env metadata) (fun _ => Held env w b) (fun _ _ => False) s := by
  cases metadata with
  | none => exact h
  | some m =>
    simp only [Backups.addBackupMetadata, wp_bind, setMem, wp_modify]
    apply Held.update hb
    apply h.withMem
    have hmem := h.mem
    unfold SameObject at hmem ⊢
    rw [hmem]

theorem held_startBackup (hb : b.deletionTimestamp = none) (hs : s.world = w ∧ s.mem = b)
    (h : Held env w b s) (hstate : b.state = some .backupPending) :
    wp (startBackup env) (fun _ => Held env w b) (fun _ => Held env w b) s := by
  obtain ⟨rfl, rfl⟩ := hs
  unfold startBackup
  rw [wp_bind]
  apply wp_instReady_iff
  · intro hready err
    exact h.leave hb (.unready hstate hready)
  · intro hready inst
    simp only [wp_bind, wp_get, wp_when]
    constructor
    · intro _
      unfold setStatus setMem
      rw [wp_modify]
      apply Held.finishWith
      apply Held.updateBackupStatus hb (h.withMem h.mem.status)
      exact .same
    · intro _
      apply (h.addBackupMetadata hb).mono _ fun _ _ h => h.elim
      intro added t ht
      rw [wp_bind, wp_when]
      refine ⟨fun _ => ht, fun _ => ?_⟩
      rw [wp_bind]
      apply (onlyWorld_create t).mono _ fun _ u hu => ht.onlyWorld hu
      intro created u hu
      rw [wp_bind, wp_when]
      refine ⟨fun _ => ht.onlyWorld hu, fun _ => ?_⟩
      rw [wp_bind]
      apply (ht.onlyWorld hu).setReady
      intro v hv hstate' _
      apply Held.finishWith
      apply hv.updateBackupStatus hb
      rw [hstate']
      exact .start hstate hready

theorem held_completeBackup {inst : Instance} (hb : b.deletionTimestamp = none) (h : Held env w b s)
    (hstate : b.state = some .backupInProgress) (hpoll : poll env b = some ⟨true, none⟩) :
    wp (completeBackup env inst) (fun _ => Held env w b) (fun _ => Held env w b) s := by
  unfold completeBackup
  rw [wp_bind, wp_get]
  split
  · exact h
  · rw [wp_bind]
    apply (h.addBackupMetadata hb).mono _ fun _ _ h => h.elim
    intro added t ht
    rw [wp_bind, wp_when]
    refine ⟨fun _ => ht, fun _ => ?_⟩
    rw [wp_bind]
    apply ht.setReady
    intro u hu hready _
    rw [wp_bind, wp_get]
    split
    · exact hu
    · rw [wp_bind]
      unfold setStatus setMem
      rw [wp_modify]
      apply Held.finishWith
      apply Held.updateBackupStatus hb (hu.withMem hu.mem.status)
      change Turn env w b u.mem.state
      rw [hready]
      exact .complete hstate hpoll

theorem held_awaitBackup (hb : b.deletionTimestamp = none) (hs : s.mem = b)
    (h : Held env w b s) (hstate : b.state = some .backupInProgress) :
    wp (awaitBackup env) (fun _ => Held env w b) (fun _ => Held env w b) s := by
  subst hs
  have hfailed : ∀ {message err : String} {inst : Instance} {done : Bool},
      poll env s.mem = some ⟨done, some err⟩ → Contains err "code = NotFound" ∨ done = true →
      wp (do setReady env .false (some .backupFailed) message
             finishWith .stop (← updateBackupStatus env inst))
        (fun _ => Held env w s.mem) (fun _ => Held env w s.mem) s := by
    intro message err inst done hpoll hfail
    rw [wp_bind]
    apply h.setReady
    intro t ht hready _
    apply Held.finishWith
    apply ht.updateBackupStatus hb
    rw [hready]
    exact .fail hstate hpoll hfail
  unfold awaitBackup
  apply wp_bind_next getInstance_eq
  split
  · exact h
  · rw [wp_bind, wp_get]
    split
    · exact h
    · next done err hpoll =>
      split
      · next hnotFound =>
        obtain ⟨text, rfl, hcontains⟩ := (Option.any_eq_true _ _).mp hnotFound
        exact hfailed hpoll (.inl (by simpa using hcontains))
      · split
        · next hdone =>
          subst hdone
          split
          · exact held_completeBackup hb h hstate hpoll
          · exact hfailed hpoll (.inr rfl)
        · exact h

theorem held_validateBackupSpec (h : Held env w b s) (hs : s.mem = b) :
    wp (validateBackupSpec env)
      (fun valid t => Held env w b t ∧ t.mem.state = b.state ∧ (valid = true → t = s))
      (fun _ _ => False) s := by
  subst hs
  simp only [validateBackupSpec, wp_bind, wp_get]
  split
  · exact ⟨h, rfl, fun _ => rfl⟩
  · exact ⟨h.withMem h.mem.status, upsertReady_reason, fun h => by cases h⟩

/-- A reconcile of a Backup that is to be taken turns the reason, or adds the finalizer. -/
theorem wp_reconcileBackupCreation (hb : b.deletionTimestamp = none)
    (hs : s.world = w ∧ s.mem = b ∧ s.stored = some b) :
    wp (reconcileBackupCreation env) (fun _ t => Turned env w b t.stored)
      (fun _ t => Turned env w b t.stored ∨
        b.state = some .backupReady ∧ t.stored = some { b with hasFinalizer := true }) s := by
  obtain ⟨hworld, hmem, hstored⟩ := hs
  have h : Held env w b s := by
    refine ⟨⟨b, hstored, rfl, .same⟩, ?_⟩
    rw [hmem]
    rfl
  unfold reconcileBackupCreation
  rw [wp_bind]
  apply (held_validateBackupSpec h hmem).mono _ fun _ _ h => h.elim
  rintro valid t ⟨ht, hstate, hvalid⟩
  rw [wp_bind, wp_when]
  constructor
  · intro _
    apply (Held.finishWith (ht.updateStatus hb (hstate ▸ .same))).mono
    · exact fun _ _ h => h
    · exact fun _ _ h => .inl h.stored
  · intro hok
    obtain rfl := hvalid (not_not.mp hok)
    have hheld : ∀ {p : P Unit}, wp p (fun _ => Held env w b) (fun _ => Held env w b) t →
        wp p (fun _ t => Turned env w b t.stored) (fun _ t => Turned env w b t.stored ∨
          b.state = some .backupReady ∧ t.stored = some { b with hasFinalizer := true }) t :=
      fun hp => hp.mono (fun _ _ h => h.stored) fun _ _ h => .inl h.stored
    rw [wp_bind, wp_get]
    split
    · next hnone => exact hheld (h.leave hb (.wait (hstate.symm.trans hnone)))
    · next hpending => exact hheld (held_startBackup hb ⟨hworld, hmem⟩ h (hstate.symm.trans hpending))
    · next hprogress => exact hheld (held_awaitBackup hb hmem h (hstate.symm.trans hprogress))
    · next hready =>
      rw [wp_bind, wp_when]
      constructor
      · intro _
        unfold setMem
        rw [wp_bind, wp_modify, wp_bind]
        apply written_write.mono _ fun _ _ h => h.elim
        intro ok u hu
        rcases hu.stored with hkept | ⟨a, ha, hnew⟩
        · rw [finishWith, wp_finish, hkept]
          exact .inl h.stored
        · obtain rfl : b = a := Option.some.inj (hstored.symm.trans ha)
          refine .inr ⟨hstate.symm.trans hready, ?_⟩
          rw [hnew]
          simp [remaining, hmem, hb]
      · exact fun _ => .inl h.stored
    · exact .inl h.stored

end Creation

section Deletion

variable {env : Env} {w : World} {b : Backup} {s t : Session}

/-- Where a reconcile can take a Backup that is being deleted. -/
inductive Unmade (env : Env) (w : World) (b : Backup) : Option Backup → Prop where
  | same : Unmade env w b (some b)
  | deleting {c : Backup} (hfinalizer : b.hasFinalizer = true) (h : c = { b with status := c.status })
      (hstate : c.state = some .backupDeleting) : Unmade env w b (some c)
  | orphan (hnone : readInstance env w b = none)
      (hcall : env.call .getInstance = .ok ∨ env.call .getInstance = .notFound) : Unmade env w b none
  | cleared (hfinalizer : b.hasFinalizer = true) (hphase : b.status.phase = .deleting)
      (hinst : (readInstance env w b).isSome = true)
      (hdelete : b.spec.type ≠ .snapshot → env.physicalDelete = true) : Unmade env w b none

theorem wp_removeFinalizer (hs : s.mem = b ∧ s.stored = some b) (hb : b.deletionTimestamp.isSome = true)
    (hnone : Unmade env w b none) :
    wp (removeFinalizer env) (fun _ t => Unmade env w b t.stored) (fun _ t => Unmade env w b t.stored)
      s := by
  obtain ⟨rfl, hstored⟩ := hs
  unfold removeFinalizer setMem
  rw [wp_bind, wp_modify, wp_bind]
  apply written_write.mono _ fun _ _ h => h.elim
  intro ok t ht
  rw [finishWith, wp_finish]
  rcases ht.stored with hkept | ⟨a, ha, hnew⟩
  · rw [hkept]
    simp only [hstored]
    exact .same
  · rw [hnew]
    simpa [remaining, hb] using hnone

theorem wp_reconcileBackupDeletion (hs : s.world = w ∧ s.mem = b ∧ s.stored = some b)
    (hb : b.deletionTimestamp.isSome = true) :
    wp (reconcileBackupDeletion env) (fun _ t => Unmade env w b t.stored)
      (fun _ t => Unmade env w b t.stored) s := by
  obtain ⟨rfl, rfl, hstored⟩ := hs
  have hsame : Unmade env s.world s.mem s.stored := by
    rw [hstored]
    exact .same
  unfold reconcileBackupDeletion
  rw [wp_bind, wp_get, wp_bind, wp_when]
  refine ⟨fun _ => hsame, fun hfinalizer => ?_⟩
  rw [not_not] at hfinalizer
  rw [wp_bind, wp_when]
  constructor
  · intro _
    unfold leave setReady setStatus setMem
    rw [wp_bind, wp_modify, wp_bind, wp_modify, wp_bind]
    apply written_write.mono _ fun _ _ h => h.elim
    intro ok t ht
    rw [finishWith, wp_finish]
    rcases ht.stored with hkept | ⟨a, ha, hnew⟩
    · rw [hkept]
      exact hsame
    · obtain rfl : s.mem = a := Option.some.inj (hstored.symm.trans ha)
      rw [hnew]
      have hremains : ∀ st : Status, remaining { s.mem with status := st } =
          some { s.mem with status := st } := by
        intro st
        simp [remaining, hfinalizer]
      rw [hremains]
      exact .deleting hfinalizer rfl upsertReady_reason
  · intro hphase
    rw [ne_eq, not_not] at hphase
    apply wp_bind_next getInstance_eq
    split
    · next hnone =>
      split
      · next hcall => exact wp_removeFinalizer ⟨rfl, hstored⟩ hb (.orphan hnone hcall)
      · exact hsame
    · next inst hinst =>
      rw [wp_bind, wp_when]
      refine ⟨fun _ => hsame, fun hdelete => ?_⟩
      apply wp_removeFinalizer ⟨rfl, hstored⟩ hb
      apply Unmade.cleared hfinalizer hphase
      · rw [hinst]
        rfl
      · intro htype
        by_contra hnot
        exact hdelete ⟨htype, by simpa using hnot⟩

/-- What is left of a Backup that a reconcile has read. -/
theorem body_reconciled (hs : s.world = w ∧ s.mem = b ∧ s.stored = some b) (hmode : b.mode = .unset) :
    b.deletionTimestamp = none ∧
      (Turned env w b (body env s).state.stored ∨ b.state = some .backupReady ∧
        (body env s).state.stored = some { b with hasFinalizer := true }) ∨
      b.deletionTimestamp.isSome = true ∧ Unmade env w b (body env s).state.stored := by
  have hbody : wp (body env) (fun _ t => b.deletionTimestamp = none ∧
      (Turned env w b t.stored ∨ b.state = some .backupReady ∧
        t.stored = some { b with hasFinalizer := true }) ∨
      b.deletionTimestamp.isSome = true ∧ Unmade env w b t.stored)
      (fun _ t => b.deletionTimestamp = none ∧
        (Turned env w b t.stored ∨ b.state = some .backupReady ∧
          t.stored = some { b with hasFinalizer := true }) ∨
        b.deletionTimestamp.isSome = true ∧ Unmade env w b t.stored) s := by
    unfold body
    rw [wp_bind, wp_get, hs.2.1, if_neg (by simp [hmode])]
    split
    · next hdeletion =>
      apply (wp_reconcileBackupDeletion hs hdeletion).mono
      · exact fun _ _ h => .inr ⟨hdeletion, h⟩
      · exact fun _ _ h => .inr ⟨hdeletion, h⟩
    · next hdeletion =>
      have hkept : b.deletionTimestamp = none := by simpa using hdeletion
      apply (wp_reconcileBackupCreation hkept hs).mono
      · exact fun _ _ h => .inl ⟨hkept, .inl h⟩
      · exact fun _ _ h => .inl ⟨hkept, h⟩
  exact hbody.state

end Deletion

section Marks

/-- What a backup is named and dated by. -/
structure Marks where
  backupID : String
  backupTime : String
  startTime : Option Time
  deriving DecidableEq

def Status.marks (st : Status) : Marks := ⟨st.backupID, st.backupTime, st.startTime⟩

/-- None of the three is missing. -/
def Marks.Complete (m : Marks) : Prop := ¬ (m.backupID = "" ∨ m.backupTime = "" ∨ m.startTime = none)

instance (m : Marks) : Decidable m.Complete := inferInstanceAs (Decidable (¬ _))

end Marks

section Frame

variable {env : Env} {rel : Session → Session → Prop}

/-- A relation that everything a reconcile does stays within; the ID and the times are only set
where one of them is missing. -/
structure Guarded (env : Env) (rel : Session → Session → Prop) : Prop where
  mem : ∀ s (f : Backup → Backup), (∀ b, (f b).status.marks = b.status.marks) →
    rel s { s with mem := f s.mem }
  commit : ∀ s mem, ¬ s.mem.status.marks.Complete → rel s { s with mem }
  snapshots : ∀ s snapshots, rel s { s with world := { s.world with snapshots } }
  backupID : ∀ s backupID, rel s { s with world := s.world.edit { s.world.stored with
    status := { s.world.stored.status with backupID } } }
  updateStatus : Within rel (updateStatus env)
  update : Within rel (update env)

namespace Guarded

theorem setMem (h : Guarded env rel) {f : Backup → Backup}
    (hf : ∀ b : Backup, (f b).status.marks = b.status.marks) : Within rel (setMem f) :=
  Within.modify fun _ => h.mem _ _ hf

theorem setStatus (h : Guarded env rel) {f : Status → Status} (hf : ∀ st : Status, (f st).marks = st.marks) :
    Within rel (setStatus f) := h.setMem fun b => hf b.status

theorem setReady (h : Guarded env rel) {status : CondStatus} {reason : Option Reason} {message : String} :
    Within rel (setReady env status reason message) := h.setStatus fun _ => rfl

variable [Std.Refl rel]

theorem getInstance : Within rel (getInstance env) := by
  intro s
  unfold wp
  rw [getInstance_eq]
  exact Std.Refl.refl s

variable [IsTrans Session rel]

theorem instReady : Within rel (instReady env) := by
  apply Within.bind getInstance
  intro inst
  cases inst with
  | none => exact Within.pure _
  | some inst => exact Within.ite (fun _ => Within.pure _) fun _ => Within.pure _

theorem finishWith {r : Result} {p : P Bool} (hp : Within rel p) :
    Within rel (do finishWith r (← p)) := Within.bind hp fun _ => Within.finish _

theorem leave (h : Guarded env rel) {status : CondStatus} {reason : Reason} {phase : Phase}
    {message : String} {r : Result} :
    Within rel (leave env status reason phase message r) := by
  apply Within.bind h.setReady
  intro _
  apply Within.bind
  · exact h.setStatus fun _ => rfl
  · exact fun _ => finishWith h.updateStatus

theorem updateBackupStatus (h : Guarded env rel) {inst : Instance} :
    Within rel (updateBackupStatus env inst) := by
  apply Within.bind
  · exact h.setMem fun _ => rfl
  intro _
  apply Within.bind Within.get
  intro s
  apply Within.bind h.updateStatus
  intro ok
  apply Within.ite
  · intro _ t
    unfold updateInstanceStatus wp
    simp only
    split
    · exact h.backupID _ _
    · exact Std.Refl.refl _
  · exact fun _ => Within.pure _

theorem addBackupMetadata (h : Guarded env rel) {metadata : Option Metadata} :
    Within rel (addBackupMetadata env metadata) := by
  cases metadata with
  | none => exact Within.pure _
  | some m => exact Within.bind (h.setMem fun _ => rfl) fun _ => h.update

/-- The marks are set in the state in which one of them was found missing. -/
theorem commitMarks (h : Guarded env rel) {inst : Instance} {s : Session}
    (hmarks : ¬ s.mem.status.marks.Complete) {Q : Unit → Session → Prop} :
    wp (do
      Backups.setStatus fun st =>
        { st with
          backupID := generateID env s.mem
          backupTime := env.timeText
          startTime := some env.now }
      Backups.finishWith (.requeueAfter requeueInterval) (← Backups.updateBackupStatus env inst))
      Q (fun _ => rel s) s := by
  have hset := h.commit s { s.mem with status :=
    { s.mem.status with
      backupID := generateID env s.mem
      backupTime := env.timeText
      startTime := some env.now } } hmarks
  unfold Backups.setStatus Backups.setMem
  rw [wp_bind, wp_modify, wp_bind]
  apply (h.updateBackupStatus _).mono
  · exact fun _ t ht => IsTrans.trans _ _ _ hset ht
  · exact fun _ t ht => IsTrans.trans _ _ _ hset ht

theorem startBackup (h : Guarded env rel) : Within rel (startBackup env) := by
  apply Within.bind instReady
  intro ready
  cases ready with
  | error err => exact h.leave
  | ok inst =>
    intro s
    dsimp only
    rw [wp_bind, wp_get, wp_bind, wp_when]
    constructor
    · exact fun hmissing => h.commitMarks (not_not.mpr hmissing)
    · intro _
      refine (?_ : Within rel _) s
      apply Within.bind h.addBackupMetadata
      intro _
      apply Within.bind (Within.when fun _ => Within.finish _)
      intro _
      apply Within.bind (within_create h.snapshots)
      intro _
      apply Within.bind (Within.when fun _ => Within.finish _)
      intro _
      exact Within.bind h.setReady fun _ => finishWith h.updateBackupStatus

theorem completeBackup (h : Guarded env rel) {inst : Instance} :
    Within rel (completeBackup env inst) := by
  apply Within.bind Within.get
  intro s
  split
  · exact Within.finish _
  · apply Within.bind h.addBackupMetadata
    intro _
    apply Within.bind (Within.when fun _ => Within.finish _)
    intro _
    apply Within.bind h.setReady
    intro _
    apply Within.bind Within.get
    intro t
    split
    · exact Within.finish _
    · exact Within.bind (h.setStatus fun _ => rfl) fun _ => finishWith h.updateBackupStatus

theorem awaitBackup (h : Guarded env rel) : Within rel (awaitBackup env) := by
  have hfailed : ∀ {message : String} {inst : Instance}, Within rel (do
      Backups.setReady env .false (some .backupFailed) message
      Backups.finishWith .stop (← Backups.updateBackupStatus env inst)) :=
    Within.bind h.setReady fun _ => finishWith h.updateBackupStatus
  apply Within.bind getInstance
  intro inst
  cases inst with
  | none => exact Within.finish _
  | some inst =>
    apply Within.bind Within.get
    intro s
    split
    · exact Within.finish _
    · apply Within.ite
      · exact fun _ => hfailed
      · intro _
        apply Within.ite
        · intro _
          split
          · exact h.completeBackup
          · exact hfailed
        · exact fun _ => Within.finish _

theorem removeFinalizer (h : Guarded env rel) : Within rel (removeFinalizer env) :=
  Within.bind (h.setMem fun _ => rfl) fun _ => finishWith h.update

theorem reconcileBackupDeletion (h : Guarded env rel) : Within rel (reconcileBackupDeletion env) := by
  apply Within.bind Within.get
  intro s
  apply Within.bind (Within.when fun _ => Within.finish _)
  intro _
  apply Within.bind (Within.when fun _ => h.leave)
  intro _
  apply Within.bind getInstance
  intro inst
  cases inst with
  | none => exact Within.ite (fun _ => h.removeFinalizer) fun _ => Within.finish _
  | some _ => exact Within.bind (Within.when fun _ => Within.finish _) fun _ => h.removeFinalizer

theorem reconcileVerifyExists (h : Guarded env rel) : Within rel (reconcileVerifyExists env) := by
  apply Within.bind Within.get
  intro s
  split
  · exact h.leave
  · apply Within.bind instReady
    intro ready
    split
    · exact Within.finish _
    · split
      · exact Within.finish _
      · exact h.leave
      · exact h.leave

theorem reconcileBackupCreation (h : Guarded env rel) : Within rel (reconcileBackupCreation env) := by
  apply Within.bind
  · apply Within.bind Within.get
    intro s
    exact Within.ite (fun _ => Within.pure _) fun _ => Within.bind h.setReady fun _ => Within.pure _
  · intro valid
    apply Within.bind (Within.when fun _ => finishWith h.updateStatus)
    intro _
    apply Within.bind Within.get
    intro s
    split
    · exact h.leave
    · exact h.startBackup
    · exact h.awaitBackup
    · apply Within.bind _ fun _ => Within.finish _
      apply Within.when
      intro _
      exact Within.bind (h.setMem fun _ => rfl) fun _ => finishWith h.update
    · exact Within.finish _

theorem body (h : Guarded env rel) : Within rel (body env) := by
  apply Within.bind Within.get
  intro s
  apply Within.ite
  · exact fun _ => h.reconcileVerifyExists
  · intro _
    exact Within.ite (fun _ => h.reconcileBackupDeletion) fun _ => h.reconcileBackupCreation

end Guarded

/-- A relation that no change of the copy leaves. -/
structure Framed (env : Env) (rel : Session → Session → Prop) : Prop where
  mem : ∀ s mem, rel s { s with mem }
  snapshots : ∀ s snapshots, rel s { s with world := { s.world with snapshots } }
  backupID : ∀ s backupID, rel s { s with world := s.world.edit { s.world.stored with
    status := { s.world.stored.status with backupID } } }
  write : ∀ object c, Within rel (write env object c)

theorem Framed.guarded (h : Framed env rel) : Guarded env rel where
  mem s _ _ := h.mem s _
  commit s mem _ := h.mem s mem
  snapshots := h.snapshots
  backupID := h.backupID
  updateStatus := h.write _ _
  update := h.write _ _

theorem Framed.body [Std.Refl rel] [IsTrans Session rel] (h : Framed env rel) :
    Within rel (body env) := h.guarded.body

end Frame

section Stale

variable {env : Env} {s : Session}

/-- A copy that was overtaken stays so, and nothing is stored. -/
def Overtaken (s t : Session) : Prop :=
  s.memVersion ≠ s.resourceVersion →
    t.stored = s.stored ∧ t.memVersion = s.memVersion ∧ t.resourceVersion = s.resourceVersion

instance : Std.Refl Overtaken := ⟨fun _ _ => ⟨rfl, rfl, rfl⟩⟩

instance : IsTrans Session Overtaken where
  trans := by
    intro s t u ht hu hne
    obtain ⟨hstored, hmem, hversion⟩ := ht hne
    rw [← hmem, ← hversion] at hne
    obtain ⟨hstored', hmem', hversion'⟩ := hu hne
    exact ⟨hstored'.trans hstored, hmem'.trans hmem, hversion'.trans hversion⟩

theorem framed_overtaken : Framed env Overtaken where
  mem _ _ _ := ⟨rfl, rfl, rfl⟩
  snapshots _ _ _ := ⟨rfl, rfl, rfl⟩
  backupID _ _ _ := ⟨rfl, rfl, rfl⟩
  write object c s := by
    unfold wp write
    by_cases hne : s.memVersion = s.resourceVersion
    · split
      · exact fun h => absurd hne h
      · exact fun h => absurd hne h
    · cases s.stored with
      | none => exact fun _ => ⟨rfl, rfl, rfl⟩
      | some b =>
        simp only [hne, ne_eq, not_false_eq_true, if_true]
        exact fun _ => ⟨rfl, rfl, rfl⟩

/-- A reconcile whose copy is out of date stores nothing. -/
theorem stored_of_overtaken (h : s.memVersion ≠ s.resourceVersion) :
    (body env s).state.stored = s.stored :=
  ((framed_overtaken.body s).state h).1

end Stale

end ElCarro.Backups
