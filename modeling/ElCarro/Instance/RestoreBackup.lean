import ElCarro.Instance.RestoreLaunch
import ElCarro.Instance.Selection

/-! # The Backup of a restore that was launched

Every reconcile of a restore looks for its Backup anew. A request by reference finds
the same one each time, but the ID of a request or its point in time may come to
mean another Backup while the restore is under way.
-/

namespace ElCarro.Instance

open GoTime K8s Api

section Request

def Backup.key (b : Backup) : ObjectKey := ⟨b.ns, b.name⟩

/-- The last element of a kind, with its position. -/
theorem getLast?_filter {backups : List Backup} {b : Backup} {p : Backup → Bool} (h : (backups.filter p).getLast? = some b) :
    p b = true ∧ ∃ i : Nat, backups[i]? = some b ∧
      ∀ (j : Nat) x, backups[j]? = some x → p x = true → j ≤ i := by
  induction backups using List.reverseRecOn with
  | nil => cases h
  | append_singleton rest a ih =>
    rw [List.filter_append] at h
    by_cases ha : p a = true
    · rw [List.filter_cons_of_pos ha, List.getLast?_append_of_ne_nil _ (List.cons_ne_nil _ _)] at h
      obtain rfl := Option.some.inj h
      refine ⟨ha, rest.length, List.getElem?_concat_length, ?_⟩
      intro j x hj _
      have hlt := (List.getElem?_eq_some_iff.mp hj).1
      rw [List.length_append, List.length_singleton] at hlt
      omega
    · rw [List.filter_cons_of_neg ha, List.filter_nil, List.append_nil] at h
      obtain ⟨hb, i, hi, hlast⟩ := ih h
      have hlt := (List.getElem?_eq_some_iff.mp hi).1
      refine ⟨hb, i, by rw [List.getElem?_append_left hlt, hi], ?_⟩
      intro j x hj hx
      by_cases hjlt : j < rest.length
      · rw [List.getElem?_append_left hjlt] at hj
        exact hlast j x hj hx
      · have hle := (List.getElem?_eq_some_iff.mp hj).1
        rw [List.length_append, List.length_singleton] at hle
        obtain rfl : j = rest.length := by omega
        rw [List.getElem?_concat_length] at hj
        obtain rfl := Option.some.inj hj
        exact absurd hx ha

variable {cat : Catalog} {inst inst' : Instance} {restore : RestoreSpec} {b : Backup} {k : ObjectKey}

/-- A Backup is the last one listed with the ID of a request. -/
def LastListed (backups : List Backup) (backupID : String) (k : ObjectKey) : Prop :=
  ∀ x ∈ backups.zipIdx, x.1.status.backupID = backupID →
    Backup.key x.1 = k ∨ ∃ y ∈ backups.zipIdx, y.1.status.backupID = backupID ∧
      Backup.key y.1 = k ∧ x.2 < y.2

/-- The Backups are such that a request of the instance can mean no other one. -/
structure Settled (cat : Catalog) (inst : Instance) (restore : RestoreSpec) (k : ObjectKey) :
    Prop where
  byRef : ∀ ref ∈ restore.backupRef, ref = k
  byID : restore.backupRef = none → restore.backupID ≠ "" →
    LastListed (cat.backups.filter (·.ns = inst.ns)) restore.backupID k
  byTime : restore.backupRef = none → restore.backupID = "" →
    ∀ pitrRestore ∈ restore.pitrRestore, ∀ p ∈ (findRestorePITR cat inst pitrRestore).toOption,
      PrevailsIn cat pitrRestore p (targetIncarnation inst pitrRestore p) (Backup.key · = k)

theorem lastListed_iff {ns backupID : String} (h : lastWithID cat ns backupID = some b) :
    LastListed (cat.backups.filter (·.ns = ns)) backupID k ↔ Backup.key b = k := by
  obtain ⟨hid, i, hi, hlast⟩ := getLast?_filter h
  have hid : b.status.backupID = backupID := of_decide_eq_true hid
  have hb : (b, i) ∈ (cat.backups.filter (·.ns = ns)).zipIdx :=
    List.mem_zipIdx_iff_getElem?.mpr hi
  constructor
  · intro hl
    rcases hl (b, i) hb hid with hk | ⟨y, hy, hyid, -, hlt⟩
    · exact hk
    · exfalso
      have hle := hlast y.2 y.1 (List.mem_zipIdx_iff_getElem?.mp hy) (decide_eq_true hyid)
      exact absurd hlt (Nat.not_lt.mpr hle)
  · rintro rfl x hx hxid
    have hx := List.mem_zipIdx_iff_getElem?.mp hx
    rcases (hlast x.2 x.1 hx (decide_eq_true hxid)).lt_or_eq with hlt | heq
    · exact .inr ⟨(b, i), hb, hid, rfl, hlt⟩
    · rw [heq, hi] at hx
      rw [Option.some.inj hx]
      exact .inl rfl

/-- What is found settles what the request means. -/
theorem settled_iff (h : findBackupForRestore cat inst restore = .ok b) :
    Settled cat inst restore k ↔ Backup.key b = k := by
  cases (findBackupForRestore_ok h).1 with
  | @ref ref href hid hns hname =>
    have hkey : Backup.key b = ref := by
      unfold Backup.key
      rw [hns, hname]
    rw [hkey]
    constructor
    · exact fun hs => hs.byRef ref href
    · intro hk
      refine ⟨?_, ?_, ?_⟩
      · rw [href]
        rintro _ ⟨⟩
        exact hk
      · rw [href]
        intro hnone
        cases hnone
      · rw [href]
        intro hnone
        cases hnone
  | id href hid hlast =>
    rw [← lastListed_iff hlast]
    constructor
    · exact fun hs => hs.byID href hid
    · intro hk
      refine ⟨?_, fun _ _ => hk, fun _ hno => absurd hno hid⟩
      rw [href]
      rintro _ ⟨⟩
  | @time pitrRestore href hid hpitr hfound =>
    rw [← prevailsIn_iff (S := (Backup.key · = k)) hfound]
    constructor
    · exact fun hs => hs.byTime href hid pitrRestore hpitr
    · intro hk
      refine ⟨?_, fun _ hno => absurd hid hno, ?_⟩
      · rw [href]
        rintro _ ⟨⟩
      · rw [hpitr]
        rintro _ _ _ ⟨⟩
        exact hk

/-- It goes by the name of the instance and by its incarnation. -/
theorem Settled.congr (h : Settled cat inst restore k) (hns : inst'.ns = inst.ns)
    (hname : inst'.name = inst.name)
    (hinc : inst'.status.currentDatabaseIncarnation = inst.status.currentDatabaseIncarnation) :
    Settled cat inst' restore k := by
  have hpitr : ∀ r, findRestorePITR cat inst' r = findRestorePITR cat inst r := by
    intro r
    unfold findRestorePITR
    rw [hns, hname]
  have htarget : ∀ r p, targetIncarnation inst' r p = targetIncarnation inst r p := by
    intro r p
    unfold targetIncarnation
    rw [hinc]
  refine ⟨h.byRef, ?_, ?_⟩
  · rw [hns]
    exact h.byID
  · simp only [hpitr, htarget]
    exact h.byTime

end Request

end ElCarro.Instance

namespace ElCarro.Instance.Reconciler

open GoTime K8s Api Flow

section System

/-- Reasons from the launch of a restore to the decision about its image. -/
def launchedReason : Reason → Bool
  | .restoreInProgress | .postRestoreBootstrapInProgress | .postRestoreBootstrapComplete => true
  | _ => false

structure Restoring where
  world : World
  /-- The Backups and PITR objects of the cluster. -/
  catalog : Catalog
  /-- The Backup that the restore under way was launched with. -/
  launched : Option ObjectKey

inductive RestoringEvent where
  | reconcile (env : Env) (sp : StsParams)
  /-- Backups are added, changed or removed. -/
  | backups (catalog : Catalog)
  /-- The user and the rest of the operator. -/
  | elsewhere (w : World)

/-- A launch is remembered until the attempt is over. -/
def remembered (w : World) (launched : Option ObjectKey) : Option ObjectKey :=
  if w.reason.any launchedReason then launched else none

def Restoring.launchedBy (a : Restoring) (env : Env) (w : World) : Option ObjectKey :=
  match decision env a.world.stored with
  | .serve _ backup .restorePreparationComplete =>
    if w.launches ≠ a.world.launches then some (Backup.key backup) else none
  | _ => a.launched

def Restoring.env (a : Restoring) (env : Env) : Env := { env with catalog := a.catalog }

def Restoring.step (a : Restoring) : RestoringEvent → Option Restoring
  | .reconcile env sp =>
    let w := restoreReconcile (a.env env) sp a.world
    some ⟨w, a.catalog, remembered w (a.launchedBy (a.env env) w)⟩
  | .backups catalog => some { a with catalog }
  | .elsewhere w => some ⟨w, a.catalog, remembered w a.launched⟩

end System

section Property

/-- The Backup whose image annotation decides about the patching, if the reconcile gets there. -/
def Restoring.deciding (a : Restoring) (env : Env) : Option ObjectKey :=
  match decision (a.env env) a.world.stored with
  | .serve _ backup .postRestoreBootstrapComplete => some (Backup.key backup)
  | _ => none

/-- The Backup that decides is the one of the launch. -/
def DecidesByLaunched (a : Restoring) (e : RestoringEvent) (_ : Restoring) : Prop :=
  ∀ env sp, e = .reconcile env sp → ∀ k ∈ a.deciding env, ∀ launched ∈ a.launched, k = launched

/-- A change of the Backups or of the instance leaves the request with the Backup of the launch. -/
def StaysSettled (a : Restoring) : RestoringEvent → Prop
  | .reconcile _ _ => True
  | .backups catalog => ∀ k ∈ a.launched, ∀ restore ∈ a.world.stored.spec.restore,
      Settled catalog a.world.stored restore k
  | .elsewhere w => ∀ k ∈ remembered w a.launched, ∀ restore ∈ w.stored.spec.restore,
      Settled a.catalog w.stored restore k

end Property

section Decidable

instance (backups : List Backup) (backupID : String) (k : ObjectKey) :
    Decidable (LastListed backups backupID k) :=
  inferInstanceAs (Decidable (∀ _ ∈ _, _))

instance (cat : Catalog) (inst : Instance) (restore : RestoreSpec) (k : ObjectKey) :
    Decidable (Settled cat inst restore k) :=
  decidable_of_iff
    ((∀ ref ∈ restore.backupRef, ref = k) ∧
      (restore.backupRef = none → restore.backupID ≠ "" →
        LastListed (cat.backups.filter (·.ns = inst.ns)) restore.backupID k) ∧
      (restore.backupRef = none → restore.backupID = "" →
        ∀ pitrRestore ∈ restore.pitrRestore, ∀ p ∈ (findRestorePITR cat inst pitrRestore).toOption,
          PrevailsIn cat pitrRestore p (targetIncarnation inst pitrRestore p) (Backup.key · = k)))
    ⟨fun ⟨h, h', h''⟩ => ⟨h, h', h''⟩, fun h => ⟨h.byRef, h.byID, h.byTime⟩⟩

instance (a : Restoring) : (e : RestoringEvent) → Decidable (StaysSettled a e)
  | .reconcile _ _ => isTrue trivial
  | .backups _ => inferInstanceAs (Decidable (∀ _ ∈ _, ∀ _ ∈ _, _))
  | .elsewhere _ => inferInstanceAs (Decidable (∀ _ ∈ _, ∀ _ ∈ _, _))

end Decidable

section Frame

/-- What a search reads of an instance is left alone, unless the request is removed. -/
structure Kin (inst inst' : Instance) : Prop where
  ns : inst'.ns = inst.ns
  name : inst'.name = inst.name
  incarnation :
    inst'.status.currentDatabaseIncarnation = inst.status.currentDatabaseIncarnation
  restore : inst'.spec.restore = inst.spec.restore ∨ inst'.spec.restore = none

structure Stems (inst : Instance) (s : Session) : Prop where
  stored : Kin inst s.stored
  mem : Kin inst s.mem

/-- A step that leaves what stems from an instance as it is. -/
def Descends (s t : Session) : Prop := ∀ inst, Stems inst s → Stems inst t

instance : Std.Refl Descends := ⟨fun _ _ h => h⟩

instance : IsTrans Session Descends := ⟨fun _ _ _ h h' inst hs => h' inst (h inst hs)⟩

variable {env : Env} {s t : Session} {sp : StsParams} {restore : RestoreSpec} {backup : Backup}

theorem descends_setMem {f : Instance → Instance} (h : ∀ i, Kin i (f i)) :
    Within Descends (setMem f) := by
  intro s inst hs
  refine ⟨hs.stored, ?_⟩
  have hf := h s.mem
  have hm := hs.mem
  refine ⟨hf.ns.trans hm.ns, hf.name.trans hm.name, hf.incarnation.trans hm.incarnation, ?_⟩
  rcases hf.restore with hsame | hnone
  · rw [hsame]
    exact hm.restore
  · exact .inr hnone

theorem descends_setStatus {f : InstanceStatus → InstanceStatus}
    (h : ∀ st, (f st).currentDatabaseIncarnation = st.currentDatabaseIncarnation) :
    Within Descends (setStatus f) :=
  descends_setMem fun _ => ⟨rfl, rfl, h _, .inl rfl⟩

theorem descends_setReady {status : CondStatus} {reason : Reason} {message : String} :
    Within Descends (setReady env status reason message) := by
  unfold setReady upsertCondition
  exact descends_setStatus fun _ => rfl

theorem descends_write {object : Session → Instance} {c : Call}
    (h : ∀ inst s, Stems inst s → Kin inst (object s)) : Within Descends (write env object c) := by
  intro s
  have hstore : ∀ inst, Stems inst s → Kin inst (s.store (object s)).stored := by
    intro inst hs
    rw [store_stored]
    exact h inst s hs
  apply wp_write
  · exact Std.Refl.refl (r := Descends) s
  · intro inst hs
    refine ⟨hstore inst hs, ?_⟩
    rw [store_mem]
    exact hs.mem
  · exact fun inst hs => ⟨hstore inst hs, hstore inst hs⟩

theorem descends_updateStatus {c : Call} : Within Descends (updateStatus env c) :=
  descends_write fun _ _ hs => ⟨hs.stored.ns, hs.stored.name, hs.mem.incarnation, hs.stored.restore⟩

theorem descends_update {c : Call} : Within Descends (update env c) :=
  descends_write fun _ _ hs => ⟨hs.mem.ns, hs.mem.name, hs.stored.incarnation, hs.mem.restore⟩

theorem Untouched.descends (h : Untouched s t) : Descends s t := by
  intro inst hs
  refine ⟨?_, ?_⟩
  · have hstored : t.stored = s.stored := congrArg (·.value) h.server
    rw [hstored]
    exact hs.stored
  · have hmem : t.mem = s.mem := congrArg (·.value) h.copy
    rw [hmem]
    exact hs.mem

theorem descends_confines : Confines env Descends where
  setReady _ _ _ := descends_setReady
  setLock _ := descends_setStatus fun _ => rfl
  setRequest _ := descends_setStatus fun _ => rfl
  removeRequest := descends_setMem fun _ => ⟨rfl, rfl, rfl, .inr rfl⟩
  updateStatus _ := descends_updateStatus
  update _ := descends_update
  deleteOld _ s := (untouched_deleteOldSTSandPVCs s).mono (fun _ _ h => h.descends) fun _ _ h => h.descends

theorem descends_launchRestore : Within Descends (launchRestore env restore sp) := by
  have hnote : ∀ op, Within Descends (noteLaunch op) := fun _ _ _ hs => ⟨hs.stored, hs.mem⟩
  have hcreate : ∀ inst, Within Descends (createFromSnapshot env .restore inst sp) := fun _ s =>
    untouched_createFromSnapshot.mono (fun _ _ h => h.descends) fun _ _ h => h
  refine .bind descends_setReady fun _ => .bind descends_updateStatus fun _ => ?_
  refine .bind (.when fun _ => .finish _) fun _ => ?_
  unfold startRestore
  cases restore.backupType with
  | snapshot =>
    refine .bind .get fun _ => .bind (hcreate _) fun _ => ?_
    exact .bind (.when fun _ => hnote _) fun _ => .finish _
  | physical =>
    refine .bind .get fun _ => .bind (.when fun _ => hnote _) fun _ => ?_
    cases env.physicalRestore with
    | started => exact .finish _
    | finished => exact .bind descends_confines.endRestore fun _ => .finish _
    | alreadyExists => exact .finish _
    | failed => exact .finish _
    | lost => exact .finish _
  | unset => exact .finish _
  | logical => exact .finish _

/-- A reconcile of the machine keeps what a search reads, or removes the request. -/
theorem kin_restoreReconcile {w : World} : Kin w.stored (restoreReconcile env sp w).stored := by
  have hself : Kin w.stored w.stored := ⟨rfl, rfl, rfl, .inl rfl⟩
  unfold restoreReconcile
  split
  · exact hself
  · have hrun : Descends w.session (handleRestore env sp w.session).state :=
      (descends_confines.handleRestore (fun _ => descends_launchRestore) w.session).state
    have hend := (@descends_updateStatus env .deferredStatus
      (handleRestore env sp w.session).state).state
    exact (hend w.stored (hrun w.stored ⟨hself, hself⟩)).stored

end Frame

section Runs

variable {a a' : Restoring} {e : RestoringEvent}

/-- A request in the spec means the Backup of the launch and no other one. -/
def Stable (a : Restoring) : Prop :=
  ∀ k ∈ a.launched, ∀ restore ∈ a.world.stored.spec.restore,
    Settled a.catalog a.world.stored restore k

theorem mem_of_remembered {w : World} {launched : Option ObjectKey} {k : ObjectKey}
    (h : k ∈ remembered w launched) : k ∈ launched := by
  unfold remembered at h
  split at h
  · exact h
  · cases h

/-- A reconcile launches with the Backup that it finds, or goes by the launch before. -/
theorem settled_launchedBy {env : Env} {w : World} {k : ObjectKey} {restore : RestoreSpec}
    (h : Stable a) (hk : k ∈ a.launchedBy (a.env env) w)
    (hrestore : a.world.stored.spec.restore = some restore) :
    Settled a.catalog a.world.stored restore k := by
  unfold Restoring.launchedBy at hk
  split at hk
  · next served backup hd =>
    split at hk
    · obtain rfl := Option.some.inj hk
      obtain ⟨hrequest, -⟩ := decision_serve hd
      obtain rfl := Option.some.inj (hrequest.symm.trans hrestore)
      exact (settled_iff (decision_found hd).2.1).mpr rfl
    · cases hk
  · exact h k hk restore hrestore

theorem stable_step (h : Stable a) (hok : StaysSettled a e) (hstep : a.step e = some a') :
    Stable a' := by
  cases e with
  | reconcile env sp =>
    obtain rfl := Option.some.inj hstep
    intro k hk restore hrestore
    have hkin : Kin a.world.stored (restoreReconcile (a.env env) sp a.world).stored :=
      kin_restoreReconcile
    have hrestore' : a.world.stored.spec.restore = some restore := by
      rcases hkin.restore with hsame | hnone
      · exact hsame.symm.trans hrestore
      · cases hnone.symm.trans hrestore
    have hsettled := settled_launchedBy h (mem_of_remembered hk) hrestore'
    exact hsettled.congr hkin.ns hkin.name hkin.incarnation
  | backups catalog =>
    obtain rfl := Option.some.inj hstep
    exact hok
  | elsewhere w =>
    obtain rfl := Option.some.inj hstep
    exact hok

/-- What a request of a stable attempt finds is what it was launched with. -/
theorem decidesByLaunched_of_stable (h : Stable a) : DecidesByLaunched a e a' := by
  rintro env sp rfl k hk launched hlaunched
  unfold Restoring.deciding at hk
  split at hk
  · next restore backup hd =>
    obtain rfl := Option.some.inj hk
    obtain ⟨hrequest, -⟩ := decision_serve hd
    exact (settled_iff (decision_found hd).2.1).mp (h launched hlaunched restore hrequest)
  · cases hk

/-- In a run whose changes leave the request with the Backup of the launch, the image annotation of
that Backup decides about the patching. -/
theorem launched_backup_decides (w : World) (catalog : Catalog) (events : List RestoringEvent)
    (hm : Runs.Meets Restoring.step StaysSettled ⟨w, catalog, none⟩ events) :
    Runs.EachStep Restoring.step DecidesByLaunched ⟨w, catalog, none⟩ events := by
  have hs : Stable ⟨w, catalog, none⟩ := by
    rintro k ⟨⟩
  apply Runs.eachStep_of_invariant (I := Stable) _ _ hs hm
  · exact fun _ _ _ h hok hstep => stable_step h hok hstep
  · exact fun _ _ _ h _ _ => decidesByLaunched_of_stable h

end Runs

section Sample

def earlyBackup : Backup := windowBackup "early" "1970-01-01T00:00:10Z" "1" "old"

/-- The instance is asked to go back to a point in time. -/
def pitrWorld : World :=
  let w := createdWorld none
  let restore : RestoreSpec :=
    ⟨.physical, "", none, some ⟨"1", some (30 * second), "", none⟩, true, second⟩
  { w with stored := { w.stored with spec := { w.stored.spec with restore := some restore } } }

/-- The restore is launched, is done and bootstrapped, while one more Backup becomes Ready. -/
def bootstrappedWith (backup : Backup) : List RestoringEvent :=
  List.replicate 5 (.reconcile (calm 1000) restoreParams) ++
    [.backups (windowCatalog [earlyBackup, backup])]

/-- A Backup that comes after the launch and lies nearer to the target decides by its image. -/
theorem nearer_backup_decides :
    ¬ Runs.EachStep Restoring.step DecidesByLaunched ⟨pitrWorld, windowCatalog [earlyBackup], none⟩
      (bootstrappedWith (windowBackup "late" "1970-01-01T00:00:20Z" "1" "new") ++
        [.reconcile (calm 2000) restoreParams]) := by
  intro h
  have hbad : ((Runs.run Restoring.step ⟨pitrWorld, windowCatalog [earlyBackup], none⟩
      (bootstrappedWith (windowBackup "late" "1970-01-01T00:00:20Z" "1" "new"))).any fun a =>
        ¬ ∀ k ∈ a.deciding (calm 2000), ∀ launched ∈ a.launched, k = launched) = true := by
    decide +kernel
  obtain ⟨a, ha, hn⟩ := (Option.any_eq_true _ _).mp hbad
  exact of_decide_eq_true hn (h.last ha rfl (calm 2000) restoreParams rfl)

/-- One that lies after the target does not matter. -/
theorem later_backup_does_not_decide :
    Runs.Meets Restoring.step StaysSettled ⟨pitrWorld, windowCatalog [earlyBackup], none⟩
        (bootstrappedWith (windowBackup "late" "1970-01-01T00:00:40Z" "1" "new") ++
          [.reconcile (calm 2000) restoreParams]) ∧
      Runs.EachStep Restoring.step DecidesByLaunched ⟨pitrWorld, windowCatalog [earlyBackup], none⟩
        (bootstrappedWith (windowBackup "late" "1970-01-01T00:00:40Z" "1" "new") ++
          [.reconcile (calm 2000) restoreParams]) := by
  have hm : Runs.Meets Restoring.step StaysSettled ⟨pitrWorld, windowCatalog [earlyBackup], none⟩
      (bootstrappedWith (windowBackup "late" "1970-01-01T00:00:40Z" "1" "new") ++
        [.reconcile (calm 2000) restoreParams]) := by
    decide +kernel
  exact ⟨hm, launched_backup_decides _ _ _ hm⟩

end Sample

end ElCarro.Instance.Reconciler
