import ElCarro.Backup.Operation
import ElCarro.Backup.Removal

/-! # A Backup is marked before it is taken

The ID and the times of a Backup are committed by a reconcile of their own, and the one
that calls `create` has to write the object first. A copy that is out of date does not get
that far, so that `create` only sees marks that the server has, and has for good.
-/

namespace ElCarro.Backups.WriteAhead

open GoTime K8s Api Flow
open Instance.Reconciler (World Outcome Result)
open Removal (deleteObject)

section Cut

variable (env : Env)

/-- `startBackup` up to the call of `create`: it comes back with the instance where it makes it. -/
def startUpToCreate : P (Option Instance) := do
  match ← instReady env with
  | .error err => do
    leave env .false .backupFailed .failed ("instance not ready: " ++ err) .stop
    pure none
  | .ok inst => do
    let s ← get
    let st := s.mem.status
    when (st.backupID = "" ∨ st.backupTime = "" ∨ st.startTime = none) (do
      setStatus fun st =>
        { st with
          backupID := generateID env s.mem
          backupTime := env.timeText
          startTime := some env.now }
      finishWith (.requeueAfter requeueInterval) (← updateBackupStatus env inst))
    let metadata : Metadata :=
      { timestamp := none
        incarnation := inst.status.currentDatabaseIncarnation
        parentIncarnation := inst.status.lastDatabaseIncarnation
        scn := ""
        databaseImage := valueAt (inst.status.activeImages.getD ∅) "service" }
    let added ← addBackupMetadata env (some metadata)
    when (¬ added) (finish .error)
    pure (some inst)

/-- The rest of `startBackup`. -/
def createAndRecord : Option Instance → P Unit
  | none => pure ()
  | some inst => do
    let created ← create env inst
    when (¬ created) (finish .error)
    setReady env .false (some .backupInProgress) "Starting to create a backup."
    finishWith (.requeueAfter requeueInterval) (← updateBackupStatus env inst)

def creationUpToCreate : P (Option Instance) := do
  let valid ← validateBackupSpec env
  when (¬ valid) (do finishWith .stop (← updateStatus env))
  let s ← get
  match s.mem.state with
  | none => do
    leave env .false .backupPending .pending "Waiting for the instance to be ready."
      (.requeueAfter requeueInterval)
    pure none
  | some .backupPending => startUpToCreate env
  | some .backupInProgress => do
    awaitBackup env
    pure none
  | some .backupReady => do
    when (¬ s.mem.hasFinalizer) (do
      setMem fun backup => { backup with hasFinalizer := true }
      finishWith .stop (← update env))
    finish .stop
  | _ => finish .stop

/-- A reconcile up to the call of `create`, which is the only one that it can make. -/
def upToCreate : P (Option Instance) := do
  let s ← get
  if s.mem.mode = .verifyExists then do
    reconcileVerifyExists env
    pure none
  else if s.mem.deletionTimestamp.isSome then do
    reconcileBackupDeletion env
    pure none
  else creationUpToCreate env

/-- What comes to an end without the call is not taken up again. -/
theorem resume_none (p : P Unit) : (do p; pure none) >>= createAndRecord env = p := by
  rw [bind_assoc]
  exact bind_pure p

theorem startBackup_eq : startBackup env = startUpToCreate env >>= createAndRecord env := by
  simp only [startBackup, startUpToCreate, bind_assoc]
  congr 1
  funext ready
  cases ready with
  | error err => exact (resume_none env _).symm
  | ok inst => simp only [bind_assoc, pure_bind, createAndRecord]

theorem reconcileBackupCreation_eq :
    reconcileBackupCreation env = creationUpToCreate env >>= createAndRecord env := by
  simp only [reconcileBackupCreation, creationUpToCreate, bind_assoc]
  congr 1
  funext valid
  congr 1
  funext _
  congr 1
  funext s
  cases s.mem.state with
  | none => exact (resume_none env _).symm
  | some reason =>
    cases reason
    case backupPending => exact startBackup_eq env
    case backupInProgress => exact (resume_none env _).symm
    case backupReady =>
      simp only [bind_assoc]
      rfl
    all_goals rfl

theorem body_eq : body env = upToCreate env >>= createAndRecord env := by
  funext s
  unfold body upToCreate
  rw [bind_assoc, get_bind_apply, get_bind_apply]
  split
  · rw [resume_none]
  · split
    · rw [resume_none]
    · rw [reconcileBackupCreation_eq]

/-- The state in which a reconcile calls `create`, if it does. -/
def createCall (s : Session) : Option Session :=
  match upToCreate env s with
  | .next (some _) t => some t
  | _ => none

end Cut

section Calls

variable {env : Env} {s : Session} {object : Backup → Backup → Backup} {c : Call}

/-- A write that succeeds found the copy up to date. -/
theorem write_succeeds : wp (write env object c) (fun ok t => ok = true →
    s.memVersion = s.resourceVersion ∧ ∃ b ∈ s.stored, t.mem = object b s.mem ∧
      (t.stored = some (object b s.mem) ∨ t.stored = remaining (object b s.mem)))
    (fun _ _ => False) s := by
  unfold wp write
  cases hstored : s.stored with
  | none => exact fun h => by cases h
  | some b =>
    by_cases hversion : s.memVersion = s.resourceVersion
    · cases hc : env.call c with
      | ok =>
        simp only [hversion, ne_eq, not_true_eq_false, if_false]
        intro _
        refine ⟨trivial, b, rfl, rfl, ?_⟩
        unfold Session.store
        split
        · next hsame => exact .inl hsame
        · exact .inr rfl
      | lost | notFound | conflict | failed =>
        simp only [hversion, ne_eq, not_true_eq_false, if_false]
        exact fun h => by cases h
    · simp only [hversion, ne_eq, not_false_eq_true, if_true]
      exact fun h => by cases h

/-- The copy is out of date, or what the server has. -/
def Cached (s : Session) : Prop := s.memVersion ≠ s.resourceVersion ∨ s.stored = some s.mem

/-- `create` is called with the marks that the server has. -/
def Committed (s t : Session) : Prop :=
  s.stored = some s.mem ∧ s.mem.status.marks.Complete ∧
    t.stored.map (·.status.marks) = some s.mem.status.marks ∧ t.mem.status.marks = s.mem.status.marks

/-- What is said of a program that comes to the call of `create`. -/
def CommitsFirst (p : P (Option Instance)) (s : Session) : Prop :=
  wp p (fun r t => r ≠ none → Committed s t) (fun _ _ => True) s

theorem commitsFirst_none {p : P Unit} : CommitsFirst (do p; pure none) s := by
  unfold CommitsFirst
  rw [wp_bind]
  unfold wp
  cases p s with
  | next _ t => exact fun h => absurd rfl h
  | done _ t => trivial

theorem commitsFirst_startUpToCreate (hcached : Cached s) (hs : s.mem.deletionTimestamp = none) :
    CommitsFirst (startUpToCreate env) s := by
  unfold CommitsFirst startUpToCreate
  rw [wp_bind]
  apply wp_instReady_iff
  · exact fun _ _ => commitsFirst_none
  · intro _ inst
    dsimp only
    rw [wp_bind, wp_get, wp_bind, wp_when]
    constructor
    · intro _
      exact Returns.wp (Returns.bind fun _ => Returns.bind fun _ => Returns.finish _) s
    · intro hcomplete
      rw [wp_bind]
      unfold addBackupMetadata setMem
      rw [wp_bind, wp_modify]
      apply write_succeeds.mono _ fun _ _ h => h.elim
      intro added t hadded
      rw [wp_bind, wp_when]
      refine ⟨fun _ => trivial, fun hok => ?_⟩
      obtain ⟨hversion, b, hb, hmem, hstored⟩ := hadded (not_not.mp hok)
      have hcurrent : s.stored = some s.mem := hcached.resolve_left (not_not.mpr hversion)
      obtain rfl : s.mem = b := Option.some.inj (hcurrent.symm.trans hb)
      intro _
      refine ⟨hcurrent, hcomplete, ?_, ?_⟩
      · rcases hstored with h | h
        · rw [h]
          rfl
        · rw [h]
          simp [remaining, hs]
      · rw [hmem]

theorem wp_validateBackupSpec :
    wp (validateBackupSpec env) (fun ok t => ok = true → t = s) (fun _ _ => False) s := by
  unfold validateBackupSpec
  rw [wp_bind, wp_get]
  split
  · exact fun _ => rfl
  · exact fun h => by cases h

theorem commitsFirst_creationUpToCreate (hcached : Cached s) (hs : s.mem.deletionTimestamp = none) :
    CommitsFirst (creationUpToCreate env) s := by
  unfold CommitsFirst creationUpToCreate
  rw [wp_bind]
  apply wp_validateBackupSpec.mono _ fun _ _ h => h.elim
  intro valid t hvalid
  rw [wp_bind, wp_when]
  constructor
  · exact fun _ => Returns.wp (Returns.bind fun _ => Returns.finish _) t
  · intro hok
    obtain rfl := hvalid (not_not.mp hok)
    rw [wp_bind, wp_get]
    split
    · exact commitsFirst_none
    · exact commitsFirst_startUpToCreate hcached hs
    · exact commitsFirst_none
    · exact Returns.wp (Returns.bind fun _ => Returns.finish _) t
    · trivial

theorem commitsFirst_upToCreate (hcached : Cached s) : CommitsFirst (upToCreate env) s := by
  unfold CommitsFirst upToCreate
  rw [wp_bind, wp_get]
  split
  · exact commitsFirst_none
  · split
    · exact commitsFirst_none
    · next hdeletion => exact commitsFirst_creationUpToCreate hcached (by simpa using hdeletion)

/-- Before `create` is called the server has the marks that it is called with. -/
theorem committed_of_createCall {t : Session} (hcached : Cached s) (h : createCall env s = some t) :
    Committed s t := by
  have hfirst := @commitsFirst_upToCreate env s hcached
  unfold createCall at h
  unfold CommitsFirst wp at hfirst
  cases hup : upToCreate env s with
  | done r u =>
    rw [hup] at h
    cases h
  | next r u =>
    rw [hup] at h hfirst
    cases r with
    | none => cases h
    | some inst =>
      obtain rfl := Option.some.inj h
      exact hfirst (by simp)

end Calls

section System

structure System where
  stored : Option Backup
  resourceVersion : Nat
  /-- The marks that the server had, and those of the copy, at each call of `create`. -/
  calls : List (Option Marks × Marks)

/-- Every reconcile comes with the instance as it sees it, whichever that is; one that is cut off
is one whose calls fail from there on. -/
inductive Event where
  | reconcile (env : Env) (w : World)
  /-- The cache still has an older version. What that says is left open. -/
  | staleReconcile (env : Env) (w : World) (copy : Backup) (version : Nat)
  | delete (now : Time)
  /-- Somebody else edits the object, but for its spec and its status. -/
  | edit (labels annotations : Option StrMap) (hasFinalizer : Bool)

def System.session (s : System) (w : World) (copy : Backup) (version : Nat) : Session :=
  ⟨w, s.stored, s.resourceVersion, copy, version⟩

def System.reconcile (s : System) (env : Env) (w : World) (copy : Backup) (version : Nat) : System :=
  let t := (body env (s.session w copy version)).state
  { stored := t.stored
    resourceVersion := t.resourceVersion
    calls := s.calls ++ ((createCall env (s.session w copy version)).map fun u =>
      (u.stored.map (·.status.marks), u.mem.status.marks)).toList }

/-- Anybody's write makes a new version. -/
def System.rewrite (s : System) (f : Backup → Option Backup) : System :=
  { s with stored := s.stored.bind f, resourceVersion := s.resourceVersion + 1 }

def step (s : System) : Event → Option System
  | .reconcile env w =>
    match s.stored with
    | none => some s
    | some b =>
      if ¬ reached env .getBackup then some s else some (s.reconcile env w b s.resourceVersion)
  | .staleReconcile env w copy version =>
    if version < s.resourceVersion then some (s.reconcile env w copy version) else none
  | .delete now => some (s.rewrite (deleteObject now))
  | .edit labels annotations hasFinalizer =>
    some (s.rewrite fun b => remaining { b with labels, annotations, hasFinalizer })

/-- Every call of `create` was made with marks that were all set and stored, and that the object
has still. -/
def Marked (s : System) : Prop :=
  ∀ call ∈ s.calls, ∃ m : Marks, m.Complete ∧ call = (some m, m) ∧ ∀ b ∈ s.stored, b.status.marks = m

/-- The Backup has come to an end. -/
def Ended (b : Backup) : Prop := b.state = some .backupReady ∨ b.state = some .backupFailed

/-- A Backup that has come to an end stays there, until it is deleted. -/
def LeftForDeletion (s : System) (e : Event) (t : System) : Prop :=
  ∀ b ∈ s.stored, Ended b →
    (∃ c ∈ t.stored, c.state = b.state) ∨
      b.deletionTimestamp.isSome = true ∧ (∀ c ∈ t.stored, c.state = some .backupDeleting) ∨
      t.stored = none ∧ ∃ now, e = .delete now

end System

section Steps

variable {env : Env} {w : World} {s t : System} {b c : Backup} {m : Marks}

/-- The copy and the stored object have these marks. -/
structure Bears (m : Marks) (s : Session) : Prop where
  stored : ∀ b ∈ s.stored, b.status.marks = m
  mem : s.mem.status.marks = m

/-- Marks that are borne before are borne after. -/
def Still (m : Marks) (s t : Session) : Prop := Bears m s → Bears m t

instance : Std.Refl (Still m) := ⟨fun _ h => h⟩

instance : IsTrans Session (Still m) := ⟨fun _ _ _ h h' hs => h' (h hs)⟩

theorem still_write {object : Backup → Backup → Backup} {call : Call}
    (hobject : ∀ a b : Backup, a.status.marks = m → b.status.marks = m →
      (object a b).status.marks = m) : Within (Still m) (write env object call) := by
  intro s
  apply written_write.mono _ fun _ _ h => h.elim
  intro _ t ht hs
  constructor
  · intro c hc
    rcases ht.stored with hkept | ⟨a, ha, hnew⟩
    · exact hs.stored c (hkept ▸ hc)
    · rw [hnew] at hc
      obtain ⟨-, rfl⟩ : _ ∧ object a s.mem = c := by
        simpa [remaining, Option.mem_def] using hc
      exact hobject a s.mem (hs.stored a ha) hs.mem
  · rcases ht.mem with hkept | ⟨a, ha, hnew⟩
    · rw [hkept]
      exact hs.mem
    · rw [hnew]
      exact hobject a s.mem (hs.stored a ha) hs.mem

theorem guarded_still (hm : m.Complete) : Guarded env (Still m) where
  mem _ _ hf h := ⟨h.stored, (hf _).trans h.mem⟩
  commit _ _ hmissing h := absurd (h.mem ▸ hm) hmissing
  snapshots _ _ h := ⟨h.stored, h.mem⟩
  backupID _ _ h := ⟨h.stored, h.mem⟩
  updateStatus := still_write fun _ _ _ h => h
  update := still_write fun _ _ h _ => h

/-- A reconcile never changes marks that are all set. -/
theorem marks_of_body {u : Session} (hcached : Cached u) (hc : (body env u).state.stored = some c) :
    ∃ b ∈ u.stored, b.status.marks.Complete → c.status.marks = b.status.marks := by
  rcases hcached with hstale | hcurrent
  · rw [stored_of_overtaken hstale] at hc
    exact ⟨c, hc, fun _ => rfl⟩
  · refine ⟨u.mem, hcurrent, fun hm => ?_⟩
    have hbears : Bears u.mem.status.marks u := by
      constructor
      · intro a ha
        obtain rfl : u.mem = a := Option.some.inj (hcurrent.symm.trans ha)
        rfl
      · rfl
    exact (((guarded_still hm).body u).state hbears).stored c hc

theorem marked_reconcile {copy : Backup} {version : Nat} (hs : Marked s)
    (hcached : Cached (s.session w copy version)) : Marked (s.reconcile env w copy version) := by
  have hkept : ∀ m : Marks, m.Complete → (∀ b ∈ s.stored, b.status.marks = m) →
      ∀ c ∈ (s.reconcile env w copy version).stored, c.status.marks = m := by
    intro m hm hstored c hc
    obtain ⟨b, hb, hmarks⟩ := marks_of_body hcached hc
    have hb' : b.status.marks = m := hstored b hb
    rw [← hb'] at hm
    exact (hmarks hm).trans hb'
  intro call hcall
  rcases List.mem_append.mp hcall with hold | hnew
  · obtain ⟨m, hm, rfl, hstored⟩ := hs call hold
    exact ⟨m, hm, rfl, hkept m hm hstored⟩
  · rw [Option.mem_toList, Option.map_eq_some_iff] at hnew
    obtain ⟨u, hu, rfl⟩ := hnew
    obtain ⟨hcurrent, hm, hstored, hmem⟩ := committed_of_createCall hcached hu
    refine ⟨_, hm, by rw [hstored, hmem], hkept _ hm ?_⟩
    intro b hb
    obtain rfl : copy = b := Option.some.inj (hcurrent.symm.trans hb)
    rfl

theorem marked_rewrite {f : Backup → Option Backup} (hs : Marked s)
    (hf : ∀ b c, f b = some c → c.status = b.status) : Marked (s.rewrite f) := by
  intro call hcall
  obtain ⟨m, hm, hcall, hstored⟩ := hs call hcall
  refine ⟨m, hm, hcall, ?_⟩
  intro c hc
  obtain ⟨b, hb, hfb⟩ := Option.bind_eq_some_iff.mp hc
  rw [hf b c hfb]
  exact hstored b hb

/-- Nothing turns a Backup that has come to an end. -/
theorem turn_ended {r : Option Reason} (h : Turn env w b r) (hb : Ended b) : r = b.state := by
  unfold Ended at hb
  cases h with
  | same => rfl
  | wait h | unready h | start h | fail h | complete h => simp [h] at hb

/-- The Backup is to be taken, and `create` was called with its marks. -/
structure Sound (s : System) : Prop where
  mode : ∀ b ∈ s.stored, b.mode = .unset
  marked : Marked s

theorem reconcile_current (hb : s.stored = some b) (hmode : b.mode = .unset) :
    (∀ c ∈ (s.reconcile env w b s.resourceVersion).stored, c.mode = .unset) ∧
      LeftForDeletion s (.reconcile env w) (s.reconcile env w b s.resourceVersion) := by
  have hbody := @body_reconciled env w b (s.session w b s.resourceVersion) ⟨rfl, rfl, hb⟩ hmode
  change b.deletionTimestamp = none ∧ (Turned env w b (s.reconcile env w b s.resourceVersion).stored ∨
    b.state = some .backupReady ∧
      (s.reconcile env w b s.resourceVersion).stored = some { b with hasFinalizer := true }) ∨
    b.deletionTimestamp.isSome = true ∧
      Unmade env w b (s.reconcile env w b s.resourceVersion).stored at hbody
  generalize s.reconcile env w b s.resourceVersion = t at hbody ⊢
  have hleft : (∀ c ∈ t.stored, c.mode = .unset) ∧ (Ended b → (∃ c ∈ t.stored, c.state = b.state) ∨
      b.deletionTimestamp.isSome = true ∧ ∀ c ∈ t.stored, c.state = some .backupDeleting) := by
    rcases hbody with ⟨-, ⟨c, hc, hsame, hturn⟩ | ⟨hstate, hc⟩⟩ | ⟨hdeleted, hunmade⟩
    · rw [hc]
      constructor
      · rintro _ ⟨⟩
        rw [hsame]
        exact hmode
      · exact fun hend => .inl ⟨c, rfl, turn_ended hturn hend⟩
    · rw [hc]
      constructor
      · rintro _ ⟨⟩
        exact hmode
      · exact fun _ => .inl ⟨_, rfl, rfl⟩
    · generalize t.stored = left at hunmade ⊢
      cases hunmade with
      | same =>
        constructor
        · rintro _ ⟨⟩
          exact hmode
        · exact fun _ => .inl ⟨b, rfl, rfl⟩
      | deleting hfinalizer hsame hstate =>
        constructor
        · rintro _ ⟨⟩
          rw [hsame]
          exact hmode
        · intro _
          refine .inr ⟨hdeleted, ?_⟩
          rintro _ ⟨⟩
          exact hstate
      | orphan | cleared =>
        constructor
        · exact fun _ h => by cases h
        · exact fun _ => .inr ⟨hdeleted, fun _ h => by cases h⟩
  refine ⟨hleft.1, ?_⟩
  intro b' hb' hend
  obtain rfl : b = b' := Option.some.inj (hb.symm.trans hb')
  exact (hleft.2 hend).imp_right .inl

theorem leftForDeletion_same {e : Event} (h : t.stored = s.stored) : LeftForDeletion s e t := by
  intro b hb _
  exact .inl ⟨b, h ▸ hb, rfl⟩

theorem deleteObject_status {now : Time} (h : deleteObject now b = some c) :
    c.status = b.status ∧ c.mode = b.mode := by
  unfold deleteObject remaining at h
  split at h
  · obtain rfl := Option.some.inj h
    exact ⟨rfl, rfl⟩
  · split at h
    · cases h
    · obtain rfl := Option.some.inj h
      exact ⟨rfl, rfl⟩

theorem edit_status {labels annotations : Option StrMap} {hasFinalizer : Bool}
    (h : remaining { b with labels, annotations, hasFinalizer } = some c) :
    c.status = b.status ∧ c.mode = b.mode := by
  unfold remaining at h
  split at h
  · cases h
  · obtain rfl := Option.some.inj h
    exact ⟨rfl, rfl⟩

/-- A write of somebody else, which leaves the status alone. -/
theorem rewrite_step {f : Backup → Option Backup} {e : Event} (hs : Sound s)
    (hf : ∀ b c, f b = some c → c.status = b.status ∧ c.mode = b.mode)
    (hnone : ∀ b, f b = none → b.deletionTimestamp.isSome = true ∨ ∃ now, e = .delete now) :
    Sound (s.rewrite f) ∧ LeftForDeletion s e (s.rewrite f) := by
  refine ⟨⟨?_, marked_rewrite hs.marked fun b c h => (hf b c h).1⟩, ?_⟩
  · intro c hc
    obtain ⟨b, hb, hfb⟩ := Option.bind_eq_some_iff.mp hc
    exact (hf b c hfb).2.trans (hs.mode b hb)
  · intro b hb _
    have hstored : (s.rewrite f).stored = f b := by
      unfold System.rewrite
      rw [show s.stored = some b from hb]
      rfl
    cases hfb : f b with
    | some c =>
      refine .inl ⟨c, hstored.trans hfb, ?_⟩
      unfold Backup.state
      rw [(hf b c hfb).1]
    | none =>
      have hgone := hstored.trans hfb
      rcases hnone b hfb with hdeleted | hdelete
      · refine .inr (.inl ⟨hdeleted, ?_⟩)
        intro c hc
        rw [hgone] at hc
        cases hc
      · exact .inr (.inr ⟨hgone, hdelete⟩)

theorem writeAhead_step (e : Event) (hs : Sound s) (hstep : step s e = some t) :
    Sound t ∧ LeftForDeletion s e t := by
  cases e with
  | reconcile env w =>
    simp only [step] at hstep
    split at hstep
    · obtain rfl := Option.some.inj hstep
      exact ⟨hs, leftForDeletion_same rfl⟩
    · next b hb =>
      split at hstep
      · obtain rfl := Option.some.inj hstep
        exact ⟨hs, leftForDeletion_same rfl⟩
      · obtain rfl := Option.some.inj hstep
        obtain ⟨hmode, hleft⟩ := @reconcile_current env w s b hb (hs.mode b hb)
        exact ⟨⟨hmode, marked_reconcile hs.marked (.inr hb)⟩, hleft⟩
  | staleReconcile env w copy version =>
    simp only [step] at hstep
    split at hstep
    · next hversion =>
      obtain rfl := Option.some.inj hstep
      have hstale : (s.session w copy version).memVersion ≠
          (s.session w copy version).resourceVersion := hversion.ne
      have hstored : (s.reconcile env w copy version).stored = s.stored :=
        stored_of_overtaken hstale
      refine ⟨⟨?_, marked_reconcile hs.marked (.inl hstale)⟩, leftForDeletion_same hstored⟩
      intro b hb
      rw [hstored] at hb
      exact hs.mode b hb
    · cases hstep
  | delete now =>
    obtain rfl := Option.some.inj hstep
    exact rewrite_step hs (fun _ _ => deleteObject_status) fun _ _ => .inr ⟨now, rfl⟩
  | edit labels annotations hasFinalizer =>
    obtain rfl := Option.some.inj hstep
    apply rewrite_step hs
    · exact fun _ _ => edit_status
    · intro b hnone
      unfold remaining at hnone
      split at hnone
      · next hgone => exact .inl hgone.1
      · cases hnone

/-- In every run `create` is called with an ID and times that the server has, which do not change
afterwards, and a Backup that is ready or has failed stays so until it is deleted. -/
theorem backup_marked_before_create (s : System) (es : List Event)
    (hs : ∀ b ∈ s.stored, b.mode = .unset) (hcalls : s.calls = []) :
    Runs.Always step Marked s es ∧ Runs.EachStep step LeftForDeletion s es := by
  have hsound : Sound s := by
    refine ⟨hs, ?_⟩
    intro call hcall
    rw [hcalls] at hcall
    cases hcall
  have hm : Runs.Meets step (fun _ _ => True) s es := Runs.meets_of_forall (fun _ _ => trivial) s es
  constructor
  · apply Runs.always_of_invariant _ (fun _ h => h.marked) hsound hm
    exact fun _ e _ h _ hstep => (writeAhead_step e h hstep).1
  · apply Runs.eachStep_of_invariant _ _ hsound hm
    · exact fun _ e _ h _ hstep => (writeAhead_step e h hstep).1
    · exact fun _ e _ h _ hstep => (writeAhead_step e h hstep).2

end Steps

section Sample

open Instance.BackupID (startedBackup doneBackup)
open Operation (readyWorld)

/-- A Backup that has just been created. -/
def newBackup : Backup :=
  { startedBackup with
    status := ⟨.unset, none, "", "", none, none, ""⟩ }

def newSystem : System := ⟨some newBackup, 1, []⟩

/-- The write that follows on `create` fails, and the retry finds the old object in the cache. -/
def retriedBackup : List Event :=
  [.reconcile (doneBackup 1000) readyWorld, .reconcile (doneBackup 2000) readyWorld,
    .reconcile { doneBackup 3000 with call := fun c => if c = .backupStatus then .failed else .ok }
      readyWorld,
    .staleReconcile (doneBackup 4000) readyWorld newBackup 1,
    .reconcile (doneBackup 5000) readyWorld, .reconcile (doneBackup 6000) readyWorld,
    .reconcile (doneBackup 7000) readyWorld, .delete 8000, .reconcile (doneBackup 9000) readyWorld]

theorem retried_backup_marked :
    (Runs.Always step Marked newSystem retriedBackup ∧
      Runs.EachStep step LeftForDeletion newSystem retriedBackup) ∧
      (Runs.run step newSystem retriedBackup).any (fun s => s.calls.length = 2 ∧
        s.stored.any fun b => b.state = some .backupDeleting) = true := by
  constructor
  · apply backup_marked_before_create newSystem retriedBackup _ rfl
    rintro _ ⟨⟩
    rfl
  · decide +kernel

end Sample

end ElCarro.Backups.WriteAhead
