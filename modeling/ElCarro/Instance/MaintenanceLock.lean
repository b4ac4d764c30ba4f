import ElCarro.Lib.Optimistic
import ElCarro.Lib.Runs
import ElCarro.Instance.Reconcile

/-! # Mutual exclusion of the maintenance lock

Any number of owners work on copies of the instance of any age. A call that fails
leaves its copy edited, so a copy under the current version need not show the
stored lock: it may be one call of its own owner ahead of it.
-/

namespace ElCarro.Instance.Reconciler

open GoTime K8s Api Flow Optimistic

/-- The empty string in the lock field stands for no owner. -/
abbrev Owner := { owner : String // owner ≠ "" }

structure LockState where
  world : World
  /-- An owner can have several copies at a time. -/
  copies : Owner × Nat → Versioned Instance
  /-- The owners between a successful Acquire and their Release. -/
  holding : Owner → Bool

def World.server (w : World) : Versioned Instance := ⟨w.stored, w.resourceVersion⟩

def Session.copy (s : Session) : Versioned Instance := ⟨s.mem, s.memVersion⟩

namespace LockState

variable (s : LockState) (client : Owner × Nat)

/-- The stored owner of the lock. -/
def lock : String := s.world.stored.status.lockedByController

def session : Session :=
  { s.world with mem := (s.copies client).value, memVersion := (s.copies client).version }

def after (t : Session) (holds : Bool) : LockState where
  world := t.toWorld
  copies := Function.update s.copies client t.copy
  holding := Function.update s.holding client.1 holds

/-- Nobody has called yet, and every copy is up to date. -/
def start (w : World) : LockState := ⟨w, fun _ => w.server, fun _ => false⟩

end LockState

inductive LockEvent where
  | acquire (client : Owner × Nat) (env : Env)
  | release (client : Owner × Nat) (env : Env)
  /-- A client reads the instance, possibly an old version of it. -/
  | read (client : Owner × Nat) (copy : Versioned Instance)
  /-- A client changes something else in its copy. -/
  | edit (client : Owner × Nat) (inst : Instance)
  /-- Somebody else writes the instance without touching the lock. -/
  | write (inst : Instance)

/-- The server carries out the write of a Release, whether or not its caller gets the reply. -/
def LockState.releases (s : LockState) (client : Owner × Nat) (env : Env) : Bool :=
  (s.copies client).version = s.world.resourceVersion ∧ (env.call .releaseLock).served

def lockStep (s : LockState) : LockEvent → Option LockState
  | .acquire client env =>
    match acquireInstanceMaintenanceLock env client.1 (s.session client) with
    | .next ok t => some (s.after client t (ok || s.holding client.1))
    | .done _ _ => none
  | .release client env =>
    match releaseInstanceMaintenanceLock env client.1 (s.session client) with
    | .next _ t => some (s.after client t (s.holding client.1 && !s.releases client env))
    | .done _ _ => none
  | .read client copy =>
    if copy.version < s.world.resourceVersion ∨
        copy.version = s.world.resourceVersion ∧ copy.value = s.world.stored then
      some { s with copies := Function.update s.copies client copy }
    else none
  | .edit client inst =>
    if inst.status.lockedByController = (s.copies client).value.status.lockedByController then
      some { s with
        copies := Function.update s.copies client ⟨inst, (s.copies client).version⟩ }
    else none
  | .write inst =>
    if inst.status.lockedByController = s.lock then
      let server := s.world.server.store inst
      some { s with
        world := { s.world with stored := server.value, resourceVersion := server.version } }
    else none

section Calls

variable {env : Env} {s t : Session} {ok : Bool}

/-- What a call that writes back the edited copy `inst` leaves behind. -/
inductive LockCall (s : Session) (inst : Instance) (call : Outcome) : Bool → Session → Prop
  | refused {t : Session} (hserver : t.server = s.server) (hcopy : t.copy = ⟨inst, s.memVersion⟩)
      (hcall : s.memVersion = s.resourceVersion → call.served = false) :
      LockCall s inst call false t
  | served {t : Session} {ok : Bool} (hversion : s.memVersion = s.resourceVersion)
      (hcall : call.served = true)
      (hserver : t.server = s.server.store { s.stored with status := inst.status })
      (hcopy : t.copy = if ok then t.server else ⟨inst, s.memVersion⟩) :
      LockCall s inst call ok t

theorem store_server (s : Session) (inst : Instance) :
    (s.store inst).server = s.server.store inst := by
  by_cases h : inst = s.stored
  · have hserver : s.server.store inst = s.server := if_pos h
    rw [Session.store, if_pos h, hserver]
  · have hserver : s.server.store inst = ⟨inst, s.resourceVersion + 1⟩ := if_neg h
    rw [Session.store, if_neg h, hserver]
    rfl

theorem wp_updateStatus (env : Env) (c : Call) (s : Session) {R : Result → Session → Prop} :
    wp (updateStatus env c) (LockCall s s.mem (env.call c)) R s := by
  unfold updateStatus write wp
  dsimp only
  split
  · next a t heq =>
    split at heq
    · next hver =>
      obtain ⟨rfl, rfl⟩ := Res.next.inj heq
      exact .refused rfl rfl fun h => absurd h hver
    · next hver =>
      have hver : s.memVersion = s.resourceVersion := not_not.mp hver
      split at heq
      · next hcall =>
        obtain ⟨rfl, rfl⟩ := Res.next.inj heq
        exact .served hver (by rw [hcall]; rfl) (store_server s _) rfl
      · next hcall =>
        obtain ⟨rfl, rfl⟩ := Res.next.inj heq
        refine .served hver (by rw [hcall]; rfl) (store_server s _) ?_
        simp only [Session.store, Session.copy]
        split <;> rfl
      · next hok hlost =>
        obtain ⟨rfl, rfl⟩ := Res.next.inj heq
        refine .refused rfl rfl fun _ => decide_eq_false ?_
        rintro (h | h)
        · exact hok h
        · exact hlost h
  · next r t heq =>
    split at heq
    · cases heq
    · split at heq <;> cases heq

/-- The lock field of a copy after an Acquire. -/
def acquireField (owner locked : String) : String := if locked = "" then owner else locked

def releaseField (owner locked : String) : String := if locked = owner then "" else locked

def setLock (inst : Instance) (owner : String) : Instance :=
  { inst with status := { inst.status with lockedByController := owner } }

theorem wp_acquire (env : Env) (owner : String) (s : Session) {R : Result → Session → Prop} :
    wp (acquireInstanceMaintenanceLock env owner) (fun ok t => ∃ ok',
      LockCall s (setLock s.mem (acquireField owner s.mem.status.lockedByController))
        (env.call .acquireLock) ok' t ∧
      (ok = true → ok' = true ∧
        acquireField owner s.mem.status.lockedByController = owner)) R s := by
  unfold acquireInstanceMaintenanceLock acquireField
  simp only [wp_bind, wp_get, wp_when, setStatus, setMem, wp_modify]
  constructor
  · intro hfree
    have h := wp_updateStatus env .acquireLock (R := R) { s with mem := setLock s.mem owner }
    apply h.mono _ fun _ _ h => h
    intro ok t h
    rw [if_pos hfree]
    refine ⟨ok, ?_, fun hok => ⟨(decide_eq_true_iff.mp hok).1, rfl⟩⟩
    cases h with
    | refused hserver hcopy hcall => exact .refused hserver hcopy hcall
    | served hversion hcall hserver hcopy => exact .served hversion hcall hserver hcopy
  · intro hlocked
    have h := wp_updateStatus env .acquireLock (R := R) s
    apply h.mono _ fun _ _ h => h
    intro ok t h
    rw [if_neg hlocked]
    refine ⟨ok, h, fun hok => ?_⟩
    obtain ⟨hok, howner⟩ := decide_eq_true_iff.mp hok
    exact ⟨hok, howner.resolve_left hlocked⟩

theorem wp_release (env : Env) (owner : String) (s : Session) {R : Result → Session → Prop} :
    wp (releaseInstanceMaintenanceLock env owner) (fun ok t =>
      LockCall s (setLock s.mem (releaseField owner s.mem.status.lockedByController))
        (env.call .releaseLock) ok t) R s := by
  unfold releaseInstanceMaintenanceLock releaseField
  simp only [wp_bind, wp_get, wp_when, setStatus, setMem, wp_modify]
  constructor
  · intro howner
    have h := wp_updateStatus env .releaseLock (R := R) { s with mem := setLock s.mem "" }
    apply h.mono _ fun _ _ h => h
    intro ok t h
    rw [if_pos howner]
    cases h with
    | refused hserver hcopy hcall => exact .refused hserver hcopy hcall
    | served hversion hcall hserver hcopy => exact .served hversion hcall hserver hcopy
  · intro howner
    rw [if_neg howner]
    exact wp_updateStatus env .releaseLock s

end Calls

section Exclusion

/-- The lock field of a copy under the current version: the stored one, or the stored one after
a call of the copy's own owner that did not go through. -/
def Ahead (owner copy stored : String) : Prop :=
  copy = stored ∨ (stored = "" ∧ copy = owner) ∨ (stored = owner ∧ copy = "")

theorem Ahead.acquire {owner copy stored : String} (h : Ahead owner copy stored) :
    Ahead owner (acquireField owner copy) stored := by
  unfold Ahead acquireField at *
  grind

theorem Ahead.release {owner copy stored : String} (h : Ahead owner copy stored) :
    Ahead owner (releaseField owner copy) stored := by
  unfold Ahead releaseField at *
  grind

/-- An Acquire that is written takes a free lock and leaves any other alone. -/
theorem Ahead.acquireField_eq {owner copy stored : String} (h : Ahead owner copy stored) :
    acquireField owner copy = acquireField owner stored := by
  unfold Ahead acquireField at *
  grind

/-- A Release that is written frees the lock of its owner and leaves any other alone. -/
theorem Ahead.releaseField_eq {owner copy stored : String} (h : Ahead owner copy stored) :
    releaseField owner copy = releaseField owner stored := by
  unfold Ahead releaseField at *
  grind

theorem acquireField_of_ne {owner locked : String} (h : locked ≠ "") :
    acquireField owner locked = locked := if_neg h

theorem releaseField_of_ne {owner locked : String} (h : locked ≠ owner) :
    releaseField owner locked = locked := if_neg h

theorem releaseField_ne (owner : Owner) (locked : String) :
    releaseField owner.1 locked ≠ owner.1 := by
  unfold releaseField
  split
  · exact Ne.symm owner.2
  · next h => exact h

/-- The stored lock after a call is the one of the edited copy, if the call went through. -/
theorem LockCall.lock {s t : Session} {inst : Instance} {locked : String} {call : Outcome}
    {ok : Bool} (h : LockCall s (setLock inst locked) call ok t) :
    t.stored.status.lockedByController =
      if s.memVersion = s.resourceVersion ∧ call.served = true then locked
      else s.stored.status.lockedByController := by
  cases h with
  | refused hserver hcopy hcall =>
    have hno : ¬ (s.memVersion = s.resourceVersion ∧ call.served = true) := by
      rintro ⟨hversion, hserved⟩
      rw [hcall hversion] at hserved
      cases hserved
    have hstored : t.stored = s.stored := congrArg Versioned.value hserver
    rw [if_neg hno, hstored]
  | served hversion hcall hserver =>
    have hstored := congrArg Versioned.value hserver
    rw [Versioned.store_value] at hstored
    rw [if_pos ⟨hversion, hcall⟩]
    exact congrArg (·.status.lockedByController) hstored

structure LockInvariant (s : LockState) : Prop where
  coherent : Coherent (fun client copy stored => Ahead client.1.1
    copy.status.lockedByController stored.status.lockedByController) s.world.server s.copies
  /-- An owner that has acquired the lock is the stored one. -/
  held : ∀ owner, s.holding owner = true → s.lock = owner.1

theorem LockInvariant.start (w : World) : LockInvariant (.start w) where
  coherent := fun _ => Versioned.follows_self (fun _ => .inl rfl) _
  held := by
    intro owner h
    cases h

namespace LockInvariant

variable {s : LockState} {client : Owner × Nat} {t : Session} {holds : Bool}

/-- A call whose edited copy is still one step ahead at most: the lock is left alone or is the
one of the copy. -/
theorem after {field : String → String} {call : Outcome} {ok : Bool} (h : LockInvariant s)
    (ha : LockCall (s.session client) (setLock (s.copies client).value
      (field (s.copies client).value.status.lockedByController)) call ok t)
    (hfield : ∀ copy, Ahead client.1.1 copy s.lock → Ahead client.1.1 (field copy) s.lock)
    (hheld : ∀ owner, Function.update s.holding client.1 holds owner = true →
      t.stored.status.lockedByController = owner.1) :
    LockInvariant (s.after client t holds) := by
  refine ⟨?_, hheld⟩
  have hfollows : Versioned.Follows (fun copy stored => Ahead client.1.1
      copy.status.lockedByController stored.status.lockedByController)
      ⟨setLock (s.copies client).value (field (s.copies client).value.status.lockedByController),
        (s.copies client).version⟩ s.world.server := by
    rcases h.coherent client with hlt | ⟨heq, hahead⟩
    · exact .inl hlt
    · exact .inr ⟨heq, hfield _ hahead⟩
  cases ha with
  | refused hserver hcopy =>
    change Coherent _ t.server (Function.update s.copies client t.copy)
    rw [hserver, hcopy]
    exact h.coherent.update hfollows
  | served hversion hcall hserver hcopy =>
    change Coherent _ t.server (Function.update s.copies client t.copy)
    rw [hcopy]
    cases ok with
    | true =>
      rw [hserver]
      exact (h.coherent.store _).update (Versioned.follows_self (fun _ => .inl rfl) _)
    | false =>
      rw [hserver]
      exact (h.coherent.store _).update (hfollows.store _)

/-- The copy of a call that goes through is under the current version. -/
theorem lock_attempt {field : String → String} {call : Outcome} {ok : Bool}
    (h : LockInvariant s)
    (ha : LockCall (s.session client) (setLock (s.copies client).value
      (field (s.copies client).value.status.lockedByController)) call ok t)
    (hfield : ∀ copy, Ahead client.1.1 copy s.lock → field copy = field s.lock) :
    t.stored.status.lockedByController =
      if (s.copies client).version = s.world.resourceVersion ∧ call.served = true then
        field s.lock
      else s.lock := by
  rw [ha.lock]
  split
  · next hserved =>
    rcases h.coherent client with hlt | ⟨_, hahead⟩
    · exact absurd hserved.1 (Nat.ne_of_lt hlt)
    · exact (hfield _ hahead).trans (if_pos hserved).symm
  · next hserved => exact (if_neg hserved).symm

/-- What an Acquire does to the stored lock and to the owners that hold it. -/
theorem acquire_spec {env : Env} {u : LockState} (h : LockInvariant s)
    (hs : lockStep s (.acquire client env) = some u) :
    LockInvariant u ∧ (u.lock = s.lock ∨ u.lock = acquireField client.1.1 s.lock) ∧
      ∃ ok : Bool, (ok = true → u.lock = client.1.1) ∧
        u.holding = Function.update s.holding client.1 (ok || s.holding client.1) := by
  have hwp := wp_acquire env client.1.1 (s.session client) (R := fun _ _ => True)
  unfold wp at hwp
  unfold lockStep at hs
  cases hrun : acquireInstanceMaintenanceLock env client.1.1 (s.session client) with
  | done r t => simp [hrun] at hs
  | next ok t =>
    simp only [hrun] at hs hwp
    obtain rfl := Option.some.inj hs
    obtain ⟨ok', ha, hok⟩ := hwp
    have hlock : t.stored.status.lockedByController = _ :=
      h.lock_attempt ha fun _ hahead => hahead.acquireField_eq
    have hor : t.stored.status.lockedByController = s.lock ∨
        t.stored.status.lockedByController = acquireField client.1.1 s.lock := by
      rw [hlock]
      split
      · exact .inr rfl
      · exact .inl rfl
    have howner : ok = true → t.stored.status.lockedByController = client.1.1 := by
      intro hsuccess
      obtain ⟨rfl, hfield⟩ := hok hsuccess
      rw [ha.lock]
      cases ha with
      | served hversion hcall => rw [if_pos ⟨hversion, hcall⟩]; exact hfield
    refine ⟨h.after ha (fun _ hahead => hahead.acquire) ?_, hor, ok, howner, rfl⟩
    intro owner hholds
    by_cases ho : owner = client.1
    · subst ho
      rw [Function.update_self, Bool.or_eq_true] at hholds
      rcases hholds with hsuccess | hbefore
      · exact howner hsuccess
      · have hl : s.lock = client.1.1 := h.held _ hbefore
        rcases hor with hor | hor
        · rw [hor, hl]
        · rw [hor, hl, acquireField_of_ne client.1.2]
    · rw [Function.update_of_ne ho] at hholds
      have hl : s.lock = owner.1 := h.held _ hholds
      rcases hor with hor | hor
      · rw [hor, hl]
      · rw [hor, hl, acquireField_of_ne owner.2]

/-- What a Release does to the stored lock and to the owners that hold it. -/
theorem release_spec {env : Env} {u : LockState} (h : LockInvariant s)
    (hs : lockStep s (.release client env) = some u) :
    LockInvariant u ∧
      u.lock = (if s.releases client env then releaseField client.1.1 s.lock else s.lock) ∧
      u.holding = Function.update s.holding client.1
        (s.holding client.1 && !s.releases client env) := by
  have hwp := wp_release env client.1.1 (s.session client) (R := fun _ _ => True)
  unfold wp at hwp
  unfold lockStep at hs
  cases hrun : releaseInstanceMaintenanceLock env client.1.1 (s.session client) with
  | done r t => simp [hrun] at hs
  | next ok t =>
    simp only [hrun] at hs hwp
    obtain rfl := Option.some.inj hs
    have hlock : t.stored.status.lockedByController =
        if s.releases client env then releaseField client.1.1 s.lock else s.lock := by
      rw [h.lock_attempt hwp fun _ hahead => hahead.releaseField_eq]
      simp only [LockState.releases, decide_eq_true_eq]
    refine ⟨h.after hwp (fun _ hahead => hahead.release) ?_, hlock, rfl⟩
    intro owner hholds
    by_cases ho : owner = client.1
    · subst ho
      rw [Function.update_self, Bool.and_eq_true, Bool.not_eq_true'] at hholds
      rw [hlock, hholds.2]
      exact h.held _ hholds.1
    · rw [Function.update_of_ne ho] at hholds
      have hl : s.lock = owner.1 := h.held _ hholds
      have hne : s.lock ≠ client.1.1 := by
        intro heq
        exact ho (Subtype.ext (hl.symm.trans heq))
      rw [hlock, releaseField_of_ne hne, ite_self, hl]

theorem step {e : LockEvent} {u : LockState} (h : LockInvariant s)
    (hs : lockStep s e = some u) : LockInvariant u := by
  cases e with
  | acquire client env => exact (h.acquire_spec hs).1
  | release client env => exact (h.release_spec hs).1
  | read client copy =>
    obtain ⟨hcopy, heq⟩ := Option.ite_none_right_eq_some.mp hs
    obtain rfl := Option.some.inj heq
    refine ⟨h.coherent.update ?_, h.held⟩
    rcases hcopy with hlt | ⟨hversion, hvalue⟩
    · exact .inl hlt
    · exact .inr ⟨hversion, .inl (congrArg (·.status.lockedByController) hvalue)⟩
  | edit client inst =>
    obtain ⟨hlock, heq⟩ := Option.ite_none_right_eq_some.mp hs
    obtain rfl := Option.some.inj heq
    refine ⟨h.coherent.update ?_, h.held⟩
    rcases h.coherent client with hlt | ⟨hversion, hahead⟩
    · exact .inl hlt
    · refine .inr ⟨hversion, ?_⟩
      dsimp only at hahead ⊢
      rwa [hlock]
  | write inst =>
    obtain ⟨hlock, heq⟩ := Option.ite_none_right_eq_some.mp hs
    obtain rfl := Option.some.inj heq
    refine ⟨h.coherent.store inst, fun owner hholds => ?_⟩
    change (s.world.server.store inst).value.status.lockedByController = owner.1
    rw [Versioned.store_value, hlock]
    exact h.held owner hholds

end LockInvariant

/-- What the lock is for, in one state of the run. -/
structure LockExclusive (s : LockState) : Prop where
  /-- At most one owner is between a successful Acquire and its Release. -/
  one : ∀ owner owner', s.holding owner = true → s.holding owner' = true → owner = owner'
  stored : ∀ owner, s.holding owner = true → s.lock = owner.1
  /-- A Release by anybody but the stored owner changes neither the lock nor who holds it. -/
  release_other : ∀ client env t, s.lock ≠ client.1.1 →
    lockStep s (.release client env) = some t → t.lock = s.lock ∧ t.holding = s.holding
  acquire_again : ∀ client env t, s.holding client.1 = true →
    lockStep s (.acquire client env) = some t → t.lock = s.lock ∧ t.holding = s.holding
  /-- A second Release finds nothing left to release. -/
  release_again : ∀ owner n n' env env' t u, s.releases (owner, n) env = true →
    lockStep s (.release (owner, n) env) = some t →
      lockStep t (.release (owner, n') env') = some u → u.lock = t.lock ∧ u.holding = t.holding

theorem LockInvariant.release_other {s t : LockState} {client : Owner × Nat} {env : Env}
    (h : LockInvariant s) (hne : s.lock ≠ client.1.1)
    (hs : lockStep s (.release client env) = some t) :
    t.lock = s.lock ∧ t.holding = s.holding := by
  obtain ⟨-, hlock, hholding⟩ := h.release_spec hs
  have hfree : s.holding client.1 = false := by
    by_contra hholds
    exact hne (h.held _ (Bool.eq_true_of_not_eq_false hholds))
  constructor
  · rw [hlock, releaseField_of_ne hne, ite_self]
  · rw [hholding, hfree, Bool.false_and, ← hfree, Function.update_eq_self]

theorem LockInvariant.exclusive {s : LockState} (h : LockInvariant s) : LockExclusive s where
  one := by
    intro owner owner' ho ho'
    exact Subtype.ext ((h.held _ ho).symm.trans (h.held _ ho'))
  stored := h.held
  release_other := fun client env t hne hs => h.release_other hne hs
  acquire_again := by
    intro client env t hholds hs
    obtain ⟨-, hlock, ok, -, hholding⟩ := h.acquire_spec hs
    have hl : s.lock = client.1.1 := h.held _ hholds
    constructor
    · rcases hlock with hlock | hlock
      · exact hlock
      · rw [hlock, hl, acquireField_of_ne client.1.2]
    · rw [hholding, hholds, Bool.or_true, ← hholds, Function.update_eq_self]
  release_again := by
    intro owner n n' env env' t u hreleases hs hs'
    obtain ⟨ht, hlock, -⟩ := h.release_spec hs
    apply ht.release_other _ hs'
    rw [hlock, if_pos hreleases]
    exact releaseField_ne owner s.lock

/-- Whatever the owners, their copies and the answers of the server, the lock is exclusive in
every state of every run. -/
theorem maintenanceLock_exclusive (w : World) (es : List LockEvent) :
    Runs.Always lockStep LockExclusive (.start w) es :=
  Runs.always_of_invariant (fun _ _ _ h _ hs => h.step hs) (fun _ h => h.exclusive)
    (LockInvariant.start w) (Runs.meets_of_forall (fun _ _ => trivial) _ _)

section Example

def alpha : Owner := ⟨"A", by decide⟩

def beta : Owner := ⟨"B", by decide⟩

-- the copy of B is stale until it is read again, and then shows the lock of A
example : (Runs.run lockStep (.start (createdWorld none))
    [.acquire (alpha, 0) (calm 0), .acquire (beta, 0) (calm 0),
      .release (alpha, 0) (calm 0)]).map (fun s => (s.lock, s.holding alpha, s.holding beta)) =
    some ("", false, false) := by decide +kernel

end Example

end Exclusion

end ElCarro.Instance.Reconciler
