import ElCarro.Cron.Isolation
import ElCarro.Cron.Schedule
import ElCarro.Lib.DelayQueue
import ElCarro.Lib.Runs

/-! # Wakeups of the CronAnything reconciler

The reconciler is woken for a trigger by the delay that it returned before. It
remembers the time it asked for in `nextTrigger` and asks only once, while the
work queue keeps a single delayed wakeup for each key. The wakeup of a remembered
time is therefore gone for good when the queue gives its place to an earlier one.
-/

namespace ElCarro.Cron

open GoTime K8s DelayQueue

/-- The name under which the reconciler remembers the next trigger of a key. -/
def triggerKey (key : ObjectKey) : String := key.ns ++ "/" ++ key.name

/-- Names and namespaces are path segments for the API server. -/
def ValidKey (key : ObjectKey) : Prop := '/' ∉ key.ns.toList ∧ '/' ∉ key.name.toList

instance (key : ObjectKey) : Decidable (ValidKey key) :=
  inferInstanceAs (Decidable (_ ∧ _))

/-- The next schedule time that a reconcile computes when it is not suspended. -/
def computedNext (lib : Libs) (env : Env) (fuel : Nat) (c : Cluster) (key : ObjectKey) :
    Option Time :=
  match env.getErr, c.getCron key with
  | none, some ca =>
    if ca.deletionTimestamp.isSome ∨ ca.spec.suspend = some true then none
    else match getScheduleTimes lib ca (env.now + 1 * second) fuel with
      | some (.ok (_, nextScheduleTime)) => some nextScheduleTime
      | _ => none
  | _, _ => none

/-- What a call of `Reconcile` returned, and when. -/
structure Returned where
  result : Except String Result
  later : Time
  next : Option Time

/-- The state of the controller: its clock, the memory of the reconciler and the queue. -/
structure Controller where
  now : Time
  nextTrigger : Finmap fun _ : String => Time
  queue : Queue ObjectKey
  /-- The keys being processed, with what their `Reconcile` returned. -/
  inHand : ObjectKey → Option Returned

/--
What can happen to the controller: time passes, an object changes, a delayed wakeup comes due, a
worker takes a key and calls `Reconcile` in some cluster, and the worker hands the result to the
queue. The delay of a retry is chosen by the rate limiter.
-/
inductive Event where
  | tick (now : Time)
  | watch (key : ObjectKey)
  | deliver (key : ObjectKey)
  | reconcile (key : ObjectKey) (c : Cluster) (env : Env)
      (resolve : GroupVersionKind → Option GroupVersionResource) (fuel : Nat)
  | handle (key : ObjectKey) (backoff : Duration)

/-- `reconcileHandler`: what the queue is told about a result. -/
def reconcileHandler (q : Queue ObjectKey) (key : ObjectKey) (now : Time) (backoff : Duration) :
    Except String Result → Queue ObjectKey
  | .error _ => addAfter q key now backoff
  | .ok result => if 0 < result.requeueAfter then addAfter q key now result.requeueAfter else q

def Controller.step (lib : Libs) (s : Controller) : Event → Option Controller
  | .tick now => if s.now ≤ now then some { s with now := now } else none
  | .watch key => some { s with queue := add s.queue key }
  | .deliver key => (deliver s.queue key s.now).map fun q => { s with queue := q }
  | .reconcile key c env resolve fuel =>
    if ValidKey key ∧ s.queue.ready key = true ∧ s.inHand key = none ∧ s.now ≤ env.now ∧
        env.now ≤ env.later then
      (reconcile lib env ⟨resolve, s.nextTrigger⟩ fuel c key).map fun out =>
        { now := env.now
          nextTrigger := out.nextTrigger
          queue := take s.queue key
          inHand := Function.update s.inHand key
            (some ⟨out.result, env.later, computedNext lib env fuel c key⟩) }
    else none
  | .handle key backoff =>
    match s.inHand key with
    | none => none
    | some ret =>
      if ret.later ≤ s.now then
        some { s with
          queue := reconcileHandler s.queue key s.now backoff ret.result
          inHand := Function.update s.inHand key none }
      else none

/-- A controller that has just started. -/
structure Initial (s : Controller) : Prop where
  clock : 0 ≤ s.now
  nextTrigger : s.nextTrigger = ∅
  inHand : ∀ key, s.inHand key = none

/--
After a result without error, a wakeup is pending at or before the next schedule time that the
call computed.
-/
def NoLostWakeup (s : Controller) (e : Event) (t : Controller) : Prop :=
  ∀ key backoff, e = .handle key backoff → ∀ ret ∈ s.inHand key, ∀ result,
    ret.result = .ok result → ∀ next ∈ ret.next, Pending t.queue key next

/-- The delay with which a result is queued. -/
def Returned.delay (ret : Returned) (backoff : Duration) : Duration :=
  match ret.result with
  | .error _ => backoff
  | .ok result => result.requeueAfter

/--
The wakeup that the queue keeps is not more than a second before the time remembered for the key,
unless that time has come.
-/
def Undisplaced (s : Controller) (key : ObjectKey) (delay : Duration) : Prop :=
  0 < delay → ∀ next ∈ s.nextTrigger.lookup (triggerKey key),
    next ≤ s.now + second ∨ next ≤ earliest (s.queue.waiting key) (s.now + delay) + second

/--
Unless a wakeup already waits for the next schedule time, that time is still ahead when the delay
to it is computed, and the delay as the queue counts it ends no later.
-/
def Timely (s : Controller) (key : ObjectKey) (ret : Returned) : Prop :=
  ∀ result, ret.result = .ok result → ∀ next ∈ ret.next,
    (∃ w ∈ s.queue.waiting key, w ≤ next) ∨
      ((s.queue.ready key = true ∨ ret.later < next) ∧
        (0 < result.requeueAfter → s.now + result.requeueAfter ≤ next))

/-- The condition on a step that hands a result to the queue. -/
def Keeps (s : Controller) : Event → Prop
  | .handle key backoff => ∀ ret ∈ s.inHand key,
      Undisplaced s key (ret.delay backoff) ∧ Timely s key ret
  | _ => True

instance (s : Controller) (key : ObjectKey) (delay : Duration) :
    Decidable (Undisplaced s key delay) := by
  unfold Undisplaced
  infer_instance

instance (s : Controller) (key : ObjectKey) (ret : Returned) : Decidable (Timely s key ret) :=
  match h : ret.result with
  | .error _ => .isTrue fun result hres => by simp [h] at hres
  | .ok result =>
    decidable_of_iff (∀ next ∈ ret.next, (∃ w ∈ s.queue.waiting key, w ≤ next) ∨
      ((s.queue.ready key = true ∨ ret.later < next) ∧
        (0 < result.requeueAfter → s.now + result.requeueAfter ≤ next))) (by simp [Timely, h])

instance (s : Controller) : (e : Event) → Decidable (Keeps s e)
  | .handle key backoff => inferInstanceAs (Decidable (∀ ret ∈ s.inHand key,
      Undisplaced s key (ret.delay backoff) ∧ Timely s key ret))
  | .tick _ | .watch _ | .deliver _ | .reconcile _ _ _ _ _ => .isTrue trivial

section Outcomes

variable {lib : Libs} {env : Env} {r : Reconciler} {ca : CronAnything} {c : Cluster}

/-- How a reconcile that computed a next schedule time ends. -/
inductive Settles (later : Time) (nextTrigger : Finmap fun _ : String => Time) (name : String)
    (next : Time) : Outcome → Prop where
  | failed (calls : List Call) (err : String) :
      Settles later nextTrigger name next ⟨calls, nextTrigger, .error err⟩
  | replaced (calls : List Call) :
      Settles later nextTrigger name next ⟨calls, nextTrigger, .ok ⟨1 * second⟩⟩
  | known (calls : List Call) (h : nextTrigger.lookup name = some next) :
      Settles later nextTrigger name next ⟨calls, nextTrigger, .ok ⟨0⟩⟩
  | queued (calls : List Call) :
      Settles later nextTrigger name next
        ⟨calls, nextTrigger.insert name next, .ok ⟨sub next later⟩⟩

theorem updateTriggerTimes_settles {calls : List Call} {next : Time} :
    Settles env.later r.nextTrigger (canonicalName ca) next
      (updateTriggerTimes env r ca calls next) := by
  unfold updateTriggerTimes
  split
  · next h => exact .known calls h
  · exact .queued calls

theorem closeTrigger_settles {call : Nat} {calls : List Call} {stored : CronAnythingStatus}
    {f : CronAnythingStatus → CronAnythingStatus} {next : Time} :
    Settles env.later r.nextTrigger (canonicalName ca) next
      (closeTrigger env r ca call calls stored f next) := by
  unfold closeTrigger
  split
  · exact .failed _ _
  · exact updateTriggerTimes_settles

theorem createChild_settles {crt : Unstructured} {resource : GroupVersionResource}
    {calls : List Call} {stored : CronAnythingStatus} {scheduleTime next : Time} :
    Settles env.later r.nextTrigger (canonicalName ca) next
      (createChild lib env r ca c crt resource calls stored scheduleTime next) := by
  unfold createChild
  dsimp only
  split
  · exact .failed _ _
  · exact closeTrigger_settles

theorem handleTrigger_settles {crt : Unstructured} {resource : GroupVersionResource}
    {children : List Unstructured} {calls : List Call} {stored : CronAnythingStatus}
    {scheduleTime next : Time} :
    Settles env.later r.nextTrigger (canonicalName ca) next
      (handleTrigger lib env r ca c crt resource children calls stored scheduleTime next) := by
  unfold handleTrigger
  split
  · exact closeTrigger_settles
  · dsimp only
    split
    · exact closeTrigger_settles
    · split
      · split
        · exact .failed _ _
        · exact .replaced _
      · split
        · exact closeTrigger_settles
        · exact createChild_settles

theorem handleUnmet_settles {crt : Unstructured} {resource : GroupVersionResource}
    {children : List Unstructured} {calls : List Call} {unmet : List Time} {next : Time} :
    Settles env.later r.nextTrigger (canonicalName ca) next
      (handleUnmet lib env r ca c crt resource children calls unmet next) := by
  unfold handleUnmet
  split
  · exact updateTriggerTimes_settles
  · split
    · exact handleTrigger_settles
    · split
      · exact .failed _ _
      · exact handleTrigger_settles

theorem canonicalName_eq {key : ObjectKey} (h : c.getCron key = some ca) :
    canonicalName ca = triggerKey key := by
  obtain ⟨hns, hname⟩ := getCron_key h
  rw [canonicalName, triggerKey, hns, hname]

/--
A reconcile either computes a next schedule time and settles it, or it leaves the memory of the
reconciler alone and, when it does not fail, has no next schedule time.
-/
theorem reconcile_settles {key : ObjectKey} {fuel : Nat} {out : Outcome}
    (h : reconcile lib env r fuel c key = some out) :
    (out.nextTrigger = r.nextTrigger ∧
        ∀ result, out.result = .ok result → computedNext lib env fuel c key = none) ∨
      ∃ next unmet ca, computedNext lib env fuel c key = some next ∧
        getScheduleTimes lib ca (env.now + 1 * second) fuel = some (.ok (unmet, next)) ∧
        Settles env.later r.nextTrigger (triggerKey key) next out := by
  have hfail : ∀ {calls err}, some (⟨calls, r.nextTrigger, .error err⟩ : Outcome) = some out →
      out.nextTrigger = r.nextTrigger ∧
        ∀ result, out.result = .ok result → computedNext lib env fuel c key = none := by
    rintro calls err ⟨⟩
    exact ⟨rfl, nofun⟩
  have hidle : ∀ {calls}, computedNext lib env fuel c key = none →
      some (⟨calls, r.nextTrigger, .ok ⟨0⟩⟩ : Outcome) = some out →
      out.nextTrigger = r.nextTrigger ∧
        ∀ result, out.result = .ok result → computedNext lib env fuel c key = none := by
    rintro calls hnone ⟨⟩
    exact ⟨rfl, fun _ _ => hnone⟩
  unfold reconcile at h
  split at h
  · next hget => exact Or.inl (hidle (by simp [computedNext, hget]) h)
  · exact Or.inl (hfail h)
  · next hget =>
    split at h
    · next hca => exact Or.inl (hidle (by simp [computedNext, hget, hca]) h)
    · next ca hca =>
      split at h
      · next hdel => exact Or.inl (hidle (by simp [computedNext, hget, hca, hdel]) h)
      · next hdel =>
        split at h
        · exact Or.inl (hfail h)
        · split at h
          · exact Or.inl (hfail h)
          · split at h
            · exact Or.inl (hfail h)
            · split at h
              · cases h
              · split at h
                · next hsus => exact Or.inl (hidle (by simp [computedNext, hget, hca, hsus]) h)
                · next hsus =>
                  split at h
                  · cases h
                  · exact Or.inl (hfail h)
                  · next unmet next hsched =>
                    obtain rfl := Option.some.inj h
                    refine Or.inr ⟨next, unmet, ca, ?_, hsched, ?_⟩
                    · simp only [computedNext, hget, hca, hdel, hsus, hsched, or_self, if_false,
                        Bool.false_eq_true]
                    · rw [← canonicalName_eq hca]
                      exact handleUnmet_settles

end Outcomes

section Handler

variable {q : Queue ObjectKey} {key key' : ObjectKey} {now t : Time} {backoff : Duration}
  {ret : Returned}

theorem handler_waiting_self (hd : 0 < ret.delay backoff) :
    (reconcileHandler q key now backoff ret.result).waiting key =
      some (earliest (q.waiting key) (now + ret.delay backoff)) := by
  unfold Returned.delay at *
  cases hres : ret.result with
  | error err =>
    rw [hres] at hd
    exact addAfter_waiting_self hd
  | ok result =>
    rw [hres] at hd
    simp only [reconcileHandler, if_pos hd]
    exact addAfter_waiting_self hd

theorem handler_waiting_of_not_pos (hd : ¬ 0 < ret.delay backoff) :
    (reconcileHandler q key now backoff ret.result).waiting = q.waiting := by
  unfold Returned.delay at hd
  cases hres : ret.result with
  | error err =>
    rw [hres] at hd
    exact addAfter_waiting_of_not_pos hd
  | ok result =>
    rw [hres] at hd
    simp only [reconcileHandler, if_neg hd]

theorem handler_waiting_of_ne {result : Except String Result} (hk : key' ≠ key) :
    (reconcileHandler q key now backoff result).waiting key' = q.waiting key' := by
  unfold reconcileHandler
  split
  · exact addAfter_waiting_of_ne hk
  · split
    · exact addAfter_waiting_of_ne hk
    · rfl

theorem pending_handler {result : Except String Result} (h : Pending q key' t) :
    Pending (reconcileHandler q key now backoff result) key' t := by
  unfold reconcileHandler
  split
  · exact h.addAfter
  · split
    · exact h.addAfter
    · exact h

end Handler

theorem triggerKey_injective {key key' : ObjectKey} (hk : ValidKey key)
    (h : triggerKey key = triggerKey key') : key = key' := by
  have hlist : key.ns.toList ++ '/' :: key.name.toList =
      key'.ns.toList ++ '/' :: key'.name.toList := by
    simpa [triggerKey] using congrArg String.toList h
  obtain ⟨hns, -, hname⟩ := (List.append_cons_inj_of_notMem hk.1 hk.2).mp hlist
  obtain ⟨ns, name⟩ := key
  obtain ⟨ns', name'⟩ := key'
  obtain rfl : ns = ns' := String.toList_inj.mp hns
  obtain rfl : name = name' := String.toList_inj.mp hname
  rfl

/-- The result asks for the delay to the next schedule time. -/
def Returned.Asks (ret : Returned) (next : Time) : Prop :=
  ret.next = some next ∧ ret.result = .ok ⟨sub next ret.later⟩

/-- A result without error asks for a wakeup unless one is pending. -/
def Returned.Accounted (ret : Returned) (q : Queue ObjectKey) (key : ObjectKey) : Prop :=
  0 ≤ ret.later ∧ ∀ result, ret.result = .ok result → ∀ next ∈ ret.next,
    next = 0 ∨ Pending q key next ∨ ret.Asks next ∨ result = ⟨1 * second⟩

theorem Returned.Accounted.mono {ret : Returned} {q q' : Queue ObjectKey} {key : ObjectKey}
    (h : ret.Accounted q key) (hq : ∀ next, Pending q key next → Pending q' key next) :
    ret.Accounted q' key := by
  obtain ⟨hpos, hall⟩ := h
  refine ⟨hpos, fun result hres next hn => ?_⟩
  rcases hall result hres next hn with hz | hpend | hrest
  · exact Or.inl hz
  · exact Or.inr (Or.inl (hq next hpend))
  · exact Or.inr (Or.inr hrest)

/-- A time has come within a second, or the wakeup for it waits in the queue. -/
def Awaited (now : Time) (waiting : Option Time) (next : Time) : Prop :=
  next ≤ now + second ∨ ∃ w ∈ waiting, w ≤ next ∧ next ≤ w + second

theorem Awaited.mono {now now' next : Time} {waiting : Option Time}
    (h : Awaited now waiting next) (hnow : now ≤ now') : Awaited now' waiting next := by
  rcases h with hcome | hwait
  · exact Or.inl (hcome.trans (add_le_add_left hnow second))
  · exact Or.inr hwait

/-- Every remembered time is awaited or about to be queued. -/
structure Woken (s : Controller) : Prop where
  clock : 0 ≤ s.now
  remembered : ∀ key, ValidKey key → ∀ next ∈ s.nextTrigger.lookup (triggerKey key),
    Awaited s.now (s.queue.waiting key) next ∨ ∃ ret ∈ s.inHand key, ret.Asks next
  returned : ∀ key, ∀ ret ∈ s.inHand key, ret.Accounted s.queue key

section Steps

variable {lib : Libs} {s t : Controller} {key : ObjectKey} {backoff : Duration} {ret : Returned}

theorem woken_initial (h : Initial s) : Woken s where
  clock := h.clock
  remembered key _ next hn := by
    rw [h.nextTrigger] at hn
    simp at hn
  returned key ret hr := by
    rw [h.inHand key] at hr
    simp at hr

/-- Handing over a timely result leaves a wakeup pending. -/
theorem pending_handled (hw : Woken s) (hret : ret ∈ s.inHand key) (hT : Timely s key ret)
    {result : Result} (hres : ret.result = .ok result) {next : Time} (hn : next ∈ ret.next) :
    Pending (reconcileHandler s.queue key s.now backoff ret.result) key next := by
  obtain ⟨hlater, hreturned⟩ := hw.returned key ret hret
  have hadd : 0 < result.requeueAfter → s.now + result.requeueAfter ≤ next →
      Pending (reconcileHandler s.queue key s.now backoff ret.result) key next := by
    intro hpos hle
    simp only [hres, reconcileHandler, if_pos hpos]
    exact pending_addAfter_of_le hpos hle
  rcases hT result hres next hn with hwait | ⟨hready | hahead, hend⟩
  · exact pending_handler (Or.inr hwait)
  · exact pending_handler (Or.inl hready)
  · rcases hreturned result hres next hn with rfl | hpend | ⟨-, hasks⟩ | rfl
    · exact absurd (lt_of_le_of_lt hlater hahead) (lt_irrefl 0)
    · exact pending_handler hpend
    · obtain rfl := Except.ok.inj (hres.symm.trans hasks)
      have hpos : 0 < sub next ret.later := sub_pos_iff.mpr hahead
      exact hadd hpos (hend hpos)
    · exact hadd (by decide) (hend (by decide))

/-- Handing over an undisplaced and timely result keeps what is remembered. -/
theorem awaited_handled (hw : Woken s) (hret : ret ∈ s.inHand key) (hlater : ret.later ≤ s.now)
    (hU : Undisplaced s key (ret.delay backoff)) (hT : Timely s key ret) (hk : ValidKey key)
    {next : Time} (hn : next ∈ s.nextTrigger.lookup (triggerKey key)) :
    Awaited s.now ((reconcileHandler s.queue key s.now backoff ret.result).waiting key) next := by
  have hkept : 0 < ret.delay backoff →
      earliest (s.queue.waiting key) (s.now + ret.delay backoff) ≤ next →
      Awaited s.now ((reconcileHandler s.queue key s.now backoff ret.result).waiting key)
        next := by
    intro hpos hle
    rcases hU hpos next hn with hcome | hnear
    · exact Or.inl hcome
    · exact Or.inr ⟨_, handler_waiting_self hpos, hle, hnear⟩
  have hdelay : ret.Asks next → ret.delay backoff = sub next ret.later := by
    rintro ⟨-, hres⟩
    rw [Returned.delay, hres]
  rcases hw.remembered key hk next hn with (hcome | ⟨w, hwait, hle, hnear⟩) | ⟨ret', hret', hasks⟩
  · exact Or.inl hcome
  · by_cases hpos : 0 < ret.delay backoff
    · exact hkept hpos ((earliest_le_left hwait).trans hle)
    · rw [handler_waiting_of_not_pos hpos]
      exact Or.inr ⟨w, hwait, hle, hnear⟩
  · obtain rfl : ret' = ret := Option.mem_unique hret' hret
    rw [hdelay hasks] at hkept
    by_cases hpos : 0 < sub next ret'.later
    · rcases hT _ hasks.2 next hasks.1 with ⟨w, hwait, hle⟩ | ⟨-, hend⟩
      · exact hkept hpos ((earliest_le_left hwait).trans hle)
      · exact hkept hpos (earliest_le_right.trans (hend hpos))
    · rw [sub_pos_iff, not_lt] at hpos
      exact Or.inl ((hpos.trans hlater).trans (le_add_of_nonneg_right (by decide)))

theorem woken_handle (hw : Woken s) (hk : Keeps s (.handle key backoff))
    (hs : s.step lib (.handle key backoff) = some t) : Woken t := by
  simp only [Controller.step] at hs
  split at hs
  · cases hs
  · next ret hret =>
    split at hs
    · next hlater =>
      obtain rfl := Option.some.inj hs
      obtain ⟨hU, hT⟩ := hk ret hret
      constructor
      · exact hw.clock
      · intro key' hkey' next hn
        by_cases heq : key' = key
        · subst heq
          exact Or.inl (awaited_handled hw hret hlater hU hT hkey' hn)
        · simp only [Function.update_of_ne heq, handler_waiting_of_ne heq]
          exact hw.remembered key' hkey' next hn
      · intro key' ret' hret'
        by_cases heq : key' = key
        · subst heq
          simp at hret'
        · simp only [Function.update_of_ne heq] at hret'
          exact (hw.returned key' ret' hret').mono fun _ => pending_handler
    · cases hs

/-- A time remembered for a key that no worker holds is awaited. -/
theorem Woken.awaited (hw : Woken s) (hk : ValidKey key) (hfree : s.inHand key = none)
    {next : Time} (hn : next ∈ s.nextTrigger.lookup (triggerKey key)) :
    Awaited s.now (s.queue.waiting key) next := by
  rcases hw.remembered key hk next hn with hawait | ⟨ret, hret, -⟩
  · exact hawait
  · rw [hfree] at hret
    cases hret

section Reconciled

variable {c : Cluster} {env : Env} {resolve : GroupVersionKind → Option GroupVersionResource}
  {fuel : Nat} {out : Outcome}

theorem reconcile_lookup_of_ne
    (hout : reconcile lib env ⟨resolve, s.nextTrigger⟩ fuel c key = some out)
    (hk : ValidKey key) {key' : ObjectKey} (hne : key' ≠ key) :
    out.nextTrigger.lookup (triggerKey key') = s.nextTrigger.lookup (triggerKey key') := by
  rcases reconcile_settles hout with ⟨hsame, -⟩ | ⟨next, unmet, ca, -, -, hset⟩
  · rw [hsame]
  · cases hset with
    | failed | replaced | known => rfl
    | queued =>
      apply Finmap.lookup_insert_of_ne
      exact fun h => hne (triggerKey_injective hk h.symm).symm

/-- What a reconcile remembers for its key was remembered before, or it asks for it. -/
theorem reconcile_lookup_self
    (hout : reconcile lib env ⟨resolve, s.nextTrigger⟩ fuel c key = some out) {next : Time}
    (hn : next ∈ out.nextTrigger.lookup (triggerKey key)) :
    next ∈ s.nextTrigger.lookup (triggerKey key) ∨
      Returned.Asks ⟨out.result, env.later, computedNext lib env fuel c key⟩ next := by
  rcases reconcile_settles hout with ⟨hsame, -⟩ | ⟨next', unmet, ca, hnext, -, hset⟩
  · rw [hsame] at hn
    exact Or.inl hn
  · cases hset with
    | failed | replaced | known => exact Or.inl hn
    | queued =>
      right
      rw [Finmap.lookup_insert] at hn
      obtain rfl := Option.some.inj hn
      exact ⟨hnext, rfl⟩

/-- A reconcile that leaves the queueing to an earlier one finds that wakeup waiting. -/
theorem accounted_reconcile (hl : lib.Documented) (hw : Woken s) (hk : ValidKey key)
    (hfree : s.inHand key = none) (hnow : s.now ≤ env.now) (hlater : env.now ≤ env.later)
    (hout : reconcile lib env ⟨resolve, s.nextTrigger⟩ fuel c key = some out) :
    Returned.Accounted ⟨out.result, env.later, computedNext lib env fuel c key⟩
      (take s.queue key) key := by
  refine ⟨(hw.clock.trans hnow).trans hlater, fun result hres next' hn => ?_⟩
  rcases reconcile_settles hout with ⟨-, hnone⟩ | ⟨next, unmet, ca, hnext, hsched, hset⟩
  · rw [hnone result hres] at hn
    cases hn
  · obtain rfl : next = next' := Option.some.inj (hnext.symm.trans hn)
    cases hset with
    | failed => cases hres
    | replaced => exact Or.inr (Or.inr (Or.inr (Except.ok.inj hres).symm))
    | queued => exact Or.inr (Or.inr (Or.inl ⟨hnext, rfl⟩))
    | known calls hknown =>
      rcases getScheduleTimes_next hl hsched with hz | hahead
      · exact Or.inl hz
      · -- The remembered time is more than a second ahead, so its wakeup still waits.
        rcases (hw.awaited hk hfree hknown).mono hnow with hcome | ⟨w, hwait, hle, -⟩
        · rw [one_mul] at hahead
          exact absurd hcome (not_le_of_gt hahead)
        · exact Or.inr (Or.inl (Or.inr ⟨w, hwait, hle⟩))

theorem woken_reconcile (hl : lib.Documented) (hw : Woken s)
    (hs : s.step lib (.reconcile key c env resolve fuel) = some t) : Woken t := by
  simp only [Controller.step] at hs
  split at hs
  · next hen =>
    obtain ⟨hkey, -, hfree, hnow, hlater⟩ := hen
    obtain ⟨out, hout, rfl⟩ := Option.map_eq_some_iff.mp hs
    constructor
    · exact hw.clock.trans hnow
    · intro key' hkey' next hn
      by_cases heq : key' = key
      · subst heq
        simp only [Function.update_self, take_waiting]
        rcases reconcile_lookup_self hout hn with hold | hasks
        · exact Or.inl ((hw.awaited hkey hfree hold).mono hnow)
        · exact Or.inr ⟨_, rfl, hasks⟩
      · simp only [Function.update_of_ne heq, take_waiting]
        rw [reconcile_lookup_of_ne hout hkey heq] at hn
        rcases hw.remembered key' hkey' next hn with hawait | hasks
        · exact Or.inl (hawait.mono hnow)
        · exact Or.inr hasks
    · intro key' ret hret
      by_cases heq : key' = key
      · subst heq
        simp only [Function.update_self, Option.mem_def, Option.some.injEq] at hret
        subst hret
        exact accounted_reconcile hl hw hkey hfree hnow hlater hout
      · simp only [Function.update_of_ne heq] at hret
        exact (hw.returned key' ret hret).mono fun _ h => h.take_of_ne heq
  · cases hs

end Reconciled

theorem woken_tick {now : Time} (hw : Woken s) (hs : s.step lib (.tick now) = some t) :
    Woken t := by
  simp only [Controller.step] at hs
  split at hs
  · next hnow =>
    obtain rfl := Option.some.inj hs
    constructor
    · exact hw.clock.trans hnow
    · intro key hkey next hn
      rcases hw.remembered key hkey next hn with hawait | hasks
      · exact Or.inl (hawait.mono hnow)
      · exact Or.inr hasks
    · exact hw.returned
  · cases hs

theorem woken_watch (hw : Woken s) (hs : s.step lib (.watch key) = some t) : Woken t := by
  obtain rfl := Option.some.inj hs
  constructor
  · exact hw.clock
  · exact hw.remembered
  · intro key' ret hret
    exact (hw.returned key' ret hret).mono fun _ => Pending.add

/-- A wakeup is delivered when its time has come, which is then at most a second ahead. -/
theorem woken_deliver (hw : Woken s) (hs : s.step lib (.deliver key) = some t) : Woken t := by
  obtain ⟨q, hq, rfl⟩ := Option.map_eq_some_iff.mp hs
  constructor
  · exact hw.clock
  · intro key' hkey' next hn
    rcases hw.remembered key' hkey' next hn with (hcome | ⟨w, hwait, hle, hnear⟩) | hasks
    · exact Or.inl (Or.inl hcome)
    · by_cases heq : key' = key
      · subst heq
        obtain ⟨v, hv, hdue, -⟩ := deliver_eq_some hq
        obtain rfl : w = v := Option.some.inj (hwait.symm.trans hv)
        exact Or.inl (Or.inl (hnear.trans (add_le_add_left hdue second)))
      · exact Or.inl (Or.inr ⟨w, (deliver_waiting_of_ne hq heq).trans hwait, hle, hnear⟩)
    · exact Or.inr hasks
  · intro key' ret hret
    exact (hw.returned key' ret hret).mono fun _ h => h.deliver hq

theorem woken_step (hl : lib.Documented) (s : Controller) (e : Event) (t : Controller)
    (hw : Woken s) (hk : Keeps s e) (hs : s.step lib e = some t) : Woken t := by
  cases e with
  | tick now => exact woken_tick hw hs
  | watch key => exact woken_watch hw hs
  | deliver key => exact woken_deliver hw hs
  | reconcile key c env resolve fuel => exact woken_reconcile hl hw hs
  | handle key backoff => exact woken_handle hw hk hs

theorem noLostWakeup_step (s : Controller) (e : Event) (t : Controller)
    (hw : Woken s) (hk : Keeps s e) (hs : s.step lib e = some t) : NoLostWakeup s e t := by
  rintro key backoff rfl ret hret result hres next hn
  have hret' : s.inHand key = some ret := hret
  obtain ⟨-, hT⟩ := hk ret hret
  simp only [Controller.step, hret'] at hs
  split at hs
  · obtain rfl := Option.some.inj hs
    exact pending_handled hw hret hT hres hn
  · cases hs

end Steps

section Hourly

theorem hourlyLibs_documented : hourlyLibs.Documented := by
  rintro schedule next (h | h)
  · obtain rfl := Except.ok.inj h
    have hhour : (0 : Int) < hour := by decide
    constructor
    · intro t
      exact Or.inr (Int.lt_ediv_add_one_mul_self t hhour)
    · intro t u hu _ _
      have hpos : 0 < u / hour + 1 := Int.lt_add_one_of_le (Int.ediv_nonneg hu hhour.le)
      exact (Int.mul_pos hpos hhour).ne'
  · cases h

/-- A controller that starts at one o'clock. -/
def startedController : Controller where
  now := hour
  nextTrigger := ∅
  queue := ⟨fun _ => false, fun _ => none⟩
  inHand _ := none

def hourlyCluster : Cluster where
  crons := [{ nightlyCron with creationTimestamp := hour }]
  objects := []

/-- A call of `Reconcile` whose list of children may fail. -/
def reconcileAt (now : Time) (listErr : Option ApiError) : Event :=
  .reconcile request hourlyCluster { quietEnv with now := now, later := now, listErr := listErr }
    (fun _ => some backups) 3

/-- The trigger of two o'clock is queued, comes due and is followed by the next one. -/
def punctualRun : List Event :=
  [.watch request, reconcileAt (hour + minute) none, .handle request 0,
    .watch request, reconcileAt (hour + 2 * minute) none, .handle request 0,
    .tick (2 * hour), .deliver request, reconcileAt (2 * hour) none, .handle request 0]

/-- After the trigger of two o'clock is queued, a failed attempt is retried at once. -/
def retriedRun : List Event :=
  [.watch request, reconcileAt (hour + minute) none, .handle request 0,
    .watch request, reconcileAt (hour + 2 * minute) (some (.other "timeout")),
    .handle request (second / 200),
    .tick (hour + 3 * minute), .deliver request, reconcileAt (hour + 3 * minute) none]

end Hourly

end ElCarro.Cron
