import ElCarro.Cron.Wakeup

/-! # The trigger history of a CronAnything

Creating a child and recording the trigger are two writes. The history tells the
truth about the children as long as the second one is stored whenever the first
one took effect.
-/

namespace ElCarro.Cron

open GoTime K8s

/-- One CronAnything, the objects of the cluster, and the triggers that got a child. -/
structure Scheduled where
  ca : CronAnything
  objects : List (GroupVersionResource × Unstructured)
  now : Time
  /-- The schedule times for which a child was created, latest first. -/
  created : List Time

def Call.isCreate : Call → Bool
  | .create _ _ _ _ => true
  | _ => false

def Call.isUpdate : Call → Bool
  | .updateStatus _ _ _ => true
  | _ => false

/-- Whether the answer to a call is not an error. -/
def Call.ok : Call → Bool
  | .delete _ _ _ ok | .create _ _ _ ok | .updateStatus _ _ ok => ok

/-- Writes of a reconcile that are carried out although their answer is an error. -/
structure Lost where
  create : Bool
  status : Bool

/--
The CronAnything is edited, other clients change objects of the cluster, or the CronAnything is
reconciled.
-/
inductive Change where
  | edit (spec : CronAnythingSpec) (deletionTimestamp : Option Time)
  | objects (objects : List (GroupVersionResource × Unstructured))
  | reconcile (env : Env) (r : Reconciler) (fuel : Nat) (lost : Lost)

namespace Scheduled

variable (lib : Libs)

def cluster (s : Scheduled) : Cluster := ⟨[s.ca], s.objects⟩

def key (s : Scheduled) : ObjectKey := ⟨s.ca.ns, s.ca.name⟩

/-- The schedule time that a reconcile works on, the latest unmet one. -/
def scheduleTime (s : Scheduled) (env : Env) (fuel : Nat) : Option Time :=
  match getScheduleTimes lib s.ca (env.now + 1 * second) fuel with
  | some (.ok (unmet, _)) => unmet.getLast?
  | _ => none

/-- Whether a write is carried out; a name that is taken is not created again. -/
def served (s : Scheduled) (lost : Lost) : Call → Bool
  | .delete _ _ _ ok => ok
  | .create resource ns obj ok => ok || (lost.create && !s.cluster.has resource ns obj.name)
  | .updateStatus _ _ ok => ok || lost.status

/-- The effect of a write that is carried out, for a trigger of the given time. -/
def perform (trigger : Option Time) (s : Scheduled) : Call → Scheduled
  | .delete resource ns name _ =>
    { s with objects :=
        s.objects.filter fun o => ¬ (o.1 = resource ∧ o.2.ns = ns ∧ o.2.name = name) }
  | .create resource ns obj _ =>
    { s with
      objects := s.objects ++ [(resource, { obj with ns := ns })]
      created := trigger.toList ++ s.created }
  | .updateStatus _ status _ => { s with ca := { s.ca with status := status } }

def step (s : Scheduled) : Change → Option Scheduled
  | .edit spec deletionTimestamp =>
    some { s with ca := { s.ca with spec := spec, deletionTimestamp := deletionTimestamp } }
  | .objects objects => some { s with objects := objects }
  | .reconcile env r fuel lost =>
    if s.now ≤ env.now then
      (reconcile lib env r fuel s.cluster s.key).map fun out =>
        (out.calls.filter (s.served lost)).foldl (perform (s.scheduleTime lib env fuel))
          { s with now := env.now }
    else none

/-- A CronAnything that has just been created. -/
structure Fresh (s : Scheduled) : Prop where
  status : s.ca.status = ⟨none, [], none⟩
  created : s.created = []
  creation : 0 ≤ s.ca.creationTimestamp
  clock : s.ca.creationTimestamp ≤ s.now

/-- The time is set and has not moved back. -/
def NotBefore : Option Time → Option Time → Prop
  | none, _ => True
  | some last, some last' => last ≤ last'
  | some _, none => False

/--
No schedule time has two children, and a record of the history says that the child of its time was
created exactly when it was.
-/
structure Truthful (s : Scheduled) : Prop where
  once : s.created.Nodup
  records : ∀ record ∈ s.ca.status.triggerHistory,
    record.result = .createSucceeded ↔ record.scheduleTime ∈ s.created

/-- What the history promises of one step. -/
def Recounts (s : Scheduled) (_ : Change) (t : Scheduled) : Prop :=
  NotBefore s.ca.status.lastScheduleTime t.ca.status.lastScheduleTime ∧ Truthful t

/--
When the child of a trigger comes into being, the answer to the create call says so and the status
update that follows is stored.
-/
def Recorded (s : Scheduled) : Change → Prop
  | .reconcile env r fuel lost =>
    ∀ out ∈ reconcile lib env r fuel s.cluster s.key, ∀ call ∈ out.calls,
      call.isCreate = true → s.served lost call = true →
        call.ok = true ∧ ∀ update ∈ out.calls, update.isUpdate = true →
          s.served lost update = true
  | _ => True

instance (s : Scheduled) : (e : Change) → Decidable (Recorded lib s e)
  | .reconcile env r fuel lost => inferInstanceAs (Decidable
      (∀ out ∈ reconcile lib env r fuel s.cluster s.key, ∀ call ∈ out.calls,
        call.isCreate = true → s.served lost call = true →
          call.ok = true ∧ ∀ update ∈ out.calls, update.isUpdate = true →
            s.served lost update = true))
  | .edit _ _ | .objects _ => .isTrue trivial

end Scheduled

section Writes

variable {lib : Libs} {env : Env} {r : Reconciler} {ca : CronAnything} {c : Cluster}
  {crt : Unstructured} {resource : GroupVersionResource} {children : List Unstructured}
  {calls : List Call} {stored : CronAnythingStatus} {scheduleTime next : Time}

/-- The call only deletes an object. -/
def Call.IsDelete : Call → Prop
  | .delete _ _ _ _ => True
  | _ => False

/-- The calls that end the work on a trigger, given the status stored before them. -/
inductive Closing (now scheduleTime : Time) (stored : CronAnythingStatus) : List Call → Prop where
  | replaced {deletes : List Call} (h : ∀ call ∈ deletes, call.IsDelete) :
      Closing now scheduleTime stored deletes
  | closed {result : TriggerResult} (key : ObjectKey) (ok : Bool)
      (h : result ≠ .createSucceeded ∨ ∃ pending ∈ stored.pendingTrigger,
        result = pending.result) :
      Closing now scheduleTime stored
        [.updateStatus key (recordTrigger scheduleTime now result stored) ok]
  | created (resource : GroupVersionResource) (ns : String) (child : Unstructured)
      (key : ObjectKey) (ok : Bool) :
      Closing now scheduleTime stored [.create resource ns child true,
        .updateStatus key (recordTrigger scheduleTime now .createSucceeded stored) ok]
  | failed (resource : GroupVersionResource) (ns : String) (child : Unstructured)
      (key : ObjectKey) (ok : Bool) :
      Closing now scheduleTime stored [.create resource ns child false,
        .updateStatus key
          { stored with pendingTrigger := some ⟨scheduleTime, .createFailed⟩ } ok]

theorem updateCronAnythingStatus_eq (env : Env) (call : Nat) (key : ObjectKey)
    (stored : CronAnythingStatus) (f : CronAnythingStatus → CronAnythingStatus) :
    (∃ err, updateCronAnythingStatus env call key stored f =
        ([.updateStatus key (f stored) false], stored, .error err)) ∨
      updateCronAnythingStatus env call key stored f =
        ([.updateStatus key (f stored) true], f stored, .ok ()) := by
  unfold updateCronAnythingStatus
  split
  · exact Or.inr rfl
  · exact Or.inl ⟨_, rfl⟩

theorem updateTriggerTimes_calls :
    (updateTriggerTimes env r ca calls next).calls = calls := by
  unfold updateTriggerTimes
  split <;> rfl

theorem closeTrigger_calls {call : Nat} {f : CronAnythingStatus → CronAnythingStatus} :
    ∃ ok, (closeTrigger env r ca call calls stored f next).calls =
      calls ++ [.updateStatus ⟨ca.ns, ca.name⟩ (f stored) ok] := by
  unfold closeTrigger
  rcases updateCronAnythingStatus_eq env call ⟨ca.ns, ca.name⟩ stored f with ⟨err, h⟩ | h
  · rw [h]
    exact ⟨false, rfl⟩
  · rw [h]
    exact ⟨true, updateTriggerTimes_calls⟩

theorem closed_calls {result : TriggerResult} (h : result ≠ .createSucceeded) :
    ∃ closing, Closing env.now scheduleTime stored closing ∧
      (closeTrigger env r ca 1 calls stored (recordTrigger scheduleTime env.now result)
        next).calls = calls ++ closing := by
  obtain ⟨ok, heq⟩ := closeTrigger_calls
  exact ⟨_, .closed _ ok (Or.inl h), heq⟩

/-- A trigger past its deadline is closed like the others, with the result found in the status. -/
theorem recordDeadline_eq (scheduleTime now : Time) (status : CronAnythingStatus) :
    ∃ result, recordDeadline scheduleTime now status = recordTrigger scheduleTime now result status ∧
      (result ≠ .createSucceeded ∨ ∃ pending ∈ status.pendingTrigger, result = pending.result) := by
  refine ⟨_, rfl, ?_⟩
  split
  · next pending hp =>
    split
    · exact Or.inr ⟨pending, hp, rfl⟩
    · exact Or.inl nofun
  · exact Or.inl nofun

theorem createChild_calls : ∃ closing, Closing env.now scheduleTime stored closing ∧
    (createChild lib env r ca c crt resource calls stored scheduleTime next).calls =
      calls ++ closing := by
  unfold createChild
  dsimp only
  split
  · rcases updateCronAnythingStatus_eq env 1 ⟨ca.ns, ca.name⟩ stored fun freshStatus =>
        { freshStatus with pendingTrigger := some ⟨scheduleTime, .createFailed⟩ } with ⟨err, h⟩ | h
    · rw [h]
      exact ⟨_, .failed resource ca.ns (childFor lib ca crt scheduleTime) ⟨ca.ns, ca.name⟩ false,
        List.append_assoc _ _ _⟩
    · rw [h]
      exact ⟨_, .failed resource ca.ns (childFor lib ca crt scheduleTime) ⟨ca.ns, ca.name⟩ true,
        List.append_assoc _ _ _⟩
  · obtain ⟨ok, h⟩ := closeTrigger_calls
    rw [h]
    exact ⟨_, .created resource ca.ns (childFor lib ca crt scheduleTime) ⟨ca.ns, ca.name⟩ ok,
      List.append_assoc _ _ _⟩

theorem replaceActive_isDelete :
    ∀ call ∈ (replaceActive env resource children).1, call.IsDelete := by
  induction children with
  | nil => simp [replaceActive]
  | cons child rest ih =>
    unfold replaceActive
    split
    · exact ih
    · split
      · simp [Call.IsDelete]
      · intro call hc
        rcases List.mem_cons.mp hc with rfl | hc
        · trivial
        · exact ih call hc

theorem handleTrigger_calls : ∃ closing, Closing env.now scheduleTime stored closing ∧
    (handleTrigger lib env r ca c crt resource children calls stored scheduleTime next).calls =
      calls ++ closing := by
  have hactive : ∀ call ∈ (replaceActive env resource
      (findActiveChildResources lib ca children)).1, call.IsDelete := replaceActive_isDelete
  unfold handleTrigger
  split
  · obtain ⟨ok, h⟩ := closeTrigger_calls
    obtain ⟨result, heq, hres⟩ := recordDeadline_eq scheduleTime env.now stored
    rw [h, heq]
    exact ⟨_, .closed _ ok hres, rfl⟩
  · dsimp only
    split
    · exact closed_calls nofun
    · split
      · split
        · next heq =>
          rw [heq] at hactive
          exact ⟨_, .replaced hactive, rfl⟩
        · next heq =>
          rw [heq] at hactive
          exact ⟨_, .replaced hactive, rfl⟩
      · split
        · exact closed_calls nofun
        · exact createChild_calls

/-- The writes of a reconcile for the unmet times, after the cleanup. -/
inductive Working (now : Time) (status : CronAnythingStatus) (unmet : List Time) :
    List Call → Prop where
  | idle (h : unmet = []) : Working now status unmet []
  | single {closing : List Call} (scheduleTime : Time) (h : unmet.getLast? = some scheduleTime)
      (hc : Closing now scheduleTime status closing) : Working now status unmet closing
  | undropped {result : TriggerResult} (latestDropped : Time) (key : ObjectKey)
      (hd : unmet.dropLast.getLast? = some latestDropped)
      (hr : result ≠ .createSucceeded ∨ ∃ pending ∈ status.pendingTrigger,
        result = pending.result) :
      Working now status unmet
        [.updateStatus key (recordTrigger latestDropped now result status) false]
  | dropped {result : TriggerResult} {closing : List Call} (latestDropped scheduleTime : Time)
      (key : ObjectKey) (hd : unmet.dropLast.getLast? = some latestDropped)
      (hr : result ≠ .createSucceeded ∨ ∃ pending ∈ status.pendingTrigger,
        result = pending.result)
      (h : unmet.getLast? = some scheduleTime)
      (hc : Closing now scheduleTime (recordTrigger latestDropped now result status) closing) :
      Working now status unmet
        (.updateStatus key (recordTrigger latestDropped now result status) true :: closing)

theorem droppedRecord_eq (env : Env) (ca : CronAnything) (dropped : List Time)
    (latestDropped : Time) :
    ∃ result, droppedRecord env ca dropped latestDropped = ⟨latestDropped, env.now, result⟩ ∧
      (result ≠ .createSucceeded ∨ ∃ pending ∈ ca.status.pendingTrigger,
        result = pending.result) := by
  refine ⟨_, rfl, ?_⟩
  split
  · next pending hp =>
    split
    · exact Or.inr ⟨pending, hp, rfl⟩
    · exact Or.inl nofun
  · exact Or.inl nofun

theorem handleUnmet_calls {unmet : List Time} :
    ∃ work, Working env.now ca.status unmet work ∧
      (handleUnmet lib env r ca c crt resource children calls unmet next).calls =
        calls ++ work := by
  unfold handleUnmet
  split
  · next h =>
    refine ⟨[], .idle (List.getLast?_eq_none_iff.mp h), ?_⟩
    rw [updateTriggerTimes_calls, List.append_nil]
  · next scheduleTime h =>
    split
    · obtain ⟨closing, hc, heq⟩ := handleTrigger_calls
      exact ⟨closing, .single scheduleTime h hc, heq⟩
    · next latestDropped hd =>
      obtain ⟨result, hrec, hr⟩ := droppedRecord_eq env ca unmet.dropLast latestDropped
      rw [hrec]
      rcases updateCronAnythingStatus_eq env 0 ⟨ca.ns, ca.name⟩ ca.status
          (recordTrigger latestDropped env.now result) with ⟨err, hu⟩ | hu
      · unfold recordTrigger at hu
        rw [hu]
        exact ⟨_, .undropped latestDropped ⟨ca.ns, ca.name⟩ hd hr, rfl⟩
      · unfold recordTrigger at hu
        rw [hu]
        obtain ⟨closing, hc, heq⟩ := handleTrigger_calls
        refine ⟨_, .dropped latestDropped scheduleTime ⟨ca.ns, ca.name⟩ hd hr h hc, ?_⟩
        exact heq.trans (List.append_assoc _ _ _)

theorem cleanupHistory_isDelete {remaining : List Unstructured}
    (h : cleanupHistory lib ca env resource children = some (calls, remaining)) :
    ∀ call ∈ calls, call.IsDelete := by
  have hdel : ∀ items, ∀ call ∈ deleteChildren env resource items, call.IsDelete := by
    intro items call hc
    obtain ⟨child, -, rfl⟩ := List.mem_map.mp hc
    trivial
  unfold cleanupHistory at h
  split at h
  · cases h
    simp
  · split at h
    · cases h
      simp
    · simp only [Option.bind_eq_bind, Option.bind_eq_some_iff, Option.pure_def,
        Option.some.injEq] at h
      obtain ⟨cache, -, selected, -, h⟩ := h
      unfold deleteInactiveResources at h
      cases h
      exact hdel selected

/-- A reconcile makes no call but deletes, or it gets to the unmet times of its CronAnything. -/
theorem reconcile_cases {key : ObjectKey} {fuel : Nat} {out : Outcome}
    (h : reconcile lib env r fuel c key = some out) :
    (∀ call ∈ out.calls, call.IsDelete) ∨
      ∃ ca crt resource deletes remaining unmet next, c.getCron key = some ca ∧
        cleanupHistory lib ca env resource (c.list resource ca.name) =
          some (deletes, remaining) ∧
        getScheduleTimes lib ca (env.now + 1 * second) fuel = some (.ok (unmet, next)) ∧
        out = handleUnmet lib env r ca c crt resource remaining deletes unmet next := by
  have hnone : ∀ call ∈ ([] : List Call), call.IsDelete := by simp
  unfold reconcile at h
  split at h
  · cases h
    exact Or.inl hnone
  · cases h
    exact Or.inl hnone
  · split at h
    · cases h
      exact Or.inl hnone
    · next ca hca =>
      split at h
      · cases h
        exact Or.inl hnone
      · split at h
        · cases h
          exact Or.inl hnone
        · next crt _ =>
          split at h
          · cases h
            exact Or.inl hnone
          · next resource _ =>
            split at h
            · cases h
              exact Or.inl hnone
            · split at h
              · cases h
              · next deletes remaining hclean =>
                have hdel := cleanupHistory_isDelete hclean
                split at h
                · cases h
                  exact Or.inl hdel
                · split at h
                  · cases h
                  · cases h
                    exact Or.inl hdel
                  · next unmet next hsched =>
                    exact Or.inr ⟨ca, crt, resource, deletes, remaining, unmet, next, hca, hclean,
                      hsched, (Option.some.inj h).symm⟩

/-- A reconcile deletes children and then works on the unmet times of its CronAnything. -/
theorem reconcile_calls {key : ObjectKey} {fuel : Nat} {out : Outcome}
    (hca : c.getCron key = some ca) (h : reconcile lib env r fuel c key = some out) :
    (∀ call ∈ out.calls, call.IsDelete) ∨
      ∃ deletes work unmet next, out.calls = deletes ++ work ∧
        (∀ call ∈ deletes, call.IsDelete) ∧
        getScheduleTimes lib ca (env.now + 1 * second) fuel = some (.ok (unmet, next)) ∧
        Working env.now ca.status unmet work := by
  rcases reconcile_cases h with
    hdel | ⟨ca', crt, resource, deletes, remaining, unmet, next, hca', hclean, hsched, rfl⟩
  · exact Or.inl hdel
  · obtain rfl : ca = ca' := Option.some.inj (hca.symm.trans hca')
    obtain ⟨work, hw, heq⟩ := handleUnmet_calls
    exact Or.inr ⟨deletes, work, unmet, next, heq, cleanupHistory_isDelete hclean, hsched, hw⟩

end Writes

section Sound

variable {status : CronAnythingStatus} {created : List Time} {scheduleTime now : Time}
  {result : TriggerResult}

/--
A status that agrees with the children created so far, all of which are of its last schedule time
or before.
-/
structure Sound (status : CronAnythingStatus) (created : List Time) : Prop where
  once : created.Nodup
  records : ∀ record ∈ status.triggerHistory,
    record.result = .createSucceeded ↔ record.scheduleTime ∈ created
  created_le : ∀ t ∈ created, ∃ last ∈ status.lastScheduleTime, t ≤ last
  records_le : ∀ record ∈ status.triggerHistory,
    ∃ last ∈ status.lastScheduleTime, record.scheduleTime ≤ last
  pending : ∀ pending ∈ status.pendingTrigger, pending.result = .createFailed

/-- The time comes after the last schedule time of the status. -/
def After (status : CronAnythingStatus) (scheduleTime : Time) : Prop :=
  ∀ last ∈ status.lastScheduleTime, last < scheduleTime

theorem recordTrigger_last (h : After status scheduleTime) :
    (recordTrigger scheduleTime now result status).lastScheduleTime = some scheduleTime := by
  have hupdate : (updateLastScheduleTime status scheduleTime).lastScheduleTime =
      some scheduleTime := by
    unfold updateLastScheduleTime
    split
    · rfl
    · next last hl => rw [if_pos (h last hl)]
  exact hupdate

theorem updateLastScheduleTime_history :
    (updateLastScheduleTime status scheduleTime).triggerHistory = status.triggerHistory := by
  unfold updateLastScheduleTime
  split
  · rfl
  · split <;> rfl

theorem mem_recordTrigger_history {record : TriggerHistoryRecord}
    (h : record ∈ (recordTrigger scheduleTime now result status).triggerHistory) :
    record = ⟨scheduleTime, now, result⟩ ∨ record ∈ status.triggerHistory := by
  have hmem := List.mem_of_mem_take h
  rw [List.mem_cons] at hmem
  rcases hmem with rfl | hmem
  · exact Or.inl rfl
  · right
    exact updateLastScheduleTime_history ▸ hmem

theorem Sound.notMem_created (hs : Sound status created) (h : After status scheduleTime) :
    scheduleTime ∉ created := by
  intro hmem
  obtain ⟨last, hl, hle⟩ := hs.created_le scheduleTime hmem
  exact absurd (h last hl) (not_lt_of_ge hle)

theorem Sound.created_lt (hs : Sound status created) (h : After status scheduleTime) {t : Time}
    (ht : t ∈ created) : t ≤ scheduleTime := by
  obtain ⟨last, hl, hle⟩ := hs.created_le t ht
  exact hle.trans (h last hl).le

/-- The records kept by a trigger that is closed are of its time or before. -/
theorem Sound.recordTrigger_le (hs : Sound status created) (h : After status scheduleTime) :
    ∀ record ∈ (recordTrigger scheduleTime now result status).triggerHistory,
      ∃ last ∈ (recordTrigger scheduleTime now result status).lastScheduleTime,
        record.scheduleTime ≤ last := by
  intro record hmem
  refine ⟨scheduleTime, recordTrigger_last h, ?_⟩
  rcases mem_recordTrigger_history hmem with rfl | hold
  · exact le_rfl
  · obtain ⟨last, hl, hle⟩ := hs.records_le record hold
    exact hle.trans (h last hl).le

theorem Sound.close (hs : Sound status created) (h : After status scheduleTime)
    (hr : result ≠ .createSucceeded ∨ ∃ pending ∈ status.pendingTrigger,
      result = pending.result) :
    Sound (recordTrigger scheduleTime now result status) created where
  once := hs.once
  records := by
    have hres : result ≠ .createSucceeded := by
      rcases hr with hr | ⟨pending, hp, rfl⟩
      · exact hr
      · rw [hs.pending pending hp]
        exact nofun
    intro record hmem
    rcases mem_recordTrigger_history hmem with rfl | hold
    · exact iff_of_false hres (hs.notMem_created h)
    · exact hs.records record hold
  created_le t ht := ⟨scheduleTime, recordTrigger_last h, hs.created_lt h ht⟩
  records_le := hs.recordTrigger_le h
  pending pending hp := by cases hp

theorem Sound.create (hs : Sound status created) (h : After status scheduleTime) :
    Sound (recordTrigger scheduleTime now .createSucceeded status)
      (scheduleTime :: created) where
  once := List.nodup_cons.mpr ⟨hs.notMem_created h, hs.once⟩
  records := by
    intro record hmem
    rcases mem_recordTrigger_history hmem with rfl | hold
    · simp
    · have hne : record.scheduleTime ≠ scheduleTime := by
        obtain ⟨last, hl, hle⟩ := hs.records_le record hold
        exact (lt_of_le_of_lt hle (h last hl)).ne
      rw [List.mem_cons, or_iff_right hne]
      exact hs.records record hold
  created_le t ht := by
    refine ⟨scheduleTime, recordTrigger_last h, ?_⟩
    rcases List.mem_cons.mp ht with rfl | ht
    · exact le_rfl
    · exact hs.created_lt h ht
  records_le := hs.recordTrigger_le h
  pending pending hp := by cases hp

theorem Sound.fail (hs : Sound status created) :
    Sound { status with pendingTrigger := some ⟨scheduleTime, .createFailed⟩ } created where
  once := hs.once
  records := hs.records
  created_le := hs.created_le
  records_le := hs.records_le
  pending pending hp := by
    obtain rfl := Option.some.inj hp
    rfl

end Sound

namespace Scheduled

section Steps

variable {lib : Libs} {s t : Scheduled} {trigger : Option Time} {now scheduleTime : Time}

/-- A sound CronAnything whose last schedule time is in the past, up to a second. -/
structure Settled (s : Scheduled) : Prop where
  sound : Sound s.ca.status s.created
  creation : 0 ≤ s.ca.creationTimestamp
  clock : s.ca.creationTimestamp ≤ s.now
  last : ∀ last ∈ s.ca.status.lastScheduleTime, 0 ≤ last ∧ last < s.now + second

/-- The status stays sound and its last schedule time stays or becomes one of the unmet times. -/
structure Advances (unmet : List Time) (s t : Scheduled) : Prop where
  sound : Sound t.ca.status t.created
  last : t.ca.status.lastScheduleTime = s.ca.status.lastScheduleTime ∨
    ∃ scheduleTime ∈ unmet, t.ca.status.lastScheduleTime = some scheduleTime
  now : t.now = s.now
  creation : t.ca.creationTimestamp = s.ca.creationTimestamp

theorem Advances.trans {unmet : List Time} {s t u : Scheduled} (h : Advances unmet s t)
    (h' : Advances unmet t u) : Advances unmet s u where
  sound := h'.sound
  last := by
    rcases h'.last with hlast | hlast
    · rw [hlast]
      exact h.last
    · exact Or.inr hlast
  now := h'.now.trans h.now
  creation := h'.creation.trans h.creation

theorem foldl_deletes {calls : List Call} (h : ∀ call ∈ calls, call.IsDelete) (s : Scheduled) :
    ∃ objects, calls.foldl (perform trigger) s = { s with objects := objects } := by
  induction calls generalizing s with
  | nil => exact ⟨s.objects, rfl⟩
  | cons call rest ih =>
    obtain ⟨objects, heq⟩ :=
      ih (fun c hc => h c (List.mem_cons_of_mem _ hc)) (perform trigger s call)
    cases call with
    | delete resource ns name ok => exact ⟨objects, heq⟩
    | create | updateStatus => exact (h _ List.mem_cons_self).elim

theorem advances_deletes {unmet : List Time} {calls : List Call}
    (h : ∀ call ∈ calls, call.IsDelete) (hs : Sound s.ca.status s.created) :
    Advances unmet s (calls.foldl (perform trigger) s) := by
  obtain ⟨objects, heq⟩ := foldl_deletes h s
  rw [heq]
  exact ⟨hs, Or.inl rfl, rfl, rfl⟩

theorem advances_close {unmet : List Time} {result : TriggerResult}
    (hs : Sound s.ca.status s.created) (ha : After s.ca.status scheduleTime)
    (hmem : scheduleTime ∈ unmet)
    (hr : result ≠ .createSucceeded ∨ ∃ pending ∈ s.ca.status.pendingTrigger,
      result = pending.result) (now : Time) (trigger : Option Time)
    (key : ObjectKey) (ok : Bool) :
    Advances unmet s (perform trigger s
      (.updateStatus key (recordTrigger scheduleTime now result s.ca.status) ok)) :=
  ⟨hs.close ha hr, Or.inr ⟨scheduleTime, hmem, recordTrigger_last ha⟩, rfl, rfl⟩

/-- Which writes are carried out, as far as the history depends on it. -/
structure Obeys (serves : Call → Bool) (calls : List Call) : Prop where
  created : ∀ resource ns obj, .create resource ns obj true ∈ calls →
    serves (.create resource ns obj true) = true
  failed : ∀ resource ns obj, .create resource ns obj false ∈ calls →
    serves (.create resource ns obj false) = false
  recorded : ∀ resource ns obj, .create resource ns obj true ∈ calls →
    ∀ key status ok, .updateStatus key status ok ∈ calls →
      serves (.updateStatus key status ok) = true

/-- The calls that close a trigger advance the history to it, or leave it as it is. -/
theorem advances_closing {serves : Call → Bool} {closing : List Call} {unmet : List Time}
    (hc : Closing now scheduleTime s.ca.status closing) (ho : Obeys serves closing)
    (hs : Sound s.ca.status s.created) (ha : After s.ca.status scheduleTime)
    (hmem : scheduleTime ∈ unmet) :
    Advances unmet s ((closing.filter serves).foldl (perform (some scheduleTime)) s) := by
  cases hc with
  | replaced h =>
    apply advances_deletes _ hs
    exact fun call hcall => h call (List.mem_of_mem_filter hcall)
  | closed key ok hr =>
    rw [List.filter_cons, List.filter_nil]
    split
    · exact advances_close hs ha hmem hr now (some scheduleTime) key ok
    · exact ⟨hs, Or.inl rfl, rfl, rfl⟩
  | created resource ns child key ok =>
    have hcreate := ho.created resource ns child (by simp)
    have hstatus := ho.recorded resource ns child (by simp) key _ ok
      (List.mem_cons_of_mem _ List.mem_cons_self)
    rw [List.filter_cons_of_pos hcreate, List.filter_cons_of_pos hstatus]
    exact ⟨hs.create ha, Or.inr ⟨scheduleTime, hmem, recordTrigger_last ha⟩, rfl, rfl⟩
  | failed resource ns child key ok =>
    have hcreate := ho.failed resource ns child (by simp)
    rw [List.filter_cons_of_neg (by simp [hcreate]), List.filter_cons, List.filter_nil]
    split
    · exact ⟨hs.fail, Or.inl rfl, rfl, rfl⟩
    · exact ⟨hs, Or.inl rfl, rfl, rfl⟩

theorem Obeys.of_subset {serves : Call → Bool} {calls calls' : List Call} (h : Obeys serves calls)
    (hsub : calls' ⊆ calls) : Obeys serves calls' where
  created resource ns obj hc := h.created resource ns obj (hsub hc)
  failed resource ns obj hc := h.failed resource ns obj (hsub hc)
  recorded resource ns obj hc key status ok hu :=
    h.recorded resource ns obj (hsub hc) key status ok (hsub hu)

/-- The latest dropped time and the schedule time are unmet times, in this order. -/
theorem dropped_lt {unmet : List Time} {latestDropped : Time} (hp : unmet.Pairwise (· < ·))
    (hd : unmet.dropLast.getLast? = some latestDropped)
    (hl : unmet.getLast? = some scheduleTime) :
    latestDropped ∈ unmet ∧ latestDropped < scheduleTime := by
  obtain ⟨ys, rfl⟩ := List.getLast?_eq_some_iff.mp hl
  rw [List.dropLast_concat] at hd
  have hmem : latestDropped ∈ ys := List.mem_of_getLast? hd
  constructor
  · exact List.mem_append_left _ hmem
  · exact (List.pairwise_append.mp hp).2.2 _ hmem _ (List.mem_singleton_self _)

/-- The work on the unmet times advances the history. -/
theorem advances_working {serves : Call → Bool} {work : List Call} {unmet : List Time}
    (hw : Working now s.ca.status unmet work) (ho : Obeys serves work)
    (hok : ∀ key status, serves (.updateStatus key status true) = true)
    (hs : Sound s.ca.status s.created) (hp : unmet.Pairwise (· < ·))
    (ha : ∀ t ∈ unmet, After s.ca.status t) :
    Advances unmet s ((work.filter serves).foldl (perform unmet.getLast?) s) := by
  cases hw with
  | idle => exact ⟨hs, Or.inl rfl, rfl, rfl⟩
  | single scheduleTime hl hc =>
    have hmem := List.mem_of_getLast? hl
    rw [hl]
    exact advances_closing hc ho hs (ha scheduleTime hmem) hmem
  | undropped latestDropped key hd hr =>
    have hmem : latestDropped ∈ unmet := List.dropLast_subset _ (List.mem_of_getLast? hd)
    have hafter := ha latestDropped hmem
    rw [List.filter_cons, List.filter_nil]
    split
    · exact advances_close hs hafter hmem hr now unmet.getLast? key false
    · exact ⟨hs, Or.inl rfl, rfl, rfl⟩
  | dropped latestDropped scheduleTime key hd hr hl hc =>
    obtain ⟨hmem, hlt⟩ := dropped_lt hp hd hl
    have hafter := ha latestDropped hmem
    rw [List.filter_cons_of_pos (hok key _), List.foldl_cons, hl]
    have hfirst := advances_close hs hafter hmem hr now (some scheduleTime) key true
    apply hfirst.trans
    apply advances_closing hc (ho.of_subset (List.subset_cons_self _ _)) hfirst.sound
    · intro last hlast
      obtain rfl := Option.some.inj ((recordTrigger_last hafter).symm.trans hlast)
      exact hlt
    · exact List.mem_of_getLast? hl

theorem settled_fresh (h : Fresh s) : Settled s := by
  have hsound : Sound s.ca.status s.created := by
    rw [h.status, h.created]
    constructor <;> simp
  refine ⟨hsound, h.creation, h.clock, ?_⟩
  rw [h.status]
  simp

theorem getCron_cluster (s : Scheduled) : s.cluster.getCron s.key = some s.ca := by
  simp [Cluster.getCron, cluster, key]

/-- The unmet times of a settled CronAnything come after its last schedule time. -/
theorem Settled.unmet (hl : lib.Documented) (h : Settled s) {env : Env} {fuel : Nat}
    {unmet : List Time} {next : Time} (hnow : s.now ≤ env.now)
    (hu : getScheduleTimes lib s.ca (env.now + 1 * second) fuel = some (.ok (unmet, next))) :
    unmet.Pairwise (· < ·) ∧
      ∀ t ∈ unmet, After s.ca.status t ∧ 0 ≤ t ∧ t < env.now + second := by
  have hsecond : (0 : Duration) < second := by decide
  have hstart : 0 ≤ s.ca.status.lastScheduleTime.getD s.ca.creationTimestamp ∧
      s.ca.status.lastScheduleTime.getD s.ca.creationTimestamp < env.now + second := by
    cases hlast : s.ca.status.lastScheduleTime with
    | none =>
      exact ⟨h.creation, (h.clock.trans hnow).trans_lt (lt_add_of_pos_right _ hsecond)⟩
    | some last =>
      obtain ⟨hpos, hlt⟩ := h.last last hlast
      exact ⟨hpos, hlt.trans_le (add_le_add_left hnow second)⟩
  rw [one_mul] at hu
  obtain ⟨hp, hall⟩ := getScheduleTimes_unmet hl hstart.1 hstart.2 hu
  refine ⟨hp, fun t ht => ?_⟩
  obtain ⟨hlt, hnow'⟩ := hall t ht
  refine ⟨fun last hlast => ?_, hstart.1.trans hlt.le, hnow'⟩
  rwa [hlast, Option.getD_some] at hlt

/-- Under the condition, the writes of a reconcile are carried out as the history needs it. -/
theorem obeys_of_recorded {env : Env} {r : Reconciler} {fuel : Nat} {lost : Lost}
    (hr : Recorded lib s (.reconcile env r fuel lost)) {out : Outcome}
    (hout : reconcile lib env r fuel s.cluster s.key = some out) :
    Obeys (s.served lost) out.calls where
  created _ _ _ _ := rfl
  failed resource ns obj hc := by
    by_contra hne
    obtain ⟨hok, -⟩ := hr out hout _ hc rfl (Bool.of_not_eq_false hne)
    cases hok
  recorded resource ns obj hc key status ok hu := (hr out hout _ hc rfl rfl).2 _ hu rfl

theorem advances_reconcile (hl : lib.Documented) {env : Env} {r : Reconciler} {fuel : Nat}
    {lost : Lost} (h : Settled s) (hr : Recorded lib s (.reconcile env r fuel lost))
    (hs : s.step lib (.reconcile env r fuel lost) = some t) :
    s.now ≤ env.now ∧ ∃ unmet,
      (∀ t ∈ unmet, After s.ca.status t ∧ 0 ≤ t ∧ t < env.now + second) ∧
      Advances unmet { s with now := env.now } t := by
  simp only [step] at hs
  split at hs
  · next hnow =>
    obtain ⟨out, hout, rfl⟩ := Option.map_eq_some_iff.mp hs
    have ho := obeys_of_recorded hr hout
    refine ⟨hnow, ?_⟩
    rcases reconcile_calls s.getCron_cluster hout with
      hdel | ⟨deletes, work, unmet, next, hcalls, hdel, hsched, hw⟩
    · refine ⟨[], by simp, ?_⟩
      apply advances_deletes (s := { s with now := env.now }) _ h.sound
      exact fun call hcall => hdel call (List.mem_of_mem_filter hcall)
    · obtain ⟨hp, hall⟩ := h.unmet hl hnow hsched
      have htrigger : s.scheduleTime lib env fuel = unmet.getLast? := by
        simp only [scheduleTime, hsched]
      rw [hcalls] at ho
      rw [hcalls, htrigger, List.filter_append, List.foldl_append]
      obtain ⟨objects, heq⟩ := foldl_deletes
        (fun call hcall => hdel call (List.mem_of_mem_filter hcall)) { s with now := env.now }
      rw [heq]
      refine ⟨unmet, hall, ?_⟩
      have hworking := advances_working (s := { s with now := env.now, objects := objects })
        hw (ho.of_subset (List.subset_append_right _ _)) (fun _ _ => rfl) h.sound hp
        (fun t ht => (hall t ht).1)
      exact ⟨hworking.sound, hworking.last, hworking.now, hworking.creation⟩
  · cases hs

theorem settled_reconcile (hl : lib.Documented) {env : Env} {r : Reconciler} {fuel : Nat}
    {lost : Lost} (h : Settled s) (hr : Recorded lib s (.reconcile env r fuel lost))
    (hs : s.step lib (.reconcile env r fuel lost) = some t) : Settled t := by
  obtain ⟨hnow, unmet, hall, hadv⟩ := advances_reconcile hl h hr hs
  constructor
  · exact hadv.sound
  · rw [hadv.creation]
    exact h.creation
  · rw [hadv.creation, hadv.now]
    exact h.clock.trans hnow
  · intro last hlast
    rw [hadv.now]
    rcases hadv.last with heq | ⟨scheduleTime, hmem, heq⟩
    · rw [heq] at hlast
      obtain ⟨hpos, hlt⟩ := h.last last hlast
      exact ⟨hpos, hlt.trans_le (add_le_add_left hnow second)⟩
    · obtain rfl := Option.some.inj (heq.symm.trans hlast)
      exact (hall _ hmem).2

theorem settled_step (hl : lib.Documented) (s : Scheduled) (e : Change) (t : Scheduled)
    (h : Settled s) (hr : Recorded lib s e) (hs : s.step lib e = some t) : Settled t := by
  cases e with
  | edit spec deletionTimestamp =>
    obtain rfl := Option.some.inj hs
    exact ⟨h.sound, h.creation, h.clock, h.last⟩
  | objects objects =>
    obtain rfl := Option.some.inj hs
    exact ⟨h.sound, h.creation, h.clock, h.last⟩
  | reconcile env r fuel lost => exact settled_reconcile hl h hr hs

theorem Settled.truthful (h : Settled s) : Truthful s := ⟨h.sound.once, h.sound.records⟩

theorem notBefore_refl (last : Option Time) : NotBefore last last := by
  cases last with
  | none => trivial
  | some last => exact le_refl last

theorem recounts_step (hl : lib.Documented) (s : Scheduled) (e : Change) (t : Scheduled)
    (h : Settled s) (hr : Recorded lib s e) (hs : s.step lib e = some t) : Recounts s e t := by
  refine ⟨?_, (settled_step hl s e t h hr hs).truthful⟩
  cases e with
  | edit spec deletionTimestamp =>
    obtain rfl := Option.some.inj hs
    exact notBefore_refl _
  | objects objects =>
    obtain rfl := Option.some.inj hs
    exact notBefore_refl _
  | reconcile env r fuel lost =>
    obtain ⟨-, unmet, hall, hadv⟩ := advances_reconcile hl h hr hs
    rcases hadv.last with heq | ⟨scheduleTime, hmem, heq⟩
    · rw [heq]
      exact notBefore_refl _
    · rw [heq]
      cases hlast : s.ca.status.lastScheduleTime with
      | none => trivial
      | some last => exact ((hall _ hmem).1 last hlast).le

end Steps

/--
In every run in which each child that comes into being is recorded, the last schedule time never
moves back, no schedule time gets a second child, and the history says truthfully which triggers
got their child.
-/
theorem history_truthful_of_recorded (lib : Libs) (hl : lib.Documented) (s : Scheduled)
    (es : List Change) (hs : Fresh s) (hm : Runs.Meets (step lib) (Recorded lib) s es) :
    Truthful s ∧ Runs.EachStep (step lib) Recounts s es :=
  ⟨(settled_fresh hs).truthful,
    Runs.eachStep_of_invariant (settled_step hl) (recounts_step hl) (settled_fresh hs) hm⟩

section Hourly

/-- An hourly CronAnything created at one o'clock. -/
def hourly : Scheduled where
  ca :=
    { nightlyCron with
      creationTimestamp := hour
      spec := { nightlyCron.spec with
        triggerDeadlineSeconds := none
        concurrencyPolicy := .allow
        resourceTimestampFormat := none } }
  objects := []
  now := hour
  created := []

/-- A reconcile at the given time whose status updates may fail. -/
def triggerAt (now : Time) (statusErr : Option ApiError) : Change :=
  .reconcile { quietEnv with now := now, later := now, statusErr := fun _ _ => statusErr }
    backupReconciler 4 ⟨false, false⟩

theorem hourly_history_truthful :
    (Runs.run (step hourlyLibs) hourly [triggerAt (2 * hour) none,
        triggerAt (3 * hour) none]).isSome ∧
      Truthful hourly ∧
      Runs.EachStep (step hourlyLibs) Recounts hourly [triggerAt (2 * hour) none,
        triggerAt (3 * hour) none] :=
  ⟨by decide +kernel, history_truthful_of_recorded hourlyLibs hourlyLibs_documented _ _
    ⟨rfl, rfl, by decide, by decide⟩ (by decide +kernel)⟩

/-- The update after the create fails, and the retry finds the name taken. -/
def unrecordedRun : List Change :=
  [triggerAt (2 * hour) (some (.other "timeout")), triggerAt (2 * hour + second) none]

/-- The child of two o'clock exists, and at three o'clock the history says that it failed. -/
theorem created_child_recorded_failed :
    Fresh hourly ∧
      ¬ Runs.EachStep (step hourlyLibs) Recounts hourly
        (unrecordedRun ++ [triggerAt (3 * hour) none]) := by
  refine ⟨⟨rfl, rfl, by decide, by decide⟩, fun h => ?_⟩
  obtain ⟨u, t, hrun, hstep, record, hmem, hfailed, hcreated⟩ : ∃ u t,
      Runs.run (step hourlyLibs) hourly unrecordedRun = some u ∧
      u.step hourlyLibs (triggerAt (3 * hour) none) = some t ∧
      ∃ record ∈ t.ca.status.triggerHistory,
        record.result = .createFailed ∧ record.scheduleTime ∈ t.created :=
    ⟨_, _, rfl, rfl, ⟨2 * hour, 3 * hour, .createFailed⟩, by decide +kernel, rfl,
      by decide +kernel⟩
  have hsucceeded := ((h.last hrun hstep).2.records record hmem).mpr hcreated
  rw [hfailed] at hsucceeded
  cases hsucceeded

end Hourly

end Scheduled

end ElCarro.Cron
