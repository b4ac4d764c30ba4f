import ElCarro.Cron.History
import ElCarro.Pitr.Retention

/-! # When a reconcile may create a child

The concurrency policy and the resource limit look at the children that remain
after the cleanup of the history. Under Forbid and Replace none of them may be
unfinished when a child is created, and their number is below the limit. A child
whose state cannot be read counts as unfinished.
-/

namespace ElCarro.Cron

open GoTime K8s

/-- What the spec asks of the remaining children before another one is created. -/
structure Admits (lib : Libs) (ca : CronAnything) (remaining : List Unstructured) : Prop where
  finished : ca.spec.concurrencyPolicy = .forbid ∨ ca.spec.concurrencyPolicy = .replace →
    ∀ child ∈ remaining, isFinished lib ca child = .ok true
  below : ∀ limit ∈ ca.spec.totalResourceLimit, (remaining.length : Int) < limit

section Steps

variable {lib : Libs} {env : Env} {r : Reconciler} {ca : CronAnything} {c : Cluster}
  {crt child : Unstructured} {resource gvr : GroupVersionResource} {ns : String} {ok : Bool}
  {children remaining : List Unstructured} {calls : List Call} {stored : CronAnythingStatus}
  {scheduleTime next : Time}

theorem isFinished_of_findActive_nil (h : findActiveChildResources lib ca children = []) :
    ∀ child ∈ children, isFinished lib ca child = .ok true := by
  intro child hc
  have hidle := List.filter_eq_nil_iff.mp h child hc
  cases hfin : isFinished lib ca child with
  | error err => simp [hfin] at hidle
  | ok finished => simpa [hfin] using hidle

theorem create_mem_closeTrigger {call : Nat} {f : CronAnythingStatus → CronAnythingStatus}
    (h : Call.create gvr ns child ok ∈ (closeTrigger env r ca call calls stored f next).calls) :
    Call.create gvr ns child ok ∈ calls := by
  obtain ⟨stored', heq⟩ : ∃ ok, (closeTrigger env r ca call calls stored f next).calls =
      calls ++ [.updateStatus ⟨ca.ns, ca.name⟩ (f stored) ok] := closeTrigger_calls
  simpa [heq] using h

theorem create_notMem_of_isDelete (hdel : ∀ call ∈ calls, call.IsDelete) :
    Call.create gvr ns child ok ∉ calls := fun h => hdel _ h

theorem resource_of_create_mem_createChild (hcalls : Call.create gvr ns child ok ∉ calls)
    (h : Call.create gvr ns child ok ∈ (createChild lib env r ca c crt resource calls stored
      scheduleTime next).calls) : gvr = resource := by
  unfold createChild at h
  dsimp only at h
  split at h
  · rcases updateCronAnythingStatus_eq env 1 ⟨ca.ns, ca.name⟩ stored fun freshStatus =>
        { freshStatus with pendingTrigger := some ⟨scheduleTime, .createFailed⟩ } with ⟨err, hu⟩ | hu
    all_goals
      simp only [hu, List.mem_append, hcalls, List.mem_singleton, reduceCtorEq, or_false,
        false_or] at h
      cases h
      rfl
  · have hmem := create_mem_closeTrigger h
    simp only [List.mem_append, hcalls, List.mem_singleton, false_or] at hmem
    cases hmem
    rfl

/-- A trigger that creates a child has found the remaining children as the spec wants them. -/
theorem admits_of_create_mem_handleTrigger (hcalls : Call.create gvr ns child ok ∉ calls)
    (h : Call.create gvr ns child ok ∈ (handleTrigger lib env r ca c crt resource remaining calls
      stored scheduleTime next).calls) :
    gvr = resource ∧ (remaining.length < 2 ^ 31 → Admits lib ca remaining) := by
  have hreplaced : Call.create gvr ns child ok ∉
      (replaceActive env resource (findActiveChildResources lib ca remaining)).1 :=
    create_notMem_of_isDelete replaceActive_isDelete
  unfold handleTrigger at h
  split at h
  · exact absurd (create_mem_closeTrigger h) hcalls
  · dsimp only at h
    split at h
    · exact absurd (create_mem_closeTrigger h) hcalls
    · next hforbid =>
      split at h
      · split at h
        all_goals
          next heq =>
          rw [heq] at hreplaced
          exact absurd h (List.not_mem_append hcalls hreplaced)
      · next hreplace =>
        split at h
        · exact absurd (create_mem_closeTrigger h) hcalls
        · next hlimit =>
          refine ⟨resource_of_create_mem_createChild hcalls h, fun hsmall => ?_⟩
          constructor
          · intro hpolicy
            apply isFinished_of_findActive_nil
            by_contra hactive
            rcases hpolicy with hp | hp
            · exact hforbid ⟨hactive, hp⟩
            · exact hreplace ⟨hactive, hp⟩
          · intro limit hl
            have hcount : int32 remaining.length = remaining.length :=
              Pitr.int32_of_small (by omega) (by omega)
            rw [hcount] at hlimit
            exact not_le.mp fun hle => hlimit ⟨limit, hl, hle⟩

theorem admits_of_create_mem_handleUnmet {unmet : List Time}
    (hcalls : Call.create gvr ns child ok ∉ calls)
    (h : Call.create gvr ns child ok ∈
      (handleUnmet lib env r ca c crt resource remaining calls unmet next).calls) :
    gvr = resource ∧ (remaining.length < 2 ^ 31 → Admits lib ca remaining) := by
  unfold handleUnmet at h
  split at h
  · rw [updateTriggerTimes_calls] at h
    exact absurd h hcalls
  · split at h
    · exact admits_of_create_mem_handleTrigger hcalls h
    · next latestDropped _ =>
      -- the update for the dropped triggers comes first
      have hupdates : ∀ f, Call.create gvr ns child ok ∉
          calls ++ (updateCronAnythingStatus env 0 ⟨ca.ns, ca.name⟩ ca.status f).1 := by
        intro f
        rcases updateCronAnythingStatus_eq env 0 ⟨ca.ns, ca.name⟩ ca.status f with ⟨err, hu⟩ | hu
        · simp [hu, hcalls]
        · simp [hu, hcalls]
      have hdropped := hupdates fun freshStatus => addToTriggerHistory
        { updateLastScheduleTime freshStatus latestDropped with pendingTrigger := none }
        (droppedRecord env ca unmet.dropLast latestDropped)
      split at h
      · next heq =>
        rw [heq] at hdropped
        exact absurd h hdropped
      · next heq =>
        rw [heq] at hdropped
        exact admits_of_create_mem_handleTrigger hdropped h

theorem cleanupHistory_length_le {deletes : List Call}
    (h : cleanupHistory lib ca env resource children = some (deletes, remaining)) :
    remaining.length ≤ children.length := by
  unfold cleanupHistory at h
  split at h
  · cases h
    rfl
  · split at h
    · cases h
      rfl
    · simp only [Option.bind_eq_bind, Option.bind_eq_some_iff, Option.pure_def,
        Option.some.injEq] at h
      obtain ⟨cache, -, selected, -, h⟩ := h
      unfold deleteInactiveResources at h
      cases h
      calc _ ≤ (lib.sort (less cache) children).length := List.length_filter_le _ _
        _ = children.length := (lib.sort_perm _ _).length_eq

end Steps

/--
A reconcile that sends a create request has cleaned up the history of its children, and the
children that remain are as the spec wants them.
-/
theorem create_admitted (lib : Libs) (env : Env) (r : Reconciler) (fuel : Nat) (c : Cluster)
    (key : ObjectKey) (out : Outcome) (h : reconcile lib env r fuel c key = some out)
    (resource : GroupVersionResource) (ns : String) (child : Unstructured) (ok : Bool)
    (hcreate : Call.create resource ns child ok ∈ out.calls)
    (hsmall : (c.list resource key.name).length < 2 ^ 31) :
    ∃ ca deletes remaining, c.getCron key = some ca ∧
      cleanupHistory lib ca env resource (c.list resource ca.name) = some (deletes, remaining) ∧
      Admits lib ca remaining := by
  rcases reconcile_cases h with
    hdel | ⟨ca, crt, gvr, deletes, remaining, unmet, next, hca, hclean, -, rfl⟩
  · exact absurd hcreate (create_notMem_of_isDelete hdel)
  · obtain ⟨rfl, hadmits⟩ := admits_of_create_mem_handleUnmet
      (create_notMem_of_isDelete (cleanupHistory_isDelete hclean)) hcreate
    refine ⟨ca, deletes, remaining, hca, hclean, hadmits ?_⟩
    apply lt_of_le_of_lt (cleanupHistory_length_le hclean)
    rwa [(getCron_key hca).2]

/-- A finished Backup does not keep the next one from being created. -/
theorem finished_backup_admitted :
    ∃ out, reconcile hourlyLibs quietEnv backupReconciler 3
        ⟨[nightlyCron], [(backups, { foreignBackup with content := "Succeeded" })]⟩ request =
          some out ∧
      (∃ child, Call.create backups "team-a" child true ∈ out.calls) ∧
      ∃ ca deletes remaining, Cluster.getCron ⟨[nightlyCron], [(backups,
          { foreignBackup with content := "Succeeded" })]⟩ request = some ca ∧
        cleanupHistory hourlyLibs ca quietEnv backups (Cluster.list ⟨[nightlyCron], [(backups,
          { foreignBackup with content := "Succeeded" })]⟩ backups ca.name) =
            some (deletes, remaining) ∧
        Admits hourlyLibs ca remaining := by
  refine ⟨_, rfl, ⟨_, List.mem_cons_self⟩, ?_⟩
  exact create_admitted hourlyLibs quietEnv backupReconciler 3 _ request _ rfl backups "team-a" _
    true List.mem_cons_self (by decide)

end ElCarro.Cron
