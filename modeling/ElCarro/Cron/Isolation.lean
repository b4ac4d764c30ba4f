import Mathlib.Data.List.Sort
import ElCarro.Cron.Reconcile

/-! # Namespaces of the CronAnything reconciler

Children are listed by a label that holds the bare name of the CronAnything, in
every namespace at once. As long as that list has no entry from elsewhere, a
reconcile depends on its own namespace only and writes only there.
-/

namespace ElCarro.Cron

open GoTime K8s

/-- Two clusters that hold the same objects in one namespace. -/
structure AgreeOn (ns : String) (c₁ c₂ : Cluster) : Prop where
  crons : c₁.crons.filter (·.ns = ns) = c₂.crons.filter (·.ns = ns)
  objects : c₁.objects.filter (·.2.ns = ns) = c₂.objects.filter (·.2.ns = ns)

/-- The resource whose objects a reconcile of this request lists as children. -/
def childResource (lib : Libs) (r : Reconciler) (c : Cluster) (request : ObjectKey) :
    Option GroupVersionResource :=
  match c.getCron request with
  | none => none
  | some ca =>
    match lib.unmarshal ca.spec.template with
    | .error _ => none
    | .ok crt => r.resolve crt.gvk

/-- No object of the child resource outside the namespace carries the name of the cron. -/
def NoForeignChildren (lib : Libs) (r : Reconciler) (c : Cluster) (request : ObjectKey) : Prop :=
  ∀ resource ∈ childResource lib r c request, ∀ o ∈ c.objects, o.1 = resource →
    Selects createdByLabel request.name o.2.labels → o.2.ns = request.ns

instance (lib : Libs) (r : Reconciler) (c : Cluster) (request : ObjectKey) :
    Decidable (NoForeignChildren lib r c request) := by
  unfold NoForeignChildren
  infer_instance

/-- The namespace that a call writes to. -/
def Call.ns : Call → String
  | .delete _ ns _ _ => ns
  | .create _ ns _ _ => ns
  | .updateStatus key _ _ => key.ns

section Agree

variable {c c₁ c₂ : Cluster} {request : ObjectKey}

theorem find?_filter_of_imp {α : Type*} {p q : α → Bool} (l : List α)
    (h : ∀ a, q a = true → p a = true) : (l.filter p).find? q = l.find? q := by
  rw [List.find?_filter]
  congr 1
  funext a
  by_cases hq : q a = true
  · simp [h a hq, hq]
  · simp [hq]

theorem AgreeOn.getCron (ha : AgreeOn request.ns c₁ c₂) :
    c₁.getCron request = c₂.getCron request := by
  unfold Cluster.getCron
  rw [← find?_filter_of_imp (p := fun ca => decide (ca.ns = request.ns)) c₁.crons (by simp_all),
    ← find?_filter_of_imp (p := fun ca => decide (ca.ns = request.ns)) c₂.crons (by simp_all),
    ha.crons]

theorem getCron_key {ca : CronAnything} (h : c.getCron request = some ca) :
    ca.ns = request.ns ∧ ca.name = request.name := by
  simpa using List.find?_some h

theorem AgreeOn.has (ha : AgreeOn request.ns c₁ c₂) (resource : GroupVersionResource)
    (name : String) : c₁.has resource request.ns name = c₂.has resource request.ns name := by
  have key : ∀ c : Cluster, c.has resource request.ns name =
      (c.objects.filter (·.2.ns = request.ns)).any fun o => o.1 = resource ∧ o.2.name = name := by
    intro c
    rw [List.any_filter]
    unfold Cluster.has
    congr 1
    funext o
    by_cases h : o.2.ns = request.ns <;> simp [h]
  rw [key c₁, key c₂, ha.objects]

theorem list_eq_local {resource : GroupVersionResource}
    (hf : ∀ o ∈ c.objects, o.1 = resource → Selects createdByLabel request.name o.2.labels →
      o.2.ns = request.ns) :
    c.list resource request.name = ((c.objects.filter (·.2.ns = request.ns)).filter fun o =>
      o.1 = resource ∧ Selects createdByLabel request.name o.2.labels).map Prod.snd := by
  unfold Cluster.list
  rw [List.filter_filter]
  congr 1
  refine List.filter_congr fun o ho => ?_
  by_cases h : o.1 = resource ∧ Selects createdByLabel request.name o.2.labels
  · simp [h, hf o ho h.1 h.2]
  · simp [h]

theorem AgreeOn.list (ha : AgreeOn request.ns c₁ c₂) {resource : GroupVersionResource}
    (hf₁ : ∀ o ∈ c₁.objects, o.1 = resource → Selects createdByLabel request.name o.2.labels →
      o.2.ns = request.ns)
    (hf₂ : ∀ o ∈ c₂.objects, o.1 = resource → Selects createdByLabel request.name o.2.labels →
      o.2.ns = request.ns) :
    c₁.list resource request.name = c₂.list resource request.name := by
  rw [list_eq_local hf₁, list_eq_local hf₂, ha.objects]

end Agree

section Confined

variable {lib : Libs} {env : Env} {r : Reconciler} {ca : CronAnything} {ns : String}
  {resource : GroupVersionResource} {children : List Unstructured}

/-- Every call goes to the namespace. -/
def Confined (ns : String) (calls : List Call) : Prop := ∀ call ∈ calls, call.ns = ns

theorem confined_nil : Confined ns [] := by simp [Confined]

theorem Confined.append {calls calls' : List Call} (h : Confined ns calls)
    (h' : Confined ns calls') : Confined ns (calls ++ calls') := by
  intro call hc
  rcases List.mem_append.mp hc with hc | hc
  · exact h call hc
  · exact h' call hc

theorem confined_deleteChildren (hns : ∀ child ∈ children, child.ns = ns) :
    Confined ns (deleteChildren env resource children) := by
  intro call hc
  obtain ⟨child, hm, rfl⟩ := List.mem_map.mp hc
  exact hns child (List.mem_of_mem_filter hm)

theorem selectInactive_subset {retention : ResourceRetention} {now : Time} :
    ∀ {keep : Int} {items selected : List Unstructured},
      selectInactive lib ca retention now keep items = some selected → selected ⊆ items := by
  intro keep items
  induction items generalizing keep with
  | nil =>
    intro selected h
    obtain rfl : [] = selected := Option.some.inj h
    exact List.Subset.refl _
  | cons child rest ih =>
    intro selected h
    have hskip : ∀ {k : Int}, selectInactive lib ca retention now k rest = some selected →
        selected ⊆ child :: rest := fun h =>
          List.Subset.trans (ih h) (List.subset_cons_self _ _)
    have htake : ∀ {k : Int},
        (selectInactive lib ca retention now k rest).map (child :: ·) = some selected →
        selected ⊆ child :: rest := by
      intro k h
      obtain ⟨tail, ht, rfl⟩ := Option.map_eq_some_iff.mp h
      exact List.cons_subset_cons _ (ih ht)
    unfold selectInactive at h
    split at h
    · split at h
      · cases h
      · exact hskip h
      · split at h
        · exact htake h
        · split at h
          · exact htake h
          · exact hskip h
    · exact hskip h

/-- The cleanup deletes children only and hands on children only. -/
theorem cleanupHistory_spec {calls : List Call} {remaining : List Unstructured}
    (hns : ∀ child ∈ children, child.ns = ns)
    (h : cleanupHistory lib ca env resource children = some (calls, remaining)) :
    Confined ns calls ∧ ∀ child ∈ remaining, child.ns = ns := by
  unfold cleanupHistory at h
  split at h
  · cases h
    exact ⟨confined_nil, hns⟩
  · split at h
    · cases h
      exact ⟨confined_nil, hns⟩
    · simp only [Option.bind_eq_bind, Option.bind_eq_some_iff, Option.pure_def,
        Option.some.injEq] at h
      obtain ⟨cache, -, selected, hsel, h⟩ := h
      have hsorted : ∀ child ∈ lib.sort (less cache) children, child.ns = ns :=
        fun child hc => hns child ((lib.sort_perm _ _).mem_iff.mp hc)
      unfold deleteInactiveResources at h
      cases h
      exact ⟨confined_deleteChildren fun child hc => hsorted child (selectInactive_subset hsel hc),
        fun child hc => hsorted child (List.mem_of_mem_filter hc)⟩

theorem confined_updateStatus {call : Nat} {key : ObjectKey} {stored : CronAnythingStatus}
    {f : CronAnythingStatus → CronAnythingStatus} :
    Confined key.ns (updateCronAnythingStatus env call key stored f).1 := by
  unfold updateCronAnythingStatus
  split <;> simp [Confined, Call.ns]

theorem confined_replaceActive (hns : ∀ child ∈ children, child.ns = ns) :
    Confined ns (replaceActive env resource children).1 := by
  induction children with
  | nil => exact confined_nil
  | cons child rest ih =>
    have hrest := ih fun c hc => hns c (List.mem_cons_of_mem _ hc)
    have hchild := hns child List.mem_cons_self
    unfold replaceActive
    split
    · exact hrest
    · split
      · simpa [Confined, Call.ns] using hchild
      · intro call hc
        rcases List.mem_cons.mp hc with rfl | hc
        · exact hchild
        · exact hrest call hc

theorem confined_updateTriggerTimes {calls : List Call} {next : Time} (h : Confined ns calls) :
    Confined ns (updateTriggerTimes env r ca calls next).calls := by
  unfold updateTriggerTimes
  split <;> exact h

theorem confined_closeTrigger {call : Nat} {calls : List Call} {stored : CronAnythingStatus}
    {f : CronAnythingStatus → CronAnythingStatus} {next : Time} (h : Confined ca.ns calls) :
    Confined ca.ns (closeTrigger env r ca call calls stored f next).calls := by
  have hu : Confined ca.ns
      (updateCronAnythingStatus env call ⟨ca.ns, ca.name⟩ stored f).1 := confined_updateStatus
  unfold closeTrigger
  split
  · next heq =>
    rw [heq] at hu
    exact h.append hu
  · next heq =>
    rw [heq] at hu
    exact confined_updateTriggerTimes (h.append hu)

theorem confined_createChild {c : Cluster} {crt : Unstructured} {calls : List Call}
    {stored : CronAnythingStatus} {scheduleTime next : Time} (h : Confined ca.ns calls) :
    Confined ca.ns
      (createChild lib env r ca c crt resource calls stored scheduleTime next).calls := by
  have hcreate : ∀ ok, Confined ca.ns
      [Call.create resource ca.ns (childFor lib ca crt scheduleTime) ok] := by
    intro ok
    simp [Confined, Call.ns]
  unfold createChild
  dsimp only
  split
  · exact (h.append (hcreate false)).append confined_updateStatus
  · exact confined_closeTrigger (h.append (hcreate true))

theorem confined_handleTrigger {c : Cluster} {crt : Unstructured} {calls : List Call}
    {stored : CronAnythingStatus} {scheduleTime next : Time} (h : Confined ca.ns calls)
    (hns : ∀ child ∈ children, child.ns = ca.ns) :
    Confined ca.ns
      (handleTrigger lib env r ca c crt resource children calls stored scheduleTime
        next).calls := by
  have hactive : Confined ca.ns
      (replaceActive env resource (findActiveChildResources lib ca children)).1 :=
    confined_replaceActive fun child hc => hns child (List.mem_of_mem_filter hc)
  unfold handleTrigger
  split
  · exact confined_closeTrigger h
  · dsimp only
    split
    · exact confined_closeTrigger h
    · split
      · split
        · next heq =>
          rw [heq] at hactive
          exact h.append hactive
        · next heq =>
          rw [heq] at hactive
          exact h.append hactive
      · split
        · exact confined_closeTrigger h
        · exact confined_createChild h

theorem confined_handleUnmet {c : Cluster} {crt : Unstructured} {calls : List Call}
    {unmet : List Time} {next : Time} (h : Confined ca.ns calls)
    (hns : ∀ child ∈ children, child.ns = ca.ns) :
    Confined ca.ns
      (handleUnmet lib env r ca c crt resource children calls unmet next).calls := by
  unfold handleUnmet
  split
  · exact confined_updateTriggerTimes h
  · split
    · exact confined_handleTrigger h hns
    · next latestDropped _ =>
      have hu : Confined ca.ns (updateCronAnythingStatus env 0 ⟨ca.ns, ca.name⟩ ca.status
          fun freshStatus => addToTriggerHistory
            { updateLastScheduleTime freshStatus latestDropped with pendingTrigger := none }
            (droppedRecord env ca unmet.dropLast latestDropped)).1 := confined_updateStatus
      split
      · next heq =>
        rw [heq] at hu
        exact h.append hu
      · next heq =>
        rw [heq] at hu
        exact confined_handleTrigger (h.append hu) hns

end Confined

section Reconcile

variable {lib : Libs} {env : Env} {r : Reconciler} {fuel : Nat} {request : ObjectKey}
  {c c₁ c₂ : Cluster}

theorem childResource_eq {ca : CronAnything} {crt : Unstructured}
    {resource : GroupVersionResource} (hca : c.getCron request = some ca)
    (hcrt : lib.unmarshal ca.spec.template = .ok crt) (hres : r.resolve crt.gvk = some resource) :
    childResource lib r c request = some resource := by
  simp only [childResource, hca, hcrt, hres]

/-- A reconcile reads its own CronAnything, the listed children and one name in its namespace. -/
theorem reconcile_congr (hcron : c₁.getCron request = c₂.getCron request)
    (hlist : ∀ resource ∈ childResource lib r c₁ request,
      c₁.list resource request.name = c₂.list resource request.name)
    (hhas : ∀ resource name, c₁.has resource request.ns name = c₂.has resource request.ns name) :
    reconcile lib env r fuel c₁ request = reconcile lib env r fuel c₂ request := by
  unfold reconcile
  rw [hcron]
  split
  · rfl
  · rfl
  · split
    · rfl
    · next ca hca =>
      obtain ⟨hns, hname⟩ := getCron_key hca
      split
      · rfl
      · split
        · rfl
        · next crt hcrt =>
          split
          · rfl
          · next resource hres =>
            have hl := hlist resource (childResource_eq (hcron.trans hca) hcrt hres)
            have hc : createChild lib env r ca c₁ crt resource =
                createChild lib env r ca c₂ crt resource := by
              funext calls stored scheduleTime next
              simp only [createChild, hns, hhas]
            simp only [handleUnmet, handleTrigger, hname, hl, hc]

theorem reconcile_confined {out : Outcome} (hf : NoForeignChildren lib r c request)
    (h : reconcile lib env r fuel c request = some out) : Confined request.ns out.calls := by
  unfold reconcile at h
  split at h
  · cases h
    exact confined_nil
  · cases h
    exact confined_nil
  · split at h
    · cases h
      exact confined_nil
    · next ca hca =>
      obtain ⟨hns, hname⟩ := getCron_key hca
      split at h
      · cases h
        exact confined_nil
      · split at h
        · cases h
          exact confined_nil
        · next crt hcrt =>
          split at h
          · cases h
            exact confined_nil
          · next resource hres =>
            split at h
            · cases h
              exact confined_nil
            · have hchildren : ∀ child ∈ c.list resource ca.name, child.ns = request.ns := by
                intro child hc
                obtain ⟨o, ho, rfl⟩ := List.mem_map.mp hc
                obtain ⟨ho, hsel⟩ := List.mem_filter.mp ho
                simp only [hname, decide_eq_true_eq] at hsel
                exact hf resource (childResource_eq hca hcrt hres) o ho hsel.1 hsel.2
              split at h
              · cases h
              · next calls remaining hclean =>
                obtain ⟨hcalls, hrem⟩ := cleanupHistory_spec hchildren hclean
                split at h
                · cases h
                  exact hcalls
                · split at h
                  · cases h
                  · cases h
                    exact hcalls
                  · cases h
                    rw [← hns] at hcalls hrem ⊢
                    exact confined_handleUnmet hcalls hrem

end Reconcile

section SameNames

/-- An hourly schedule over Backups whose phase is the field that JSON paths see. -/
def hourlyLibs : Libs where
  parseStandard _ := .ok fun t => (t / hour + 1) * hour
  parse _ := .error "expected 5 to 6 fields"
  getFieldValue _ resource := .ok resource.content
  unmarshalTime _ := .error "cannot parse"
  unmarshal _ := .ok ⟨⟨"oracle.db.anthosapis.com/v1alpha1", "Backup"⟩, "", "", "", ∅, 0, none, [], ""⟩
  secondsExceed d limit := decide (limit * second < d)
  format _ _ := "20060102-150405"
  sort less items := items.insertionSort fun a b => less b a = false
  sort_perm _ items := List.perm_insertionSort _ items

def backups : GroupVersionResource := ⟨"oracle.db.anthosapis.com/v1alpha1", "backups"⟩

def backupReconciler : Reconciler := ⟨fun _ => some backups, ∅⟩

def quietEnv : Env where
  now := 2 * hour
  later := 2 * hour
  getErr := none
  listErr := none
  deleteErr _ _ := none
  createErr := none
  statusErr _ _ := none

/-- An hourly cron that replaces a Backup which is still running. -/
def nightlyCron : CronAnything where
  ns := "team-a"
  name := "nightly-cron"
  uid := "a"
  creationTimestamp := hour + minute
  deletionTimestamp := none
  spec :=
    { schedule := "@hourly", triggerDeadlineSeconds := some 30, concurrencyPolicy := .replace,
      suspend := none,
      finishableStrategy := some (.stringField (some ("{.status.phase}", ["Succeeded", "Failed"]))),
      template := "", totalResourceLimit := none, retention := none, cascadeDelete := none,
      resourceBaseName := some "nightly-cron", resourceTimestampFormat := some "20060102-150405" }
  status := ⟨none, [], none⟩

/-- A running Backup of the cron with the same name in another namespace. -/
def foreignBackup : Unstructured where
  gvk := ⟨"oracle.db.anthosapis.com/v1alpha1", "Backup"⟩
  ns := "team-b"
  name := "nightly-cron-20060102-140405"
  uid := "b"
  labels := [⟨createdByLabel, "nightly-cron"⟩].toFinmap
  creationTimestamp := hour
  deletionTimestamp := none
  ownerReferences := []
  content := "InProgress"

def request : ObjectKey := ⟨"team-a", "nightly-cron"⟩

end SameNames

end ElCarro.Cron
