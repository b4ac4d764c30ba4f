import ElCarro.Lib.Runs
import ElCarro.Pitr.Retention
import ElCarro.Pitr.Storage

/-! # The objects of PITR controllers in one namespace

A PITR object has its Backups taken by one BackupSchedule, and by one Backup of its
own for each incarnation. Both are applied under names that do not mention the PITR
object: the schedule has one name for all, the Backup one for each incarnation. Two
PITR objects of a namespace that come to the same name take the object from each
other.
-/

namespace ElCarro.PitrController

open GoTime K8s Api Pitr

structure PITRObject where
  ns : String
  name : String
  uid : String
  spec : PITRSpec

def PITRObject.key (p : PITRObject) : ObjectKey := ⟨p.ns, p.name⟩

/-- What the controller reads of the instance that a PITR object refers to. -/
structure InstanceView where
  name : String
  currentDatabaseIncarnation : String

structure BackupSpec where
  instanceName : String
  type : BackupType
  subtype : String
  gcsDir : String
  deriving DecidableEq

structure BackupObject where
  ns : String
  name : String
  labels : StrMap
  spec : BackupSpec
  /-- The reason of the condition Ready. -/
  ready : Option Reason
  /-- The PITR object for which it was made, which the object itself does not record. -/
  madeFor : Option ObjectKey
  deriving DecidableEq

structure ScheduleObject where
  ns : String
  name : String
  labels : StrMap
  /-- Name and UID of the owners. -/
  ownerReferences : List (String × String)
  schedule : String
  backupRetention : Int
  backupSpec : BackupSpec
  backupLabels : StrMap
  madeFor : Option ObjectKey
  deriving DecidableEq

structure Cluster where
  backups : List BackupObject
  schedules : List ScheduleObject

section Templates

variable (p : PITRObject) (inst : InstanceView)

def backupTemplate : BackupObject where
  ns := p.ns
  name := "pitr-backup"
  labels := (∅ : StrMap).insert pitrLabel p.name
  spec := ⟨inst.name, .physical, "Instance", p.spec.storageURI⟩
  ready := none
  madeFor := some p.key

def initialBackupName : String :=
  "pitr-backup" ++ "-incarnation-" ++ inst.currentDatabaseIncarnation

def initialBackup : BackupObject := { backupTemplate p inst with name := initialBackupName inst }

def backupScheduleName : String := "pitr-backup-schedule"

def backupScheduleTemplate (backupRetentionCnt : Int) : ScheduleObject where
  ns := p.ns
  name := backupScheduleName
  labels := (∅ : StrMap).insert pitrLabel p.name
  ownerReferences := [(p.name, p.uid)]
  schedule := backupScheduleOf p.spec
  backupRetention := backupRetentionCnt
  backupSpec := (backupTemplate p inst).spec
  backupLabels := (∅ : StrMap).insert pitrLabel p.name
  madeFor := some p.key

end Templates

section Apply

/-- Update the objects that are meant, or add one if there is none. -/
def applyTo {α : Type*} (meant : α → Bool) (update : α → α) (fresh : α) (objects : List α) :
    List α :=
  if objects.any meant then objects.map fun o => if meant o then update o else o
  else objects ++ [fresh]

def BackupObject.isNamed (ns name : String) (o : BackupObject) : Bool := o.ns = ns ∧ o.name = name

def ScheduleObject.isNamed (ns name : String) (o : ScheduleObject) : Bool := o.ns = ns ∧ o.name = name

/-- A forced server-side apply: the labels and the spec of the template win. -/
def BackupObject.patch (template o : BackupObject) : BackupObject :=
  { o with labels := template.labels ∪ o.labels, spec := template.spec }

/-- Of the owners those are kept that this controller has not applied; there are none. -/
def ScheduleObject.patch (template o : ScheduleObject) : ScheduleObject :=
  { template with labels := template.labels ∪ o.labels, madeFor := o.madeFor }

variable (c : Cluster)

def Cluster.applyBackup (b : BackupObject) : Cluster :=
  { c with backups := applyTo (BackupObject.isNamed b.ns b.name) b.patch b c.backups }

def Cluster.applySchedule (s : ScheduleObject) : Cluster :=
  { c with schedules := applyTo (ScheduleObject.isNamed s.ns s.name) s.patch s c.schedules }

def Cluster.deleteBackup (ns name : String) : Cluster :=
  { c with backups := c.backups.filter fun o => !BackupObject.isNamed ns name o }

/-- The Backups with the label of a PITR object. -/
def Cluster.labelled (p : PITRObject) : List BackupObject :=
  c.backups.filter fun b => b.ns = p.ns ∧ Selects pitrLabel p.name b.labels

/-- Those of an incarnation. -/
def Cluster.applicable (p : PITRObject) (inst : InstanceView) : List BackupObject :=
  (c.labelled p).filter fun b =>
    Selects incarnationLabel inst.currentDatabaseIncarnation b.labels

end Apply

section Reconcile

/-- What the calls of one reconcile answer. -/
structure Answers where
  ensureAgent : Option ApiError
  listBackups : Option ApiError
  /-- The patch or the deletion of the initial Backup. -/
  initial : CallResult
  listAllBackups : Option ApiError
  updateStatus : Option ApiError
  patchSchedule : CallResult

/-- What `ensureBackup` makes of the Backups of the current incarnation. -/
inductive Decision where
  | create | replaceFailed | wait | proceed
  /-- The missing condition of a single Backup is dereferenced. -/
  | panics
  deriving DecidableEq

def decideOn : List BackupObject → Decision
  | [] => .create
  | [b] =>
    match b.ready with
    | none => .panics
    | some .backupFailed => .replaceFailed
    | some .backupInProgress => .wait
    | some .backupPending => .wait
    | some _ => .proceed
  | _ => .proceed

/-- One reconcile: the cluster that it leaves, and the Backups that it took for its own. -/
def reconcile (parseStandard : String → Except String CronSchedule) (c : Cluster) (p : PITRObject)
    (inst : Option InstanceView) (a : Answers) (fuel : Nat) : Cluster × List BackupObject :=
  match inst with
  | none => (c, [])
  | some inst =>
    if validatePITRSpec parseStandard p.spec ≠ [] ∨ a.ensureAgent ≠ none ∨ a.listBackups ≠ none then
      (c, [])
    else
      let backups := c.applicable p inst
      match decideOn backups with
      | .create =>
        (if a.initial.Effective then c.applyBackup (initialBackup p inst) else c, backups)
      | .replaceFailed =>
        (if a.initial.Effective then c.deleteBackup p.ns (initialBackupName inst) else c, backups)
      | .wait => (c, backups)
      | .panics => (c, backups)
      | .proceed =>
        if a.listAllBackups ≠ none then (c, backups)
        else if a.updateStatus ≠ none then (c, backups ++ c.labelled p)
        else match retentionCnt parseStandard p.spec fuel with
          -- the count of the retained Backups does not end
          | none => (c, backups ++ c.labelled p)
          | some cnt =>
            (if a.patchSchedule.Effective then c.applySchedule (backupScheduleTemplate p inst cnt)
              else c, backups ++ c.labelled p)

end Reconcile

/-- Reconciles of PITR objects, and what others do with the objects. -/
inductive Event where
  | reconcile (p : PITRObject) (inst : Option InstanceView) (a : Answers) (fuel : Nat)
  /-- The cron of a schedule creates a Backup. -/
  | scheduled (ns schedule name : String)
  /-- The Backup controller reports on a Backup. -/
  | observed (ns name incarnation : String) (reason : Reason)
  | userBackup (ns name : String) (labels : StrMap) (spec : BackupSpec)
  | backupGone (ns name : String)
  | scheduleGone (ns name : String)

def step (parseStandard : String → Except String CronSchedule) (c : Cluster) :
    Event → Option Cluster
  | .reconcile p inst a fuel => some (reconcile parseStandard c p inst a fuel).1
  | .scheduled ns schedule name =>
    match c.schedules.find? (ScheduleObject.isNamed ns schedule) with
    | none => none
    | some s =>
      if c.backups.any (BackupObject.isNamed ns name) then none
      else some { c with
        backups := c.backups ++ [⟨ns, name, s.backupLabels, s.backupSpec, none, s.madeFor⟩] }
  | .observed ns name incarnation reason =>
    some { c with
      backups := c.backups.map fun b =>
        if BackupObject.isNamed ns name b then
          { b with labels := b.labels.insert incarnationLabel incarnation, ready := some reason }
        else b }
  | .userBackup ns name labels spec =>
    if c.backups.any (BackupObject.isNamed ns name) then none
    else some { c with backups := c.backups ++ [⟨ns, name, labels, spec, none, none⟩] }
  | .backupGone ns name => some (c.deleteBackup ns name)
  | .scheduleGone ns name =>
    some { c with schedules := c.schedules.filter fun s => !ScheduleObject.isNamed ns name s }

section Interference

/-- The object was made for another PITR object. -/
def Foreign (p : PITRObject) (madeFor : Option ObjectKey) : Prop := ∃ o ∈ madeFor, o ≠ p.key

/-- A reconcile leaves the objects of other PITR objects alone and takes none of them for its own. -/
structure Undisturbed (p : PITRObject) (c t : Cluster) (taken : List BackupObject) : Prop where
  backups : ∀ b, Foreign p b.madeFor → (b ∈ t.backups ↔ b ∈ c.backups)
  schedules : ∀ s, Foreign p s.madeFor → (s ∈ t.schedules ↔ s ∈ c.schedules)
  taken : ∀ b ∈ taken, ¬ Foreign p b.madeFor

/-- The step, if it is a reconcile, does not interfere with another PITR object. -/
def Isolated (parseStandard : String → Except String CronSchedule) (c : Cluster) :
    Event → Cluster → Prop
  | .reconcile p inst a fuel, t =>
    Undisturbed p c t (reconcile parseStandard c p inst a fuel).2
  | _, _ => True

/-- No Backup of another PITR object has the name of the initial Backup. -/
def ClearBackup (c : Cluster) (p : PITRObject) (inst : InstanceView) : Prop :=
  ∀ b ∈ c.backups, b.isNamed p.ns (initialBackupName inst) → ¬ Foreign p b.madeFor

/-- No BackupSchedule of another PITR object has the name that all of them share. -/
def ClearSchedule (c : Cluster) (p : PITRObject) : Prop :=
  ∀ s ∈ c.schedules, s.isNamed p.ns backupScheduleName → ¬ Foreign p s.madeFor

/-- The name that a reconcile is about to write is not taken by another PITR object. -/
def Clear (c : Cluster) : Event → Prop
  | .reconcile p (some inst) _ _ =>
    match decideOn (c.applicable p inst) with
    | .create => ClearBackup c p inst
    | .replaceFailed => ClearBackup c p inst
    | .proceed => ClearSchedule c p
    | _ => True
  | _ => True

/-- Objects carry the label of the PITR object for which they were made. -/
structure Labelled (c : Cluster) : Prop where
  backups : ∀ b ∈ c.backups, ∀ o ∈ b.madeFor, b.ns = o.ns ∧ Selects pitrLabel o.name b.labels
  schedules : ∀ s ∈ c.schedules, ∀ o ∈ s.madeFor,
    s.ns = o.ns ∧ Selects pitrLabel o.name s.backupLabels

end Interference

section Apply

variable {α : Type*} {meant : α → Bool} {update : α → α} {fresh o : α} {objects : List α}

theorem mem_applyTo (h : o ∈ applyTo meant update fresh objects) :
    (o ∈ objects ∧ meant o = false) ∨ (∃ o' ∈ objects, meant o' = true ∧ o = update o') ∨
      (o = fresh ∧ ∀ o' ∈ objects, meant o' = false) := by
  unfold applyTo at h
  split at h
  · obtain ⟨o', ho', rfl⟩ := List.mem_map.mp h
    split
    · next hm => exact Or.inr (Or.inl ⟨o', ho', hm, rfl⟩)
    · next hm => exact Or.inl ⟨ho', by simpa using hm⟩
  · next hnone =>
    have hall : ∀ o' ∈ objects, meant o' = false := by simpa using hnone
    rcases List.mem_append.mp h with h | h
    · exact Or.inl ⟨h, hall o h⟩
    · exact Or.inr (Or.inr ⟨List.mem_singleton.mp h, hall⟩)

/-- An object that was meant is only still there if the update makes it again. -/
theorem exists_update_of_mem_applyTo (h : o ∈ applyTo meant update fresh objects)
    (ho : o ∈ objects) (hm : meant o = true) : ∃ o', o = update o' := by
  rcases mem_applyTo h with ⟨-, hnot⟩ | ⟨o', -, -, rfl⟩ | ⟨-, hnot⟩
  · rw [hm] at hnot
    cases hnot
  · exact ⟨o', rfl⟩
  · rw [hnot o ho] at hm
    cases hm

theorem mem_applyTo_of_not_meant (h : o ∈ objects) (hm : meant o = false) :
    o ∈ applyTo meant update fresh objects := by
  unfold applyTo
  split
  · exact List.mem_map.mpr ⟨o, h, by simp [hm]⟩
  · exact List.mem_append_left _ h

/-- Objects that are not meant, with which the update has nothing to do, stay as they are. -/
theorem mem_applyTo_iff {F : α → Prop} (hclear : ∀ o ∈ objects, meant o = true → ¬ F o)
    (hupdate : ∀ o, F (update o) → F o) (hfresh : ¬ F fresh) (hf : F o) :
    o ∈ applyTo meant update fresh objects ↔ o ∈ objects := by
  constructor
  · intro h
    rcases mem_applyTo h with ⟨hmem, -⟩ | ⟨o', hmem, hm, rfl⟩ | ⟨rfl, -⟩
    · exact hmem
    · exact absurd (hupdate o' hf) (hclear o' hmem hm)
    · exact absurd hf hfresh
  · intro h
    apply mem_applyTo_of_not_meant h
    by_contra hm
    exact hclear o h ((Bool.not_eq_false _).mp hm) hf

end Apply

section Steps

variable {parseStandard : String → Except String CronSchedule} {c t : Cluster} {p : PITRObject}
  {inst : InstanceView} {a : Answers} {fuel : Nat} {e : Event} {es : List Event}

theorem eq_key_of_not_foreign {madeFor : Option ObjectKey} {o : ObjectKey}
    (h : ¬ Foreign p madeFor) (ho : o ∈ madeFor) : o = p.key := by
  by_contra hne
  exact h ⟨o, ho, hne⟩

theorem not_foreign_own : ¬ Foreign p (some p.key) := by
  rintro ⟨o, ho, hne⟩
  exact hne (Option.some.inj ho).symm

/-- An object with the label of its PITR object that carries the one of `p` was made for `p`. -/
theorem eq_key_of_selects {labels : StrMap} {ns : String} {o : ObjectKey}
    (ho : ns = o.ns ∧ Selects pitrLabel o.name labels) (hns : ns = p.ns)
    (hlabel : Selects pitrLabel p.name labels) : o = p.key := by
  have hname : o.name = p.name := Option.some.inj (ho.2.symm.trans hlabel)
  unfold PITRObject.key
  rw [← hname, ← hns, ho.1]

/-- What carries the label of a PITR object and its namespace was made for no other. -/
theorem not_foreign_of_labelled {b : BackupObject} (hc : Labelled c) (hb : b ∈ c.labelled p) :
    ¬ Foreign p b.madeFor := by
  rintro ⟨o, ho, hne⟩
  obtain ⟨hmem, hsel⟩ := List.mem_filter.mp hb
  simp only [decide_eq_true_eq] at hsel
  exact hne (eq_key_of_selects (hc.backups b hmem o ho) hsel.1 hsel.2)

@[simp] theorem selects_patch (b : BackupObject) :
    Selects pitrLabel p.name ((initialBackup p inst).patch b).labels := by
  simp [BackupObject.patch, initialBackup, backupTemplate, Selects]

theorem labelled_applyBackup (hc : Labelled c) (hclear : ClearBackup c p inst) :
    Labelled (c.applyBackup (initialBackup p inst)) := by
  constructor
  · intro b hb o ho
    rcases mem_applyTo hb with ⟨hmem, -⟩ | ⟨b', hmem, hm, rfl⟩ | ⟨rfl, -⟩
    · exact hc.backups b hmem o ho
    · -- the Backup was made for this PITR object, so its label stays what it is
      obtain rfl := eq_key_of_not_foreign (hclear b' hmem hm) ho
      exact ⟨(hc.backups b' hmem _ ho).1, selects_patch b'⟩
    · obtain rfl : p.key = o := Option.some.inj ho
      exact ⟨rfl, by simp [initialBackup, backupTemplate, Selects, PITRObject.key]⟩
  · exact hc.schedules

theorem labelled_applySchedule {cnt : Int} (hc : Labelled c) (hclear : ClearSchedule c p) :
    Labelled (c.applySchedule (backupScheduleTemplate p inst cnt)) := by
  have hlabel : Selects pitrLabel p.name (backupScheduleTemplate p inst cnt).backupLabels := by
    simp [backupScheduleTemplate, Selects]
  constructor
  · exact hc.backups
  · intro s hs o ho
    rcases mem_applyTo hs with ⟨hmem, -⟩ | ⟨s', hmem, hm, rfl⟩ | ⟨rfl, -⟩
    · exact hc.schedules s hmem o ho
    · obtain rfl := eq_key_of_not_foreign (hclear s' hmem hm) ho
      exact ⟨rfl, hlabel⟩
    · obtain rfl : p.key = o := Option.some.inj ho
      exact ⟨rfl, hlabel⟩

theorem labelled_deleteBackup {ns name : String} (hc : Labelled c) :
    Labelled (c.deleteBackup ns name) :=
  ⟨fun b hb => hc.backups b (List.mem_of_mem_filter hb), hc.schedules⟩

theorem undisturbed_self {taken : List BackupObject} (h : ∀ b ∈ taken, ¬ Foreign p b.madeFor) :
    Undisturbed p c c taken := ⟨fun _ _ => Iff.rfl, fun _ _ => Iff.rfl, h⟩

theorem undisturbed_applyBackup {taken : List BackupObject} (hclear : ClearBackup c p inst)
    (h : ∀ b ∈ taken, ¬ Foreign p b.madeFor) :
    Undisturbed p c (c.applyBackup (initialBackup p inst)) taken :=
  ⟨fun _ hf => mem_applyTo_iff (F := fun b => Foreign p b.madeFor) hclear (fun _ h => h)
    not_foreign_own hf, fun _ _ => Iff.rfl, h⟩

theorem undisturbed_deleteBackup {taken : List BackupObject} (hclear : ClearBackup c p inst)
    (h : ∀ b ∈ taken, ¬ Foreign p b.madeFor) :
    Undisturbed p c (c.deleteBackup p.ns (initialBackupName inst)) taken := by
  refine ⟨fun b hf => ?_, fun _ _ => Iff.rfl, h⟩
  constructor
  · exact List.mem_of_mem_filter
  · intro hb
    apply List.mem_filter.mpr ⟨hb, ?_⟩
    by_contra hm
    exact hclear b hb (by simpa using hm) hf

theorem undisturbed_applySchedule {cnt : Int} {taken : List BackupObject}
    (hclear : ClearSchedule c p) (h : ∀ b ∈ taken, ¬ Foreign p b.madeFor) :
    Undisturbed p c (c.applySchedule (backupScheduleTemplate p inst cnt)) taken :=
  ⟨fun _ _ => Iff.rfl, fun _ hf => mem_applyTo_iff (F := fun s => Foreign p s.madeFor) hclear
    (fun _ h => h) not_foreign_own hf, h⟩

/-- A reconcile under clear names keeps the labels right and disturbs nobody. -/
theorem reconcile_of_clear {inst : Option InstanceView} (hc : Labelled c)
    (hclear : Clear c (.reconcile p inst a fuel)) :
    Labelled (reconcile parseStandard c p inst a fuel).1 ∧
      Undisturbed p c (reconcile parseStandard c p inst a fuel).1
        (reconcile parseStandard c p inst a fuel).2 := by
  have hnone : ∀ b ∈ ([] : List BackupObject), ¬ Foreign p b.madeFor := by simp
  unfold reconcile
  cases inst with
  | none => exact ⟨hc, undisturbed_self hnone⟩
  | some inst =>
    have hown : ∀ b ∈ c.applicable p inst, ¬ Foreign p b.madeFor :=
      fun b hb => not_foreign_of_labelled hc (List.mem_of_mem_filter hb)
    have hall : ∀ b ∈ c.applicable p inst ++ c.labelled p, ¬ Foreign p b.madeFor := by
      intro b hb
      rcases List.mem_append.mp hb with hb | hb
      · exact hown b hb
      · exact not_foreign_of_labelled hc hb
    dsimp only
    split
    · exact ⟨hc, undisturbed_self hnone⟩
    · unfold Clear at hclear
      dsimp only at hclear
      split
      · next hdec =>
        rw [hdec] at hclear
        split
        · exact ⟨labelled_applyBackup hc hclear, undisturbed_applyBackup hclear hown⟩
        · exact ⟨hc, undisturbed_self hown⟩
      · next hdec =>
        rw [hdec] at hclear
        split
        · exact ⟨labelled_deleteBackup hc, undisturbed_deleteBackup hclear hown⟩
        · exact ⟨hc, undisturbed_self hown⟩
      · exact ⟨hc, undisturbed_self hown⟩
      · exact ⟨hc, undisturbed_self hown⟩
      · next hdec =>
        rw [hdec] at hclear
        split
        · exact ⟨hc, undisturbed_self hown⟩
        · split
          · exact ⟨hc, undisturbed_self hall⟩
          · split
            · exact ⟨hc, undisturbed_self hall⟩
            · split
              · exact ⟨labelled_applySchedule hc hclear, undisturbed_applySchedule hclear hall⟩
              · exact ⟨hc, undisturbed_self hall⟩

theorem labelled_step (hc : Labelled c) (hclear : Clear c e)
    (h : step parseStandard c e = some t) : Labelled t := by
  cases e with
  | reconcile p inst a fuel =>
    obtain rfl := Option.some.inj h
    exact (reconcile_of_clear hc hclear).1
  | scheduled ns schedule name =>
    simp only [step] at h
    split at h
    · cases h
    · next s hs =>
      split at h
      · cases h
      · obtain rfl := Option.some.inj h
        refine ⟨fun b hb o ho => ?_, hc.schedules⟩
        rcases List.mem_append.mp hb with hb | hb
        · exact hc.backups b hb o ho
        · obtain rfl := List.mem_singleton.mp hb
          have hsel := List.find?_some hs
          simp only [ScheduleObject.isNamed, decide_eq_true_eq] at hsel
          obtain ⟨hns, hlabel⟩ := hc.schedules s (List.mem_of_find?_eq_some hs) o ho
          exact ⟨hsel.1.symm.trans hns, hlabel⟩
  | observed ns name incarnation reason =>
    obtain rfl := Option.some.inj h
    refine ⟨fun b hb o ho => ?_, hc.schedules⟩
    obtain ⟨b', hb', rfl⟩ := List.mem_map.mp hb
    split at ho
    · obtain ⟨hns, hlabel⟩ := hc.backups b' hb' o ho
      next hm =>
      rw [if_pos hm]
      refine ⟨hns, ?_⟩
      rw [Selects, Finmap.lookup_insert_of_ne _ (by decide)]
      exact hlabel
    · next hm =>
      rw [if_neg hm]
      exact hc.backups b' hb' o ho
  | userBackup ns name labels spec =>
    simp only [step] at h
    split at h
    · cases h
    · obtain rfl := Option.some.inj h
      refine ⟨fun b hb o ho => ?_, hc.schedules⟩
      rcases List.mem_append.mp hb with hb | hb
      · exact hc.backups b hb o ho
      · obtain rfl := List.mem_singleton.mp hb
        cases ho
  | backupGone ns name =>
    obtain rfl := Option.some.inj h
    exact labelled_deleteBackup hc
  | scheduleGone ns name =>
    obtain rfl := Option.some.inj h
    exact ⟨hc.backups, fun s hs => hc.schedules s (List.mem_of_mem_filter hs)⟩

/-- Every call of the reconcile is served. -/
structure Served (parseStandard : String → Except String CronSchedule) (p : PITRObject)
    (a : Answers) (fuel : Nat) : Prop where
  valid : validatePITRSpec parseStandard p.spec = []
  ensureAgent : a.ensureAgent = none
  listBackups : a.listBackups = none
  initial : a.initial.Effective
  listAllBackups : a.listAllBackups = none
  updateStatus : a.updateStatus = none
  counts : ∃ cnt, retentionCnt parseStandard p.spec fuel = some cnt
  patchSchedule : a.patchSchedule.Effective

/-- A name that another PITR object has taken is taken from it. -/
theorem interferes_of_not_clear {inst : Option InstanceView} (hc : Labelled c)
    (hs : Served parseStandard p a fuel) (hclear : ¬ Clear c (.reconcile p inst a fuel)) :
    ¬ Undisturbed p c (reconcile parseStandard c p inst a fuel).1
      (reconcile parseStandard c p inst a fuel).2 := by
  intro hu
  cases inst with
  | none => exact hclear trivial
  | some inst =>
    have hvalid : ¬ (validatePITRSpec parseStandard p.spec ≠ [] ∨ a.ensureAgent ≠ none ∨
        a.listBackups ≠ none) := by simp [hs.valid, hs.ensureAgent, hs.listBackups]
    obtain ⟨cnt, hcnt⟩ := hs.counts
    unfold Clear at hclear
    simp only [reconcile, if_neg hvalid] at hu
    cases hdec : decideOn (c.applicable p inst) with
    | wait => simp [hdec] at hclear
    | panics => simp [hdec] at hclear
    | create =>
      simp only [hdec, ClearBackup, not_forall, not_not] at hclear
      simp only [hdec, if_pos hs.initial] at hu
      obtain ⟨b, hb, hnamed, hf⟩ := hclear
      obtain ⟨b', rfl⟩ := exists_update_of_mem_applyTo ((hu.backups b hf).mpr hb) hb hnamed
      obtain ⟨o, ho, hne⟩ := hf
      simp only [BackupObject.isNamed, decide_eq_true_eq] at hnamed
      exact hne (eq_key_of_selects (hc.backups _ hb o ho) hnamed.1 (selects_patch b'))
    | replaceFailed =>
      simp only [hdec, ClearBackup, not_forall, not_not] at hclear
      simp only [hdec, if_pos hs.initial] at hu
      obtain ⟨b, hb, hnamed, hf⟩ := hclear
      have hkept := (List.mem_filter.mp ((hu.backups b hf).mpr hb)).2
      rw [hnamed] at hkept
      cases hkept
    | proceed =>
      simp only [hdec, ClearSchedule, not_forall, not_not] at hclear
      simp only [hdec, hs.listAllBackups, hs.updateStatus, hcnt, if_pos hs.patchSchedule, ne_eq,
        not_true_eq_false, if_false] at hu
      obtain ⟨s, hmem, hnamed, hf⟩ := hclear
      obtain ⟨s', rfl⟩ := exists_update_of_mem_applyTo ((hu.schedules s hf).mpr hmem) hmem hnamed
      obtain ⟨o, ho, hne⟩ := hf
      have hlabel : Selects pitrLabel p.name
          ((backupScheduleTemplate p inst cnt).patch s').backupLabels := by
        simp [ScheduleObject.patch, backupScheduleTemplate, Selects]
      exact hne (eq_key_of_selects (hc.schedules _ hmem o ho) rfl hlabel)

end Steps

/-- A namespace before any PITR object is reconciled in it. -/
def noObjects : Cluster := ⟨[], []⟩

theorem labelled_noObjects : Labelled noObjects := by
  constructor
  · intro b hb
    cases hb
  · intro s hs
    cases hs

section Samples

def bothServed : Answers := ⟨none, none, .ok, none, none, .ok⟩

def pitrOf (name : String) : PITRObject := ⟨"db", name, name, ⟨"gs://bk/" ++ name, ""⟩⟩

/-- A reconcile for the instance of a PITR object, whose database is in some incarnation. -/
def reconcileOf (name incarnation : String) : Event :=
  .reconcile (pitrOf name) (some ⟨name ++ "-db", incarnation⟩) bothServed 50

/-- A PITR object takes its initial Backup and then its schedule. -/
def firstPitr : List Event :=
  [reconcileOf "pitr-a" "2", .observed "db" "pitr-backup-incarnation-2" "2" .backupReady,
    reconcileOf "pitr-a" "2"]

instance (p : PITRObject) (madeFor : Option ObjectKey) : Decidable (Foreign p madeFor) :=
  inferInstanceAs (Decidable (∃ o ∈ madeFor, _))

instance (c : Cluster) (p : PITRObject) (inst : InstanceView) : Decidable (ClearBackup c p inst) :=
  inferInstanceAs (Decidable (∀ _ ∈ _, _))

instance (c : Cluster) (p : PITRObject) : Decidable (ClearSchedule c p) :=
  inferInstanceAs (Decidable (∀ _ ∈ _, _))

instance clearDecidable (c : Cluster) : ∀ e, Decidable (Clear c e)
  | .reconcile p (some inst) _ _ =>
    match h : decideOn (c.applicable p inst) with
    | .create => decidable_of_iff (ClearBackup c p inst) (by simp [Clear, h])
    | .replaceFailed => decidable_of_iff (ClearBackup c p inst) (by simp [Clear, h])
    | .proceed => decidable_of_iff (ClearSchedule c p) (by simp [Clear, h])
    | .wait => .isTrue (by simp [Clear, h])
    | .panics => .isTrue (by simp [Clear, h])
  | .reconcile _ none _ _ => .isTrue trivial
  | .scheduled _ _ _ => .isTrue trivial
  | .observed _ _ _ _ => .isTrue trivial
  | .userBackup _ _ _ _ => .isTrue trivial
  | .backupGone _ _ => .isTrue trivial
  | .scheduleGone _ _ => .isTrue trivial

theorem pitrOf_served (name : String) (h : validatePITRSpec parseSample (pitrOf name).spec = []) :
    Served parseSample (pitrOf name) bothServed 50 :=
  ⟨h, rfl, rfl, by decide, rfl, rfl, ⟨_, rfl⟩, by decide⟩

/-- The second PITR object takes its own initial Backup, of another incarnation. -/
def secondPitr : List Event :=
  firstPitr ++ [reconcileOf "pitr-b" "3",
    .observed "db" "pitr-backup-incarnation-3" "3" .backupReady]

theorem labelled_of_run (es : List Event) (hm : Runs.Meets (step parseSample) Clear noObjects es)
    {c : Cluster} (hr : Runs.run (step parseSample) noObjects es = some c) : Labelled c :=
  Runs.invariant (fun _ _ _ hc hclear h => labelled_step hc hclear h) labelled_noObjects hm hr

end Samples

end ElCarro.PitrController
