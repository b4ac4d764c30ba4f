import ElCarro.Instance.RestoreOnce
import ElCarro.Instance.Selection
import ElCarro.Pitr.Recovery

/-! # The request of a physical restore

`restorePhysical` asks the agent for a restore from one Backup. For a point in time it adds
the interval and the place of the redo logs, which it takes from the PITR object that the
request stands for. Without a reference that is the first PITR object of the namespace, as
soon as any of them refers to the instance.
-/

namespace ElCarro.Instance

open GoTime K8s Api
open Pitr (PitrRestoreInput restoreInput)

section Request

structure PhysicalRestoreRequest where
  instanceName : String
  cdbName : String
  dop : Int
  localPath : String
  gcsPath : String
  /-- The name of the operation; the restore time is set when the request was accepted. -/
  operationId : Option String
  logGcsPath : String
  incarnation : String
  backupIncarnation : String
  interval : PitrRestoreInput

/-- What `restorePhysical` reads besides the Backup and the request themselves. -/
structure RestoreDetails where
  /-- The error of `restorePhysicalPreflightCheck`. -/
  preflight : Option String
  backupset : Option Bool
  subtype : String
  localPath : String
  gcsPath : String
  backupDop : Int
  restoreDop : Int
  /-- The zone in which the name of the operation is written. -/
  offset : Int

/-- The DOP of the request comes first, then the one of the Backup, then 1. -/
def restoreDOP (r b : Int) : Int := if 0 < r then r else if 0 < b then b else 1

variable (cat : Catalog)

/-- The start and the end in SCNs, and in time. -/
def restoreInterval (pitrRestore : PITRRestoreSpec) (backup : Backup) :
    Except String PitrRestoreInput := do
  let (startScn, endScn) ←
    if pitrRestore.scn ≠ "" then
      match cat.parseInt (valueAt backup.annotations scnAnnotation) with
      | none => .error "PITR restore preflight check: failed to parse backup SCN"
      | some startScn =>
        match cat.parseInt pitrRestore.scn with
        | none => .error "PITR restore preflight check: failed to parse restore SCN"
        | some endScn => .ok (startScn, endScn)
    else .ok (0, 0)
  match pitrRestore.timestamp with
  | none => .ok ⟨none, none, startScn, endScn⟩
  | some t =>
    match cat.parseTime (valueAt backup.annotations timestampAnnotation) with
    | none => .error "failed to find backup timestamp"
    | some startTime => .ok ⟨some startTime, some t, startScn, endScn⟩

def restorePhysical (inst : Instance) (restore : RestoreSpec) (details : RestoreDetails)
    (backup : Backup) : Except String PhysicalRestoreRequest :=
  match details.preflight with
  | some err => .error err
  | none =>
    if details.backupset = some false then
      .error ("preflight check: located a physical backup, but in this release the auto-restore " ++
        "is only supported from a Backupset backup")
    else if details.subtype ≠ "" ∧ details.subtype ≠ "Instance" then
      .error ("preflight check: located a physical backup, but in this release the auto-restore " ++
        "is only supported from a Backupset taken at the Instance level")
    else
      let backupIncarnation := valueAt backup.labels incarnationLabel
      let request (logGcsPath incarnation : String) (interval : PitrRestoreInput) :
          PhysicalRestoreRequest :=
        { instanceName := inst.name
          cdbName := inst.spec.cdbName
          dop := restoreDOP details.restoreDop details.backupDop
          localPath := details.localPath
          gcsPath := details.gcsPath
          operationId := inst.status.lastRestoreTime.map
            (Reconciler.lroRestoreOperationID details.offset Reconciler.physicalRestore inst.uid)
          logGcsPath := logGcsPath
          incarnation := incarnation
          backupIncarnation := backupIncarnation
          interval := interval }
      match restore.pitrRestore with
      | none => .ok (request "" backupIncarnation ⟨none, none, 0, 0⟩)
      | some pitrRestore =>
        match restoreInterval cat pitrRestore backup, findRestorePITR cat inst pitrRestore with
        | .error err, _ => .error err
        | .ok _, .error err => .error err
        | .ok interval, .ok p =>
          .ok (request p.storageURI (targetIncarnation inst pitrRestore p) interval)

theorem restoreInterval_toOption (pitrRestore : PITRRestoreSpec) (backup : Backup) :
    (restoreInterval cat pitrRestore backup).toOption = restoreInput cat pitrRestore backup := by
  unfold restoreInterval restoreInput
  by_cases hscn : pitrRestore.scn = ""
  · simp only [hscn, ne_eq, not_true_eq_false, if_false]
    cases pitrRestore.timestamp with
    | none => rfl
    | some t => cases cat.parseTime (valueAt backup.annotations timestampAnnotation) <;> rfl
  · simp only [hscn, ne_eq, not_false_eq_true, if_true]
    cases cat.parseInt (valueAt backup.annotations scnAnnotation) with
    | none => rfl
    | some startScn =>
      cases cat.parseInt pitrRestore.scn with
      | none => rfl
      | some endScn =>
        cases pitrRestore.timestamp with
        | none => rfl
        | some t => cases cat.parseTime (valueAt backup.annotations timestampAnnotation) <;> rfl

end Request

section Property

variable (cat : Catalog) (inst : Instance)

/-- A PITR object of the namespace refers to the instance. -/
def Refers (p : PITR) : Prop := p ∈ cat.pitrs ∧ p.ns = inst.ns ∧ p.instanceRef.name = inst.name

/-- A restore without a reference to a PITR object works with one of its own instance. -/
structure FromOwnPITR : Prop where
  own : ∀ pitrRestore p, pitrRestore.pitrRef = none →
    findRestorePITR cat inst pitrRestore = .ok p → Refers cat inst p
  found : ∀ pitrRestore, pitrRestore.pitrRef = none → cat.listPITRsErr = none →
    (∃ p, Refers cat inst p) → ∃ p, findRestorePITR cat inst pitrRestore = .ok p
  backup : ∀ pitrRestore b, pitrRestore.pitrRef = none →
    findPITRBackupForRestore cat inst pitrRestore = .ok b →
    ∃ p, findRestorePITR cat inst pitrRestore = .ok p ∧ Refers cat inst p ∧ b.ns = p.ns ∧
      Selects pitrLabel p.name b.labels
  logs : ∀ restore pitrRestore details b request, restore.pitrRestore = some pitrRestore →
    pitrRestore.pitrRef = none → restorePhysical cat inst restore details b = .ok request →
    ∃ p, findRestorePITR cat inst pitrRestore = .ok p ∧ Refers cat inst p ∧
      request.logGcsPath = p.storageURI

/-- The first PITR object of the namespace refers to the instance, if any of them does. -/
def FirstRefers : Prop :=
  cat.listPITRsErr = none → (∃ p, Refers cat inst p) →
    ∀ p ∈ (cat.pitrs.filter (·.ns = inst.ns)).head?, Refers cat inst p

end Property

section

variable {cat : Catalog} {inst : Instance} {pitrRestore : PITRRestoreSpec} {p : PITR} {b : Backup}

/-- Without a reference the first PITR object of the namespace is taken, if any of them refers to
the instance. -/
theorem findRestorePITR_eq_ok_iff (href : pitrRestore.pitrRef = none) :
    findRestorePITR cat inst pitrRestore = .ok p ↔
      cat.listPITRsErr = none ∧ (∃ q, Refers cat inst q) ∧
        (cat.pitrs.filter (·.ns = inst.ns)).head? = some p := by
  have hany : (cat.pitrs.filter (·.ns = inst.ns)).any (·.instanceRef.name = inst.name) = true ↔
      ∃ q, Refers cat inst q := by
    simp only [List.any_eq_true, List.mem_filter, decide_eq_true_eq, Refers, and_assoc]
  unfold findRestorePITR
  rw [href]
  dsimp only
  cases cat.listPITRsErr with
  | some err => simp
  | none =>
    dsimp only
    by_cases hq : ∃ q, Refers cat inst q
    · rw [if_pos (hany.mpr hq)]
      cases cat.pitrs.filter (·.ns = inst.ns) with
      | nil => simp
      | cons first rest => simp [hq]
    · rw [if_neg fun h => hq (hany.mp h)]
      simp [hq]

/-- The Backup of a point in time carries the label of the PITR object. -/
theorem labelled_of_found (h : findPITRBackupForRestore cat inst pitrRestore = .ok b) :
    ∃ p, findRestorePITR cat inst pitrRestore = .ok p ∧ b.ns = p.ns ∧
      Selects pitrLabel p.name b.labels := by
  obtain ⟨p, first, rest, hp, hlist, hfound⟩ := findPITRBackupForRestore_ok h
  have hmem : ∀ backups, closest (pitrDistance cat pitrRestore) backups none maxDuration = some b →
      b ∈ backups := by
    intro backups hclosest
    rcases closest_first hclosest with ⟨hnone, -⟩ | ⟨i, d, -, hnearest⟩
    · cases hnone
    · exact List.mem_of_getElem? hnearest.listed
  refine ⟨p, hp, ?_⟩
  have hlabels : ∀ incarnation, b ∈ pitrBackups cat p incarnation →
      b.ns = p.ns ∧ Selects pitrLabel p.name b.labels := by
    intro incarnation hb
    have hsel := of_decide_eq_true (List.mem_filter.mp hb).2
    exact ⟨hsel.1, hsel.2.1⟩
  rcases hfound with hfound | ⟨-, hfound⟩
  · exact hlabels _ (hlist ▸ hmem _ hfound)
  · exact hlabels _ (hmem _ hfound)

/-- The place of the logs is the one of the PITR object. -/
theorem logGcsPath_of_restorePhysical {restore : RestoreSpec} {details : RestoreDetails}
    {request : PhysicalRestoreRequest} (hpitr : restore.pitrRestore = some pitrRestore)
    (h : restorePhysical cat inst restore details b = .ok request) :
    ∃ p, findRestorePITR cat inst pitrRestore = .ok p ∧ request.logGcsPath = p.storageURI := by
  unfold restorePhysical at h
  split at h
  · cases h
  · split at h
    · cases h
    · split at h
      · cases h
      · rw [hpitr] at h
        dsimp only at h
        split at h
        · cases h
        · cases h
        · next p _ hp =>
          obtain rfl := Except.ok.inj h
          exact ⟨p, hp, rfl⟩

end

/--
A restore to a point in time that names no PITR object finds one of its own instance whenever
there is one, and takes its Backup and its logs from there, exactly when the first PITR object
that is listed in the namespace is such a one, or none is.
-/
theorem fromOwnPITR_iff (cat : Catalog) (inst : Instance) :
    FromOwnPITR cat inst ↔ FirstRefers cat inst := by
  constructor
  · intro h hlist hsome p hp
    have href : (⟨"", none, "", none⟩ : PITRRestoreSpec).pitrRef = none := rfl
    exact h.own _ p href ((findRestorePITR_eq_ok_iff href).mpr ⟨hlist, hsome, hp⟩)
  · intro h
    have hown : ∀ pitrRestore p, pitrRestore.pitrRef = none →
        findRestorePITR cat inst pitrRestore = .ok p → Refers cat inst p := by
      intro pitrRestore p href hp
      obtain ⟨hlist, hsome, hhead⟩ := (findRestorePITR_eq_ok_iff href).mp hp
      exact h hlist hsome p hhead
    refine ⟨hown, ?_, ?_, ?_⟩
    · rintro pitrRestore href hlist ⟨q, hq⟩
      have hmem : q ∈ cat.pitrs.filter (·.ns = inst.ns) :=
        List.mem_filter.mpr ⟨hq.1, by simpa using hq.2.1⟩
      obtain ⟨p, hp⟩ := Option.ne_none_iff_exists'.mp
        (mt List.head?_eq_none_iff.mp (List.ne_nil_of_mem hmem))
      exact ⟨p, (findRestorePITR_eq_ok_iff href).mpr ⟨hlist, ⟨q, hq⟩, hp⟩⟩
    · intro pitrRestore b href hb
      obtain ⟨p, hp, hns, hlabel⟩ := labelled_of_found hb
      exact ⟨p, hp, hown pitrRestore p href hp, hns, hlabel⟩
    · intro restore pitrRestore details b request hpitr href hrequest
      obtain ⟨p, hp, hlogs⟩ := logGcsPath_of_restorePhysical hpitr hrequest
      exact ⟨p, hp, hown pitrRestore p href hp, hlogs⟩

section Sample

/-- Two instances of a namespace, each with its PITR object, and a Backup of the first one. -/
def twoPITRs : Catalog :=
  { windowCatalog [windowBackup "nightly" "1970-01-01T00:00:10Z" "1" "db:1"] with
    pitrs := [⟨"db", "window", ⟨"otherdb"⟩, "gs://bk/otherdb", "1"⟩,
      ⟨"db", "window-b", ⟨"mydb"⟩, "gs://bk/mydb", "1"⟩] }

/-- A restore of the second instance that names no PITR object. -/
def unnamedRestore : PITRRestoreSpec := ⟨"", some (30 * second), "", none⟩

/-- The second instance is restored from the Backup and with the PITR object of the first one. -/
theorem foreign_pitr_taken :
    findPITRBackupForRestore twoPITRs (.blank "db" "mydb") unnamedRestore =
        .ok (windowBackup "nightly" "1970-01-01T00:00:10Z" "1" "db:1") ∧
      ¬ FromOwnPITR twoPITRs (.blank "db" "mydb") := by
  constructor
  · decide
  · intro h
    obtain ⟨p, -, hrefers, -, hlabel⟩ := h.backup unnamedRestore
      (windowBackup "nightly" "1970-01-01T00:00:10Z" "1" "db:1") rfl (by decide)
    have hnone : ∀ p ∈ twoPITRs.pitrs, ¬ (p.instanceRef.name = "mydb" ∧ Selects pitrLabel p.name
        (windowBackup "nightly" "1970-01-01T00:00:10Z" "1" "db:1").labels) := by decide
    exact hnone p hrefers.1 ⟨hrefers.2.2, hlabel⟩

end Sample

end ElCarro.Instance
