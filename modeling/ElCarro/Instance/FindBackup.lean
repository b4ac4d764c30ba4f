import ElCarro.Api.Types

/-! # Choosing the Backup of a restore request

A request names its Backup by ID, by reference or by a point in time. For a point
in time the Backup is the latest one before it that carries the labels of the PITR
object and of the incarnation, or of its parent incarnation.
-/

namespace ElCarro.Instance

open GoTime K8s Api

/-- What a restore request is resolved against. -/
structure Catalog where
  backups : List Backup
  pitrs : List PITR
  /-- `time.Parse` with the layout RFC3339. -/
  parseTime : String → Option Time
  /-- `strconv.ParseInt` with base 10 and 64 bits. -/
  parseInt : String → Option Int
  getBackupErr : Option ApiError
  listBackupsErr : Option ApiError
  getPITRErr : Option ApiError
  listPITRsErr : Option ApiError

section Pitr

variable (cat : Catalog)

/-- `findRestorePITR`: without a reference the first PITR object of the namespace. -/
def findRestorePITR (inst : Instance) (pitrRestore : PITRRestoreSpec) : Except String PITR :=
  match pitrRestore.pitrRef with
  | some ref =>
    match cat.getPITRErr, cat.pitrs.find? (fun p => p.ns = ref.ns ∧ p.name = ref.name) with
    | none, some p => .ok p
    | _, _ => .error "failed to get a PITR object for a PITR restore"
  | none =>
    match cat.listPITRsErr with
    | some _ => .error "failed to get a PITR object for a PITR restore"
    | none =>
      let items := cat.pitrs.filter (·.ns = inst.ns)
      if items.any (·.instanceRef.name = inst.name) then
        match items with
        | p :: _ => .ok p
        | [] => .error "PITR preflight check: instance doesn't have PITR enabled or specified"
      else .error "PITR preflight check: instance doesn't have PITR enabled or specified"

/-- Backups in a namespace with the labels of a PITR object and an incarnation. -/
def pitrBackups (p : PITR) (incarnation : String) : List Backup :=
  cat.backups.filter fun b =>
    b.ns = p.ns ∧ Selects pitrLabel p.name b.labels ∧
      Selects incarnationLabel incarnation b.labels

/-- The annotated time of a Backup that is Ready, if it can be read. -/
def readyTime (b : Backup) : Option Time :=
  if conditionStatusEquals (findCondition b.status.conditions .ready) .true then
    if valueAt b.annotations timestampAnnotation = "" then none
    else cat.parseTime (valueAt b.annotations timestampAnnotation)
  else none

def readySCN (b : Backup) : Option Int :=
  if conditionStatusEquals (findCondition b.status.conditions .ready) .true then
    if valueAt b.annotations scnAnnotation = "" then none
    else cat.parseInt (valueAt b.annotations scnAnnotation)
  else none

/-- The loop that keeps the Backup at the smallest distance, the first of equals. -/
def closest (distance : Backup → Option Int) :
    List Backup → Option Backup → Int → Option Backup
  | [], backup, _ => backup
  | b :: rest, backup, best =>
    match distance b with
    | none => closest distance rest backup best
    | some d =>
      if 0 ≤ d ∧ d < best then closest distance rest (some b) d
      else closest distance rest backup best

def findPITRBackupBasedonTimestamp (backups : List Backup) (target : Time) :
    Except String Backup :=
  match closest (fun b => (readyTime cat b).map fun t => sub target t) backups none
      maxDuration with
  | some b => .ok b
  | none => .error ("findPITRBackupBasedonTimestamp: failed to find valid backup for PITR " ++
      "restore based on timestamp")

def findPITRBackupBasedonSCN (backups : List Backup) (target : Int) : Except String Backup :=
  match closest (fun b => (readySCN cat b).map fun scn => int64 (target - scn)) backups none
      maxDuration with
  | some b => .ok b
  | none => .error ("findPITRBackupBasedonSCN: failed to find valid backup for PITR " ++
      "restore based on scn")

def findPITRBackup (backups : List Backup) (pitrRestore : PITRRestoreSpec) :
    Except String Backup :=
  if backups = [] then .error "failed to find any backup for a PITR restore"
  else match pitrRestore.timestamp with
    | some t => findPITRBackupBasedonTimestamp cat backups t
    | none =>
      match cat.parseInt pitrRestore.scn with
      | none => .error "failed to parse .pitrRestore.scn"
      | some scn => findPITRBackupBasedonSCN cat backups scn

/-- The incarnation that a request without one stands for. -/
def targetIncarnation (inst : Instance) (pitrRestore : PITRRestoreSpec) (p : PITR) : String :=
  if pitrRestore.incarnation ≠ "" then pitrRestore.incarnation
  else if pitrRestore.pitrRef.isSome then p.currentDatabaseIncarnation
  else inst.status.currentDatabaseIncarnation

def findPITRBackupForRestore (inst : Instance) (pitrRestore : PITRRestoreSpec) :
    Except String Backup :=
  if pitrRestore.scn = "" ∧ pitrRestore.timestamp = none then
    .error "PITR preflight check: must specify either .PITRRestore.SCN or .PITRRestore.Time"
  else if pitrRestore.scn ≠ "" ∧ pitrRestore.timestamp ≠ none then
    .error ("PITR preflight check: .PITRRestore.SCN and .PITRRestore.Time cannot be " ++
      "specified at the same time")
  else match findRestorePITR cat inst pitrRestore with
    | .error err => .error err
    | .ok p =>
      match cat.listBackupsErr with
      | some _ => .error "failed to get backups for a PITR restore"
      | none =>
        match pitrBackups cat p (targetIncarnation inst pitrRestore p) with
        | [] => .error "failed to find any backup for a PITR restore"
        | first :: rest =>
          match findPITRBackup cat (first :: rest) pitrRestore with
          | .ok b => .ok b
          | .error _ =>
            -- no Backup of the incarnation lies before the target, look in its parent
            findPITRBackup cat (pitrBackups cat p (valueAt first.labels parentIncarnationLabel))
              pitrRestore

end Pitr

def backupTypeText : BackupType → String
  | .unset => ""
  | .snapshot => "Snapshot"
  | .physical => "Physical"
  | .logical => "Logical"

/-- The last Backup of the namespace with the requested ID. -/
def lastWithID (cat : Catalog) (ns backupID : String) : Option Backup :=
  ((cat.backups.filter (·.ns = ns)).filter (·.status.backupID = backupID)).getLast?

def findBackupForRestore (cat : Catalog) (inst : Instance) (restore : RestoreSpec) :
    Except String Backup :=
  let found : Except String Backup :=
    match restore.backupRef, restore.pitrRestore with
    | some ref, pitrRestore =>
      if restore.backupID ≠ "" ∨ pitrRestore ≠ none then
        .error "preflight check: specify only one of BackupID/BackupRef/PITRRestore"
      else match cat.getBackupErr,
          cat.backups.find? (fun b => b.ns = ref.ns ∧ b.name = ref.name) with
        | none, some b => .ok b
        | _, _ => .error "preflight check: failed to get backup for a restore"
    | none, pitrRestore =>
      if restore.backupID ≠ "" then
        if pitrRestore ≠ none then
          .error "preflight check: specify only one of BackupID/BackupRef/PITRRestore"
        else match cat.listBackupsErr with
          | some _ => .error "preflight check: failed to list backups for a restore"
          | none =>
            let missing := Except.error
              ("preflight check: failed to locate the requested backup \"" ++ restore.backupID ++
                "\"")
            match lastWithID cat inst.ns restore.backupID with
            | some b => if b.type = .unset then missing else .ok b
            | none => missing
      else match pitrRestore with
        | none => .error ("preflight check: either BackupID or BackupRef or PITRRestore must " ++
            "be set to perform a restore")
        | some pitrRestore => findPITRBackupForRestore cat inst pitrRestore
  match found with
  | .error err => .error err
  | .ok b =>
    if b.type ≠ restore.backupType then
      .error ("preflight check: located a backup of type \"" ++ backupTypeText b.type ++
        "\", wanted: \"" ++ backupTypeText restore.backupType ++ "\"")
    else .ok b

section Closest

/-- The loop keeps what it had, or ends with an element at the smallest distance. -/
theorem closest_spec (distance : Backup → Option Int) (backups : List Backup)
    (backup : Option Backup) (best : Int) :
    (closest distance backups backup best = backup ∧
        ∀ b ∈ backups, ∀ d, distance b = some d → 0 ≤ d → best ≤ d) ∨
      ∃ b ∈ backups, ∃ d, closest distance backups backup best = some b ∧ distance b = some d ∧
        0 ≤ d ∧ d < best ∧ ∀ b' ∈ backups, ∀ d', distance b' = some d' → 0 ≤ d' → d ≤ d' := by
  induction backups generalizing backup best with
  | nil => exact .inl ⟨rfl, by simp⟩
  | cons b rest ih =>
    unfold closest
    cases hd : distance b with
    | none =>
      rcases ih backup best with ⟨heq, hmin⟩ | ⟨b', hb', d', heq, hd', h0, hlt, hmin⟩
      · refine .inl ⟨heq, ?_⟩
        simp only [List.forall_mem_cons, hd]
        exact ⟨by simp, hmin⟩
      · refine .inr ⟨b', List.mem_cons_of_mem _ hb', d', heq, hd', h0, hlt, ?_⟩
        simp only [List.forall_mem_cons, hd]
        exact ⟨by simp, hmin⟩
    | some d =>
      dsimp only
      split
      · next hnear =>
        refine .inr ?_
        rcases ih (some b) d with ⟨heq, hmin⟩ | ⟨b', hb', d', heq, hd', h0, hlt, hmin⟩
        · refine ⟨b, List.mem_cons_self, d, heq, hd, hnear.1, hnear.2, ?_⟩
          simp only [List.forall_mem_cons, hd, Option.some.injEq]
          exact ⟨by rintro d' rfl -; exact le_rfl, hmin⟩
        · refine ⟨b', List.mem_cons_of_mem _ hb', d', heq, hd', h0, hlt.trans hnear.2, ?_⟩
          simp only [List.forall_mem_cons, hd, Option.some.injEq]
          exact ⟨by rintro e rfl -; exact hlt.le, hmin⟩
      · next hfar =>
        rcases ih backup best with ⟨heq, hmin⟩ | ⟨b', hb', d', heq, hd', h0, hlt, hmin⟩
        · refine .inl ⟨heq, ?_⟩
          simp only [List.forall_mem_cons, hd, Option.some.injEq]
          exact ⟨by rintro e rfl he; omega, hmin⟩
        · refine .inr ⟨b', List.mem_cons_of_mem _ hb', d', heq, hd', h0, hlt, ?_⟩
          simp only [List.forall_mem_cons, hd, Option.some.injEq]
          exact ⟨by rintro e rfl he; omega, hmin⟩

/-- The latest time at or before the target that a Ready Backup carries, if a duration
can tell it from the target. -/
def LatestReady (cat : Catalog) (backups : List Backup) (target t : Time) : Prop :=
  (∃ b ∈ backups, readyTime cat b = some t) ∧ t ≤ target ∧ target - t < maxDuration ∧
    ∀ b ∈ backups, ∀ u, readyTime cat b = some u → u ≤ target → u ≤ t

theorem LatestReady.unique {cat : Catalog} {backups : List Backup} {target t u : Time}
    (ht : LatestReady cat backups target t) (hu : LatestReady cat backups target u) : t = u := by
  obtain ⟨⟨b, hb, hbt⟩, htle, -, htmax⟩ := ht
  obtain ⟨⟨b', hb', hbu⟩, hule, -, humax⟩ := hu
  exact le_antisymm (humax b hb t hbt htle) (htmax b' hb' u hbu hule)

theorem findPITRBackupBasedonTimestamp_spec (cat : Catalog) (backups : List Backup)
    (target : Time) :
    (∃ b t, findPITRBackupBasedonTimestamp cat backups target = .ok b ∧
        readyTime cat b = some t ∧ LatestReady cat backups target t) ∨
      (∃ err, findPITRBackupBasedonTimestamp cat backups target = .error err) ∧
        ∀ t, ¬ LatestReady cat backups target t := by
  have hspec := closest_spec (fun b => (readyTime cat b).map fun t => sub target t) backups none
    maxDuration
  unfold findPITRBackupBasedonTimestamp
  rcases hspec with ⟨heq, hmin⟩ | ⟨b, hb, d, heq, hd, h0, hlt, hmin⟩
  · refine .inr ⟨⟨_, by rw [heq]⟩, ?_⟩
    rintro t ⟨⟨b, hb, hbt⟩, hle, hlt, -⟩
    have hfar := hmin b hb (sub target t) (by simp [hbt]) (sub_nonneg_iff.mpr hle)
    exact absurd (sub_lt_max_iff.mpr hlt) (not_lt.mpr hfar)
  · obtain ⟨t, hbt, rfl⟩ := Option.map_eq_some_iff.mp hd
    refine .inl ⟨b, t, by rw [heq], hbt, ⟨b, hb, hbt⟩, sub_nonneg_iff.mp h0,
      sub_lt_max_iff.mp hlt, ?_⟩
    intro b' hb' u hbu hu
    have hle := hmin b' hb' (sub target u) (by simp [hbu]) (sub_nonneg_iff.mpr hu)
    exact le_of_sub_le_sub hlt hu hle

theorem latestReady_of_ok {cat : Catalog} {backups : List Backup} {target : Time} {b : Backup}
    (h : findPITRBackupBasedonTimestamp cat backups target = .ok b) :
    ∃ t, readyTime cat b = some t ∧ LatestReady cat backups target t := by
  rcases findPITRBackupBasedonTimestamp_spec cat backups target with
    ⟨b', t, hok, hbt, hlatest⟩ | ⟨⟨err, herr⟩, -⟩
  · obtain rfl : b = b' := Except.ok.inj (h.symm.trans hok)
    exact ⟨t, hbt, hlatest⟩
  · rw [herr] at h
    cases h

end Closest

section

variable {cat : Catalog} {inst : Instance} {restore : RestoreSpec} {b : Backup}

theorem mem_of_lastWithID {ns backupID : String} (h : lastWithID cat ns backupID = some b) :
    b ∈ cat.backups ∧ b.ns = ns ∧ b.status.backupID = backupID := by
  have hm := List.mem_of_getLast? h
  obtain ⟨hm, hid⟩ := List.mem_filter.mp hm
  obtain ⟨hm, hns⟩ := List.mem_filter.mp hm
  exact ⟨hm, by simpa using hns, by simpa using hid⟩

/-- The ways to find a Backup. -/
inductive FoundBy (cat : Catalog) (inst : Instance) (restore : RestoreSpec) (b : Backup) : Prop where
  | ref {ref : ObjectKey} (href : restore.backupRef = some ref) (hid : restore.backupID = "")
      (hns : b.ns = ref.ns) (hname : b.name = ref.name)
  | id (href : restore.backupRef = none) (hid : restore.backupID ≠ "")
      (hlast : lastWithID cat inst.ns restore.backupID = some b)
  | time {pitrRestore : PITRRestoreSpec} (href : restore.backupRef = none)
      (hid : restore.backupID = "") (hpitr : restore.pitrRestore = some pitrRestore)
      (hfound : findPITRBackupForRestore cat inst pitrRestore = .ok b)

theorem findBackupForRestore_ok (h : findBackupForRestore cat inst restore = .ok b) :
    FoundBy cat inst restore b ∧ b.type = restore.backupType := by
  unfold findBackupForRestore at h
  dsimp only at h
  split at h
  · cases h
  · next b' hfound =>
    split at h
    · cases h
    · next htype =>
      obtain rfl : b' = b := Except.ok.inj h
      refine ⟨?_, not_not.mp htype⟩
      split at hfound
      · next ref pitrRestore href =>
        split at hfound
        · cases hfound
        · next hone =>
          push Not at hone
          split at hfound
          · next b'' _ hfind =>
            obtain rfl := Except.ok.inj hfound
            have hkey := List.find?_some hfind
            obtain ⟨hns, hname⟩ := of_decide_eq_true hkey
            exact .ref href hone.1 hns hname
          · cases hfound
      · next pitrRestore href =>
        split at hfound
        · next hid =>
          split at hfound
          · cases hfound
          · split at hfound
            · cases hfound
            · split at hfound
              · next b'' hlast =>
                split at hfound
                · cases hfound
                · obtain rfl := Except.ok.inj hfound
                  exact .id href hid hlast
              · cases hfound
        · next hid =>
          split at hfound
          · cases hfound
          · next r hr => exact .time href (not_not.mp hid) hr hfound

/-- A request with a backup ID gets a Backup of its namespace with that ID. -/
theorem findBackupForRestore_backupID (hid : restore.backupID ≠ "")
    (h : findBackupForRestore cat inst restore = .ok b) :
    b.ns = inst.ns ∧ b.status.backupID = restore.backupID := by
  cases (findBackupForRestore_ok h).1 with
  | ref _ hid' => exact absurd hid' hid
  | id _ _ hlast => exact (mem_of_lastWithID hlast).2
  | time _ hid' => exact absurd hid' hid

end

end ElCarro.Instance
