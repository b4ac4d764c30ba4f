import ElCarro.BackupSchedule.Ownership

/-! # The cron follows its schedule

`createCron` builds the cron of a schedule, and `updateCron` compares and corrects it field
by field. Both agree on a schedule that sets its deadline. Without one the first writes the
default and the second takes it back.
-/

namespace ElCarro.BackupSchedule

open GoTime K8s Api Cron

section Templates

variable {J : Type} [DecidableEq J]

/-- `compareTemplate`: both templates are read as JSON objects, and these are compared. -/
def compareTemplate (unmarshal : String → Except String J) (left right : String) :
    Except String Bool := do
  let leftMap ← unmarshal left
  let rightMap ← unmarshal right
  return decide (leftMap = rightMap)

/-- What the JSON library is relied on for. -/
structure Libs.Json (lib : Libs) (unmarshal : String → Except String J) : Prop where
  compare : lib.compareTemplate = BackupSchedule.compareTemplate unmarshal
  /-- What was marshalled can be read. -/
  reads : ∀ schedule backupBytes, lib.getBackupBytes schedule = .ok backupBytes →
    ∃ template, unmarshal backupBytes = .ok template
  /-- The template is made of the spec. -/
  spec : ∀ schedule status,
    lib.getBackupBytes { schedule with status := status } = lib.getBackupBytes schedule

theorem compareTemplate_eq_ok {unmarshal : String → Except String J} {left right : String}
    {equal : Bool} (h : compareTemplate unmarshal left right = .ok equal) :
    ∃ l r, unmarshal left = .ok l ∧ unmarshal right = .ok r ∧ equal = decide (l = r) := by
  unfold compareTemplate at h
  cases hl : unmarshal left with
  | error err =>
    rw [hl] at h
    cases h
  | ok l =>
    cases hr : unmarshal right with
    | error err =>
      rw [hl, hr] at h
      cases h
    | ok r =>
      rw [hl, hr] at h
      exact ⟨l, r, rfl, rfl, (Except.ok.inj h).symm⟩

/-- A template is equal to another one that is read as the same object. -/
theorem Libs.Json.compare_same {lib : Libs} {unmarshal : String → Except String J}
    {schedule : Schedule} {template backupBytes : String} (hj : lib.Json unmarshal)
    (hbytes : lib.getBackupBytes schedule = .ok backupBytes)
    (h : unmarshal template = unmarshal backupBytes) :
    lib.compareTemplate template backupBytes = .ok true := by
  obtain ⟨object, hobject⟩ := hj.reads _ _ hbytes
  rw [hj.compare, BackupSchedule.compareTemplate, h, hobject]
  simp [bind, Except.bind, pure, Except.pure]

end Templates

section Objects

def Schedule.key (schedule : Schedule) : ObjectKey := ⟨schedule.ns, schedule.name⟩

def Schedule.cronKey (schedule : Schedule) : ObjectKey := ⟨schedule.ns, getCronName schedule⟩

/-- What a call does to the cluster; a new object gets its UID and its time from the API server. -/
def Cluster.apply (uid : String) (now : Time) (c : Cluster) : Call → Cluster
  | .createCron key spec =>
    { c with crons := c.crons ++ [⟨key.ns, key.name, uid, now, none, spec, ⟨none, [], none⟩⟩] }
  | .updateCron key spec =>
    { c with
      crons := c.crons.map fun ca =>
        if ca.ns = key.ns ∧ ca.name = key.name then { ca with spec := spec } else ca }
  | .updateStatus key status =>
    { c with
      schedules := c.schedules.map fun s =>
        if s.ns = key.ns ∧ s.name = key.name then { s with status := status } else s }
  | .deleteBackup backup ok =>
    if ok then { c with backups := c.backups.filter (· ≠ backup) } else c

def Cluster.applyAll (uid : String) (now : Time) (c : Cluster) (calls : List Call) : Cluster :=
  calls.foldl (Cluster.apply uid now) c

def Call.writesCron : Call → Bool
  | .createCron _ _ => true
  | .updateCron _ _ => true
  | .updateStatus _ _ => false
  | .deleteBackup _ _ => false

/-- Some call of a reconcile writes a cron. -/
def WritesCron (out : Outcome) : Prop := ∃ call ∈ out.calls, call.writesCron = true

instance (out : Outcome) : Decidable (WritesCron out) := inferInstanceAs (Decidable (∃ _ ∈ _, _))

/-- The schedule and its cron still have the specs that they had; the rest may have changed. -/
structure Unedited (schedule : Schedule) (c c' : Cluster) : Prop where
  kept : ∃ status, c'.getSchedule schedule.key = some { schedule with status := status }
  cron : (c'.getCron schedule.cronKey).map (·.spec) = (c.getCron schedule.cronKey).map (·.spec)

/-- The API server finds the schedule, and creates no cron that is there already. -/
structure Truthful (env : Env) (c : Cluster) (schedule : Schedule) : Prop where
  found : env.getErr ≠ some .notFound
  once : (c.getCron schedule.cronKey).isSome → env.createCronErr ≠ none

end Objects

section Property

variable {J : Type}

/-- The cron has the schedule, the deadline and the template that `createCron` would give it. -/
def Agrees (lib : Libs) (unmarshal : String → Except String J) (schedule : Schedule)
    (spec : CronAnythingSpec) : Prop :=
  ∃ backupBytes, lib.getBackupBytes schedule = .ok backupBytes ∧
    spec.schedule = (cronSpec schedule backupBytes).schedule ∧
    spec.triggerDeadlineSeconds = (cronSpec schedule backupBytes).triggerDeadlineSeconds ∧
    unmarshal spec.template = unmarshal (cronSpec schedule backupBytes).template

/-- Whatever the cron was before: a reconcile makes it agree with the schedule, and the next one
finds nothing to write. -/
structure Converges (lib : Libs) (unmarshal : String → Except String J) (schedule : Schedule) :
    Prop where
  settles : ∀ (c : Cluster) (env : Env) (uid : String) (now : Time),
    c.getSchedule schedule.key = some schedule → Truthful env c schedule →
    WritesCron (reconcile lib env c schedule.key) →
    ∀ (c' : Cluster) (env' : Env),
      Unedited schedule (c.applyAll uid now (reconcile lib env c schedule.key).calls) c' →
      Truthful env' c' schedule → ¬ WritesCron (reconcile lib env' c' schedule.key)
  agrees : ∀ (c : Cluster) (env : Env) (uid : String) (now : Time),
    c.getSchedule schedule.key = some schedule → Truthful env c schedule →
    (reconcile lib env c schedule.key).err = none ∨ WritesCron (reconcile lib env c schedule.key) →
    ∃ cron ∈ (c.applyAll uid now (reconcile lib env c schedule.key).calls).getCron schedule.cronKey,
      Agrees lib unmarshal schedule cron.spec

end Property

section CronPart

variable (lib : Libs) (env : Env) (c : Cluster) (schedule : Schedule)

/-- What a reconcile that has found its schedule does about the cron. -/
def cronPart : List Call × Option ApiError :=
  match env.getCronErr, c.getCron schedule.cronKey with
  | some .notFound, _ => createCron lib env schedule
  | none, none => createCron lib env schedule
  | some err, _ => ([], some err)
  | none, some cron => updateCron lib env schedule cron

end CronPart

section Reconcile

variable {lib : Libs} {env : Env} {c : Cluster} {schedule : Schedule}

theorem writesCron_of_mem_pruneLoop {call : Call} {count : Int} {backups : List Backup}
    (h : call ∈ (pruneLoop env count backups).1) : call.writesCron = false := by
  induction backups generalizing count with
  | nil => cases h
  | cons backup rest ih =>
    unfold pruneLoop at h
    dsimp only at h
    split at h
    · split at h
      · rw [List.mem_singleton.mp h]
        rfl
      · rcases List.mem_cons.mp h with rfl | h
        · rfl
        · exact ih h
    · exact ih h

/-- The calls of a reconcile: first those about the cron, then others. -/
theorem reconcile_eq (lib : Libs) (hs : c.getSchedule schedule.key = some schedule)
    (hget : env.getErr = none) :
    ∃ rest : List Call, (reconcile lib env c schedule.key).calls =
        (cronPart lib env c schedule).1 ++ rest ∧
      (∀ call ∈ rest, call.writesCron = false) ∧
      ((reconcile lib env c schedule.key).err = none → (cronPart lib env c schedule).2 = none) := by
  have hcron : c.getCron ⟨schedule.ns, getCronName schedule⟩ = c.getCron schedule.cronKey := rfl
  unfold reconcile cronPart
  rw [hget, hs]
  dsimp only
  rw [hcron]
  cases hcronErr : env.getCronErr with
  | some err =>
    cases err with
    | notFound => exact ⟨[], by simp, by simp, fun h => h⟩
    | _ => exact ⟨[], by simp, by simp, fun h => h⟩
  | none =>
    cases c.getCron schedule.cronKey with
    | none => exact ⟨[], by simp, by simp, fun h => h⟩
    | some cron =>
      dsimp only
      cases hupd : updateCron lib env schedule cron with
      | mk calls err =>
        cases err with
        | some err => exact ⟨[], by simp, by simp, fun h => h⟩
        | none =>
          dsimp only
          split
          · exact ⟨[], by simp, by simp, fun _ => rfl⟩
          · refine ⟨_, List.append_assoc _ _ _, ?_, fun _ => rfl⟩
            intro call hcall
            rcases List.mem_append.mp hcall with h | h
            · rw [List.mem_singleton.mp h]
              rfl
            · unfold pruneBackups at h
              split at h
              · cases h
              · exact writesCron_of_mem_pruneLoop h

end Reconcile

section Cases

variable {J : Type} [DecidableEq J] {unmarshal : String → Except String J} {lib : Libs} {env : Env}
  {c : Cluster} {schedule : Schedule} {cron : CronAnything}

theorem exists_attempt_of_retryOnConflict {α : Type*} {attempt : Nat → Except ApiError α}
    {steps : Nat} {x : α} (h : retryOnConflict attempt steps = .ok x) :
    ∃ k, attempt k = .ok x := by
  induction steps with
  | zero => cases h
  | succ steps ih =>
    unfold retryOnConflict at h
    split at h
    · exact ih h
    · exact ⟨steps, h⟩

theorem createCron_cases (lib : Libs) (env : Env) (schedule : Schedule) :
    (∃ err, createCron lib env schedule = ([], some err)) ∨
    ∃ backupBytes, lib.getBackupBytes schedule = .ok backupBytes ∧ env.createCronErr = none ∧
      createCron lib env schedule =
        ([.createCron schedule.cronKey (cronSpec schedule backupBytes)], none) := by
  unfold createCron
  cases hbytes : lib.getBackupBytes schedule with
  | error err => exact .inl ⟨_, rfl⟩
  | ok backupBytes =>
    cases herr : env.createCronErr with
    | some err => exact .inl ⟨_, rfl⟩
    | none => exact .inr ⟨backupBytes, rfl, rfl, rfl⟩

/-- The spec that `updateCron` writes. -/
def updatedSpec (schedule : Schedule) (backupBytes : String) (spec : CronAnythingSpec) :
    CronAnythingSpec :=
  { spec with
    schedule := schedule.schedule
    template := backupBytes
    triggerDeadlineSeconds := schedule.startingDeadlineSeconds }

/-- `updateCron` finds nothing to change. -/
structure InStep (unmarshal : String → Except String J) (schedule : Schedule) (backupBytes : String)
    (spec : CronAnythingSpec) : Prop where
  template : unmarshal spec.template = unmarshal backupBytes
  schedule_eq : spec.schedule = schedule.schedule
  deadline : spec.triggerDeadlineSeconds = schedule.startingDeadlineSeconds

theorem updateCron_cases (hj : lib.Json unmarshal) (env : Env) (schedule : Schedule)
    (cron : CronAnything) :
    (∃ err, updateCron lib env schedule cron = ([], some err)) ∨
    ∃ backupBytes, lib.getBackupBytes schedule = .ok backupBytes ∧
      (updateCron lib env schedule cron = ([], none) ∧
          InStep unmarshal schedule backupBytes cron.spec ∨
        updateCron lib env schedule cron = ([.updateCron ⟨cron.ns, cron.name⟩
          (updatedSpec schedule backupBytes cron.spec)], none)) := by
  unfold updateCron
  cases hbytes : lib.getBackupBytes schedule with
  | error err => exact .inl ⟨_, rfl⟩
  | ok backupBytes =>
    dsimp only
    split
    · exact .inl ⟨_, rfl⟩
    · next hretry =>
      obtain ⟨k, hk⟩ := exists_attempt_of_retryOnConflict hretry
      split at hk
      · cases hk
      · cases hk
      · next equal _ hcompare =>
        split at hk
        · next hsame =>
          rw [hj.compare] at hcompare
          obtain ⟨l, r, hl, hr, rfl⟩ := compareTemplate_eq_ok hcompare
          have hlr : l = r := by simpa using hsame.1
          exact .inr ⟨backupBytes, rfl, .inl ⟨rfl, by rw [hl, hr, hlr], hsame.2.1.symm,
            hsame.2.2.symm⟩⟩
        · split at hk <;> cases hk
    · exact .inr ⟨backupBytes, rfl, .inr rfl⟩

/-- Nothing is written to a cron that is in step. -/
theorem updateCron_of_inStep (hj : lib.Json unmarshal) {backupBytes : String}
    (hbytes : lib.getBackupBytes schedule = .ok backupBytes)
    (h : InStep unmarshal schedule backupBytes cron.spec) :
    (updateCron lib env schedule cron).1 = [] := by
  have hcompare := hj.compare_same hbytes h.template
  unfold updateCron
  rw [hbytes]
  dsimp only
  split
  · rfl
  · rfl
  · next hretry =>
    exfalso
    obtain ⟨k, hk⟩ := exists_attempt_of_retryOnConflict hretry
    rw [hcompare] at hk
    simp only [h.schedule_eq, h.deadline] at hk
    split at hk
    · cases hk
    · next heq => cases heq
    · next equal _ heq =>
      obtain rfl := Except.ok.inj heq
      simp at hk

/-- The ways in which the part about the cron ends. -/
inductive CronPart (unmarshal : String → Except String J) (lib : Libs) (c : Cluster)
    (schedule : Schedule) : List Call × Option ApiError → Prop where
  | failed (err : ApiError) : CronPart unmarshal lib c schedule ([], some err)
  | created {backupBytes : String} (hbytes : lib.getBackupBytes schedule = .ok backupBytes)
      (hnone : c.getCron schedule.cronKey = none) :
      CronPart unmarshal lib c schedule
        ([.createCron schedule.cronKey (cronSpec schedule backupBytes)], none)
  | kept {backupBytes : String} {cron : CronAnything}
      (hbytes : lib.getBackupBytes schedule = .ok backupBytes)
      (hcron : c.getCron schedule.cronKey = some cron)
      (hstep : InStep unmarshal schedule backupBytes cron.spec) :
      CronPart unmarshal lib c schedule ([], none)
  | updated {backupBytes : String} {cron : CronAnything}
      (hbytes : lib.getBackupBytes schedule = .ok backupBytes)
      (hcron : c.getCron schedule.cronKey = some cron) :
      CronPart unmarshal lib c schedule
        ([.updateCron schedule.cronKey (updatedSpec schedule backupBytes cron.spec)], none)

omit [DecidableEq J] in
theorem cronPart_createCron (ht : Truthful env c schedule) :
    CronPart unmarshal lib c schedule (createCron lib env schedule) := by
  rcases createCron_cases lib env schedule with
    ⟨err, h⟩ | ⟨backupBytes, hbytes, herr, h⟩
  · rw [h]
    exact .failed err
  · rw [h]
    apply CronPart.created hbytes
    cases hcron : c.getCron schedule.cronKey with
    | none => rfl
    | some cron => exact absurd herr (ht.once (by rw [hcron]; rfl))

theorem cronPart_cases (hj : lib.Json unmarshal) (ht : Truthful env c schedule) :
    CronPart unmarshal lib c schedule (cronPart lib env c schedule) := by
  unfold cronPart
  cases hcronErr : env.getCronErr with
  | some err =>
    cases err with
    | notFound => exact cronPart_createCron ht
    | _ => exact .failed _
  | none =>
    cases hcron : c.getCron schedule.cronKey with
    | none => exact cronPart_createCron ht
    | some cron =>
      have hkey : (⟨cron.ns, cron.name⟩ : ObjectKey) = schedule.cronKey := by
        obtain ⟨hns, hname⟩ := getCron_key hcron
        rw [hns, hname]
      dsimp only
      rcases updateCron_cases hj env schedule cron with
        ⟨err, h⟩ | ⟨backupBytes, hbytes, ⟨h, hstep⟩ | h⟩
      · rw [h]
        exact .failed err
      · rw [h]
        exact .kept hbytes hcron hstep
      · rw [h, hkey]
        exact .updated hbytes hcron

end Cases

section Apply

variable {c : Cluster} {uid : String} {now : Time} {key : ObjectKey} {spec : CronAnythingSpec}
  {cron : CronAnything} {calls rest : List Call}

theorem applyAll_append :
    c.applyAll uid now (calls ++ rest) = (c.applyAll uid now calls).applyAll uid now rest :=
  List.foldl_append

/-- Calls that write no cron leave all of them as they are. -/
theorem applyAll_crons (h : ∀ call ∈ rest, call.writesCron = false) :
    (c.applyAll uid now rest).crons = c.crons := by
  induction rest generalizing c with
  | nil => rfl
  | cons call rest ih =>
    have hcall := h call List.mem_cons_self
    have hrest : (c.applyAll uid now (call :: rest)).crons = (c.apply uid now call).crons :=
      ih fun call hcall => h call (List.mem_cons_of_mem _ hcall)
    rw [hrest]
    cases call with
    | createCron key spec => cases hcall
    | updateCron key spec => cases hcall
    | updateStatus key status => rfl
    | deleteBackup backup ok => cases ok <;> rfl

theorem getCron_applyAll (h : ∀ call ∈ rest, call.writesCron = false) :
    (c.applyAll uid now (calls ++ rest)).getCron key = (c.applyAll uid now calls).getCron key := by
  unfold Cluster.getCron
  rw [applyAll_append, applyAll_crons h]

theorem getCron_createCron (uid : String) (now : Time) (h : c.getCron key = none) :
    ((c.apply uid now (.createCron key spec)).getCron key).map (·.spec) = some spec := by
  unfold Cluster.getCron at h ⊢
  simp only [Cluster.apply]
  rw [List.find?_append, h]
  simp

theorem getCron_updateCron (uid : String) (now : Time) (h : c.getCron key = some cron) :
    ((c.apply uid now (.updateCron key spec)).getCron key).map (·.spec) = some spec := by
  have hkey := getCron_key h
  unfold Cluster.getCron at h ⊢
  simp only [Cluster.apply, List.find?_map]
  have hsame : ((fun ca : CronAnything => decide (ca.ns = key.ns ∧ ca.name = key.name)) ∘
      fun ca => if ca.ns = key.ns ∧ ca.name = key.name then { ca with spec := spec } else ca) =
      fun ca => decide (ca.ns = key.ns ∧ ca.name = key.name) := by
    funext ca
    by_cases hca : ca.ns = key.ns ∧ ca.name = key.name
    · simp [hca]
    · rw [Function.comp_apply, if_neg hca]
  rw [hsame, h]
  simp [hkey]

end Apply

section Settled

variable {J : Type} {unmarshal : String → Except String J} {lib : Libs} {env : Env}
  {c : Cluster} {schedule : Schedule}

theorem reconcile_of_getErr (lib : Libs) (c : Cluster) (schedule : Schedule)
    (hget : env.getErr ≠ none) :
    (reconcile lib env c schedule.key).calls = [] ∧
      (env.getErr ≠ some .notFound → (reconcile lib env c schedule.key).err ≠ none) := by
  cases herr : env.getErr with
  | none => exact absurd herr hget
  | some err =>
    unfold reconcile
    rw [herr]
    cases err with
    | notFound => exact ⟨rfl, fun h => absurd rfl h⟩
    | _ => exact ⟨rfl, fun _ h => by cases h⟩

theorem writesCron_iff (hs : c.getSchedule schedule.key = some schedule)
    (hget : env.getErr = none) :
    WritesCron (reconcile lib env c schedule.key) ↔
      ∃ call ∈ (cronPart lib env c schedule).1, call.writesCron = true := by
  obtain ⟨rest, hcalls, hrest, -⟩ := reconcile_eq lib hs hget
  unfold WritesCron
  rw [hcalls]
  constructor
  · rintro ⟨call, hcall, hw⟩
    rcases List.mem_append.mp hcall with h | h
    · exact ⟨call, h, hw⟩
    · rw [hrest call h] at hw
      cases hw
  · rintro ⟨call, hcall, hw⟩
    exact ⟨call, List.mem_append_left _ hcall, hw⟩

/-- What is written agrees with the schedule, if this sets its deadline. -/
theorem inStep_updatedSpec (backupBytes : String) (spec : CronAnythingSpec) :
    InStep unmarshal schedule backupBytes (updatedSpec schedule backupBytes spec) := ⟨rfl, rfl, rfl⟩

theorem inStep_cronSpec {d : Int} (hd : schedule.startingDeadlineSeconds = some d)
    (backupBytes : String) :
    InStep unmarshal schedule backupBytes (cronSpec schedule backupBytes) :=
  ⟨rfl, rfl, by rw [hd]; simp [cronSpec, hd]⟩

theorem InStep.agrees {d : Int} {backupBytes : String} {spec : CronAnythingSpec}
    (hd : schedule.startingDeadlineSeconds = some d)
    (hbytes : lib.getBackupBytes schedule = .ok backupBytes)
    (h : InStep unmarshal schedule backupBytes spec) : Agrees lib unmarshal schedule spec :=
  ⟨backupBytes, hbytes, h.schedule_eq, by rw [h.deadline, hd]; simp [cronSpec, hd], h.template⟩

variable [DecidableEq J]

/-- Where the part about the cron ends without an error, the cron is in step afterwards. -/
theorem inStep_of_cronPart {d : Int} (uid : String) (now : Time) (hj : lib.Json unmarshal)
    (ht : Truthful env c schedule) (hd : schedule.startingDeadlineSeconds = some d)
    (h : (cronPart lib env c schedule).2 = none) :
    ∃ backupBytes spec, lib.getBackupBytes schedule = .ok backupBytes ∧
      ((c.applyAll uid now (cronPart lib env c schedule).1).getCron schedule.cronKey).map (·.spec) =
        some spec ∧ InStep unmarshal schedule backupBytes spec := by
  have hcases := cronPart_cases hj ht
  revert h hcases
  generalize cronPart lib env c schedule = part
  rintro h (err | ⟨hbytes, hnone⟩ | ⟨hbytes, hcron, hstep⟩ | ⟨hbytes, hcron⟩)
  · cases h
  · exact ⟨_, _, hbytes, getCron_createCron uid now hnone, inStep_cronSpec hd _⟩
  · exact ⟨_, _, hbytes, congrArg _ hcron, hstep⟩
  · exact ⟨_, _, hbytes, getCron_updateCron uid now hcron, inStep_updatedSpec _ _⟩

/-- A reconcile that succeeds, or writes the cron, leaves it in step. -/
theorem inStep_of_reconcile {d : Int} (uid : String) (now : Time) (hj : lib.Json unmarshal)
    (hs : c.getSchedule schedule.key = some schedule) (ht : Truthful env c schedule)
    (hd : schedule.startingDeadlineSeconds = some d)
    (h : (reconcile lib env c schedule.key).err = none ∨
      WritesCron (reconcile lib env c schedule.key)) :
    ∃ backupBytes spec, lib.getBackupBytes schedule = .ok backupBytes ∧
      ((c.applyAll uid now (reconcile lib env c schedule.key).calls).getCron
        schedule.cronKey).map (·.spec) = some spec ∧
      InStep unmarshal schedule backupBytes spec := by
  have hget : env.getErr = none := by
    by_contra hget
    obtain ⟨hcalls, herr⟩ := reconcile_of_getErr lib c schedule hget
    rcases h with h | ⟨call, hcall, -⟩
    · exact herr ht.found h
    · rw [hcalls] at hcall
      cases hcall
  obtain ⟨rest, hcalls, hrest, herr⟩ := reconcile_eq lib hs hget
  rw [hcalls, getCron_applyAll hrest]
  apply inStep_of_cronPart uid now hj ht hd
  rcases h with h | h
  · exact herr h
  · -- a part that fails writes nothing
    obtain ⟨call, hcall, -⟩ := (writesCron_iff hs hget).mp h
    have hcases := cronPart_cases hj ht
    revert hcall hcases
    generalize cronPart lib env c schedule = part
    rintro hcall (err | _ | _ | _)
    · cases hcall
    · rfl
    · rfl
    · rfl

theorem cronPart_of_inStep {cron : CronAnything} {backupBytes : String} (hj : lib.Json unmarshal)
    (ht : Truthful env c schedule) (hbytes : lib.getBackupBytes schedule = .ok backupBytes)
    (hcron : c.getCron schedule.cronKey = some cron)
    (h : InStep unmarshal schedule backupBytes cron.spec) :
    (cronPart lib env c schedule).1 = [] := by
  unfold cronPart
  rw [hcron]
  cases env.getCronErr with
  | some err =>
    cases err with
    | notFound =>
      rcases createCron_cases lib env schedule with ⟨err, h⟩ | ⟨-, -, herr, -⟩
      · simp [h]
      · exact absurd herr (ht.once (by rw [hcron]; rfl))
    | _ => rfl
  | none => exact updateCron_of_inStep hj hbytes h

end Settled

section Main

variable {J : Type} [DecidableEq J] {unmarshal : String → Except String J} {lib : Libs}
  {schedule : Schedule}

theorem converges_of_deadline {d : Int} (hj : lib.Json unmarshal)
    (hd : schedule.startingDeadlineSeconds = some d) : Converges lib unmarshal schedule := by
  constructor
  · intro c env uid now hs ht hw c' env' hu ht' hw'
    obtain ⟨backupBytes, spec, hbytes, hspec, hstep⟩ :=
      inStep_of_reconcile uid now hj hs ht hd (.inr hw)
    obtain ⟨status, hs'⟩ := hu.kept
    obtain ⟨cron, hcron, rfl⟩ := Option.map_eq_some_iff.mp (hu.cron.trans hspec)
    have hget : env'.getErr = none := by
      by_contra hget
      obtain ⟨call, hcall, -⟩ := hw'
      rw [(reconcile_of_getErr lib c' schedule hget).1] at hcall
      cases hcall
    -- the schedule as it is now differs from the old one in its status only
    have hquiet : (cronPart lib env' c' { schedule with status := status }).1 = [] :=
      cronPart_of_inStep hj ⟨ht'.found, ht'.once⟩ ((hj.spec schedule status).trans hbytes) hcron
        ⟨hstep.template, hstep.schedule_eq, hstep.deadline⟩
    have hkey : schedule.key = Schedule.key { schedule with status := status } := rfl
    rw [hkey] at hs' hw'
    obtain ⟨call, hcall, -⟩ := (writesCron_iff hs' hget).mp hw'
    rw [hquiet] at hcall
    cases hcall
  · intro c env uid now hs ht hdone
    obtain ⟨backupBytes, spec, hbytes, hspec, hstep⟩ :=
      inStep_of_reconcile uid now hj hs ht hd hdone
    obtain ⟨cron, hcron, rfl⟩ := Option.map_eq_some_iff.mp hspec
    exact ⟨cron, hcron, hstep.agrees hd hbytes⟩

/-- Without a template there is no cron to write, and the reconcile fails. -/
theorem converges_of_error {err : String} (hj : lib.Json unmarshal)
    (herr : lib.getBackupBytes schedule = .error err) : Converges lib unmarshal schedule := by
  have hfail : ∀ (c : Cluster) (env : Env), c.getSchedule schedule.key = some schedule →
      Truthful env c schedule → ¬ ((reconcile lib env c schedule.key).err = none ∨
        WritesCron (reconcile lib env c schedule.key)) := by
    intro c env hs ht h
    by_cases hget : env.getErr = none
    · obtain ⟨rest, -, -, hpart⟩ := reconcile_eq lib hs hget
      rw [writesCron_iff hs hget] at h
      replace h := h.imp_left hpart
      have hcases := cronPart_cases hj ht
      revert h hcases
      generalize cronPart lib env c schedule = part
      rintro h (e | ⟨hbytes, -⟩ | ⟨hbytes, -, -⟩ | ⟨hbytes, -⟩)
      · simp at h
      · rw [herr] at hbytes
        cases hbytes
      · rw [herr] at hbytes
        cases hbytes
      · rw [herr] at hbytes
        cases hbytes
    · obtain ⟨hcalls, hne⟩ := reconcile_of_getErr lib c schedule hget
      rcases h with h | ⟨call, hcall, -⟩
      · exact hne ht.found h
      · rw [hcalls] at hcall
        cases hcall
  constructor
  · intro c env uid now hs ht hw
    exact absurd (Or.inr hw) (hfail c env hs ht)
  · intro c env uid now hs ht h
    exact absurd h (hfail c env hs ht)

/-- Calls that all succeed. -/
def servedEnv : Env :=
  ⟨none, none, none, fun _ => none, fun _ => none, fun _ => none, fun _ => none⟩

/-- The same when the cron is there already. -/
def servedAgainEnv : Env := { servedEnv with createCronErr := some .alreadyExists }

theorem updateCron_of_deadline_ne {cron : CronAnything} {backupBytes : String} {equal : Bool}
    (hbytes : lib.getBackupBytes schedule = .ok backupBytes)
    (hcompare : lib.compareTemplate cron.spec.template backupBytes = .ok equal)
    (hne : schedule.startingDeadlineSeconds ≠ cron.spec.triggerDeadlineSeconds) :
    (updateCron lib servedAgainEnv schedule cron).1 =
      [.updateCron ⟨cron.ns, cron.name⟩ (updatedSpec schedule backupBytes cron.spec)] := by
  unfold updateCron
  rw [hbytes]
  dsimp only
  rw [hcompare]
  simp [servedAgainEnv, servedEnv, hne, retryOnConflict, defaultBackoffSteps, updatedSpec]

/-- The default deadline that the first reconcile writes is taken back by the second one. -/
theorem not_converges {backupBytes : String} (hj : lib.Json unmarshal)
    (hd : schedule.startingDeadlineSeconds = none)
    (hbytes : lib.getBackupBytes schedule = .ok backupBytes) :
    ¬ Converges lib unmarshal schedule := by
  intro h
  let c : Cluster := ⟨[schedule], [], []⟩
  let cron : CronAnything := ⟨schedule.ns, getCronName schedule, "1", 0, none,
    cronSpec schedule backupBytes, ⟨none, [], none⟩⟩
  have hs : c.getSchedule schedule.key = some schedule := by
    simp [c, Cluster.getSchedule, Schedule.key]
  have hcalls : (reconcile lib servedEnv c schedule.key).calls =
      [.createCron schedule.cronKey (cronSpec schedule backupBytes)] := by
    unfold reconcile
    rw [hs]
    simp [servedEnv, c, Cluster.getCron, createCron, hbytes, Schedule.cronKey]
  have hafter : c.applyAll "1" 0 (reconcile lib servedEnv c schedule.key).calls =
      ⟨[schedule], [cron], []⟩ := by
    rw [hcalls]
    rfl
  have hs' : (⟨[schedule], [cron], []⟩ : Cluster).getSchedule schedule.key = some schedule := by
    simp [Cluster.getSchedule, Schedule.key]
  have hcron : (⟨[schedule], [cron], []⟩ : Cluster).getCron schedule.cronKey = some cron := by
    simp [Cluster.getCron, Schedule.cronKey, cron]
  have hquiet := h.settles c servedEnv "1" 0 hs
    ⟨by simp [servedEnv], fun hsome => by simp [c, Cluster.getCron] at hsome⟩
    ⟨_, by rw [hcalls]; exact List.mem_singleton_self _, rfl⟩ ⟨[schedule], [cron], []⟩
    servedAgainEnv ⟨⟨schedule.status, hs'⟩, by rw [hafter]⟩ ⟨by simp [servedAgainEnv, servedEnv], by
      simp [servedAgainEnv]⟩
  apply hquiet
  rw [writesCron_iff hs' rfl]
  have hcompare : lib.compareTemplate cron.spec.template backupBytes = .ok true :=
    hj.compare_same hbytes rfl
  have hpart : cronPart lib servedAgainEnv ⟨[schedule], [cron], []⟩ schedule =
      updateCron lib servedAgainEnv schedule cron := by
    unfold cronPart
    rw [hcron]
    rfl
  rw [hpart, updateCron_of_deadline_ne hbytes hcompare (by rw [hd]; simp [cron, cronSpec])]
  exact ⟨_, List.mem_singleton_self _, rfl⟩

end Main

/--
The cron of a schedule is settled after one reconcile and agrees with what `createCron` would build,
exactly when the schedule sets its deadline, or has no template that could be written.
-/
theorem converges_iff {J : Type} [DecidableEq J] (lib : Libs) (unmarshal : String → Except String J)
    (hj : lib.Json unmarshal) (schedule : Schedule) :
    Converges lib unmarshal schedule ↔
      schedule.startingDeadlineSeconds ≠ none ∨
        ∃ err, lib.getBackupBytes schedule = .error err := by
  constructor
  · intro h
    by_contra hno
    push Not at hno
    cases hbytes : lib.getBackupBytes schedule with
    | error err => exact hno.2 err hbytes
    | ok backupBytes => exact not_converges hj hno.1 hbytes h
  · rintro (hd | ⟨err, herr⟩)
    · obtain ⟨d, hd⟩ := Option.ne_none_iff_exists'.mp hd
      exact converges_of_deadline hj hd
    · exact converges_of_error hj herr

section Samples

/-- Texts of JSON objects, which stand for themselves. -/
def readObject (text : String) : Except String String :=
  if text.toList.head? = some '{' then .ok text else .error "cannot unmarshal into a map"

def textLibs : Libs where
  getBackupBytes schedule := .ok ("\x7b\"kind\":\"Backup\",\"spec\":" ++ schedule.backupSpec ++ "\x7d")
  compareTemplate := compareTemplate readObject
  sort := plainLibs.sort
  sort_perm := plainLibs.sort_perm

theorem textLibs_json : textLibs.Json readObject where
  compare := rfl
  reads schedule backupBytes h := by
    obtain rfl := Except.ok.inj h
    exact ⟨_, if_pos (by simp)⟩
  spec _ _ := rfl

/-- A schedule of a snapshot every night. -/
def snapshots (startingDeadlineSeconds : Option Int) : Schedule :=
  ⟨"db", "nightly", "@daily", startingDeadlineSeconds, none,
    "\x7b\"instance\":\"mydb\",\"type\":\"Snapshot\"\x7d", ⟨none, []⟩⟩

theorem deadline_of_a_minute_converges : Converges textLibs readObject (snapshots (some 60)) :=
  (converges_iff textLibs readObject textLibs_json (snapshots (some 60))).mpr (.inl (by decide))

/-- The default deadline is written and taken back. -/
theorem default_deadline_not_kept : ¬ ∀ schedule, Converges textLibs readObject schedule := by
  intro h
  exact not_converges textLibs_json rfl rfl (h (snapshots none))

end Samples

end ElCarro.BackupSchedule
