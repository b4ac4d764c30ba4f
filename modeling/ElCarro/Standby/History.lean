import ElCarro.Database.Privileges
import ElCarro.Lib.Runs
import ElCarro.Standby.Moves

/-! # What a standby has been through

A standby is created after a verification, and promoted with the settings with which Data
Guard was set up last. The invariants relate the state of the machine to the calls that
were made.
-/

namespace ElCarro.StandbyDR

open GoTime K8s Api Flow
open Databases.Users (Casing asciiCasing)

variable {casing : Casing} {s t : System} {e : Event}

section Verification

/-- A verification in which every task was executed and passed. -/
def HasVerified (casing : Casing) (calls : List Call) : Prop :=
  ∃ task, .verifyStandbySettings task ∈ calls ∧ Verified casing task

/-- What the machine asks to be verified does not fail without a report. -/
def Speaks (casing : Casing) (s : System) : Event → Prop
  | .reconcile env => standbyState s.inst = .standbyDRVerifyFailed →
    ∀ task, Asks env s.inst task → ¬ (FirstFour casing task ∧ Unreported casing task)
  | _ => True

/-- A machine that has left its first state has verified the settings. -/
def Checked (casing : Casing) (s : System) : Prop :=
  standbyState s.inst ≠ .standbyDRVerifyFailed → HasVerified casing s.calls

theorem HasVerified.append {calls calls' : List Call} (h : HasVerified casing calls') :
    HasVerified casing (calls ++ calls') := by
  obtain ⟨task, hmem, hverified⟩ := h
  exact ⟨task, List.mem_append_right _ hmem, hverified⟩

/-- The machine leaves its first state with a verification that reported nothing. -/
theorem Move.first {asked : Task → Prop} {spec current current' : Option ReplicationSettings}
    {reason : Reason} {status : CondStatus} {calls : List Call}
    (h : Move casing asked spec .standbyDRVerifyFailed current reason status current' calls) :
    reason = .standbyDRVerifyFailed ∨ reason = .standbyDRVerifyCompleted ∧ ∃ task, asked task ∧
      verifyStandbySettings casing task = [] ∧ calls = [.verifyStandbySettings task] := by
  cases h with
  | unverified => exact .inl rfl
  | verified hasked htask => exact .inr ⟨rfl, _, hasked, htask, rfl⟩
  | settingsMissing hstate => simp at hstate
  | setUp hstate => simp at hstate
  | setUpFailed hstate => simp at hstate
  | skipped hstate => simp at hstate
  | unpromoted hstate => simp at hstate
  | promoted hstate => simp at hstate
  | unbootstrapped hstate => simp at hstate
  | bootstrapped hstate => simp at hstate

theorem checked_step (hs : Checked casing s) (hok : Speaks casing s e)
    (hstep : step casing s e = some t) : Checked casing t := by
  rcases step_cases hstep with ⟨env, rfl, hmoves⟩ | ⟨hstate, -, -, hcalls⟩
  · rcases hmoves with rfl | ⟨reason, status, current, calls, hleads, hmove⟩
    · exact hs
    · intro hne
      rw [hleads.state] at hne
      rw [hleads.calls]
      by_cases hfirst : standbyState s.inst = .standbyDRVerifyFailed
      · rw [hfirst] at hmove
        rcases hmove.first with rfl | ⟨-, task, hasked, htask, rfl⟩
        · exact absurd rfl hne
        · have hverified := verified_of_nil_iff.mpr (hok hfirst task hasked) htask
          exact ⟨task, by simp, hverified⟩
      · exact (hs hfirst).append
  · intro hne
    rw [hstate] at hne
    rw [hcalls]
    exact hs hne

/-- The creation begins in the state that follows the verification. -/
theorem verified_of_create (hs : Checked casing s) (hstep : step casing s e = some t)
    (hcreate : standbyState t.inst = .standbyDRCreateInProgress)
    (hbefore : standbyState s.inst ≠ .standbyDRCreateInProgress) : HasVerified casing s.calls := by
  apply hs
  intro hfirst
  rcases step_cases hstep with ⟨env, rfl, hmoves⟩ | ⟨hstate, -, -, -⟩
  · rcases hmoves with rfl | ⟨reason, status, current, calls, hleads, hmove⟩
    · exact hbefore hcreate
    · rw [hfirst] at hmove
      rw [hleads.state] at hcreate
      rcases hmove.first with rfl | ⟨rfl, -⟩
      · cases hcreate
      · cases hcreate
  · exact hbefore (hstate.symm.trans hcreate)

/-- An empty list of errors means that everything was verified, unless the last task fails without
a report; and where it never does, a standby is only created after everything was verified. -/
theorem created_after_verification (casing : Casing) :
    (∀ task, (verifyStandbySettings casing task = [] → Verified casing task) ↔
      ¬ (FirstFour casing task ∧ Unreported casing task)) ∧
    ∀ (inst : Instance) (es : List Event),
      findCondition inst.status.conditions .standbyDRReady = none →
      Runs.Meets (step casing) (Speaks casing) ⟨inst, []⟩ es →
      Runs.EachStep (step casing) (fun s _ t => standbyState t.inst = .standbyDRCreateInProgress →
        standbyState s.inst ≠ .standbyDRCreateInProgress → HasVerified casing s.calls)
        ⟨inst, []⟩ es := by
  constructor
  · intro task
    exact verified_of_nil_iff
  · intro inst es hfresh hspeaks
    have hstart : Checked casing ⟨inst, []⟩ := by
      intro hne
      simp [standbyState, hfresh] at hne
    apply Runs.eachStep_of_invariant _ _ hstart hspeaks
    · intro s e t hs hok hstep
      exact checked_step hs hok hstep
    · intro s e t hs _ hstep
      exact verified_of_create hs hstep

def sampleRow (value : String) : Message := ⟨"\x7b\"VALUE\": \"" ++ value ++ "\"\x7d", .ok [("VALUE", value)]⟩

def sampleReplies : Query → Except String (List Message)
  | .dbVersion => .ok [sampleRow "Oracle Database 12c Enterprise Edition Release 12.2.0.1.0"]
  | .dbParams => .ok [sampleRow "TRUE", sampleRow "EXCLUSIVE"]
  | .dbName => .ok [sampleRow "GCLOUD"]
  | .forceLogging => .ok [sampleRow "YES"]
  | .logMode => .ok [sampleRow "ARCHIVELOG"]

def sampleAnswers (replies : Query → Except String (List Message)) : Answers where
  fetchServiceImageMetaData := .ok ""
  downloadPasswordFile := none
  downloadBackup := none
  password _ := .ok "secret"
  runSQLPlusFormatted := replies

def sampleSettings : ReplicationSettings where
  primaryHost := "10.0.0.2"
  primaryPort := 1521
  primaryServiceName := "GCLOUD.gke"
  primaryUser := ⟨"sys", some ⟨"project", "secret", "1"⟩⟩
  passwordFileURI := "gs://bucket/orapwGCLOUD"
  backupURI := ""

def sampleEnv (replies : Query → Except String (List Message)) : Env where
  now := 0
  databaseClient := none
  answers := sampleAnswers replies
  createStandby := .ok ⟨none, true⟩
  loadBalancer := .ok [⟨"", "10.0.0.3"⟩]
  setUpDataGuard := none
  dataGuardStatus := .ok []
  promoteStandby := none
  bootstrapStandby := .ok []
  json _ := "null"

def sampleStandby : Instance :=
  let inst := Instance.blank "db" "mydb"
  { inst with
    spec := { inst.spec with
      dbUniqueName := "GCLOUD_gcp"
      images := some (Finmap.singleton "service" "oracle:12.2")
      replicationSettings := some sampleSettings }
    status := { inst.status with
      conditions := [⟨.ready, .false, .standbyDRInProgress, "standby DR in progress", 0⟩] } }

def sampleCreation : List Event :=
  [.reconcile (sampleEnv sampleReplies), .reconcile (sampleEnv sampleReplies)]

theorem sampleCreation_speaks :
    Runs.Meets (step asciiCasing) (Speaks asciiCasing) ⟨sampleStandby, []⟩ sampleCreation := by
  have hfirst : Speaks asciiCasing ⟨sampleStandby, []⟩ (.reconcile (sampleEnv sampleReplies)) := by
    rintro - task ⟨settings, -, rfl⟩ ⟨-, hunreported⟩
    rcases hunreported with ⟨rows, hrows, hlength⟩ | ⟨-, hunclear⟩
    · obtain rfl : ["YES"] = rows := Except.ok.inj hrows
      exact hlength rfl
    · exact hunclear "ARCHIVELOG" rfl
  refine ⟨hfirst, fun t ht => ⟨?_, fun _ _ => trivial⟩⟩
  obtain rfl := Option.some.inj ht
  intro hstate
  exact absurd hstate (by decide +kernel)

theorem sample_created_after_verification :
    (∃ s, Runs.run (step asciiCasing) ⟨sampleStandby, []⟩ sampleCreation = some s ∧
      standbyState s.inst = .standbyDRCreateInProgress) ∧
    Runs.EachStep (step asciiCasing) (fun s _ t =>
      standbyState t.inst = .standbyDRCreateInProgress →
      standbyState s.inst ≠ .standbyDRCreateInProgress → HasVerified asciiCasing s.calls)
      ⟨sampleStandby, []⟩ sampleCreation :=
  ⟨⟨_, rfl, by decide⟩,
    (created_after_verification asciiCasing).2 sampleStandby sampleCreation rfl
      sampleCreation_speaks⟩

/-- The query for the mode of the log fails. -/
def logModeFails (q : Query) : Except String (List Message) :=
  if q = .logMode then .error "ORA-03113: end-of-file on communication channel" else sampleReplies q

theorem not_verified_logModeFails {inst : Instance} {settings : ReplicationSettings} :
    ¬ Verified casing (verifyTask (sampleEnv logModeFails) inst settings) := by
  intro h
  obtain ⟨mode, hmode, -⟩ := h.archiveLog
  simp [Gives, fetchAndParseSingleColumnMultiRowQueries, fetchAndParseQueries, verifyTask, sampleEnv,
    sampleAnswers, logModeFails] at hmode

/-- Nothing is reported though the mode of the log is not known, and the standby is created. -/
theorem unknown_log_mode_passes :
    verifyStandbySettings asciiCasing
        (verifyTask (sampleEnv logModeFails) sampleStandby sampleSettings) = [] ∧
      ¬ Verified asciiCasing (verifyTask (sampleEnv logModeFails) sampleStandby sampleSettings) ∧
      ∃ s, Runs.run (step asciiCasing) ⟨sampleStandby, []⟩
          [.reconcile (sampleEnv logModeFails), .reconcile (sampleEnv logModeFails)] = some s ∧
        standbyState s.inst = .standbyDRCreateInProgress ∧ ¬ HasVerified asciiCasing s.calls := by
  refine ⟨by decide, not_verified_logModeFails, _, rfl, by decide, ?_⟩
  rintro ⟨task, hmem, hverified⟩
  obtain rfl : task = verifyTask (sampleEnv logModeFails) sampleStandby sampleSettings := by
    simpa using List.mem_singleton.mp hmem
  exact not_verified_logModeFails hverified

end Verification

section Promotion

/-- The primary of the last time that Data Guard was set up. -/
def lastSetUp : List Call → Option PrimarySettings
  | [] => none
  | .setUpDataGuard req true :: _ => some req.primary
  | _ :: calls => lastSetUp calls

def HasPromoted (calls : List Call) : Prop := ∃ req, .promoteStandby req true ∈ calls

def HasBootstrapped (calls : List Call) : Prop := ∃ req, .bootstrapStandby req true ∈ calls

/-- Data Guard was set up, and the settings of that time are the current ones. -/
def SetUpWith (current : Option ReplicationSettings) (calls : List Call) : Prop :=
  ∃ settings credential, current = some settings ∧
    settings.primaryUser.gsmSecretRef = some credential ∧
    lastSetUp calls = some (primarySettings settings credential)

/-- States between the first set-up of Data Guard and the promotion. -/
def replicating : Reason → Bool
  | .standbyDRSetUpDataGuardCompleted | .standbyDRDataGuardReplicationInProgress
  | .standbyDRPromoteFailed => true
  | _ => false

/-- States after the promotion. -/
def independent : Reason → Bool
  | .standbyDRPromoteCompleted | .standbyDRBootstrapFailed | .standbyDRBootstrapCompleted => true
  | _ => false

/-- What the state of the machine says about the calls so far. -/
structure Attested (state : Reason) (current : Option ReplicationSettings) (calls : List Call) :
    Prop where
  setUp : replicating state = true → SetUpWith current calls
  promoted : independent state = true → HasPromoted calls
  bootstrapped : state = .standbyDRBootstrapCompleted → HasBootstrapped calls

theorem lastSetUp_append_plain {calls history : List Call}
    (h : ∀ call ∈ calls, call.plain = true) : lastSetUp (calls ++ history) = lastSetUp history := by
  induction calls with
  | nil => rfl
  | cons call calls ih =>
    have hrest := ih fun c hc => h c (List.mem_cons_of_mem call hc)
    have hplain := h call List.mem_cons_self
    cases call with
    | verifyStandbySettings task => exact hrest
    | createStandby req => exact hrest
    | setUpDataGuard req ok =>
      cases ok with
      | false => exact hrest
      | true => cases hplain
    | promoteStandby req ok => cases hplain
    | bootstrapStandby req ok => cases hplain

variable {asked : Task → Prop} {spec current current' : Option ReplicationSettings}
  {state reason : Reason} {status : CondStatus} {calls history : List Call}

theorem replicating_of_promotable
    (h : state = .standbyDRDataGuardReplicationInProgress ∨ state = .standbyDRPromoteFailed) :
    replicating state = true := by
  rcases h with rfl | rfl <;> rfl

theorem independent_of_promoted
    (h : state = .standbyDRPromoteCompleted ∨ state = .standbyDRBootstrapFailed) :
    independent state = true := by
  rcases h with rfl | rfl <;> rfl

/-- A state that says nothing about the calls. -/
theorem Attested.of_early (hr : replicating state = false) (hi : independent state = false) :
    Attested state current calls := by
  constructor
  · intro h
    rw [hr] at h
    cases h
  · intro h
    rw [hi] at h
    cases h
  · rintro rfl
    cases hi

theorem Move.attested (h : Move casing asked spec state current reason status current' calls)
    (ha : Attested state current history) : Attested reason current' (calls ++ history) := by
  have hsetUp : replicating reason = true → independent reason = false →
      SetUpWith current' (calls ++ history) → Attested reason current' (calls ++ history) := by
    intro _ hi hset
    constructor
    · exact fun _ => hset
    · intro hind
      rw [hi] at hind
      cases hind
    · rintro rfl
      cases hi
  have hpromoted : replicating reason = false → HasPromoted (calls ++ history) →
      (reason = .standbyDRBootstrapCompleted → HasBootstrapped (calls ++ history)) →
      Attested reason current' (calls ++ history) := by
    intro hr hp hb
    constructor
    · intro hrep
      rw [hr] at hrep
      cases hrep
    · exact fun _ => hp
    · exact hb
  cases h with
  | unverified => exact .of_early rfl rfl
  | verified => exact .of_early rfl rfl
  | create => exact .of_early rfl rfl
  | creating hreason =>
    rcases hreason with rfl | rfl | rfl
    · exact .of_early rfl rfl
    · exact .of_early rfl rfl
    · exact .of_early rfl rfl
  | settingsMissing hstate =>
    rcases hstate with rfl | rfl
    · exact .of_early rfl rfl
    · exact .of_early rfl rfl
  | @setUp _ _ settings credential req _ _ hcredential hreq =>
    exact hsetUp rfl rfl ⟨settings, credential, rfl, hcredential, by simp [lastSetUp, hreq]⟩
  | setUpFailed => exact .of_early rfl rfl
  | replicate => exact hsetUp rfl rfl (ha.setUp rfl)
  | @replicated _ settings credential req _ hcredential hreq =>
    exact hsetUp rfl rfl ⟨settings, credential, rfl, hcredential, by simp [lastSetUp, hreq]⟩
  | unreplicated hplain =>
    apply hsetUp rfl rfl
    obtain ⟨settings, credential, hcurrent, hcredential, hlast⟩ := ha.setUp rfl
    exact ⟨settings, credential, hcurrent, hcredential, (lastSetUp_append_plain hplain).trans hlast⟩
  | skipped hstate =>
    -- there are settings from the last time that Data Guard was set up
    obtain ⟨settings, _, hcurrent, -⟩ := ha.setUp (replicating_of_promotable hstate)
    cases hcurrent
  | unpromoted hstate => exact hsetUp rfl rfl (ha.setUp (replicating_of_promotable hstate))
  | @promoted _ settings credential req ok hstate hcredential hreq =>
    cases ok with
    | true => exact hpromoted rfl ⟨req, by simp⟩ (by simp)
    | false => exact hsetUp rfl rfl (ha.setUp (replicating_of_promotable hstate))
  | unbootstrapped hstate =>
    obtain ⟨req, hreq⟩ := ha.promoted (independent_of_promoted hstate)
    exact hpromoted rfl ⟨req, List.mem_append_right _ hreq⟩ (by simp)
  | @bootstrapped _ _ breq hstate =>
    obtain ⟨req, hreq⟩ := ha.promoted (independent_of_promoted hstate)
    exact hpromoted rfl ⟨req, List.mem_append_right _ hreq⟩ fun _ => ⟨breq, by simp⟩
  | completed => exact hpromoted rfl (ha.promoted rfl) fun _ => ha.bootstrapped rfl

/-- The standby is promoted with the settings of the last time that Data Guard was set up. -/
theorem Move.promotes (h : Move casing asked spec state current reason status current' calls)
    (ha : Attested state current history) {req : PromoteStandbyRequest} {ok : Bool}
    (hmem : .promoteStandby req ok ∈ calls) : lastSetUp history = some req.primary := by
  have hnever : (∀ call ∈ calls, call.plain = true) → False := by
    intro hplain
    have hfalse := hplain _ hmem
    cases hfalse
  cases h with
  | unverified hplain => exact (hnever hplain).elim
  | creating _ hplain => exact (hnever hplain).elim
  | setUpFailed _ hplain => exact (hnever hplain).elim
  | unreplicated hplain => exact (hnever hplain).elim
  | @promoted _ settings credential req' ok' hstate hcredential hreq =>
    obtain ⟨settings', credential', hcurrent, hcredential', hlast⟩ :=
      ha.setUp (replicating_of_promotable hstate)
    obtain rfl := Option.some.inj hcurrent
    obtain rfl := Option.some.inj (hcredential.symm.trans hcredential')
    simp only [List.mem_singleton, Call.promoteStandby.injEq] at hmem
    rw [hlast, hmem.1, hreq]
  | _ => simp at hmem

theorem Move.ready (h : Move casing asked spec state current reason status current' calls)
    (hstatus : status = .true) : reason = .standbyDRBootstrapCompleted := by
  cases h with
  | bootstrapped => rfl
  | completed => rfl
  | _ => cases hstatus

theorem Move.not_failed (h : Move casing asked spec state current reason status current' calls) :
    state ≠ .standbyDRCreateFailed := by
  rintro rfl
  cases h with
  | settingsMissing hstate => simp at hstate
  | setUp hstate => simp at hstate
  | setUpFailed hstate => simp at hstate
  | skipped hstate => simp at hstate
  | unpromoted hstate => simp at hstate
  | promoted hstate => simp at hstate
  | unbootstrapped hstate => simp at hstate
  | bootstrapped hstate => simp at hstate

/-- Whether the StandbyDRReady condition is True. -/
def IsReady (inst : Instance) : Prop :=
  conditionStatusEquals (findCondition inst.status.conditions .standbyDRReady) .true = true

/-- What a step may do: promote with the settings of the last set-up, get ready after a promotion
and a bootstrap, and not leave a failed creation. -/
structure InOrder (s t : System) : Prop where
  promotes : ∀ calls, t.calls = calls ++ s.calls → ∀ req ok, .promoteStandby req ok ∈ calls →
    lastSetUp s.calls = some req.primary
  ready : IsReady t.inst → ¬ IsReady s.inst → HasPromoted t.calls ∧ HasBootstrapped t.calls
  failed : standbyState s.inst = .standbyDRCreateFailed →
    standbyState t.inst = .standbyDRCreateFailed

def Kept (s : System) : Prop :=
  Attested (standbyState s.inst) s.inst.status.currentReplicationSettings s.calls

theorem kept_step (hs : Kept s) (hstep : step casing s e = some t) : Kept t := by
  unfold Kept at *
  rcases step_cases hstep with ⟨env, rfl, hmoves⟩ | ⟨hstate, -, hcurrent, hcalls⟩
  · rcases hmoves with rfl | ⟨reason, status, current, calls, hleads, hmove⟩
    · exact hs
    · rw [hleads.state, hleads.current, hleads.calls]
      exact hmove.attested hs
  · rw [hstate, hcurrent, hcalls]
    exact hs

theorem inOrder_of_same (hstate : standbyState t.inst = standbyState s.inst)
    (hcond : findCondition t.inst.status.conditions .standbyDRReady =
      findCondition s.inst.status.conditions .standbyDRReady) (hcalls : t.calls = s.calls) :
    InOrder s t := by
  constructor
  · intro calls heq req ok hmem
    rw [hcalls] at heq
    obtain rfl : calls = [] := List.self_eq_append_left.mp heq
    cases hmem
  · intro hready hnot
    unfold IsReady at hready hnot
    rw [hcond] at hready
    exact absurd hready hnot
  · exact fun h => hstate.trans h

theorem inOrder_step (hs : Kept s) (hstep : step casing s e = some t) : InOrder s t := by
  have ht : Kept t := kept_step hs hstep
  rcases step_cases hstep with ⟨env, rfl, hmoves⟩ | ⟨hstate, hcond, -, hcalls⟩
  · rcases hmoves with rfl | ⟨reason, status, current, calls, hleads, hmove⟩
    · exact inOrder_of_same rfl rfl rfl
    · constructor
      · intro calls' heq req ok hmem
        obtain rfl := List.append_cancel_right (hleads.calls.symm.trans heq)
        exact hmove.promotes hs hmem
      · intro hready _
        have hstatus : status = .true := by
          have hl := hleads.status
          unfold IsReady conditionStatusEquals at hready
          cases hc : findCondition t.inst.status.conditions .standbyDRReady with
          | none => simp [hc] at hl
          | some cond =>
            simp only [hc, Option.map_some, Option.some.injEq, Option.any_some,
              decide_eq_true_eq] at hl hready
            exact hl.symm.trans hready
        have hreason : standbyState t.inst = .standbyDRBootstrapCompleted :=
          hleads.state.trans (hmove.ready hstatus)
        unfold Kept at ht
        rw [hreason] at ht
        exact ⟨ht.promoted rfl, ht.bootstrapped rfl⟩
      · intro hfailed
        exact absurd hfailed hmove.not_failed
  · exact inOrder_of_same hstate hcond hcalls

/-- In every run of the machine, whatever edits the spec goes through. -/
theorem promotion_inOrder (casing : Casing) (inst : Instance)
    (hfresh : findCondition inst.status.conditions .standbyDRReady = none) (es : List Event) :
    Runs.EachStep (step casing) (fun s _ t => InOrder s t) ⟨inst, []⟩ es := by
  have hstart : Kept ⟨inst, []⟩ := by
    unfold Kept
    have hstate : standbyState inst = .standbyDRVerifyFailed := by simp [standbyState, hfresh]
    rw [hstate]
    exact .of_early rfl rfl
  apply Runs.eachStep_of_invariant _ _ hstart (Runs.meets_of_forall (fun _ _ => trivial) _ es)
  · intro s e t hs _ hstep
    exact kept_step hs hstep
  · intro s e t hs _ hstep
    exact inOrder_step hs hstep

/-- From the first verification until the settings are removed, and on to the bootstrap. -/
def samplePromotion : List Event :=
  (List.replicate 6 (.reconcile (sampleEnv sampleReplies)) : List Event) ++
    (.edit { sampleStandby.spec with replicationSettings := none } ::
      List.replicate 2 (.reconcile (sampleEnv sampleReplies)) : List Event)

theorem sample_promotion_inOrder :
    (∃ s, Runs.run (step asciiCasing) ⟨sampleStandby, []⟩ samplePromotion = some s ∧
      IsReady s.inst) ∧
    Runs.EachStep (step asciiCasing) (fun s _ t => InOrder s t) ⟨sampleStandby, []⟩
      samplePromotion :=
  ⟨⟨_, rfl, rfl⟩, promotion_inOrder asciiCasing sampleStandby rfl samplePromotion⟩

end Promotion

end ElCarro.StandbyDR
