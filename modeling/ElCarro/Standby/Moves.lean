import ElCarro.Standby.Machine

/-! # The moves of the standby state machine

What one reconcile can do is a list of moves, by the state it starts in. A run of the
machine also has edits of the spec in it and what the rest of the controller does to the
status, and these leave alone what the machine goes by.
-/

namespace ElCarro.StandbyDR

open GoTime K8s Api Flow
open Databases.Users (Casing)
open Instance.Reconciler (Result readyCond isStandbyDR standbyErrorRetryInterval)

section Moves

/-- A call that is neither a promotion nor a success that later steps rely on. -/
def Call.plain : Call → Bool
  | .verifyStandbySettings _ => true
  | .createStandby _ => true
  | .setUpDataGuard _ ok => !ok
  | .promoteStandby _ _ => false
  | .bootstrapStandby _ _ => false

/-- What the machine has verified, if it has anything verified. -/
def Asks (env : Env) (inst : Instance) (task : Task) : Prop :=
  ∃ settings, inst.spec.replicationSettings = some settings ∧ task = verifyTask env inst settings

/-- What a reconcile can do to the reason and the status of the condition and to the settings of
the status, and the calls that it makes, by the settings of the spec. -/
inductive Move (casing : Casing) (asked : Task → Prop) (spec : Option ReplicationSettings) :
    Reason → Option ReplicationSettings → Reason → CondStatus → Option ReplicationSettings →
    List Call → Prop where
  | unverified {current : Option ReplicationSettings} {calls : List Call}
      (hcalls : ∀ call ∈ calls, call.plain = true) :
      Move casing asked spec .standbyDRVerifyFailed current .standbyDRVerifyFailed .false current calls
  | verified {current : Option ReplicationSettings} {task : Task}
      (hasked : asked task) (htask : verifyStandbySettings casing task = []) :
      Move casing asked spec .standbyDRVerifyFailed current .standbyDRVerifyCompleted .false current
        [.verifyStandbySettings task]
  | create {current : Option ReplicationSettings} :
      Move casing asked spec .standbyDRVerifyCompleted current .standbyDRCreateInProgress .false spec []
  | creating {current current' : Option ReplicationSettings} {reason : Reason} {calls : List Call}
      (hreason : reason = .standbyDRCreateInProgress ∨ reason = .standbyDRCreateFailed ∨
        reason = .standbyDRCreateCompleted)
      (hcalls : ∀ call ∈ calls, call.plain = true) :
      Move casing asked spec .standbyDRCreateInProgress current reason .false current' calls
  | settingsMissing {state : Reason} {current : Option ReplicationSettings}
      (hstate : state = .standbyDRCreateCompleted ∨ state = .standbyDRSetUpDataGuardFailed)
      (hspec : spec = none) : Move casing asked spec state current state .false current []
  | setUp {state : Reason} {current : Option ReplicationSettings} {settings : ReplicationSettings}
      {credential : GsmSecretReference} {req : SetUpDataGuardRequest}
      (hstate : state = .standbyDRCreateCompleted ∨ state = .standbyDRSetUpDataGuardFailed)
      (hspec : spec = some settings)
      (hcredential : settings.primaryUser.gsmSecretRef = some credential)
      (hreq : req.primary = primarySettings settings credential) :
      Move casing asked spec state current .standbyDRSetUpDataGuardCompleted .false (some settings)
        [.setUpDataGuard req true]
  | setUpFailed {state : Reason} {current current' : Option ReplicationSettings}
      {calls : List Call}
      (hstate : state = .standbyDRCreateCompleted ∨ state = .standbyDRSetUpDataGuardFailed)
      (hcalls : ∀ call ∈ calls, call.plain = true) :
      Move casing asked spec state current .standbyDRSetUpDataGuardFailed .false current' calls
  | replicate {current : Option ReplicationSettings} :
      Move casing asked spec .standbyDRSetUpDataGuardCompleted current
        .standbyDRDataGuardReplicationInProgress .false current []
  | replicated {current : Option ReplicationSettings} {settings : ReplicationSettings}
      {credential : GsmSecretReference} {req : SetUpDataGuardRequest}
      (hspec : spec = some settings)
      (hcredential : settings.primaryUser.gsmSecretRef = some credential)
      (hreq : req.primary = primarySettings settings credential) :
      Move casing asked spec .standbyDRDataGuardReplicationInProgress current
        .standbyDRDataGuardReplicationInProgress .false (some settings) [.setUpDataGuard req true]
  | unreplicated {current : Option ReplicationSettings} {calls : List Call}
      (hcalls : ∀ call ∈ calls, call.plain = true) :
      Move casing asked spec .standbyDRDataGuardReplicationInProgress current
        .standbyDRDataGuardReplicationInProgress .false current calls
  | skipped {state : Reason}
      (hstate : state = .standbyDRDataGuardReplicationInProgress ∨ state = .standbyDRPromoteFailed) :
      Move casing asked spec state none .standbyDRPromoteCompleted .false none []
  | unpromoted {state : Reason} {current : Option ReplicationSettings}
      (hstate : state = .standbyDRDataGuardReplicationInProgress ∨ state = .standbyDRPromoteFailed) :
      Move casing asked spec state current .standbyDRPromoteFailed .false current []
  | promoted {state : Reason} {settings : ReplicationSettings} {credential : GsmSecretReference}
      {req : PromoteStandbyRequest} {ok : Bool}
      (hstate : state = .standbyDRDataGuardReplicationInProgress ∨ state = .standbyDRPromoteFailed)
      (hcredential : settings.primaryUser.gsmSecretRef = some credential)
      (hreq : req.primary = primarySettings settings credential) :
      Move casing asked spec state (some settings)
        (if ok then .standbyDRPromoteCompleted else .standbyDRPromoteFailed) .false (some settings)
        [.promoteStandby req ok]
  | unbootstrapped {state : Reason} {current : Option ReplicationSettings}
      {req : BootstrapStandbyRequest} {ok : Bool}
      (hstate : state = .standbyDRPromoteCompleted ∨ state = .standbyDRBootstrapFailed) :
      Move casing asked spec state current .standbyDRBootstrapFailed .false none
        [.bootstrapStandby req ok]
  | bootstrapped {state : Reason} {current : Option ReplicationSettings}
      {req : BootstrapStandbyRequest}
      (hstate : state = .standbyDRPromoteCompleted ∨ state = .standbyDRBootstrapFailed) :
      Move casing asked spec state current .standbyDRBootstrapCompleted .true none
        [.bootstrapStandby req true]
  | completed {current : Option ReplicationSettings} :
      Move casing asked spec .standbyDRBootstrapCompleted current .standbyDRBootstrapCompleted .true
        current []

/-- The condition, the settings of the status and the calls after a step. -/
structure Leads (s t : Session) (reason : Reason) (status : CondStatus)
    (current : Option ReplicationSettings) (calls : List Call) : Prop where
  state : standbyState t.inst = reason
  status : (findCondition t.inst.status.conditions .standbyDRReady).map (·.status) = some status
  current : t.inst.status.currentReplicationSettings = current
  spec : t.inst.spec = s.inst.spec
  calls : t.calls = calls ++ s.calls

/-- One step of the machine; in some states it does nothing. -/
def Moves (casing : Casing) (env : Env) (s t : Session) : Prop :=
  t = s ∨ ∃ reason status current calls, Leads s t reason status current calls ∧
    Move casing (Asks env s.inst) s.inst.spec.replicationSettings (standbyState s.inst)
      s.inst.status.currentReplicationSettings reason status current calls

/-- On the way through a step, before the condition is set. -/
structure Reached (s u : Session) (current : Option ReplicationSettings) (calls : List Call) :
    Prop where
  current : u.inst.status.currentReplicationSettings = current
  spec : u.inst.spec = s.inst.spec
  calls : u.calls = calls ++ s.calls

end Moves

section Inversion

variable {casing : Casing} {env : Env} {s u : Session} {current : Option ReplicationSettings}
  {calls : List Call}

theorem Reached.start : Reached s s s.inst.status.currentReplicationSettings [] := ⟨rfl, rfl, rfl⟩

theorem Reached.keepSettings (h : Reached s u current calls) {settings : Option ReplicationSettings} :
    wp (keepSettings settings) (fun _ t => Reached s t settings calls) (fun _ _ => False) u := by
  simp only [StandbyDR.keepSettings, setStatus, wp_modify]
  exact ⟨rfl, h.spec, h.calls⟩

theorem Reached.record (h : Reached s u current calls) {call : Call} :
    wp (record call) (fun _ t => Reached s t current (call :: calls)) (fun _ _ => False) u := by
  simp only [StandbyDR.record, wp_modify]
  exact ⟨h.current, h.spec, by simp [h.calls]⟩

theorem Reached.update (h : Reached s u current calls) {status : CondStatus} {reason : Reason}
    {msg : String} {errMsgs : List String} :
    wp (updateStandbyDataReplicationStatus env status reason msg errMsgs)
      (fun _ t => Leads s t reason status current calls) (fun _ _ => False) u := by
  simp only [updateStandbyDataReplicationStatus, upsertCondition, setStatus, wp_modify]
  obtain ⟨cond, hcond, hstatus, hreason⟩ := @findCondition_upsert_self env.now .standbyDRReady
    status reason (statusMessage msg errMsgs) u.inst.status.conditions
  constructor
  · simp [standbyState, hcond, hreason]
  · simp [hcond, hstatus]
  · exact h.current
  · exact h.spec
  · exact h.calls

theorem Reached.next (h : Reached s u current calls) {reason : Reason} {msg : String}
    {errMsgs : List String} {r : Result} :
    wp (next env reason msg errMsgs r) (fun _ _ => False)
      (fun _ t => Leads s t reason .false current calls) u := by
  rw [StandbyDR.next, wp_bind]
  apply h.update.mono
  · intro _ t ht
    exact ht
  · intro _ _ hf
    exact hf.elim

theorem Reached.moves (h : Reached s u current calls) {reason : Reason} {msg : String}
    {errMsgs : List String} {r : Result}
    (hmove : Move casing (Asks env s.inst) s.inst.spec.replicationSettings (standbyState s.inst)
      s.inst.status.currentReplicationSettings reason .false current calls) :
    wp (StandbyDR.next env reason msg errMsgs r) (fun _ _ => False) (fun _ t => Moves casing env s t)
      u := by
  apply h.next.mono
  · exact fun _ _ hf => hf
  · exact fun _ t ht => .inr ⟨_, _, _, _, ht, hmove⟩

theorem toCredentialReq_eq_ok {user : CommonUserSpec} {credential : GsmSecretReference}
    (h : toCredentialReq user = .ok credential) : user.gsmSecretRef = some credential := by
  unfold toCredentialReq at h
  split at h
  · next ref href =>
    obtain rfl := Except.ok.inj h
    exact href
  · cases h

theorem checkSpec_eq_ok {inst : Instance} {settings : ReplicationSettings}
    (h : checkSpec inst = .ok settings) : inst.spec.replicationSettings = some settings := by
  unfold checkSpec at h
  split at h
  · cases h
  · split at h
    · cases h
    · split at h
      · cases h
      · split at h
        · cases h
        · next _ hsettings =>
          split at h
          · cases h
          · split at h
            · cases h
            · obtain rfl := Except.ok.inj h
              exact hsettings

/-- Only an empty list of errors of the verification lets the machine go on. -/
theorem wp_verifySettings :
    wp (verifySettings casing env s.inst)
      (fun res t => ∃ calls, Reached s t s.inst.status.currentReplicationSettings calls ∧
        (∀ call ∈ calls, call.plain = true) ∧
        (res = .ok [] → ∃ task, calls = [.verifyStandbySettings task] ∧ Asks env s.inst task ∧
          verifyStandbySettings casing task = []))
      (fun _ _ => False) s := by
  have hnothing : ∀ res : Except String (List String), res ≠ .ok [] →
      wp (pure res : P (Except String (List String)))
        (fun res t => ∃ calls, Reached s t s.inst.status.currentReplicationSettings calls ∧
          (∀ call ∈ calls, call.plain = true) ∧
          (res = .ok [] → ∃ task, calls = [.verifyStandbySettings task] ∧ Asks env s.inst task ∧
            verifyStandbySettings casing task = []))
        (fun _ _ => False) s := by
    intro res hres
    rw [wp_pure]
    exact ⟨[], .start, by simp, fun h => absurd h hres⟩
  unfold verifySettings
  split
  · exact hnothing _ (by simp)
  · next settings hsettings =>
    split
    · exact hnothing _ (by simp)
    · split
      · exact hnothing _ (by simp)
      · rw [wp_bind]
        apply Reached.start.record.mono
        · intro _ t ht
          rw [wp_pure]
          refine ⟨_, ht, by simp [Call.plain], ?_⟩
          intro hres
          refine ⟨_, rfl, ⟨settings, checkSpec_eq_ok hsettings, rfl⟩, ?_⟩
          simpa using hres
        · exact fun _ _ hf => hf

theorem moves_verifyFailed (hstate : standbyState s.inst = .standbyDRVerifyFailed) :
    wp (verifyFailed casing env s.inst) (fun _ _ => False) (fun _ t => Moves casing env s t) s := by
  rw [verifyFailed, wp_bind]
  apply wp_verifySettings.mono
  · rintro res t ⟨calls, ht, hplain, hok⟩
    have hfailed : Move casing (Asks env s.inst) s.inst.spec.replicationSettings (standbyState s.inst)
        s.inst.status.currentReplicationSettings .standbyDRVerifyFailed .false
        s.inst.status.currentReplicationSettings calls := by
      rw [hstate]
      exact .unverified hplain
    cases res with
    | error err => exact ht.moves hfailed
    | ok externalErrMsgs =>
      simp only
      split
      · exact ht.moves hfailed
      · next hnil =>
        obtain rfl := not_not.mp hnil
        obtain ⟨task, rfl, hasked, htask⟩ := hok rfl
        apply ht.moves
        rw [hstate]
        exact .verified hasked htask
  · exact fun _ _ hf => hf.elim

theorem moves_verifyCompleted (hstate : standbyState s.inst = .standbyDRVerifyCompleted) :
    wp (verifyCompleted env s.inst) (fun _ _ => False) (fun _ t => Moves casing env s t) s := by
  rw [verifyCompleted, wp_bind]
  apply Reached.start.keepSettings.mono
  · intro _ t ht
    apply ht.moves
    rw [hstate]
    exact .create
  · exact fun _ _ hf => hf.elim

theorem moves_createInProgress (hstate : standbyState s.inst = .standbyDRCreateInProgress) :
    wp (createInProgress env s.inst) (fun _ _ => False) (fun _ t => Moves casing env s t) s := by
  have hcreating : ∀ {current : Option ReplicationSettings} {reason : Reason} {calls : List Call},
      (reason = .standbyDRCreateInProgress ∨ reason = .standbyDRCreateFailed ∨
        reason = .standbyDRCreateCompleted) → (∀ call ∈ calls, call.plain = true) →
      Move casing (Asks env s.inst) s.inst.spec.replicationSettings (standbyState s.inst)
        s.inst.status.currentReplicationSettings reason .false current calls := by
    intro current reason calls hreason hplain
    rw [hstate]
    exact .creating hreason hplain
  unfold createInProgress
  split
  · exact Reached.start.moves (hcreating (.inl rfl) (by simp))
  · next settings hspec =>
    rw [wp_bind]
    apply Reached.start.keepSettings.mono
    · intro _ t ht
      split
      · exact ht.moves (hcreating (.inl rfl) (by simp))
      · next credential hcredential =>
        rw [wp_bind]
        apply ht.record.mono
        · intro _ u hu
          split
          · exact hu.moves (hcreating (.inr (.inl rfl)) (by simp [Call.plain]))
          · exact hu.moves (hcreating (.inr (.inl rfl)) (by simp [Call.plain]))
          · exact hu.moves (hcreating (.inl rfl) (by simp [Call.plain]))
          · exact hu.moves (hcreating (.inr (.inr rfl)) (by simp [Call.plain]))
        · exact fun _ _ hf => hf.elim
    · exact fun _ _ hf => hf.elim

/-- Data Guard is set up with the settings, and they are kept; or it is not set up. -/
theorem wp_reconcileDataGuard (h : Reached s u current []) {settings : ReplicationSettings} :
    wp (reconcileDataGuard env s.inst settings)
      (fun res t =>
        (∃ err calls, res = some err ∧ Reached s t current calls ∧
          ∀ call ∈ calls, call.plain = true) ∨
        ∃ credential req, res = none ∧ Reached s t (some settings) [.setUpDataGuard req true] ∧
          settings.primaryUser.gsmSecretRef = some credential ∧
          req.primary = primarySettings settings credential)
      (fun _ _ => False) u := by
  unfold reconcileDataGuard
  split
  · exact .inl ⟨_, [], rfl, h, by simp⟩
  · split
    · exact .inl ⟨_, [], rfl, h, by simp⟩
    · next credential hcredential =>
      rw [wp_bind]
      apply h.record.mono
      · intro _ t ht
        split
        · next err herr =>
          refine .inl ⟨err, _, rfl, ht, ?_⟩
          simp [herr, Call.plain]
        · next hok =>
          rw [wp_bind]
          apply ht.keepSettings.mono
          · intro _ v hv
            simp only [hok, Option.isNone_none] at hv
            exact .inr ⟨credential, _, rfl, hv, toCredentialReq_eq_ok hcredential, rfl⟩
          · exact fun _ _ hf => hf
      · exact fun _ _ hf => hf

theorem moves_setUp {state : Reason} (hstate : standbyState s.inst = state)
    (hsetUp : state = .standbyDRCreateCompleted ∨ state = .standbyDRSetUpDataGuardFailed) :
    wp (setUp env state s.inst) (fun _ _ => False) (fun _ t => Moves casing env s t) s := by
  unfold setUp
  split
  · next hspec =>
    apply Reached.start.moves
    rw [hstate]
    exact .settingsMissing hsetUp hspec
  · next settings hspec =>
    rw [wp_bind]
    apply Reached.start.keepSettings.mono
    · intro _ t ht
      rw [wp_bind]
      apply (wp_reconcileDataGuard ht).mono
      · rintro res v (⟨err, calls, rfl, hv, hplain⟩ | ⟨credential, req, rfl, hv, hcredential, hreq⟩)
        · apply hv.moves
          rw [hstate]
          exact .setUpFailed hsetUp hplain
        · apply hv.moves
          rw [hstate]
          exact .setUp hsetUp hspec hcredential hreq
      · exact fun _ _ hf => hf.elim
    · exact fun _ _ hf => hf.elim

theorem moves_replicate (hstate : standbyState s.inst = .standbyDRSetUpDataGuardCompleted)
    {msg : String} {r : Result} :
    wp (next env .standbyDRDataGuardReplicationInProgress msg [] r) (fun _ _ => False)
      (fun _ t => Moves casing env s t) s := by
  apply Reached.start.moves
  rw [hstate]
  exact .replicate

/-- The standby is promoted with the settings that were kept; without any it counts as promoted. -/
theorem wp_reconcilePromoteStandby :
    wp (reconcilePromoteStandby env s.inst)
      (fun res t =>
        (res = none ∧ s.inst.status.currentReplicationSettings = none ∧ t = s) ∨
        (∃ err, res = some err ∧ t = s) ∨
        ∃ settings credential req, s.inst.status.currentReplicationSettings = some settings ∧
          Reached s t (some settings) [.promoteStandby req res.isNone] ∧
          settings.primaryUser.gsmSecretRef = some credential ∧
          req.primary = primarySettings settings credential)
      (fun _ _ => False) s := by
  unfold reconcilePromoteStandby
  split
  · next hnone => exact .inl ⟨rfl, hnone, rfl⟩
  · next settings hsettings =>
    split
    · exact .inr (.inl ⟨_, rfl, rfl⟩)
    · split
      · exact .inr (.inl ⟨_, rfl, rfl⟩)
      · next credential hcredential =>
        rw [wp_bind]
        apply Reached.start.record.mono
        · intro _ t ht
          rw [hsettings] at ht
          exact .inr (.inr ⟨settings, credential, _, hsettings, ht,
            toCredentialReq_eq_ok hcredential, rfl⟩)
        · exact fun _ _ hf => hf

theorem moves_promote {state : Reason} {retry : Result} (hstate : standbyState s.inst = state)
    (hpromote : state = .standbyDRDataGuardReplicationInProgress ∨ state = .standbyDRPromoteFailed) :
    wp (promote env s.inst retry) (fun _ _ => False) (fun _ t => Moves casing env s t) s := by
  rw [promote, wp_bind]
  apply wp_reconcilePromoteStandby.mono
  · rintro res t (⟨rfl, hnone, rfl⟩ | ⟨err, rfl, rfl⟩ | ⟨settings, credential, req, hsettings, ht, hcredential, hreq⟩)
    · apply Reached.start.moves
      rw [hstate, hnone]
      exact .skipped hpromote
    · apply Reached.start.moves
      rw [hstate]
      exact .unpromoted hpromote
    · have hmove : ∀ ok, Move casing (Asks env s.inst) s.inst.spec.replicationSettings (standbyState s.inst)
          s.inst.status.currentReplicationSettings
          (if ok then .standbyDRPromoteCompleted else .standbyDRPromoteFailed) .false
          (some settings) [.promoteStandby req ok] := by
        intro ok
        rw [hstate, hsettings]
        exact .promoted hpromote hcredential hreq
      cases res with
      | none => exact ht.moves (hmove true)
      | some err => exact ht.moves (hmove false)
  · exact fun _ _ hf => hf.elim

theorem Leads.updateDataGuardStatus {t : Session} {reason : Reason} {status : CondStatus}
    (h : Leads s t reason status current calls) {interval : Duration} :
    wp (updateDataGuardStatus env interval)
      (fun _ v => Leads s v reason status current calls) (fun _ _ => False) t := by
  simp only [StandbyDR.updateDataGuardStatus, setStatus, wp_modify]
  split
  · exact h
  · exact ⟨h.state, h.status, h.current, h.spec, h.calls⟩

theorem moves_replicationInProgress
    (hstate : standbyState s.inst = .standbyDRDataGuardReplicationInProgress) :
    wp (replicationInProgress env s.inst) (fun _ _ => False) (fun _ t => Moves casing env s t) s := by
  -- the condition is set first, and the output of Data Guard after it
  have hlast : ∀ {t : Session} {current : Option ReplicationSettings} {calls : List Call}
      {msg : String} {errMsgs : List String} {interval : Duration} {r : Result},
      Reached s t current calls →
      Move casing (Asks env s.inst) s.inst.spec.replicationSettings (standbyState s.inst)
        s.inst.status.currentReplicationSettings .standbyDRDataGuardReplicationInProgress .false
        current calls →
      wp (updateStandbyDataReplicationStatus env .false .standbyDRDataGuardReplicationInProgress
          msg errMsgs >>= fun _ => updateDataGuardStatus env interval >>= fun _ => finish r)
        (fun (_ : Unit) _ => False) (fun _ t => Moves casing env s t) t := by
    intro t current calls msg errMsgs interval r ht hmove
    rw [wp_bind]
    apply ht.update.mono
    · intro _ v hv
      rw [wp_bind]
      apply hv.updateDataGuardStatus.mono
      · intro _ x hx
        exact .inr ⟨_, _, _, _, hx, hmove⟩
      · exact fun _ _ hf => hf.elim
    · exact fun _ _ hf => hf.elim
  unfold replicationInProgress
  split
  · exact moves_promote hstate (.inl rfl)
  · next settings hspec =>
    rw [wp_bind]
    apply (wp_reconcileDataGuard .start).mono
    · rintro res v (⟨err, calls, rfl, hv, hplain⟩ | ⟨credential, req, rfl, hv, hcredential, hreq⟩)
      · apply hlast hv
        rw [hstate]
        exact .unreplicated hplain
      · apply hlast hv
        rw [hstate]
        exact .replicated hspec hcredential hreq
    · exact fun _ _ hf => hf.elim

theorem wp_bootstrapCompleted (h : Reached s u current calls) :
    wp (bootstrapCompleted env) (fun _ _ => False)
      (fun _ t => Leads s t .standbyDRBootstrapCompleted .true current calls) u := by
  rw [bootstrapCompleted, wp_bind]
  apply h.update.mono
  · intro _ t ht
    simp only [wp_bind, upsertCondition, setStatus, wp_modify, wp_finish]
    have hcond : ∀ message conditions, findCondition
        (upsert env.now .databaseInstanceReady .true .createComplete message
          (upsert env.now .ready .true .createComplete message conditions)) .standbyDRReady =
        findCondition conditions .standbyDRReady := by
      intro message conditions
      rw [findCondition_upsert_ne (by decide), findCondition_upsert_ne (by decide)]
    constructor
    · simpa [standbyState, hcond] using ht.state
    · simpa only [hcond] using ht.status
    · exact ht.current
    · exact ht.spec
    · exact ht.calls
  · exact fun _ _ hf => hf.elim

theorem moves_bootstrapCompleted (hstate : standbyState s.inst = .standbyDRBootstrapCompleted) :
    wp (bootstrapCompleted env) (fun _ _ => False) (fun _ t => Moves casing env s t) s := by
  apply (wp_bootstrapCompleted .start).mono
  · exact fun _ _ hf => hf
  · intro _ t ht
    refine .inr ⟨_, _, _, _, ht, ?_⟩
    rw [hstate]
    exact .completed

theorem wp_bootstrapStandby (h : Reached s u current []) :
    wp (bootstrapStandby env s.inst)
      (fun res t => ∃ req ok, Reached s t current [.bootstrapStandby req ok] ∧
        (res = none → ok = true)) (fun _ _ => False) u := by
  rw [bootstrapStandby, wp_bind]
  apply h.record.mono
  · intro _ t ht
    split
    · exact ⟨_, _, ht, by simp⟩
    · next migrated hmigrated => exact ⟨_, _, ht, by simp [hmigrated, Except.isOk, Except.toBool]⟩
  · exact fun _ _ hf => hf

theorem moves_bootstrap {state : Reason} (hstate : standbyState s.inst = state)
    (hbootstrap : state = .standbyDRPromoteCompleted ∨ state = .standbyDRBootstrapFailed) :
    wp (bootstrap env s.inst) (fun _ _ => False) (fun _ t => Moves casing env s t) s := by
  have hcleared : wp (setStatus fun st =>
      { st with currentReplicationSettings := none, dataGuardOutput := none })
      (fun _ t => Reached s t none []) (fun _ _ => False) s := by
    simp only [setStatus, wp_modify]
    exact ⟨rfl, rfl, rfl⟩
  rw [bootstrap, wp_bind]
  apply hcleared.mono
  · intro _ t ht
    rw [wp_bind]
    apply (wp_bootstrapStandby ht).mono
    · rintro res v ⟨req, ok, hv, hok⟩
      cases res with
      | some err =>
        apply hv.moves
        rw [hstate]
        exact .unbootstrapped hbootstrap
      | none =>
        obtain rfl := hok rfl
        apply (wp_bootstrapCompleted hv).mono
        · exact fun _ _ hf => hf
        · intro _ x hx
          refine .inr ⟨_, _, _, _, hx, ?_⟩
          rw [hstate]
          exact .bootstrapped hbootstrap
    · exact fun _ _ hf => hf.elim
  · exact fun _ _ hf => hf.elim

/-- What one reconcile of the machine can do. -/
theorem moves_standbyStateMachine :
    wp (standbyStateMachine casing env) (fun _ _ => False) (fun _ t => Moves casing env s t) s := by
  rw [standbyStateMachine, wp_bind, wp_get]
  split
  · next h => exact moves_verifyFailed h
  · next h => exact moves_verifyCompleted h
  · next h => exact moves_createInProgress h
  · exact .inl rfl
  · next h => exact moves_setUp h (.inl rfl)
  · next h => exact moves_setUp h (.inr rfl)
  · next h => exact moves_replicate h
  · next h => exact moves_replicationInProgress h
  · next h => exact moves_promote h (.inr rfl)
  · next h => exact moves_bootstrap h (.inl rfl)
  · next h => exact moves_bootstrap h (.inr rfl)
  · next h => exact moves_bootstrapCompleted h
  · exact .inl rfl

end Inversion

section System

/-- The instance as it is stored, with all the calls so far. -/
abbrev System := Session

inductive Event where
  /-- A reconcile, whose status is written. -/
  | reconcile (env : Env)
  | edit (spec : InstanceSpec)
  /-- The rest of the controller changes the status. -/
  | other (status : InstanceStatus)

/-- Nothing but the machine writes its condition and the settings of the status. -/
def Spares (before after : InstanceStatus) : Prop :=
  findCondition after.conditions .standbyDRReady = findCondition before.conditions .standbyDRReady ∧
    after.currentReplicationSettings = before.currentReplicationSettings

instance (before after : InstanceStatus) : Decidable (Spares before after) :=
  inferInstanceAs (Decidable (_ ∧ _))

/-- The gate of the machine in `Reconcile`. -/
def Gate (inst : Instance) : Prop :=
  conditionReasonEquals (readyCond inst) .standbyDRInProgress = true ∧ isStandbyDR inst = true

instance (inst : Instance) : Decidable (Gate inst) := inferInstanceAs (Decidable (_ ∧ _))

def step (casing : Casing) (s : System) : Event → Option System
  | .reconcile env =>
    if Gate s.inst then some (standbyStateMachine casing env s).state else none
  | .edit spec => some { s with inst := { s.inst with spec } }
  | .other status =>
    if Spares s.inst.status status then some { s with inst := { s.inst with status } } else none

variable {casing : Casing} {s t : System}

/-- What a reconcile, an edit or the rest of the controller can do. -/
theorem step_cases {e : Event} (h : step casing s e = some t) :
    (∃ env, e = .reconcile env ∧ Moves casing env s t) ∨
      (standbyState t.inst = standbyState s.inst ∧
        (findCondition t.inst.status.conditions .standbyDRReady) =
          findCondition s.inst.status.conditions .standbyDRReady ∧
        t.inst.status.currentReplicationSettings = s.inst.status.currentReplicationSettings ∧
        t.calls = s.calls) := by
  cases e with
  | reconcile env =>
    simp only [step] at h
    split at h
    · obtain rfl := Option.some.inj h
      have hmoves := @moves_standbyStateMachine casing env s
      exact .inl ⟨env, rfl, (hmoves.mono (fun _ _ hf => hf.elim) fun _ _ hm => hm).state⟩
    · cases h
  | edit spec =>
    obtain rfl := Option.some.inj h
    exact .inr ⟨rfl, rfl, rfl, rfl⟩
  | other status =>
    simp only [step] at h
    split at h
    · next hspares =>
      obtain rfl := Option.some.inj h
      refine .inr ⟨?_, hspares.1, hspares.2, rfl⟩
      simp only [standbyState, hspares.1]
    · cases h

end System

end ElCarro.StandbyDR
