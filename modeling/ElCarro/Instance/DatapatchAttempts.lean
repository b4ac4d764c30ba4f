import ElCarro.Lib.Runs
import ElCarro.Instance.Datapatch

/-! # Attempts and executions of database patching

A poll reads the job that the map holds under the ID. It is a job of the current
attempt as long as no call finds a job of an earlier one, because the map gets an
entry under the ID by these calls only.
-/

namespace ElCarro.Instance.Datapatch

open GoTime Lro

/-- A call to start the patching meets no job of an earlier attempt in the daemon. -/
def NoLeftover (id : String) (s : System) : Event → Prop
  | .startDatabasePatching _ r _ =>
    r ≠ .failed → ∀ h ∈ s.server.jobs.lookup id, s.owner h = some s.attempt
  | _ => True

instance (id : String) (s : System) (e : Event) : Decidable (NoLeftover id s e) := by
  unfold NoLeftover
  split <;> infer_instance

/-- The phases after a call of the current attempt. -/
def Phase.Called : Phase → Prop
  | .inProgress _ => True
  | .polled _ _ => True
  | _ => False

/-- The job under the ID is of the current attempt, and what a poll saw was executed. -/
structure Sound (id : String) (s : System) : Prop where
  range : ∀ h, s.server.jobs.lookup id = some h → h < s.server.heap.length
  executed : ∀ (h : Nat) (j : TtlJob) (a : Nat), s.server.heap[h]? = some j →
    s.owner h = some a → j.job.Succeeded → a ∈ s.executed
  current : s.phase.Called → ∀ h, s.server.jobs.lookup id = some h →
    s.owner h = some s.attempt
  polled : ∀ kind op, s.phase = .polled kind op → op.getError = none → s.attempt ∈ s.executed

namespace Sound

variable {id : String} {s t : System}

theorem new : Sound id .new := by
  refine ⟨?_, ?_, ?_, ?_⟩
  · intro h hl
    cases hl
  · intro h j a hj
    simp [System.new, Server.NewServer] at hj
  · intro hc
    cases hc
  · intro kind op hp
    cases hp

/-- A phase that no call has led to asks for nothing. -/
theorem setPhase {phase : Phase} (h : Sound id s) (hp : ¬ phase.Called) :
    Sound id { s with phase } := by
  refine ⟨h.range, h.executed, fun hc => absurd hc hp, ?_⟩
  rintro kind op rfl
  exact absurd trivial hp

theorem setInProgress {kind : Kind} (h : Sound id s)
    (hcur : ∀ h, s.server.jobs.lookup id = some h → s.owner h = some s.attempt) :
    Sound id { s with phase := .inProgress kind } := by
  refine ⟨h.range, h.executed, fun _ => hcur, ?_⟩
  intro kind' op hp
  cases hp

theorem enter {kind : Kind} (h : Sound id s) :
    Sound id { s with phase := .ready kind, attempt := s.attempt + 1 } := by
  refine ⟨h.range, h.executed, ?_, ?_⟩
  · intro hc
    cases hc
  · intro kind' op hp
    cases hp

/-- After a call that meets no leftover the job under the ID is of this attempt. -/
theorem applyDataPatch {now : Time} (h : Sound id s) (hphase : ¬ s.phase.Called)
    (hok : ∀ h ∈ s.server.jobs.lookup id, s.owner h = some s.attempt)
    (hs : applyDataPatch id s now = some t) :
    Sound id t ∧ ∀ h, t.server.jobs.lookup id = some h → t.owner h = some t.attempt := by
  obtain ⟨server, hstep, rfl⟩ := Option.map_eq_some_iff.mp hs
  have hnot : ∀ kind op, s.phase ≠ .polled kind op := by
    intro kind op hp
    rw [hp] at hphase
    exact hphase trivial
  by_cases hid : id ∈ s.server.jobs
  · -- the job is there already, the call changes nothing
    have hserver : server = s.server := by
      simp only [Server.step] at hstep
      split at hstep
      · cases hstep
      · simpa [Server.addJob, hid] using hstep.symm
    subst hserver
    simp only [if_pos hid]
    exact ⟨⟨h.range, h.executed, fun hc => absurd hc hphase,
      fun kind op hp => absurd hp (hnot kind op)⟩, hok⟩
  · simp only [if_neg hid]
    have hadd : server.heap = s.server.heap ++ [⟨Job.new id "ApplyDataPatch", now, 0, 0⟩] ∧
        server.jobs = s.server.jobs.insert id s.server.heap.length := by
      simp only [Server.step] at hstep
      split at hstep
      · cases hstep
      · simp only [Server.addJob, if_neg hid] at hstep
        obtain rfl := Option.some.inj hstep
        exact ⟨rfl, rfl⟩
    obtain ⟨hheap, hjobs⟩ := hadd
    have hlookup : ∀ k, server.jobs.lookup id = some k → k = s.server.heap.length := by
      intro k hk
      rw [hjobs, Finmap.lookup_insert] at hk
      exact (Option.some.inj hk).symm
    have hcur : ∀ k, server.jobs.lookup id = some k →
        Function.update s.owner s.server.heap.length (some s.attempt) k = some s.attempt := by
      intro k hk
      rw [hlookup k hk, Function.update_self]
    refine ⟨⟨?_, ?_, fun hc => absurd hc hphase, fun kind op hp => absurd hp (hnot kind op)⟩,
      hcur⟩
    · intro k hk
      rw [hlookup k hk, hheap]
      simp
    · intro k j a hj ha hsucc
      rcases Server.succeeded_of_step hstep hj hsucc with ⟨j₀, hj₀, hsucc₀⟩ | ⟨o, ho⟩
      · have hne : k ≠ s.server.heap.length := by
          rintro rfl
          simp at hj₀
        have ha : s.owner k = some a := by rwa [← Function.update_of_ne hne (some s.attempt) s.owner]
        exact h.executed k j₀ a hj₀ ha hsucc₀
      · cases ho

theorem startDatabasePatching {now : Time} {r : Rpc} {persisted : Bool} (h : Sound id s)
    (hok : NoLeftover id s (.startDatabasePatching now r persisted))
    (hs : startDatabasePatching id s now r persisted = some t) : Sound id t := by
  unfold Datapatch.startDatabasePatching at hs
  split at hs
  · next kind hphase =>
    dsimp only at hs
    split at hs
    · next hr =>
      obtain rfl := Option.some.inj hs
      subst hr
      refine h.setPhase ?_
      cases persisted <;> exact not_false
    · next hr =>
      obtain ⟨u, hu, rfl⟩ := Option.map_eq_some_iff.mp hs
      have hnot : ¬ s.phase.Called := by
        rw [hphase]
        exact not_false
      obtain ⟨hu, hcur⟩ := h.applyDataPatch hnot (hok hr) hu
      cases persisted with
      | false => exact hu.setPhase not_false
      | true =>
        cases r with
        | ok => exact hu.setInProgress hcur
        | failed => exact absurd rfl hr
        | lost => exact hu.setPhase not_false
  · cases hs

/-- What a poll reads under the ID is a job of the current attempt. -/
theorem executed_of_getOperation {op : Operation} (h : Sound id s)
    (hcur : ∀ h, s.server.jobs.lookup id = some h → s.owner h = some s.attempt)
    (hop : s.server.getOperation id = some (.ok op)) (hd : op.done = true)
    (he : op.getError = none) : s.attempt ∈ s.executed := by
  unfold Server.getOperation at hop
  split at hop
  · cases hop
  · next k hk =>
    have hl : s.server.jobs.lookup id = some k := by
      unfold Server.validateAndGetOperation at hk
      split at hk
      · cases hk
      · split at hk
        · cases hk
        · next k' hl =>
          rw [hl, Except.ok.inj hk]
    split at hop
    · cases hop
    · next j hj =>
      obtain ⟨op', hop', heq⟩ := Option.map_eq_some_iff.mp hop
      obtain rfl := Except.ok.inj heq
      exact h.executed k j s.attempt hj (hcur k hl) (getOperationData_succeeded hop' hd he)

theorem getOperation {reached : Bool} (h : Sound id s)
    (hs : getOperation id s reached = some t) : Sound id t := by
  unfold Datapatch.getOperation at hs
  split at hs
  · next kind hphase =>
    have hcur := h.current (by rw [hphase]; trivial)
    split at hs
    · split at hs
      · cases hs
      · obtain rfl := Option.some.inj hs
        exact h
      · next op hop =>
        split at hs
        · next hd =>
          obtain rfl := Option.some.inj hs
          refine ⟨h.range, h.executed, fun _ => hcur, ?_⟩
          rintro kind' op' ⟨⟩ he
          exact h.executed_of_getOperation hcur hop hd he
        · obtain rfl := Option.some.inj hs
          exact h
    · obtain rfl := Option.some.inj hs
      exact h
  · cases hs

theorem deleteOperation {r : Rpc} {persisted : Bool} (h : Sound id s)
    (hs : deleteOperation id s r persisted = some t) : Sound id t := by
  unfold Datapatch.deleteOperation at hs
  split at hs
  · next kind op hphase =>
    have hcur := h.current (by rw [hphase]; trivial)
    dsimp only at hs
    have hnext : Sound id { s with phase := if persisted then .outside else .inProgress kind } := by
      cases persisted with
      | true => exact h.setPhase not_false
      | false => exact h.setInProgress hcur
    split at hs
    · obtain rfl := Option.some.inj hs
      exact hnext
    · obtain ⟨server, hstep, rfl⟩ := Option.map_eq_some_iff.mp hs
      -- a delete mark changes neither the map nor the job objects
      have hsame : server.heap = s.server.heap ∧ server.jobs = s.server.jobs := by
        simp only [Server.step] at hstep
        split at hstep
        · cases hstep
        · split at hstep
          all_goals
            obtain rfl := Option.some.inj hstep
            exact ⟨rfl, rfl⟩
      refine ⟨?_, ?_, ?_, hnext.polled⟩
      · intro k hk
        rw [hsame.2] at hk
        rw [hsame.1]
        exact h.range k hk
      · intro k j a hj
        rw [hsame.1] at hj
        exact h.executed k j a hj
      · intro hc k hk
        rw [hsame.2] at hk
        exact hcur k hk
  · cases hs

theorem operatorRestart {kind : Kind} {op : Operation} (h : Sound id s)
    (hphase : s.phase = .polled kind op) : Sound id { s with phase := .inProgress kind } :=
  h.setInProgress (h.current (by rw [hphase]; trivial))

theorem daemonRestart (h : Sound id s) :
    Sound id { s with server := .NewServer, owner := fun _ => none } := by
  refine ⟨?_, ?_, ?_, h.polled⟩
  · intro k hk
    cases hk
  · intro k j a hj
    simp [Server.NewServer] at hj
  · intro hc k hk
    cases hk

/-- A step of the daemon that keeps the bookkeeping of the map and the owners in line. -/
theorem of_server {server : Server} {e : Lro.Event} {owner : Nat → Option Nat}
    {executed : List Nat} (h : Sound id s) (hstep : s.server.step e = some server)
    (hid : ∀ name now, e ≠ .addJob id name now)
    (howner : ∀ k, k < s.server.heap.length → owner k = s.owner k)
    (hexec : ∀ a ∈ s.executed, a ∈ executed)
    (hfin : ∀ k o j a, e = .finish k o → server.heap[k]? = some j → s.owner k = some a →
      j.job.Succeeded → a ∈ executed) :
    Sound id { s with server, owner, executed } := by
  have hlen : s.server.heap.length ≤ server.heap.length := by
    cases Server.effect_of_step hstep with
    | added _ hh _ => simp [hh]
    | started hh _ => simp [hh]
    | finished hh _ => simp [hh]
    | touched _ hh _ => simp [hh]
    | removed hh _ => simp [hh]
    | none hh _ => simp [hh]
  refine ⟨?_, ?_, ?_, ?_⟩
  · intro k hk
    exact (h.range k (Server.lookup_of_step hstep hid hk)).trans_le hlen
  · intro k j a hj ha hsucc
    rcases Server.succeeded_of_step hstep hj hsucc with ⟨j₀, hj₀, hsucc₀⟩ | ⟨o, rfl⟩
    · have hk : k < s.server.heap.length := (List.getElem?_eq_some_iff.mp hj₀).1
      exact hexec a (h.executed k j₀ a hj₀ ((howner k hk).symm.trans ha) hsucc₀)
    · have hk : k < s.server.heap.length := by
        cases Server.effect_of_step hstep with
        | finished hh _ =>
          rw [hh] at hj
          obtain ⟨j₀, hj₀, -⟩ := Server.getElem?_modify_eq_some hj
          exact (List.getElem?_eq_some_iff.mp hj₀).1
        | touched _ hh _ =>
          rw [hh] at hj
          obtain ⟨j₀, hj₀, -⟩ := Server.getElem?_modify_eq_some hj
          exact (List.getElem?_eq_some_iff.mp hj₀).1
        | removed hh _ =>
          rw [hh] at hj
          exact (List.getElem?_eq_some_iff.mp hj).1
        | none hh _ =>
          rw [hh] at hj
          exact (List.getElem?_eq_some_iff.mp hj).1
      exact hfin k o j a rfl hj ((howner k hk).symm.trans ha) hsucc
  · intro hc k hk
    have hk₀ := Server.lookup_of_step hstep hid hk
    exact (howner k (h.range k hk₀)).trans (h.current hc k hk₀)
  · intro kind op hp he
    exact hexec _ (h.polled kind op hp he)

theorem daemon {e : Lro.Event} {server : Server} (h : Sound id s) (hf : foreign id e = true)
    (hstep : s.server.step e = some server) : Sound id (note s e server) := by
  have hid : ∀ name now, e ≠ .addJob id name now := by
    rintro name now rfl
    simp [foreign] at hf
  cases e with
  | addJob id' name now =>
    refine h.of_server hstep hid ?_ (fun a ha => ha) (by simp)
    intro k hk
    split
    · rfl
    · exact Function.update_of_ne hk.ne _ _
  | finish k o =>
    unfold note
    split
    · next heq =>
      cases heq
    · next heq =>
      cases heq
      split
      · next a j ha hj =>
        refine h.of_server hstep hid (fun _ _ => rfl) ?_ ?_
        · intro b hb
          split
          · exact List.mem_cons_of_mem a hb
          · exact hb
        · rintro _ _ j' a' ⟨⟩ hj' ha' hsucc
          obtain rfl : j = j' := Option.some.inj (hj.symm.trans hj')
          obtain rfl : a = a' := Option.some.inj (ha.symm.trans ha')
          rw [if_pos hsucc.2]
          exact List.mem_cons_self
      · next hnone =>
        refine h.of_server hstep hid (fun _ _ => rfl) (fun a ha => ha) ?_
        rintro _ _ j' a' ⟨⟩ hj' ha' -
        exact absurd hj' (hnone a' j' ha')
    · next hne => exact absurd rfl (hne _ _)
  | _ => exact h.of_server hstep hid (fun _ _ => rfl) (fun a ha => ha) (by simp)

theorem step {e : Event} (h : Sound id s) (hok : NoLeftover id s e)
    (hs : step id s e = some t) : Sound id t := by
  cases e with
  | enter kind =>
    simp only [Datapatch.step] at hs
    split at hs
    · obtain rfl := Option.some.inj hs
      exact h.enter
    · cases hs
  | leave =>
    obtain rfl := Option.some.inj hs
    exact h.setPhase not_false
  | startDatabasePatching now r persisted => exact h.startDatabasePatching hok hs
  | getOperation reached => exact h.getOperation hs
  | deleteOperation r persisted => exact h.deleteOperation hs
  | operatorRestart =>
    simp only [Datapatch.step] at hs
    split at hs
    · next hphase =>
      obtain rfl := Option.some.inj hs
      exact h.operatorRestart hphase
    · obtain rfl := Option.some.inj hs
      exact h
  | daemon e =>
    simp only [Datapatch.step] at hs
    split at hs
    · next hf =>
      obtain ⟨server, hstep, rfl⟩ := Option.map_eq_some_iff.mp hs
      exact h.daemon hf hstep
    · cases hs
  | daemonRestart =>
    obtain rfl := Option.some.inj hs
    exact h.daemonRestart

end Sound

/-- Every poll that reports done belongs to an attempt that was executed. -/
def ReportsExecuted (id : String) (s : System) (e : Event) (_ : System) : Prop :=
  reports id s e = true → s.attempt ∈ s.executed

/--
In every run whose calls meet no job of an earlier attempt, a poll reports done without an error
only if an execution started by a call of the same attempt has finished successfully.
-/
theorem reportsExecuted_of_noLeftover (id : String) (es : List Event)
    (hm : Runs.Meets (step id) (NoLeftover id) .new es) :
    Runs.EachStep (step id) (ReportsExecuted id) .new es := by
  refine Runs.eachStep_of_invariant (fun _ _ _ h hok hs => h.step hok hs) ?_ Sound.new hm
  intro s e t h _ hs hrep
  unfold reports at hrep
  split at hrep
  · split at hrep
    · next kind op hphase =>
      refine h.polled kind op hphase ?_
      have hdone : isDatabasePatchingDone id s op _ = .ok true := of_decide_eq_true hrep
      unfold isDatabasePatchingDone at hdone
      split at hdone
      · split at hdone
        · cases hdone
        · next herr => exact herr
      · cases hdone
    · cases hrep
  · cases hrep

section Example

def patchID : String := lroPatchingOperationID "1"

/-- One attempt after a restore, from the call to the report. -/
def oneAttempt : List Event :=
  [.enter .postRestore,
    .startDatabasePatching (1 * minute) .ok true,
    .daemon (.start 0),
    .daemon (.finish 0 (.returned (some (.proto "")) none)),
    .getOperation true,
    .deleteOperation .ok true]

/-- A second attempt a few minutes later, up to the end of its first poll. -/
def nextAttempt : List Event :=
  [.daemon (.markDeleted 0 (2 * minute)),
    .enter .postRestore,
    .startDatabasePatching (5 * minute) .ok true,
    .getOperation true]

/-- The second attempt is reported done without an execution of its own. -/
theorem second_attempt_not_executed :
    ∃ s, Runs.run (step patchID) .new (oneAttempt ++ nextAttempt) = some s ∧
      s.attempt = 2 ∧ reports patchID s (.deleteOperation .ok true) = true ∧
      s.attempt ∉ s.executed := by
  have hrun : ((Runs.run (step patchID) .new (oneAttempt ++ nextAttempt)).map fun s =>
      (s.attempt, reports patchID s (.deleteOperation .ok true), s.executed)) =
        some (2, true, [1]) := by
    decide
  obtain ⟨s, hs, heq⟩ := Option.map_eq_some_iff.mp hrun
  simp only [Prod.mk.injEq] at heq
  obtain ⟨ha, hr, he⟩ := heq
  refine ⟨s, hs, ha, hr, ?_⟩
  rw [ha, he]
  decide

theorem single_attempt_executed :
    Runs.Meets (step patchID) (NoLeftover patchID) .new oneAttempt ∧
      Runs.EachStep (step patchID) (ReportsExecuted patchID) .new oneAttempt := by
  have hmeets : Runs.Meets (step patchID) (NoLeftover patchID) .new oneAttempt := by decide
  exact ⟨hmeets, reportsExecuted_of_noLeftover patchID oneAttempt hmeets⟩

end Example

end ElCarro.Instance.Datapatch
