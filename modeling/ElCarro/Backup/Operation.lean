import ElCarro.Backup.Turns
import ElCarro.Instance.BackupID
import ElCarro.Lro.Owner

/-! # The operation of a physical Backup

A physical Backup is taken by an operation of the daemon, which forgets it some time
after it has been deleted or has finished. The controller deletes it as soon as it has
seen it done, and takes an operation that is not found for one that was interrupted.
-/

namespace ElCarro.Backups.Operation

open GoTime K8s Api Flow
open Instance.Reconciler (World Outcome)
open Lro (Server Code TtlJob Job)

def lroOperationID (backup : Backup) : String := "Backup_" ++ backup.uid

section Answer

def codeText : Code → String
  | .ok => "OK"
  | .canceled => "Canceled"
  | .unknown => "Unknown"
  | .invalidArgument => "InvalidArgument"
  | .deadlineExceeded => "DeadlineExceeded"
  | .notFound => "NotFound"
  | .alreadyExists => "AlreadyExists"
  | .permissionDenied => "PermissionDenied"
  | .resourceExhausted => "ResourceExhausted"
  | .failedPrecondition => "FailedPrecondition"
  | .aborted => "Aborted"
  | .outOfRange => "OutOfRange"
  | .unimplemented => "Unimplemented"
  | .internal => "Internal"
  | .unavailable => "Unavailable"
  | .dataLoss => "DataLoss"
  | .unauthenticated => "Unauthenticated"

/-- An error as the client of the daemon sees it. -/
def rpcText : Lro.Err → String
  | .status code message => "rpc error: code = " ++ codeText code ++ " desc = " ++ message
  | .plain message => "rpc error: code = Unknown desc = " ++ message

/-- A handler that dereferences nil takes the daemon and its connections down. -/
def connectionLost : String := "rpc error: code = Unavailable desc = error reading from server: EOF"

/-- What `GetLROOperation` comes back with, if the call gets through to the daemon. -/
def answer (server : Server) (id : String) : Except String Operation → Except String Operation
  | .error err => .error err
  | .ok _ =>
    match server.getOperation id with
    | none => .error connectionLost
    | some (.error err) => .error (rpcText err)
    | some (.ok op) => .ok ⟨op.done, op.getError.map (·.2)⟩

/-- The call fails on its way with the code of an operation that is not found. -/
def misleading : Except String Operation → Bool
  | .error err => Contains err "code = NotFound"
  | .ok _ => false

end Answer

section System

structure System where
  world : World
  stored : Option Backup
  server : Server
  /-- An operation of the Backup has completed with success. -/
  completed : Bool

inductive Event where
  | reconcile (env : Env)
  /-- `PhysicalBackup` gets to the daemon; the controller may see another answer. -/
  | launch (now : Time)
  | daemon (e : Lro.Event)
  | daemonRestart
  | delete (now : Time)
  /-- Anything that happens to the instance and its objects. -/
  | objects (w : World)

/-- A reconcile of such a Backup can get to the call of `PhysicalBackup`. -/
def Launches (b : Backup) : Prop :=
  b.deletionTimestamp = none ∧ b.state = some .backupPending

instance (b : Backup) : Decidable (Launches b) := inferInstanceAs (Decidable (_ ∧ _))

/-- A job of the ID has succeeded. -/
def hasSucceeded (server : Server) (id : String) : Bool :=
  server.heap.any fun j => j.job.id = id && j.job.task = some .finished && j.job.err = none

def System.serve (s : System) (id : String) (server : Server) : System :=
  { s with server, completed := s.completed || hasSucceeded server id }

/-- Only the controller of the Backup launches an operation under its ID. -/
def ownLaunch (id : String) : Lro.Event → Bool
  | .addJob i _ _ => i = id
  | _ => false

variable (id : String)

def reconcile (env : Env) (s : System) : System :=
  match s.stored with
  | none => s
  | some b =>
    if ¬ reached env .getBackup then s
    else
      let env := { env with operation := answer s.server id env.operation }
      let t := (body env ⟨s.world, some b, 0, b, 0⟩).state
      { s with world := t.world, stored := t.stored }

/-- Other clients of the daemon do anything to their own operations; a request to delete this one
comes after it was seen done. -/
def step (s : System) : Event → Option System
  | .reconcile env => if misleading env.operation then none else some (reconcile id env s)
  | .launch now =>
    if s.stored.any Launches then (s.server.step (.addJob id "RMAN" now)).map (s.serve id)
    else none
  | .daemon e =>
    if ownLaunch id e ∨ ¬ Server.DeletesDone id s.server e then none
    else (s.server.step e).map (s.serve id)
  | .daemonRestart => some (s.serve id .NewServer)
  | .delete now =>
    some { s with stored := s.stored.bind fun b =>
      if b.deletionTimestamp.isSome then some b
      else remaining { b with deletionTimestamp := some now } }
  | .objects w => some { s with world := w }

end System

section Property

/-- A Backup of which an operation has completed is not recorded as failed. -/
def NotFailed (s : System) : Prop :=
  s.completed = true → ∀ b ∈ s.stored, b.state ≠ some .backupFailed

/-- Nothing has been recorded about how the operation ended. -/
def Unrecorded (b : Backup) : Prop :=
  b.state = none ∨ b.state = some .backupPending ∨ b.state = some .backupInProgress

instance (b : Backup) : Decidable (Unrecorded b) := inferInstanceAs (Decidable (_ ∨ _))

/-- The daemon has an operation under the ID that has not failed. -/
def Hopeful (server : Server) (id : String) : Prop :=
  ∃ h ∈ server.jobs.lookup id, ∃ j ∈ server.heap[h]?, j.job.task = some .finished → j.job.err = none

instance (server : Server) (id : String) : Decidable (Hopeful server id) :=
  inferInstanceAs (Decidable (∃ _ ∈ _, ∃ _ ∈ _, _ → _))

/-- The daemon has an operation under the ID that has succeeded. -/
def Succeeded (server : Server) (id : String) : Prop :=
  ∃ h ∈ server.jobs.lookup id, ∃ j ∈ server.heap[h]?, j.job.task = some .finished ∧ j.job.err = none

instance (server : Server) (id : String) : Decidable (Succeeded server id) :=
  inferInstanceAs (Decidable (∃ _ ∈ _, ∃ _ ∈ _, _ ∧ _))

/-- The daemon keeps an operation that has succeeded until that is recorded, and the instance is
ready in every reconcile that would launch an operation again. -/
def KeepsResult (id : String) (s : System) : Event → Prop
  | .reconcile env =>
    ∀ b ∈ s.stored, Launches b → Hopeful s.server id → instIsReady env s.world b = true
  | .daemon e =>
    ∀ server ∈ s.server.step e, id ∉ server.jobs → Succeeded s.server id →
      ∀ b ∈ s.stored, ¬ Unrecorded b
  | .daemonRestart => Succeeded s.server id → ∀ b ∈ s.stored, ¬ Unrecorded b
  | .launch _ | .delete _ | .objects _ => True

instance (id : String) (s : System) : (e : Event) → Decidable (KeepsResult id s e)
  | .reconcile _ => inferInstanceAs (Decidable (∀ _ ∈ _, _ → _ → _))
  | .daemon _ => inferInstanceAs (Decidable (∀ _ ∈ _, _ → _ → ∀ _ ∈ _, _))
  | .daemonRestart => inferInstanceAs (Decidable (_ → ∀ _ ∈ _, _))
  | .launch _ | .delete _ | .objects _ => isTrue trivial

/-- A physical Backup that is to be taken by the operation of this ID. -/
structure Taken (id : String) (b : Backup) : Prop where
  id_eq : lroOperationID b = id
  mode : b.mode = .unset
  physical : b.spec.type = .physical

end Property

section Poll

variable {id : String} {env : Env} {server : Server} {b : Backup}

/-- A poll of an operation that has not failed does not say that it has. -/
theorem not_hopeful_of_poll {done : Bool} {err : String} (hid : id ≠ "")
    (hclear : misleading env.operation = false)
    (hpoll : pollPhysicalBackup { env with operation := answer server id env.operation } =
      some ⟨done, some err⟩)
    (hfail : Contains err "code = NotFound" ∨ done = true) : ¬ Hopeful server id := by
  rintro ⟨h, hl, j, hj, hok⟩
  rw [Option.mem_def] at hl hj
  have hvalid : server.validateAndGetOperation id = .ok h := by
    unfold Server.validateAndGetOperation
    rw [if_neg hid, hl]
  unfold pollPhysicalBackup at hpoll
  simp only at hpoll
  cases hop : env.operation with
  | error text =>
    rw [hop] at hclear hpoll
    simp only [answer, Option.some.injEq, Progress.mk.injEq] at hpoll
    obtain ⟨rfl, rfl⟩ := hpoll
    rcases hfail with hcontains | hdone
    · simp [misleading, hcontains] at hclear
    · cases hdone
  | ok op =>
    rw [hop] at hpoll
    unfold answer Server.getOperation at hpoll
    simp only [hvalid, hj] at hpoll
    cases hdata : Lro.getOperationData id j.job with
    | none =>
      simp only [hdata, Option.map_none, Option.some.injEq, Progress.mk.injEq] at hpoll
      obtain ⟨rfl, rfl⟩ := hpoll
      rcases hfail with hcontains | hdone
      · revert hcontains
        decide +kernel
      · cases hdone
    | some op =>
      simp only [hdata, Option.map_some] at hpoll
      split at hpoll
      · next hdone =>
        obtain ⟨-, herr⟩ := Progress.mk.inj (Option.some.inj hpoll)
        have hfin := Lro.getOperationData_done hdata hdone
        have hnone : op.getError = none := by
          have hdata' := hdata
          simp only [Lro.getOperationData, Job.status, Job.isDone, hfin, hok hfin, Option.map_some,
            Option.some.injEq] at hdata'
          subst hdata'
          cases j.job.resp <;> rfl
        rw [hnone] at herr
        cases herr
      · cases hpoll

end Poll

section Steps

variable {id : String} {env : Env} {s t : System} {b c : Backup}

/-- How far the operation is and what is recorded of it. -/
structure Sound (id : String) (s : System) : Prop where
  kept : Server.Kept id s.server
  taken : ∀ b ∈ s.stored, Taken id b
  noted : hasSucceeded s.server id = true → s.completed = true
  failed : ∀ b ∈ s.stored, b.state = some .backupFailed → s.completed = false ∧
    ∀ (h : Nat) (j : TtlJob), s.server.heap[h]? = some j → j.job.id = id →
      j.job.task = some .finished
  alive : ∀ b ∈ s.stored, s.completed = true → Unrecorded b → Succeeded s.server id

theorem hasSucceeded_iff {server : Server} : hasSucceeded server id = true ↔
    ∃ (h : Nat) (j : TtlJob), server.heap[h]? = some j ∧ j.job.id = id ∧ j.job.Succeeded := by
  simp only [hasSucceeded, List.any_eq_true, List.mem_iff_getElem?, Bool.and_eq_true,
    decide_eq_true_eq, and_assoc, Job.Succeeded]
  constructor
  · rintro ⟨j, ⟨h, hj⟩, hrest⟩
    exact ⟨h, j, hj, hrest⟩
  · rintro ⟨h, j, hj, hrest⟩
    exact ⟨j, ⟨h, hj⟩, hrest⟩

theorem Succeeded.hopeful {server : Server} (h : Succeeded server id) : Hopeful server id := by
  obtain ⟨k, hl, j, hj, hsucc⟩ := h
  exact ⟨k, hl, j, hj, fun _ => hsucc.2⟩

/-- Where the daemon has no operation that may still succeed, none has and none will. -/
theorem Sound.hopeless (hs : Sound id s) (hb : b ∈ s.stored) (hopen : Unrecorded b)
    (hno : ¬ Hopeful s.server id) : s.completed = false ∧
    ∀ (h : Nat) (j : TtlJob), s.server.heap[h]? = some j → j.job.id = id →
      j.job.task = some .finished := by
  constructor
  · by_contra hcompleted
    exact hno (hs.alive b hb (by simpa using hcompleted) hopen).hopeful
  · intro h j hj hid
    by_contra hfin
    exact hno ⟨h, hs.kept.unfinished h j hj hid hfin, j, hj, fun h => absurd h hfin⟩

theorem Taken.id_ne (h : Taken id b) : id ≠ "" := by
  rw [← h.id_eq]
  simp [lroOperationID]

/-- What a reconcile can make of the record. -/
theorem reconcile_cases (hb : Taken id b) {u : Session}
    (hu : u = (body env ⟨s.world, some b, 0, b, 0⟩).state) (hc : u.stored = some c) :
    Taken id c ∧ (c.state = b.state ∨ c.state = some .backupDeleting ∨
      b.deletionTimestamp = none ∧ Turn env s.world b c.state) := by
  subst hu
  have hbody := @body_reconciled env s.world b ⟨s.world, some b, 0, b, 0⟩ ⟨rfl, rfl, rfl⟩ hb.mode
  rcases hbody with ⟨hkept, ⟨d, hd, hsame, hturn⟩ | ⟨-, hd⟩⟩ | ⟨-, hunmade⟩
  · obtain rfl : d = c := Option.some.inj (hd.symm.trans hc)
    refine ⟨?_, .inr (.inr ⟨hkept, hturn⟩)⟩
    rw [hsame]
    exact ⟨hb.id_eq, hb.mode, hb.physical⟩
  · obtain rfl := Option.some.inj (hd.symm.trans hc)
    exact ⟨⟨hb.id_eq, hb.mode, hb.physical⟩, .inl rfl⟩
  · rw [hc] at hunmade
    cases hunmade with
    | same => exact ⟨hb, .inl rfl⟩
    | deleting _ hsame hstate =>
      refine ⟨?_, .inr (.inl hstate)⟩
      rw [hsame]
      exact ⟨hb.id_eq, hb.mode, hb.physical⟩

theorem sound_reconcile (hs : Sound id s) (hok : KeepsResult id s (.reconcile env))
    (hclear : misleading env.operation = false) : Sound id (reconcile id env s) := by
  unfold reconcile
  cases hstored : s.stored with
  | none => exact hs
  | some b =>
    simp only
    split
    · exact hs
    · have hb := hs.taken b hstored
      have hcases : ∀ c, (body { env with operation := answer s.server id env.operation }
          ⟨s.world, some b, 0, b, 0⟩).state.stored = some c → _ :=
        fun c hc => reconcile_cases (s := s) hb rfl hc
      refine ⟨hs.kept, fun c hc => (hcases c hc).1, hs.noted, ?_, ?_⟩
      · intro c hc hfailed
        rcases (hcases c hc).2 with hsame | hdeleting | ⟨hkept, hturn⟩
        · exact hs.failed b hstored (hsame.symm.trans hfailed)
        · rw [hfailed] at hdeleting
          cases hdeleting
        · generalize c.state = state at hturn hfailed
          cases hturn with
          | same => exact hs.failed b hstored hfailed
          | unready hpending hinst =>
            apply hs.hopeless hstored (.inr (.inl hpending))
            intro hhope
            have hready := hok b hstored ⟨hkept, hpending⟩ hhope
            exact Bool.false_ne_true (hinst.symm.trans hready)
          | fail hprogress hpoll hfail =>
            apply hs.hopeless hstored (.inr (.inr hprogress))
            apply not_hopeful_of_poll hb.id_ne hclear _ hfail
            rw [poll, if_neg (by simp [hb.physical])] at hpoll
            exact hpoll
          | wait _ => cases hfailed
          | start _ _ => cases hfailed
          | complete _ _ => cases hfailed
      · intro c hc hcompleted hopen
        apply hs.alive b hstored hcompleted
        rcases (hcases c hc).2 with hsame | hdeleting | ⟨-, hturn⟩
        · unfold Unrecorded at hopen ⊢
          rwa [hsame] at hopen
        · simp [Unrecorded, hdeleting] at hopen
        · unfold Unrecorded at hopen
          generalize c.state = state at hturn hopen
          cases hturn with
          | same => exact hopen
          | unready hpending _ => exact .inr (.inl hpending)
          | fail hprogress _ _ => exact .inr (.inr hprogress)
          | wait hnone => exact .inl hnone
          | start hpending _ => exact .inr (.inl hpending)
          | complete hprogress _ => exact .inr (.inr hprogress)

/-- A job of the ID that has succeeded after a step was successful before, or has just finished. -/
theorem hasSucceeded_of_step {e : Lro.Event} {server : Server} (he : s.server.step e = some server)
    (h : hasSucceeded server id = true) : hasSucceeded s.server id = true ∨
      ∃ k j o, e = .finish k o ∧ s.server.heap[k]? = some j ∧ j.job.id = id ∧
        j.job.task ≠ some .finished ∧ ∃ j', server.heap[k]? = some j' ∧ j'.job.Succeeded := by
  obtain ⟨k, j', hj', hid, hsucc⟩ := hasSucceeded_iff.mp h
  rcases Server.job_of_step he hj' with ⟨j, hj, hjob⟩ | ⟨_, _, _, -, -, hjob⟩ |
    ⟨j, hj, hnot, ⟨-, hjob⟩ | ⟨o, rfl, hjob⟩⟩
  · rw [hjob] at hid hsucc
    exact .inl (hasSucceeded_iff.mpr ⟨k, j, hj, hid, hsucc⟩)
  · rw [hjob] at hsucc
    cases hsucc.1
  · rw [hjob] at hsucc
    cases hsucc.1
  · rw [hjob, Job.finish_id] at hid
    exact .inr ⟨k, j, o, rfl, hj, hid, hnot, j', hj', hsucc⟩

theorem jobs_of_finish {k : Nat} {o : Lro.Outcome} {server server' : Server}
    (he : server.step (.finish k o) = some server') : server'.jobs = server.jobs := by
  simp only [Server.step] at he
  split at he
  · split at he
    · cases he
      rfl
    · cases he
  · cases he

/-- A step of the daemon under which a result that is not recorded stays where it is. -/
theorem sound_serve {e : Lro.Event} {server : Server} (hs : Sound id s)
    (hdone : Server.DeletesDone id s.server e) (he : s.server.step e = some server)
    (hadd : ∀ b ∈ s.stored, b.state = some .backupFailed → ∀ name now, e ≠ .addJob id name now)
    (hkeep : ∀ b ∈ s.stored, Unrecorded b → Succeeded s.server id → id ∈ server.jobs) :
    Sound id (s.serve id server) := by
  refine ⟨hs.kept.step hdone he, hs.taken, ?_, ?_, ?_⟩
  · intro h
    have hnew : hasSucceeded server id = true := h
    simp [System.serve, hnew]
  · intro b hb hfailed
    obtain ⟨hcompleted, hfin⟩ := hs.failed b hb hfailed
    constructor
    · have hno : hasSucceeded server id = false := by
        by_contra h
        rcases hasSucceeded_of_step he (by simpa using h) with hold | ⟨k, j, o, -, hj, hid, hnot, -⟩
        · rw [hs.noted hold] at hcompleted
          cases hcompleted
        · exact hnot (hfin k j hj hid)
      simp [System.serve, hcompleted, hno]
    · intro k j' hj' hid
      rcases Server.job_of_step he hj' with ⟨j, hj, hjob⟩ | ⟨i, name, now, he', -, hjob⟩ |
        ⟨j, hj, hnot, hjob⟩
      · rw [hjob] at hid ⊢
        exact hfin k j hj hid
      · rw [hjob] at hid
        obtain rfl : i = id := hid
        exact absurd he' (hadd b hb hfailed name now)
      · have hid' : j.job.id = id := by
          rcases hjob with ⟨-, hjob⟩ | ⟨o, -, hjob⟩
          · rw [hjob] at hid
            exact hid
          · rwa [hjob, Job.finish_id] at hid
        exact absurd (hfin k j hj hid') hnot
  · intro b hb hcompleted hopen
    have hsucceeded : s.completed = true → Succeeded server id := by
      intro h
      obtain ⟨k, hl, j, hj, hsucc⟩ := hs.alive b hb h hopen
      obtain ⟨j', hj', hjob⟩ := Server.finished_stays he hj hsucc.1
      rcases Server.lookup_kept_or_dropped he hl with hl' | hl'
      · exact ⟨k, hl', j', hj', hjob ▸ hsucc⟩
      · have hmem := hkeep b hb hopen ⟨k, hl, j, hj, hsucc⟩
        exact absurd hmem (Finmap.lookup_eq_none.mp hl')
    simp only [System.serve, Bool.or_eq_true] at hcompleted
    rcases hcompleted with hold | hnew
    · exact hsucceeded hold
    · rcases hasSucceeded_of_step he hnew with hold | ⟨k, j, o, rfl, hj, hid, hnot, j', hj', hsucc⟩
      · exact hsucceeded (hs.noted hold)
      · refine ⟨k, ?_, j', hj', hsucc⟩
        have hl : s.server.jobs.lookup id = some k := hs.kept.unfinished k j hj hid hnot
        rwa [← jobs_of_finish he] at hl

theorem mem_jobs_of_addJob {name : String} {now : Time} {server server' : Server}
    (he : server.step (.addJob id name now) = some server') : id ∈ server'.jobs := by
  by_cases hid : id ∈ server.jobs
  · simp only [Server.step] at he
    split at he
    · cases he
    · simp only [Server.addJob, if_pos hid] at he
      obtain rfl := Option.some.inj he
      exact hid
  · simp only [Server.step] at he
    split at he
    · cases he
    · simp only [Server.addJob, if_neg hid] at he
      obtain rfl := Option.some.inj he
      exact Finmap.mem_insert.mpr (.inl rfl)

theorem sound_step (e : Event) (hs : Sound id s) (hok : KeepsResult id s e)
    (hstep : step id s e = some t) : Sound id t := by
  cases e with
  | reconcile env =>
    simp only [step] at hstep
    split at hstep
    · cases hstep
    · next hclear =>
      obtain rfl := Option.some.inj hstep
      exact sound_reconcile hs hok (by simpa using hclear)
  | launch now =>
    simp only [step] at hstep
    split at hstep
    · next hlaunch =>
      obtain ⟨b, hb, hlaunches⟩ := (Option.any_eq_true _ _).mp hlaunch
      have hpending : b.state = some .backupPending := (of_decide_eq_true hlaunches).2
      obtain ⟨server, he, rfl⟩ := Option.map_eq_some_iff.mp hstep
      have hdone : Server.DeletesDone id s.server (.addJob id "RMAN" now) := trivial
      apply sound_serve hs hdone he
      · intro c hc hfailed
        obtain rfl : b = c := Option.some.inj (hb.symm.trans hc)
        rw [hpending] at hfailed
        cases hfailed
      · exact fun _ _ _ _ => mem_jobs_of_addJob he
    · cases hstep
  | daemon e =>
    simp only [step] at hstep
    split at hstep
    · cases hstep
    · next hforeign =>
      rw [not_or, not_not] at hforeign
      obtain ⟨server, he, rfl⟩ := Option.map_eq_some_iff.mp hstep
      apply sound_serve hs hforeign.2 he
      · rintro _ _ _ name now rfl
        exact hforeign.1 (by simp [ownLaunch])
      · intro b hb hopen hsucc
        by_contra hdropped
        exact hok server he hdropped hsucc b hb hopen
  | daemonRestart =>
    obtain rfl := Option.some.inj hstep
    have hnone : hasSucceeded .NewServer id = false := rfl
    refine ⟨.new, hs.taken, ?_, ?_, ?_⟩
    · intro h
      have hnew : hasSucceeded .NewServer id = true := h
      rw [hnone] at hnew
      cases hnew
    · intro b hb hfailed
      refine ⟨?_, fun h j hj => by simp [System.serve, Server.NewServer] at hj⟩
      simp [System.serve, hnone, (hs.failed b hb hfailed).1]
    · intro b hb hcompleted hopen
      simp only [System.serve, hnone, Bool.or_false] at hcompleted
      exact absurd hopen (hok (hs.alive b hb hcompleted hopen) b hb)
  | delete now =>
    obtain rfl := Option.some.inj hstep
    have hback : ∀ c ∈ s.stored.bind fun b => if b.deletionTimestamp.isSome then some b
        else remaining { b with deletionTimestamp := some now },
        ∃ b ∈ s.stored, c.state = b.state ∧ (Taken id b → Taken id c) := by
      intro c hc
      obtain ⟨b, hb, hdelete⟩ := Option.bind_eq_some_iff.mp hc
      refine ⟨b, hb, ?_⟩
      split at hdelete
      · obtain rfl := Option.some.inj hdelete
        exact ⟨rfl, fun h => h⟩
      · unfold remaining at hdelete
        split at hdelete
        · cases hdelete
        · obtain rfl := Option.some.inj hdelete
          exact ⟨rfl, fun h => ⟨h.id_eq, h.mode, h.physical⟩⟩
    refine ⟨hs.kept, ?_, hs.noted, ?_, ?_⟩
    · intro c hc
      obtain ⟨b, hb, -, htaken⟩ := hback c hc
      exact htaken (hs.taken b hb)
    · intro c hc hfailed
      obtain ⟨b, hb, hstate, -⟩ := hback c hc
      exact hs.failed b hb (hstate.symm.trans hfailed)
    · intro c hc hcompleted hopen
      obtain ⟨b, hb, hstate, -⟩ := hback c hc
      unfold Unrecorded at hopen
      rw [hstate] at hopen
      exact hs.alive b hb hcompleted hopen
  | objects w =>
    obtain rfl := Option.some.inj hstep
    exact ⟨hs.kept, hs.taken, hs.noted, hs.failed, hs.alive⟩

/-- In a run in which the daemon keeps an operation that has succeeded until that is recorded, and
no launch is given up because the instance is not ready, a Backup whose operation has completed is
never recorded as failed. -/
theorem notFailed_of_keepsResult (id : String) (s : System) (es : List Event)
    (hs : ∀ b ∈ s.stored, Taken id b) (hserver : s.server = .NewServer)
    (hcompleted : s.completed = false) (hm : Runs.Meets (step id) (KeepsResult id) s es) :
    Runs.Always (step id) NotFailed s es := by
  have hsound : Sound id s := by
    refine ⟨hserver ▸ .new, hs, fun h => ?_, ?_, ?_⟩
    · rw [hserver] at h
      cases h
    · refine fun b hb _ => ⟨hcompleted, fun h j hj => ?_⟩
      rw [hserver] at hj
      simp [Server.NewServer] at hj
    · intro b hb h
      rw [hcompleted] at h
      cases h
  apply Runs.always_of_invariant (fun _ e _ h hok hstep => sound_step e h hok hstep) _ hsound hm
  intro u hu hdone b hb hfailed
  rw [(hu.failed b hb hfailed).1] at hdone
  cases hdone

end Steps

section Sample

open Instance.BackupID (startedBackup doneBackup)

/-- A Backup whose ID is committed, before the call that launches its operation. -/
def pendingBackup : Backup :=
  { startedBackup with
    status := { startedBackup.status with
      phase := .pending
      ready := some ⟨.false, some .backupPending, "Waiting for the instance to be ready.", 0⟩ } }

def readyWorld : World :=
  let w := Instance.Reconciler.createdWorld none
  { w with stored := { w.stored with
      status := { w.stored.status with
        conditions := upsert 0 .ready .true .createComplete "" w.stored.status.conditions } } }

def pendingSystem : System := ⟨readyWorld, some pendingBackup, .NewServer, false⟩

/-- The operation is launched and completes with success. -/
def completedOperation : List Event :=
  [.launch 1000, .daemon (.start 0), .reconcile (doneBackup 2000),
    .daemon (.finish 0 (.returned none none))]

/-- The metadata cannot be fetched when the operation is seen done. -/
def metadataFails (now : Time) : Env := { doneBackup now with metadata := none }

/-- The operation is deleted, and the daemon forgets it before the metadata can be fetched. -/
def forgottenOperation : List Event :=
  completedOperation ++
    ([.reconcile (metadataFails 3000), .daemon (.findDeleted "Backup_2"), .daemon (.markDeleted 0 4000),
      .daemon (.lockExpired (4000 + 11 * minute) Lro.ttlAfterDelete Lro.ttlAfterComplete),
      .daemon (.checkDelete "Backup_2"), .daemon .checkComplete, .daemon .removeExpired,
      .daemon .unlockExpired, .reconcile (doneBackup (4000 + 12 * minute))] : List Event)

theorem pendingSystem_taken : ∀ b ∈ pendingSystem.stored, Taken "Backup_2" b := by
  rintro _ ⟨⟩
  exact ⟨rfl, rfl, rfl⟩

theorem completed_backup_recorded_as_failed :
    (∀ b ∈ pendingSystem.stored, Taken "Backup_2" b) ∧ pendingSystem.server = .NewServer ∧
      pendingSystem.completed = false ∧
      ¬ Runs.Always (step "Backup_2") NotFailed pendingSystem forgottenOperation := by
  refine ⟨pendingSystem_taken, rfl, rfl, ?_⟩
  intro h
  have hrun : ((Runs.run (step "Backup_2") pendingSystem forgottenOperation).any fun s =>
      s.completed && s.stored.any fun b => b.state = some .backupFailed) = true := by
    decide +kernel
  obtain ⟨s, hs, hbad⟩ := (Option.any_eq_true _ _).mp hrun
  obtain ⟨hcompleted, hfailed⟩ := (Bool.and_eq_true _ _).mp hbad
  obtain ⟨b, hb, hfailed⟩ := (Option.any_eq_true _ _).mp hfailed
  exact h.last hs hcompleted b hb (of_decide_eq_true hfailed)

theorem recorded_backup_keeps_result :
    Runs.Always (step "Backup_2") NotFailed pendingSystem
        (completedOperation ++ [.reconcile (metadataFails 3000), .reconcile (doneBackup 4000)]) ∧
      (Runs.run (step "Backup_2") pendingSystem
        (completedOperation ++ [.reconcile (metadataFails 3000), .reconcile (doneBackup 4000)])).any
          (fun s => s.completed && s.stored.any fun b => b.state = some .backupReady) = true := by
  constructor
  · apply notFailed_of_keepsResult "Backup_2" pendingSystem _ pendingSystem_taken rfl rfl
    decide +kernel
  · decide +kernel

end Sample

end ElCarro.Backups.Operation
