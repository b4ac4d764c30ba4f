import Mathlib.Logic.Function.Basic
import ElCarro.DataPump.Reconcile
import ElCarro.Lro.Retention

/-! # An Import or Export and the daemons

One object, the reconciles of its controller and the daemons of the instances. A reconcile may
read any version the object has had, since reads come from a cache; the update of its status
reaches the API server later, which takes it only from the current version, and which may
refuse or lose it anyway. The operation ID holds the UID of the object, so that nobody else
launches an operation under it.
-/

namespace ElCarro.DataPump

open GoTime K8s
open Lro (Server)

variable {Spec Request : Type}

/-- How far the call that launches the operation gets. -/
inductive Delivery where
  | unsent (err : CallError)
  /-- The daemon has served the call, and the controller sees an error. -/
  | lost (err : CallError)
  | replied
  deriving DecidableEq, Repr

def Delivery.seen : Delivery → Except CallError Unit
  | .unsent err | .lost err => .error err
  | .replied => .ok ()

def Delivery.served : Delivery → Bool
  | .unsent _ => false
  | .lost _ | .replied => true

structure System (Spec : Type) where
  /-- The versions of the object that the API server has had, oldest first. -/
  versions : List (Object Spec)
  deleted : Bool
  /-- Updates under way, with the version each is based on. -/
  writes : List (Nat × Object Spec)
  /-- The daemon of each instance. -/
  daemons : String → Server
  /-- The jobs of all daemons whose call is over, as it left them. -/
  ended : List Lro.Job

inductive Event (Spec : Type) where
  | reconcile (version : Nat) (env : Env) (delivery : Delivery)
  | write (update : Nat × Object Spec) (accepted : Bool)
  | edit (spec : Spec)
  | delete
  | daemon (inst : String) (e : Lro.Event)
  | restart (inst : String)

/-- What `GetLROOperation` comes back with, if the call gets through to the daemon. -/
def answer (server : Server) (id : String) : Except String Lro.Operation → Except String Lro.Operation
  | .error err => .error err
  | .ok _ =>
    match server.getOperation id with
    | none => .error "error reading from server: EOF"
    | some (.error (.status _ message)) => .error message
    | some (.error (.plain message)) => .error message
    | some (.ok op) => .ok op

/-- The job whose call an event has ended. -/
def endedBy (server : Server) : Lro.Event → List Lro.Job
  | .finish h _ => ((server.heap[h]?).map (·.job)).toList
  | _ => []

def System.current (s : System Spec) : Option (Object Spec) := s.versions.getLast?

section Step

variable (c : Controller Spec Request)

/-- The operation ID of the object. -/
def System.operationID (s : System Spec) : Option String :=
  s.versions.head?.map (lroOperationID c)

/-- Only the controller of the object launches an operation under its ID. -/
def ownLaunch (s : System Spec) : Lro.Event → Bool
  | .addJob id _ _ => s.operationID c = some id
  | _ => false

/-- The answers that the reconcile of a version of the object gets. -/
def served (s : System Spec) (env : Env) (delivery : Delivery) (o : Object Spec) : Env :=
  { env with
    launch := delivery.seen
    operation := answer (s.daemons (c.instName o.spec)) (lroOperationID c o) env.operation }

/-- The daemon after a call that may have got to it. -/
def launched (server : Server) (out : Outcome Spec Request) (delivery : Delivery) (id : String)
    (now : Time) : Option Server :=
  if out.request.isSome && delivery.served then server.step (.addJob id c.jobName now)
  else some server

def System.step [DecidableEq Spec] (s : System Spec) : Event Spec → Option (System Spec)
  | .reconcile version env delivery => do
    let o ← s.versions[version]?
    let inst := c.instName o.spec
    let out := reconcile c (served c s env delivery o) o
    let server ← launched c (s.daemons inst) out delivery (lroOperationID c o) env.now
    some { s with
      daemons := Function.update s.daemons inst server
      writes := if out.changed then (version, out.object) :: s.writes else s.writes }
  | .write (version, o) accepted =>
    if (version, o) ∈ s.writes then
      some { s with
        writes := s.writes.erase (version, o)
        versions :=
          -- an update that changes nothing keeps the version
          if accepted ∧ ¬ s.deleted ∧ version + 1 = s.versions.length ∧ s.current ≠ some o then
            s.versions ++ [o]
          else s.versions }
    else none
  | .edit spec =>
    if s.deleted then none
    else (s.current).map fun o => { s with versions := s.versions ++ [{ o with spec := spec }] }
  | .delete => some { s with deleted := true }
  | .daemon inst e =>
    if ownLaunch c s e then none
    else ((s.daemons inst).step e).map fun server =>
      { s with
        daemons := Function.update s.daemons inst server
        ended := s.ended ++ endedBy server e }
  | .restart inst => some { s with daemons := Function.update s.daemons inst .NewServer }

/-- A new object, with every daemon just started. -/
def System.new (o : Object Spec) : System Spec := ⟨[o], false, [], fun _ => .NewServer, []⟩

end Step

section Reconcile

variable {c : Controller Spec Request} {env : Env} {o : Object Spec}

/-- Nothing has been recorded about how the operation ended. -/
def Undecided (c : Controller Spec Request) (o : Object Spec) : Prop :=
  o.state = none ∨ o.state = some c.reasons.pending ∨ o.state = some c.reasons.inProgress

/-- What a reconcile can make of the object it has read. -/
inductive Turn (c : Controller Spec Request) (env : Env) (o : Object Spec) :
    Outcome Spec Request → Prop where
  | kept {out : Outcome Spec Request} (hchanged : out.changed = false) : Turn c env o out
  | waits {out : Outcome Spec Request} (hopen : Undecided c o) (huid : out.object.uid = o.uid)
      (hstate : Undecided c out.object) : Turn c env o out
  | fails {out : Outcome Spec Request} {op : Lro.Operation} (hopen : Undecided c o)
      (huid : out.object.uid = o.uid) (hop : env.operation = .ok op) (hdone : op.done = true)
      (herr : op.getError ≠ none) (hstate : out.object.state = some c.reasons.failed) :
      Turn c env o out
  | completes {out : Outcome Spec Request} {op : Lro.Operation} (hopen : Undecided c o)
      (huid : out.object.uid = o.uid) (hop : env.operation = .ok op) (hdone : op.done = true)
      (herr : op.getError = none) (hstate : out.object.state = some c.reasons.complete) :
      Turn c env o out

@[simp] theorem state_setState (now : Time) (reason : Reason) (message : String) :
    (setState c now reason message o).state = some reason := by
  obtain ⟨cond, hcond, -, hreason⟩ := @findCondition_upsert_self now .ready
    (if reason = c.reasons.complete then .true else .false) reason message o.conditions
  simp [Object.state, setState, hcond, hreason]

@[simp] theorem uid_setState (now : Time) (reason : Reason) (message : String) :
    (setState c now reason message o).uid = o.uid := rfl

variable {read : Object Spec} {changed : Bool}

theorem turn_handleNotStarted (hread : Undecided c read) (huid : o.uid = read.uid)
    (hstate : o.state = some c.reasons.pending) :
    Turn c env read (handleNotStarted c env o changed) := by
  have hkeep : ∀ {request : Option Request} {result : Except String Duration},
      Turn c env read ⟨o, changed, request, false, none, result⟩ :=
    .waits hread huid (.inr (.inl hstate))
  have hset : ∀ {reason : Reason} {message : String} {request : Option Request}
      {result : Except String Duration},
      reason = c.reasons.pending ∨ reason = c.reasons.inProgress →
      Turn c env read ⟨setState c env.now reason message o, true, request, false, none, result⟩ := by
    intro reason message request result hreason
    apply Turn.waits hread huid
    right
    simpa using hreason
  unfold handleNotStarted
  split
  · exact hkeep
  · split
    · exact hkeep
    · split
      · exact hkeep
      · split
        · exact hkeep
        · split
          · split
            · exact hset (.inr rfl)
            · split
              · exact hset (.inr rfl)
              · exact hset (.inl rfl)
          · exact hkeep

theorem turn_handleRunning (hread : Undecided c read) (huid : o.uid = read.uid)
    (hstate : o.state = some c.reasons.inProgress) :
    Turn c env read (handleRunning c env o changed) := by
  have hopen : Undecided c o := .inr (.inr hstate)
  unfold handleRunning
  split
  · exact .waits hread huid hopen
  · next op hop =>
    split
    · exact .waits hread huid hopen
    · next hdone =>
      have hdone' : op.done = true := by simpa using hdone
      split
      · next herr => exact .fails hread huid hop hdone' (by simp [herr]) (by simp)
      · next herr => exact .completes hread huid hop hdone' herr (by simp)

theorem turn_reconcile (env : Env) (o : Object Spec) : Turn c env o (reconcile c env o) := by
  unfold reconcile getState
  cases hcond : findCondition o.conditions .ready with
  | none =>
    have hnone : o.state = none := by simp [Object.state, hcond]
    simp only [Option.isNone_none, if_true, state_setState]
    exact turn_handleNotStarted (.inl hnone) rfl (by simp)
  | some cond =>
    simp only [Option.isNone_some, Bool.false_eq_true, if_false]
    split
    · next hstate => exact turn_handleNotStarted (.inr (.inl hstate)) rfl hstate
    · split
      · next hstate => exact turn_handleRunning (.inr (.inr hstate)) rfl hstate
      · exact .kept rfl

/-- A decided object is not changed any more. -/
theorem undecided_of_changed (h : (reconcile c env o).changed = true) : Undecided c o := by
  cases turn_reconcile env o with
  | kept hchanged =>
    rw [hchanged] at h
    cases h
  | waits hopen => exact hopen
  | fails hopen => exact hopen
  | completes hopen => exact hopen

end Reconcile

section Records

variable {c : Controller Spec Request} {id : String}

/-- A job of the ID is over, without an error or with one. -/
def Ends (ended : List Lro.Job) (id : String) (err : Option Lro.Err → Prop) : Prop :=
  ∃ job ∈ ended, job.id = id ∧ job.task = some .finished ∧ err job.err

/-- What is recorded of the operation agrees with how a job of its ID ended. -/
structure Justified (c : Controller Spec Request) (id : String) (ended : List Lro.Job)
    (o : Object Spec) : Prop where
  id_eq : lroOperationID c o = id
  complete : o.state = some c.reasons.complete → Ends ended id (· = none)
  failed : o.state = some c.reasons.failed → Ends ended id (· ≠ none)

/-- What a daemon holds of jobs that are over is known. -/
structure Known (ended : List Lro.Job) (server : Server) : Prop where
  regular : Server.Regular server
  finished : ∀ (h : Nat) (j : Lro.TtlJob), server.heap[h]? = some j →
    j.job.task = some .finished → j.job ∈ ended

structure Sound (c : Controller Spec Request) (id : String) (s : System Spec) : Prop where
  versions : ∀ o ∈ s.versions, Justified c id s.ended o
  writes : ∀ version o, (version, o) ∈ s.writes → Justified c id s.ended o
  based : ∀ version o read, (version, o) ∈ s.writes → s.versions[version]? = some read →
    Undecided c read
  stored : ∀ version o, (version, o) ∈ s.writes → version < s.versions.length
  daemons : ∀ inst, Known s.ended (s.daemons inst)

theorem Ends.mono {ended more : List Lro.Job} {err : Option Lro.Err → Prop}
    (h : Ends ended id err) : Ends (ended ++ more) id err := by
  obtain ⟨job, hjob, hrest⟩ := h
  exact ⟨job, List.mem_append_left more hjob, hrest⟩

theorem Justified.mono {ended more : List Lro.Job} {o : Object Spec}
    (h : Justified c id ended o) : Justified c id (ended ++ more) o where
  id_eq := h.id_eq
  complete hstate := (h.complete hstate).mono
  failed hstate := (h.failed hstate).mono

theorem Justified.of_undecided {ended : List Lro.Job} {o : Object Spec}
    (hid : lroOperationID c o = id) (h : Undecided c o) : Justified c id ended o := by
  have hd := c.reasons.distinct
  simp only [List.nodup_cons, List.mem_cons, List.not_mem_nil, or_false, not_or] at hd
  refine ⟨hid, ?_, ?_⟩
  · intro hstate
    rcases h with h | h | h
    all_goals
      rw [hstate] at h
      grind
  · intro hstate
    rcases h with h | h | h
    all_goals
      rw [hstate] at h
      grind

/-- A poll that sees the operation done has read a job that is over. -/
theorem ends_of_answer {ended : List Lro.Job} {server : Server} {poll : Except String Lro.Operation}
    {op : Lro.Operation} (hs : Known ended server) (ha : answer server id poll = .ok op)
    (hdone : op.done = true) :
    (op.getError = none → Ends ended id (· = none)) ∧
      (op.getError ≠ none → Ends ended id (· ≠ none)) := by
  have hget : server.getOperation id = some (.ok op) := by
    unfold answer at ha
    split at ha
    · cases ha
    · split at ha
      · cases ha
      · cases ha
      · cases ha
      · next hget =>
        obtain rfl := Except.ok.inj ha
        exact hget
  unfold Server.getOperation at hget
  split at hget
  · cases hget
  · next h hvalid =>
    split at hget
    · cases hget
    · next j hj =>
      obtain ⟨op', hop, heq⟩ := Option.map_eq_some_iff.mp hget
      obtain rfl := Except.ok.inj heq
      obtain ⟨j', hj', hid⟩ :=
        hs.regular.mapped id h (Lro.Service.lookup_of_validateAndGetOperation hvalid)
      obtain rfl : j = j' := Option.some.inj (hj.symm.trans hj')
      have hfin := Lro.getOperationData_done hop hdone
      have hmem := hs.finished h j hj hfin
      constructor
      · intro herr
        exact ⟨j.job, hmem, hid, hfin, (Lro.getOperationData_succeeded hop hdone herr).2⟩
      · intro herr
        exact ⟨j.job, hmem, hid, hfin, fun hnone => herr (Lro.getOperationData_getError hop hnone)⟩

/-- What a reconcile writes is justified by what it has seen of the daemon. -/
theorem justified_reconcile {ended : List Lro.Job} {env : Env} {o : Object Spec}
    (ho : Justified c id ended o) (hchanged : (reconcile c env o).changed = true)
    (hend : ∀ op, env.operation = .ok op → op.done = true →
      (op.getError = none → Ends ended id (· = none)) ∧
        (op.getError ≠ none → Ends ended id (· ≠ none))) :
    Justified c id ended (reconcile c env o).object := by
  have hne : c.reasons.complete ≠ c.reasons.failed := by
    have hd := c.reasons.distinct
    simp only [List.nodup_cons, List.mem_cons, List.not_mem_nil, or_false, not_or] at hd
    exact hd.2.2.1
  have hid : ∀ {o' : Object Spec}, o'.uid = o.uid → lroOperationID c o' = id := by
    intro o' huid
    rw [← ho.id_eq, lroOperationID, lroOperationID, huid]
  cases turn_reconcile env o with
  | kept hkept =>
    rw [hkept] at hchanged
    cases hchanged
  | waits _ huid hstate => exact .of_undecided (hid huid) hstate
  | fails _ huid hop hdone herr hstate =>
    refine ⟨hid huid, ?_, fun _ => (hend _ hop hdone).2 herr⟩
    intro hcomplete
    rw [hstate] at hcomplete
    exact absurd (Option.some.inj hcomplete).symm hne
  | completes _ huid hop hdone herr hstate =>
    refine ⟨hid huid, fun _ => (hend _ hop hdone).1 herr, ?_⟩
    intro hfailed
    rw [hstate] at hfailed
    exact absurd (Option.some.inj hfailed) hne

theorem Known.mono {ended more : List Lro.Job} {server : Server} (hs : Known ended server) :
    Known (ended ++ more) server where
  regular := hs.regular
  finished h j hj hfin := List.mem_append_left more (hs.finished h j hj hfin)

theorem Known.new {ended : List Lro.Job} : Known ended .NewServer where
  regular := .new
  finished := by simp [Server.NewServer]

theorem Known.step {ended : List Lro.Job} {server server' : Server} {e : Lro.Event}
    (hs : Known ended server) (he : server.step e = some server') :
    Known (ended ++ endedBy server' e) server' := by
  refine ⟨hs.regular.step he, ?_⟩
  intro h j' hj' hfin
  rcases Server.job_of_step he hj' with ⟨j, hj, hjob⟩ | ⟨_, _, _, -, -, hjob⟩ |
    ⟨j, hj, -, ⟨-, hjob⟩ | ⟨o, rfl, -⟩⟩
  · rw [hjob] at hfin ⊢
    exact List.mem_append_left _ (hs.finished h j hj hfin)
  · rw [hjob] at hfin
    cases hfin
  · rw [hjob] at hfin
    cases hfin
  · apply List.mem_append_right
    simp [endedBy, hj']

theorem Known.launched {ended : List Lro.Job} {server server' : Server}
    {out : Outcome Spec Request} {delivery : Delivery} {now : Time} (hs : Known ended server)
    (hl : launched c server out delivery id now = some server') : Known ended server' := by
  unfold DataPump.launched at hl
  split at hl
  · simpa [endedBy] using hs.step hl
  · obtain rfl := Option.some.inj hl
    exact hs

section Step

variable [DecidableEq Spec] {s t : System Spec} {e : Event Spec}

omit [DecidableEq Spec] in
/-- One daemon changes, and the others keep what they have. -/
theorem Sound.known_update {more : List Lro.Job} {server : Server} (hs : Sound c id s)
    (inst : String) (hserver : Known (s.ended ++ more) server) (i : String) :
    Known (s.ended ++ more) (Function.update s.daemons inst server i) := by
  by_cases hi : i = inst
  · subst hi
    rwa [Function.update_self]
  · rw [Function.update_of_ne hi]
    exact (hs.daemons i).mono

omit [DecidableEq Spec] in
/-- A version is added that a sound update or an edit has made. -/
theorem Sound.append (hs : Sound c id s) {o : Object Spec} {writes : List (Nat × Object Spec)}
    (ho : Justified c id s.ended o) (hw : writes ⊆ s.writes) :
    Sound c id { s with versions := s.versions ++ [o], writes := writes } := by
  constructor
  · intro o' ho'
    rcases List.mem_append.mp ho' with hold | hnew
    · exact hs.versions o' hold
    · obtain rfl := List.mem_singleton.mp hnew
      exact ho
  · intro version o' hmem
    exact hs.writes version o' (hw hmem)
  · intro version o' read hmem hread
    have hlt := hs.stored version o' (hw hmem)
    rw [List.getElem?_append_left hlt] at hread
    exact hs.based version o' read (hw hmem) hread
  · intro version o' hmem
    rw [List.length_append]
    exact Nat.lt_add_right _ (hs.stored version o' (hw hmem))
  · exact hs.daemons

theorem Sound.reconcile {version : Nat} {env : Env} {delivery : Delivery} (hs : Sound c id s)
    (hstep : s.step c (.reconcile version env delivery) = some t) : Sound c id t := by
  obtain ⟨o, ho, hstep⟩ := Option.bind_eq_some_iff.mp hstep
  obtain ⟨server, hserver, hstep⟩ := Option.bind_eq_some_iff.mp hstep
  obtain rfl := Option.some.inj hstep
  have hjust := hs.versions o (List.mem_of_getElem? ho)
  have hknown : ∀ i, Known s.ended (Function.update s.daemons (c.instName o.spec) server i) := by
    have hnew : Known (s.ended ++ []) server := by
      simpa using (hs.daemons (c.instName o.spec)).launched hserver
    simpa using hs.known_update (c.instName o.spec) hnew
  by_cases hchanged : (DataPump.reconcile c (served c s env delivery o) o).changed = true
  · simp only [hchanged, if_true]
    have hwritten : Justified c id s.ended
        (DataPump.reconcile c (served c s env delivery o) o).object := by
      apply justified_reconcile hjust hchanged
      intro op hop hdone
      have hpoll : answer (s.daemons (c.instName o.spec)) id env.operation = .ok op := by
        rw [← hjust.id_eq]
        exact hop
      exact ends_of_answer (hs.daemons _) hpoll hdone
    refine ⟨hs.versions, ?_, ?_, ?_, hknown⟩
    · intro v o' hmem
      rcases List.mem_cons.mp hmem with heq | hold
      · obtain ⟨rfl, rfl⟩ := Prod.mk.inj heq
        exact hwritten
      · exact hs.writes v o' hold
    · intro v o' read hmem hread
      rcases List.mem_cons.mp hmem with heq | hold
      · obtain ⟨rfl, rfl⟩ := Prod.mk.inj heq
        obtain rfl : o = read := Option.some.inj (ho.symm.trans hread)
        exact undecided_of_changed hchanged
      · exact hs.based v o' read hold hread
    · intro v o' hmem
      rcases List.mem_cons.mp hmem with heq | hold
      · obtain ⟨rfl, rfl⟩ := Prod.mk.inj heq
        exact (List.getElem?_eq_some_iff.mp ho).1
      · exact hs.stored v o' hold
  · simp only [hchanged, Bool.false_eq_true, if_false]
    exact ⟨hs.versions, hs.writes, hs.based, hs.stored, hknown⟩

theorem Sound.write {version : Nat} {o : Object Spec} {accepted : Bool} (hs : Sound c id s)
    (hstep : s.step c (.write (version, o) accepted) = some t) : Sound c id t := by
  simp only [System.step] at hstep
  split at hstep
  · next hmem =>
    obtain rfl := Option.some.inj hstep
    split
    · exact hs.append (hs.writes version o hmem) List.erase_subset
    · have hsub : ∀ {w}, w ∈ s.writes.erase (version, o) → w ∈ s.writes :=
        fun hw => List.mem_of_mem_erase hw
      exact ⟨hs.versions, fun v o' hw => hs.writes v o' (hsub hw),
        fun v o' read hw => hs.based v o' read (hsub hw), fun v o' hw => hs.stored v o' (hsub hw),
        hs.daemons⟩
  · cases hstep

theorem Sound.step (hs : Sound c id s) (hstep : s.step c e = some t) : Sound c id t := by
  cases e with
  | reconcile version env delivery => exact hs.reconcile hstep
  | write update accepted => exact hs.write hstep
  | edit spec =>
    simp only [System.step] at hstep
    split at hstep
    · cases hstep
    · obtain ⟨o, ho, rfl⟩ := Option.map_eq_some_iff.mp hstep
      have hjust := hs.versions o (List.mem_of_getLast? ho)
      exact hs.append ⟨hjust.id_eq, hjust.complete, hjust.failed⟩ (List.Subset.refl _)
  | delete =>
    obtain rfl := Option.some.inj hstep
    exact ⟨hs.versions, hs.writes, hs.based, hs.stored, hs.daemons⟩
  | daemon inst e =>
    simp only [System.step] at hstep
    split at hstep
    · cases hstep
    · obtain ⟨server, he, rfl⟩ := Option.map_eq_some_iff.mp hstep
      exact ⟨fun o ho => (hs.versions o ho).mono, fun v o ho => (hs.writes v o ho).mono, hs.based,
        hs.stored, hs.known_update inst ((hs.daemons inst).step he)⟩
  | restart inst =>
    obtain rfl := Option.some.inj hstep
    refine ⟨hs.versions, hs.writes, hs.based, hs.stored, ?_⟩
    have hnew : Known (s.ended ++ []) Server.NewServer := .new
    simpa using hs.known_update inst hnew

omit [DecidableEq Spec] in
theorem Sound.new {o : Object Spec} (ho : o.state = none) :
    Sound c (lroOperationID c o) (System.new o) := by
  refine ⟨?_, by simp [System.new], by simp [System.new], by simp [System.new], fun _ => .new⟩
  intro o' ho'
  obtain rfl := List.mem_singleton.mp ho'
  exact .of_undecided rfl (.inl ho)

end Step

end Records

end ElCarro.DataPump
