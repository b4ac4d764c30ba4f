import ElCarro.Lib.Rfc3339
import ElCarro.Instance.RestoreLaunch

/-! # A request is restored at most once

A reconcile may work on a copy of any age. The request is noted and the launch is
announced in writes of the status that come first, and a write of an old copy is
refused, so that nothing but the current copy gets to a launch. The restore time
grows with each request that is accepted, by whole seconds, and with it go the
names of the operations.
-/

namespace ElCarro.Instance.Reconciler

open GoTime K8s Api Flow Optimistic

section System

/-- Reasons from the acceptance of a request to its launch. -/
def preparingReason : Reason → Bool
  | .restorePreparationInProgress | .restorePreparationComplete => true
  | _ => false

/-- A reconcile of the restore machine on a copy that was read at some time. -/
def cachedReconcile (env : Env) (sp : StsParams) (copy : Versioned Instance) (w : World) : World :=
  if ¬ reached env .getInstance then w
  else
    let s : Session := { w with mem := copy.value, memVersion := copy.version }
    (updateStatus env .deferredStatus (handleRestore env sp s).state).state.toWorld

/-- The rest of the operator and the user: they edit the spec and the status, but set no reason of
a restore that is being prepared, accept no request and launch nothing. -/
structure Elsewhere (v v' : RestoreView) : Prop where
  ready : v'.ready = v.ready ∨ ∀ r ∈ v'.ready, preparingReason r.2 = false
  restoreTime : v'.restoreTime = v.restoreTime
  launches : v'.launches = v.launches

instance (v v' : RestoreView) : Decidable (Elsewhere v v') :=
  decidable_of_iff
    ((v'.ready = v.ready ∨ ∀ r ∈ v'.ready, preparingReason r.2 = false) ∧
      v'.restoreTime = v.restoreTime ∧ v'.launches = v.launches)
    ⟨fun ⟨hr, ht, ho⟩ => ⟨hr, ht, ho⟩, fun h => ⟨h.ready, h.restoreTime, h.launches⟩⟩

structure Served where
  world : World
  /-- The request times that were accepted, newest first. -/
  accepted : List Time

inductive CacheEvent where
  | reconcile (env : Env) (sp : StsParams) (copy : Versioned Instance)
  | elsewhere (w : World)
  /-- A launched operation comes to its end. -/
  | finish (op : RestoreOp)

/-- The request of the stored instance is accepted on the way to the next world. -/
def acceptedBy (w w' : World) : List Time :=
  if w.reason ≠ some .restorePreparationInProgress ∧
      w'.reason = some .restorePreparationInProgress then
    (w.stored.spec.restore.map (·.requestTime)).toList
  else []

/-- A copy has an older version, or it is what is stored. -/
def Served.step (a : Served) : CacheEvent → Option Served
  | .reconcile env sp copy =>
    if copy.version < a.world.resourceVersion ∨
        copy.version = a.world.resourceVersion ∧ copy.value = a.world.stored then
      let w := cachedReconcile env sp copy a.world
      some ⟨w, acceptedBy a.world w ++ a.accepted⟩
    else none
  | .elsewhere w =>
    if Elsewhere a.world.restoreView w.restoreView then some { a with world := w } else none
  | .finish op => some { a with world := { a.world with launches := a.world.launches.map op.finish } }

end System

section Property

def physicalRestore : String := "PhysicalRestore"

/-- The name of an operation, as it is written in the zone of the operator. -/
def lroRestoreOperationID (offset : Int) (opType uid : String) (lastRestoreTime : Time) : String :=
  opType ++ "_" ++ uid ++ "_" ++ formatRFC3339 offset lastRestoreTime

def RestoreOp.operationID (offset : Int) (uid : String) (op : RestoreOp) : Option String :=
  op.restoreTime.map (lroRestoreOperationID offset physicalRestore uid)

/-- The launches for one restore time after the other. -/
def Served.launched (a : Served) : List (Option Time) := a.world.launches.map (·.restoreTime)

/-- Each request that was accepted has moved the restore time on and has launched at most one
restore, and no two operations of the instance share a name, whichever zones they are named in. -/
structure LaunchesOnce (a : Served) : Prop where
  increases : a.accepted.Pairwise fun r earlier => rfc3339Copy earlier < rfc3339Copy r
  persisted : a.world.stored.status.lastRestoreTime = a.accepted.head?.map rfc3339Copy
  requested : ∀ t ∈ a.launched, ∃ r ∈ a.accepted, t = some (rfc3339Copy r)
  once : ∀ r ∈ a.accepted, a.launched.count (some (rfc3339Copy r)) ≤ 1
  names : ∀ uid, a.world.launches.Pairwise fun op op' =>
    ∀ o o', op.operationID o uid ≠ op'.operationID o' uid

end Property

section Stale

variable {env : Env} {s t : Session}

/-- From a stale copy nothing is stored and nothing is launched. -/
def Refused (s t : Session) : Prop :=
  s.memVersion ≠ s.resourceVersion →
    t.server = s.server ∧ t.memVersion = s.memVersion ∧ t.launches = s.launches

instance : Std.Refl Refused := ⟨fun _ _ => ⟨rfl, rfl, rfl⟩⟩

instance : IsTrans Session Refused where
  trans s t u h h' := by
    intro hs
    obtain ⟨hserver, hversion, hlaunches⟩ := h hs
    have ht : t.memVersion ≠ t.resourceVersion := by
      have hres : t.resourceVersion = s.resourceVersion := congrArg (·.version) hserver
      rw [hversion, hres]
      exact hs
    obtain ⟨hserver', hversion', hlaunches'⟩ := h' ht
    exact ⟨hserver'.trans hserver, hversion'.trans hversion, hlaunches'.trans hlaunches⟩

theorem Untouched.refused (h : Untouched s t) : Refused s t := by
  intro _
  exact ⟨h.server, congrArg (·.version) h.copy, h.launches⟩

theorem write_stale {object : Session → Instance} {c : Call}
    (hs : ¬ s.memVersion = s.resourceVersion) : write env object c s = .next false s := if_pos hs

/-- What a program does to a copy that is current does not matter. -/
theorem refused_wp {α : Type} {p : P α}
    (h : ¬ s.memVersion = s.resourceVersion → wp p (fun _ => Refused s) (fun _ => Refused s) s) :
    wp p (fun _ => Refused s) (fun _ => Refused s) s := by
  by_cases hs : s.memVersion = s.resourceVersion
  · exact wp_self.mono (fun _ _ _ h => absurd hs h) fun _ _ _ h => absurd hs h
  · exact h hs

theorem refused_write {object : Session → Instance} {c : Call} :
    Within Refused (write env object c) := by
  intro s
  apply refused_wp
  intro hs
  unfold wp
  rw [write_stale hs]
  exact Std.Refl.refl (r := Refused) s

theorem refused_setMem {f : Instance → Instance} : Within Refused (setMem f) :=
  fun _ _ => ⟨rfl, rfl, rfl⟩

theorem refused_setReady {status : CondStatus} {reason : Reason} {message : String} :
    Within Refused (setReady env status reason message) := fun _ _ => ⟨rfl, rfl, rfl⟩

/-- The launch comes after a write, and a stale copy does not get past it. -/
theorem refused_launchRestore {restore : RestoreSpec} {sp : StsParams} :
    Within Refused (launchRestore env restore sp) := by
  refine .bind refused_setReady fun _ => ?_
  intro s
  apply refused_wp
  intro hs
  apply wp_bind_next (write_stale hs)
  refine wp_bind.mpr (wp_when.mpr ⟨fun _ => ?_, fun h => absurd Bool.false_ne_true h⟩)
  exact wp_finish.mpr (Std.Refl.refl (r := Refused) s)

theorem refused_confines : Confines env Refused where
  setReady _ _ _ := refused_setReady
  setLock _ := refused_setMem
  setRequest _ := refused_setMem
  removeRequest := refused_setMem
  updateStatus _ := refused_write
  update _ := refused_write
  deleteOld _ s := (untouched_deleteOldSTSandPVCs s).mono (fun _ _ h => h.refused) fun _ _ h => h.refused

/-- A reconcile on a stale copy leaves everything that the machine goes by as it is. -/
theorem cachedReconcile_stale {sp : StsParams} {copy : Versioned Instance} {w : World}
    (hcopy : copy.version ≠ w.resourceVersion) :
    (cachedReconcile env sp copy w).restoreView = w.restoreView := by
  unfold cachedReconcile
  split
  · rfl
  · let s : Session := { w with mem := copy.value, memVersion := copy.version }
    have hrun : Refused s (handleRestore env sp s).state := (refused_confines.handleRestore (fun _ => refused_launchRestore) s).state
    have hend : Refused (handleRestore env sp s).state
        (updateStatus env .deferredStatus (handleRestore env sp s).state).state :=
      (refused_write _).state
    obtain ⟨hserver, -, hlaunches⟩ := IsTrans.trans _ _ _ hrun hend hcopy
    exact restoreView_congr (congrArg (·.value.status) hserver) hlaunches

end Stale

section Moves

variable {env : Env} {sp : StsParams} {v v' : RestoreView}

def RestoreView.reason (v : RestoreView) : Option Reason := v.ready.map Prod.snd

def RestoreView.preparing (v : RestoreView) : Bool := v.reason.any preparingReason

/-- What a reconcile can do to the view of an instance with the given request. -/
inductive RestoreMove (request : Option RestoreSpec) (v v' : RestoreView) : Prop
  | other (htime : v'.restoreTime = v.restoreTime) (hlaunches : v'.launches = v.launches)
      (hprep : v'.preparing = true → v.preparing = true)
      (hreason : v'.reason = some .restorePreparationInProgress → v'.reason = v.reason)
  | accept {restore : RestoreSpec} (hrequest : request = some restore)
      (hlater : ∀ t ∈ v.restoreTime, t < rfc3339Copy restore.requestTime)
      (hbefore : v.preparing = false) (hreason : v'.reason = some .restorePreparationInProgress)
      (htime : v'.restoreTime = some (rfc3339Copy restore.requestTime))
      (hlaunches : v'.launches = v.launches)
  | launch {op : RestoreOp} (hbefore : v.preparing = true) (hafter : v'.preparing = false)
      (hop : op.restoreTime = v.restoreTime) (htime : v'.restoreTime = v.restoreTime)
      (hlaunches : v'.launches = op :: v.launches)

namespace RestoreMove

variable {request : Option RestoreSpec} {status : CondStatus} {reason : Reason} {c : Call}

theorem refl (v : RestoreView) : RestoreMove request v v := .other rfl rfl id fun _ => rfl

/-- The ready condition gets a reason that is not one of a restore being prepared. -/
theorem of_reason (htime : v'.restoreTime = v.restoreTime) (hlaunches : v'.launches = v.launches)
    (hreason : v'.reason = some reason) (hr : preparingReason reason = false) :
    RestoreMove request v v' := by
  apply RestoreMove.other htime hlaunches
  · intro h
    rw [RestoreView.preparing, hreason, Option.any_some, hr] at h
    cases h
  · intro h
    rw [hreason] at h
    obtain rfl := Option.some.inj h
    cases hr

theorem advance (hr : preparingReason reason = false) :
    RestoreMove request v (v.advance env c reason) := by
  unfold RestoreView.advance
  split
  · exact of_reason rfl rfl rfl hr
  · exact refl v

theorem finish (hr : preparingReason reason = false) :
    RestoreMove request v (v.finish env c status reason) := by
  unfold RestoreView.finish
  split
  · exact of_reason rfl rfl rfl hr
  · split
    · exact .other rfl rfl id fun _ => rfl
    · exact refl v

theorem fail : RestoreMove request v (v.fail env) := by
  unfold RestoreView.fail
  split
  · exact of_reason rfl rfl rfl rfl
  · exact refl v

/-- Only the reason moves on, from the first step of the preparation to the second. -/
theorem prepared (hv : v.preparing = true) :
    RestoreMove request v (v.advance env c .restorePreparationComplete) := by
  unfold RestoreView.advance
  split
  · refine .other rfl rfl (fun _ => hv) ?_
    intro h
    cases h
  · exact refl v

theorem accepted {inst : Instance} {restore : RestoreSpec} (hrequest : request = some restore)
    (htime : v.restoreTime = inst.status.lastRestoreTime) (hv : v.preparing = false) :
    RestoreMove request v (if turnsDown inst restore then v else v.accept env restore) := by
  by_cases hdown : turnsDown inst restore = true
  · rw [if_pos hdown]
    exact refl v
  · rw [if_neg hdown]
    unfold RestoreView.accept
    split
    · refine .accept hrequest ?_ hv rfl rfl rfl
      intro t ht
      by_contra hle
      apply hdown
      rw [htime] at ht
      refine decide_eq_true (.inr ((Option.any_eq_true _ _).mpr ⟨t, ht, ?_⟩))
      exact decide_eq_true (Int.not_lt.mp hle)
    · split
      · exact .other rfl rfl id fun _ => rfl
      · exact refl v

/-- Whatever is launched is named by the restore time. -/
theorem operation_cases (env : Env) (sp : StsParams) (inst : Instance) (restore : RestoreSpec)
    (restoreTime : Option Time) :
    RestoreView.operation env sp inst restore restoreTime = [] ∨
      ∃ op : RestoreOp, op.restoreTime = restoreTime ∧
        RestoreView.operation env sp inst restore restoreTime = [op] := by
  unfold RestoreView.operation
  split
  · split
    · exact .inr ⟨_, rfl, rfl⟩
    · exact .inl rfl
  · split
    · exact .inr ⟨_, rfl, rfl⟩
    · exact .inl rfl
  · exact .inl rfl

theorem of_operation {inst : Instance} {restore : RestoreSpec} (hv : v.preparing = true)
    (htime : v'.restoreTime = v.restoreTime)
    (hlaunches : v'.launches =
      RestoreView.operation env sp inst restore v.restoreTime ++ v.launches)
    (hafter : v'.reason = some reason) (hr : preparingReason reason = false) :
    RestoreMove request v v' := by
  rcases operation_cases env sp inst restore v.restoreTime with hnone | ⟨op, hop, hone⟩
  · rw [hnone] at hlaunches
    exact of_reason htime hlaunches hafter hr
  · rw [hone] at hlaunches
    refine .launch hv ?_ hop htime hlaunches
    rw [RestoreView.preparing, hafter, Option.any_some, hr]

theorem launched {inst : Instance} {restore : RestoreSpec} (hv : v.preparing = true) :
    RestoreMove request v (v.launch env sp inst restore) := by
  unfold RestoreView.launch
  split
  · unfold RestoreView.start
    dsimp only
    split
    · unfold RestoreView.finish
      split
      · exact of_operation hv rfl rfl rfl rfl
      · split
        · exact of_operation hv rfl rfl rfl rfl
        · exact of_operation hv rfl rfl rfl rfl
    · exact of_operation hv rfl rfl rfl rfl
  · exact advance rfl

end RestoreMove

theorem moves_persistedState {w : World} {restore : RestoreSpec} {backup : Backup} {reason : Reason}
    (hrequest : w.stored.spec.restore = some restore) (hreason : w.reason = some reason) :
    RestoreMove w.stored.spec.restore w.restoreView
      (persistedState env sp w restore backup reason) := by
  have hprep : w.restoreView.preparing = preparingReason reason := by
    change w.reason.any preparingReason = _
    rw [hreason, Option.any_some]
  have haccept : preparingReason reason = false → RestoreMove w.stored.spec.restore w.restoreView
      (if turnsDown w.stored restore then w.restoreView else w.restoreView.accept env restore) :=
    fun hr => .accepted hrequest rfl (hprep.trans hr)
  unfold persistedState
  cases reason with
  | restoreComplete => exact haccept rfl
  | createComplete => exact haccept rfl
  | restoreFailed => exact haccept rfl
  | restorePreparationInProgress =>
    cases removal env sp restore w.session with
    | failed => exact .finish rfl
    | waiting => exact .refl _
    | done => exact .prepared hprep
  | restorePreparationComplete => exact .launched hprep
  | restoreInProgress =>
    cases restore.backupType with
    | snapshot =>
      dsimp only
      split
      · exact .advance rfl
      · exact .refl _
    | physical =>
      dsimp only
      split
      · exact .refl _
      · split
        · exact .finish rfl
        · exact .advance rfl
    | unset => exact .finish rfl
    | logical => exact .finish rfl
  | postRestoreBootstrapInProgress =>
    dsimp only
    split
    · exact .finish rfl
    · split
      · exact .refl _
      · exact .advance rfl
  | postRestoreBootstrapComplete =>
    dsimp only
    split
    · exact .finish rfl
    · split
      · exact .advance rfl
      · exact .fail
  | postRestoreDatabasePatchingInProgress =>
    cases env.datapatch with
    | failed => exact .fail
    | waiting => exact .refl _
    | done => exact .finish rfl
  | _ => exact .refl _

theorem moves_persisted {w : World} :
    RestoreMove w.stored.spec.restore w.restoreView (persisted env sp w) := by
  unfold persisted
  split
  · exact .refl _
  · cases hd : decision env w.stored with
    | skip => exact .refl _
    | wait => exact .refl _
    | reject message => exact .finish rfl
    | serve restore backup reason =>
      obtain ⟨hrequest, status, hready⟩ := decision_serve hd
      exact moves_persistedState hrequest (congrArg (Option.map Prod.snd) hready)

/-- Whatever its age, a copy moves the machine on as the stored instance does, or not at all. -/
theorem moves_cachedReconcile {copy : Versioned Instance} {w : World}
    (hcopy : copy.version < w.resourceVersion ∨
      copy.version = w.resourceVersion ∧ copy.value = w.stored) :
    RestoreMove w.stored.spec.restore w.restoreView (cachedReconcile env sp copy w).restoreView := by
  rcases hcopy with hold | ⟨hversion, hvalue⟩
  · rw [cachedReconcile_stale (Nat.ne_of_lt hold)]
    exact .refl _
  · have hsame : cachedReconcile env sp copy w = restoreReconcile env sp w := by
      unfold cachedReconcile restoreReconcile World.session
      rw [hversion, hvalue]
    rw [hsame, restoreReconcile_restoreView]
    exact moves_persisted

end Moves

section Runs

variable {a a' : Served} {w : World}

/-- What holds between the requests, the restore time and the launches. -/
structure Accounted (a : Served) : Prop where
  increases : a.accepted.Pairwise fun r earlier => rfc3339Copy earlier < rfc3339Copy r
  persisted : a.world.restoreView.restoreTime = a.accepted.head?.map rfc3339Copy
  requested : ∀ t ∈ a.launched, ∃ r ∈ a.accepted, t = some (rfc3339Copy r)
  distinct : a.launched.Nodup
  pending : a.world.restoreView.preparing = true →
    a.accepted ≠ [] ∧ a.world.restoreView.restoreTime ∉ a.launched

namespace Accounted

theorem of_same (h : Accounted a)
    (htime : w.restoreView.restoreTime = a.world.restoreView.restoreTime)
    (hlaunched : Served.launched ⟨w, a.accepted⟩ = a.launched)
    (hprep : w.restoreView.preparing = true → a.world.restoreView.preparing = true) :
    Accounted ⟨w, a.accepted⟩ where
  increases := h.increases
  persisted := htime.trans h.persisted
  requested := by
    rw [hlaunched]
    exact h.requested
  distinct := by
    rw [hlaunched]
    exact h.distinct
  pending := by
    intro hw
    rw [hlaunched, htime]
    exact h.pending (hprep hw)

/-- A request that is later than the restore time is later than every request before. -/
theorem earlier (h : Accounted a) {t : Time}
    (hlater : ∀ u ∈ a.world.restoreView.restoreTime, u < t) :
    ∀ r ∈ a.accepted, rfc3339Copy r < t := by
  intro r hr
  have hincreases := h.increases
  have hpersisted := h.persisted
  cases hacc : a.accepted with
  | nil =>
    rw [hacc] at hr
    cases hr
  | cons last rest =>
    rw [hacc] at hr hincreases hpersisted
    have hlast : rfc3339Copy last < t := hlater _ hpersisted
    rcases List.mem_cons.mp hr with rfl | hr
    · exact hlast
    · exact lt_trans (List.rel_of_pairwise_cons hincreases hr) hlast

theorem accept (h : Accounted a) {r : Time}
    (hlater : ∀ u ∈ a.world.restoreView.restoreTime, u < rfc3339Copy r)
    (htime : w.restoreView.restoreTime = some (rfc3339Copy r))
    (hlaunches : w.launches = a.world.launches) : Accounted ⟨w, r :: a.accepted⟩ := by
  have hearlier := h.earlier hlater
  have hlaunched : Served.launched ⟨w, r :: a.accepted⟩ = a.launched :=
    congrArg (List.map _) hlaunches
  refine ⟨List.Pairwise.cons hearlier h.increases, htime, ?_, ?_, fun _ => ⟨List.cons_ne_nil _ _, ?_⟩⟩
  · rw [hlaunched]
    intro t ht
    obtain ⟨r', hr', heq⟩ := h.requested t ht
    exact ⟨r', List.mem_cons_of_mem _ hr', heq⟩
  · rw [hlaunched]
    exact h.distinct
  · rw [hlaunched, htime]
    intro hmem
    obtain ⟨r', hr', heq⟩ := h.requested _ hmem
    have hlt := hearlier r' hr'
    rw [Option.some.inj heq] at hlt
    exact lt_irrefl _ hlt

theorem launch (h : Accounted a) {op : RestoreOp}
    (hbefore : a.world.restoreView.preparing = true) (hafter : w.restoreView.preparing = false)
    (hop : op.restoreTime = a.world.restoreView.restoreTime)
    (htime : w.restoreView.restoreTime = a.world.restoreView.restoreTime)
    (hlaunches : w.launches = op :: a.world.launches) : Accounted ⟨w, a.accepted⟩ := by
  obtain ⟨hsome, hfresh⟩ := h.pending hbefore
  have hlaunched : Served.launched ⟨w, a.accepted⟩ = op.restoreTime :: a.launched :=
    congrArg (List.map _) hlaunches
  refine ⟨h.increases, htime.trans h.persisted, ?_, ?_, ?_⟩
  · rw [hlaunched]
    intro t ht
    rcases List.mem_cons.mp ht with rfl | ht
    · have hpersisted := h.persisted
      rw [List.head?_eq_some_head hsome] at hpersisted
      exact ⟨_, List.head_mem hsome, hop.trans hpersisted⟩
    · exact h.requested t ht
  · rw [hlaunched, List.nodup_cons, hop]
    exact ⟨hfresh, h.distinct⟩
  · intro hprep
    rw [hafter] at hprep
    cases hprep

theorem step {e : CacheEvent} (h : Accounted a) (hstep : a.step e = some a') : Accounted a' := by
  cases e with
  | reconcile env sp copy =>
    simp only [Served.step, Option.ite_none_right_eq_some] at hstep
    obtain ⟨hcopy, hstep⟩ := hstep
    obtain rfl := Option.some.inj hstep
    cases @moves_cachedReconcile env sp copy a.world hcopy with
    | other htime hlaunches hprep hreason =>
      have hnone : acceptedBy a.world (cachedReconcile env sp copy a.world) = [] := by
        apply if_neg
        rintro ⟨hbefore, hafter⟩
        exact hbefore ((hreason hafter).symm.trans hafter)
      rw [hnone]
      exact h.of_same htime (congrArg (List.map _) hlaunches) hprep
    | @accept restore hrequest hlater hbefore hreason htime hlaunches =>
      have hone : acceptedBy a.world (cachedReconcile env sp copy a.world) =
          [restore.requestTime] := by
        unfold acceptedBy
        rw [if_pos, hrequest]
        · rfl
        · refine ⟨?_, hreason⟩
          intro hprep
          have hv : a.world.restoreView.preparing = true := by
            change a.world.reason.any preparingReason = true
            rw [hprep]
            rfl
          rw [hv] at hbefore
          cases hbefore
      rw [hone]
      exact h.accept hlater htime hlaunches
    | launch hbefore hafter hop htime hlaunches =>
      have hnone : acceptedBy a.world (cachedReconcile env sp copy a.world) = [] := by
        apply if_neg
        rintro ⟨-, hprep⟩
        have hv : (cachedReconcile env sp copy a.world).restoreView.preparing = true := by
          change Option.any preparingReason (World.reason _) = true
          rw [hprep]
          rfl
        rw [hv] at hafter
        cases hafter
      rw [hnone]
      exact h.launch hbefore hafter hop htime hlaunches
  | elsewhere w =>
    simp only [Served.step, Option.ite_none_right_eq_some] at hstep
    obtain ⟨hout, hstep⟩ := hstep
    obtain rfl := Option.some.inj hstep
    apply h.of_same hout.restoreTime (congrArg (List.map _) hout.launches)
    intro hprep
    rcases hout.ready with heq | hno
    · unfold RestoreView.preparing RestoreView.reason at hprep ⊢
      rwa [heq] at hprep
    · obtain ⟨r, hr, hp⟩ := (Option.any_eq_true _ _).mp hprep
      obtain ⟨v, hv, rfl⟩ := Option.map_eq_some_iff.mp hr
      rw [hno v hv] at hp
      cases hp
  | finish op =>
    obtain rfl := Option.some.inj hstep
    refine h.of_same rfl ?_ id
    unfold Served.launched
    rw [List.map_map]
    apply List.map_congr_left
    intro op' _
    exact op.finish_restoreTime op'

/-- Two operations of one instance have one name only if they have one restore time. -/
theorem restoreTime_of_operationID {op op' : RestoreOp} {o o' : Int} {uid : String} {r r' : Time}
    (hop : op.restoreTime = some (rfc3339Copy r)) (hop' : op'.restoreTime = some (rfc3339Copy r'))
    (h : op.operationID o uid = op'.operationID o' uid) : op.restoreTime = op'.restoreTime := by
  unfold RestoreOp.operationID at h
  rw [hop, hop'] at h
  have hname := Option.some.inj h
  have hformat := formatRFC3339_inj ((String.append_right_inj _).mp hname)
  have hseconds : ∀ t, rfc3339Copy t / second = t / second := by
    intro t
    exact Int.mul_ediv_cancel _ (by decide)
  rw [hseconds, hseconds] at hformat
  rw [hop, hop', rfc3339Copy, rfc3339Copy, hformat]

theorem launchesOnce (h : Accounted a) : LaunchesOnce a where
  increases := h.increases
  persisted := h.persisted
  requested := h.requested
  once := fun _ _ => List.nodup_iff_count_le_one.mp h.distinct _
  names := by
    intro uid
    apply (List.pairwise_map.mp h.distinct).imp_of_mem
    intro op op' hop hop' hne o o' hname
    obtain ⟨r, -, hr⟩ := h.requested _ (List.mem_map_of_mem hop)
    obtain ⟨r', -, hr'⟩ := h.requested _ (List.mem_map_of_mem hop')
    exact hne (restoreTime_of_operationID hr hr' hname)

end Accounted

/-- No request has been accepted, and nothing has been launched. -/
structure Unserved (w : World) : Prop where
  launches : w.launches = []
  restoreTime : w.stored.status.lastRestoreTime = none
  reason : ∀ r ∈ w.reason, preparingReason r = false

theorem Unserved.accounted (h : Unserved w) : Accounted ⟨w, []⟩ := by
  have hlaunched : Served.launched ⟨w, []⟩ = [] := congrArg (List.map _) h.launches
  refine ⟨.nil, h.restoreTime, ?_, ?_, ?_⟩
  · rw [hlaunched]
    intro t ht
    cases ht
  · rw [hlaunched]
    exact .nil
  · intro hprep
    obtain ⟨r, hr, hp⟩ := (Option.any_eq_true _ _).mp hprep
    rw [h.reason r hr] at hp
    cases hp

/--
In every run of the restore machine, on copies of any age and with any edits of the spec, each
request that is accepted moves the stored restore time on and launches at most one restore, and no
two launches of an instance share an operation ID.
-/
theorem restores_launchesOnce (w : World) (events : List CacheEvent) (hw : Unserved w) :
    Runs.Always Served.step LaunchesOnce ⟨w, []⟩ events := by
  have hrun : Runs.Meets Served.step (fun _ _ => True) ⟨w, []⟩ events :=
    Runs.meets_of_forall (fun _ _ => trivial) _ _
  apply Runs.always_of_invariant _ (fun _ h => h.launchesOnce) hw.accounted hrun
  exact fun _ _ _ h _ hstep => h.step hstep

end Runs

section Sample

/-- Reconciles one after the other, each on the current copy. -/
def upToDate : Nat → Served → List CacheEvent
  | 0, _ => []
  | n + 1, a =>
    let e := .reconcile (calm 1000) restoreParams a.world.server
    e :: ((a.step e).map (upToDate n)).getD []

/-- The last reconcile is made twice: the second time its copy is stale. -/
def repeatedLaunch : List CacheEvent :=
  let events := upToDate 5 ⟨requestedWorld, []⟩
  events ++ events.getLast?.toList

theorem repeatedLaunch_launchesOnce :
    Unserved requestedWorld ∧
      ((Runs.run Served.step ⟨requestedWorld, []⟩ repeatedLaunch).any fun a =>
        a.accepted = [1] ∧ a.launched = [some 0]) = true ∧
      Runs.Always Served.step LaunchesOnce ⟨requestedWorld, []⟩ repeatedLaunch := by
  have hw : Unserved requestedWorld := ⟨rfl, rfl, by decide⟩
  refine ⟨hw, by decide +kernel, ?_⟩
  exact restores_launchesOnce requestedWorld repeatedLaunch hw

end Sample

end ElCarro.Instance.Reconciler
