import ElCarro.Instance.Reconcile

/-! # Steps that leave the disks and the machines alone

A quiet step neither touches the StatefulSet, the claims and the snapshots nor
puts an instance into a tracked reason. What it leaves in memory and at the
server is the copy or the object it started with, as far as the Ready condition,
the active machine, the name and the active images go.
-/

namespace ElCarro.Instance.Reconciler

open GoTime K8s Api Flow

section Views

/-- Status and reason of the Ready condition. -/
def readyView (inst : Instance) : Option (CondStatus × Reason) :=
  (readyCond inst).map fun cond => (cond.status, cond.reason)

theorem readyView_eq_some {inst : Instance} {v : CondStatus × Reason} :
    readyView inst = some v ↔ ∃ cond, readyCond inst = some cond ∧ (cond.status, cond.reason) = v := by
  simp [readyView]

def withConditions (inst : Instance) (conditions : List Condition) : Instance :=
  { inst with status := { inst.status with conditions := conditions } }

variable {inst : Instance} {now : Time} {status : CondStatus} {reason : Reason} {message : String}

theorem readyView_upsert_ready :
    readyView (withConditions inst (upsert now .ready status reason message inst.status.conditions)) =
      some (status, reason) := by
  have hself : ∃ cond, readyCond (withConditions inst
      (upsert now .ready status reason message inst.status.conditions)) = some cond ∧
        cond.status = status ∧ cond.reason = reason := findCondition_upsert_self
  obtain ⟨cond, hc, rfl, rfl⟩ := hself
  exact readyView_eq_some.mpr ⟨cond, hc, rfl⟩

theorem readyCond_upsert_ne {name : CondType} (hne : name ≠ .ready) :
    readyCond (withConditions inst (upsert now name status reason message inst.status.conditions)) =
      readyCond inst := findCondition_upsert_ne hne.symm

theorem dbInstanceCond_upsert_ready :
    dbInstanceCond
        (withConditions inst (upsert now .ready status reason message inst.status.conditions)) =
      dbInstanceCond inst := findCondition_upsert_ne (by decide)

/-- What no event but a reconcile changes. -/
structure External (w w' : World) : Prop where
  acts : w'.acts = w.acts
  monitoring : w'.monitoring = w.monitoring
  name : w'.stored.name = w.stored.name
  conditions : w'.stored.status.conditions = w.stored.status.conditions
  activeImages : w'.stored.status.activeImages = w.stored.status.activeImages
  lastFailedImages : w'.stored.status.lastFailedImages = w.stored.status.lastFailedImages
  machine : w'.stored.status.currentActiveStateMachine =
    w.stored.status.currentActiveStateMachine

theorem External.readyView {w w' : World} (h : External w w') :
    readyView w'.stored = readyView w.stored := by
  simp only [Reconciler.readyView, readyCond, h.conditions]

/-- An event is a reconcile, or it leaves the machines and what they did alone. -/
theorem step_cases {w w' : World} {e : Event} (h : step w e = some w') :
    (∃ env, e = .reconcile env ∧ w' = reconcile env w) ∨ External w w' := by
  cases e with
  | reconcile env => exact .inl ⟨env, rfl, (Option.some.inj h).symm⟩
  | addSnapshot name pvc =>
    simp only [step] at h
    split at h
    · cases h
    · cases h
      exact .inr ⟨rfl, rfl, rfl, rfl, rfl, rfl, rfl⟩
  | setSnapshotStatus name status =>
    obtain ⟨snap, -, rfl⟩ := Option.map_eq_some_iff.mp h
    exact .inr ⟨rfl, rfl, rfl, rfl, rfl, rfl, rfl⟩
  | editSpec spec | deleteInstance now | writeStatus backupID locked names | removeSnapshot name
  | stsGone | addPvc name | pvcGone name =>
    cases h
    exact .inr ⟨rfl, rfl, rfl, rfl, rfl, rfl, rfl⟩

end Views

variable (tracked : Reason → Bool) (images : StrMap)

/-- Where an instance comes from: its Ready condition, name, images and active machine are those
of the copy or of the stored object, or the reason is not tracked, the active images are the
given ones and the machine is the one for parameters. -/
structure Origin (s : Session) (inst : Instance) : Prop where
  view : (readyView inst = readyView s.stored ∧
      inst.status.currentActiveStateMachine = s.stored.status.currentActiveStateMachine) ∨
    (readyView inst = readyView s.mem ∧
      inst.status.currentActiveStateMachine = s.mem.status.currentActiveStateMachine) ∨
    ∀ v, readyView inst = some v → tracked v.2 = false
  name : inst.name = s.stored.name ∨ inst.name = s.mem.name
  active : inst.status.activeImages.getD ∅ = s.stored.status.activeImages.getD ∅ ∨
    inst.status.activeImages.getD ∅ = s.mem.status.activeImages.getD ∅ ∨
    inst.status.activeImages.getD ∅ = images
  machine : inst.status.currentActiveStateMachine = s.stored.status.currentActiveStateMachine ∨
    inst.status.currentActiveStateMachine = s.mem.status.currentActiveStateMachine ∨
    inst.status.currentActiveStateMachine = .parameterUpdate
  failed : inst.status.lastFailedImages = s.stored.status.lastFailedImages ∨
    inst.status.lastFailedImages = s.mem.status.lastFailedImages

structure Quiet (s t : Session) : Prop where
  stored : Origin tracked images s t.stored
  mem : Origin tracked images s t.mem
  acts : t.acts = s.acts
  sts : t.sts.isSome = s.sts.isSome
  snapshots : t.snapshots = s.snapshots

variable {tracked images} {s t u : Session} {inst : Instance}

theorem Origin.of_stored : Origin tracked images s s.stored :=
  ⟨.inl ⟨rfl, rfl⟩, .inl rfl, .inl rfl, .inl rfl, .inl rfl⟩

theorem Origin.of_mem : Origin tracked images s s.mem :=
  ⟨.inr (.inl ⟨rfl, rfl⟩), .inr rfl, .inr (.inl rfl), .inr (.inl rfl), .inr rfl⟩

/-- What comes from an intermediate state comes from the first one. -/
theorem Origin.trans (hstored : Origin tracked images s t.stored)
    (hmem : Origin tracked images s t.mem) (hi : Origin tracked images t inst) :
    Origin tracked images s inst := by
  refine ⟨?_, ?_, ?_, ?_, ?_⟩
  · rcases hi.view with ⟨hv, ha⟩ | ⟨hv, ha⟩ | hu
    · rw [hv, ha]
      exact hstored.view
    · rw [hv, ha]
      exact hmem.view
    · exact .inr (.inr hu)
  · rcases hi.name with hn | hn
    · rw [hn]
      exact hstored.name
    · rw [hn]
      exact hmem.name
  · rcases hi.active with ha | ha | ha
    · rw [ha]
      exact hstored.active
    · rw [ha]
      exact hmem.active
    · exact .inr (.inr ha)
  · rcases hi.machine with ha | ha | ha
    · rw [ha]
      exact hstored.machine
    · rw [ha]
      exact hmem.machine
    · exact .inr (.inr ha)
  · rcases hi.failed with hf | hf
    · rw [hf]
      exact hstored.failed
    · rw [hf]
      exact hmem.failed

theorem Origin.mono {tracked' : Reason → Bool} (h : ∀ r, tracked r = false → tracked' r = false)
    (hi : Origin tracked images s inst) : Origin tracked' images s inst :=
  ⟨hi.view.imp_right fun hv => hv.imp_right fun hu v hv => h _ (hu v hv), hi.name, hi.active,
    hi.machine, hi.failed⟩

/-- What holds with more reasons tracked holds with fewer. -/
theorem Quiet.mono {tracked' : Reason → Bool} (h : ∀ r, tracked r = false → tracked' r = false)
    (hq : Quiet tracked images s t) : Quiet tracked' images s t :=
  ⟨hq.stored.mono h, hq.mem.mono h, hq.acts, hq.sts, hq.snapshots⟩

instance : Std.Refl (Quiet tracked images) :=
  ⟨fun _ => ⟨.of_stored, .of_mem, rfl, rfl, rfl⟩⟩

instance : IsTrans Session (Quiet tracked images) :=
  ⟨fun _ _ _ h h' => ⟨.trans h.stored h.mem h'.stored, .trans h.stored h.mem h'.mem,
    h'.acts.trans h.acts, h'.sts.trans h.sts, h'.snapshots.trans h.snapshots⟩⟩

section Calls

theorem Outcome.ne_ok_of_not_served {o : Outcome} (h : o.served = false) : o ≠ .ok := by
  rintro rfl
  cases h

theorem Outcome.ne_ok_of_lost {o : Outcome} (h : o = .lost) : o ≠ .ok := by
  rw [h]
  decide

variable {env : Env} {c : Call} {Q : Bool → Session → Prop} {R : Result → Session → Prop}

/-- A write of the instance is refused, served with an error, or served. -/
theorem wp_write {object : Session → Instance} (hfailed : Q false s)
    (hlost : Q false (s.store (object s)))
    (hok : Q true { s.store (object s) with
      mem := (s.store (object s)).stored
      memVersion := (s.store (object s)).resourceVersion }) :
    wp (write env object c) Q R s := by
  unfold wp write
  by_cases hv : s.memVersion ≠ s.resourceVersion
  · simpa only [if_pos hv] using hfailed
  · simp only [if_neg hv]
    cases env.call c with
    | ok => exact hok
    | lost => exact hlost
    | notFound => exact hfailed
    | conflict => exact hfailed
    | failed => exact hfailed

theorem wp_effect_call {f : Session → Session} (hfailed : env.call c ≠ .ok → Q false s)
    (hlost : env.call c ≠ .ok → Q false (f s)) (hok : env.call c = .ok → Q true (f s)) :
    wp (effect env c f) Q R s := by
  unfold wp effect Outcome.served
  cases hc : env.call c with
  | ok => exact hok hc
  | lost => exact hlost (by simp [hc])
  | notFound => exact hfailed (by simp [hc])
  | conflict => exact hfailed (by simp [hc])
  | failed => exact hfailed (by simp [hc])

theorem wp_effect {f : Session → Session} (hfailed : Q false s) (hlost : Q false (f s))
    (hok : Q true (f s)) : wp (effect env c f) Q R s :=
  wp_effect_call (fun _ => hfailed) (fun _ => hlost) fun _ => hok

end Calls

section Primitives

variable {env : Env}

theorem quiet_mem (hmem : Origin tracked images s inst) :
    Quiet tracked images s { s with mem := inst } :=
  ⟨.of_stored, hmem, rfl, rfl, rfl⟩

/-- A change of the copy that keeps what an origin is about. -/
theorem quiet_setMem {f : Instance → Instance} (hview : ∀ i, readyView (f i) = readyView i)
    (hactive : ∀ i, (f i).status.currentActiveStateMachine = i.status.currentActiveStateMachine)
    (hname : ∀ i, (f i).name = i.name)
    (himages : ∀ i, (f i).status.activeImages = i.status.activeImages)
    (hfailed : ∀ i, (f i).status.lastFailedImages = i.status.lastFailedImages) :
    Within (Quiet tracked images) (setMem f) := by
  refine .modify fun s => quiet_mem ⟨.inr (.inl ⟨hview _, hactive _⟩), .inr (hname _), ?_, ?_, ?_⟩
  · exact .inr (.inl (by rw [himages]))
  · exact .inr (.inl (hactive _))
  · exact .inr (hfailed _)

theorem quiet_setStatus {f : InstanceStatus → InstanceStatus}
    (hconds : ∀ st, (f st).conditions = st.conditions)
    (hactive : ∀ st, (f st).currentActiveStateMachine = st.currentActiveStateMachine)
    (himages : ∀ st, (f st).activeImages = st.activeImages)
    (hfailed : ∀ st, (f st).lastFailedImages = st.lastFailedImages) :
    Within (Quiet tracked images) (setStatus f) := by
  refine quiet_setMem ?_ (fun _ => hactive _) (fun _ => rfl) (fun _ => himages _) fun _ => hfailed _
  intro i
  simp only [readyView, readyCond, hconds]

theorem quiet_upsertCondition {name : CondType} {status : CondStatus} {reason : Reason}
    {message : String} (hne : name ≠ .ready) :
    Within (Quiet tracked images) (upsertCondition env name status reason message) := by
  refine .modify fun s =>
    quiet_mem ⟨.inr (.inl ⟨?_, rfl⟩), .inr rfl, .inr (.inl rfl), .inr (.inl rfl), .inr rfl⟩
  exact congrArg (Option.map _) (readyCond_upsert_ne hne)

theorem quiet_setReady {status : CondStatus} {reason : Reason} {message : String}
    (hr : tracked reason = false) :
    Within (Quiet tracked images) (setReady env status reason message) := by
  refine .modify fun s =>
    quiet_mem ⟨.inr (.inr ?_), .inr rfl, .inr (.inl rfl), .inr (.inl rfl), .inr rfl⟩
  intro v hv
  obtain rfl : (status, reason) = v := Option.some.inj (readyView_upsert_ready.symm.trans hv)
  exact hr

/-- Status and reason stay, only the message of the condition changes. -/
theorem quiet_updateProgressCondition {op : String} :
    Within (Quiet tracked images) (updateProgressCondition env op) := by
  intro s
  unfold updateProgressCondition
  simp only [wp_bind, wp_get]
  cases hc : readyCond s.mem with
  | none => exact Std.Refl.refl s
  | some cond =>
    simp only [wp_bind, wp_when, wp_pure]
    refine ⟨fun _ => quiet_mem
      ⟨.inr (.inl ⟨?_, rfl⟩), .inr rfl, .inr (.inl rfl), .inr (.inl rfl), .inr rfl⟩,
      fun _ => Std.Refl.refl s⟩
    have hview : readyView s.mem = some (cond.status, cond.reason) :=
      readyView_eq_some.mpr ⟨cond, hc, rfl⟩
    rw [hview]
    exact readyView_upsert_ready

theorem quiet_store (hi : Origin tracked images s inst) : Quiet tracked images s (s.store inst) := by
  unfold Session.store
  split
  · exact Std.Refl.refl s
  · exact ⟨hi, .of_mem, rfl, rfl, rfl⟩

theorem quiet_write {object : Session → Instance} {c : Call}
    (h : ∀ s, Origin tracked images s (object s)) :
    Within (Quiet tracked images) (write env object c) := by
  intro s
  have hst := quiet_store (h s)
  exact wp_write (Std.Refl.refl s) hst ⟨hst.stored, hst.stored, hst.acts, hst.sts, hst.snapshots⟩

theorem quiet_updateStatus {c : Call} : Within (Quiet tracked images) (updateStatus env c) :=
  quiet_write fun _ => ⟨.inr (.inl ⟨rfl, rfl⟩), .inl rfl, .inr (.inl rfl), .inr (.inl rfl), .inr rfl⟩

theorem quiet_update {c : Call} : Within (Quiet tracked images) (update env c) :=
  quiet_write fun _ => ⟨.inl ⟨rfl, rfl⟩, .inr rfl, .inl rfl, .inl rfl, .inl rfl⟩

theorem quiet_effect {c : Call} {f : Session → Session}
    (h : ∀ s, Quiet tracked images s (f s)) : Within (Quiet tracked images) (effect env c f) := by
  intro s
  exact wp_effect (Std.Refl.refl s) (h s) (h s)

theorem quiet_createMonitoringDeployment {replicas : Nat} {map : StrMap} {c : Call} :
    Within (Quiet tracked images) (createMonitoringDeployment env replicas map c) :=
  quiet_effect fun _ => ⟨.of_stored, .of_mem, rfl, rfl, rfl⟩

theorem quiet_rewriteSts {f : StatefulSet → StatefulSet} {c : Call} :
    Within (Quiet tracked images) (rewriteSts env f c) :=
  quiet_effect fun s => ⟨.of_stored, .of_mem, rfl, by cases s.sts <;> rfl, rfl⟩

theorem quiet_recordEventAndUpdateStatus {c : Call} {status : CondStatus} {reason : Reason}
    {message : String} (hr : tracked reason = false) :
    Within (Quiet tracked images) (recordEventAndUpdateStatus env c status reason message) :=
  .bind (quiet_setReady hr) fun _ => .bind quiet_updateStatus fun _ => .pure ()

theorem quiet_leave {reason : Reason} {message : String} {r : Result}
    (hr : tracked reason = false) :
    Within (Quiet tracked images) (leave env reason message r) :=
  .bind (quiet_setReady hr) fun _ => .finish r

theorem quiet_reconcileMonitoring {map : StrMap} :
    Within (Quiet tracked images) (reconcileMonitoring env map) := by
  unfold reconcileMonitoring
  refine .ite (fun _ => .pure _) fun _ => .ite (fun _ => .pure _) fun _ =>
    .ite (fun _ => .pure _) fun _ => ?_
  exact .bind quiet_createMonitoringDeployment fun _ => .pure _

theorem quiet_withFresh {α : Type} {p : P α} (hp : Within (Quiet tracked images) p) :
    Within (Quiet tracked images) (withFresh p) := by
  intro s
  -- the callee's copy starts as the stored object, so that is where all of it comes from
  have hback : ∀ t, Quiet tracked images { s with mem := s.stored, memVersion := s.resourceVersion } t →
      Quiet tracked images s { t with mem := s.mem, memVersion := s.memVersion } := by
    rintro t ⟨⟨hview, hname, hactive, hmachine, hfailed⟩, -, hacts, hsts, hsnap⟩
    refine ⟨⟨?_, ?_, ?_, ?_, .inl (hfailed.elim id id)⟩, .of_mem, hacts, hsts, hsnap⟩
    · rcases hview with hv | hv | hv
      · exact .inl hv
      · exact .inl hv
      · exact .inr (.inr hv)
    · exact .inl (hname.elim id id)
    · rcases hactive with ha | ha | ha
      · exact .inl ha
      · exact .inl ha
      · exact .inr (.inr ha)
    · rcases hmachine with ha | ha | ha
      · exact .inl ha
      · exact .inl ha
      · exact .inr (.inr ha)
  exact wp_onCopy.mpr ((hp _).mono (fun _ => hback) fun _ => hback)

end Primitives

section Works

variable (paths : Path → Prop) (tracked images)

/-- What a part of the reconciler may do on its own paths: delete, or apply the given images. -/
inductive Work (s : Session) : Act → Prop where
  | applySts {path : Path} {created : Bool} {sts : StatefulSet} {active : StrMap}
      (hpath : paths path) (himages : sts.images = images)
      (hactive : active = s.stored.status.activeImages.getD ∅ ∨
        active = s.mem.status.activeImages.getD ∅ ∨ active = images) :
      Work s (.applySts path created sts active)
  | deleteSts {path : Path} (hpath : paths path) : Work s (.deleteSts path)
  | deletePvc {path : Path} {pvc : String} {snapshot : Option VolumeSnapshot}
      (hpath : paths path) : Work s (.deletePvc path pvc snapshot)

/-- Like a quiet step, but with work on the StatefulSet and the claims. -/
structure Works (s t : Session) : Prop where
  stored : Origin tracked images s t.stored
  mem : Origin tracked images s t.mem
  snapshots : t.snapshots = s.snapshots
  acts : ∃ new, t.acts = new ++ s.acts ∧ ∀ act ∈ new, Work images paths s act

variable {paths tracked images}

theorem Quiet.works (h : Quiet tracked images s t) : Works tracked images paths s t :=
  ⟨h.stored, h.mem, h.snapshots, [], h.acts, by simp⟩

theorem Work.trans {act : Act} (h : Works tracked images paths s t)
    (ha : Work images paths t act) : Work images paths s act := by
  cases ha with
  | deleteSts hpath => exact .deleteSts hpath
  | deletePvc hpath => exact .deletePvc hpath
  | applySts hpath himages hactive =>
    refine .applySts hpath himages ?_
    rcases hactive with rfl | rfl | rfl
    · exact h.stored.active
    · exact h.mem.active
    · exact .inr (.inr rfl)

theorem works_of_quiet {α : Type} {p : P α} (hp : Within (Quiet tracked images) p) :
    Within (Works tracked images paths) p :=
  fun s => (hp s).mono (fun _ _ h => h.works) fun _ _ h => h.works

instance : Std.Refl (Works tracked images paths) :=
  ⟨fun s => Quiet.works (Std.Refl.refl s)⟩

instance : IsTrans Session (Works tracked images paths) where
  trans s t u h h' := by
    obtain ⟨new, hnew, hwork⟩ := h.acts
    obtain ⟨new', hnew', hwork'⟩ := h'.acts
    refine ⟨.trans h.stored h.mem h'.stored, .trans h.stored h.mem h'.mem,
      h'.snapshots.trans h.snapshots, new' ++ new, by rw [hnew', hnew, List.append_assoc], ?_⟩
    intro act hact
    rcases List.mem_append.mp hact with hact | hact
    · exact (hwork' act hact).trans h
    · exact hwork act hact

end Works

end ElCarro.Instance.Reconciler
