import ElCarro.Instance.Preamble

/-! # Pausing an instance

Only an instance in a stable state can be paused. The reconcile that finds it so
consists of three steps: it adds the finalizer if that is missing, marks the
instance as paused and writes the status. It leaves all other objects alone.
-/

namespace ElCarro.Instance.Reconciler

open GoTime K8s Api Flow

/-- The user asks for a pause, and the instance is in a stable state. -/
structure Pausable (inst : Instance) : Prop where
  mode : inst.spec.mode = .pause
  notDeleting : isDeleting inst = false
  notStopped : isStopped inst = false
  database : (dbInstanceCond inst).isSome
  ready : conditionReasonEquals (readyCond inst) .createComplete

instance (inst : Instance) : Decidable (Pausable inst) :=
  decidable_of_iff
    (inst.spec.mode = .pause ∧ isDeleting inst = false ∧ isStopped inst = false ∧
      (dbInstanceCond inst).isSome ∧ conditionReasonEquals (readyCond inst) .createComplete)
    ⟨fun ⟨hm, hd, hs, hdb, hr⟩ => ⟨hm, hd, hs, hdb, hr⟩,
      fun h => ⟨h.mode, h.notDeleting, h.notStopped, h.database, h.ready⟩⟩

/-- What is left of a reconcile that pauses the instance. -/
def pausing (env : Env) : P Unit := do
  addFinalizer env
  setReady env .false .pauseMode "Instance switched to pause mode"
  finish .stop

/-- Everything but the instance itself is as it was. -/
structure SameObjects (w w' : World) : Prop where
  sts : w'.sts = w.sts
  stsDeleting : w'.stsDeleting = w.stsDeleting
  pvcs : w'.pvcs = w.pvcs
  snapshots : w'.snapshots = w.snapshots
  monitoring : w'.monitoring = w.monitoring
  acts : w'.acts = w.acts
  launches : w'.launches = w.launches
  databases : w'.databases = w.databases

variable {env : Env} {w : World} {s t : Session}

theorem SameObjects.refl (w : World) : SameObjects w w := ⟨rfl, rfl, rfl, rfl, rfl, rfl, rfl, rfl⟩

theorem SameObjects.store {inst : Instance} (h : SameObjects w s.toWorld) :
    SameObjects w (s.store inst).toWorld := by
  unfold Session.store
  split
  · exact h
  · exact ⟨h.sts, h.stsDeleting, h.pvcs, h.snapshots, h.monitoring, h.acts, h.launches,
      h.databases⟩

/-- A write of the instance that succeeds leaves the written object in the copy. -/
theorem write_keeps {object : Session → Instance} {c : Call} (hw : SameObjects w s.toWorld) :
    wp (write env object c)
      (fun ok t => SameObjects w t.toWorld ∧
        (ok = true → t.stored = object s ∧ t.mem = object s))
      (fun _ _ => False) s := by
  apply wp_write
  · exact ⟨hw, by simp⟩
  · exact ⟨hw.store, by simp⟩
  · exact ⟨hw.store, fun _ => ⟨store_stored, store_stored⟩⟩

/-- The write of a finalizer leaves the spec and the status of the copy alone. -/
theorem addFinalizer_keeps (hmem : s.mem = s.stored) (hw : SameObjects w s.toWorld) :
    wp (addFinalizer env)
      (fun _ t => SameObjects w t.toWorld ∧ t.mem.spec = s.mem.spec ∧ t.mem.status = s.mem.status)
      (fun r t => SameObjects w t.toWorld ∧ r = .error) s := by
  unfold addFinalizer
  rw [wp_bind, wp_get, wp_when]
  constructor
  · intro _
    rw [wp_bind, setMem, wp_modify, wp_bind]
    apply wp.mono (write_keeps (w := w) ?_)
    · rintro ok t ⟨ht, hok⟩
      rw [wp_when]
      constructor
      · intro _
        exact ⟨ht, rfl⟩
      · intro hnot
        obtain ⟨-, htmem⟩ := hok (by simpa using hnot)
        rw [htmem]
        exact ⟨ht, rfl, by rw [hmem]⟩
    · simp
    · exact hw
  · intro _
    exact ⟨hw, rfl, rfl⟩

/-- The reconcile of an instance that can be paused ends with its pause. -/
theorem body_of_pausable (h : Pausable w.stored) :
    body env w.session = pausing env w.session := by
  have hfirst : handleDeletionAndStop env w.session = .next () w.session := by
    have hstopped : conditionReasonEquals (readyCond w.stored) .instanceStopped = false := by
      have hready := h.ready
      cases hc : readyCond w.stored with
      | none => rfl
      | some cond => simp_all [conditionReasonEquals]
    simp only [handleDeletionAndStop, get_bind_apply, World.session, h.notDeleting, h.notStopped,
      hstopped, Bool.false_eq_true, false_and, and_false, if_false, Flow.when]
    rfl
  have hkeeps : wp (addFinalizer env)
      (fun _ t => SameObjects w t.toWorld ∧ t.mem.spec = w.session.mem.spec ∧
        t.mem.status = w.session.mem.status)
      (fun r t => SameObjects w t.toWorld ∧ r = .error) w.session :=
    addFinalizer_keeps rfl (SameObjects.refl w)
  have hpreamble : preamble env w.session = (do
      addFinalizer env
      handlePause env
      handleStandbyDR env
      parameterUpdateStateMachine env
      handleDnfs env) w.session := bind_next hfirst
  unfold wp at hkeeps
  cases hadd : addFinalizer env w.session with
  | done r t => rw [body, pausing, bind_done (hpreamble.trans (bind_done hadd)), bind_done hadd]
  | next a t =>
    rw [hadd] at hkeeps
    obtain ⟨-, hspec, hstatus⟩ := hkeeps
    -- the check of the pause sees the copy that was read
    have hpause : handlePause env t =
        (do setReady env .false .pauseMode "Instance switched to pause mode"; finish .stop) t := by
      have hc : t.mem.spec.mode = .pause ∧ (dbInstanceCond t.mem).isSome ∧
          conditionReasonEquals (readyCond t.mem) .createComplete := by
        simp only [dbInstanceCond, readyCond, hspec, hstatus]
        exact ⟨h.mode, h.database, h.ready⟩
      simp only [handlePause, get_bind_apply, Flow.when, if_pos hc]
    have hends : ∃ u, (do
        setReady env .false .pauseMode "Instance switched to pause mode"
        finish .stop : P Unit) t = .done .stop u := ⟨_, rfl⟩
    obtain ⟨u, hu⟩ := hends
    have hall : preamble env w.session = .done .stop u := by
      rw [hpreamble, bind_next hadd, bind_done (hpause.trans hu)]
    rw [body, pausing, bind_done hall, bind_next hadd, hu]

theorem pausing_spec (env : Env) (w : World) :
    wp (pausing env) (fun _ _ => False)
      (fun r t => SameObjects w t.toWorld ∧
        (r ≠ .error → readyView t.mem = some (.false, .pauseMode))) w.session := by
  rw [pausing, wp_bind]
  apply (addFinalizer_keeps rfl (SameObjects.refl w)).mono
  · rintro _ t ⟨ht, -, -⟩
    exact ⟨ht, fun _ => readyView_upsert_ready⟩
  · rintro r t ⟨ht, rfl⟩
    exact ⟨ht, by simp⟩

section Sample

/-- The instance while it is still being created. -/
def creatingWorld : World :=
  let inst := createdInstance none
  { createdWorld none with
    stored := { inst with
      status := { inst.status with conditions := [⟨.ready, .false, .createInProgress, "", 0⟩] } } }

/-- The user asks for a pause. -/
def requestPause : Event := .editSpec { (createdInstance none).spec with mode := .pause }

/-- A pause asked for once the instance is created. -/
def pausedWorld : World :=
  { createdWorld none with
    stored := { createdInstance none with
      spec := { (createdInstance none).spec with mode := .pause } } }

end Sample

end ElCarro.Instance.Reconciler
