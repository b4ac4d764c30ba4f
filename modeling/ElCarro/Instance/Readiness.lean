import ElCarro.Instance.Provision

/-! # A database that is ready has earned it

In an instance that never was a standby, the condition of the database becomes True
in two states only: with its services, after a bootstrap has succeeded, and after a
restore. What a reconcile reads off the daemon is backed by what has happened there,
also where an answer got lost. A creation that has failed leaves no way out.
-/

namespace ElCarro.Instance.Provision

open GoTime K8s Api Flow Runs Reconciler

section Soundness

variable {env : Env} {s t : Session} {i j : Instance} {h h' : List Milestone}

/-- What the condition of the database says has its reasons in the history. -/
structure Base (h : List Milestone) (inst : Instance) : Prop where
  calm : Calm inst
  services : ∀ v, dbView inst = some v → v.2 = .reconcileServices → .bootstrapped ∈ h
  ready : ∀ v, dbView inst = some v → v.1 = .true → Earned h
  failed : ∀ v, dbView inst = some v → v.2 = .createFailed → v.1 = .false

/-- So has a restore that is complete. -/
structure Sound (h : List Milestone) (inst : Instance) : Prop where
  base : Base h inst
  restored : conditionReasonEquals (readyCond inst) .restoreComplete = true → .restoreComplete ∈ h

theorem Earned.mono (hh : h.Sublist h') (he : Earned h) : Earned h' :=
  he.imp (fun hs => hs.trans hh) fun hm => hh.subset hm

theorem Base.mono (hh : h.Sublist h') (hb : Base h i) : Base h' i where
  calm := hb.calm
  services v hv hr := hh.subset (hb.services v hv hr)
  ready v hv hr := (hb.ready v hv hr).mono hh
  failed := hb.failed

theorem Sound.mono (hh : h.Sublist h') (hs : Sound h i) : Sound h' i :=
  ⟨hs.base.mono hh, fun hr => hh.subset (hs.restored hr)⟩

theorem Both.mono_sound (hh : h.Sublist h') (hs : Both (Sound h) s) : Both (Sound h') s :=
  ⟨hs.stored.mono hh, hs.mem.mono hh⟩

theorem offReady_base : OffReady (Base h) where
  calm hb := hb.calm
  congr {i j} hj hsame hb :=
    { calm := ⟨hj, (hsame _ (by decide)).trans hb.calm.standbyReady,
        (hsame _ (by decide)).trans hb.calm.standbyDRReady⟩
      services := fun v hv => hb.services v (hsame.dbView ▸ hv)
      ready := fun v hv => hb.ready v (hsame.dbView ▸ hv)
      failed := fun v hv => hb.failed v (hsame.dbView ▸ hv) }

theorem readyCond_withReady (i : Instance) (now : Time) (status : CondStatus) (reason : Reason)
    (message : String) :
    ∃ cond, readyCond (withReady i now status reason message) = some cond ∧ cond.reason = reason := by
  obtain ⟨cond, hc, -, hr⟩ : ∃ cond, findCondition
      (upsert now .ready status reason message i.status.conditions) .ready = some cond ∧
        cond.status = status ∧ cond.reason = reason := findCondition_upsert_self
  exact ⟨cond, hc, hr⟩

theorem robust_sound : Robust (Sound h) where
  aligned ha hi :=
    ⟨offReady_base.robust.aligned ha hi.base, by
      simp only [readyCond, ha.conditions]
      exact hi.restored⟩
  ready {i} now status {reason} message hne hi := by
    refine ⟨offReady_base.robust.ready now status message hne hi.base, ?_⟩
    intro hr
    obtain ⟨cond, hc, hreason⟩ := readyCond_withReady i now status reason message
    rw [hc] at hr
    exact absurd (hreason.symm.trans (of_decide_eq_true hr)) hne
  refresh {i cond} now message hcond hi := by
    refine ⟨offReady_base.robust.refresh now message hcond hi.base, ?_⟩
    intro hr
    obtain ⟨cond', hc, hreason⟩ := readyCond_withReady i now cond.status cond.reason message
    rw [hc] at hr
    apply hi.restored
    rw [hcond]
    exact decide_eq_true (hreason.symm.trans (of_decide_eq_true hr))
  status hi hj := ⟨offReady_base.robust.status hi.base hj.base, hj.restored⟩

theorem sound_upToRestore : Within (Maintains (Sound h)) (upToRestore env) := by
  apply maintains_upToRestore robust_sound fun hi => hi.base.calm
  · intro i params hi
    exact ⟨offReady_base.congr (i := i) hi.base.calm.single (fun _ _ => rfl) hi.base, hi.restored⟩
  · intro i j hi hj
    exact ⟨offReady_base.congr (i := j) hi.base.calm.single (fun _ _ => rfl) hj.base, hj.restored⟩

/-- The restore machine adds to the history when it completes a restore. -/
theorem sound_handleRestore {sp : StsParams} (hs : Both (Sound h) s) (hh : h.Sublist h')
    (hcomplete : restored s = false → restored (handleRestore env sp s).state = true →
      .restoreComplete ∈ h') :
    wp (handleRestore env sp) (fun _ => Both (Sound h')) (fun _ => Both (Sound h')) s := by
  have hbase : Within (Maintains (Base h)) (handleRestore env sp) :=
    offReady_base.robust.handleRestore fun _ _ _ hi =>
      offReady_base.congr hi.calm.single sameOthers_withReady hi
  have hafter : ∀ t, Maintains (Base h) s t → (handleRestore env sp s).state = t →
      Both (Sound h') t := by
    rintro t ht rfl
    have hb : Both (Base h) _ := ht ⟨hs.stored.base, hs.mem.base⟩
    have hin : restored (handleRestore env sp s).state = true → .restoreComplete ∈ h' := by
      intro hr
      cases hbefore : restored s with
      | false => exact hcomplete hbefore hr
      | true =>
        rcases Bool.or_eq_true_iff.mp hbefore with hold | hold
        · exact hh.subset (hs.stored.restored hold)
        · exact hh.subset (hs.mem.restored hold)
    exact ⟨⟨hb.stored.mono hh, fun hr => hin (Bool.or_eq_true_iff.mpr (.inl hr))⟩,
      ⟨hb.mem.mono hh, fun hr => hin (Bool.or_eq_true_iff.mpr (.inr hr))⟩⟩
  apply ((hbase s).and wp_self).mono
  · rintro _ t ⟨ht, heq⟩
    exact hafter t ht (by rw [heq]; rfl)
  · rintro _ t ⟨ht, heq⟩
    exact hafter t ht (by rw [heq]; rfl)

/-- A new state of the database, with what it has to be backed by. -/
structure Backed (h : List Milestone) (status : CondStatus) (reason : Reason) : Prop where
  services : reason = .reconcileServices → .bootstrapped ∈ h
  ready : status = .true → Earned h
  failed : reason = .createFailed → status = .false

def withDatabase (inst : Instance) (now : Time) (status : CondStatus) (reason : Reason)
    (message : String) : Instance :=
  withConditions inst (upsert now .databaseInstanceReady status reason message inst.status.conditions)

theorem dbView_withDatabase (inst : Instance) (now : Time) (status : CondStatus) (reason : Reason)
    (message : String) : dbView (withDatabase inst now status reason message) =
      some (status, reason) := by
  obtain ⟨cond, hc, rfl, rfl⟩ : ∃ cond, findCondition (upsert now .databaseInstanceReady status reason
      message inst.status.conditions) .databaseInstanceReady = some cond ∧
        cond.status = status ∧ cond.reason = reason := findCondition_upsert_self
  exact Option.map_eq_some_iff.mpr ⟨cond, hc, rfl⟩

theorem Sound.withDatabase {now : Time} {status : CondStatus} {reason : Reason} {message : String}
    (hi : Sound h i) (hb : Backed h status reason) :
    Sound h (withDatabase i now status reason message) := by
  have hne : ∀ name, name ≠ .databaseInstanceReady →
      findCondition (Provision.withDatabase i now status reason message).status.conditions name =
        findCondition i.status.conditions name := fun _ hne => findCondition_upsert_ne hne
  have hview : ∀ v, dbView (Provision.withDatabase i now status reason message) = some v →
      v = (status, reason) := by
    intro v hv
    rw [dbView_withDatabase] at hv
    exact (Option.some.inj hv).symm
  refine ⟨⟨⟨hi.base.calm.single, (hne _ (by decide)).trans hi.base.calm.standbyReady,
    (hne _ (by decide)).trans hi.base.calm.standbyDRReady⟩, ?_, ?_, ?_⟩, ?_⟩
  · intro v hv
    rw [hview v hv]
    exact hb.services
  · intro v hv
    rw [hview v hv]
    exact hb.ready
  · intro v hv
    rw [hview v hv]
    exact hb.failed
  · simp only [readyCond, hne .ready (by decide)]
    exact hi.restored

theorem sound_databaseNext {status : CondStatus} {reason : Reason} {message : String}
    (hs : Both (Sound h) s) (hb : Backed h status reason) :
    wp (databaseNext env status reason message) (fun _ => Both (Sound h)) (fun _ => Both (Sound h))
      s := by
  have hset : Both (Sound h)
      { s with mem := withDatabase s.mem env.now status reason message } :=
    ⟨hs.stored, hs.mem.withDatabase hb⟩
  have hwrite : Within (Maintains (Sound h)) (updateStatus env .databaseStatus) :=
    robust_sound.updateStatus
  simp only [databaseNext, upsertCondition, setStatus, setMem, wp_bind, wp_modify]
  exact (hwrite _).mono (fun _ _ ht => ht hset) fun _ _ ht => ht hset

theorem backed_plain {reason : Reason} (hs : reason ≠ .reconcileServices) :
    Backed h .false reason :=
  ⟨fun hr => absurd hr hs, by rintro ⟨⟩, fun _ => rfl⟩

/-- What a turn at the database finds out has to be in the history that follows it. -/
structure Noted (env : Env) (images : StrMap) (s : Session) (h h' : List Milestone) : Prop where
  longer : h.Sublist h'
  launched : ∀ seeded, databaseTurn env s = some (seeded, .bootstrapPending) →
    env.bootstrapCDB = some true → .bootstrapped ∈ h'
  polled : ∀ seeded, databaseTurn env s = some (seeded, .bootstrapInProgress) →
    env.bootstrapCDBDone = .done → .bootstrapped ∈ h'
  services : ∀ seeded, databaseTurn env s = some (seeded, .reconcileServices) →
    servicesReconcile env images s = true → .bootstrapped ∈ h → Earned h'

theorem sound_databaseState {images : StrMap} {seeded : Bool} {cond : Condition}
    (hs : Both (Sound h) s) (hn : Noted env images s h h')
    (hcond : dbInstanceCond s.mem = some cond)
    (hturn : databaseTurn env s = some (seeded, cond.reason)) :
    wp (databaseState env images cond) (fun _ => Both (Sound h')) (fun _ => Both (Sound h')) s := by
  have hs' : Both (Sound h') s := Both.mono_sound hn.longer hs
  have hview : dbView s.mem = some (cond.status, cond.reason) :=
    Option.map_eq_some_iff.mpr ⟨cond, hcond, rfl⟩
  unfold databaseState
  split
  · simp only [wp_bind, wp_when, wp_finish]
    exact ⟨fun _ => hs', fun _ => sound_databaseNext hs' (backed_plain (by decide))⟩
  · cases env.createCDBDone with
    | waiting => exact hs'
    | failed => exact sound_databaseNext hs' (backed_plain (by decide))
    | done => exact sound_databaseNext hs' (backed_plain (by decide))
  · next hreason =>
    cases hboot : env.bootstrapCDB with
    | none => exact hs'
    | some done =>
      cases done with
      | false => exact sound_databaseNext hs' (backed_plain (by decide))
      | true =>
        have hdone : .bootstrapped ∈ h' := hn.launched seeded (hreason ▸ hturn) hboot
        exact sound_databaseNext hs' ⟨fun _ => hdone, by rintro ⟨⟩, by rintro ⟨⟩⟩
  · next hreason =>
    cases hpoll : env.bootstrapCDBDone with
    | waiting => exact hs'
    | failed => exact sound_databaseNext hs' (backed_plain (by decide))
    | done =>
      have hdone : .bootstrapped ∈ h' := hn.polled seeded (hreason ▸ hturn) hpoll
      exact sound_databaseNext hs' ⟨fun _ => hdone, by rintro ⟨⟩, by rintro ⟨⟩⟩
  · next hreason =>
    have hkeeps : Within (Maintains (Sound h')) (reconcileMonitoring env images) :=
      maintains_reconcileMonitoring
    apply wp_bind.mpr (((hkeeps s).and wp_self).mono _ fun _ _ ht => ht.1 hs')
    rintro poll t ⟨ht, heq⟩
    cases poll with
    | failed => exact ht hs'
    | waiting => exact ht hs'
    | done =>
      have hearned : Earned h' := by
        apply hn.services seeded (hreason ▸ hturn)
        · simp only [servicesReconcile, heq]
        · exact hs.mem.base.services _ hview hreason
      exact sound_databaseNext (ht hs') ⟨by rintro ⟨⟩, fun _ => hearned, by rintro ⟨⟩⟩
  · simp only [wp_bind, wp_get]
    split
    · next hrestored =>
      have hearned : Earned h' := .inr (hs'.mem.restored hrestored)
      exact sound_databaseNext hs' ⟨by rintro ⟨⟩, fun _ => hearned, by rintro ⟨⟩⟩
    · exact hs'
  · exact hs'

theorem sound_reconcileDatabaseInstance {images : StrMap} (hs : Both (Sound h) s)
    (hn : Noted env images s h h') :
    wp (reconcileDatabaseInstance env images) (fun _ => Both (Sound h')) (fun _ => Both (Sound h'))
      s := by
  have hs' : Both (Sound h') s := Both.mono_sound hn.longer hs
  simp only [reconcileDatabaseInstance, wp_bind, wp_get, wp_when, wp_finish]
  constructor
  · exact fun _ => hs'
  · intro hready
    cases hseeded : env.seededImage with
    | none => exact hs'
    | some seeded =>
      cases hcond : dbInstanceCond s.mem with
      | none =>
        simp only [startDatabase, wp_bind, wp_get]
        split
        · exact sound_databaseNext hs' (backed_plain (by decide))
        · split
          · exact sound_databaseNext hs' (backed_plain (by decide))
          · exact sound_databaseNext hs' (backed_plain (by decide))
      | some cond =>
        have hview : dbView s.mem = some (cond.status, cond.reason) :=
          Option.map_eq_some_iff.mpr ⟨cond, hcond, rfl⟩
        simp only [wp_bind, wp_when, wp_finish, upsertCondition, setStatus, setMem, wp_modify]
        constructor
        · intro _
          -- the reason stays, only the message is a warning
          refine ⟨hs'.stored, hs'.mem.withDatabase ⟨?_, by rintro ⟨⟩, fun _ => rfl⟩⟩
          exact hs'.mem.base.services _ hview
        · intro htime
          have hturn : databaseTurn env s = some (seeded, cond.reason) := by
            unfold databaseTurn
            rw [if_pos (not_not.mp hready), hseeded, hcond, Option.bind_some, Option.bind_some,
              if_neg htime]
          exact sound_databaseState hs hn hcond hturn

/-- A reconcile, with the history after the restore machine and the one after the database. -/
theorem sound_reconcile {w : World} {h₁ h₂ : List Milestone} (hs : Sound h w.stored)
    (hrestore : h.Sublist h₁) (hdatabase : h₁.Sublist h₂)
    (hcomplete : reads env w = true → restoreCompletes env w = true → .restoreComplete ∈ h₁)
    (hnoted : reads env w = true → ∀ sp t, atDatabase env w = some (sp, t) →
      Noted env sp.images t h₁ h₂) :
    Sound h₂ (reconcile env w).stored := by
  unfold reconcile
  split
  · exact hs.mono (hrestore.trans hdatabase)
  · next hreads =>
    have hreads : reads env w = true := by simpa [reads] using hreads
    have hstart : Both (Sound h) w.session := ⟨hs, hs⟩
    have hbody : wp (body env) (fun _ => Both (Sound h₂)) (fun _ => Both (Sound h₂)) w.session := by
      have hfirst : Within (Maintains (Sound h)) (upToRestore env) := sound_upToRestore
      rw [body_eq]
      refine wp_bind.mpr (((hfirst w.session).and wp_self).mono ?_ ?_)
      · rintro sp t ⟨ht, hup⟩
        have hcomplete : restored t = false → restored (handleRestore env sp t).state = true →
            .restoreComplete ∈ h₁ := by
          intro hbefore hafter
          apply hcomplete hreads
          simp [restoreCompletes, hup, hbefore, hafter]
        apply wp_bind.mpr (((sound_handleRestore (ht hstart) hrestore hcomplete).and wp_self).mono _
          fun _ _ hu => Both.mono_sound hdatabase hu.1)
        rintro _ u ⟨hu, hrestored⟩
        have hkeeps : Within (Maintains (Sound h₁)) (provision env sp) :=
          maintains_provision robust_sound fun hi => hi.base.calm
        apply wp_bind.mpr (((hkeeps u).and wp_self).mono _ fun _ _ hv =>
          Both.mono_sound hdatabase (hv.1 hu))
        rintro _ v ⟨hv, hprovided⟩
        apply sound_reconcileDatabaseInstance (hv hu) (hnoted hreads sp v _)
        simp only [atDatabase, bind_next hup, bind_next hrestored, bind_next hprovided]
        rfl
      · rintro _ t ⟨ht, -⟩
        exact Both.mono_sound (hrestore.trans hdatabase) (ht hstart)
    have hend : Within (Maintains (Sound h₂)) (updateStatus env .deferredStatus) :=
      robust_sound.updateStatus
    exact ((hend _).state hbody.state).stored

end Soundness

section Runs

variable {σ τ : System} {env : Env} {a : Answers} {host : Host} {seeded : Bool}
  {h : List Milestone}

/-- A call that says that it is done has bootstrapped the database, or has found the file. -/
theorem bootstrapDatabase_spec (a : Answers) (seeded : Bool)
    (hfile : host.provisioningDone = true → .bootstrapped ∈ h) :
    ((bootstrapDatabase a seeded host).1 = some true →
      .bootstrapped ∈ (bootstrapDatabase a seeded host).2.2 ++ h) ∧
    ((bootstrapDatabase a seeded host).2.1.provisioningDone = true →
      .bootstrapped ∈ (bootstrapDatabase a seeded host).2.2 ++ h) ∧
    ((bootstrapDatabase a seeded host).2.1.operation = some .succeeded →
      host.operation = some .succeeded) := by
  unfold bootstrapDatabase
  split
  · exact ⟨by rintro ⟨⟩, hfile, id⟩
  · split
    · next hdone => exact ⟨fun _ => hfile hdone, hfile, id⟩
    · split
      · split
        · exact ⟨by rintro ⟨⟩, hfile, id⟩
        · refine ⟨?_, hfile, by rintro ⟨⟩⟩
          split <;> rintro ⟨⟩
      · split
        · exact ⟨by rintro ⟨⟩, hfile, id⟩
        · split
          · exact ⟨by rintro ⟨⟩, fun _ => List.mem_cons_self, id⟩
          · exact ⟨fun _ => List.mem_cons_self, fun _ => List.mem_cons_self, id⟩

/-- Every sign of a bootstrap is backed by the history. -/
structure Inv (σ : System) : Prop where
  sound : Sound σ.history σ.world.stored
  provisioned : σ.host.provisioningDone = true → .bootstrapped ∈ σ.history
  operation : σ.host.operation = some .succeeded → .bootstrapped ∈ σ.history

theorem Fresh.inv (hf : Fresh σ) : Inv σ := by
  have hview : dbView σ.world.stored = none := by
    simp [dbView, dbInstanceCond, hf.conditions, findCondition]
  refine ⟨⟨⟨⟨hf.single, ?_, ?_⟩, ?_, ?_, ?_⟩, ?_⟩, hf.provisioned, ?_⟩
  · rw [hf.conditions]
    rfl
  · rw [hf.conditions]
    rfl
  · intro v hv
    rw [hview] at hv
    cases hv
  · intro v hv
    rw [hview] at hv
    cases hv
  · intro v hv
    rw [hview] at hv
    cases hv
  · intro hr
    simp [readyCond, hf.conditions, findCondition, conditionReasonEquals] at hr
  · rw [hf.operation]
    rintro ⟨⟩

theorem turn_eq_some {sp : StsParams} {s : Session} {reason : Reason}
    (hreads : reads (σ.answered env a) σ.world = true)
    (hat : atDatabase (σ.answered env a) σ.world = some (sp, s))
    (hturn : databaseTurn (σ.answered env a) s = some (seeded, reason)) :
    σ.turn env a = some (sp, s, seeded, reason) := by
  unfold System.turn
  rw [if_pos hreads, hat, Option.bind_some]
  simp [hturn]

theorem seededImage_of_turn {s : Session} {reason : Reason}
    (hturn : databaseTurn env s = some (seeded, reason)) : env.seededImage = some seeded := by
  unfold databaseTurn at hturn
  split at hturn
  · obtain ⟨b, hb, hrest⟩ := Option.bind_eq_some_iff.mp hturn
    obtain ⟨cond, -, hrest⟩ := Option.bind_eq_some_iff.mp hrest
    split at hrest <;> cases hrest
    exact hb
  · cases hturn

/-- The milestones of a reconcile note what its turn at the database finds out. -/
theorem noted_of_inv {sp : StsParams} {s : Session} (hi : Inv σ)
    (hreads : reads (σ.answered env a) σ.world = true)
    (hat : atDatabase (σ.answered env a) σ.world = some (sp, s)) :
    Noted (σ.answered env a) sp.images s (σ.restoreMilestones env a ++ σ.history)
      (σ.databaseMilestones env a ++ (σ.restoreMilestones env a ++ σ.history)) where
  longer := List.sublist_append_right _ _
  launched seeded hturn hdone := by
    have hseeded : env.seededImage = some seeded := seededImage_of_turn hturn
    have hms : σ.databaseMilestones env a = (bootstrapDatabase a seeded σ.host).2.2 := by
      simp only [System.databaseMilestones, turn_eq_some hreads hat hturn]
    have hdone : (bootstrapDatabase a seeded σ.host).1 = some true := by
      simpa [System.answered, hseeded] using hdone
    rw [hms]
    apply (bootstrapDatabase_spec a seeded _).1 hdone
    intro hp
    exact List.mem_append_right _ (hi.provisioned hp)
  polled seeded hturn hdone := by
    apply List.mem_append_right
    apply List.mem_append_right
    apply hi.operation
    simp only [System.answered, isLROOperationDone] at hdone
    split at hdone
    · cases hdone
    · split at hdone
      · next hop => exact hop
      · cases hdone
      · cases hdone
  services seeded hturn hserved hboot := by
    have hms : σ.databaseMilestones env a = [.servicesReconciled] := by
      simp only [System.databaseMilestones, turn_eq_some hreads hat hturn, hserved, if_true]
    rw [hms]
    exact .inl ((List.singleton_sublist.mpr hboot).cons_cons _)

/-- What a reconcile leaves at the host is backed by its milestones. -/
theorem hostAfter_spec (hi : Inv σ) :
    ((σ.hostAfter env a).provisioningDone = true →
      .bootstrapped ∈ σ.databaseMilestones env a ++ (σ.restoreMilestones env a ++ σ.history)) ∧
    ((σ.hostAfter env a).operation = some .succeeded →
      .bootstrapped ∈ σ.databaseMilestones env a ++ (σ.restoreMilestones env a ++ σ.history)) := by
  have hlater : .bootstrapped ∈ σ.history →
      .bootstrapped ∈ σ.restoreMilestones env a ++ σ.history := List.mem_append_right _
  unfold System.hostAfter
  split
  · next seeded hturn =>
    have hms : σ.databaseMilestones env a = (bootstrapDatabase a seeded σ.host).2.2 := by
      simp only [System.databaseMilestones, hturn]
    obtain ⟨-, hfile, hop⟩ := bootstrapDatabase_spec a seeded fun hp => hlater (hi.provisioned hp)
    rw [hms]
    exact ⟨hfile, fun ho => List.mem_append_right _ (hlater (hi.operation (hop ho)))⟩
  · split
    · exact ⟨fun hp => List.mem_append_right _ (hlater (hi.provisioned hp)),
        fun ho => List.mem_append_right _ (hlater (hi.operation ho))⟩
    · unfold deleteLROOperation
      split
      · exact ⟨fun hp => List.mem_append_right _ (hlater (hi.provisioned hp)), by rintro ⟨⟩⟩
      · exact ⟨fun hp => List.mem_append_right _ (hlater (hi.provisioned hp)),
          fun ho => List.mem_append_right _ (hlater (hi.operation ho))⟩
  · exact ⟨fun hp => List.mem_append_right _ (hlater (hi.provisioned hp)),
      fun ho => List.mem_append_right _ (hlater (hi.operation ho))⟩

theorem inv_reconcile (hi : Inv σ) (h : σ.step (.reconcile env a) = some τ) : Inv τ := by
  cases h
  constructor
  · apply sound_reconcile hi.sound (List.sublist_append_right _ _) (List.sublist_append_right _ _)
    · intro hreads hcompletes
      apply List.mem_append_left
      rw [System.restoreMilestones, if_pos ⟨hreads, hcompletes⟩]
      exact List.mem_singleton_self _
    · intro hreads sp t hat
      exact noted_of_inv hi hreads hat
  · exact (hostAfter_spec hi).1
  · exact (hostAfter_spec hi).2

theorem Inv.extend {host : Host} (hi : Inv σ) (m : Milestone)
    (hhost : (host.provisioningDone = true ∨ host.operation = some .succeeded) →
      .bootstrapped ∈ m :: σ.history) : Inv { σ with host, history := m :: σ.history } :=
  ⟨hi.sound.mono (List.sublist_cons_self _ _), fun hp => hhost (.inl hp), fun ho => hhost (.inr ho)⟩

/-- Somebody else's event keeps the conditions, and a spec without a standby. -/
theorem other_keeps {w w' : World} {e : Event} (hw : Single w.stored.spec)
    (hkeeps : KeepsSingle (.other e)) (hstep : Parameters.otherStep w e = some w') :
    Single w'.stored.spec ∧ w'.stored.status.conditions = w.stored.status.conditions := by
  cases e with
  | reconcile env => cases hstep
  | editSpec spec =>
    cases hstep
    exact ⟨hkeeps, rfl⟩
  | addSnapshot name pvc =>
    simp only [Parameters.otherStep, Reconciler.step] at hstep
    split at hstep <;> cases hstep
    exact ⟨hw, rfl⟩
  | setSnapshotStatus name status =>
    obtain ⟨snap, -, rfl⟩ := Option.map_eq_some_iff.mp hstep
    exact ⟨hw, rfl⟩
  | deleteInstance now | writeStatus backupID locked names | removeSnapshot name | stsGone
  | addPvc name | pvcGone name =>
    cases hstep
    exact ⟨hw, rfl⟩

theorem sound_other {w w' : World} {e : Event} (hs : Sound h w.stored)
    (hkeeps : KeepsSingle (.other e)) (hstep : Parameters.otherStep w e = some w') :
    Sound h w'.stored := by
  obtain ⟨hspec, hconds⟩ := other_keeps hs.base.calm.single hkeeps hstep
  refine ⟨offReady_base.congr hspec (sameOthers_of_conditions hconds) hs.base, ?_⟩
  simp only [readyCond, hconds]
  exact hs.restored

theorem inv_step {e : ProvisionEvent} (hi : Inv σ) (hkeeps : KeepsSingle e)
    (h : σ.step e = some τ) : Inv τ := by
  cases e with
  | reconcile env a => exact inv_reconcile hi h
  | endBootstrap e =>
    simp only [System.step] at h
    split at h
    · cases h
    · cases e with
      | failed =>
        cases h
        exact ⟨hi.sound, hi.provisioned, by rintro ⟨⟩⟩
      | unmarked =>
        cases h
        exact hi.extend _ fun _ => List.mem_cons_self
      | reportedAsFailed =>
        cases h
        exact hi.extend _ fun _ => List.mem_cons_self
      | succeeded =>
        cases h
        exact hi.extend _ fun _ => List.mem_cons_self
  | restartDaemon outlived =>
    simp only [System.step] at h
    split at h
    · cases h
      exact hi.extend _ fun _ => List.mem_cons_self
    · cases h
      exact ⟨hi.sound, hi.provisioned, by rintro ⟨⟩⟩
  | other e =>
    obtain ⟨w, hw, rfl⟩ := Option.map_eq_some_iff.mp h
    exact ⟨sound_other hi.sound hkeeps hw, hi.provisioned, hi.operation⟩

/-- The creation of the database has failed. -/
structure Stuck (inst : Instance) : Prop where
  calm : Calm inst
  view : dbView inst = some (.false, .createFailed)

theorem offReady_stuck : OffReady Stuck where
  calm hs := hs.calm
  congr hj hsame hs :=
    ⟨⟨hj, (hsame _ (by decide)).trans hs.calm.standbyReady,
      (hsame _ (by decide)).trans hs.calm.standbyDRReady⟩, hsame.dbView.trans hs.view⟩

theorem stuck_reconcileDatabaseInstance {images : StrMap} {s : Session} (hs : Both Stuck s) :
    wp (reconcileDatabaseInstance env images) (fun _ => Both Stuck) (fun _ => Both Stuck) s := by
  obtain ⟨cond, hcond, hview⟩ := Option.map_eq_some_iff.mp hs.mem.view
  obtain ⟨-, hreason⟩ := Prod.mk.inj hview
  simp only [reconcileDatabaseInstance, wp_bind, wp_get, wp_when, wp_finish, hcond]
  constructor
  · exact fun _ => hs
  · intro _
    cases env.seededImage with
    | none => exact hs
    | some seeded =>
      simp only [wp_bind, wp_when, wp_finish, upsertCondition, setStatus, setMem, wp_modify]
      constructor
      · intro _
        have hne : ∀ name, name ≠ .databaseInstanceReady → findCondition
            (upsert env.now .databaseInstanceReady .false cond.reason
              "Warning: db instance is taking too long to start up - please try delete and recreate"
              s.mem.status.conditions) name = findCondition s.mem.status.conditions name :=
          fun _ hne => findCondition_upsert_ne hne
        refine ⟨hs.stored, ⟨hs.mem.calm.single, ?_, ?_⟩, ?_⟩
        · exact (hne _ (by decide)).trans hs.mem.calm.standbyReady
        · exact (hne _ (by decide)).trans hs.mem.calm.standbyDRReady
        · exact hreason ▸ dbView_withDatabase s.mem env.now .false cond.reason _
      · intro _
        simp only [databaseState, hreason]
        exact hs

theorem stuck_reconcile {w : World} (hw : Stuck w.stored) : Stuck (reconcile env w).stored := by
  unfold reconcile
  split
  · exact hw
  · have hstart : Both Stuck w.session := ⟨hw, hw⟩
    have hrobust : Robust Stuck := offReady_stuck.robust
    have hup : Within (Maintains Stuck) (upToRestore env) := by
      apply maintains_upToRestore hrobust offReady_stuck.calm
      · intro i params hi
        exact offReady_stuck.congr (i := i) hi.calm.single (fun _ _ => rfl) hi
      · intro i j hi hj
        exact offReady_stuck.congr (i := j) hi.calm.single (fun _ _ => rfl) hj
    have hrestore : ∀ sp, Within (Maintains Stuck) (handleRestore env sp) := fun sp =>
      hrobust.handleRestore fun _ _ _ hi =>
        offReady_stuck.congr hi.calm.single sameOthers_withReady hi
    have hprovision : ∀ sp, Within (Maintains Stuck) (provision env sp) := fun sp =>
      maintains_provision hrobust offReady_stuck.calm
    have hbody : Within (Maintains Stuck) (body env) := by
      rw [body_eq]
      refine .bind hup fun sp => .bind (hrestore sp) fun _ => .bind (hprovision sp) fun _ => ?_
      exact maintains_of_both fun _ => stuck_reconcileDatabaseInstance
    have hend : Within (Maintains Stuck) (updateStatus env .deferredStatus) :=
      hrobust.updateStatus
    exact ((hend _).state ((hbody _).state hstart)).stored

theorem stuck_step {e : ProvisionEvent} (hs : Stuck σ.world.stored) (hkeeps : KeepsSingle e)
    (h : σ.step e = some τ) : Stuck τ.world.stored := by
  cases e with
  | reconcile env a =>
    cases h
    exact stuck_reconcile hs
  | endBootstrap e =>
    simp only [System.step] at h
    split at h
    · cases h
    · cases e <;> cases h <;> exact hs
  | restartDaemon outlived =>
    simp only [System.step] at h
    split at h <;> cases h <;> exact hs
  | other e =>
    obtain ⟨w, hw, rfl⟩ := Option.map_eq_some_iff.mp h
    obtain ⟨hspec, hconds⟩ := other_keeps hs.calm.single hkeeps hw
    exact offReady_stuck.congr hspec (sameOthers_of_conditions hconds) hs

/-- In every run of an instance that is no standby, a database that is ready has been bootstrapped
and then given its services, or has been restored; and once its creation has failed, the condition
keeps its status and reason. -/
theorem database_ready_earned (σ : System) (es : List ProvisionEvent) (hσ : Fresh σ)
    (hes : ∀ e ∈ es, KeepsSingle e) :
    Always System.step (fun σ => conditionStatusEquals (dbInstanceCond σ.world.stored) .true = true →
      Earned σ.history) σ es ∧
    ∀ fs gs τ υ, fs ++ gs = es → run System.step σ fs = some τ →
      conditionReasonEquals (dbInstanceCond τ.world.stored) .createFailed = true →
      run System.step τ gs = some υ → dbView υ.world.stored = dbView τ.world.stored := by
  have hstep : ∀ σ e τ, Inv σ → True ∧ KeepsSingle e → System.step σ e = some τ → Inv τ :=
    fun _ _ _ hi hk h => inv_step hi hk.2 h
  have hm : Meets System.step (fun _ e => True ∧ KeepsSingle e) σ es :=
    (meets_of_forall (fun _ _ => trivial) σ es).and_forall hes
  constructor
  · apply always_of_invariant hstep _ hσ.inv hm
    intro σ hi hready
    cases hcond : dbInstanceCond σ.world.stored with
    | none =>
      rw [hcond] at hready
      cases hready
    | some cond =>
      rw [hcond] at hready
      exact hi.sound.base.ready (cond.status, cond.reason)
        (Option.map_eq_some_iff.mpr ⟨cond, hcond, rfl⟩) (of_decide_eq_true hready)
  · rintro fs gs τ υ rfl hτ hfailed hυ
    obtain ⟨hbefore, hafter⟩ := meets_append.mp hm
    have hinv : Inv τ := invariant hstep hσ.inv hbefore hτ
    have hview : dbView τ.world.stored = some (.false, .createFailed) := by
      cases hcond : dbInstanceCond τ.world.stored with
      | none =>
        rw [hcond] at hfailed
        cases hfailed
      | some cond =>
        rw [hcond] at hfailed
        have hv : dbView τ.world.stored = some (cond.status, cond.reason) :=
          Option.map_eq_some_iff.mpr ⟨cond, hcond, rfl⟩
        have hr : cond.reason = .createFailed := of_decide_eq_true hfailed
        have hst : cond.status = .false := hinv.sound.base.failed _ hv hr
        rw [hv, hr, hst]
    have hstuck : ∀ σ e τ, Stuck σ.world.stored → True ∧ KeepsSingle e →
        System.step σ e = some τ → Stuck τ.world.stored := fun _ _ _ hs hk h => stuck_step hs hk.2 h
    have hend : Stuck υ.world.stored :=
      invariant (I := fun σ => Stuck σ.world.stored) hstuck ⟨hinv.sound.base.calm, hview⟩
        (hafter τ hτ) hυ
    rw [hend.view, hview]

end Runs

section Sample

/-- The instance before its first reconcile. -/
def freshWorld : World :=
  { createdWorld none with
    stored := { createdInstance none with status := (Instance.blank "db" "mydb").status }
    sts := none
    pvcs := [] }

def freshSystem : System := ⟨freshWorld, ⟨false, none⟩, []⟩

theorem fresh_freshSystem : Fresh freshSystem where
  single := ⟨rfl, by decide⟩
  conditions := rfl
  operation := rfl
  provisioned := by rintro ⟨⟩

/-- A reconcile in which everybody answers. -/
def served : ProvisionEvent := .reconcile (calm 0) ⟨true, true, true, true, .ok, .ok, true, .ok⟩

/-- A seeded instance up to the bootstrap, its end and two more reconciles. -/
def seededRun (e : BootstrapEnd) : List ProvisionEvent :=
  [served, served, served, .endBootstrap e, served] ++ [served]

theorem keepsSingle_seededRun (e : BootstrapEnd) : ∀ f ∈ seededRun e, KeepsSingle f := by
  intro f hf
  simp only [seededRun, List.cons_append, List.nil_append, List.mem_cons, List.not_mem_nil,
    or_false] at hf
  rcases hf with rfl | rfl | rfl | rfl | rfl | rfl <;> trivial

/-- A bootstrap that succeeds makes the database ready; one that fails is final. -/
theorem seeded_instance_ready_or_failed :
    (∃ τ, run System.step freshSystem (seededRun .succeeded) = some τ ∧
      conditionStatusEquals (dbInstanceCond τ.world.stored) .true = true ∧ Earned τ.history) ∧
    ∃ τ υ, run System.step freshSystem [served, served, served, .endBootstrap .failed, served] =
        some τ ∧ conditionReasonEquals (dbInstanceCond τ.world.stored) .createFailed = true ∧
      run System.step τ [served] = some υ ∧ dbView υ.world.stored = dbView τ.world.stored := by
  constructor
  · have hrun : ∃ τ, run System.step freshSystem (seededRun .succeeded) = some τ ∧
        conditionStatusEquals (dbInstanceCond τ.world.stored) .true = true :=
      ⟨_, rfl, by decide +kernel⟩
    obtain ⟨τ, hτ, hready⟩ := hrun
    have hall := (database_ready_earned freshSystem (seededRun .succeeded) fresh_freshSystem
      (keepsSingle_seededRun _)).1
    exact ⟨τ, hτ, hready, hall.last hτ hready⟩
  · have hrun : ∃ τ, run System.step freshSystem
        [served, served, served, .endBootstrap .failed, served] = some τ ∧
          conditionReasonEquals (dbInstanceCond τ.world.stored) .createFailed = true :=
      ⟨_, rfl, by decide +kernel⟩
    obtain ⟨τ, hτ, hfailed⟩ := hrun
    have hstays := (database_ready_earned freshSystem (seededRun .failed) fresh_freshSystem
      (keepsSingle_seededRun _)).2
    exact ⟨τ, _, hτ, hfailed, rfl, hstays _ [served] τ _ rfl hτ hfailed rfl⟩

end Sample

end ElCarro.Instance.Provision
