import ElCarro.Instance.Midway

/-! # The images that are recorded after patching

Every reconcile merges the images anew from the defaults, the Config and the spec. The
machine hands them first to the monitoring deployment, then to the StatefulSet, and at
the end records those of its last reconcile as the active ones. These are the images
that were applied if the merged images are the same at the three places.
-/

namespace ElCarro.Instance.Reconciler

open GoTime K8s Api Flow

section Property

variable (initial : Option StatefulSet)

/-- The StatefulSet that was applied last, which is the initial one before any act. -/
def lastApplied : List Act → Option StatefulSet
  | [] => initial
  | .applySts _ _ sts _ :: _ => some sts
  | .beginBackup _ _ :: older => lastApplied older
  | .takeSnapshot _ :: older => lastApplied older
  | .seeReady _ :: older => lastApplied older
  | .deleteSts _ :: older => lastApplied older
  | .deletePvc _ _ _ :: older => lastApplied older

/-- The same images for the containers of a StatefulSet. -/
def SameContainers (images images' : StrMap) : Prop :=
  ∀ name ∈ statefulSetImages, imageAt (some images) name = imageAt (some images') name

instance (images images' : StrMap) : Decidable (SameContainers images images') :=
  inferInstanceAs (Decidable (∀ _ ∈ _, _))

/-- The StatefulSet that was applied last has these images in its containers. -/
def LastHas (acts : List Act) (images : StrMap) : Prop :=
  ∃ sts ∈ lastApplied initial acts, SameContainers images sts.images

theorem lastHas_iff {acts : List Act} {images : StrMap} : LastHas initial acts images ↔
    ((lastApplied initial acts).any fun sts => SameContainers images sts.images) = true := by
  rw [Option.any_eq_true]
  simp only [decide_eq_true_eq]
  rfl

instance (acts : List Act) (images : StrMap) : Decidable (LastHas initial acts images) :=
  decidable_of_iff _ (lastHas_iff initial).symm

/-- The images that a reconcile of the instance merges. -/
def mergedImages (env : Env) (inst : Instance) : Option StrMap :=
  env.config.toOption.bind fun config => (overrideDefaultImages env config inst).toOption

theorem mem_mergedImages {env : Env} {inst : Instance} {config : Option Config} {map : StrMap}
    (hconfig : env.config = .ok config) (hmap : overrideDefaultImages env config inst = .ok map) :
    map ∈ mergedImages env inst := by
  unfold mergedImages
  rw [hconfig]
  simp only [Except.toOption, Option.bind_some, hmap]
  rfl

/-- Reasons after the StatefulSet was applied or skipped. -/
def settledReason : Reason → Bool
  | .statefulSetPatchingInProgress | .statefulSetPatchingComplete | .databasePatchingInProgress
  | .databasePatchingComplete => true
  | _ => false

/-- The active images of an instance that has just been patched are those of the monitoring
deployment and of the containers of the StatefulSet, as they were last applied. -/
def Recorded (w : World) (inst : Instance) : Prop :=
  ∃ deployed ∈ w.monitoring, inst.status.activeImages.getD ∅ = deployed.1 ∧
    LastHas initial w.acts deployed.1

instance (w : World) (inst : Instance) : Decidable (Recorded initial w inst) :=
  inferInstanceAs (Decidable (∃ _ ∈ _, _))

/-- At the end of patching the images are recorded that were applied. -/
def Records (w : World) (_ : Event) (w' : World) : Prop :=
  conditionReasonEquals (readyCond w.stored) .databasePatchingComplete →
    readyView w'.stored = some (.true, .createComplete) → Recorded initial w' w'.stored

instance (w w' : World) (e : Event) : Decidable (Records initial w e w') :=
  inferInstanceAs (Decidable (_ → _))

/-- The merged images are those of the monitoring deployment when the StatefulSet is patched and
when the images are recorded; a StatefulSet that is not patched has them already, and so it does
when a stop applies the monitoring deployment once more. -/
def SeesDeployed (w : World) : Event → Prop
  | .reconcile env =>
    ∀ images ∈ mergedImages env w.stored,
      (conditionReasonEquals (readyCond w.stored) .deploymentSetPatchingComplete →
        ∀ deployed ∈ w.monitoring,
          if isStatefulSetPatchingRequired w.stored.status.activeImages w.stored.spec.images then
            SameContainers deployed.1 images
          else LastHas initial w.acts deployed.1) ∧
      (isStopped w.stored → (∃ cond ∈ readyCond w.stored, settledReason cond.reason) →
        LastHas initial w.acts images) ∧
      (conditionReasonEquals (readyCond w.stored) .databasePatchingComplete →
        ¬ isStopped w.stored → w.monitoring.map (·.1) = some images)
  | _ => True

instance (w : World) : (e : Event) → Decidable (SeesDeployed initial w e)
  | .reconcile _ => inferInstanceAs (Decidable (∀ _ ∈ _, _))
  | .editSpec _ | .deleteInstance _ | .writeStatus _ _ _ | .addSnapshot _ _ | .setSnapshotStatus _ _
  | .removeSnapshot _ | .stsGone | .addPvc _ | .pvcGone _ => isTrue trivial

end Property

section Acts

variable {initial : Option StatefulSet} {s t : Session} {images : StrMap} {acts : List Act}

/-- What the monitoring deployment has, the StatefulSet that was applied last has as well. -/
def Agree (initial : Option StatefulSet) (w : World) : Prop :=
  ∀ deployed ∈ w.monitoring, LastHas initial w.acts deployed.1

theorem Agree.congr {w w' : World} (h : Agree initial w) (hacts : w'.acts = w.acts)
    (hmon : w'.monitoring = w.monitoring ∨ w'.monitoring = none) : Agree initial w' := by
  intro deployed hdeployed
  rw [hacts]
  rcases hmon with hmon | hmon
  · rw [hmon] at hdeployed
    exact h deployed hdeployed
  · rw [hmon] at hdeployed
    cases hdeployed

/-- No attempt is under way, or it is at a reason, where the two agree once that is settled. -/
def Steady (initial : Option StatefulSet) (w : World) (inst : Instance) : Prop :=
  NotMid inst ∨ ∃ r, At r inst ∧ (settledReason r = true → Agree initial w)

/-- The containers of a StatefulSet that patching applies have the merged images. -/
theorem wp_startStatefulSetPatching (initial : Option StatefulSet) {env : Env} {sp : StsParams} :
    wp (startStatefulSetPatching env sp) (fun ok t => t.mem = s.mem ∧ (ok = true →
      ∃ sts, sts.images = sp.images ∧ lastApplied initial t.acts = some sts)) (fun _ _ => False) s := by
  simp only [startStatefulSetPatching, wp_bind, wp_get]
  split
  · exact ⟨rfl, fun h => by cases h⟩
  · have hdelete : wp (deleteSts env .patching .patchingDeleteSts) (fun _ t => t.mem = s.mem)
        (fun _ _ => False) s := by
      exact wp_effect rfl rfl rfl
    apply wp_bind.mpr (hdelete.mono _ fun _ _ h => h)
    intro deleted t ht
    split
    · exact ⟨ht, fun h => by cases h⟩
    · cases hsts : constructSTSandPVCs sp with
      | error _ => exact ⟨ht, fun h => by cases h⟩
      | ok sts =>
        obtain ⟨-, -, himages, -⟩ := constructSTSandPVCs_ok hsts
        exact wp_effect ⟨ht, fun h => by cases h⟩ ⟨ht, fun h => by cases h⟩
          ⟨ht, fun _ => ⟨sts, himages, rfl⟩⟩

/-- The state that patches the StatefulSet goes on without it or with the merged images. -/
theorem settled_patchStatefulSet (initial : Option StatefulSet) {env : Env} {sp : StsParams}
    (hview : readyView s.mem = some (.false, .deploymentSetPatchingComplete)) :
    wp (patchStatefulSet env sp) (fun _ _ => False) (fun _ t => ∀ r, settledReason r = true →
      readyView t.mem = some (.false, r) →
      isStatefulSetPatchingRequired s.mem.status.activeImages s.mem.spec.images = false ∧
        t.acts = s.acts ∨
      isStatefulSetPatchingRequired s.mem.status.activeImages s.mem.spec.images = true ∧
        ∃ sts, sts.images = sp.images ∧ lastApplied initial t.acts = some sts) s := by
  simp only [patchStatefulSet, wp_bind, wp_get, wp_when]
  refine ⟨fun _ => ?_, fun _ => ⟨fun hskip => ?_, fun hrequired => ?_⟩⟩
  · intro r hr hr'
    rw [hview] at hr'
    cases hr'
    cases hr
  · intro r _ _
    exact .inl ⟨by simpa using hskip, rfl⟩
  · apply (wp_startStatefulSetPatching initial).mono _ fun _ _ h => h.elim
    rintro ok t ⟨hmem, hok⟩
    split
    · next h =>
      intro r _ _
      exact .inr ⟨by simpa using hrequired, hok h⟩
    · intro r hr hr'
      have hfailed : readyView (withConditions t.mem (upsert env.now .ready .false
          .statefulSetPatchingFailure "" t.mem.status.conditions)) = some (.false, r) := hr'
      rw [readyView_upsert_ready] at hfailed
      cases hfailed
      cases hr

end Acts

section Reconcile

variable {initial : Option StatefulSet} {env : Env} {s t u : Session} {w : World} {r : Reason}
  {images : StrMap}

/-- What a reconcile in the middle of an attempt can end with. -/
structure Carries (initial : Option StatefulSet) (r : Reason) (t : Session) : Prop where
  stored : Steady initial t.toWorld t.stored
  mem : Steady initial t.toWorld t.mem
  unready : r = .databasePatchingComplete → readyView t.stored ≠ some (.true, .createComplete)
  recorded : r = .databasePatchingComplete → readyView t.mem = some (.true, .createComplete) →
    Recorded initial t.toWorld t.mem

/-- The Ready condition is False. -/
theorem At.unready {inst : Instance} (h : At r inst) :
    readyView inst ≠ some (.true, .createComplete) := by
  rw [h.view]
  intro hv
  cases hv

theorem NotMid.not_complete {inst : Instance} (h : NotMid inst) :
    ¬ conditionReasonEquals (readyCond inst) .databasePatchingComplete = true := by
  intro hcomplete
  obtain ⟨cond, hcond, hreason⟩ := (Option.any_eq_true _ _).mp hcomplete
  have hmid := h _ (readyView_eq_some.mpr ⟨cond, hcond, rfl⟩)
  rw [of_decide_eq_true hreason] at hmid
  cases hmid

theorem At.reason_of_equals {inst : Instance} {reason : Reason} (h : At r inst)
    (heq : conditionReasonEquals (readyCond inst) reason = true) : r = reason := by
  obtain ⟨cond, hcond, hreason⟩ := (Option.any_eq_true _ _).mp heq
  obtain ⟨cond', hcond', hv⟩ := readyView_eq_some.mp h.view
  obtain rfl := Option.some.inj (hcond.symm.trans hcond')
  rw [← (Prod.mk.inj hv).2]
  exact of_decide_eq_true hreason

theorem carries_of_status (h : At r s.stored) (hstored : t.stored.status = s.stored.status)
    (hmem : t.mem.status = s.stored.status) (hagree : settledReason r = true → Agree initial t.toWorld) :
    Carries initial r t := by
  have hstored : At r t.stored := h.of_status hstored
  have hmem : At r t.mem := h.of_status hmem
  refine ⟨.inr ⟨r, hstored, hagree⟩, .inr ⟨r, hmem, hagree⟩, fun _ => hstored.unready, ?_⟩
  intro _ hv
  exact absurd hv hmem.unready

/-- A state that goes on to a reason that is settled has to bring the agreement with it. -/
theorem carries_of_going {allowed : Act → Prop} {deploys : Prop} (h : At r t.mem)
    (hstored : At r t.stored) (hg : Going allowed deploys t u)
    (hsame : settledReason r = true → Agree initial u.toWorld)
    (hnext : ∀ r', readyView u.mem = some (.false, r') → settledReason r' = true →
      Agree initial u.toWorld) : Carries initial r u := by
  obtain ⟨conditions, hmem⟩ := hg.mem
  have hat : ∀ r', readyView u.mem = some (.false, r') → midReason r' = true → At r' u.mem := by
    intro r' hview hmid
    refine ⟨hview, hmid, ?_, ?_⟩
    · rw [hg.db]
      exact h.db
    · rw [hmem]
      exact h.machine
  have hview : ∃ r', readyView u.mem = some (.false, r') := by
    rcases hg.view with hv | hv
    · exact ⟨r, hv.trans h.view⟩
    · exact hv
  obtain ⟨r', hview⟩ := hview
  refine ⟨?_, ?_, ?_, ?_⟩
  · rw [hg.stored]
    exact .inr ⟨r, hstored, hsame⟩
  · by_cases hmid : midReason r' = true
    · exact .inr ⟨r', hat r' hview hmid, hnext r' hview⟩
    · exact .inl (notMid_of_view hview (Bool.eq_false_iff.mpr hmid))
  · intro _
    rw [hg.stored]
    exact hstored.unready
  · intro _ hv
    rw [hview] at hv
    cases hv

/-- The reasons that a state before the StatefulSet leads to are not settled. -/
theorem settledReason_of_follows (h : settledReason r = false)
    (hr : r ≠ .deploymentSetPatchingComplete) : ∀ r' ∈ follows r, settledReason r' = false := by
  revert h hr
  cases r <;> decide

theorem startReason_of_midReason (h : midReason r = true) : startReason r = false := by
  revert h
  cases r <;> decide

theorem not_settled_of_patchStep {disks : List DiskSpec} (h : At r t.mem)
    (hsettled : settledReason r = false) (hr : r ≠ .deploymentSetPatchingComplete)
    (hstep : PatchStep disks r t u) : ∀ r', readyView u.mem = some (.false, r') →
      settledReason r' = false := by
  intro r' hview
  have hsame : readyView u.mem = readyView t.mem → settledReason r' = false := by
    intro heq
    rw [heq, h.view] at hview
    cases hview
    exact hsettled
  cases hstep.move with
  | stay heq _ _ => exact hsame heq
  | next hnext hnew _ _ _ =>
    rw [hnew] at hview
    cases hview
    exact settledReason_of_follows hsettled hr _ hnext
  | remove _ _ hmem _ _ => exact hsame (by rw [hmem])
  | begin hstart _ _ _ =>
    rw [startReason_of_midReason h.mid] at hstart
    cases hstart
  | check _ _ _ hnew =>
    rcases hnew with heq | hnew | ⟨hnew, -⟩
    · exact hsame heq
    · rw [hnew] at hview
      cases hview
      rfl
    · rw [hnew] at hview
      cases hview
      rfl

/-- What the machine has to find at the places where it uses the merged images. -/
structure Seen (initial : Option StatefulSet) (images : StrMap) (r : Reason) (t : Session) : Prop where
  applied : r = .deploymentSetPatchingComplete → ∀ deployed ∈ t.monitoring,
    if isStatefulSetPatchingRequired t.mem.status.activeImages t.mem.spec.images then
      SameContainers deployed.1 images
    else LastHas initial t.acts deployed.1
  recorded : r = .databasePatchingComplete → t.monitoring.map (·.1) = some images

/-- Before the StatefulSet there is nothing to agree on yet. -/
theorem carries_early {sp : StsParams} {timeout : Duration} {cond : Condition}
    (h : At cond.reason t.mem) (hstored : At cond.reason t.stored)
    (hsettled : settledReason cond.reason = false)
    (hr : cond.reason ≠ .deploymentSetPatchingComplete) :
    wp (patchingState env sp timeout cond) (fun _ _ => True)
      (fun _ => Carries initial cond.reason) t := by
  have hgoing : wp (patchingState env sp timeout cond) (fun _ _ => True)
      (fun _ u => Going (fun _ => True) True t u ∨ Ended (fun _ => True) t u) t :=
    going_patchingState h.mid (fun _ _ => trivial) fun _ _ _ _ => trivial
  have hnever : settledReason cond.reason = true → False := by
    intro h'
    rw [hsettled] at h'
    cases h'
  apply (hgoing.and patchStep_patchingState).mono fun _ _ _ => trivial
  rintro _ u ⟨hg | ⟨heq, ⟨reason, hview, hmid⟩, -⟩, hstep⟩
  · apply carries_of_going h hstored hg fun h' => (hnever h').elim
    intro r' hview hr'
    rw [not_settled_of_patchStep h hsettled hr hstep r' hview] at hr'
    cases hr'
  · have hdone : cond.reason = .databasePatchingComplete → False := by
      intro heq
      exact hnever (by rw [heq]; rfl)
    rw [← heq] at hstored
    refine ⟨.inr ⟨_, hstored, fun h' => (hnever h').elim⟩, .inl (notMid_of_view hview hmid), ?_, ?_⟩
    · exact fun h' => (hdone h').elim
    · exact fun h' => (hdone h').elim

/-- A state that applies nothing keeps the agreement. -/
theorem carries_still {p : P Unit} (hp : Within (Going (fun _ => False) False) p) (h : At r t.mem)
    (hstored : At r t.stored) (hagree : Agree initial t.toWorld) :
    wp p (fun _ _ => True) (fun _ => Carries initial r) t := by
  apply (hp t).mono fun _ _ _ => trivial
  intro _ u hg
  obtain ⟨new, hacts, hnew⟩ := hg.acts
  obtain rfl : new = [] := List.eq_nil_iff_forall_not_mem.mpr hnew
  have hu : Agree initial u.toWorld := hagree.congr hacts (.inl (hg.monitoring.resolve_right id))
  exact carries_of_going h hstored hg (fun _ => hu) fun _ _ _ => hu

theorem carries_patchStatefulSet {sp : StsParams} (h : At .deploymentSetPatchingComplete t.mem)
    (hstored : At .deploymentSetPatchingComplete t.stored)
    (hseen : Seen initial sp.images .deploymentSetPatchingComplete t) :
    wp (patchStatefulSet env sp) (fun _ _ => True)
      (fun _ => Carries initial .deploymentSetPatchingComplete) t := by
  have hgoing : Within (Going (fun _ => True) False) (patchStatefulSet env sp) :=
    going_patchStatefulSet trivial fun _ _ _ _ => trivial
  apply ((hgoing t).and (settled_patchStatefulSet initial h.view)).mono fun _ _ _ => trivial
  rintro _ u ⟨hg, hsettled⟩
  apply carries_of_going h hstored hg fun h' => by cases h'
  intro r' hview hr' deployed hdeployed
  rw [hg.monitoring.resolve_right id] at hdeployed
  have happlied := hseen.applied rfl deployed hdeployed
  rcases hsettled r' hr' hview with ⟨hskip, hacts⟩ | ⟨hrequired, sts, himages, hlast⟩
  · rw [hskip] at happlied
    rw [hacts]
    exact happlied
  · rw [hrequired] at happlied
    refine ⟨sts, hlast, ?_⟩
    rw [himages]
    exact happlied

theorem carries_completePatching {sp : StsParams} (hstored : At .databasePatchingComplete t.stored)
    (hagree : Agree initial t.toWorld) (hseen : Seen initial sp.images .databasePatchingComplete t) :
    wp (completePatching env sp) (fun _ _ => True)
      (fun _ => Carries initial .databasePatchingComplete) t := by
  obtain ⟨deployed, hdeployed, himages⟩ := Option.map_eq_some_iff.mp (hseen.recorded rfl)
  refine ⟨.inr ⟨_, hstored, fun _ => hagree⟩, .inl (notMid_of_view readyView_upsert_ready rfl), ?_, ?_⟩
  · exact fun _ => hstored.unready
  · intro _ _
    refine ⟨deployed, hdeployed, ?_, hagree deployed hdeployed⟩
    rw [himages]
    exact cloneMap_getD

theorem carries_patchingState {sp : StsParams} {timeout : Duration} {cond : Condition}
    (h : At cond.reason t.mem) (hstored : At cond.reason t.stored)
    (hagree : settledReason cond.reason = true → Agree initial t.toWorld)
    (hseen : Seen initial sp.images cond.reason t) :
    wp (patchingState env sp timeout cond) (fun _ _ => True)
      (fun _ => Carries initial cond.reason) t := by
  by_cases hr : cond.reason = .deploymentSetPatchingComplete
  · have hstate : patchingState env sp timeout cond = patchStatefulSet env sp := by
      unfold patchingState
      rw [hr]
    rw [hstate]
    rw [hr] at h hstored hseen ⊢
    exact carries_patchStatefulSet h hstored hseen
  by_cases hsettled : settledReason cond.reason = true
  · have hagree := hagree hsettled
    unfold patchingState
    split
    case h_10 => exact carries_still going_awaitStatefulSet h hstored hagree
    case h_11 => exact carries_still going_patchDatabase h hstored hagree
    case h_12 => exact carries_still going_awaitDatabasePatching h hstored hagree
    case h_13 heq =>
      rw [heq] at hstored hseen ⊢
      exact carries_completePatching hstored hagree hseen
    case h_17 => trivial
    all_goals
      next heq =>
      rw [heq] at hsettled
      cases hsettled
  · exact carries_early h hstored (Bool.eq_false_iff.mpr hsettled) hr

theorem carries_body (hs : s.mem = s.stored) (h : At r s.stored)
    (hagree : settledReason r = true → Agree initial s.toWorld)
    (hok : SeesDeployed initial s.toWorld (.reconcile env)) :
    wp (body env) (fun _ => Carries initial r) (fun _ => Carries initial r) s := by
  obtain ⟨cond, hcond, hv⟩ := readyView_eq_some.mp h.view
  obtain ⟨-, hreason⟩ := Prod.mk.inj hv
  apply wp_body_mid hs h
  · intro t hk
    have hstatus : t.mem.status = s.stored.status := by
      rcases hk.mem with hm | hm
      · exact hm
      · rw [hm, hs]
    apply carries_of_status h hk.stored hstatus
    intro hr
    exact (hagree hr).congr hk.acts (hk.monitoring.imp id fun hm => hm.2)
  · intro hstopped t hstop hmem
    have ht : settledReason r = true → Agree initial t.toWorld := by
      intro hr
      rcases hstop.monitoring with hm | ⟨config, map, hconfig, hmap, hm⟩
      · exact (hagree hr).congr hstop.acts (.inl hm)
      · intro deployed hdeployed
        rw [hm] at hdeployed
        cases hdeployed
        rw [hstop.acts]
        refine (hok map (mem_mergedImages hconfig hmap)).2.1 hstopped ⟨cond, hcond, ?_⟩
        rw [hreason]
        exact hr
    have hmem : At r t.mem := by
      rw [hmem, hs]
      exact h
    refine ⟨?_, .inr ⟨r, hmem, ht⟩, fun _ => ?_, fun _ hv => absurd hv hmem.unready⟩
    · rcases hstop.stored with hstatus | ⟨v, hv, hreason⟩
      · exact .inr ⟨r, h.of_status hstatus, ht⟩
      · apply Or.inl
        exact notMid_of_view hv (midReason_of_stopReason hreason)
    · rcases hstop.stored with hstatus | ⟨v, hv, hreason⟩
      · exact (h.of_status hstatus).unready
      · rw [hv]
        rintro ⟨⟩
        cases hreason
  · intro t config map timeout cond' hres _ _
    obtain ⟨happlied, -, hrecorded⟩ := hok map (mem_mergedImages hres.loaded hres.merged)
    have hequals : ∀ reason, r = reason →
        conditionReasonEquals (readyCond s.stored) reason = true := by
      intro reason hr
      rw [hcond]
      simp [conditionReasonEquals, hreason, hr]
    have hmon : t.monitoring = s.monitoring := hres.kept.monitoring.resolve_right fun h => h.1
    have hagree' : settledReason r = true → Agree initial t.toWorld :=
      fun hr => (hagree hr).congr hres.kept.acts (.inl hmon)
    have hseen : Seen initial map r t := by
      constructor
      · intro hr
        rw [hmon, hres.status, hres.spec, hres.kept.acts]
        exact happlied (hequals _ hr)
      · intro hr
        rw [hmon]
        exact hrecorded (hequals _ hr) (by rw [hres.running]; decide)
    have hstored : At r t.stored := h.of_status hres.kept.stored
    have hmem : At r t.mem := h.of_status hres.status
    rw [← hres.reason] at hstored hmem hagree' hseen ⊢
    exact carries_patchingState hmem hstored hagree' hseen

theorem steady_of_begun {acts : List Act} (h : Begun acts t) :
    Steady initial t.toWorld t.stored ∧ Steady initial t.toWorld t.mem := by
  refine ⟨.inl h.stored, ?_⟩
  rcases h.mem with hmem | ⟨hview, hmem⟩
  · exact .inl hmem
  · exact .inr ⟨_, ⟨hview, rfl, hmem.db, hmem.machine⟩, fun h => by cases h⟩

theorem Steady.of_status {w w' : World} {inst inst' : Instance} (h : Steady initial w inst)
    (hstatus : inst'.status = inst.status) (hacts : w'.acts = w.acts)
    (hmon : w'.monitoring = w.monitoring) : Steady initial w' inst' := by
  rcases h with h | ⟨r, hat, hagree⟩
  · apply Or.inl
    apply h.congr
    simp only [readyView, readyCond, hstatus]
  · exact .inr ⟨r, hat.of_status hstatus, fun hr => (hagree hr).congr hacts (.inl hmon)⟩

/-- A reconcile keeps what it found steady, and records what was applied. -/
theorem steady_reconcile (h : Steady initial w w.stored)
    (hok : SeesDeployed initial w (.reconcile env)) :
    Steady initial (reconcile env w) (reconcile env w).stored ∧
      Records initial w (.reconcile env) (reconcile env w) := by
  let J (v : World) : Prop := Steady initial v v.stored ∧ Records initial w (.reconcile env) v
  have hend : ∀ {t : Session} {v : World}, Deferred t v → Steady initial t.toWorld t.stored →
      Steady initial t.toWorld t.mem → Steady initial v v.stored := by
    intro t v hv hstored hmem
    rcases hv.stored with heq | heq
    · exact hstored.of_status (by rw [heq]) hv.acts hv.monitoring
    · exact hmem.of_status (by rw [heq]) hv.acts hv.monitoring
  rcases h with hn | ⟨r, hat, hagree⟩
  · have hrecords : ∀ v, Records initial w (.reconcile env) v :=
      fun _ hcomplete => absurd hcomplete hn.not_complete
    apply reconcile_of_body (J := J) ⟨.inl hn, hrecords w⟩ (begun_body rfl hn)
    intro t v ht hv
    obtain ⟨hstored, hmem⟩ := steady_of_begun ht
    exact ⟨hend hv hstored hmem, hrecords v⟩
  · apply reconcile_of_body (J := J) _ (carries_body rfl hat hagree hok)
    · intro t v ht hv
      refine ⟨hend hv ht.stored ht.mem, ?_⟩
      intro hcomplete hview
      obtain rfl : r = .databasePatchingComplete := hat.reason_of_equals hcomplete
      rcases hv.stored with heq | heq
      · rw [heq] at hview
        exact absurd hview (ht.unready rfl)
      · have hmem : readyView t.mem = some (.true, .createComplete) := by
          rw [heq] at hview
          exact hview
        obtain ⟨deployed, hdeployed, hactive, hlast⟩ := ht.recorded rfl hmem
        refine ⟨deployed, ?_, ?_, ?_⟩
        · rw [hv.monitoring]
          exact hdeployed
        · rw [heq]
          exact hactive
        · rw [hv.acts]
          exact hlast
    · refine ⟨.inr ⟨r, hat, hagree⟩, fun _ hview => absurd hview hat.unready⟩

end Reconcile

section Runs

variable {initial : Option StatefulSet} {w w' : World} {e : Event}

theorem steady_step (h : Steady initial w w.stored) (hok : SeesDeployed initial w e)
    (hstep : step w e = some w') : Steady initial w' w'.stored ∧ Records initial w e w' := by
  obtain ⟨env, rfl, rfl⟩ | hext := step_cases hstep
  · exact steady_reconcile h hok
  · rcases h with h | ⟨r, hat, hagree⟩
    · refine ⟨.inl (h.congr hext.readyView), ?_⟩
      intro hcomplete _
      exact absurd hcomplete (h.not_complete)
    · have hat' := hat.external hext
      refine ⟨.inr ⟨r, hat', fun hr => (hagree hr).congr hext.acts (.inl hext.monitoring)⟩, ?_⟩
      intro _ hview
      exact absurd hview hat'.unready

/-- In a run whose reconciles see the images that were deployed, the end of patching records the
images that were applied. -/
theorem records_of_seesDeployed (w : World) (events : List Event)
    (hmid : midway w.stored = false) (hm : Runs.Meets step (SeesDeployed w.sts) w events) :
    Runs.EachStep step (Records w.sts) w events := by
  apply Runs.eachStep_of_invariant (I := fun v : World => Steady w.sts v v.stored) _ _
    (.inl (notMid_of_not_midway hmid)) hm
  · intro v e v' hv hok hstep
    exact (steady_step hv hok hstep).1
  · intro v e v' hv hok hstep
    exact (steady_step hv hok hstep).2

end Runs

section Sample

/-- The new image is patched, up to the reconcile that records it. -/
def patchedDatabase : List Event :=
  requestImage (some [dataDisk]) :: .reconcile (calm 1000) ::
    .setSnapshotStatus patchingSnapshot ⟨none, some true⟩ ::
      List.replicate 6 (.reconcile (calm 2000))

/-- The user asks for yet another image. -/
def requestAnother : Event :=
  .editSpec { (createdInstance (some [dataDisk])).spec with images := some (serviceImage "newer") }

/-- An image is recorded that neither the StatefulSet nor the deployment ever had. -/
theorem late_edit_recorded :
    midway (createdWorld (some [dataDisk])).stored = false ∧
      ∃ w, Runs.run step (createdWorld (some [dataDisk])) (patchedDatabase ++ [requestAnother]) =
        some w ∧ ∃ w', step w (.reconcile (calm 3000)) = some w' ∧
          ¬ Records (createdWorld (some [dataDisk])).sts w (.reconcile (calm 3000)) w' := by
  refine ⟨rfl, ?_⟩
  have hbad : ((Runs.run step (createdWorld (some [dataDisk]))
      (patchedDatabase ++ [requestAnother])).any fun w =>
        ¬ Records (createdWorld (some [dataDisk])).sts w (.reconcile (calm 3000))
          (reconcile (calm 3000) w)) = true := by
    decide +kernel
  obtain ⟨w, hw, hn⟩ := (Option.any_eq_true _ _).mp hbad
  exact ⟨w, hw, _, rfl, of_decide_eq_true hn⟩

/-- Without the edit the new image is recorded, and only then does the user ask for another. -/
theorem patched_image_recorded :
    Runs.Meets step (SeesDeployed (createdWorld (some [dataDisk])).sts)
        (createdWorld (some [dataDisk]))
        (patchedDatabase ++ [.reconcile (calm 2000), requestAnother, .reconcile (calm 3000)]) ∧
      Runs.EachStep step (Records (createdWorld (some [dataDisk])).sts)
        (createdWorld (some [dataDisk]))
        (patchedDatabase ++ [.reconcile (calm 2000), requestAnother, .reconcile (calm 3000)]) := by
  have hm : Runs.Meets step (SeesDeployed (createdWorld (some [dataDisk])).sts)
      (createdWorld (some [dataDisk]))
      (patchedDatabase ++ [.reconcile (calm 2000), requestAnother, .reconcile (calm 3000)]) := by
    decide +kernel
  exact ⟨hm, records_of_seesDeployed _ _ rfl hm⟩

end Sample

end ElCarro.Instance.Reconciler
