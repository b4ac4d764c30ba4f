import ElCarro.Backup.Turns
import ElCarro.Instance.BackupID

/-! # Backups that are removed

A Backup that is ready gets its finalizer in a reconcile of its own. From then on the
API server keeps the object until the controller has deleted the data; before that, a
deletion takes the object and leaves the data behind.
-/

namespace ElCarro.Backups.Removal

open GoTime K8s Api Flow
open Instance.Reconciler (World Outcome gone)

section System

/-- The life of one Backup. -/
structure Life where
  world : World
  stored : Option Backup
  /-- The Backup has been recorded as ready. -/
  ready : Bool

inductive Event where
  | reconcile (env : Env)
  /-- A reconcile with a copy that somebody has changed since, or removed. -/
  | lateReconcile (env : Env) (copy : Backup)
  | delete (now : Time)
  /-- Anything that happens to the instance and its objects. -/
  | objects (w : World)

/-- The instance of the Backup is there. -/
def InstanceExists (w : World) (b : Backup) : Prop :=
  Names w b.ns b.instName ∧ gone w.stored = false

instance (w : World) (b : Backup) : Decidable (InstanceExists w b) :=
  inferInstanceAs (Decidable (_ ∧ _))

/-- Take over what a reconcile leaves behind. -/
def Life.after (s : Life) (t : Session) : Life where
  world := t.world
  stored := t.stored
  ready := s.ready || t.stored.any (·.state = some .backupReady)

/-- An object without finalizers is removed at once. -/
def deleteObject (now : Time) (b : Backup) : Option Backup :=
  if b.deletionTimestamp.isSome then some b
  else remaining { b with deletionTimestamp := some now }

/-- That the instance is not found says that there is none. -/
def step (s : Life) : Event → Option Life
  | .reconcile env =>
    match s.stored with
    | none => some s
    | some b =>
      if ¬ reached env .getBackup then some s
      else if env.call .getInstance = .notFound ∧ InstanceExists s.world b then none
      else some (s.after (body env ⟨s.world, some b, 0, b, 0⟩).state)
  | .lateReconcile env copy =>
    some (s.after (body env ⟨s.world, s.stored, 1, copy, 0⟩).state)
  | .delete now => some { s with stored := s.stored.bind (deleteObject now) }
  | .objects w =>
    if w.stored.ns = s.world.stored.ns ∧ w.stored.name = s.world.stored.name then
      some { s with world := w }
    else none

end System

section Property

/-- The reconcile gets to the call that deletes the data, and that succeeds. -/
structure DeletesData (env : Env) (w : World) (b : Backup) : Prop where
  deleted : b.deletionTimestamp.isSome = true
  finalizer : b.hasFinalizer = true
  phase : b.status.phase = .deleting
  instance_read : (readInstance env w b).isSome = true
  succeeded : env.physicalDelete = true

/-- A Backup that was ready only goes in a reconcile that has deleted its data, or with its
instance. -/
def KeepsData (s : Life) (e : Event) (t : Life) : Prop :=
  ∀ b ∈ s.stored, s.ready = true → t.stored = none → InstanceExists s.world b →
    ∃ env, e = .reconcile env ∧ DeletesData env s.world b

/-- No deletion comes between the record that the Backup is ready and the finalizer. -/
def WaitsForFinalizer (s : Life) : Event → Prop
  | .delete _ => ∀ b ∈ s.stored, b.state = some .backupReady → b.hasFinalizer = true
  | _ => True

instance (s : Life) : (e : Event) → Decidable (WaitsForFinalizer s e)
  | .delete _ => inferInstanceAs (Decidable (∀ _ ∈ _, _))
  | .reconcile _ | .lateReconcile _ _ | .objects _ => isTrue trivial

/-- A physical Backup of the instance, to be taken; what has no finalizer is not being deleted. -/
structure Taken (w : World) (b : Backup) : Prop where
  names : Names w b.ns b.instName
  mode : b.mode = .unset
  physical : b.spec.type = .physical
  held : b.deletionTimestamp.isSome = true → b.hasFinalizer = true

end Property

section Steps

variable {env : Env} {s t : Life} {b c : Backup} {w : World}

/-- A Backup that was ready is so still, or has its finalizer. -/
structure Sound (s : Life) : Prop where
  taken : ∀ b ∈ s.stored, Taken s.world b
  ready : ∀ b ∈ s.stored, s.ready = true → b.hasFinalizer = true ∨ b.state = some .backupReady

/-- The instance keeps its name. -/
def SameNames (s t : Session) : Prop :=
  t.world.stored.ns = s.world.stored.ns ∧ t.world.stored.name = s.world.stored.name

instance : Std.Refl SameNames := ⟨fun _ => ⟨rfl, rfl⟩⟩

instance : IsTrans Session SameNames := ⟨fun _ _ _ h h' => ⟨h'.1.trans h.1, h'.2.trans h.2⟩⟩

theorem framed_sameNames : Framed env SameNames where
  mem _ _ := ⟨rfl, rfl⟩
  snapshots _ _ := ⟨rfl, rfl⟩
  backupID _ _ := ⟨rfl, rfl⟩
  write object c s := by
    apply written_write.mono _ fun _ _ h => h.elim
    intro _ t ht
    unfold SameNames
    rw [ht.world]
    exact ⟨rfl, rfl⟩

theorem Taken.of_same {w' : World} (h : Taken w b) (hns : w'.stored.ns = w.stored.ns)
    (hname : w'.stored.name = w.stored.name) : Taken w' b := by
  refine ⟨?_, h.mode, h.physical, h.held⟩
  unfold Names
  rw [hns, hname]
  exact h.names

theorem Taken.of_sameObject (hb : Taken w b) (h : SameObject b c) : Taken w c := by
  rw [h]
  exact ⟨hb.names, hb.mode, hb.physical, hb.held⟩

/-- What one reconcile of the Backup leaves behind. -/
theorem reconcile_cases {u : Session} (hb : Taken s.world b)
    (hready : s.ready = true → b.hasFinalizer = true ∨ b.state = some .backupReady)
    (hu : u = (body env ⟨s.world, some b, 0, b, 0⟩).state) :
    (∀ c ∈ u.stored, Taken s.world c ∧
      (s.ready = true ∨ c.state = some .backupReady →
        c.hasFinalizer = true ∨ c.state = some .backupReady)) ∧
      (u.stored = none → b.deletionTimestamp.isSome = true ∧ Unmade env s.world b none) := by
  subst hu
  have hbody := @body_reconciled env s.world b ⟨s.world, some b, 0, b, 0⟩ ⟨rfl, rfl, rfl⟩ hb.mode
  rcases hbody with
    ⟨-, ⟨c, hc, hsame, hturn⟩ | ⟨hstate, hc⟩⟩ | ⟨hdeleted, hunmade⟩
  · rw [hc]
    constructor
    · rintro _ ⟨⟩
      refine ⟨hb.of_sameObject hsame, ?_⟩
      rintro (hold | hnew)
      · rw [hsame.hasFinalizer]
        exact (hready hold).imp_right hturn.ready
      · exact .inr hnew
    · exact fun h => by cases h
  · rw [hc]
    constructor
    · rintro _ ⟨⟩
      exact ⟨⟨hb.names, hb.mode, hb.physical, fun _ => rfl⟩, fun _ => .inl rfl⟩
    · exact fun h => by cases h
  · generalize (body env ⟨s.world, some b, 0, b, 0⟩).state.stored = left at hunmade ⊢
    cases hunmade with
    | same =>
      constructor
      · rintro _ ⟨⟩
        exact ⟨hb, fun _ => .inl (hb.held hdeleted)⟩
      · exact fun h => by cases h
    | deleting hfinalizer hsame hstate =>
      rename_i c
      have hkept : c.hasFinalizer = true := by rw [hsame]; exact hfinalizer
      constructor
      · rintro _ ⟨⟩
        refine ⟨?_, fun _ => .inl hkept⟩
        rw [hsame]
        exact ⟨hb.names, hb.mode, hb.physical, fun _ => hfinalizer⟩
      · exact fun h => by cases h
    | orphan hnone hcall =>
      constructor
      · exact fun _ h => by cases h
      · exact fun _ => ⟨hdeleted, .orphan hnone hcall⟩
    | cleared hfinalizer hphase hinst hdelete =>
      constructor
      · exact fun _ h => by cases h
      · exact fun _ => ⟨hdeleted, .cleared hfinalizer hphase hinst hdelete⟩

/-- An instance that exists is only missed when it cannot be read. -/
theorem readInstance_of_exists (h : InstanceExists w b) :
    readInstance env w b = none → env.call .getInstance ≠ .ok := by
  unfold readInstance reached
  rw [if_pos h.1, h.2]
  intro hnone hok
  simp [hok] at hnone

theorem deleteObject_none {now : Time} (h : deleteObject now b = none) : b.hasFinalizer = false := by
  unfold deleteObject remaining at h
  split at h
  · cases h
  · by_contra hne
    simp [hne] at h

theorem deleteObject_some {now : Time} (h : deleteObject now b = some c) (hb : Taken w b) :
    Taken w c ∧ c.hasFinalizer = b.hasFinalizer ∧ c.state = b.state := by
  unfold deleteObject remaining at h
  split at h
  · obtain rfl := Option.some.inj h
    exact ⟨hb, rfl, rfl⟩
  · split at h
    · cases h
    · next hkept =>
      obtain rfl := Option.some.inj h
      exact ⟨⟨hb.names, hb.mode, hb.physical, fun _ => by simpa using hkept⟩, rfl, rfl⟩

theorem reconcile_step (hs : Sound s) (hstep : step s (.reconcile env) = some t) :
    Sound t ∧ KeepsData s (.reconcile env) t := by
  simp only [step] at hstep
  split at hstep
  · next hnone =>
    obtain rfl := Option.some.inj hstep
    refine ⟨hs, ?_⟩
    intro b hb
    rw [hnone] at hb
    cases hb
  · next b hb =>
    split at hstep
    · obtain rfl := Option.some.inj hstep
      refine ⟨hs, ?_⟩
      intro c hc _ hgone
      rw [hgone] at hc
      cases hc
    · split at hstep
      · cases hstep
      · next hfound =>
        obtain rfl := Option.some.inj hstep
        obtain ⟨hleft, hremoved⟩ := reconcile_cases (hs.taken b hb) (hs.ready b hb)
          (@rfl _ (body env ⟨s.world, some b, 0, b, 0⟩).state)
        have hnames : SameNames ⟨s.world, some b, 0, b, 0⟩
            (body env ⟨s.world, some b, 0, b, 0⟩).state := (framed_sameNames.body _).state
        constructor
        · constructor
          · intro c hc
            exact (hleft c hc).1.of_same hnames.1 hnames.2
          · intro c hc hready
            have hstored : (body env ⟨s.world, some b, 0, b, 0⟩).state.stored = some c := hc
            apply (hleft c hc).2
            simpa [Life.after, hstored] using hready
        · intro b' hb' _ hgone hexists
          obtain rfl : b = b' := Option.some.inj (hb.symm.trans hb')
          refine ⟨env, rfl, ?_⟩
          obtain ⟨hdeleted, hunmade⟩ := hremoved hgone
          cases hunmade with
          | orphan hnone hcall =>
            have hfailed := readInstance_of_exists hexists hnone
            exact absurd ⟨hcall.resolve_left hfailed, hexists⟩ hfound
          | cleared hfinalizer hphase hinst hdelete =>
            refine ⟨hdeleted, hfinalizer, hphase, hinst, hdelete ?_⟩
            rw [(hs.taken b hb).physical]
            decide

theorem removal_step (e : Event) (hs : Sound s) (hok : WaitsForFinalizer s e)
    (hstep : step s e = some t) : Sound t ∧ KeepsData s e t := by
  cases e with
  | reconcile env => exact reconcile_step hs hstep
  | lateReconcile env copy =>
    obtain rfl := Option.some.inj hstep
    have hstored : (body env ⟨s.world, s.stored, 1, copy, 0⟩).state.stored = s.stored :=
      stored_of_overtaken Nat.zero_ne_one
    have hnames : SameNames ⟨s.world, s.stored, 1, copy, 0⟩
        (body env ⟨s.world, s.stored, 1, copy, 0⟩).state := (framed_sameNames.body _).state
    constructor
    · constructor
      · intro b hb
        rw [Life.after, hstored] at hb
        exact (hs.taken b hb).of_same hnames.1 hnames.2
      · intro b hb hready
        rw [Life.after, hstored] at hb
        simp only [Life.after, hstored, Bool.or_eq_true] at hready
        rcases hready with hready | hready
        · exact hs.ready b hb hready
        · rw [hb] at hready
          exact .inr (by simpa using hready)
    · intro b hb _ hgone
      rw [Life.after, hstored, hb] at hgone
      cases hgone
  | delete now =>
    obtain rfl := Option.some.inj hstep
    constructor
    · constructor
      · intro c hc
        obtain ⟨b, hb, hdelete⟩ := Option.bind_eq_some_iff.mp hc
        exact (deleteObject_some hdelete (hs.taken b hb)).1
      · intro c hc hready
        obtain ⟨b, hb, hdelete⟩ := Option.bind_eq_some_iff.mp hc
        obtain ⟨-, hfinalizer, hstate⟩ := deleteObject_some hdelete (hs.taken b hb)
        rw [hfinalizer, hstate]
        exact hs.ready b hb hready
    · intro b hb hready hgone _
      have hnone : deleteObject now b = none := by
        have hbind : s.stored.bind (deleteObject now) = none := hgone
        rwa [hb] at hbind
      have hbare := deleteObject_none hnone
      rcases hs.ready b hb hready with hfinalizer | hstate
      · rw [hbare] at hfinalizer
        cases hfinalizer
      · rw [hok b hb hstate] at hbare
        cases hbare
  | objects w =>
    simp only [step] at hstep
    split at hstep
    · next hnames =>
      obtain rfl := Option.some.inj hstep
      refine ⟨⟨fun b hb => (hs.taken b hb).of_same hnames.1 hnames.2, hs.ready⟩, ?_⟩
      intro b hb _ hgone
      rw [hb] at hgone
      cases hgone
    · cases hstep

/-- In a run in which no deletion comes between the record that the Backup is ready and its
finalizer, a Backup that was ready is only removed after its data, or with its instance. -/
theorem keepsData_of_waitsForFinalizer (s : Life) (es : List Event)
    (hs : ∀ b ∈ s.stored, Taken s.world b) (hready : s.ready = false)
    (hm : Runs.Meets step WaitsForFinalizer s es) : Runs.EachStep step KeepsData s es := by
  have hsound : Sound s := by
    refine ⟨hs, ?_⟩
    intro _ _ h
    rw [hready] at h
    cases h
  apply Runs.eachStep_of_invariant _ _ hsound hm
  · exact fun _ e _ h hok hstep => (removal_step e h hok hstep).1
  · exact fun _ e _ h hok hstep => (removal_step e h hok hstep).2

end Steps

section Sample

open Instance.BackupID (startedBackup doneBackup)

/-- A backup under way for an instance that exists. -/
def takenLife : Life where
  world := Instance.Reconciler.createdWorld none
  stored := some startedBackup
  ready := false

theorem takenLife_taken : ∀ b ∈ takenLife.stored, Taken takenLife.world b := by
  rintro _ ⟨⟩
  exact ⟨⟨rfl, rfl⟩, rfl, rfl, fun h => by cases h⟩

/-- The Backup is done, gets its finalizer, and is deleted with its data. -/
def regularLife : List Event :=
  [.reconcile (doneBackup 1000), .reconcile (doneBackup 2000), .delete 3000,
    .reconcile (doneBackup 4000), .reconcile (doneBackup 5000)]

theorem finished_backup_removed_with_data :
    Runs.EachStep step KeepsData takenLife regularLife ∧
      (Runs.run step takenLife regularLife).any (fun s => s.ready && s.stored.isNone) = true := by
  constructor
  · apply keepsData_of_waitsForFinalizer takenLife regularLife takenLife_taken rfl
    decide +kernel
  · decide +kernel

/-- The Backup is deleted as soon as it is ready. -/
theorem ready_backup_removed_at_once :
    (∀ b ∈ takenLife.stored, Taken takenLife.world b) ∧ takenLife.ready = false ∧
      ¬ Runs.EachStep step KeepsData takenLife [.reconcile (doneBackup 1000), .delete 2000] := by
  refine ⟨takenLife_taken, rfl, ?_⟩
  intro h
  have hrun : ((step takenLife (.reconcile (doneBackup 1000))).any fun s => s.ready &&
      s.stored.any (fun b => InstanceExists s.world b) &&
      (step s (.delete 2000)).any (·.stored.isNone)) = true := by
    decide +kernel
  obtain ⟨s, hs, hbad⟩ := (Option.any_eq_true _ _).mp hrun
  simp only [Bool.and_eq_true] at hbad
  obtain ⟨⟨hready, hinst⟩, hgone⟩ := hbad
  obtain ⟨b, hb, hinst⟩ := (Option.any_eq_true _ _).mp hinst
  obtain ⟨t, ht, hgone⟩ := (Option.any_eq_true _ _).mp hgone
  have hkeeps := ((h s hs).2 t ht).1
  obtain ⟨env, he, -⟩ := hkeeps b hb hready (Option.isNone_iff_eq_none.mp hgone)
    (of_decide_eq_true hinst)
  cases he

end Sample

end ElCarro.Backups.Removal
