import ElCarro.Instance.World
import ElCarro.Lib.Loops

/-! # Resizing of disks

A StatefulSet cannot change its claim templates. When a disk gets another size, the claims
of its replicas are resized first, and once they all are, the StatefulSet is deleted so that
the next reconciles create it again with the new templates. The claims stay.
-/

namespace ElCarro.Instance.DiskResize

open K8s Api Flow

open Reconciler (Outcome)

section Model

/-- The claim of one replica for one disk. -/
structure Claim where
  /-- The requested storage; there may be no requests at all. -/
  requested : Option Int
  /-- The storage that there is, zero as long as none is reported. -/
  capacity : Int
  storageClassName : Option String
  deriving DecidableEq, Repr

def Claim.storage (pvc : Claim) : Int := pvc.requested.getD 0

structure StorageClass where
  allowVolumeExpansion : Option Bool
  deriving DecidableEq, Repr

structure StoredSts where
  sts : StatefulSet
  deleting : Bool

inductive Kind where
  | statefulSet | pvc | storageClass
  deriving DecidableEq, Repr

/-- A request that changes objects. -/
inductive Write where
  | patch (kind : Kind) (key : ObjectKey)
  | delete (kind : Kind) (key : ObjectKey)
  deriving DecidableEq, Repr

structure Cluster where
  /-- The StatefulSet under the name in question. -/
  sts : Option StoredSts
  claims : ObjectKey → Option Claim
  classes : String → Option StorageClass

/-- A run has made some calls so far, and some of them were writes. -/
structure Session extends Cluster where
  calls : Nat
  writes : List Write

def Cluster.session (c : Cluster) : Session := { c with calls := 0, writes := [] }

/-- What becomes of the calls of a run, in their order, and the texts of their errors. -/
structure Env where
  answer : Nat → Outcome
  message : Nat → String

inductive Stop where
  | error (message : String)
  | panic
  deriving DecidableEq, Repr

abbrev P := Prog Session Stop

structure CallError where
  notFound : Bool
  message : String
  deriving DecidableEq, Repr

def keyText (key : ObjectKey) : String := key.ns ++ "/" ++ key.name

/-- `ObjectKeyOf`. -/
def objectKeyOf (sts : StatefulSet) (pvc : PVC) (i : Nat) : ObjectKey :=
  ⟨sts.ns, pvc.name ++ "-" ++ sts.name ++ "-" ++ toString i⟩

variable (env : Env)

section Calls

/-- Get an object. -/
def getObject {α : Type} (find : Session → Option α) : P (Except CallError α) := fun s =>
  let t := { s with calls := s.calls + 1 }
  match env.answer s.calls, find s with
  | .ok, some a => .next (.ok a) t
  | .ok, none => .next (.error ⟨true, env.message s.calls⟩) t
  | outcome, _ => .next (.error ⟨outcome = .notFound, env.message s.calls⟩) t

/-- Send a request with an effect, which may take place although the caller sees an error. -/
def send (w : Write) (effect : Cluster → Cluster) : P (Option String) := fun s =>
  .next (if env.answer s.calls = .ok then none else some (env.message s.calls))
    { toCluster := if (env.answer s.calls).served then effect s.toCluster else s.toCluster
      calls := s.calls + 1
      writes := s.writes ++ [w] }

end Calls

/-- `FilterDiskWithSizeChanged`: the later of two old templates of one name counts. -/
def filterDiskWithSizeChanged (old new : List PVC) : List PVC :=
  new.filter fun pvc => ((old.filter (·.name = pvc.name)).getLast?).any (·.size ≠ pvc.size)

def checkSinglePvc (key : ObjectKey) : P (Option String) := do
  match ← getObject env fun s => s.claims key with
  | .error err => pure (some ("error getting pvc [" ++ keyText key ++ "]: " ++ err.message))
  | .ok tpvc =>
    let scName := tpvc.storageClassName.getD ""
    if scName = "" then
      pure (some ("cannot resize manually provisioned pvc [" ++ keyText key ++ "]"))
    else do
      match ← getObject env fun s => s.classes scName with
      | .error err =>
        pure (some ("error getting storageclass [" ++ scName ++ "]: " ++ err.message))
      | .ok sc =>
        if sc.allowVolumeExpansion.getD false then pure none
        else
          pure (some ("storageclass [" ++ scName ++ "] does not allow expansion for volume [" ++
            key.name ++ "]"))

def pvcsCanBeExpanded (sts : StatefulSet) (pvcs : List PVC) : P (Option String) :=
  firstError (fun i => firstError (fun pvc => checkSinglePvc env (objectKeyOf sts pvc i)) pvcs)
    (List.range sts.replicas)

/-- Request another size; a claim without requests has no map to put it into. -/
def patchSize (key : ObjectKey) (pvc : Claim) (newSize : Int) : P Unit := do
  when (pvc.requested = none) (finish .panic)
  let resized := { pvc with requested := some newSize }
  match ← send env (.patch .pvc key) fun c =>
      { c with claims := Function.update c.claims key (some resized) } with
  | some err => finish (.error ("error resizing pvc [" ++ keyText key ++ "]: " ++ err))
  | none => pure ()

/-- One claim: it is done once its capacity is the one requested. -/
def resizePvc (sts : StatefulSet) (i : Nat) (disk : PVC) : P Bool := do
  let key := objectKeyOf sts disk i
  match ← getObject env fun s => s.claims key with
  | .error err => finish (.error ("error getting pvc [" ++ keyText key ++ "]: " ++ err.message))
  | .ok pvc =>
    if disk.size = pvc.storage then pure (disk.size = pvc.capacity)
    else do
      patchSize env key pvc disk.size
      pure false

def resizePvcs (sts : StatefulSet) (disks : List PVC) : P Bool :=
  allDone (fun i => allDone (resizePvc env sts i) disks) (List.range sts.replicas)

def stsKey (sts : StatefulSet) : ObjectKey := ⟨sts.ns, sts.name⟩

/-- The StatefulSet goes, its claims stay. -/
def deleteSts (newSts : StatefulSet) : P Bool := do
  match ← send env (.delete .statefulSet (stsKey newSts)) fun c => { c with sts := none } with
  | some err =>
    finish (.error ("error while deleting sts [" ++ keyText (stsKey newSts) ++ "]: " ++ err))
  | none => pure false

def resizeDisks (newSts : StatefulSet) (changedDisks : List PVC) : P Bool := do
  match ← pvcsCanBeExpanded env newSts changedDisks with
  | some _ => finish (.error "pvcs may not be expanded")
  | none => do
    let done ← resizePvcs env newSts changedDisks
    if ¬ done then pure false else deleteSts env newSts

/-- Whether the disks have the sizes of the new templates. After a deletion it is still said that
they do not, so that the next reconcile creates the StatefulSet. -/
def tryResizeDisksOf (newSts : StatefulSet) : P Bool := do
  match ← getObject env (·.sts) with
  | .error err =>
    if err.notFound then pure false
    else
      finish (.error ("error getting statefulset [" ++ keyText (stsKey newSts) ++ "]: " ++
        err.message))
  | .ok oldSts =>
    let changedDisks :=
      filterDiskWithSizeChanged oldSts.sts.volumeClaimTemplates newSts.volumeClaimTemplates
    if oldSts.deleting then pure false
    else if changedDisks = [] then pure true
    else resizeDisks env newSts changedDisks

end Model

section Property

/-- Disks of the two StatefulSets with one name and different sizes. -/
def SizeDiffers (old new : StatefulSet) (disk : PVC) : Prop :=
  disk ∈ new.volumeClaimTemplates ∧
    ∃ o ∈ old.volumeClaimTemplates, o.name = disk.name ∧ o.size ≠ disk.size

/-- The new size is requested for the claim of a replica, and the claim has it. -/
def Resized (new : StatefulSet) (i : Nat) (disk : PVC) (claims : ObjectKey → Option Claim) : Prop :=
  ∃ pvc, claims (objectKeyOf new disk i) = some pvc ∧ pvc.storage = disk.size ∧
    pvc.capacity = disk.size

/-- The claims of every replica have the new sizes, for the disks that get another one. -/
def AllResized (old new : StatefulSet) (claims : ObjectKey → Option Claim) : Prop :=
  ∀ disk, SizeDiffers old new disk → ∀ i < new.replicas, Resized new i disk claims

/-- What a run with a result has done: it deletes the StatefulSet after all claims were resized,
says that it is done if no disk gets another size, and keeps every claim. -/
structure ResizesSafely (c : Cluster) (newSts : StatefulSet) (res : Res Session Stop Bool) :
    Prop where
  deletes : ∀ key, .delete .statefulSet key ∈ res.state.writes →
    ∃ old, c.sts = some old ∧ AllResized old.sts newSts res.state.claims
  completes : ∀ t, res = .next true t →
    ∃ old, c.sts = some old ∧ ∀ disk, ¬ SizeDiffers old.sts newSts disk
  keeps : ∀ key, .delete .pvc key ∉ res.state.writes ∧
    (res.state.claims key).isSome = (c.claims key).isSome

end Property

section Calls

variable {env : Env} {s t : Session}

/-- Claims are neither deleted nor created, and nothing else is deleted. -/
structure Careful (s t : Session) : Prop where
  sts : t.sts = s.sts
  claims : ∀ key, (t.claims key).isSome = (s.claims key).isSome
  deletes : ∀ kind key, .delete kind key ∈ t.writes → .delete kind key ∈ s.writes

instance : Std.Refl Careful := ⟨fun _ => ⟨rfl, fun _ => rfl, fun _ _ h => h⟩⟩

instance : IsTrans Session Careful where
  trans _ _ _ h h' :=
    { sts := h'.sts.trans h.sts
      claims := fun key => (h'.claims key).trans (h.claims key)
      deletes := fun kind key hkey => h.deletes kind key (h'.deletes kind key hkey) }

/-- A read counts as a call and does nothing else. -/
theorem wp_getObject {α : Type} {find : Session → Option α}
    {Q : Except CallError α → Session → Prop} {R : Stop → Session → Prop}
    (hok : ∀ a, find s = some a → Q (.ok a) { s with calls := s.calls + 1 })
    (herr : ∀ err, Q (.error err) { s with calls := s.calls + 1 }) :
    wp (getObject env find) Q R s := by
  unfold wp getObject
  cases env.answer s.calls with
  | ok =>
    cases hfind : find s with
    | some a => exact hok a hfind
    | none => exact herr _
  | notFound => exact herr _
  | conflict => exact herr _
  | failed => exact herr _
  | lost => exact herr _

theorem careful_getObject {α : Type} {find : Session → Option α} :
    Within Careful (getObject env find) := by
  intro s
  apply wp_getObject
  · exact fun _ _ => ⟨rfl, fun _ => rfl, fun _ _ h => h⟩
  · exact fun _ => ⟨rfl, fun _ => rfl, fun _ _ h => h⟩

theorem careful_checkSinglePvc {key : ObjectKey} : Within Careful (checkSinglePvc env key) := by
  apply Within.bind careful_getObject
  intro res
  cases res with
  | error err => exact Within.pure _
  | ok tpvc =>
    apply Within.ite
    · exact fun _ => Within.pure _
    · intro _
      apply Within.bind careful_getObject
      intro res
      cases res with
      | error err => exact Within.pure _
      | ok sc => exact Within.ite (fun _ => Within.pure _) fun _ => Within.pure _

theorem careful_pvcsCanBeExpanded {sts : StatefulSet} {pvcs : List PVC} :
    Within Careful (pvcsCanBeExpanded env sts pvcs) :=
  Within.firstError (fun _ => Within.firstError (fun _ => careful_checkSinglePvc) pvcs) _

/-- A size is requested for a claim that was just read. -/
theorem careful_patchSize {key : ObjectKey} {pvc : Claim} {size : Int}
    (h : (s.claims key).isSome = true) :
    wp (patchSize env key pvc size) (fun _ => Careful s) (fun _ => Careful s) s := by
  have hclaims : ∀ k, (Function.update s.claims key (some { pvc with requested := some size })
      k).isSome = (s.claims k).isSome := by
    intro k
    by_cases hk : k = key
    · subst hk
      rw [Function.update_self, h]
      rfl
    · rw [Function.update_of_ne hk]
  have hsent : Careful s
      { toCluster := if (env.answer s.calls).served then
          { s.toCluster with
            claims := Function.update s.claims key (some { pvc with requested := some size }) }
          else s.toCluster
        calls := s.calls + 1
        writes := s.writes ++ [.patch .pvc key] } := by
    constructor
    · split
      · rfl
      · rfl
    · intro k
      split
      · exact hclaims k
      · rfl
    · intro kind k hk
      simpa using hk
  unfold patchSize
  simp only [wp_bind, wp_when, wp_finish]
  constructor
  · exact fun _ => Std.Refl.refl s
  · intro _
    unfold wp send
    simp only
    cases hanswer : (if env.answer s.calls = .ok then none else some (env.message s.calls)) with
    | none => exact hsent
    | some err => exact hsent

end Calls

section Run

variable {env : Env} {s : Session} {newSts : StatefulSet} {disks : List PVC}

theorem careful_resizePvc {i : Nat} {disk : PVC} :
    Within Careful (resizePvc env newSts i disk) := by
  intro s
  unfold resizePvc
  simp only [wp_bind]
  apply wp_getObject
  · intro pvc hpvc
    simp only
    split
    · exact ⟨rfl, fun _ => rfl, fun _ _ h => h⟩
    · rw [wp_bind]
      have hread : Careful s { s with calls := s.calls + 1 } := ⟨rfl, fun _ => rfl, fun _ _ h => h⟩
      apply (careful_patchSize _).mono
      · exact fun _ _ h => IsTrans.trans _ _ _ hread h
      · exact fun _ _ h => IsTrans.trans _ _ _ hread h
      · exact Option.isSome_iff_exists.mpr ⟨pvc, hpvc⟩
  · exact fun _ => ⟨rfl, fun _ => rfl, fun _ _ h => h⟩

/-- A claim that is done was found with the size, and was not written to. -/
theorem resizePvc_done {i : Nat} (disk : PVC) (s : Session) :
    wp (resizePvc env newSts i disk)
      (fun done t => done = true → t.claims = s.claims ∧ Resized newSts i disk s.claims)
      (fun _ _ => True) s := by
  unfold resizePvc
  simp only [wp_bind]
  apply wp_getObject
  · intro pvc hpvc
    simp only
    split
    · next hrequested =>
      intro hcapacity
      exact ⟨rfl, pvc, hpvc, hrequested.symm, (of_decide_eq_true hcapacity).symm⟩
    · rw [wp_bind]
      apply wp.mono wp_self
      · exact fun _ _ _ hfalse => absurd hfalse Bool.false_ne_true
      · exact fun _ _ _ => trivial
  · exact fun _ => trivial

/-- The loops over replicas and disks: all claims are done, or some request was sent. -/
theorem resizePvcs_spec (s : Session) :
    wp (resizePvcs env newSts disks)
      (fun done t => Careful s t ∧ (done = true → t.claims = s.claims ∧
        ∀ i ∈ List.range newSts.replicas, ∀ disk ∈ disks, Resized newSts i disk s.claims))
      (fun _ t => Careful s t) s := by
  have hcareful : Within Careful (resizePvcs env newSts disks) :=
    Within.allDone (fun _ => Within.allDone (fun _ => careful_resizePvc) _) _
  have hreplica : ∀ i s, wp (allDone (resizePvc env newSts i) disks)
      (fun done t => done = true → t.claims = s.claims ∧
        ∀ disk ∈ disks, Resized newSts i disk s.claims) (fun _ _ => True) s :=
    fun i s => wp_allDone (fun s : Session => s.claims) resizePvc_done disks s
  have hdone := wp_allDone (P := fun i claims => ∀ disk ∈ disks, Resized newSts i disk claims)
    (fun s : Session => s.claims) hreplica (List.range newSts.replicas) s
  exact ((hcareful s).and hdone).mono (fun _ _ h => h) fun _ _ h => h.1

/-- The disks that were found to change are those whose sizes differ. -/
theorem sizeDiffers_iff {old : StatefulSet} {disk : PVC}
    (hnames : (old.volumeClaimTemplates.map (·.name)).Nodup) : SizeDiffers old newSts disk ↔
      disk ∈ filterDiskWithSizeChanged old.volumeClaimTemplates newSts.volumeClaimTemplates := by
  have hlast : ∀ o ∈ old.volumeClaimTemplates, o.name = disk.name →
      (old.volumeClaimTemplates.filter (·.name = disk.name)).getLast? = some o := by
    intro o ho hname
    have hmem : o ∈ old.volumeClaimTemplates.filter (·.name = disk.name) :=
      List.mem_filter.mpr ⟨ho, decide_eq_true hname⟩
    cases hlast : (old.volumeClaimTemplates.filter (·.name = disk.name)).getLast? with
    | none =>
      rw [List.getLast?_eq_none_iff.mp hlast] at hmem
      cases hmem
    | some x =>
      obtain ⟨hx, hxname⟩ := List.mem_filter.mp (List.mem_of_getLast? hlast)
      have hsame : x.name = o.name := (of_decide_eq_true hxname).trans hname.symm
      rw [List.inj_on_of_nodup_map hnames hx ho hsame]
  rw [SizeDiffers, filterDiskWithSizeChanged, List.mem_filter, Option.any_eq_true]
  apply and_congr_right
  intro _
  constructor
  · rintro ⟨o, ho, hname, hsize⟩
    exact ⟨o, hlast o ho hname, decide_eq_true hsize⟩
  · rintro ⟨o, ho, hsize⟩
    obtain ⟨hmem, hname⟩ := List.mem_filter.mp (List.mem_of_getLast? ho)
    exact ⟨o, hmem, of_decide_eq_true hname, of_decide_eq_true hsize⟩

/-- What a run from one state may have done when it is in another. -/
structure Safe (newSts : StatefulSet) (s t : Session) : Prop where
  deletes : ∀ key, .delete .statefulSet key ∈ t.writes → .delete .statefulSet key ∈ s.writes ∨
    ∃ old, s.sts = some old ∧ AllResized old.sts newSts t.claims
  pvcs : ∀ key, .delete .pvc key ∈ t.writes → .delete .pvc key ∈ s.writes
  claims : ∀ key, (t.claims key).isSome = (s.claims key).isSome

theorem Careful.safe {t : Session} (h : Careful s t) : Safe newSts s t where
  deletes key hkey := .inl (h.deletes _ key hkey)
  pvcs key hkey := h.deletes _ key hkey
  claims := h.claims

/-- The deletion comes after a state in which all claims have the new sizes. -/
theorem safe_deleteSts {t : Session} {old : StoredSts} (h : Careful s t) (hold : s.sts = some old)
    (hall : AllResized old.sts newSts t.claims) :
    wp (deleteSts env newSts) (fun done u => Safe newSts s u ∧ done = false)
      (fun _ u => Safe newSts s u) t := by
  have hsent : Safe newSts s
      { toCluster := if (env.answer t.calls).served then { t.toCluster with sts := none }
          else t.toCluster
        calls := t.calls + 1
        writes := t.writes ++ [.delete .statefulSet (stsKey newSts)] } := by
    have hclaims : (if (env.answer t.calls).served then { t.toCluster with sts := none }
        else t.toCluster).claims = t.claims := by
      split
      · rfl
      · rfl
    constructor
    · intro key _
      refine .inr ⟨old, hold, ?_⟩
      rw [hclaims]
      exact hall
    · intro key hkey
      apply h.deletes
      simpa using hkey
    · intro key
      rw [hclaims]
      exact h.claims key
  unfold deleteSts
  rw [wp_bind]
  unfold wp send
  simp only
  cases hanswer : (if env.answer t.calls = .ok then none else some (env.message t.calls)) with
  | none => exact ⟨hsent, rfl⟩
  | some err => exact hsent

theorem safe_resizeDisks {old : StoredSts} (hold : s.sts = some old)
    (hdisks : ∀ disk, SizeDiffers old.sts newSts disk → disk ∈ disks) :
    wp (resizeDisks env newSts disks) (fun done u => Safe newSts s u ∧ done = false)
      (fun _ u => Safe newSts s u) s := by
  unfold resizeDisks
  rw [wp_bind]
  apply (careful_pvcsCanBeExpanded s).mono
  · intro err t ht
    cases err with
    | some err => exact ht.safe
    | none =>
      simp only
      rw [wp_bind]
      apply (resizePvcs_spec t).mono
      · rintro done u ⟨hu, hdone⟩
        have hcareful : Careful s u := IsTrans.trans _ _ _ ht hu
        cases done with
        | false => exact ⟨hcareful.safe, rfl⟩
        | true =>
          obtain ⟨hclaims, hresized⟩ := hdone rfl
          apply safe_deleteSts hcareful hold
          intro disk hdisk i hi
          rw [hclaims]
          exact hresized i (List.mem_range.mpr hi) disk (hdisks disk hdisk)
      · exact fun _ u hu => (IsTrans.trans _ _ _ ht hu : Careful s u).safe
  · exact fun _ t ht => ht.safe

theorem safe_tryResizeDisksOf
    (hnames : ∀ old ∈ s.sts, (old.sts.volumeClaimTemplates.map (·.name)).Nodup) :
    wp (tryResizeDisksOf env newSts)
      (fun done u => Safe newSts s u ∧ (done = true →
        ∃ old, s.sts = some old ∧ ∀ disk, ¬ SizeDiffers old.sts newSts disk))
      (fun _ u => Safe newSts s u) s := by
  have hread : Careful s { s with calls := s.calls + 1 } := ⟨rfl, fun _ => rfl, fun _ _ h => h⟩
  unfold tryResizeDisksOf
  rw [wp_bind]
  apply wp_getObject
  · intro old hold
    have hiff : ∀ disk, SizeDiffers old.sts newSts disk ↔ _ :=
      fun disk => sizeDiffers_iff (hnames old hold)
    simp only
    split
    · exact ⟨hread.safe, fun hfalse => absurd hfalse Bool.false_ne_true⟩
    · split
      · next hempty =>
        refine ⟨hread.safe, fun _ => ⟨old, hold, ?_⟩⟩
        intro disk hdisk
        rw [hiff, hempty] at hdisk
        cases hdisk
      · have hresize : wp (resizeDisks env newSts (filterDiskWithSizeChanged
            old.sts.volumeClaimTemplates newSts.volumeClaimTemplates))
            (fun done u => Safe newSts { s with calls := s.calls + 1 } u ∧ done = false)
            (fun _ u => Safe newSts { s with calls := s.calls + 1 } u)
            { s with calls := s.calls + 1 } :=
          safe_resizeDisks hold fun disk => (hiff disk).mp
        apply hresize.mono
        · rintro done u ⟨hsafe, rfl⟩
          exact ⟨⟨hsafe.deletes, hsafe.pvcs, hsafe.claims⟩,
            fun hfalse => absurd hfalse Bool.false_ne_true⟩
        · exact fun _ u hsafe => ⟨hsafe.deletes, hsafe.pvcs, hsafe.claims⟩
  · intro err
    simp only
    split
    · exact ⟨hread.safe, fun hfalse => absurd hfalse Bool.false_ne_true⟩
    · exact hread.safe

/-- Whatever fails and whatever state the claims are in, a resize is safe. -/
theorem tryResizeDisksOf_safe (env : Env) (c : Cluster) (newSts : StatefulSet)
    (hnames : ∀ old ∈ c.sts, (old.sts.volumeClaimTemplates.map (·.name)).Nodup) :
    ResizesSafely c newSts (tryResizeDisksOf env newSts c.session) := by
  have hrun : wp (tryResizeDisksOf env newSts)
      (fun done u => Safe newSts c.session u ∧ (done = true →
        ∃ old, c.sts = some old ∧ ∀ disk, ¬ SizeDiffers old.sts newSts disk))
      (fun _ u => Safe newSts c.session u) c.session := safe_tryResizeDisksOf hnames
  have hsafe : Safe newSts c.session (tryResizeDisksOf env newSts c.session).state :=
    (hrun.mono (fun _ _ h => h.1) fun _ _ h => h).state
  constructor
  · intro key hkey
    rcases hsafe.deletes key hkey with hbefore | hresized
    · cases hbefore
    · exact hresized
  · intro t ht
    rw [wp, ht] at hrun
    exact hrun.2 rfl
  · intro key
    refine ⟨?_, hsafe.claims key⟩
    intro hkey
    cases hsafe.pvcs key hkey

section Sample

def dataDiskSts (size : Int) : StatefulSet where
  ns := "db"
  name := "mydb-sts"
  images := ∅
  resources := ∅
  replicas := 2
  volumeClaimTemplates := [⟨"db", "mydb-pvc-u02", size, "standard", none⟩]

/-- Both replicas have the new size for their disk. -/
def resizedCluster : Cluster where
  sts := some ⟨dataDiskSts 100, false⟩
  claims key :=
    if key.name = "mydb-pvc-u02-mydb-sts-0" ∨ key.name = "mydb-pvc-u02-mydb-sts-1" then
      some ⟨some 200, 200, some "standard"⟩
    else none
  classes _ := some ⟨some true⟩

def everyCall : Env := ⟨fun _ => .ok, fun _ => ""⟩

theorem resizedCluster_recreated :
    (tryResizeDisksOf everyCall (dataDiskSts 200) resizedCluster.session).state.writes =
        [.delete .statefulSet ⟨"db", "mydb-sts"⟩] ∧
      ResizesSafely resizedCluster (dataDiskSts 200)
        (tryResizeDisksOf everyCall (dataDiskSts 200) resizedCluster.session) := by
  refine ⟨by decide +kernel, tryResizeDisksOf_safe everyCall resizedCluster (dataDiskSts 200) ?_⟩
  intro old hold
  obtain rfl := Option.some.inj hold
  decide +kernel

end Sample

end Run

end ElCarro.Instance.DiskResize
