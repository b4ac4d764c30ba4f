import ElCarro.Database.Reconcile
import ElCarro.Instance.Preamble

/-! # Deletion of an instance with its Databases

An instance keeps its finalizer until the list of its Databases is empty, and
deletes the Databases of the list by name. The list holds names of PDBs, and it
is written after a Database has reported its PDB; so a Database can be missing
from it, or be in it under a name that no object has.
-/

namespace ElCarro.Databases

open GoTime K8s Api Flow

open Instance.Reconciler (World Outcome Result gone isStopped isDeleting validateSpec reconcile
  reconcileResult reconcileInstanceDeletion deleteDatabases deleteObject wp_effect wp_write
  store_stored)

section System

/-- The server finds an object exactly if it is there. -/
structure Answers (env : Instance.Reconciler.Env) (w : World) : Prop where
  getInstance : env.call .getInstance ≠ .notFound
  deletingGetInstance : env.call .deletingGetInstance ≠ .notFound
  absent : ∀ name ∈ w.stored.status.databaseNames,
    env.call (.getDatabase name) = .notFound → name ∉ w.databases
  present : ∀ name ∈ w.stored.status.databaseNames,
    env.call (.getDatabase name) = .ok → name ∈ w.databases

instance (env : Instance.Reconciler.Env) (w : World) : Decidable (Answers env w) :=
  decidable_of_iff
    (env.call .getInstance ≠ .notFound ∧ env.call .deletingGetInstance ≠ .notFound ∧
      (∀ name ∈ w.stored.status.databaseNames,
        env.call (.getDatabase name) = .notFound → name ∉ w.databases) ∧
      ∀ name ∈ w.stored.status.databaseNames,
        env.call (.getDatabase name) = .ok → name ∈ w.databases)
    ⟨fun ⟨hg, hd, ha, hp⟩ => ⟨hg, hd, ha, hp⟩,
      fun h => ⟨h.getInstance, h.deletingGetInstance, h.absent, h.present⟩⟩

inductive Event where
  | reconcileDatabase (env : Env) (name : String)
  /-- A reconcile of the instance once it is deleted. -/
  | reconcileInstance (env : Instance.Reconciler.Env)
  | createDatabase (name specName : String) (specError : Option String)
  | deleteDatabase (name : String) (now : Time)
  | deleteInstance (now : Time)
  /-- Anything that leaves the Databases, their list and the finalizer alone. -/
  | outside (w : World)

def newObject (specName : String) (specError : Option String) : Database :=
  ⟨specName, specError, none, false, .unset, [], false⟩

def step (c : Cluster) : Event → Option Cluster
  | .reconcileDatabase env name => some (c.reconcileDatabase env name)
  | .reconcileInstance env =>
    if isDeleting c.stored ∧ ¬ gone c.stored ∧ Answers env c.toWorld then
      some { c with toWorld := reconcile env c.toWorld }
    else none
  | .createDatabase name specName specError =>
    if name ∈ c.databases then none
    else some { c with databases := c.databases.insert name (newObject specName specError) }
  | .deleteDatabase name now => some { c with databases := deleteObject now name c.databases }
  | .deleteInstance now =>
    if isDeleting c.stored then none
    else some { c with
      stored := { c.stored with deletionTimestamp := some now }
      resourceVersion := c.resourceVersion + 1 }
  | .outside w =>
    if w.databases = c.databases ∧
        w.stored.status.databaseNames = c.stored.status.databaseNames ∧
        w.stored.hasFinalizer = c.stored.hasFinalizer ∧
        w.stored.deletionTimestamp = c.stored.deletionTimestamp then
      some { c with toWorld := w }
    else none

end System

section Property

/-- Once the finalizer is removed, every Database that has reported its PDB is deleted. -/
def Collected (c : Cluster) : Prop :=
  gone c.stored = true → ∀ name db, c.databases.lookup name = some db → db.reported = true →
    db.deletionTimestamp.isSome = true

/-- A reconcile of a deleted instance comes back as long as the finalizer is there. -/
def ComesBack (c : Cluster) : Event → Cluster → Prop
  | .reconcileInstance env, c' =>
    reconcileResult env c.toWorld = .stop → c'.stored.hasFinalizer = false
  | _, _ => True

/-- The reconcile gets to report the PDB, whether or not it gets to know of that. -/
def reports (env : Env) (name : String) (c : Cluster) (db : Database) : Bool :=
  reached env .getDatabase ∧ reached env .getDatabaseAgain ∧ db.deletionTimestamp = none ∧
    complaint env name (c.session db) = none ∧ env.databaseContainer ∧
    env.instanceReady = some true ∧ reached env .getService ∧ env.loadBalancerReady ∧
    (db.hasFinalizer ∨ reached env .addFinalizer) ∧ env.createDatabase = .ok ∧
    (env.call .readyStatus).served

/-- The name is in the list already, or the PDB is new and its name is noted in the same
reconcile. -/
def Registers (env : Env) (c : Cluster) (db : Database) : Prop :=
  db.specName ∈ c.stored.status.databaseNames ∨
    (db.specName.toUpper ∉ c.pdbs ∧ reached env .readyStatus = true ∧ env.newUsers = true ∧
      (env.call .instanceStatus).served = true)

instance (env : Env) (c : Cluster) (db : Database) : Decidable (Registers env c db) :=
  inferInstanceAs (Decidable (_ ∨ _))

/-- Databases are named like their PDBs and registered when they report, and the spec of a
deleted instance is a valid one. -/
def Tidy (c : Cluster) : Event → Prop
  | .reconcileDatabase env name =>
    ∀ db ∈ c.databases.lookup name, reports env name c db = true → Registers env c db
  | .reconcileInstance _ => validateSpec c.stored = true
  | .createDatabase name specName _ => specName = name
  | .deleteDatabase _ _ => True
  | .deleteInstance _ => True
  | .outside _ => True

instance (c : Cluster) : (e : Event) → Decidable (Tidy c e)
  | .reconcileDatabase _ _ => inferInstanceAs (Decidable (∀ db ∈ _, _ → _))
  | .reconcileInstance _ => inferInstanceAs (Decidable (_ = _))
  | .createDatabase _ _ _ => inferInstanceAs (Decidable (_ = _))
  | .deleteDatabase _ _ | .deleteInstance _ | .outside _ => isTrue trivial

end Property

section Invariant

/-- The list holds the names of objects, and of all that have reported their PDBs. -/
structure Registered (c : Cluster) : Prop where
  finalizer : isDeleting c.stored = false → c.stored.hasFinalizer = true
  emptied : gone c.stored = true → c.stored.status.databaseNames = []
  named : ∀ name db, c.databases.lookup name = some db → db.specName = name
  found : ∀ name ∈ c.stored.status.databaseNames,
    ∃ db, c.databases.lookup name = some db ∧ db.hasFinalizer = true
  listed : ∀ name db, c.databases.lookup name = some db → db.reported = true →
    db.deletionTimestamp = none → name ∈ c.stored.status.databaseNames

theorem Registered.collected {c : Cluster} (h : Registered c) : Collected c := by
  intro hgone name db hdb hreported
  by_contra hlive
  have hmem := h.listed name db hdb hreported (Option.not_isSome_iff_eq_none.mp hlive)
  rw [h.emptied hgone] at hmem
  cases hmem

variable {c : Cluster} {name : String} {db : Database} {s t : Session} {env : Env}

/-- A write of one Database, and of its name into the list. -/
structure Updates (c : Cluster) (name : String) (db : Database) (c' : Cluster) : Prop where
  deletion : c'.stored.deletionTimestamp = c.stored.deletionTimestamp
  finalizer : c'.stored.hasFinalizer = c.stored.hasFinalizer
  others : ∀ n, n ≠ name → c'.databases.lookup n = c.databases.lookup n
  object : ∃ db', c'.databases.lookup name = some db' ∧ db'.specName = db.specName ∧
    (db.hasFinalizer = true → db'.hasFinalizer = true) ∧
    (db'.reported = true → db'.deletionTimestamp = none →
      name ∈ c'.stored.status.databaseNames) ∧
    (c'.stored.status.databaseNames = c.stored.status.databaseNames ∨
      gone c.stored = false ∧ db'.hasFinalizer = true ∧
        c'.stored.status.databaseNames = c.stored.status.databaseNames ++ [name])

theorem Registered.update {c' : Cluster} (hc : Registered c)
    (hdb : c.databases.lookup name = some db) (h : Updates c name db c') : Registered c' := by
  obtain ⟨db', hdb', hspec, hfinalizer, hreported, hnames⟩ := h.object
  have hgone : gone c'.stored = gone c.stored := by
    unfold gone isDeleting
    rw [h.deletion, h.finalizer]
  have hsub : ∀ n ∈ c.stored.status.databaseNames, n ∈ c'.stored.status.databaseNames := by
    intro n hn
    rcases hnames with hnames | ⟨-, -, hnames⟩
    · rwa [hnames]
    · rw [hnames]
      exact List.mem_append_left _ hn
  constructor
  · unfold isDeleting
    rw [h.deletion, h.finalizer]
    exact hc.finalizer
  · intro hg
    rw [hgone] at hg
    rcases hnames with hnames | ⟨hlive, -, -⟩
    · rw [hnames]
      exact hc.emptied hg
    · rw [hlive] at hg
      cases hg
  · intro n db₀ hn
    by_cases hname : n = name
    · subst hname
      obtain rfl := Option.some.inj (hdb'.symm.trans hn)
      rw [hspec]
      exact hc.named n db hdb
    · rw [h.others n hname] at hn
      exact hc.named n db₀ hn
  · intro n hn
    by_cases hname : n = name
    · subst hname
      refine ⟨db', hdb', ?_⟩
      rcases hnames with hnames | ⟨-, hf, -⟩
      · rw [hnames] at hn
        obtain ⟨db₀, hdb₀, hf⟩ := hc.found n hn
        obtain rfl := Option.some.inj (hdb.symm.trans hdb₀)
        exact hfinalizer hf
      · exact hf
    · rw [h.others n hname]
      apply hc.found
      rcases hnames with hnames | ⟨-, -, hnames⟩
      · rwa [hnames] at hn
      · rw [hnames] at hn
        rcases List.mem_append.mp hn with hn | hn
        · exact hn
        · exact absurd (List.mem_singleton.mp hn) hname
  · intro n db₀ hn hrep hlive
    by_cases hname : n = name
    · subst hname
      obtain rfl := Option.some.inj (hdb'.symm.trans hn)
      exact hreported hrep hlive
    · rw [h.others n hname] at hn
      exact hsub n (hc.listed n db₀ hn hrep hlive)

end Invariant

section Creation

variable {c : Cluster} {name : String} {db : Database} {s t : Session} {env : Env}

/-- A Database in which nothing has changed that the invariant is about, but for a finalizer. -/
structure Like (db db' : Database) : Prop where
  specName : db'.specName = db.specName
  deletionTimestamp : db'.deletionTimestamp = db.deletionTimestamp
  reported : db'.reported = db.reported
  hasFinalizer : db.hasFinalizer = true → db'.hasFinalizer = true

theorem Like.refl (db : Database) : Like db db := ⟨rfl, rfl, rfl, id⟩

/-- Where a reconcile of a Database is until it reports the PDB. -/
structure Before (c : Cluster) (name : String) (db : Database) (s : Session) : Prop where
  stored : s.stored = c.stored
  inst : s.inst = c.stored
  others : ∀ n, n ≠ name → s.databases.lookup n = c.databases.lookup n
  object : ∃ db', s.databases.lookup name = some db' ∧ Like db db'
  copy : Like db s.db

theorem before_session (hdb : c.databases.lookup name = some db) :
    Before c name db (c.session db) :=
  ⟨rfl, rfl, fun _ _ => rfl, ⟨db, hdb, .refl db⟩, .refl db⟩

theorem Before.registered (h : Before c name db s) (hc : Registered c)
    (hdb : c.databases.lookup name = some db) : Registered s.toCluster := by
  obtain ⟨db', hdb', hlike⟩ := h.object
  apply hc.update hdb
  constructor
  · rw [h.stored]
  · rw [h.stored]
  · exact h.others
  · refine ⟨db', hdb', hlike.specName, hlike.hasFinalizer, ?_, ?_⟩
    · intro hrep hlive
      rw [h.stored]
      apply hc.listed name db hdb
      · rw [← hlike.reported, hrep]
      · rw [← hlike.deletionTimestamp, hlive]
    · left
      rw [h.stored]

theorem Before.edit {db' : Database} (h : Before c name db s) (hlike : Like db db') :
    Before c name db { s with db := db' } :=
  ⟨h.stored, h.inst, h.others, h.object, hlike⟩

theorem Before.write (h : Before c name db s) :
    Before c name db { s with databases := s.databases.insert name s.db } where
  stored := h.stored
  inst := h.inst
  others n hn := (Finmap.lookup_insert_of_ne _ hn).trans (h.others n hn)
  object := ⟨s.db, Finmap.lookup_insert _, h.copy⟩
  copy := h.copy

theorem wp_writeDatabase {Q : Bool → Session → Prop} {R : Result → Session → Prop} {call : Call}
    (hrefused : (env.call call).served = false → Q false s)
    (hlost : env.call call = .lost → Q false { s with databases := s.databases.insert name s.db })
    (hok : env.call call = .ok → Q true { s with databases := s.databases.insert name s.db }) :
    wp (writeDatabase env name call) Q R s := by
  unfold wp writeDatabase Outcome.served
  cases hc : env.call call with
  | ok => exact hok hc
  | lost => exact hlost hc
  | notFound => exact hrefused (by rw [hc]; rfl)
  | conflict => exact hrefused (by rw [hc]; rfl)
  | failed => exact hrefused (by rw [hc]; rfl)

/-- The copy of the instance gets the names in any case. -/
theorem wp_writeDatabaseNames {Q : Bool → Session → Prop} {R : Result → Session → Prop}
    {names : List String}
    (hrefused : (env.call .instanceStatus).served = false → Q false { s with
      inst := { s.inst with status := { s.inst.status with databaseNames := names } } })
    (hserved : (env.call .instanceStatus).served = true →
      Q (decide (env.call .instanceStatus = .ok)) { s with
        stored := { s.inst with status := { s.inst.status with databaseNames := names } }
        resourceVersion := s.resourceVersion + 1
        inst := { s.inst with status := { s.inst.status with databaseNames := names } } }) :
    wp (writeDatabaseNames env names) Q R s := by
  unfold wp writeDatabaseNames
  unfold Outcome.served at hrefused hserved ⊢
  cases hc : env.call .instanceStatus with
  | ok => simpa [hc] using hserved
  | lost => simpa [hc] using hserved
  | notFound => simpa [hc] using hrefused
  | conflict => simpa [hc] using hrefused
  | failed => simpa [hc] using hrefused

theorem before_handlePreflightCheckError {message : String} {Q : Unit → Session → Prop}
    (h : Before c name db s) :
    wp (handlePreflightCheckError env name message) Q (fun _ => Before c name db) s := by
  refine wp_bind.mpr (wp_modify.mpr (wp_bind.mpr ?_))
  have hset : Like db { s.db with
      phase := .creating
      conditions := upsert env.now .ready .false .createPending message s.db.conditions } :=
    ⟨h.copy.specName, h.copy.deletionTimestamp, h.copy.reported, h.copy.hasFinalizer⟩
  have h := h.edit hset
  exact wp_writeDatabase (fun _ => h) (fun _ => h.write) fun _ => h.write

/-- Whoever passes the checks has changed nothing. -/
theorem preflight_spec (h : Before c name db s) :
    wp (preflight env name)
      (fun _ t => t = s ∧ complaint env name s = none ∧ env.databaseContainer = true ∧
        env.instanceReady = some true ∧ reached env .getService = true ∧
        env.loadBalancerReady = true)
      (fun _ => Before c name db) s := by
  refine wp_bind.mpr (wp_get.mpr ?_)
  cases hc : complaint env name s with
  | some message => exact before_handlePreflightCheckError h
  | none =>
    simp only [wp_bind, wp_when, wp_finish]
    refine ⟨fun _ => h, fun hcont => ⟨?_, fun hready => ⟨fun _ => h, fun hservice => ?_⟩⟩⟩
    · exact fun _ => before_handlePreflightCheckError h
    push Not at hcont hservice
    refine ⟨trivial, trivial, hcont.1, ?_, hservice.1, hservice.2⟩
    cases hr : env.instanceReady with
    | none => exact absurd hr hcont.2
    | some ready =>
      cases ready with
      | true => rfl
      | false => exact absurd hr hready

theorem addFinalizer_spec (h : Before c name db s) (hcopy : s.db = db) :
    wp (addFinalizer env name)
      (fun _ t => Before c name db t ∧ t.pdbs = s.pdbs ∧ t.db.hasFinalizer = true ∧
        (db.hasFinalizer = true ∨ reached env .addFinalizer = true))
      (fun _ => Before c name db) s := by
  refine wp_bind.mpr (wp_get.mpr (wp_when.mpr ⟨fun hno => ?_, fun hno => ?_⟩))
  · have hset : Like db { s.db with hasFinalizer := true } :=
      ⟨h.copy.specName, h.copy.deletionTimestamp, h.copy.reported, fun _ => rfl⟩
    have h := h.edit hset
    refine wp_bind.mpr (wp_modify.mpr (wp_bind.mpr (wp_writeDatabase ?_ ?_ ?_)))
    · intro _
      exact wp_when.mpr ⟨fun _ => h, fun hn => absurd Bool.false_ne_true hn⟩
    · intro _
      exact wp_when.mpr ⟨fun _ => h.write, fun hn => absurd Bool.false_ne_true hn⟩
    · intro hc
      refine wp_when.mpr ⟨fun hn => absurd rfl hn, fun _ => ⟨h.write, rfl, rfl, .inr ?_⟩⟩
      exact decide_eq_true hc
  · have hf : s.db.hasFinalizer = true := not_not.mp hno
    exact ⟨h, rfl, hf, .inl (hcopy ▸ hf)⟩

theorem newDatabase_spec (h : Before c name db s) :
    wp (newDatabase env)
      (fun existed t => Before c name db t ∧ t.db = s.db ∧ env.createDatabase = .ok ∧
        existed = decide (db.specName.toUpper ∈ s.pdbs))
      (fun _ => Before c name db) s := by
  have hpdbs : ∀ pdbs, Before c name db { s with pdbs := pdbs } := fun _ =>
    ⟨h.stored, h.inst, h.others, h.object, h.copy⟩
  have hstep : ∀ c₀ : Prop, [Decidable c₀] →
      Before c name db (if c₀ then { s with pdbs := s.db.specName.toUpper :: s.pdbs } else s) ∧
        (if c₀ then { s with pdbs := s.db.specName.toUpper :: s.pdbs } else s).db = s.db := by
    intro c₀ _
    split
    · exact ⟨hpdbs _, rfl⟩
    · exact ⟨h, rfl⟩
  unfold wp newDatabase
  by_cases hc : env.createDatabase = .ok
  · simp only [if_pos hc]
    refine ⟨(hstep _).1, (hstep _).2, hc, ?_⟩
    rw [h.copy.specName]
  · simp only [if_neg hc]
    exact (hstep _).1

/-- Where it is once the report is stored. -/
structure After (c : Cluster) (name : String) (db : Database) (s : Session) : Prop where
  stored : s.stored = c.stored
  inst : s.inst = c.stored
  others : ∀ n, n ≠ name → s.databases.lookup n = c.databases.lookup n
  object : s.databases.lookup name = some s.db
  specName : s.db.specName = db.specName
  hasFinalizer : s.db.hasFinalizer = true

theorem After.registered (h : After c name db s) (hc : Registered c)
    (hdb : c.databases.lookup name = some db)
    (hmem : name ∈ c.stored.status.databaseNames) : Registered s.toCluster := by
  apply hc.update hdb
  constructor
  · rw [h.stored]
  · rw [h.stored]
  · exact h.others
  · refine ⟨s.db, h.object, h.specName, fun _ => h.hasFinalizer, ?_, ?_⟩
    · intro _ _
      rw [h.stored]
      exact hmem
    · left
      rw [h.stored]

/-- The report is refused, stored with an error, or stored. -/
theorem report_spec (h : Before c name db s) (hf : s.db.hasFinalizer = true) :
    wp (report env name) (fun _ t => After c name db t ∧ env.call .readyStatus = .ok)
      (fun _ t => (∃ db', Before c name db { t with db := db' }) ∨
        After c name db t ∧ env.call .readyStatus = .lost) s := by
  let edited : Database := { s.db with
    phase := .ready
    conditions := upsert env.now .ready .true .createComplete "" s.db.conditions
    reported := true }
  have hafter : After c name db
      { s with db := edited, databases := s.databases.insert name edited } :=
    ⟨h.stored, h.inst, fun n hn => (Finmap.lookup_insert_of_ne _ hn).trans (h.others n hn),
      Finmap.lookup_insert _, h.copy.specName, hf⟩
  refine wp_bind.mpr (wp_modify.mpr (wp_bind.mpr (wp_modify.mpr (wp_bind.mpr ?_))))
  refine wp_writeDatabase ?_ ?_ ?_
  · intro _
    exact wp_when.mpr ⟨fun _ => .inl ⟨s.db, h⟩, fun hn => absurd Bool.false_ne_true hn⟩
  · intro hc
    exact wp_when.mpr ⟨fun _ => .inr ⟨hafter, hc⟩, fun hn => absurd Bool.false_ne_true hn⟩
  · intro hc
    exact wp_when.mpr ⟨fun hn => absurd rfl hn, fun _ => ⟨hafter, hc⟩⟩

theorem live_of_complaint (h : complaint env name s = none) : gone s.inst = false := by
  unfold complaint at h
  split at h
  · next hspec =>
    rw [h] at hspec
    cases hspec
  · split at h
    · cases h
    · next hgone =>
      push Not at hgone
      simpa using hgone.2

/-- The name is noted, or was so before. -/
theorem noteName_spec (h : After c name db s) (hc : Registered c)
    (hdb : c.databases.lookup name = some db) (hlive : gone c.stored = false)
    (hlisted : name ∈ c.stored.status.databaseNames ∨ (env.call .instanceStatus).served = true) :
    wp (noteName env) (fun _ t => Registered t.toCluster)
      (fun _ t => Registered t.toCluster) s := by
  have hspec : s.db.specName = name := h.specName.trans (hc.named name db hdb)
  have hnoted : ∀ (names : List String) (version : Nat),
      names = (if name ∈ c.stored.status.databaseNames then c.stored.status.databaseNames
        else c.stored.status.databaseNames ++ [name]) →
      Registered { s.toCluster with
        stored := { s.inst with status := { s.inst.status with databaseNames := names } }
        resourceVersion := version } := by
    rintro names version rfl
    apply hc.update hdb
    constructor
    · rw [h.inst]
    · rw [h.inst]
    · exact h.others
    · refine ⟨s.db, h.object, h.specName, fun _ => h.hasFinalizer, ?_, ?_⟩
      · intro _ _
        dsimp only
        split
        · next hmem => exact hmem
        · exact List.mem_append_right _ (List.mem_singleton_self name)
      · dsimp only
        split
        · exact .inl rfl
        · exact .inr ⟨hlive, h.hasFinalizer, rfl⟩
  have hend := hnoted _ (s.resourceVersion + 1) rfl
  unfold noteName
  simp only [wp_bind, wp_get, h.inst, hspec]
  rw [h.inst] at hend
  apply wp_writeDatabaseNames
  · intro hrefused
    rw [hrefused] at hlisted
    have hsame := h.registered hc hdb (hlisted.resolve_right Bool.false_ne_true)
    exact wp_when.mpr ⟨fun _ => hsame, fun _ => hsame⟩
  · intro _
    rw [h.inst]
    exact wp_when.mpr ⟨fun _ => hend, fun _ => hend⟩

/-- A reconcile that reports the PDB registers it, so the list still covers all that have. -/
theorem registered_creation (hc : Registered c) (hdb : c.databases.lookup name = some db)
    (hlive : db.deletionTimestamp = none) (hget : reached env .getDatabase = true)
    (hok : reports env name c db = true → Registers env c db) :
    wp (reconcileDatabaseCreation env name) (fun _ t => Registered t.toCluster)
      (fun _ t => Registered t.toCluster) (c.session db) := by
  have hbefore : Before c name db (c.session db) := before_session hdb
  have hreg : ∀ t, Before c name db t → Registered t.toCluster :=
    fun t ht => ht.registered hc hdb
  unfold reconcileDatabaseCreation
  simp only [wp_bind, wp_when, wp_finish]
  refine ⟨fun _ => hreg _ hbefore, fun _ => ⟨fun _ => hreg _ hbefore, fun hagain => ?_⟩⟩
  have hagain : reached env .getDatabaseAgain = true := not_not.mp hagain
  refine (preflight_spec hbefore).mono ?_ fun _ => hreg
  rintro _ _ ⟨rfl, hcomplaint, hcontainer, hready, hservice, hlb⟩
  refine wp_bind.mpr ((addFinalizer_spec hbefore rfl).mono ?_ fun _ => hreg)
  rintro _ t ⟨ht, hpdbs, hf, hadded⟩
  refine wp_bind.mpr ((newDatabase_spec ht).mono ?_ fun _ => hreg)
  rintro existed u ⟨hu, hcopy, hcreate, hexisted⟩
  have hreports : (env.call .readyStatus).served = true → Registers env c db := by
    intro hserved
    apply hok
    unfold reports
    simp [hget, hagain, hlive, hcomplaint, hcontainer, hready, hservice, hlb, hadded, hcreate,
      hserved]
  -- the name is listed already, or the rest of the reconcile lists it
  have hspec : db.specName = name := hc.named name db hdb
  refine wp_bind.mpr ((report_spec hu (hcopy ▸ hf)).mono ?_ ?_)
  · rintro _ x ⟨hx, hcall⟩
    have hserved : (env.call .readyStatus).served = true := by rw [hcall]; rfl
    have hgone : gone c.stored = false := live_of_complaint hcomplaint
    rcases hreports hserved with hmem | ⟨hnew, -, husers, hnoted⟩
    · rw [hspec] at hmem
      have hend := hx.registered hc hdb hmem
      split
      · exact hend
      · refine wp_bind.mpr (wp_when.mpr ⟨fun _ => hend, fun _ => ?_⟩)
        exact noteName_spec hx hc hdb hgone (.inl hmem)
    · have hno : existed = false := by
        rw [hexisted, hpdbs]
        exact decide_eq_false hnew
      rw [if_neg (by rw [hno]; decide)]
      refine wp_bind.mpr (wp_when.mpr ⟨fun h => absurd husers h, fun _ => ?_⟩)
      exact noteName_spec hx hc hdb hgone (.inr hnoted)
  · rintro _ x (⟨db', hx⟩ | ⟨hx, hcall⟩)
    · have hend := hreg _ hx
      exact hend
    · have hserved : (env.call .readyStatus).served = true := by rw [hcall]; rfl
      rcases hreports hserved with hmem | ⟨-, hready, -⟩
      · exact hx.registered hc hdb (hspec ▸ hmem)
      · rw [reached, hcall] at hready
        cases hready

end Creation

section Removal

variable {c : Cluster} {name : String} {db : Database} {s : Session} {env : Env}

/-- A deleted Database need not be listed any more. -/
theorem Registered.unlist (hc : Registered c) (hdb : c.databases.lookup name = some db)
    (hdeleted : db.deletionTimestamp.isSome = true) (version : Nat) :
    Registered { c with
      stored := { c.stored with status := { c.stored.status with
        databaseNames := c.stored.status.databaseNames.filter (· ≠ name) } }
      resourceVersion := version } := by
  constructor
  · exact hc.finalizer
  · intro hgone
    have hnil := hc.emptied hgone
    simp [hnil]
  · exact hc.named
  · intro n hn
    exact hc.found n (List.mem_of_mem_filter hn)
  · intro n db₀ hn hrep hlive
    have hmem := hc.listed n db₀ hn hrep hlive
    have hne : n ≠ name := by
      rintro rfl
      obtain rfl := Option.some.inj (hdb.symm.trans hn)
      rw [hlive] at hdeleted
      cases hdeleted
    exact List.mem_filter.mpr ⟨hmem, decide_eq_true hne⟩

/-- A Database that is not listed can go. -/
theorem Registered.erase (hc : Registered c) (hout : name ∉ c.stored.status.databaseNames) :
    Registered { c with databases := c.databases.erase name } := by
  have hsome : ∀ n db₀, (c.databases.erase name).lookup n = some db₀ →
      c.databases.lookup n = some db₀ := by
    intro n db₀ hn
    by_cases hname : n = name
    · rw [hname, Finmap.lookup_erase] at hn
      cases hn
    · rwa [Finmap.lookup_erase_ne hname] at hn
  constructor
  · exact hc.finalizer
  · exact hc.emptied
  · exact fun n db₀ hn => hc.named n db₀ (hsome n db₀ hn)
  · intro n hn
    have hname : n ≠ name := by
      rintro rfl
      exact hout hn
    dsimp only
    rw [Finmap.lookup_erase_ne hname]
    exact hc.found n hn
  · exact fun n db₀ hn => hc.listed n db₀ (hsome n db₀ hn)

/-- The invariant does not look at the PDBs. -/
theorem Registered.pdbs (hc : Registered c) (pdbs : List String) :
    Registered { c with pdbs := pdbs } :=
  ⟨hc.finalizer, hc.emptied, hc.named, hc.found, hc.listed⟩

theorem dropPDB_spec :
    wp (dropPDB env) (fun _ t => ∃ pdbs, t = { s with pdbs := pdbs })
      (fun _ t => ∃ pdbs, t = { s with pdbs := pdbs }) s := by
  unfold dropPDB
  simp only [wp_bind, wp_get, wp_when, wp_modify, wp_finish]
  refine ⟨fun _ => ⟨fun _ => ⟨fun _ => ⟨_, rfl⟩, fun _ => ⟨_, rfl⟩⟩, fun _ => ?_⟩, fun _ => ?_⟩
  · exact ⟨fun _ => ⟨s.pdbs, rfl⟩, fun _ => ⟨s.pdbs, rfl⟩⟩
  · exact ⟨s.pdbs, rfl⟩

/-- The object goes only after its name has left the list. -/
theorem registered_removal (hc : Registered c) (hdb : c.databases.lookup name = some db)
    (hdeleted : db.deletionTimestamp.isSome = true) :
    wp (reconcileDatabaseDeletion env name) (fun _ t => Registered t.toCluster)
      (fun _ t => Registered t.toCluster) (c.session db) := by
  obtain rfl : db.specName = name := hc.named name db hdb
  unfold reconcileDatabaseDeletion
  simp only [wp_bind, wp_when, wp_finish, wp_get]
  refine ⟨fun _ => hc, fun _ => ⟨fun _ => hc, fun _ => ⟨fun _ => hc, fun _ => ⟨?_, fun _ => hc⟩⟩⟩⟩
  intro _
  refine dropPDB_spec.mono ?_ ?_
  · rintro _ _ ⟨pdbs, rfl⟩
    have hunlisted := (hc.unlist hdb hdeleted (c.resourceVersion + 1)).pdbs pdbs
    have hdropped := hc.pdbs pdbs
    refine wp_bind.mpr (wp_writeDatabaseNames ?_ ?_)
    · intro _
      exact wp_bind.mpr (wp_when.mpr ⟨fun _ => hdropped, fun hn => absurd Bool.false_ne_true hn⟩)
    · intro _
      refine wp_bind.mpr (wp_when.mpr ⟨fun _ => hunlisted, fun _ => wp_bind.mpr ?_⟩)
      have hout : db.specName ∉ c.stored.status.databaseNames.filter (· ≠ db.specName) := by simp
      have hend := hunlisted.erase hout
      unfold wp removeDatabase
      by_cases hserved : (env.call .removeFinalizer).served = true
      · simp only [if_pos hserved]
        exact wp_when.mpr ⟨fun _ => hend, fun _ => hend⟩
      · simp only [if_neg hserved]
        exact wp_when.mpr ⟨fun _ => hunlisted, fun _ => hunlisted⟩
  · rintro _ _ ⟨pdbs, rfl⟩
    exact hc.pdbs pdbs

/-- Whichever way a reconcile of a Database goes, the list covers those that have reported. -/
theorem registered_reconcileDatabase (hc : Registered c)
    (hok : ∀ db ∈ c.databases.lookup name, reports env name c db = true → Registers env c db) :
    Registered (c.reconcileDatabase env name) := by
  unfold Cluster.reconcileDatabase
  cases hdb : c.databases.lookup name with
  | none => exact hc
  | some db =>
    suffices hend : wp (reconcileDatabase env name) (fun _ t => Registered t.toCluster)
        (fun _ t => Registered t.toCluster) (c.session db) from
      hend.state (P := fun t : Session => Registered t.toCluster)
    unfold reconcileDatabase
    simp only [wp_bind, wp_when, wp_finish, wp_get]
    refine ⟨fun _ => hc, fun _ => ⟨fun _ => hc, fun hget => ?_⟩⟩
    have hget : reached env .getDatabase = true := not_not.mp hget
    split
    · next hdeleted => exact registered_removal hc hdb hdeleted
    · next hlive =>
      have hlive : db.deletionTimestamp = none := Option.not_isSome_iff_eq_none.mp hlive
      exact registered_creation hc hdb hlive hget (hok db hdb)

end Removal

section Sweep

variable {c : Cluster} {env : Instance.Reconciler.Env} {s t : Instance.Reconciler.Session}

/-- Deletions mark the Databases that have a finalizer, and change nothing else about them. -/
structure Marked (before after : Finmap fun _ : String => Database) : Prop where
  origin : ∀ n db', after.lookup n = some db' → ∃ db, before.lookup n = some db ∧
    db'.specName = db.specName ∧ db'.reported = db.reported ∧
    (db'.deletionTimestamp = none → db.deletionTimestamp = none)
  kept : ∀ n db, before.lookup n = some db → db.hasFinalizer = true →
    ∃ db', after.lookup n = some db' ∧ db'.hasFinalizer = true

theorem Marked.refl (databases : Finmap fun _ : String => Database) : Marked databases databases :=
  ⟨fun _ db hdb => ⟨db, hdb, rfl, rfl, id⟩, fun _ db hdb hf => ⟨db, hdb, hf⟩⟩

theorem Marked.trans {a b d : Finmap fun _ : String => Database} (h : Marked a b)
    (h' : Marked b d) : Marked a d := by
  constructor
  · intro n db₂ hdb₂
    obtain ⟨db₁, hdb₁, hspec₁, hrep₁, hlive₁⟩ := h'.origin n db₂ hdb₂
    obtain ⟨db, hdb, hspec, hrep, hlive⟩ := h.origin n db₁ hdb₁
    exact ⟨db, hdb, hspec₁.trans hspec, hrep₁.trans hrep, fun hl => hlive (hlive₁ hl)⟩
  · intro n db hdb hf
    obtain ⟨db₁, hdb₁, hf₁⟩ := h.kept n db hdb hf
    exact h'.kept n db₁ hdb₁ hf₁

theorem marked_deleteObject (now : Time) (name : String)
    (databases : Finmap fun _ : String => Database) :
    Marked databases (deleteObject now name databases) := by
  unfold deleteObject
  cases hdb : databases.lookup name with
  | none => exact .refl databases
  | some db =>
    dsimp only
    split
    · next hf =>
      constructor
      · intro n db' hn
        by_cases hname : n = name
        · rw [hname, Finmap.lookup_insert] at hn
          obtain rfl := Option.some.inj hn
          exact ⟨db, hname ▸ hdb, rfl, rfl, fun hlive => by cases hlive⟩
        · rw [Finmap.lookup_insert_of_ne _ hname] at hn
          exact ⟨db', hn, rfl, rfl, id⟩
      · intro n db' hn hf'
        by_cases hname : n = name
        · rw [hname]
          exact ⟨_, Finmap.lookup_insert _, hf⟩
        · exact ⟨db', (Finmap.lookup_insert_of_ne _ hname).trans hn, hf'⟩
    · next hf =>
      constructor
      · intro n db' hn
        by_cases hname : n = name
        · rw [hname, Finmap.lookup_erase] at hn
          cases hn
        · rw [Finmap.lookup_erase_ne hname] at hn
          exact ⟨db', hn, rfl, rfl, id⟩
      · intro n db' hn hf'
        have hname : n ≠ name := by
          rintro rfl
          obtain rfl := Option.some.inj (hdb.symm.trans hn)
          exact hf hf'
        exact ⟨db', (Finmap.lookup_erase_ne hname).trans hn, hf'⟩

/-- What a reconcile of a deleted instance does to the invariant's part of the world: it marks
Databases, and removes the finalizer if the list is empty. -/
structure Swept (w w' : World) : Prop where
  names : w'.stored.status.databaseNames = w.stored.status.databaseNames
  deletion : w'.stored.deletionTimestamp = w.stored.deletionTimestamp
  finalizer : w'.stored.hasFinalizer = w.stored.hasFinalizer ∨
    w.stored.status.databaseNames = []
  databases : Marked w.databases w'.databases

theorem Swept.refl (w : World) : Swept w w := ⟨rfl, rfl, .inl rfl, .refl _⟩

theorem Registered.sweep {w : World} (hc : Registered c) (h : Swept c.toWorld w)
    (hkept : isDeleting c.stored = true ∨ w.stored.hasFinalizer = c.stored.hasFinalizer) :
    Registered { c with toWorld := w } := by
  have hdeleting : isDeleting w.stored = isDeleting c.stored := by
    unfold isDeleting
    rw [h.deletion]
  constructor
  · intro hlive
    have hlive : isDeleting c.stored = false := hdeleting.symm.trans hlive
    rcases hkept with hd | hf
    · rw [hlive] at hd
      cases hd
    · exact hf.trans (hc.finalizer hlive)
  · intro hgone
    have hgone : gone w.stored = true := hgone
    refine h.names.trans ?_
    rcases h.finalizer with hf | hempty
    · apply hc.emptied
      unfold gone at hgone ⊢
      rwa [hdeleting, hf] at hgone
    · exact hempty
  · intro n db' hn
    obtain ⟨db, hdb, hspec, -, -⟩ := h.databases.origin n db' hn
    rw [hspec]
    exact hc.named n db hdb
  · intro n hn
    have hn : n ∈ w.stored.status.databaseNames := hn
    rw [h.names] at hn
    obtain ⟨db, hdb, hf⟩ := hc.found n hn
    exact h.databases.kept n db hdb hf
  · intro n db' hn hrep hlive
    obtain ⟨db, hdb, -, hrep', hlive'⟩ := h.databases.origin n db' hn
    change n ∈ w.stored.status.databaseNames
    rw [h.names]
    exact hc.listed n db hdb (hrep' ▸ hrep) (hlive' hlive)

/-- The loop marks Databases and comes back with an error if one cannot be read or deleted; it
ends in silence only if one is not there. -/
theorem deleteDatabases_spec {names : List String}
    (hfound : ∀ n ∈ names, env.call (.getDatabase n) ≠ .notFound) :
    wp (deleteDatabases env names)
      (fun _ t => ∃ databases, Marked s.databases databases ∧ t = { s with databases := databases })
      (fun r t => r = .error ∧
        ∃ databases, Marked s.databases databases ∧ t = { s with databases := databases }) s := by
  induction names generalizing s with
  | nil => exact ⟨_, .refl _, rfl⟩
  | cons n rest ih =>
    have hmarked := marked_deleteObject env.now n s.databases
    unfold deleteDatabases
    simp only [wp_bind, wp_when, wp_finish]
    constructor
    · exact fun h => absurd h (hfound n List.mem_cons_self)
    · refine fun _ => ⟨fun _ => ⟨trivial, _, .refl _, rfl⟩, fun _ => ?_⟩
      refine wp_effect ?_ ?_ ?_
      · exact ⟨rfl, _, .refl _, rfl⟩
      · exact ⟨rfl, _, hmarked, rfl⟩
      · refine wp_bind.mpr (wp_when.mpr ⟨fun hn => absurd rfl hn, fun _ => ?_⟩)
        refine (ih fun m hm => hfound m (List.mem_cons_of_mem n hm)).mono ?_ ?_
        · rintro _ t ⟨databases, hm, rfl⟩
          exact ⟨databases, hmarked.trans hm, rfl⟩
        · rintro r t ⟨hr, databases, hm, rfl⟩
          exact ⟨hr, databases, hmarked.trans hm, rfl⟩

theorem store_databases (s : Instance.Reconciler.Session) (inst : Instance) :
    (s.store inst).databases = s.databases := by
  unfold Instance.Reconciler.Session.store
  split <;> rfl

/-- Under the list of the instance every name is found, so silence means that the finalizer was
removed. -/
theorem reconcileInstanceDeletion_spec
    (hget : env.call .deletingGetInstance ≠ .notFound)
    (hfound : ∀ n ∈ s.stored.status.databaseNames, env.call (.getDatabase n) ≠ .notFound) :
    wp (reconcileInstanceDeletion env) (fun _ _ => False)
      (fun r t => t.mem = s.mem ∧ Swept s.toWorld t.toWorld ∧
        (r = .stop → t.stored.hasFinalizer = false)) s := by
  have hno : ∀ r : Result, r ≠ .stop → (r = .stop → s.stored.hasFinalizer = false) :=
    fun r hr h => absurd h hr
  refine wp_onCopy.mpr ?_
  simp only [wp_bind, wp_when, wp_finish, wp_get]
  refine ⟨fun h => absurd h hget, fun _ => ⟨fun _ => ?_, fun _ => ⟨fun _ => ?_, fun _ => ⟨?_, ?_⟩⟩⟩⟩
  · exact ⟨trivial, .refl _, hno _ (by decide)⟩
  · exact ⟨trivial, .refl _, hno _ (by decide)⟩
  · intro _
    refine wp_effect ?_ ?_ ?_
    · exact ⟨trivial, .refl _, hno _ (by decide)⟩
    · exact ⟨trivial, ⟨rfl, rfl, .inl rfl, .refl _⟩, hno _ (by decide)⟩
    · exact ⟨trivial, ⟨rfl, rfl, .inl rfl, .refl _⟩, hno _ (by decide)⟩
  · refine fun _ => ⟨fun hempty => ?_, fun _ => ?_⟩
    · have hremoved : ∀ (r : Result) (u : Instance.Reconciler.Session),
          u.databases = s.databases → u.stored = { s.stored with hasFinalizer := false } →
          Swept s.toWorld u.toWorld ∧ (r = .stop → u.stored.hasFinalizer = false) := by
        intro r u hu hst
        refine ⟨⟨by rw [hst], by rw [hst], .inr hempty, ?_⟩, fun _ => by rw [hst]⟩
        rw [hu]
        exact .refl _
      refine wp_modify.mpr (wp_bind.mpr (wp_write ?_ ?_ ?_))
      · exact ⟨trivial, .refl _, hno _ (by decide)⟩
      · exact ⟨trivial, hremoved _ _ (store_databases _ _) store_stored⟩
      · exact ⟨trivial, hremoved _ _ (store_databases _ _) store_stored⟩
    · refine (deleteDatabases_spec hfound).mono ?_ ?_
      · rintro _ t ⟨databases, hm, rfl⟩
        exact ⟨trivial, ⟨rfl, rfl, .inl rfl, hm⟩, hno _ (by simp)⟩
      · rintro r t ⟨rfl, databases, hm, rfl⟩
        exact ⟨trivial, ⟨rfl, rfl, .inl rfl, hm⟩, hno _ (by simp)⟩

/-- A deleted instance does not get beyond its deletion. -/
theorem body_of_deleting {Q : Unit → Instance.Reconciler.Session → Prop}
    {R : Result → Instance.Reconciler.Session → Prop} (hdeleting : isDeleting s.mem = true)
    (h : wp (reconcileInstanceDeletion env) (fun _ _ => False) R s) :
    wp (Instance.Reconciler.body env) Q R s := by
  refine wp_bind.mpr (wp_bind.mpr (wp_bind.mpr (wp_get.mpr ?_)))
  simp only [if_pos hdeleting]
  exact h.mono (fun _ _ hfalse => hfalse.elim) fun _ _ hr => hr

/-- The write at the end of a reconcile changes the status alone. -/
theorem updateStatus_spec (env : Instance.Reconciler.Env) (call : Instance.Reconciler.Call)
    (s : Instance.Reconciler.Session) :
    wp (Instance.Reconciler.updateStatus env call)
      (fun _ t => t.databases = s.databases ∧
        (t.stored = s.stored ∨ t.stored = { s.stored with status := s.mem.status }))
      (fun _ _ => False) s := by
  refine wp_write ?_ ?_ ?_
  · exact ⟨rfl, .inl rfl⟩
  · exact ⟨store_databases _ _, .inr store_stored⟩
  · exact ⟨store_databases _ _, .inr store_stored⟩

theorem Swept.settle {w : World} (h : Swept w s.toWorld) (hmem : s.mem = w.stored)
    (hdatabases : t.databases = s.databases)
    (hstored : t.stored = s.stored ∨ t.stored = { s.stored with status := s.mem.status }) :
    Swept w t.toWorld ∧ t.stored.hasFinalizer = s.stored.hasFinalizer := by
  rcases hstored with hst | hst
  · refine ⟨⟨?_, ?_, ?_, ?_⟩, by rw [hst]⟩
    · rw [hst, h.names]
    · rw [hst, h.deletion]
    · rw [hst]
      exact h.finalizer
    · rw [hdatabases]
      exact h.databases
  · refine ⟨⟨?_, ?_, ?_, ?_⟩, by rw [hst]⟩
    · rw [hst, hmem]
    · rw [hst]
      exact h.deletion
    · rw [hst]
      exact h.finalizer
    · rw [hdatabases]
      exact h.databases

theorem reconcile_of_deleting {w : World} (hdeleting : isDeleting w.stored = true)
    (hanswers : Answers env w)
    (hfound : ∀ n ∈ w.stored.status.databaseNames, n ∈ w.databases) :
    Swept w (reconcile env w) ∧ (validateSpec w.stored = true → gone w.stored = false →
      reconcileResult env w = .stop → (reconcile env w).stored.hasFinalizer = false) := by
  have hthere : ∀ n ∈ w.session.stored.status.databaseNames,
      env.call (.getDatabase n) ≠ .notFound :=
    fun n hn hno => hanswers.absent n hn hno (hfound n hn)
  have hbody := body_of_deleting (Q := fun _ _ => False) (s := w.session) hdeleting
    (reconcileInstanceDeletion_spec hanswers.deletingGetInstance hthere)
  unfold reconcile reconcileResult
  split
  · next hleft =>
    refine ⟨.refl w, fun hvalid hlive hstop => ?_⟩
    -- the instance is there, so the read has failed
    have hread : ¬ Instance.Reconciler.reached env .getInstance := by
      intro hread
      simp [hvalid, hlive, hread] at hleft
    simp [hlive, hanswers.getInstance, hread] at hstop
  · next hgoes =>
    push Not at hgoes
    obtain ⟨hlive, hread, hvalid⟩ := hgoes
    unfold wp at hbody
    cases hb : Instance.Reconciler.body env w.session with
    | next a t =>
      rw [hb] at hbody
      exact hbody.elim
    | done r t =>
      rw [hb] at hbody
      obtain ⟨hmem, hswept, hremoved⟩ := hbody
      have hwrite := updateStatus_spec env .deferredStatus t
      unfold wp at hwrite
      cases hu : Instance.Reconciler.updateStatus env .deferredStatus t with
      | done r' u =>
        rw [hu] at hwrite
        exact hwrite.elim
      | next ok u =>
        rw [hu] at hwrite
        obtain ⟨hend, hkept⟩ := hswept.settle hmem hwrite.1 hwrite.2
        simp only [Res.state, hu]
        refine ⟨hend, fun _ _ hstop => hkept.trans (hremoved ?_)⟩
        have hout : ¬ (gone w.stored = true ∨ env.call .getInstance = .notFound) := by
          simp [hlive, hanswers.getInstance]
        rw [if_neg hout, if_neg (not_not.mpr hread), if_neg (not_not.mpr hvalid)] at hstop
        cases ok with
        | true => exact hstop
        | false => cases hstop

end Sweep

section Whole

variable {c c' : Cluster}

theorem Registered.mem (hc : Registered c) :
    ∀ n ∈ c.stored.status.databaseNames, n ∈ c.databases := by
  intro n hn
  obtain ⟨db, hdb, -⟩ := hc.found n hn
  exact Finmap.mem_iff.mpr ⟨db, hdb⟩

theorem Registered.create {name : String} (hc : Registered c) (hnew : name ∉ c.databases)
    (specError : Option String) :
    Registered { c with databases := c.databases.insert name (newObject name specError) } := by
  constructor
  · exact hc.finalizer
  · exact hc.emptied
  · intro n db hn
    by_cases hname : n = name
    · subst hname
      obtain rfl := Option.some.inj ((Finmap.lookup_insert _).symm.trans hn)
      rfl
    · exact hc.named n db ((Finmap.lookup_insert_of_ne _ hname).symm.trans hn)
  · intro n hn
    have hname : n ≠ name := by
      rintro rfl
      exact hnew (hc.mem n hn)
    obtain ⟨db, hdb, hf⟩ := hc.found n hn
    exact ⟨db, (Finmap.lookup_insert_of_ne _ hname).trans hdb, hf⟩
  · intro n db hn hrep
    by_cases hname : n = name
    · subst hname
      obtain rfl := Option.some.inj ((Finmap.lookup_insert _).symm.trans hn)
      cases hrep
    · exact hc.listed n db ((Finmap.lookup_insert_of_ne _ hname).symm.trans hn) hrep

theorem Registered.deleteInstance (hc : Registered c) (hlive : isDeleting c.stored = false)
    (now : Time) (version : Nat) :
    Registered { c with
      stored := { c.stored with deletionTimestamp := some now }
      resourceVersion := version } := by
  have hf := hc.finalizer hlive
  constructor
  · intro h
    cases h
  · intro hgone
    simp [gone, hf] at hgone
  · exact hc.named
  · exact hc.found
  · exact hc.listed

theorem registered_step (e : Event) (hc : Registered c) (htidy : Tidy c e)
    (hstep : step c e = some c') : Registered c' := by
  cases e with
  | reconcileDatabase env name =>
    obtain rfl := Option.some.inj hstep
    exact registered_reconcileDatabase hc htidy
  | reconcileInstance env =>
    obtain ⟨⟨hdeleting, -, hanswers⟩, heq⟩ := Option.ite_none_right_eq_some.mp hstep
    obtain rfl := Option.some.inj heq
    exact hc.sweep (reconcile_of_deleting hdeleting hanswers hc.mem).1 (.inl hdeleting)
  | createDatabase name specName specError =>
    obtain ⟨hnew, heq⟩ := Option.ite_none_left_eq_some.mp hstep
    obtain rfl := Option.some.inj heq
    obtain rfl : specName = name := htidy
    exact hc.create hnew specError
  | deleteDatabase name now =>
    obtain rfl := Option.some.inj hstep
    exact hc.sweep ⟨rfl, rfl, .inl rfl, marked_deleteObject now name c.databases⟩ (.inr rfl)
  | deleteInstance now =>
    obtain ⟨hlive, heq⟩ := Option.ite_none_left_eq_some.mp hstep
    obtain rfl := Option.some.inj heq
    exact hc.deleteInstance (Bool.eq_false_of_not_eq_true hlive) now _
  | outside w =>
    obtain ⟨⟨hdatabases, hnames, hf, hdeletion⟩, heq⟩ := Option.ite_none_right_eq_some.mp hstep
    obtain rfl := Option.some.inj heq
    exact hc.sweep ⟨hnames, hdeletion, .inl hf, hdatabases ▸ .refl _⟩ (.inr hf)

theorem comesBack_step (e : Event) (hc : Registered c) (htidy : Tidy c e)
    (hstep : step c e = some c') : ComesBack c e c' := by
  cases e with
  | reconcileInstance env =>
    obtain ⟨⟨hdeleting, hlive, hanswers⟩, heq⟩ := Option.ite_none_right_eq_some.mp hstep
    obtain rfl := Option.some.inj heq
    have hlive : gone c.stored = false := Bool.eq_false_of_not_eq_true hlive
    exact (reconcile_of_deleting hdeleting hanswers hc.mem).2 htidy hlive
  | reconcileDatabase env name => trivial
  | createDatabase name specName specError => trivial
  | deleteDatabase name now => trivial
  | deleteInstance now => trivial
  | outside w => trivial

/-- An instance that has no Databases yet. -/
structure Fresh (c : Cluster) : Prop where
  finalizer : c.stored.hasFinalizer = true
  names : c.stored.status.databaseNames = []
  databases : c.databases = ∅

theorem Fresh.registered (h : Fresh c) : Registered c := by
  have hnone : ∀ n db, c.databases.lookup n ≠ some db := by
    intro n db
    rw [h.databases, Finmap.lookup_empty]
    exact (Option.some_ne_none db).symm
  constructor
  · exact fun _ => h.finalizer
  · exact fun _ => h.names
  · exact fun n db hn => absurd hn (hnone n db)
  · intro n hn
    rw [h.names] at hn
    cases hn
  · exact fun n db hn => absurd hn (hnone n db)

/--
In a tidy run of an instance, its deletion finds every Database that has reported its PDB before
it removes the finalizer, and comes back until it has removed it.
-/
theorem collected_of_tidy (c : Cluster) (events : List Event) (hc : Fresh c)
    (htidy : Runs.Meets step Tidy c events) :
    Runs.Always step Collected c events ∧ Runs.EachStep step ComesBack c events := by
  have hreg : Registered c := hc.registered
  constructor
  · exact Runs.always_of_invariant (fun _ e _ => registered_step e) (fun _ => Registered.collected)
      hreg htidy
  · exact Runs.eachStep_of_invariant (fun _ e _ => registered_step e)
      (fun _ e _ => comesBack_step e) hreg htidy

end Whole

section Sample

open Instance.Reconciler (calm createdWorld)

def healthy (now : Time) : Env where
  now := now
  call := fun _ => .ok
  pods := 1
  databaseContainer := true
  instanceReady := some true
  loadBalancerReady := true
  createDatabase := .ok
  deleteDatabase := .ok
  newUsers := true
  syncUsers := true

def createdCluster : Cluster := { createdWorld none with pdbs := [] }

theorem fresh_createdCluster : Fresh createdCluster := ⟨rfl, rfl, rfl⟩

/-- The monitoring deployment is gone already. -/
def deletion (now : Time) : Instance.Reconciler.Env := { calm now with monitoringExists := false }

/-- The users cannot be created at first, and the retry finds the PDB. -/
def retried : List Event :=
  [.createDatabase "pdb1" "pdb1" none,
    .reconcileDatabase { healthy 1000 with newUsers := false } "pdb1",
    .reconcileDatabase (healthy 2000) "pdb1", .deleteInstance 3000,
    .reconcileInstance (deletion 4000)]

/-- The object has another name than its PDB. -/
def renamed : List Event :=
  [.createDatabase "mydb-pdb1" "pdb1" none, .reconcileDatabase (healthy 1000) "mydb-pdb1",
    .deleteInstance 2000]

def missingPDB : Instance.Reconciler.Env :=
  { deletion 3000 with call := fun c => if c = .getDatabase "pdb1" then .notFound else .ok }

/-- A Database that was retried outlives its instance, and one that is not named like its PDB
leaves the instance with a finalizer that nobody comes back to. -/
theorem retried_database_survives :
    Fresh createdCluster ∧
      (∃ c, Runs.run step createdCluster retried = some c ∧ ¬ Collected c) ∧
      ¬ Runs.EachStep step ComesBack createdCluster
        (renamed ++ [.reconcileInstance missingPDB]) := by
  refine ⟨fresh_createdCluster, ?_, ?_⟩
  · have hbad : ((Runs.run step createdCluster retried).any fun c =>
        gone c.stored && (c.databases.lookup "pdb1").any fun db =>
          db.reported && !db.deletionTimestamp.isSome) = true := by
      decide +kernel
    obtain ⟨c, hrun, hc⟩ := (Option.any_eq_true _ _).mp hbad
    obtain ⟨hgone, hdb⟩ := Bool.and_eq_true_iff.mp hc
    obtain ⟨db, hlookup, hdb⟩ := (Option.any_eq_true _ _).mp hdb
    obtain ⟨hreported, hlive⟩ := Bool.and_eq_true_iff.mp hdb
    refine ⟨c, hrun, fun h => ?_⟩
    rw [h hgone "pdb1" db hlookup hreported] at hlive
    cases hlive
  · intro h
    have hbad : ((Runs.run step createdCluster renamed).any fun c =>
        reconcileResult missingPDB c.toWorld = .stop ∧
          (step c (.reconcileInstance missingPDB)).any (·.stored.hasFinalizer)) = true := by
      decide +kernel
    obtain ⟨c, hrun, hc⟩ := (Option.any_eq_true _ _).mp hbad
    obtain ⟨hstop, hleft⟩ := of_decide_eq_true hc
    obtain ⟨c', hstep, hf⟩ := (Option.any_eq_true _ _).mp hleft
    rw [h.last hrun hstep hstop] at hf
    cases hf

/-- The Database is deleted with its instance, and the finalizer is removed after it. -/
def deletedTogether : List Event :=
  [.createDatabase "pdb1" "pdb1" none, .reconcileDatabase (healthy 1000) "pdb1",
    .deleteInstance 2000, .reconcileInstance (deletion 3000),
    .reconcileDatabase (healthy 4000) "pdb1", .reconcileInstance (deletion 5000)]

theorem deletedTogether_collected :
    Runs.Meets step Tidy createdCluster deletedTogether ∧
      (Runs.run step createdCluster deletedTogether).any (fun c => gone c.stored) = true ∧
      Runs.Always step Collected createdCluster deletedTogether ∧
      Runs.EachStep step ComesBack createdCluster deletedTogether := by
  have hm : Runs.Meets step Tidy createdCluster deletedTogether := by
    decide +kernel
  exact ⟨hm, by decide +kernel, collected_of_tidy _ _ fresh_createdCluster hm⟩

end Sample

end ElCarro.Databases
