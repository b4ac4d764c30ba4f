import ElCarro.Provision.ConfigFiles

/-! # Configuration files and restarts

What the calls do to the files of a container. Any of them may fail; only a copy and the
creation of a database may then have done some of their work. A restart brings back what the
image has, and keeps the files on the disk.
-/

namespace ElCarro.Provision

open Dialogue LinkedFiles

section Places

variable (i : Installation)

theorem plain_of_head {name : List Char} {c : Char} (hhead : name.head? = some c) (hc : c ≠ '.')
    (hsep : '/' ∉ name) : SlashPath.Plain name := by
  refine ⟨?_, ?_, ?_, hsep⟩
  · rintro rfl
    cases hhead
  · rintro rfl
    exact hc (Option.some.inj hhead).symm
  · rintro rfl
    exact hc (Option.some.inj hhead).symm

theorem plain_name (f : ConfigFile) : SlashPath.Plain (f.name i.cdbName).toList := by
  have hsep : '/' ∉ i.cdbName.toList := i.plain.sep_notMem
  cases f with
  | spfile =>
    refine plain_of_head (c := 's') ?_ (by decide) ?_
    · simp [ConfigFile.name]
    · simp [ConfigFile.name, hsep]
  | initOra =>
    refine plain_of_head (c := 'i') ?_ (by decide) ?_
    · simp [ConfigFile.name]
    · simp [ConfigFile.name, hsep]
  | orapw =>
    refine plain_of_head (c := 'o') ?_ (by decide) ?_
    · simp [ConfigFile.name]
    · simp [ConfigFile.name, hsep]

theorem name_injective (cdbName : String) : Function.Injective (ConfigFile.name cdbName) := by
  intro f g h
  have hhead := congrArg (fun name => name.toList.head?) h
  revert hhead
  cases f <;> cases g <;> simp [ConfigFile.name]

theorem glue_singleton (name : List Char) : SlashPath.glue [name] = name := by
  simp [SlashPath.glue]

theorem parse_join_plain {dir name : List Char} (hdir : dir.head? = some '/')
    (hname : SlashPath.Plain name) :
    SlashPath.parse (SlashPath.join dir name) =
      ⟨true, (SlashPath.parse dir).parts ++ [name]⟩ := by
  have hjoin : SlashPath.parse (SlashPath.join dir (SlashPath.glue [name])) =
      ⟨true, (SlashPath.parse dir).parts ++ [name]⟩ :=
    SlashPath.parse_join hdir (by simpa using hname) (List.cons_ne_nil _ _)
  rwa [glue_singleton] at hjoin

theorem head?_join {dir name : List Char} (hdir : dir.head? = some '/')
    (hname : SlashPath.Plain name) : (SlashPath.join dir name).head? = some '/' := by
  have hjoin : SlashPath.join dir (SlashPath.glue [name]) =
      '/' :: SlashPath.glue ((SlashPath.parse dir).parts ++ [name]) :=
    SlashPath.join_eq hdir (by simpa using hname) (List.cons_ne_nil _ _)
  rw [glue_singleton] at hjoin
  rw [hjoin, List.head?_cons]

def diskParts : List (List Char) :=
  ["u02".toList, "app".toList, "oracle".toList, "oraconfig".toList]

theorem parse_configDir :
    SlashPath.parse (configDir i) = ⟨true, diskParts ++ [i.cdbName.toList]⟩ := by
  have hdir : configDir i = '/' :: SlashPath.glue (diskParts ++ [i.cdbName.toList]) := by
    simp [configDir, diskParts, SlashPath.glue, List.intercalate]
    rfl
  rw [hdir]
  refine SlashPath.parse_sep_glue ?_
  intro part hpart
  rcases List.mem_append.mp hpart with hpart | hpart
  · have hplain : diskParts.all (fun part => decide (SlashPath.Plain part)) = true := by decide
    exact of_decide_eq_true (List.all_eq_true.mp hplain part hpart)
  · rw [List.mem_singleton.mp hpart]
    exact i.plain

theorem parse_link (f : ConfigFile) :
    SlashPath.parse (link i f) =
      ⟨true, (SlashPath.parse i.oracleHome.toList).parts ++ ["dbs".toList] ++
        [(f.name i.cdbName).toList]⟩ := by
  have hdbs : SlashPath.Plain "dbs".toList := by decide
  rw [link, sourceConfigDir, parse_join_plain (head?_join i.rooted hdbs) (plain_name i f),
    parse_join_plain i.rooted hdbs]

theorem parse_file (f : ConfigFile) :
    SlashPath.parse (file i f) =
      ⟨true, diskParts ++ [i.cdbName.toList] ++ [(f.name i.cdbName).toList]⟩ := by
  have hdir : (configDir i).head? = some '/' := by simp [configDir]
  rw [file, parse_join_plain hdir (plain_name i f), parse_configDir]

theorem link_injective : Function.Injective (link i) := by
  intro f g h
  have hparse := (parse_link i f).symm.trans ((congrArg SlashPath.parse h).trans (parse_link i g))
  have hname : (f.name i.cdbName).toList = (g.name i.cdbName).toList := by simpa using hparse
  exact name_injective i.cdbName (String.toList_inj.mp hname)

theorem file_injective : Function.Injective (file i) := by
  intro f g h
  have hparse := (parse_file i f).symm.trans ((congrArg SlashPath.parse h).trans (parse_file i g))
  have hname : (f.name i.cdbName).toList = (g.name i.cdbName).toList := by simpa using hparse
  exact name_injective i.cdbName (String.toList_inj.mp hname)

theorem link_ne_file (f g : ConfigFile) : link i f ≠ file i g := by
  intro h
  have hparse := (parse_link i f).symm.trans ((congrArg SlashPath.parse h).trans (parse_file i g))
  have hparts := (SlashPath.Parts.mk.inj hparse).2
  obtain ⟨hdirs, -⟩ := List.append_inj' hparts rfl
  obtain ⟨hhome, -⟩ := List.append_inj' hdirs rfl
  exact i.apart hhome

end Places

section Serving

variable {α : Type}

/-- The files of a container, and what the database has last written under the names. -/
structure Host (α : Type) where
  files : Files Path α
  written : ConfigFile → Option (List α)

variable (i : Installation)

/-- The files that are moved to the disk. -/
def Moved (f : ConfigFile) : Prop := f ≠ .initOra

instance (f : ConfigFile) : Decidable (Moved f) := inferInstanceAs (Decidable (f ≠ .initOra))

theorem mem_moved (f : ConfigFile) : f ∈ [ConfigFile.spfile, .orapw] ↔ Moved f := by
  cases f <;> decide

/-- A new database has its files under the names, if these were not in use. -/
structure Creates (w t : Host α) : Prop where
  disk : ∀ f, t.files (file i f) = w.files (file i f)
  home : ∀ f, Moved f → w.files (link i f) = none →
    ∃ data, dataAt t.files (link i f) = some data ∧ t.written f = some data

/-- There is a file at the end of the links. -/
def Exists (files : Files Path α) (path : Path) : Bool :=
  ((leads files path).bind files).isSome

/-- A call that succeeds. -/
def does (w : Host α) : (q : Call) → Answer q → Host α → Prop
  | .lstat path, r, t => r = (w.files path).isSome ∧ t = w
  | .stat path, r, t => r = Exists w.files path ∧ t = w
  | .remove path, r, t =>
      r = none ∧ ∃ files, remove w.files path = some files ∧ t = { w with files }
  | .symlink target path, r, t =>
      r = none ∧ ∃ files, symlink w.files target path = some files ∧ t = { w with files }
  | .mkdirAll _, r, t => r = none ∧ t = w
  | .openFile path, r, t => ∃ opened, opens w.files path = some opened ∧ r = .ok opened ∧ t = w
  | .create path, r, t => ∃ created files, create w.files path = some (created, files) ∧
      r = .ok created ∧ t = { w with files }
  | .copy source dest, r, t => r = none ∧ ∃ data, dataAt w.files source = some data ∧
      t = { w with files := write w.files dest data }
  | .createDotEnv _, r, t => r = none ∧ t = w
  | .runDbca _, r, t => r = none ∧ Creates i w t

/-- The reply is an error. Whether there is a file is always told. -/
def fails : (q : Call) → Answer q → Prop
  | .lstat _, _ => False
  | .stat _, _ => False
  | .remove _, r => ∃ err, r = some err
  | .symlink _ _, r => ∃ err, r = some err
  | .mkdirAll _, r => ∃ err, r = some err
  | .openFile _, r => ∃ err, r = .error err
  | .create _, r => ∃ err, r = .error err
  | .copy _ _, r => ∃ err, r = some err
  | .createDotEnv _, r => ∃ err, r = some err
  | .runDbca _, r => ∃ err, r = some err

/-- What a call that fails may have done. -/
def Partly (w : Host α) : Call → Host α → Prop
  | .copy source dest, t => t = w ∨ ∃ data part, dataAt w.files source = some data ∧
      part <+: data ∧ t = { w with files := write w.files dest part }
  | .runDbca _, t => (∀ f, t.files (file i f) = w.files (file i f)) ∧ t.written = w.written
  | _, t => t = w

/-- The service of the operating system. -/
def serve : Service (Host α) Call Answer := fun w q r t =>
  does i w q r t ∨ fails q r ∧ Partly i w q t

/-- The service when a call fails only because it cannot be done. -/
def sound : Service (Host α) Call Answer := fun w q r t =>
  does i w q r t ∨ (¬ ∃ r' t', does i w q r' t') ∧ fails q r ∧ t = w

/-- A system on which a call fails only where it cannot be done, and a database is created
with the given files. -/
def perform (made : ConfigFile → List α) (w : Host α) : (q : Call) → Answer q × Host α
  | .lstat path => ((w.files path).isSome, w)
  | .stat path => (Exists w.files path, w)
  | .remove path =>
    match remove w.files path with
    | none => (some "no such file or directory", w)
    | some files => (none, { w with files })
  | .symlink target path =>
    match symlink w.files target path with
    | none => (some "file exists", w)
    | some files => (none, { w with files })
  | .mkdirAll _ => (none, w)
  | .openFile path =>
    match opens w.files path with
    | none => (.error "no such file or directory", w)
    | some opened => (.ok opened, w)
  | .create path =>
    match create w.files path with
    | none => (.error "too many levels of symbolic links", w)
    | some (created, files) => (.ok created, { w with files })
  | .copy source dest =>
    match dataAt w.files source with
    | none => (some "bad file descriptor", w)
    | some data => (none, { w with files := write w.files dest data })
  | .createDotEnv _ => (none, w)
  | .runDbca _ =>
    (none, ⟨write (write w.files (link i .spfile) (made .spfile)) (link i .orapw) (made .orapw),
      fun f => some (made f)⟩)

variable {i} in
theorem creates_perform (made : ConfigFile → List α) (w : Host α) (params : List String) :
    Creates i w (perform i made w (.runDbca params)).2 := by
  refine ⟨?_, ?_⟩
  · intro f
    exact (write_of_ne (link_ne_file i .orapw f).symm).trans
      (write_of_ne (link_ne_file i .spfile f).symm)
  · intro f hf _
    refine ⟨made f, ?_, rfl⟩
    cases f with
    | spfile =>
      exact (dataAt_write_of_ne ((link_injective i).ne (by decide))).trans dataAt_write_self
    | initOra => exact absurd rfl hf
    | orapw => exact dataAt_write_self

theorem serve_perform (made : ConfigFile → List α) :
    Refines (served (perform i made)) (serve i) := by
  rintro w q r t h
  cases q with
  | lstat path =>
    cases h
    exact .inl ⟨rfl, rfl⟩
  | stat path =>
    cases h
    exact .inl ⟨rfl, rfl⟩
  | remove path =>
    rw [served, perform] at h
    split at h
    · cases h
      exact .inr ⟨⟨_, rfl⟩, rfl⟩
    · next files hfiles =>
      cases h
      exact .inl ⟨rfl, files, hfiles, rfl⟩
  | symlink target path =>
    rw [served, perform] at h
    split at h
    · cases h
      exact .inr ⟨⟨_, rfl⟩, rfl⟩
    · next files hfiles =>
      cases h
      exact .inl ⟨rfl, files, hfiles, rfl⟩
  | mkdirAll path =>
    cases h
    exact .inl ⟨rfl, rfl⟩
  | openFile path =>
    rw [served, perform] at h
    split at h
    · cases h
      exact .inr ⟨⟨_, rfl⟩, rfl⟩
    · next opened hopened =>
      cases h
      exact .inl ⟨opened, hopened, rfl, rfl⟩
  | create path =>
    rw [served, perform] at h
    split at h
    · cases h
      exact .inr ⟨⟨_, rfl⟩, rfl⟩
    · next created files hcreated =>
      cases h
      exact .inl ⟨created, files, hcreated, rfl, rfl⟩
  | copy source dest =>
    rw [served, perform] at h
    split at h
    · cases h
      exact .inr ⟨⟨_, rfl⟩, .inl rfl⟩
    · next data hdata =>
      cases h
      exact .inl ⟨rfl, data, hdata, rfl⟩
  | createDotEnv dbName =>
    cases h
    exact .inl ⟨rfl, rfl⟩
  | runDbca params =>
    cases h
    exact .inl ⟨rfl, creates_perform made w params⟩

end Serving

section Kept

variable {α : Type} (i : Installation)

/-- What the database has written is on the disk. -/
def Stored (w : Host α) : Prop :=
  ∀ f, Moved f → ∀ data, w.written f = some data → dataAt w.files (file i f) = some data

/-- The names in the home are links to the disk. -/
def Linked (w : Host α) : Prop := ∀ f, Moved f → w.files (link i f) = some (.link (file i f))

/-- What the database has written is on the disk, or still in the home. -/
def Accounted (w : Host α) : Prop :=
  ∀ f, Moved f → ∀ data, w.written f = some data →
    dataAt w.files (file i f) = some data ∨ dataAt w.files (link i f) = some data

/-- There are no links on the disk. -/
def Solid (w : Host α) : Prop := ∀ f target, w.files (file i f) ≠ some (.link target)

/-- What holds of a container; a server that is up has its links. -/
structure Sound (w : Host α) (up : Bool) : Prop where
  solid : Solid i w
  stored : Stored i w
  linked : up = true → Linked i w

structure SameDisk (w t : Host α) : Prop where
  files : ∀ f, t.files (file i f) = w.files (file i f)
  written : t.written = w.written

variable {i} {w t : Host α}

theorem SameDisk.refl (w : Host α) : SameDisk i w w := ⟨fun _ => rfl, rfl⟩

theorem SameDisk.stored (h : SameDisk i w t) (hw : Stored i w) : Stored i t := by
  intro f hf data hdata
  rw [dataAt_congr (h.files f)]
  exact hw f hf data (h.written ▸ hdata)

theorem SameDisk.solid (h : SameDisk i w t) (hw : Solid i w) : Solid i t := by
  intro f target
  rw [h.files f]
  exact hw f target

theorem Stored.accounted (h : Stored i w) : Accounted i w :=
  fun f hf data hdata => .inl (h f hf data hdata)

/-- What is stored and linked is read under the names. -/
theorem Stored.read (h : Stored i w) (hlinked : Linked i w) {f : ConfigFile} (hf : Moved f)
    {data : List α} (hdata : w.written f = some data) : read w.files (link i f) = some data :=
  read_of_link (hlinked f hf) (h f hf data hdata)

/-- What does not depend on the names in the home. -/
def Apart (i : Installation) (I : Host α → Prop) : Prop :=
  ∀ w f node, I w → I { w with files := Function.update w.files (link i f) node }

theorem apart_sameDisk {w₀ : Host α} : Apart i (SameDisk i w₀) := by
  intro w f node h
  refine ⟨fun g => ?_, h.written⟩
  exact (Function.update_of_ne (link_ne_file i f g).symm _ _).trans (h.files g)

end Kept

section Relinking

variable {α : Type} {i : Installation} {I : Host α → Prop} {w : Host α}

theorem holds_removeConfigFileLinks {order : List ConfigFile} (hI : Apart i I) (hw : I w) :
    Holds (serve i) I (removeConfigFileLinks i order)
      (fun err t => err = none → ∀ f, f ∈ order ∨ w.files (link i f) = none →
        t.files (link i f) = none) w := by
  induction order generalizing w with
  | nil => exact .pure hw fun _ f hf => hf.resolve_left (List.not_mem_nil)
  | cons g order ih =>
    refine Holds.bind (P := fun found t => t = w ∧ (found = false → w.files (link i g) = none))
      (.request hw ?_) ?_
    · rintro r t (⟨rfl, rfl⟩ | ⟨hfails, -⟩)
      · exact ⟨hw, rfl, by simp⟩
      · exact hfails.elim
    · rintro (- | -) t - ⟨rfl, hfound⟩
      · refine (ih hw).mono (fun _ h => h) ?_
        intro err u _ hu hnone f hf
        refine hu hnone f ?_
        rcases hf with hf | hf
        · rcases List.mem_cons.mp hf with rfl | hf
          · exact .inr (hfound rfl)
          · exact .inl hf
        · exact .inr hf
      · refine Holds.bind (P := fun r u => r = none → I u ∧
          u.files = Function.update t.files (link i g) none) (.request hw ?_) ?_
        · rintro r u (⟨rfl, files, hremove, rfl⟩ | ⟨⟨err, rfl⟩, rfl⟩)
          · obtain ⟨node, -, rfl⟩ := Option.map_eq_some_iff.mp hremove
            have hsame := hI t g none hw
            exact ⟨hsame, fun _ => ⟨hsame, rfl⟩⟩
          · exact ⟨hw, by simp⟩
        · rintro (_ | err) u hu hr
          · obtain ⟨hsame, hfiles⟩ := hr rfl
            refine (ih hsame).mono (fun _ h => h) ?_
            intro err v _ hv hnone f hf
            refine hv hnone f ?_
            by_cases hfg : f = g
            · subst hfg
              right
              rw [hfiles, Function.update_self]
            · rcases hf with hf | hf
              · exact .inl ((List.mem_cons.mp hf).resolve_left hfg)
              · right
                rw [hfiles, Function.update_of_ne ((link_injective i).ne hfg)]
                exact hf
          · exact .pure hu (by simp)

theorem holds_orFail {err : Option String} {text : String → String}
    (hw : I w) : Holds (serve i) I (orFail err text) (fun _ t => err = none ∧ t = w) w := by
  cases err with
  | none => exact .pure hw ⟨rfl, rfl⟩
  | some err => exact .fail hw

/-- A call that changes nothing. -/
theorem holds_createDotEnv {dbName : String} (hw : I w) :
    Holds (serve i) I (ask (.createDotEnv dbName)) (fun _ t => t = w) w := by
  refine .request hw ?_
  rintro r t (⟨-, rfl⟩ | ⟨-, rfl⟩)
  · exact ⟨hw, rfl⟩
  · exact ⟨hw, rfl⟩

theorem holds_symlink {g : ConfigFile} (hI : Apart i I) (hw : I w) :
    Holds (serve i) I (ask (.symlink (file i g) (link i g)))
      (fun r t => r = none →
        t.files = Function.update w.files (link i g) (some (.link (file i g)))) w := by
  refine .request hw ?_
  rintro r t (⟨rfl, files, hlink, rfl⟩ | ⟨⟨err, rfl⟩, rfl⟩)
  · obtain rfl : Function.update w.files (link i g) (some (.link (file i g))) = files := by
      rw [symlink] at hlink
      split at hlink
      · cases hlink
      · exact Option.some.inj hlink
    exact ⟨hI _ _ _ hw, fun _ => rfl⟩
  · exact ⟨hw, by simp⟩

theorem holds_removeExisting {g : ConfigFile} (hI : Apart i I) (hw : I w) :
    Holds (serve i) I (removeExisting i g)
      (fun _ t => ∀ f, f ≠ g → t.files (link i f) = w.files (link i f)) w := by
  refine Holds.bind (P := fun _ t => t = w) (.request hw ?_) ?_
  · rintro r t (⟨-, rfl⟩ | ⟨hfails, -⟩)
    · exact ⟨hw, rfl⟩
    · exact hfails.elim
  · rintro (- | -) t - rfl
    · exact .pure hw fun _ _ => rfl
    · refine Holds.bind (P := fun _ u => ∀ f, f ≠ g → u.files (link i f) = t.files (link i f))
        (.request hw ?_) ?_
      · rintro r u (⟨-, files, hremove, rfl⟩ | ⟨-, rfl⟩)
        · obtain ⟨node, -, rfl⟩ := Option.map_eq_some_iff.mp hremove
          refine ⟨hI _ _ none hw, fun f hfg => ?_⟩
          exact Function.update_of_ne ((link_injective i).ne hfg) _ _
        · exact ⟨hw, fun _ _ => rfl⟩
      · intro r u hu hsame
        refine (holds_orFail hu).mono (fun _ h => h) ?_
        rintro _ v - ⟨-, rfl⟩
        exact hsame

/-- A link that is made, and those that were there, are there at the end of the loop. -/
theorem linked_of_update {g : ConfigFile} {fs : List ConfigFile} {u : Host α}
    (hu : ∀ f, f ≠ g → u.files (link i f) = w.files (link i f)) {t : Host α}
    (ht : t.files = Function.update u.files (link i g) (some (.link (file i g))))
    {f : ConfigFile} (hf : f ∈ g :: fs ∨ w.files (link i f) = some (.link (file i f))) :
    f ∈ fs ∨ t.files (link i f) = some (.link (file i f)) := by
  by_cases hfg : f = g
  · subst hfg
    right
    rw [ht, Function.update_self]
  · rcases hf with hf | hf
    · exact .inl ((List.mem_cons.mp hf).resolve_left hfg)
    · right
      rw [ht, Function.update_of_ne ((link_injective i).ne hfg), hu f hfg]
      exact hf

theorem holds_linkEach {order : List ConfigFile} (hI : Apart i I) (hw : I w) :
    Holds (serve i) I (linkEach i order)
      (fun err t => err = none →
        ∀ f, f ∈ order ∨ w.files (link i f) = some (.link (file i f)) →
          t.files (link i f) = some (.link (file i f))) w := by
  induction order generalizing w with
  | nil => exact .pure hw fun _ f hf => hf.resolve_left List.not_mem_nil
  | cons g order ih =>
    refine Holds.bind (holds_symlink hI hw) ?_
    rintro (_ | err) t ht hr
    · refine (ih ht).mono (fun _ h => h) ?_
      intro err u _ hu hnone f hf
      exact hu hnone f (linked_of_update (fun _ _ => rfl) (hr rfl) hf)
    · exact .pure ht (by simp)

/-- The relinking of the bootstrap task. -/
theorem holds_relinkEach {fs : List ConfigFile} (hI : Apart i I) (hw : I w) :
    Holds (serve i) I (relinkEach i fs)
      (fun _ t => ∀ f, f ∈ fs ∨ w.files (link i f) = some (.link (file i f)) →
        t.files (link i f) = some (.link (file i f))) w := by
  induction fs generalizing w with
  | nil => exact .pure hw fun f hf => hf.resolve_left List.not_mem_nil
  | cons g fs ih =>
    refine Holds.bind (holds_removeExisting hI hw) fun _ u hu hothers => ?_
    refine Holds.bind (holds_symlink hI hu) fun r v hv hlink => ?_
    refine Holds.bind (holds_orFail hv) ?_
    rintro _ x hx ⟨hnone, rfl⟩
    refine (ih hx).mono (fun _ h => h) ?_
    intro _ y _ hy f hf
    exact hy f (linked_of_update hothers (hlink hnone) hf)

/-- Relinking leaves the disk as it is. -/
theorem holds_relinkConfigFiles {order order' : List ConfigFile} (hall : ∀ f, f ∈ order')
    (hI : Apart i I) (hw : I w) :
    Holds (serve i) I (relinkConfigFiles i order order')
      (fun err t => err = none → Linked i t) w := by
  refine Holds.bind (holds_removeConfigFileLinks hI hw) ?_
  rintro (_ | err) t ht -
  · refine (holds_linkEach hI ht).mono (fun _ h => h) ?_
    intro err u _ hu hnone f _
    exact hu hnone f (.inl (hall f))
  · exact .pure ht (by simp)

theorem holds_new {o : Orders} (hI : Apart i I) (hw : I w) :
    Holds (serve i) I (new i o)
      (fun _ t => Exists w.files unseededImageFile = true → Linked i t) w := by
  refine Holds.bind (holds_createDotEnv hw) fun err t ht hsame => ?_
  obtain rfl := hsame
  refine Holds.bind (holds_orFail ht) fun _ u hu h => ?_
  obtain ⟨-, rfl⟩ := h
  refine Holds.bind (P := fun found v => v = u ∧ found = Exists u.files unseededImageFile)
    (.request hu ?_) ?_
  · rintro r v (⟨rfl, rfl⟩ | ⟨hfails, -⟩)
    · exact ⟨hu, rfl, rfl⟩
    · exact hfails.elim
  · rintro (- | -) v hv ⟨rfl, hfound⟩
    · refine .pure hv ?_
      rw [← hfound]
      simp
    · refine Holds.bind (holds_relinkConfigFiles (fun f => (o.all f).2.2) hI hv) ?_
      intro err x hx hlinked
      refine (holds_orFail hx).mono (fun _ h => h) ?_
      rintro _ y - ⟨hnone, rfl⟩ -
      exact hlinked hnone

end Relinking

section Moving

variable {α : Type} {i : Installation} {w t : Host α} {source dest : Path} {data : List α}

/-- A file that is being moved: nothing else changes, and it is in one of the two places. -/
structure Moving (source dest : Path) (data : List α) (w t : Host α) : Prop where
  others : ∀ path, path ≠ dest → path ≠ source → t.files path = w.files path
  written : t.written = w.written
  solid : ∀ target, t.files dest ≠ some (.link target)
  somewhere : dataAt t.files source = some data ∨
    t.files source = none ∧ dataAt t.files dest = some data

/-- Writing to the new place, while the file is still in the old one. -/
theorem moving_write (hne : source ≠ dest) (h : Moving source dest data w t)
    (hsource : dataAt t.files source = some data) (more : List α) :
    Moving source dest data w { t with files := write t.files dest more } ∧
      dataAt (write t.files dest more) source = some data := by
  have hkept : dataAt (write t.files dest more) source = some data :=
    (dataAt_write_of_ne hne).trans hsource
  refine ⟨⟨?_, h.written, ?_, .inl hkept⟩, hkept⟩
  · intro path hdest hpath
    exact (write_of_ne hdest).trans (h.others path hdest hpath)
  · exact ne_link_of_dataAt dataAt_write_self

theorem moving_remove (hne : source ≠ dest) (h : Moving source dest data w t)
    (hdest : dataAt t.files dest = some data) :
    Moving source dest data w { t with files := Function.update t.files source none } ∧
      dataAt (Function.update t.files source none) dest = some data := by
  have hkept : dataAt (Function.update t.files source none) dest = some data :=
    (dataAt_congr (Function.update_of_ne hne.symm _ _)).trans hdest
  refine ⟨⟨?_, h.written, ne_link_of_dataAt hkept, .inr ⟨?_, hkept⟩⟩, hkept⟩
  · intro path hpath hsource
    exact (Function.update_of_ne hsource _ _).trans (h.others path hpath hsource)
  · exact Function.update_self _ _ _

/-- Whatever fails, the file stays in the old place until it is in the new one. -/
theorem holds_moveFile (hne : source ≠ dest) (hsource : dataAt w.files source = some data)
    (hsolid : ∀ target, w.files dest ≠ some (.link target)) :
    Holds (serve i) (Moving source dest data w) (moveFile source dest)
      (fun err t => err = none → t.files source = none ∧ dataAt t.files dest = some data) w := by
  have hw : Moving source dest data w w := ⟨fun _ _ _ => rfl, rfl, hsolid, .inl hsource⟩
  refine Holds.bind (P := fun r t => t = w ∧ ∀ opened, r = .ok opened → opened = source)
    (.request hw ?_) ?_
  · rintro r t (⟨opened, hopens, rfl, rfl⟩ | ⟨⟨err, rfl⟩, rfl⟩)
    · refine ⟨hw, rfl, ?_⟩
      rintro _ ⟨⟩
      exact Option.some.inj ((opens_eq_some hopens).1.symm.trans (leads_of_dataAt hsource))
    · exact ⟨hw, rfl, by simp⟩
  rintro (err | opened) t - ⟨rfl, hopened⟩
  · exact .pure hw (by simp)
  obtain rfl := hopened opened rfl
  refine Holds.bind (P := fun r u => ∀ created, r = .ok created → created = dest ∧
    dataAt u.files opened = some data) (.request hw ?_) ?_
  · rintro r u (⟨created, files, hcreate, rfl, rfl⟩ | ⟨⟨err, rfl⟩, rfl⟩)
    · rw [create, leads, follow_of_ne_link hsolid, Option.map_some] at hcreate
      obtain ⟨rfl, rfl⟩ := Prod.mk.inj (Option.some.inj hcreate)
      obtain ⟨hmoving, hkept⟩ := moving_write hne hw hsource []
      refine ⟨hmoving, ?_⟩
      rintro _ ⟨⟩
      exact ⟨rfl, hkept⟩
    · exact ⟨hw, by simp⟩
  rintro (err | created) u hu hcreated
  · exact .pure hu (by simp)
  obtain ⟨rfl, hkept⟩ := hcreated created rfl
  refine Holds.bind (P := fun r v => r = none → dataAt v.files created = some data)
    (.request hu ?_) ?_
  · rintro r v (⟨rfl, data', hdata', rfl⟩ | ⟨⟨err, rfl⟩, rfl | ⟨data', part, -, -, rfl⟩⟩)
    · obtain rfl : data = data' := Option.some.inj (hkept.symm.trans hdata')
      exact ⟨(moving_write hne hu hkept data).1, fun _ => dataAt_write_self⟩
    · exact ⟨hu, by simp⟩
    · exact ⟨(moving_write hne hu hkept part).1, by simp⟩
  rintro (_ | err) v hv hcopied
  · refine .request hv ?_
    rintro r x (⟨rfl, files, hremove, rfl⟩ | ⟨⟨err, rfl⟩, rfl⟩)
    · obtain ⟨node, -, rfl⟩ := Option.map_eq_some_iff.mp hremove
      obtain ⟨hmoving, hdest⟩ := moving_remove hne hv (hcopied rfl)
      exact ⟨hmoving, fun _ => ⟨Function.update_self _ _ _, hdest⟩⟩
    · exact ⟨hv, by simp⟩
  · exact .pure hv (by simp)

end Moving

section Creating

variable {α : Type} {i : Installation} {w t : Host α} {g : ConfigFile} {data : List α}

theorem Moving.accounted (h : Moving (link i g) (file i g) data w t)
    (hwritten : w.written g = some data) (hw : Accounted i w) : Accounted i t := by
  intro f hf data' hdata'
  rw [h.written] at hdata'
  by_cases hfg : f = g
  · subst hfg
    obtain rfl : data = data' := Option.some.inj (hwritten.symm.trans hdata')
    exact h.somewhere.elim .inr fun hmoved => .inl hmoved.2
  · rw [dataAt_congr (h.others _ ((file_injective i).ne hfg) (link_ne_file i g f).symm),
      dataAt_congr (h.others _ (link_ne_file i f g) ((link_injective i).ne hfg))]
    exact hw f hf data' hdata'

theorem Moving.solid_all (h : Moving (link i g) (file i g) data w t) (hw : Solid i w) :
    Solid i t := by
  intro f target
  by_cases hfg : f = g
  · subst hfg
    exact h.solid target
  · rw [h.others _ ((file_injective i).ne hfg) (link_ne_file i g f).symm]
    exact hw f target

/-- Some files are still in the home, as the database has written them; the others are on the
disk. -/
structure Underway (i : Installation) (fs : List ConfigFile) (w : Host α) : Prop where
  solid : Solid i w
  home : ∀ f ∈ fs, ∃ data, dataAt w.files (link i f) = some data ∧ w.written f = some data
  disk : ∀ f, Moved f → f ∉ fs → ∀ data, w.written f = some data →
    dataAt w.files (file i f) = some data

theorem Underway.accounted {fs : List ConfigFile} (h : Underway i fs w) : Accounted i w := by
  intro f hf data hdata
  by_cases hmem : f ∈ fs
  · obtain ⟨data', hhome, hwritten⟩ := h.home f hmem
    obtain rfl : data' = data := Option.some.inj (hwritten.symm.trans hdata)
    exact .inr hhome
  · exact .inl (h.disk f hf hmem data hdata)

theorem Underway.next {fs : List ConfigFile} (h : Underway i (g :: fs) w)
    (hnodup : (g :: fs).Nodup) (hwritten : w.written g = some data)
    (hmoving : Moving (link i g) (file i g) data w t)
    (hdisk : dataAt t.files (file i g) = some data) : Underway i fs t := by
  have hg : g ∉ fs := (List.nodup_cons.mp hnodup).1
  refine ⟨hmoving.solid_all h.solid, ?_, ?_⟩
  · intro f hf
    have hfg : f ≠ g := by
      rintro rfl
      exact hg hf
    rw [dataAt_congr (hmoving.others _ (link_ne_file i f g) ((link_injective i).ne hfg)),
      hmoving.written]
    exact h.home f (List.mem_cons_of_mem g hf)
  · intro f hf hmem data' hdata'
    rw [hmoving.written] at hdata'
    by_cases hfg : f = g
    · subst hfg
      obtain rfl : data = data' := Option.some.inj (hwritten.symm.trans hdata')
      exact hdisk
    · rw [dataAt_congr (hmoving.others _ ((file_injective i).ne hfg) (link_ne_file i g f).symm)]
      exact h.disk f hf (by simp [hfg, hmem]) data' hdata'

theorem holds_moveEach {fs : List ConfigFile} (hnodup : fs.Nodup) (hw : Underway i fs w) :
    Holds (serve i) (fun t => Accounted i t) (moveEach i fs)
      (fun err t => err = none → Underway i [] t) w := by
  induction fs generalizing w with
  | nil => exact .pure hw.accounted fun _ => hw
  | cons g fs ih =>
    obtain ⟨data, hhome, hwritten⟩ := hw.home g List.mem_cons_self
    refine Holds.bind (P := fun _ t => t = w) (.request hw.accounted ?_) ?_
    · rintro r t (⟨-, rfl⟩ | ⟨-, rfl⟩)
      · exact ⟨hw.accounted, rfl⟩
      · exact ⟨hw.accounted, rfl⟩
    rintro (_ | err) t - rfl
    · have hmoves := holds_moveFile (i := i) (link_ne_file i g g) hhome (hw.solid g)
      refine Holds.bind (P := fun err u => Moving (link i g) (file i g) data t u ∧
        (err = none → dataAt u.files (file i g) = some data)) (hmoves.mono ?_ ?_) ?_
      · exact fun u hu => hu.accounted hwritten hw.accounted
      · exact fun err u hu hdisk => ⟨hu, fun hnone => (hdisk hnone).2⟩
      · rintro (_ | err) u hu ⟨hmoving, hdisk⟩
        · exact ih (List.nodup_cons.mp hnodup).2 (hw.next hnodup hwritten hmoving (hdisk rfl))
        · exact .pure hu (by simp)
    · exact .pure hw.accounted (by simp)

theorem Underway.stored (h : Underway i [] w) : Stored i w :=
  fun f hf data hdata => h.disk f hf List.not_mem_nil data hdata

theorem Creates.underway (h : Creates i w t) (hsolid : Solid i w)
    (hgone : ∀ f, w.files (link i f) = none) : Underway i [.spfile, .orapw] t := by
  refine ⟨?_, ?_, ?_⟩
  · intro f target
    rw [h.disk f]
    exact hsolid f target
  · exact fun f hf => h.home f ((mem_moved f).mp hf) (hgone f)
  · exact fun f hf hmem => absurd ((mem_moved f).mpr hf) hmem

/-- The files of a new database are never lost, and end up on the disk with links to them. -/
theorem holds_proxyRunDbca {o : Orders} {params : List String} (hsolid : Solid i w)
    (hw : Stored i w) :
    Holds (serve i) (fun t => Accounted i t) (proxyRunDbca i o params)
      (fun _ t => Sound i t true) w := by
  have hremove : Holds (serve i) (SameDisk i w) (removeConfigFileLinks i o.first)
      (fun err t => err = none → ∀ f, f ∈ o.first ∨ w.files (link i f) = none →
        t.files (link i f) = none) w := holds_removeConfigFileLinks apart_sameDisk (.refl w)
  refine Holds.bind (P := fun err t => SameDisk i w t ∧ (err = none →
    ∀ f, t.files (link i f) = none)) (hremove.mono ?_ ?_) ?_
  · exact fun t ht => (ht.stored hw).accounted
  · exact fun err t ht hgone => ⟨ht, fun hnone f => hgone hnone f (.inl (o.all f).1)⟩
  intro err t ht hdone
  refine Holds.bind (holds_orFail ht) ?_
  rintro _ _ - ⟨hnone, rfl⟩
  obtain ⟨hsame, hgone⟩ := hdone
  refine Holds.bind (P := fun r u => r = none → Underway i [.spfile, .orapw] u)
    (.request ht ?_) ?_
  · rintro r u (⟨rfl, hcreates⟩ | ⟨⟨err, rfl⟩, hdisk, hwritten⟩)
    · have hunderway := hcreates.underway (hsame.solid hsolid) (hgone hnone)
      exact ⟨hunderway.accounted, fun _ => hunderway⟩
    · have hsame' : SameDisk i _ u := ⟨hdisk, hwritten⟩
      exact ⟨(hsame'.stored (hsame.stored hw)).accounted, by simp⟩
  intro r u hu hcreated
  refine Holds.bind (holds_orFail hu) ?_
  rintro _ _ - ⟨hnone, rfl⟩
  have hunderway := hcreated hnone
  refine Holds.bind (holds_createDotEnv hu) fun r _ _ hsame => ?_
  obtain rfl := hsame
  refine Holds.bind (holds_orFail hu) ?_
  rintro _ _ - ⟨-, rfl⟩
  refine Holds.bind (holds_moveEach (by decide) hunderway) fun err v hv hmoved => ?_
  refine Holds.bind (holds_orFail hv) ?_
  rintro _ x - ⟨hnone, hsame⟩
  subst hsame
  have hmoved := hmoved hnone
  have hrelink : Holds (serve i) (SameDisk i x) (relinkConfigFiles i o.second o.third)
      (fun err t => err = none → Linked i t) x :=
    holds_relinkConfigFiles (fun f => (o.all f).2.2) apart_sameDisk (.refl x)
  refine Holds.bind (P := fun err y => SameDisk i x y ∧ (err = none → Linked i y))
    (hrelink.mono ?_ ?_) ?_
  · exact fun y hy => (hy.stored hmoved.stored).accounted
  · exact fun err y hy hlinked => ⟨hy, hlinked⟩
  · rintro err y hy ⟨hsame, hlinked⟩
    refine (holds_orFail hy).mono (fun _ h => h) ?_
    rintro _ _ - ⟨hnone, rfl⟩
    exact ⟨hsame.solid hmoved.solid, hsame.stored hmoved.stored, fun _ => hlinked hnone⟩

end Creating

section Runs

variable {α : Type} (i : Installation) (srv : Service (Host α) Call Answer)

/-- A restart brings back the home of the image and keeps the disk. -/
abbrev Restarts (w t : Host α) : Prop := SameDisk i w t

/-- What happens to a container after its database was created. The names are linked since a
server of an image without a database, or the bootstrap task, has started; only then does the
database run and write its files. -/
inductive Happens : Host α × Bool → Host α × Bool → Prop
  | restart {w t : Host α} {up : Bool} (h : Restarts i w t) : Happens (w, up) (t, false)
  | tried {w t : Host α} {up : Bool} {o : Orders} (h : Cut srv (new i o) w t) :
      Happens (w, up) (t, false)
  | started {w t : Host α} {up : Bool} {o : Orders} (h : Returns srv (new i o) w () t)
      (hunseeded : Exists w.files unseededImageFile = true) : Happens (w, up) (t, true)
  | retried {w t : Host α} {up : Bool} (h : Cut srv (bootstrapRelinkConfigFiles i) w t) :
      Happens (w, up) (t, false)
  | relinked {w t : Host α} {up : Bool}
      (h : Returns srv (bootstrapRelinkConfigFiles i) w () t) : Happens (w, up) (t, true)
  | wrote {w : Host α} {f : ConfigFile} {path : Path} (data : List α) (hf : Moved f)
      (h : leads w.files (link i f) = some path) :
      Happens (w, true) (⟨write w.files path data, Function.update w.written f (some data)⟩, true)

variable {i srv} {w t : Host α} {up up' : Bool}

theorem SameDisk.keeps {up : Bool} (h : SameDisk i w t) (hw : Sound i w up')
    (hlinked : up = true → Linked i t) : Sound i t up :=
  ⟨h.solid hw.solid, h.stored hw.stored, hlinked⟩

theorem Sound.wrote {f : ConfigFile} {path : Path} (hw : Sound i w true) (data : List α)
    (hf : Moved f) (h : leads w.files (link i f) = some path) :
    Sound i ⟨write w.files path data, Function.update w.written f (some data)⟩ true := by
  have hlinked := hw.linked rfl
  obtain rfl : path = file i f :=
    Option.some.inj (h.symm.trans (leads_of_link (hlinked f hf) (hw.solid f)))
  refine ⟨?_, ?_, ?_⟩
  · intro g target
    by_cases hgf : g = f
    · subst hgf
      exact ne_link_of_dataAt dataAt_write_self target
    · intro htarget
      exact hw.solid g target ((write_of_ne ((file_injective i).ne hgf)).symm.trans htarget)
  · intro g hg data' hdata'
    by_cases hgf : g = f
    · subst hgf
      change Function.update w.written g (some data) g = some data' at hdata'
      rw [Function.update_self] at hdata'
      obtain rfl := Option.some.inj hdata'
      exact dataAt_write_self
    · change Function.update w.written f (some data) g = some data' at hdata'
      rw [Function.update_of_ne hgf] at hdata'
      exact (dataAt_write_of_ne ((file_injective i).ne hgf)).trans (hw.stored g hg data' hdata')
  · intro _ g hg
    exact (write_of_ne (link_ne_file i g f)).trans (hlinked g hg)

theorem sound_happens (hsrv : Refines srv (serve i)) (hw : Sound i w up)
    (h : Happens i srv (w, up) (t, up')) : Sound i t up' := by
  have hnew : ∀ o, Holds srv (SameDisk i w) (new i o)
      (fun _ t => Exists w.files unseededImageFile = true → Linked i t) w :=
    fun o => Ends.of_refines hsrv (holds_new apart_sameDisk (.refl w))
  have hrelink : Holds srv (SameDisk i w) (bootstrapRelinkConfigFiles i)
      (fun _ t => ∀ f, f ∈ [.spfile, .orapw] ∨ w.files (link i f) = some (.link (file i f)) →
        t.files (link i f) = some (.link (file i f))) w :=
    Ends.of_refines hsrv (holds_relinkEach apart_sameDisk (.refl w))
  cases h with
  | restart h => exact h.keeps hw (by simp)
  | tried h => exact (Holds.cut (hnew _) h).keeps hw (by simp)
  | started h hunseeded =>
    obtain ⟨hsame, hlinked⟩ := Ends.returns (hnew _) h
    exact hsame.keeps hw fun _ => hlinked hunseeded
  | retried h => exact (Holds.cut hrelink h).keeps hw (by simp)
  | relinked h =>
    obtain ⟨hsame, hlinked⟩ := Ends.returns hrelink h
    exact hsame.keeps hw fun _ f hf => hlinked f (.inl ((mem_moved f).mpr hf))
  | wrote data hf h => exact hw.wrote data hf h

theorem sound_run {c d : Host α × Bool} (hsrv : Refines srv (serve i)) (hc : Sound i c.1 c.2)
    (h : Relation.ReflTransGen (Happens i srv) c d) : Sound i d.1 d.2 := by
  induction h with
  | refl => exact hc
  | tail _ h ih => exact sound_happens hsrv ih h

def sampleInstallation : Installation where
  oracleHome := "/u01/app/oracle/product/12.2/db"
  cdbName := "GCLOUD"
  rooted := by decide
  plain := by decide
  apart := by decide

def sampleOrders : Orders where
  first := [.spfile, .initOra, .orapw]
  second := [.orapw, .spfile, .initOra]
  third := [.initOra, .orapw, .spfile]
  all := by
    intro f
    cases f <;> decide
  nodup := by decide

/-- A new container of an image without a database. -/
def sampleHost : Host ℕ :=
  ⟨Function.update (fun _ => none) unseededImageFile (some (.file [])), fun _ => none⟩

theorem sampleHost_solid : Solid sampleInstallation sampleHost := by
  intro f target hf
  change Function.update (fun _ => none) unseededImageFile (some (Node.file [])) _ = _ at hf
  rw [Function.update_apply] at hf
  split at hf <;> cases hf

theorem sampleHost_stored : Stored sampleInstallation sampleHost := by
  intro f _ data hdata
  cases hdata

def samplePerform : Host ℕ → (q : Call) → Answer q × Host ℕ :=
  perform sampleInstallation fun _ => [1, 2]

def sampleCreated : Host ℕ :=
  (run samplePerform (proxyRunDbca sampleInstallation sampleOrders []) sampleHost).2

/-- The home is as in the image. -/
def sampleRestarted : Host ℕ :=
  { sampleCreated with
    files := fun path =>
      if path = link sampleInstallation .spfile ∨ path = link sampleInstallation .initOra ∨
        path = link sampleInstallation .orapw then none else sampleCreated.files path }

def sampleStarted : Host ℕ :=
  (run samplePerform (new sampleInstallation sampleOrders) sampleRestarted).2

theorem sampleRestarted_same : SameDisk sampleInstallation sampleCreated sampleRestarted := by
  refine ⟨?_, rfl⟩
  intro f
  have hf := link_ne_file sampleInstallation
  simp [sampleRestarted, (hf _ f).symm]

def sampleWritten : Host ℕ :=
  ⟨write sampleStarted.files (file sampleInstallation .spfile) [3],
    Function.update sampleStarted.written .spfile (some [3])⟩

theorem sampleWritten_happens :
    Relation.ReflTransGen (Happens sampleInstallation (served samplePerform))
      (sampleCreated, true) (sampleWritten, true) := by
  have hstarted : (run samplePerform (new sampleInstallation sampleOrders) sampleRestarted).1 =
      .ok () := by decide +kernel
  refine .head (.restart sampleRestarted_same) ?_
  refine .head (.started (returns_run hstarted) (by decide +kernel)) ?_
  exact .single (.wrote [3] (by decide) (by decide +kernel))

end Runs

end ElCarro.Provision
