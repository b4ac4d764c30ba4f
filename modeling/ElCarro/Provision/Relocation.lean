import ElCarro.Provision.Moves

/-! # Relocation of a database

An image may bring a database of its own. The bootstrap task moves its data files and its
configuration to the persistent disk, one file after the other, and links the configuration.
What a task that was cut off leaves behind, and when it can be run again.
-/

namespace ElCarro.Provision

open Dialogue LinkedFiles

section Names

inductive DataFile where
  | system | sysaux | undotbs | users | seedUndotbs | seedSysaux | seedSystem
  deriving DecidableEq, Repr

def DataFile.name : DataFile → String
  | .system => "system01.dbf"
  | .sysaux => "sysaux01.dbf"
  | .undotbs => "undotbs01.dbf"
  | .users => "users01.dbf"
  | .seedUndotbs => "pdbseed/undotbs01.dbf"
  | .seedSysaux => "pdbseed/sysaux01.dbf"
  | .seedSystem => "pdbseed/system01.dbf"

def getDataFiles : List DataFile :=
  [.system, .sysaux, .undotbs, .users, .seedUndotbs, .seedSysaux, .seedSystem]

/-- A database of the image that is to run under another name, or under the same one. -/
structure Seed extends Installation where
  oracleBase : String
  sourceCDBName : String
  baseRooted : oracleBase.toList.head? = some '/'
  sourcePlain : SlashPath.Plain sourceCDBName.toList
  /-- The software is not on the disk. -/
  baseApart : (SlashPath.parse oracleBase.toList).parts.head? ≠ some "u02".toList
  homeApart : (SlashPath.parse oracleHome.toList).parts.head? ≠ some "u02".toList

variable (s : Seed)

def getSourceDataFilesDir : Path :=
  SlashPath.join s.oracleBase.toList ("oradata/" ++ s.sourceCDBName).toList

def getDataFilesDir : Path := ("/u02/app/oracle/oradata/" ++ s.cdbName).toList

inductive Item where
  | data (d : DataFile)
  | config (f : ConfigFile)
  deriving DecidableEq, Repr

def source : Item → Path
  | .data d => SlashPath.join (getSourceDataFilesDir s) d.name.toList
  | .config f => SlashPath.join (sourceConfigDir s.toInstallation) (f.name s.sourceCDBName).toList

def dest : Item → Path
  | .data d => SlashPath.join (getDataFilesDir s) d.name.toList
  | .config f => file s.toInstallation f

end Names

section Functions

variable (s : Seed)

def moveItems (text : Item → String → String) : List Item → T Unit
  | [] => pure ()
  | x :: xs => do
    orFail (← moveFile (source s x) (dest s x)) (text x)
    moveItems text xs

def moveDataFiles : T Unit :=
  moveItems s (fun x err => "moveDataFiles: failed to move data file from " ++
    String.ofList (source s x) ++ " to " ++ String.ofList (getDataFilesDir s) ++ " : " ++ err)
    (getDataFiles.map .data)

def bootstrapMoveConfigFiles : T Unit :=
  moveItems s (fun x err => "moveConfigFiles: failed to move config file from " ++
    String.ofList (source s x) ++ " to " ++ String.ofList (dest s x) ++ " : " ++ err)
    [.config .spfile, .config .orapw]

/-- The subtasks of the bootstrap task that move files, in their order. -/
def relocate : T Unit := do
  moveDataFiles s
  bootstrapMoveConfigFiles s
  bootstrapRelinkConfigFiles s.toInstallation

/-- All that is moved. -/
def items : List Item := getDataFiles.map .data ++ [.config .spfile, .config .orapw]

end Functions

section Places

variable (s : Seed)

def DataFile.parts : DataFile → List (List Char)
  | .system => ["system01.dbf".toList]
  | .sysaux => ["sysaux01.dbf".toList]
  | .undotbs => ["undotbs01.dbf".toList]
  | .users => ["users01.dbf".toList]
  | .seedUndotbs => ["pdbseed".toList, "undotbs01.dbf".toList]
  | .seedSysaux => ["pdbseed".toList, "sysaux01.dbf".toList]
  | .seedSystem => ["pdbseed".toList, "system01.dbf".toList]

theorem DataFile.name_eq (d : DataFile) : d.name.toList = SlashPath.glue d.parts := by
  cases d <;> decide

theorem DataFile.parts_plain (d : DataFile) : ∀ part ∈ d.parts, SlashPath.Plain part := by
  have hplain : d.parts.all (fun part => decide (SlashPath.Plain part)) = true := by
    cases d <;> decide
  exact fun part hpart => of_decide_eq_true (List.all_eq_true.mp hplain part hpart)

theorem DataFile.parts_injective : Function.Injective DataFile.parts := by
  intro d e
  cases d <;> cases e <;> decide

/-- No data file is called as a configuration file. -/
theorem DataFile.getLast?_parts (d : DataFile) (f : ConfigFile) (cdbName : String) :
    d.parts.getLast? ≠ some (f.name cdbName).toList := by
  cases d <;> cases f <;> simp [DataFile.parts, ConfigFile.name]

theorem getLast?_data (dir : List (List Char)) (d : DataFile) :
    (dir ++ d.parts).getLast? = d.parts.getLast? := by
  rw [List.getLast?_append]
  cases d <;> rfl

/-- The configuration under the name that the database has in the image. -/
def Seed.sourceInstallation : Installation :=
  { s.toInstallation with cdbName := s.sourceCDBName, plain := s.sourcePlain }

def placed (dataDir configDir : List (List Char)) (cdbName : String) : Item → List (List Char)
  | .data d => dataDir ++ d.parts
  | .config f => configDir ++ [(f.name cdbName).toList]

def sourceParts : Item → List (List Char) :=
  placed ((SlashPath.parse s.oracleBase.toList).parts ++
      ["oradata".toList, s.sourceCDBName.toList])
    ((SlashPath.parse s.oracleHome.toList).parts ++ ["dbs".toList]) s.sourceCDBName

def destParts : Item → List (List Char) :=
  placed ["u02".toList, "app".toList, "oracle".toList, "oradata".toList, s.cdbName.toList]
    (diskParts ++ [s.cdbName.toList]) s.cdbName

theorem placed_injective (dataDir configDir : List (List Char)) (cdbName : String) :
    Function.Injective (placed dataDir configDir cdbName) := by
  have hlast : ∀ d f, dataDir ++ DataFile.parts d ≠
      configDir ++ [(ConfigFile.name cdbName f).toList] := by
    intro d f h
    have hlast := congrArg List.getLast? h
    rw [getLast?_data, List.getLast?_concat] at hlast
    exact d.getLast?_parts f cdbName hlast
  rintro (d | f) (e | g) h
  · rw [DataFile.parts_injective (List.append_cancel_left h)]
  · exact absurd h (hlast d g)
  · exact absurd h.symm (hlast e f)
  · have hname := List.head_eq_of_cons_eq (List.append_cancel_left h)
    rw [name_injective cdbName (String.toList_inj.mp hname)]

theorem parse_join_data {dir : Path} (hdir : dir.head? = some '/') (d : DataFile) :
    SlashPath.parse (SlashPath.join dir d.name.toList) =
      ⟨true, (SlashPath.parse dir).parts ++ d.parts⟩ := by
  rw [d.name_eq]
  refine SlashPath.parse_join hdir d.parts_plain ?_
  cases d <;> simp [DataFile.parts]

theorem parse_source (x : Item) : SlashPath.parse (source s x) = ⟨true, sourceParts s x⟩ := by
  cases x with
  | config f => exact parse_link s.sourceInstallation f
  | data d =>
    have hplain : ∀ part ∈ ["oradata".toList, s.sourceCDBName.toList], SlashPath.Plain part :=
      List.forall_mem_cons.mpr ⟨by decide, List.forall_mem_singleton.mpr s.sourcePlain⟩
    have hname : ("oradata/" ++ s.sourceCDBName).toList =
        SlashPath.glue ["oradata".toList, s.sourceCDBName.toList] := by
      simp [SlashPath.glue, List.intercalate]
      rfl
    have hdir := SlashPath.parse_join s.baseRooted hplain (List.cons_ne_nil _ _)
    have hhead : (getSourceDataFilesDir s).head? = some '/' := by
      rw [getSourceDataFilesDir, hname, SlashPath.join_eq s.baseRooted hplain (by simp)]
      rfl
    rw [source, parse_join_data hhead, getSourceDataFilesDir, hname, hdir, sourceParts, placed]

theorem parse_dest (x : Item) : SlashPath.parse (dest s x) = ⟨true, destParts s x⟩ := by
  cases x with
  | config f => exact parse_file s.toInstallation f
  | data d =>
    have hdir : getDataFilesDir s = '/' :: SlashPath.glue ["u02".toList, "app".toList,
        "oracle".toList, "oradata".toList, s.cdbName.toList] := by
      simp [getDataFilesDir, SlashPath.glue, List.intercalate]
      rfl
    have hplain : ∀ part ∈ ["u02".toList, "app".toList, "oracle".toList, "oradata".toList,
        s.cdbName.toList], SlashPath.Plain part := by
      simp only [List.forall_mem_cons]
      exact ⟨by decide, by decide, by decide, by decide, s.plain, List.forall_mem_nil _⟩
    have hparse := SlashPath.parse_sep_glue hplain
    rw [dest, parse_join_data (by rw [hdir]; rfl), hdir]
    exact congrArg (fun p => SlashPath.Parts.mk true (p.parts ++ d.parts)) hparse

/-- Different parts, different names. -/
theorem ne_of_parts {p q : Path} {ps qs : List (List Char)} (hp : SlashPath.parse p = ⟨true, ps⟩)
    (hq : SlashPath.parse q = ⟨true, qs⟩) (h : ps ≠ qs) : p ≠ q := by
  rintro rfl
  exact h (SlashPath.Parts.mk.inj (hp.symm.trans hq)).2

theorem head?_ne {dir rest : List (List Char)} {part other : List Char}
    (hdir : dir.head? ≠ some other) (hpart : part ≠ other) :
    (dir ++ part :: rest).head? ≠ some other := by
  cases dir with
  | nil => simpa using hpart
  | cons first dir => simpa using hdir

theorem sourceParts_head? (x : Item) : (sourceParts s x).head? ≠ some "u02".toList := by
  cases x with
  | data d =>
    rw [sourceParts, placed, List.append_assoc]
    exact head?_ne s.baseApart (by decide)
  | config f =>
    rw [sourceParts, placed, List.append_assoc]
    exact head?_ne s.homeApart (by decide)

theorem destParts_head? (x : Item) : (destParts s x).head? = some "u02".toList := by
  cases x <;> rfl

theorem source_ne_dest (x y : Item) : source s x ≠ dest s y := by
  refine ne_of_parts (parse_source s x) (parse_dest s y) ?_
  intro h
  exact sourceParts_head? s x (h ▸ destParts_head? s y)

theorem source_ne {x y : Item} (h : x ≠ y) : source s x ≠ source s y :=
  ne_of_parts (parse_source s x) (parse_source s y) ((placed_injective _ _ _).ne h)

theorem dest_ne {x y : Item} (h : x ≠ y) : dest s x ≠ dest s y :=
  ne_of_parts (parse_dest s x) (parse_dest s y) ((placed_injective _ _ _).ne h)

theorem link_ne_dest (f : ConfigFile) (x : Item) : link s.toInstallation f ≠ dest s x := by
  refine ne_of_parts (parse_link s.toInstallation f) (parse_dest s x) ?_
  intro h
  have hhead := congrArg List.head? h
  rw [destParts_head?, List.append_assoc] at hhead
  exact head?_ne s.homeApart (by decide) hhead

theorem link_ne_source (f : ConfigFile) (d : DataFile) :
    link s.toInstallation f ≠ source s (.data d) := by
  refine ne_of_parts (parse_link s.toInstallation f) (parse_source s (.data d)) ?_
  intro h
  have hlast := congrArg List.getLast? h
  rw [List.getLast?_concat, sourceParts, placed, getLast?_data] at hlast
  exact d.getLast?_parts f _ hlast.symm

end Places

section States

variable {α : Type} (s : Seed) (contents : Item → List α)

/-- A file that is still where the image has it. -/
def Pending (x : Item) (w : Host α) : Prop :=
  dataAt w.files (source s x) = some (contents x) ∧
    ∀ target, w.files (dest s x) ≠ some (.link target)

def Gone (x : Item) (w : Host α) : Prop :=
  w.files (source s x) = none ∧ dataAt w.files (dest s x) = some (contents x)

/-- Some files were moved, and no links have been made. -/
structure Early (w : Host α) : Prop where
  each : ∀ x ∈ items, Pending s contents x w ∨ Gone s contents x w
  free : ∀ f, Moved f → ∀ target, w.files (link s.toInstallation f) ≠ some (.link target)

/-- All files were moved. -/
structure Late (w : Host α) : Prop where
  first : w.files (source s (.data .system)) = none
  each : ∀ x ∈ items, dataAt w.files (dest s x) = some (contents x)

variable {s contents} {w t : Host α} {x y : Item}

theorem Gone.of_moving (hy : Gone s contents y w) (hyx : y ≠ x)
    (h : Moving (source s x) (dest s x) (contents x) w t) : Gone s contents y t := by
  have hsource := h.others _ (source_ne_dest s y x) (source_ne s hyx)
  have hdest := h.others _ (dest_ne s hyx) (source_ne_dest s x y).symm
  exact ⟨hsource.trans hy.1, (dataAt_congr hdest).trans hy.2⟩

theorem Pending.of_moving (hy : Pending s contents y w) (hyx : y ≠ x)
    (h : Moving (source s x) (dest s x) (contents x) w t) : Pending s contents y t := by
  have hsource := h.others _ (source_ne_dest s y x) (source_ne s hyx)
  have hdest := h.others _ (dest_ne s hyx) (source_ne_dest s x y).symm
  refine ⟨(dataAt_congr hsource).trans hy.1, ?_⟩
  rw [hdest]
  exact hy.2

theorem Moving.pending_or_gone (h : Moving (source s x) (dest s x) (contents x) w t) :
    Pending s contents x t ∨ Gone s contents x t :=
  h.somewhere.imp (fun hsource => ⟨hsource, h.solid⟩) id

/-- While a file is moved, nothing is lost and no link is made. -/
theorem Early.of_moving (hw : Early s contents w)
    (h : Moving (source s x) (dest s x) (contents x) w t) : Early s contents t := by
  refine ⟨?_, ?_⟩
  · intro y hy
    by_cases hyx : y = x
    · subst hyx
      exact h.pending_or_gone
    · exact (hw.each y hy).imp (fun hy => hy.of_moving hyx h) fun hy => hy.of_moving hyx h
  · intro f hf target
    by_cases hsource : link s.toInstallation f = source s x
    · rw [hsource]
      rcases h.somewhere with hthere | ⟨hnone, -⟩
      · exact ne_link_of_dataAt hthere target
      · rw [hnone]
        exact fun h => nomatch h
    · rw [h.others _ (link_ne_dest s f x) hsource]
      exact hw.free f hf target

theorem apart_late : Apart s.toInstallation (Late s contents) := by
  intro w f node h
  refine ⟨?_, ?_⟩
  · exact (Function.update_of_ne (link_ne_source s f .system).symm _ _).trans h.first
  · intro x hx
    exact (dataAt_congr (Function.update_of_ne (link_ne_dest s f x).symm _ _)).trans (h.each x hx)

end States

section Attempts

variable {α : Type} {s : Seed} {contents : Item → List α} {w t : Host α}

/-- A file that is not there is not moved. -/
theorem holds_moveFile_gone {i : Installation} {I : Host α → Prop} {sourceFile destFile : Path}
    (hgone : w.files sourceFile = none) (hw : I w) :
    Holds (serve i) I (moveFile sourceFile destFile)
      (fun err t => (∃ text, err = some text) ∧ t = w) w := by
  refine Holds.bind (P := fun r t => (∃ err, r = .error err) ∧ t = w) (.request hw ?_) ?_
  · rintro r t (⟨opened, hopens, -⟩ | ⟨herr, rfl⟩)
    · obtain ⟨hleads, data, hdata⟩ := opens_eq_some hopens
      obtain rfl : sourceFile = opened := Option.some.inj ((leads_of_none hgone).symm.trans hleads)
      rw [dataAt, hgone] at hdata
      cases hdata
    · exact ⟨hw, herr, rfl⟩
  · rintro _ t ht ⟨⟨err, rfl⟩, rfl⟩
    exact .pure ht ⟨⟨_, rfl⟩, rfl⟩

theorem holds_moveItems {text : Item → String → String} {xs : List Item}
    (hxs : ∀ x ∈ xs, x ∈ items) (hw : Early s contents w) :
    Holds (serve s.toInstallation) (Early s contents) (moveItems s text xs)
      (fun _ t => ∀ x, x ∈ xs ∨ Gone s contents x w → Gone s contents x t) w := by
  induction xs generalizing w with
  | nil => exact .pure hw fun x hx => hx.resolve_left List.not_mem_nil
  | cons y xs ih =>
    have hmoves : Holds (serve s.toInstallation) (Early s contents)
        (moveFile (source s y) (dest s y))
        (fun err t => err = none → ∀ x, x = y ∨ Gone s contents x w → Gone s contents x t) w := by
      rcases hw.each y (hxs y List.mem_cons_self) with hpending | hgone
      · refine (holds_moveFile (source_ne_dest s y y) hpending.1 hpending.2).mono
          (fun t ht => hw.of_moving ht) ?_
        intro err t ht hmoved hnone x hx
        by_cases hxy : x = y
        · subst hxy
          exact hmoved hnone
        · exact (hx.resolve_left hxy).of_moving hxy ht
      · refine (holds_moveFile_gone hgone.1 hw).mono (fun _ h => h) ?_
        rintro _ t - ⟨⟨text, rfl⟩, -⟩ hnone
        cases hnone
    refine Holds.bind hmoves fun err t ht hmoved => ?_
    refine Holds.bind (holds_orFail ht) ?_
    rintro _ u hu ⟨hnone, rfl⟩
    refine (ih (fun x hx => hxs x (List.mem_cons_of_mem y hx)) hu).mono (fun _ h => h) ?_
    intro _ v _ hrest x hx
    refine hrest x ?_
    rcases hx with hx | hx
    · exact (List.mem_cons.mp hx).elim (fun hxy => .inr (hmoved hnone x (.inl hxy))) .inl
    · exact .inr (hmoved hnone x (.inr hx))

theorem items_nodup : items.Nodup := by decide

theorem late_of_gone (h : ∀ x ∈ items, Gone s contents x w) : Late s contents w :=
  ⟨(h (.data .system) (by decide)).1, fun x hx => (h x hx).2⟩

/-- Where the relocation is cut off, each file is in one of its places. -/
theorem holds_relocate (hw : Early s contents w ∨ Late s contents w) :
    Holds (serve s.toInstallation) (fun t => Early s contents t ∨ Late s contents t) (relocate s)
      (fun _ t => Late s contents t ∧ Linked s.toInstallation t) w := by
  rcases hw with hw | hw
  · refine Holds.bind (P := fun _ t => Early s contents t ∧
      ∀ x ∈ getDataFiles.map Item.data, Gone s contents x t)
      ((holds_moveItems (fun x hx => List.mem_append_left _ hx) hw).mono (fun _ h => .inl h) ?_) ?_
    · exact fun _ t ht hgone => ⟨ht, fun x hx => hgone x (.inl hx)⟩
    rintro _ t - ⟨ht, hdata⟩
    refine Holds.bind (P := fun _ u => Late s contents u)
      ((holds_moveItems (fun x hx => List.mem_append_right _ hx) ht).mono (fun _ h => .inl h) ?_) ?_
    · intro _ u _ hgone
      refine late_of_gone fun x hx => hgone x ?_
      exact (List.mem_append.mp hx).elim (fun hx => .inr (hdata x hx)) .inl
    intro _ u _ hu
    refine (holds_relinkEach apart_late hu).mono (fun _ h => .inr h) ?_
    exact fun _ v hv hlinked => ⟨hv, fun f hf => hlinked f (.inl ((mem_moved f).mpr hf))⟩
  · refine Holds.bind (P := fun _ _ => False) ?_ fun _ _ _ h => h.elim
    refine Holds.bind (holds_moveFile_gone hw.first (.inr hw)) ?_
    rintro _ t ht ⟨⟨text, rfl⟩, rfl⟩
    exact .fail ht

theorem relocating_attempts {srv : Service (Host α) Call Answer}
    (hsrv : Refines srv (serve s.toInstallation)) (hw : Early s contents w)
    (hrun : Attempts srv (relocate s) w t) : Early s contents t ∨ Late s contents t := by
  induction hrun with
  | refl => exact .inl hw
  | tail _ hcut ih =>
    have hholds : Holds srv (fun t => Early s contents t ∨ Late s contents t) (relocate s)
      (fun _ t => Late s contents t ∧ Linked s.toInstallation t) _ :=
      Ends.of_refines hsrv (holds_relocate ih)
    exact hholds.cut hcut

/-- However often the relocation is started, fails and is cut off, each file is whole where the
image has it or on the disk. -/
theorem relocation_keeps {srv : Service (Host α) Call Answer}
    (hsrv : Refines srv (serve s.toInstallation)) (hw : Early s contents w)
    (hrun : Attempts srv (relocate s) w t) {x : Item} (hx : x ∈ items) :
    dataAt t.files (source s x) = some (contents x) ∨
      dataAt t.files (dest s x) = some (contents x) := by
  rcases relocating_attempts hsrv hw hrun with ht | ht
  · exact (ht.each x hx).imp (fun h => h.1) fun h => h.2
  · exact .inr (ht.each x hx)

theorem completes_moveItems {text : Item → String → String} {xs : List Item}
    (hnodup : xs.Nodup) (hpending : ∀ x ∈ xs, Pending s contents x w) :
    Completes s.toInstallation (moveItems s text xs)
      (fun _ t => ∀ x, x ∉ xs → Pending s contents x w → Pending s contents x t) w := by
  induction xs generalizing w with
  | nil => exact fun _ _ h => h
  | cons y xs ih =>
    obtain ⟨hy, hnodup⟩ := List.nodup_cons.mp hnodup
    obtain ⟨hsource, hdest⟩ := hpending y List.mem_cons_self
    have hne := source_ne_dest s y y
    rw [moveItems, completes_bind]
    refine ((completes_moveFile hne hsource hdest).and_holds
      (holds_moveFile hne hsource hdest)).mono ?_
    rintro _ t ⟨rfl, hmoving, -⟩
    rw [completes_bind, completes_orFail]
    refine ⟨rfl, (ih hnodup ?_).mono ?_⟩
    · intro x hx
      refine (hpending x (List.mem_cons_of_mem y hx)).of_moving ?_ hmoving
      rintro rfl
      exact hy hx
    · intro _ u hu x hx hpending
      obtain ⟨hxy, hx⟩ := not_or.mp (mt List.mem_cons.mpr hx)
      exact hu x hx (hpending.of_moving hxy hmoving)

/-- With a first file that is not there, nothing is moved. -/
theorem not_completes_moveItems_head {text : Item → String → String} {x : Item} {xs : List Item}
    {P : Unit → Host α → Prop} (hgone : w.files (source s x) = none) :
    ¬ Completes s.toInstallation (moveItems s text (x :: xs)) P w := by
  intro h
  rw [moveItems, completes_bind] at h
  refine Completes.absurd ((h.and_holds
    (holds_moveFile_gone (I := fun _ => True) hgone trivial)).mono ?_)
  rintro _ t ⟨hrest, -, ⟨err, rfl⟩, -⟩
  rw [completes_bind, completes_orFail] at hrest
  cases hrest.1

/-- With a file that is not there, the moves cannot be completed. -/
theorem not_completes_moveItems {text : Item → String → String} {xs : List Item}
    {P : Unit → Host α → Prop} (hw : Early s contents w) (hxs : ∀ x ∈ xs, x ∈ items) {y : Item}
    (hy : y ∈ xs) (hgone : w.files (source s y) = none) :
    ¬ Completes s.toInstallation (moveItems s text xs) P w := by
  induction xs generalizing w with
  | nil => cases hy
  | cons x xs ih =>
    rcases hw.each x (hxs x List.mem_cons_self) with hpending | hgone'
    · have hyx : y ≠ x := by
        rintro rfl
        rw [Pending, dataAt, hgone] at hpending
        cases hpending.1
      intro h
      rw [moveItems, completes_bind] at h
      refine Completes.absurd ((h.and_holds
        (holds_moveFile (source_ne_dest s x x) hpending.1 hpending.2)).mono ?_)
      rintro err t ⟨hrest, hmoving, -⟩
      rw [completes_bind, completes_orFail] at hrest
      have hgone : t.files (source s y) = none :=
        (hmoving.others _ (source_ne_dest s y x) (source_ne s hyx)).trans hgone
      exact ih (hw.of_moving hmoving) (fun x' hx' => hxs x' (List.mem_cons_of_mem x hx'))
        ((List.mem_cons.mp hy).resolve_left hyx) hgone hrest.2
    · exact not_completes_moveItems_head hgone'.1

theorem Early.gone (hw : Early s contents w) {x : Item} (hx : x ∈ items)
    (hnone : w.files (source s x) = none) : Gone s contents x w := by
  refine (hw.each x hx).resolve_left fun hpending => ?_
  rw [Pending, dataAt, hnone] at hpending
  cases hpending.1

theorem Early.pending (hw : Early s contents w) {x : Item} (hx : x ∈ items)
    (hsome : w.files (source s x) ≠ none) : Pending s contents x w :=
  (hw.each x hx).resolve_right fun hgone => hsome hgone.1

/-- With all files where the image has them, they can be moved and linked. -/
theorem completes_relocate (hw : Early s contents w)
    (hthere : ∀ x ∈ items, w.files (source s x) ≠ none) :
    Completes s.toInstallation (relocate s) (fun _ _ => True) w := by
  have hpending : ∀ x ∈ items, Pending s contents x w := fun x hx => hw.pending hx (hthere x hx)
  have hdata : ∀ x ∈ getDataFiles.map Item.data, x ∈ items := fun x hx => List.mem_append_left _ hx
  have hconfig : ∀ x ∈ [Item.config .spfile, .config .orapw], x ∈ items :=
    fun x hx => List.mem_append_right _ hx
  rw [relocate, completes_bind]
  refine ((completes_moveItems (by decide) fun x hx => hpending x (hdata x hx)).and_holds
    (holds_moveItems hdata hw)).mono ?_
  rintro _ t ⟨hstill, ht, hgone⟩
  rw [completes_bind]
  have hpending : ∀ x ∈ [Item.config .spfile, .config .orapw], Pending s contents x t := by
    intro x hx
    refine hstill x ?_ (hpending x (hconfig x hx))
    exact fun hdata => (List.nodup_append.mp items_nodup).2.2 x hdata x hx rfl
  refine ((completes_moveItems (by decide) hpending).and_holds (holds_moveItems hconfig ht)).mono ?_
  rintro _ u ⟨-, hu, hgone⟩
  refine (completes_relinkEach (by decide) ?_ ?_).mpr ?_
  · intro f hf
    have hf : Item.config f ∈ [Item.config .spfile, .config .orapw] := by
      revert hf
      cases f <;> decide
    exact ne_link_of_dataAt (hgone _ (.inl hf)).2
  · exact fun f hf => usual_of_free (hu.free f ((mem_moved f).mp hf))
  · exact fun f hf hdangling => hu.free f ((mem_moved f).mp hf) _ hdangling.1

theorem not_completes_relocate {P : Unit → Host α → Prop}
    (hw : Early s contents w ∨ Late s contents w) {x : Item} (hx : x ∈ items)
    (hnone : w.files (source s x) = none) :
    ¬ Completes s.toInstallation (relocate s) P w := by
  intro h
  rw [relocate, completes_bind] at h
  rcases hw with hw | hw
  · rcases List.mem_append.mp hx with hdata | hconfig
    · exact not_completes_moveItems hw (fun x hx => List.mem_append_left _ hx) hdata hnone h
    · refine Completes.absurd ((h.and_holds
        (holds_moveItems (fun x hx => List.mem_append_left _ hx) hw)).mono ?_)
      rintro _ t ⟨hrest, ht, hgone⟩
      rw [completes_bind] at hrest
      exact not_completes_moveItems ht (fun x hx => List.mem_append_right _ hx) hconfig
        (hgone x (.inr (hw.gone hx hnone))).1 hrest
  · exact not_completes_moveItems_head hw.first h

/-- A relocation that was cut off can be completed by another one exactly if nothing was moved
yet. -/
theorem relocation_completes_iff {srv : Service (Host α) Call Answer}
    (hsrv : Refines srv (serve s.toInstallation)) (hw : Early s contents w)
    (hrun : Attempts srv (relocate s) w t) :
    Completes s.toInstallation (relocate s)
      (fun _ u => (∀ x ∈ items, dataAt u.files (dest s x) = some (contents x)) ∧
        Linked s.toInstallation u) t ↔
      ∀ x ∈ items, t.files (source s x) ≠ none := by
  have ht := relocating_attempts hsrv hw hrun
  constructor
  · exact fun h x hx hnone => not_completes_relocate ht hx hnone h
  · intro hthere
    have hearly : Early s contents t := ht.resolve_right fun hlate =>
      hthere (.data .system) (by decide) hlate.first
    refine ((completes_relocate hearly hthere).and_holds (holds_relocate ht)).mono ?_
    rintro _ u ⟨-, -, hlate, hlinked⟩
    exact ⟨hlate.each, hlinked⟩

def sampleSeed : Seed where
  toInstallation := sampleInstallation
  oracleBase := "/u01/app/oracle"
  sourceCDBName := "GCLOUD"
  baseRooted := by decide
  sourcePlain := sampleInstallation.plain
  baseApart := by decide
  homeApart := by decide

/-- A new container with a database. -/
def sampleImage : Host ℕ where
  files := fun path => if path ∈ items.map (source sampleSeed) then some (.file [1, 2]) else none
  written := fun _ => none

theorem sampleImage_early : Early sampleSeed (fun _ => [1, 2]) sampleImage := by
  have hnolink : ∀ path target, sampleImage.files path ≠ some (.link target) := by
    intro path target h
    change (if path ∈ items.map (source sampleSeed) then some (Node.file [1, 2]) else none) = _ at h
    split at h <;> cases h
  refine ⟨?_, fun f _ => hnolink _⟩
  intro x hx
  refine .inl ⟨?_, hnolink _⟩
  rw [dataAt_eq_some_iff]
  exact if_pos (List.mem_map_of_mem hx)

/-- Cut off when the first data file was created on the disk. -/
theorem relocation_keeps_sample :
    dataAt (after samplePerform 2 (relocate sampleSeed) sampleImage).files
        (source sampleSeed (.data .system)) = some [1, 2] ∨
      dataAt (after samplePerform 2 (relocate sampleSeed) sampleImage).files
        (dest sampleSeed (.data .system)) = some [1, 2] :=
  relocation_keeps (serve_perform _ _) sampleImage_early
    (.single (cut_after samplePerform 2 (relocate sampleSeed) sampleImage)) (by decide)

/-- Cut off when the first data file was moved. -/
theorem relocation_completes_iff_sample :
    ¬ Completes sampleInstallation (relocate sampleSeed)
      (fun _ u => (∀ x ∈ items, dataAt u.files (dest sampleSeed x) = some [1, 2]) ∧
        Linked sampleInstallation u)
      (after samplePerform 4 (relocate sampleSeed) sampleImage) := by
  have hmoved : (after samplePerform 4 (relocate sampleSeed) sampleImage).files
      (source sampleSeed (.data .system)) = none := by decide +kernel
  intro h
  have hcut := cut_after samplePerform 4 (relocate sampleSeed) sampleImage
  exact (relocation_completes_iff (serve_perform _ _)
    sampleImage_early (.single hcut)).mp h (.data .system) (by decide) hmoved

end Attempts

end ElCarro.Provision
