import ElCarro.Provision.Restarts

/-! # Moving and linking single names

When a move between two names is safe, and when the links can be made again.
-/

namespace ElCarro.Provision

open Dialogue LinkedFiles

section Moves

variable {α : Type} {i : Installation} {w : Host α} {source dest p q : Path} {data : List α}

/-- The data is read under one of the two names. -/
def Readable (source dest : Path) (data : List α) (w : Host α) : Prop :=
  read w.files source = some data ∨ read w.files dest = some data

/-- The two names lead to different files, and the data is in the first one. -/
structure Split (source dest p q : Path) (data : List α) (w : Host α) : Prop where
  source : leads w.files source = some p
  dest : leads w.files dest = some q
  ne : p ≠ q
  data : dataAt w.files p = some data

theorem Split.readable (h : Split source dest p q data w) : Readable source dest data w := by
  left
  rw [LinkedFiles.read, h.source]
  exact h.data

/-- Writing to the second file. -/
theorem Split.write (h : Split source dest p q data w) (more : List α) :
    Split source dest p q data { w with files := write w.files q more } := by
  have hq : ∀ target, w.files q ≠ some (.link target) := ne_link_of_follow h.dest
  exact ⟨(leads_write hq).trans h.source, (leads_write hq).trans h.dest, h.ne,
    (dataAt_write_of_ne h.ne).trans h.data⟩

/-- Without the first name, the second one still leads to its file. -/
theorem Split.remove (h : Split source dest p q data w) (hcopied : dataAt w.files q = some data) :
    read (Function.update w.files source none) dest = some data := by
  have hleads : leads (Function.update w.files source none) dest = some q := by
    refine leads_remove h.dest ?_
    rw [h.source]
    exact fun hpq => h.ne (Option.some.inj hpq)
  have hne : q ≠ source := by
    rintro rfl
    have hq : leads w.files q = some q := leads_of_dataAt hcopied
    exact h.ne (Option.some.inj (h.source.symm.trans hq))
  rw [LinkedFiles.read, hleads]
  exact (dataAt_congr (Function.update_of_ne hne _ _)).trans hcopied

theorem holds_moveFile_split (h : Split source dest p q data w) :
    Holds (serve i) (Readable source dest data) (moveFile source dest) (fun _ _ => True) w := by
  refine Holds.bind (P := fun r t => t = w ∧ ∀ opened, r = .ok opened → opened = p)
    (.request h.readable ?_) ?_
  · rintro r t (⟨opened, hopens, rfl, rfl⟩ | ⟨⟨err, rfl⟩, rfl⟩)
    · refine ⟨h.readable, rfl, ?_⟩
      rintro _ ⟨⟩
      exact Option.some.inj ((opens_eq_some hopens).1.symm.trans h.source)
    · exact ⟨h.readable, rfl, by simp⟩
  rintro (err | opened) t - ⟨rfl, hopened⟩
  · exact .pure h.readable trivial
  obtain rfl := hopened opened rfl
  refine Holds.bind (P := fun r u => ∀ created, r = .ok created → created = q ∧
    Split source dest opened q data u) (.request h.readable ?_) ?_
  · rintro r u (⟨created, files, hcreate, rfl, rfl⟩ | ⟨⟨err, rfl⟩, rfl⟩)
    · rw [create, h.dest, Option.map_some] at hcreate
      obtain ⟨rfl, rfl⟩ := Prod.mk.inj (Option.some.inj hcreate)
      refine ⟨(h.write []).readable, ?_⟩
      rintro _ ⟨⟩
      exact ⟨rfl, h.write []⟩
    · exact ⟨h.readable, by simp⟩
  rintro (err | created) u hu hcreated
  · exact .pure hu trivial
  obtain ⟨rfl, hsplit⟩ := hcreated created rfl
  refine Holds.bind (P := fun r v => r = none → Split source dest opened created data v ∧
    dataAt v.files created = some data) (.request hu ?_) ?_
  · rintro r v (⟨rfl, data', hdata', rfl⟩ | ⟨⟨err, rfl⟩, rfl | ⟨data', part, -, -, rfl⟩⟩)
    · obtain rfl : data = data' := Option.some.inj (hsplit.data.symm.trans hdata')
      exact ⟨(hsplit.write data).readable, fun _ => ⟨hsplit.write data, dataAt_write_self⟩⟩
    · exact ⟨hu, by simp⟩
    · exact ⟨(hsplit.write part).readable, by simp⟩
  rintro (_ | err) v hv hcopied
  · obtain ⟨hsplit', hdata⟩ := hcopied rfl
    refine .request hv ?_
    rintro r x (⟨rfl, files, hremove, rfl⟩ | ⟨⟨err, rfl⟩, rfl⟩)
    · obtain ⟨node, -, rfl⟩ := Option.map_eq_some_iff.mp hremove
      exact ⟨.inr (hsplit'.remove hdata), trivial⟩
    · exact ⟨hv, trivial⟩
  · exact .pure hv trivial

/-- A name that leads nowhere cannot be created. -/
theorem holds_moveFile_nowhere (hread : read w.files source = some data)
    (hdest : leads w.files dest = none) :
    Holds (serve i) (Readable source dest data) (moveFile source dest) (fun _ _ => True) w := by
  have hw : Readable source dest data w := .inl hread
  refine Holds.bind (P := fun _ t => t = w) (.request hw ?_) ?_
  · rintro r t (⟨opened, -, -, rfl⟩ | ⟨-, rfl⟩)
    · exact ⟨hw, rfl⟩
    · exact ⟨hw, rfl⟩
  rintro (err | opened) t - rfl
  · exact .pure hw trivial
  refine Holds.bind (P := fun r u => ∃ err, r = .error err) (.request hw ?_) ?_
  · rintro r u (⟨created, files, hcreate, -⟩ | ⟨herr, rfl⟩)
    · rw [create, hdest] at hcreate
      cases hcreate
    · exact ⟨hw, herr⟩
  rintro _ u hu ⟨err, rfl⟩
  exact .pure hu trivial

/-- A move is safe exactly if the names lead to different files: otherwise the file is emptied
before it is read. -/
theorem moveFile_safe_iff (hread : read w.files source = some data) (hdata : data ≠ []) :
    (∀ t, Cut (serve i) (moveFile source dest) w t → Readable source dest data t) ↔
      leads w.files source ≠ leads w.files dest := by
  obtain ⟨p, hp, hpdata⟩ := Option.bind_eq_some_iff.mp hread
  constructor
  · intro hsafe hsame
    have hnolink : ∀ target, w.files p ≠ some (.link target) := ne_link_of_dataAt hpdata
    have hopen : serve i w (.openFile source) (.ok p) w :=
      .inl ⟨p, opens_of_leads hp hpdata, rfl, rfl⟩
    have hcreate : serve i w (.create dest) (.ok p) { w with files := write w.files p [] } := by
      refine .inl ⟨p, _, ?_, rfl, rfl⟩
      rw [create, ← hsame, hp, Option.map_some]
    have hempty : ∀ name, leads w.files name = some p →
        read (write w.files p []) name = some [] := by
      intro name hname
      rw [LinkedFiles.read, leads_write hnolink, hname]
      exact dataAt_write_self
    rcases hsafe _ (.later hopen (.later hcreate (.here _ _))) with h | h
    · exact hdata (Option.some.inj (h.symm.trans (hempty source hp)))
    · exact hdata (Option.some.inj (h.symm.trans (hempty dest (hsame ▸ hp))))
  · intro hne t hcut
    cases hdest : leads w.files dest with
    | none => exact (holds_moveFile_nowhere hread hdest).cut hcut
    | some q =>
      have hpq : p ≠ q := by
        rintro rfl
        exact hne (hp.trans hdest.symm)
      exact (holds_moveFile_split ⟨hp, hdest, hpq, hpdata⟩).cut hcut

/-- With links in the home, as they are after a start, a move would empty the file. -/
theorem moveFile_safe_iff_sample :
    ¬ ∀ t, Cut (serve sampleInstallation) (moveFile (link sampleInstallation .spfile)
        (file sampleInstallation .spfile)) sampleCreated t →
      Readable (link sampleInstallation .spfile) (file sampleInstallation .spfile) [1, 2] t := by
  rw [moveFile_safe_iff (by decide +kernel) (by decide)]
  have hsame : leads sampleCreated.files (link sampleInstallation .spfile) =
      leads sampleCreated.files (file sampleInstallation .spfile) := by decide +kernel
  exact fun hne => hne hsame

end Moves

section Completes

variable {α : Type} {i : Installation} {w : Host α}

theorem sound_serve : Refines (sound i : Service (Host α) Call Answer) (serve i) := by
  rintro w q r t (h | ⟨-, hfails, rfl⟩)
  · exact .inl h
  · refine .inr ⟨hfails, ?_⟩
    cases q with
    | copy source dest => exact .inl rfl
    | runDbca params => exact ⟨fun _ => rfl, rfl⟩
    | _ => rfl

/-- A function does not fail, and ends as wanted, when a call fails only because it cannot be
done. -/
def Completes {β : Type} (i : Installation) (x : T β) (P : β → Host α → Prop) (w : Host α) :
    Prop :=
  Ends (sound i) (fun _ _ => True) x P (fun _ _ => False) w

theorem completes_bind {β γ : Type} {x : T β} {f : β → T γ} {P : γ → Host α → Prop} :
    Completes i (x >>= f) P w ↔ Completes i x (fun a t => Completes i (f a) P t) w := ends_bind

theorem Completes.mono {β : Type} {x : T β} {P P' : β → Host α → Prop} (h : Completes i x P w)
    (hP : ∀ a t, P a t → P' a t) : Completes i x P' w := Ends.mono h hP fun _ _ h => h

/-- What holds whichever calls fail holds here too. -/
theorem Completes.and_holds {β : Type} {x : T β} {P P' : β → Host α → Prop}
    {I : Host α → Prop} (h : Completes i x P w) (hholds : Holds (serve i) I x P' w) :
    Completes i x (fun a t => P a t ∧ I t ∧ P' a t) w :=
  ((Ends.and h (Ends.of_refines sound_serve hholds)).mono (fun _ _ h => h)
    fun _ _ h => h.1).weaken fun _ _ _ => trivial

/-- A call that can be done in one way. -/
theorem completes_of_does {q : Call} {r : Answer q} {t : Host α} {P : Answer q → Host α → Prop}
    (h : ∀ r' t', does i w q r' t' ↔ r' = r ∧ t' = t) :
    Completes i (ask q) P w ↔ P r t := by
  constructor
  · intro hcompletes
    exact hcompletes.2 r t (.inl ((h r t).mpr ⟨rfl, rfl⟩))
  · intro hP
    refine ⟨trivial, ?_⟩
    rintro r' t' (hdoes | ⟨hnot, -⟩)
    · obtain ⟨rfl, rfl⟩ := (h r' t').mp hdoes
      exact hP
    · exact absurd ⟨r, t, (h r t).mpr ⟨rfl, rfl⟩⟩ hnot

/-- There is always a reply. -/
theorem sound_total (w : Host α) (q : Call) : ∃ r t, sound i w q r t := by
  by_cases h : ∃ r t, does i w q r t
  · obtain ⟨r, t, hdoes⟩ := h
    exact ⟨r, t, .inl hdoes⟩
  · have hfails : ∃ r, fails q r := by
      cases q with
      | lstat path => exact absurd ⟨_, w, rfl, rfl⟩ h
      | stat path => exact absurd ⟨_, w, rfl, rfl⟩ h
      | openFile path => exact ⟨.error "", "", rfl⟩
      | create path => exact ⟨.error "", "", rfl⟩
      | _ => exact ⟨some "", "", rfl⟩
    obtain ⟨r, hr⟩ := hfails
    exact ⟨r, w, .inr ⟨h, hr, rfl⟩⟩

theorem Completes.absurd {β : Type} {x : T β} (h : Completes i x (fun _ _ => False) w) : False :=
  Ends.absurd sound_total h

variable {path target : Path} {node : Node Path α}

theorem completes_lstat {P : Bool → Host α → Prop} :
    Completes i (ask (.lstat path)) P w ↔ P (w.files path).isSome w :=
  completes_of_does fun _ _ => Iff.rfl

theorem completes_stat {P : Bool → Host α → Prop} :
    Completes i (ask (.stat path)) P w ↔ P (Exists w.files path) w :=
  completes_of_does fun _ _ => Iff.rfl

theorem completes_remove (h : w.files path = some node) {P : Option String → Host α → Prop} :
    Completes i (ask (.remove path)) P w ↔
      P none { w with files := Function.update w.files path none } := by
  refine completes_of_does fun r t => and_congr_right fun _ => ?_
  simp [remove, h]

theorem completes_symlink (h : w.files path = none) {P : Option String → Host α → Prop} :
    Completes i (ask (.symlink target path)) P w ↔
      P none { w with files := Function.update w.files path (some (.link target)) } := by
  refine completes_of_does fun r t => and_congr_right fun _ => ?_
  simp [symlink, h]

theorem completes_openFile {opened : Path} (h : opens w.files path = some opened)
    {P : Except String Path → Host α → Prop} :
    Completes i (ask (.openFile path)) P w ↔ P (.ok opened) w := by
  refine completes_of_does fun r t => ?_
  simp [does, h]

theorem completes_create {created : Path} {files : Files Path α}
    (h : create w.files path = some (created, files)) {P : Except String Path → Host α → Prop} :
    Completes i (ask (.create path)) P w ↔ P (.ok created) { w with files } := by
  refine completes_of_does fun r t => ?_
  simp [does, h]

theorem completes_copy {source dest : Path} {data : List α}
    (h : dataAt w.files source = some data) {P : Option String → Host α → Prop} :
    Completes i (ask (.copy source dest)) P w ↔
      P none { w with files := write w.files dest data } := by
  refine completes_of_does fun r t => ?_
  simp [does, h]

/-- A file that is there can be moved to a place that is no link. -/
theorem completes_moveFile {source dest : Path} {data : List α} (hne : source ≠ dest)
    (hsource : dataAt w.files source = some data)
    (hdest : ∀ target, w.files dest ≠ some (.link target)) :
    Completes i (moveFile source dest) (fun err _ => err = none) w := by
  have hopens : opens w.files source = some source :=
    opens_of_leads (leads_of_dataAt hsource) hsource
  have hcreate : create w.files dest = some (dest, write w.files dest []) := by
    rw [create, leads, follow_of_ne_link hdest, Option.map_some]
  have hkept : dataAt (write w.files dest []) source = some data :=
    (dataAt_write_of_ne hne).trans hsource
  have hcopied : dataAt (write (write w.files dest []) dest data) source = some data :=
    (dataAt_write_of_ne hne).trans hkept
  rw [moveFile, completes_bind, completes_openFile hopens]
  change Completes i (ask (.create dest) >>= _) _ w
  rw [completes_bind, completes_create hcreate]
  change Completes i (ask (.copy source dest) >>= _) _ _
  rw [completes_bind, completes_copy hkept]
  exact (completes_remove (dataAt_eq_some_iff.mp hcopied)).mpr rfl

/-- A name that is in use cannot become a link. -/
theorem completes_symlink_used (h : w.files path = some node)
    {P : Option String → Host α → Prop} :
    Completes i (ask (.symlink target path)) P w ↔ ∀ err, P (some err) w := by
  have hnot : ¬ ∃ r t, does i w (.symlink target path) r t := by
    rintro ⟨r, t, -, files, hfiles, -⟩
    simp [symlink, h] at hfiles
  constructor
  · intro hcompletes err
    exact hcompletes.2 (some err) w (.inr ⟨hnot, ⟨err, rfl⟩, rfl⟩)
  · intro hP
    refine ⟨trivial, ?_⟩
    rintro r t (hdoes | ⟨-, ⟨err, rfl⟩, rfl⟩)
    · exact absurd ⟨r, t, hdoes⟩ hnot
    · exact hP err

end Completes

section Relinking

variable {α : Type} {i : Installation} {w : Host α}

/-- The names in the home can always be removed. -/
theorem completes_removeConfigFileLinks {order : List ConfigFile} :
    Completes i (removeConfigFileLinks i order) (fun err _ => err = none) w := by
  induction order generalizing w with
  | nil => exact rfl
  | cons g order ih =>
    rw [removeConfigFileLinks, completes_bind, completes_lstat]
    cases hnode : w.files (link i g) with
    | none => exact ih
    | some node =>
      change Completes i (ask (.remove (link i g)) >>= _) _ w
      rw [completes_bind, completes_remove hnode]
      exact ih

/-- Names that are not in use can be linked. -/
theorem completes_linkEach {order : List ConfigFile} (hnodup : order.Nodup)
    (hgone : ∀ f ∈ order, w.files (link i f) = none) :
    Completes i (linkEach i order) (fun err _ => err = none) w := by
  induction order generalizing w with
  | nil => exact rfl
  | cons g order ih =>
    obtain ⟨hg, hnodup⟩ := List.nodup_cons.mp hnodup
    rw [linkEach, completes_bind, completes_symlink (hgone g List.mem_cons_self)]
    refine ih hnodup ?_
    intro f hf
    have hfg : f ≠ g := by
      rintro rfl
      exact hg hf
    exact (Function.update_of_ne ((link_injective i).ne hfg) _ _).trans
      (hgone f (List.mem_cons_of_mem g hf))

/-- A name in the home is not in use, a file or the link. -/
def Usual (i : Installation) (w : Host α) (f : ConfigFile) : Prop :=
  w.files (link i f) = none ∨ (∃ data, w.files (link i f) = some (.file data)) ∨
    w.files (link i f) = some (.link (file i f))

theorem usual_of_free {f : ConfigFile}
    (h : ∀ target, w.files (link i f) ≠ some (.link target)) : Usual i w f := by
  cases hnode : w.files (link i f) with
  | none => exact .inl hnode
  | some node =>
    cases node with
    | file data => exact .inr (.inl ⟨data, hnode⟩)
    | link target => exact absurd hnode (h target)

/-- The link leads to a file that is not there. -/
def Dangling (i : Installation) (w : Host α) (f : ConfigFile) : Prop :=
  w.files (link i f) = some (.link (file i f)) ∧ w.files (file i f) = none

theorem exists_link {f : ConfigFile} (hsolid : ∀ target, w.files (file i f) ≠ some (.link target))
    (h : w.files (link i f) = some (.link (file i f))) :
    Exists w.files (link i f) = (w.files (file i f)).isSome := by
  rw [Exists, leads_of_link h hsolid]
  rfl

theorem completes_orFail {err : Option String} {text : String → String}
    {P : Unit → Host α → Prop} :
    Completes i (orFail err text) P w ↔ err = none ∧ P () w := by
  cases err with
  | none => exact ⟨fun h => ⟨rfl, h⟩, fun h => h.2⟩
  | some err => exact ⟨False.elim, fun h => absurd h.1 (by simp)⟩

/-- A name whose file is removed first. -/
theorem completes_removeExisting_used {g : ConfigFile} {node : Node Path α}
    (hnode : w.files (link i g) = some node) (hexists : Exists w.files (link i g) = true)
    {P : Unit → Host α → Prop} :
    Completes i (removeExisting i g) P w ↔
      P () { w with files := Function.update w.files (link i g) none } := by
  rw [removeExisting, completes_bind, completes_stat, hexists]
  change Completes i (ask (.remove (link i g)) >>= _) P w ↔ _
  rw [completes_bind, completes_remove hnode, completes_orFail]
  exact ⟨fun h => h.2, fun h => ⟨rfl, h⟩⟩

/-- A name without a file is left as it is. -/
theorem completes_removeExisting_unused {g : ConfigFile}
    (hexists : Exists w.files (link i g) = false) {P : Unit → Host α → Prop} :
    Completes i (removeExisting i g) P w ↔ P () w := by
  rw [removeExisting, completes_bind, completes_stat, hexists]
  exact Iff.rfl

/-- A name that was not in use, or was removed. -/
theorem completes_linkOne {g : ConfigFile} {fs : List ConfigFile} {P : Unit → Host α → Prop}
    (hgone : w.files (link i g) = none) {text : String → String} :
    Completes i (do
      orFail (← ask (.symlink (file i g) (link i g))) text
      relinkEach i fs) P w ↔
    Completes i (relinkEach i fs) P
      { w with files := Function.update w.files (link i g) (some (.link (file i g))) } := by
  rw [completes_bind, completes_symlink hgone, completes_bind, completes_orFail]
  exact ⟨fun h => h.2, fun h => ⟨rfl, h⟩⟩

theorem completes_relinkEach_cons {g : ConfigFile} {fs : List ConfigFile}
    (hsolid : ∀ target, w.files (file i g) ≠ some (.link target)) (husual : Usual i w g) {P : Unit → Host α → Prop} :
    Completes i (relinkEach i (g :: fs)) P w ↔ ¬ Dangling i w g ∧
      Completes i (relinkEach i fs) P
        { w with files := Function.update w.files (link i g) (some (.link (file i g))) } := by
  rw [relinkEach, completes_bind]
  rcases husual with hnone | ⟨data, hfile⟩ | hlink
  · have hexists : Exists w.files (link i g) = false := by
      simp [Exists, leads_of_none hnone, hnone]
    rw [completes_removeExisting_unused hexists, completes_linkOne hnone]
    simp [Dangling, hnone]
  · have hexists : Exists w.files (link i g) = true := by
      have hdata : dataAt w.files (link i g) = some data := by rw [dataAt, hfile]
      simp [Exists, leads_of_dataAt hdata, hfile]
    rw [completes_removeExisting_used hfile hexists, completes_linkOne (Function.update_self _ _ _)]
    simp [Dangling, hfile]
  · cases hdisk : w.files (file i g) with
    | none =>
      have hexists : Exists w.files (link i g) = false := by
        rw [exists_link hsolid hlink, hdisk, Option.isSome_none]
      rw [completes_removeExisting_unused hexists, completes_bind, completes_symlink_used hlink]
      constructor
      · intro hfails
        have hfails := hfails "file exists"
        rw [completes_bind, completes_orFail] at hfails
        cases hfails.1
      · rintro ⟨hnot, -⟩
        exact absurd ⟨hlink, hdisk⟩ hnot
    | some node =>
      have hexists : Exists w.files (link i g) = true := by
        rw [exists_link hsolid hlink, hdisk, Option.isSome_some]
      rw [completes_removeExisting_used hlink hexists,
        completes_linkOne (Function.update_self _ _ _)]
      simp [Dangling, hdisk]

theorem dangling_congr {t : Host α} {f : ConfigFile}
    (hlink : t.files (link i f) = w.files (link i f))
    (hfile : t.files (file i f) = w.files (file i f)) : Dangling i t f ↔ Dangling i w f := by
  rw [Dangling, Dangling, hlink, hfile]

theorem Usual.congr {t : Host α} {f : ConfigFile} (h : Usual i w f)
    (hlink : t.files (link i f) = w.files (link i f)) : Usual i t f := by
  rw [Usual, hlink]
  exact h

theorem completes_relinkEach {fs : List ConfigFile} (hnodup : fs.Nodup)
    (hsolid : ∀ f ∈ fs, ∀ target, w.files (file i f) ≠ some (.link target))
    (husual : ∀ f ∈ fs, Usual i w f) :
    Completes i (relinkEach i fs) (fun _ _ => True) w ↔ ∀ f ∈ fs, ¬ Dangling i w f := by
  induction fs generalizing w with
  | nil => exact ⟨fun _ f hf => absurd hf List.not_mem_nil, fun _ => trivial⟩
  | cons g fs ih =>
    obtain ⟨hg, hnodup⟩ := List.nodup_cons.mp hnodup
    have hothers : ∀ f ∈ fs, Function.update w.files (link i g) (some (.link (file i g)))
        (link i f) = w.files (link i f) := by
      intro f hf
      refine Function.update_of_ne ((link_injective i).ne ?_) _ _
      rintro rfl
      exact hg hf
    have hsame := apart_sameDisk w g (some (.link (file i g))) (SameDisk.refl (i := i) w)
    rw [completes_relinkEach_cons (hsolid g List.mem_cons_self) (husual g List.mem_cons_self),
      ih hnodup, List.forall_mem_cons]
    · refine and_congr_right fun _ => ?_
      refine forall_congr' fun f => forall_congr' fun hf => not_congr ?_
      exact dangling_congr (hothers f hf) (hsame.files f)
    · intro f hf target
      rw [hsame.files f]
      exact hsolid f (List.mem_cons_of_mem g hf) target
    · exact fun f hf => (husual f (List.mem_cons_of_mem g hf)).congr (hothers f hf)

/-- The bootstrap task can make the links again unless one of them leads to a file that is not
there: it does not see that the name is in use. -/
theorem bootstrapRelinkConfigFiles_completes_iff (hsolid : Solid i w)
    (husual : ∀ f, Moved f → Usual i w f) :
    Completes i (bootstrapRelinkConfigFiles i) (fun _ t => Linked i t ∧ SameDisk i w t) w ↔
      ∀ f, Moved f → ¬ Dangling i w f := by
  have hcompletes : Completes i (bootstrapRelinkConfigFiles i) (fun _ _ => True) w ↔
      ∀ f, Moved f → ¬ Dangling i w f := by
    rw [bootstrapRelinkConfigFiles, completes_relinkEach (by decide) fun f _ => hsolid f]
    · simp only [mem_moved]
    · exact fun f hf => husual f ((mem_moved f).mp hf)
  rw [← hcompletes]
  constructor
  · exact fun h => h.mono fun _ _ _ => trivial
  · intro h
    refine (h.and_holds (holds_relinkEach apart_sameDisk (SameDisk.refl w))).mono ?_
    rintro _ t ⟨-, hsame, hlinked⟩
    exact ⟨fun f hf => hlinked f (.inl ((mem_moved f).mpr hf)), hsame⟩

/-- A link whose file was lost with its disk. -/
def sampleDangling : Host ℕ where
  files := fun path =>
    if path = link sampleInstallation .spfile then
      some (.link (file sampleInstallation .spfile)) else none
  written := fun _ => none

theorem bootstrapRelinkConfigFiles_completes_iff_sample :
    ¬ Completes sampleInstallation (bootstrapRelinkConfigFiles sampleInstallation)
      (fun _ t => Linked sampleInstallation t ∧ SameDisk sampleInstallation sampleDangling t)
      sampleDangling := by
  have hlink : sampleDangling.files (link sampleInstallation .spfile) =
      some (.link (file sampleInstallation .spfile)) := by simp [sampleDangling]
  have hnone : ∀ path, path ≠ link sampleInstallation .spfile →
      sampleDangling.files path = none := fun path hpath => if_neg hpath
  have hfile := fun f => hnone _ (link_ne_file sampleInstallation .spfile f).symm
  rw [bootstrapRelinkConfigFiles_completes_iff]
  · exact fun h => h .spfile (by decide) ⟨hlink, hfile .spfile⟩
  · intro f target
    rw [hfile f]
    exact fun h => nomatch h
  · intro f _
    by_cases hf : f = .spfile
    · subst hf
      exact .inr (.inr hlink)
    · exact .inl (hnone _ ((link_injective sampleInstallation).ne hf))

end Relinking

end ElCarro.Provision
