import ElCarro.Gcs.Bucket
import Mathlib.Algebra.Order.BigOperators.Group.List
import Mathlib.Algebra.Order.Group.Nat

/-! # Upload and download

A directory is uploaded to a path and the path is downloaded again. The upload names an
object by the decoded path, joined with the names of the file and encoded; the download
lists by the path as text and takes the names of the objects apart as they are. So the two
agree only on paths that encoding and joining leave alone, the names of the files come back
encoded, data that was compressed comes back compressed, and every other object whose name
begins with the path is downloaded too.
-/

namespace ElCarro.Gcs

open SlashPath FileTree

section Download

/-- `downloadFile` of the listed objects. -/
def downloadContents (baseDir dest : Bytes) :
    List Object → Fs Bytes Bytes → Except String (Fs Bytes Bytes)
  | [], fs => .ok fs
  | o :: os, fs =>
    match rel baseDir o.name with
    | none => .error "failed to parse relPath"
    | some relPath =>
      match FileTree.createFile fs (parse (join dest relPath)).parts o.data with
      | none => .error "failed to createFile"
      | some fs => downloadContents baseDir dest os fs

/-- `DownloadDirectoryFromGCS` where no step of the transfer fails. -/
def downloadDirectory (s : Store) (gcsPath dest : Bytes) (fs : Fs Bytes Bytes) :
    Except String (Fs Bytes Bytes) := do
  let (bucket, baseDir) ← splitURI gcsPath
  downloadContents baseDir dest (s.objects bucket baseDir) fs

end Download

/-- There is nothing below the directory, and no file in its place or above it. -/
structure EmptyAt (fs : Fs Bytes Bytes) (top : List Bytes) : Prop where
  above : ∀ q, q <+: top → ∀ node ∈ fs q, node.isFile = false
  below : ∀ q, q ≠ [] → fs (top ++ q) = none

/-- Upload and download succeed, the destination holds exactly the directory, and outside of
it nothing changes but for the directories above it. -/
def RoundTrip (gzip : Bytes → Bytes) (p : GcsPath) (tree : Tree) (store : Store) (dest : Bytes)
    (fs : Fs Bytes Bytes) : Prop :=
  ∃ store' fs', uploadContents gzip p tree.files store = .ok store' ∧
    downloadDirectory store' p.url dest fs = .ok fs' ∧
    (∀ q, q ≠ [] → fs' ((parse dest).parts ++ q) = tree.node q) ∧
    ∀ q, ¬ (parse dest).parts <+: q →
      fs' q = fs q ∨ q <+: (parse dest).parts ∧ fs' q = some .dir

/-- No object of the bucket is found by the path but those that the upload replaces. -/
def Alone (p : GcsPath) (tree : Tree) (store : Store) : Prop :=
  ∀ o ∈ store p.bucket, p.name <+: o.name →
    ∃ f ∈ tree.files, gcsTarget p (glue f.1) = .ok (objectUrl p.bucket o.name)

/-- A directory that comes back as it was: no directory in it is empty, no name in it is
changed by encoding, and compressing changes no file that is compressed. -/
def Tree.Portable (gzip : Bytes → Bytes) (t : Tree) : Prop :=
  t.emptyDirs = [] ∧ ∀ f ∈ t.files,
    (∀ b ∈ glue f.1, pathSafe b = true) ∧ (isGz (glue f.1) = true → gzip f.2 = f.2)

section Landing

variable (gzip : Bytes → Bytes)

/-- A file as it comes back. -/
def encoded (p : GcsPath) (parts : List Bytes) (f : List Bytes × Bytes) : List Bytes × Bytes :=
  (f.1.map (escape pathSafe), (objectOf gzip p parts f).data)

variable {gzip} {p : GcsPath} {parts : List Bytes} {files : List (List Bytes × Bytes)}
  {dest : Bytes} {fs fs' : Fs Bytes Bytes}

theorem downloadContents_eq (hp : p.Names parts) (hdest : dest.head? = some 47)
    (hplain : ∀ f ∈ files, f.1 ≠ [] ∧ ∀ name ∈ f.1, Plain name)
    (h : createFiles fs (below (parse dest).parts (files.map (encoded gzip p parts))) = some fs') :
    downloadContents p.name dest (files.map (objectOf gzip p parts)) fs = .ok fs' := by
  induction files generalizing fs with
  | nil => exact congrArg Except.ok (Option.some.inj h)
  | cons f files ih =>
    obtain ⟨hne, hnames⟩ := hplain f List.mem_cons_self
    have hne' : f.1.map (escape pathSafe) ≠ [] := by simpa using hne
    have hrel : rel p.name (objectOf gzip p parts f).name = some (glue (f.1.map (escape pathSafe))) :=
      rel_below hp.parse_name (parse_objectName hp.1 hnames) hne'
    have hpath : (parse (join dest (glue (f.1.map (escape pathSafe))))).parts =
        (parse dest).parts ++ f.1.map (escape pathSafe) := by
      rw [parse_join hdest (plain_map_escape hnames) hne']
    obtain ⟨fs₁, hfile, hfiles⟩ := Option.bind_eq_some_iff.mp h
    simp only [encoded] at hfile
    simp only [List.map_cons, downloadContents, hrel, hpath, hfile]
    exact ih (fun g hg => hplain g (List.mem_cons_of_mem f hg)) hfiles

theorem room_of_emptyAt {top q : List Bytes} (h : EmptyAt fs top) (hq : q ≠ []) :
    Room fs (top ++ q) := by
  constructor
  · simp [hq]
  · intro r hr hne node hnode
    by_cases htop : r <+: top
    · exact h.above r htop node hnode
    · -- between the directory and the file there is nothing yet
      rcases List.prefix_or_prefix_of_prefix hr (List.prefix_append top q) with hle | hle
      · exact absurd hle htop
      · obtain ⟨rest, rfl⟩ := hle
        have hrest : rest ≠ [] := by
          rintro rfl
          exact htop (by simp)
        rw [h.below rest hrest] at hnode
        cases hnode
  · exact h.below q hq

theorem apart_encoded (h : Apart files) : Apart (files.map (encoded gzip p parts)) := by
  apply List.Pairwise.map _ _ h
  intro f g hfg
  simpa [Beside, encoded, List.prefix_map_iff_of_injective escape_injective] using hfg

end Landing

section Suffix

variable {p : GcsPath} {parts names : List Bytes}

theorem isGz_append_sep {s t : Bytes} : isGz (s ++ 47 :: t) = isGz t := by
  have hsep : (47 : UInt8) ∉ ascii ".gz" := by decide
  rw [isGz, isGz, Bool.eq_iff_iff, decide_eq_true_iff, decide_eq_true_iff]
  constructor
  · intro h
    rcases List.suffix_or_suffix_of_suffix h (List.suffix_append s (47 :: t)) with hle | hle
    · rcases List.suffix_cons_iff.mp hle with heq | hle
      · exact absurd (heq ▸ List.mem_cons_self) hsep
      · exact hle
    · exact absurd (hle.subset List.mem_cons_self) hsep
  · intro h
    exact h.trans ((List.suffix_cons 47 t).trans (List.suffix_append s _))

/-- Whether an object is compressed shows in the name of its file. -/
theorem isGz_objectUrl (hne : names ≠ []) : isGz (objectUrl p.bucket (objectName parts names)) =
    isGz (glue (names.map (escape pathSafe))) := by
  rw [objectUrl, isGz_append_sep, objectName, List.map_append]
  cases parts with
  | nil => rfl
  | cons part parts => rw [glue_append (by simp) (by simpa using hne)]; exact isGz_append_sep

end Suffix

section Run

variable (gzip : Bytes → Bytes) {p : GcsPath} {parts : List Bytes} {tree : Tree}
  {store store' : Store} {dest : Bytes} {fs : Fs Bytes Bytes}

/-- The order of the files in a listing of their objects. -/
def NamedBefore (parts : List Bytes) (f g : List Bytes × Bytes) : Prop :=
  objectName parts f.1 ≤ objectName parts g.1

instance : DecidableRel (NamedBefore parts) := fun _ _ => inferInstanceAs (Decidable (_ ≤ _))

/-- What is listed after the upload, when nothing else is found. -/
theorem objects_of_alone (hp : p.Names parts) (halone : Alone p tree store)
    (hbucket : store' p.bucket =
      (store p.bucket).filter (fun o => o.name ∉ tree.files.map fun f => objectName parts f.1) ++
        tree.files.map (objectOf gzip p parts)) :
    ∃ files : List (List Bytes × Bytes), files.Perm tree.files ∧
      store'.objects p.bucket p.name = files.map (objectOf gzip p parts) := by
  have hothers : ((store p.bucket).filter fun o => o.name ∉ tree.files.map fun f =>
      objectName parts f.1).filter (fun o => p.name <+: o.name) = [] := by
    rw [List.filter_eq_nil_iff]
    intro o ho hpre
    obtain ⟨hmem, hnot⟩ := List.mem_filter.mp ho
    obtain ⟨f, hf, htarget⟩ := halone o hmem (of_decide_eq_true hpre)
    obtain ⟨hne, hnames⟩ := tree.files_plain f hf
    rw [hp.gcsTarget hnames hne] at htarget
    have hurl : objectUrl p.bucket (objectName parts f.1) = objectUrl p.bucket o.name :=
      Except.ok.inj htarget
    have hname : objectName parts f.1 = o.name := by simpa [objectUrl] using hurl
    exact of_decide_eq_true hnot (List.mem_map.mpr ⟨f, hf, hname⟩)
  have huploaded : (tree.files.map (objectOf gzip p parts)).filter (fun o => p.name <+: o.name) =
      tree.files.map (objectOf gzip p parts) := by
    rw [List.filter_eq_self]
    intro o ho
    obtain ⟨f, hf, rfl⟩ := List.mem_map.mp ho
    exact decide_eq_true (hp.prefix_objectName (tree.files_plain f hf).1)
  have hsort : (tree.files.insertionSort (NamedBefore parts)).map (objectOf gzip p parts) =
      (tree.files.map (objectOf gzip p parts)).insertionSort fun a b => a.name ≤ b.name := by
    apply List.map_insertionSort
    intro f _ g _
    exact Iff.rfl
  refine ⟨tree.files.insertionSort (NamedBefore parts), List.perm_insertionSort _ _, ?_⟩
  rw [Store.objects, hbucket, List.filter_append, hothers, huploaded, List.nil_append, hsort]

/-- The files come back encoded, side by side. -/
theorem exists_run (hname : tree.files = [] ∨ ∃ parts, p.Names parts) (halone : Alone p tree store)
    (hdest : dest.head? = some 47) (hempty : EmptyAt fs (parse dest).parts) :
    ∃ parts store', uploadContents gzip p tree.files store = .ok store' ∧
      downloadDirectory store' p.url dest fs =
        .ok (layOut fs (below (parse dest).parts (tree.files.map (encoded gzip p parts)))) := by
  rcases hname with hnil | ⟨parts, hp⟩
  · have hobjects : store.objects p.bucket p.name = [] := by
      have hfilter : (store p.bucket).filter (fun o => p.name <+: o.name) = [] := by
        rw [List.filter_eq_nil_iff]
        intro o ho hpre
        obtain ⟨f, hf, -⟩ := halone o ho (of_decide_eq_true hpre)
        rw [hnil] at hf
        cases hf
      rw [Store.objects, hfilter]
      rfl
    refine ⟨[], store, by rw [hnil]; rfl, ?_⟩
    simp only [downloadDirectory, p.splitURI_url, bind, Except.bind, hobjects, downloadContents,
      hnil, List.map_nil, below, layOut_nil]
  · obtain ⟨store', hup, hbucket, -⟩ :=
      GcsPath.Names.uploadContents gzip store hp tree.files_plain tree.files_apart
    obtain ⟨files, hperm, hobjects⟩ := objects_of_alone gzip hp halone hbucket
    have hplain : ∀ f ∈ files, f.1 ≠ [] ∧ ∀ name ∈ f.1, Plain name :=
      fun f hf => tree.files_plain f (hperm.mem_iff.mp hf)
    have happart : Apart (below (parse dest).parts (files.map (encoded gzip p parts))) :=
      apart_below (apart_encoded (hperm.symm.pairwise tree.files_apart fun h => ⟨h.2, h.1⟩))
    have hroom : ∀ f ∈ below (parse dest).parts (files.map (encoded gzip p parts)), Room fs f.1 := by
      intro f hf
      obtain ⟨e, he, rfl⟩ := List.mem_map.mp hf
      obtain ⟨g, hg, rfl⟩ := List.mem_map.mp he
      apply room_of_emptyAt hempty
      simpa [encoded] using (hplain g hg).1
    have hsame : layOut fs _ = layOut fs _ :=
      layOut_perm happart ((hperm.map (encoded gzip p parts)).map _)
    refine ⟨parts, store', hup, ?_⟩
    simp only [downloadDirectory, p.splitURI_url, bind, Except.bind, hobjects]
    rw [downloadContents_eq hp hdest hplain (createFiles_eq hroom happart)]
    exact congrArg Except.ok hsame

/-- The round trip, as a comparison of the directory with its files encoded. -/
theorem roundTrip_iff_layOut (hname : tree.files = [] ∨ ∃ parts, p.Names parts)
    (halone : Alone p tree store) (hdest : dest.head? = some 47)
    (hempty : EmptyAt fs (parse dest).parts) :
    ∃ parts, RoundTrip gzip p tree store dest fs ↔
      ∀ q, q ≠ [] → layOut (fun _ => none) (tree.files.map (encoded gzip p parts)) q = tree.node q := by
  obtain ⟨parts, store', hup, hdown⟩ := exists_run gzip hname halone hdest hempty
  have hbelow : ∀ q, q ≠ [] →
      layOut fs (below (parse dest).parts (tree.files.map (encoded gzip p parts)))
        ((parse dest).parts ++ q) =
      layOut (fun _ => none) (tree.files.map (encoded gzip p parts)) q := by
    intro q hq
    rw [layOut_below]
    exact layOut_congr (hempty.below q hq)
  refine ⟨parts, ?_⟩
  constructor
  · rintro ⟨store₁, fs₁, hup₁, hdown₁, hinside, -⟩ q hq
    obtain rfl : store' = store₁ := Except.ok.inj (hup.symm.trans hup₁)
    have hfs := Except.ok.inj (hdown.symm.trans hdown₁)
    rw [← hinside q hq, ← hfs, hbelow q hq]
  · intro hsame
    refine ⟨store', _, hup, hdown, ?_, ?_⟩
    · intro q hq
      rw [hbelow q hq, hsame q hq]
    · intro q hq
      exact layOut_outside hq

end Run

section Comparison

variable {gzip : Bytes → Bytes} {p : GcsPath} {parts : List Bytes} {tree : Tree}

/-- The directory has these files where its own come back. -/
def Returns (gzip : Bytes → Bytes) (p : GcsPath) (parts : List Bytes) (tree : Tree) : Prop :=
  ∀ q, q ≠ [] → layOut (fun _ => none) (tree.files.map (encoded gzip p parts)) q = tree.node q

theorem map_escape_of_safe {names : List Bytes} (h : ∀ name ∈ names, Plain name)
    (hsafe : ∀ b ∈ glue names, pathSafe b = true) : names.map (escape pathSafe) = names := by
  have hglue : glue (names.map (escape pathSafe)) = glue names := by
    rw [← escape_glue, escape_of_safe hsafe]
  have hparse := congrArg parse hglue
  rw [parse_glue (plain_map_escape h), parse_glue h] at hparse
  exact congrArg Parts.parts hparse

theorem Returns.encoded_mem (h : Returns gzip p parts tree) {f : List Bytes × Bytes}
    (hf : f ∈ tree.files) : encoded gzip p parts f ∈ tree.files := by
  have hne : (encoded gzip p parts f).1 ≠ [] := by
    simpa [encoded] using (tree.files_plain f hf).1
  have hfile : layOut (fun _ => none) (tree.files.map (encoded gzip p parts))
      (encoded gzip p parts f).1 = some (.file (encoded gzip p parts f).2) :=
    layOut_file (apart_encoded tree.files_apart) (List.mem_map_of_mem hf)
  have hnode := h _ hne
  rw [hfile, Tree.node] at hnode
  split at hnode
  · cases hnode
  · rcases mem_of_layOut_file hnode.symm with hmem | hfs
    · exact hmem
    · cases hfs

/-- A file whose name is changed comes back under a longer one, which is changed again. -/
theorem Returns.longer (h : Returns gzip p parts tree) {f : List Bytes × Bytes} {b : UInt8}
    (hf : f ∈ tree.files) (hb : b ∈ glue f.1) (hchanged : pathSafe b = false) (n : ℕ) :
    ∃ g ∈ tree.files, (∃ c ∈ glue g.1, pathSafe c = false) ∧ n ≤ (glue g.1).length := by
  induction n with
  | zero => exact ⟨f, hf, ⟨b, hb, hchanged⟩, Nat.zero_le _⟩
  | succ n ih =>
    obtain ⟨g, hg, ⟨c, hc, hcchanged⟩, hn⟩ := ih
    have hglue : glue (encoded gzip p parts g).1 = escape pathSafe (glue g.1) := by
      rw [escape_glue]
      rfl
    have hlong := length_lt_escape hc hcchanged
    refine ⟨_, h.encoded_mem hg, ⟨37, ?_, by decide⟩, ?_⟩
    · rw [hglue]
      exact percent_mem_escape hc hcchanged
    · rw [hglue]
      omega

theorem Returns.safe (h : Returns gzip p parts tree) {f : List Bytes × Bytes}
    (hf : f ∈ tree.files) : ∀ b ∈ glue f.1, pathSafe b = true := by
  intro b hb
  by_contra hchanged
  obtain ⟨g, hg, -, hn⟩ := h.longer hf hb (by simpa using hchanged)
    ((tree.files.map fun g => (glue g.1).length).sum + 1)
  have hle : (glue g.1).length ≤ (tree.files.map fun g => (glue g.1).length).sum :=
    List.le_sum_of_mem (List.mem_map.mpr ⟨g, hg, rfl⟩)
  omega

theorem portable_of_returns (h : Returns gzip p parts tree) : tree.Portable gzip := by
  constructor
  · by_contra hne
    obtain ⟨d, hd⟩ := List.exists_mem_of_ne_nil _ hne
    have hnode := h d (tree.dirs_plain d hd).1
    have hany : (tree.emptyDirs.any fun e => d <+: e) = true := by
      rw [List.any_eq_true]
      exact ⟨d, hd, by simp⟩
    rw [Tree.node, hany, if_pos rfl, layOut_of_not_above] at hnode
    · cases hnode
    · intro g hg
      obtain ⟨f, hf, rfl⟩ := List.mem_map.mp hg
      simp only [encoded, map_escape_of_safe (tree.files_plain f hf).2 (h.safe hf)]
      exact (tree.dirs_apart d hd f hf).2
  · intro f hf
    refine ⟨h.safe hf, ?_⟩
    intro hgz
    obtain ⟨hne, hnames⟩ := tree.files_plain f hf
    have hsame := map_escape_of_safe hnames (h.safe hf)
    have heq := eq_of_apart tree.files_apart (h.encoded_mem hf) hf hsame
    have hdata : stored gzip (objectUrl p.bucket (objectName parts f.1)) f.2 = f.2 :=
      congrArg Prod.snd heq
    rwa [stored, isGz_objectUrl hne, hsame, if_pos hgz] at hdata

theorem returns_of_portable (h : tree.Portable gzip) : Returns gzip p parts tree := by
  have hencoded : tree.files.map (encoded gzip p parts) = tree.files := by
    have hid : ∀ f ∈ tree.files, encoded gzip p parts f = id f := by
      intro f hf
      obtain ⟨hne, hnames⟩ := tree.files_plain f hf
      obtain ⟨hsafe, hgz⟩ := h.2 f hf
      have hsame := map_escape_of_safe hnames hsafe
      have hdata : stored gzip (objectUrl p.bucket (objectName parts f.1)) f.2 = f.2 := by
        rw [stored, isGz_objectUrl hne, hsame]
        split
        · next htrue => exact hgz htrue
        · rfl
      exact Prod.ext hsame hdata
    rw [List.map_congr_left hid, List.map_id]
  intro q _
  rw [hencoded, Tree.node, h.1]
  rfl

end Comparison

/--
Where encoding and joining leave the path as it is, or there is nothing to upload, and no
other object of the bucket is found by the path, a directory comes back as it was exactly
when it is portable.
-/
theorem roundTrip_iff (gzip : Bytes → Bytes) (p : GcsPath) (tree : Tree) (store : Store)
    (dest : Bytes) (fs : Fs Bytes Bytes) (hdest : dest.head? = some 47)
    (hempty : EmptyAt fs (parse dest).parts) (hname : tree.files = [] ∨ ∃ parts, p.Names parts)
    (halone : Alone p tree store) :
    RoundTrip gzip p tree store dest fs ↔ tree.Portable gzip := by
  obtain ⟨parts, hiff⟩ := roundTrip_iff_layOut gzip hname halone hdest hempty
  rw [hiff]
  constructor
  · intro h
    exact portable_of_returns h
  · intro h
    exact returns_of_portable h

section Sample

/-- A directory with one piece in it. -/
def pieceTree : Tree where
  files := [([ascii "piece"], ascii "data")]
  emptyDirs := []
  files_plain := by decide
  files_apart := List.pairwise_singleton _ _
  dirs_plain := by decide
  dirs_apart := by decide

def staging : Bytes := ascii "/staging"

/-- A file system with the staging directory alone. -/
def stagingFs : Fs Bytes Bytes := fun q => if q <+: [ascii "staging"] then some .dir else none

theorem emptyAt_staging : EmptyAt stagingFs (parse staging).parts := by
  have hparts : (parse staging).parts = [ascii "staging"] := by decide +kernel
  constructor
  · intro q _ node hnode
    unfold stagingFs at hnode
    split at hnode
    · obtain rfl := Option.some.inj hnode
      rfl
    · cases hnode
  · intro q hq
    rw [hparts]
    apply if_neg
    intro hpre
    have hlen := hpre.length_le
    have hpos := List.length_pos_iff.mpr hq
    simp only [List.length_append, List.length_singleton] at hlen
    omega

/-- A bucket with one object in it. -/
def oneObject (name : Bytes) : Store := fun bucket =>
  if bucket = ascii "bkt" then [⟨name, ascii "other"⟩] else []

/-- Beside an object that the path does not find, the piece comes back. -/
theorem roundTrip_piece :
    Alone samplePath pieceTree (oneObject (ascii "c1/piece")) ∧
      RoundTrip id samplePath pieceTree (oneObject (ascii "c1/piece")) staging stagingFs := by
  have hname : samplePath.Names [ascii "b1"] := ⟨by decide, .inl (by decide)⟩
  have halone : Alone samplePath pieceTree (oneObject (ascii "c1/piece")) := by
    intro o ho hpre
    obtain rfl : o = ⟨ascii "c1/piece", ascii "other"⟩ := by simpa [oneObject, samplePath] using ho
    exact absurd hpre (by decide)
  refine ⟨halone, (roundTrip_iff id samplePath pieceTree _ staging stagingFs (by decide)
    emptyAt_staging (.inr ⟨_, hname⟩) halone).mpr ⟨rfl, ?_⟩⟩
  decide +kernel

/-- What the file system holds after both transfers. -/
def after (p : GcsPath) (store : Store) (q : List Bytes) : Except String (Option (Node Bytes)) := do
  let store ← uploadContents id p pieceTree.files store
  let fs ← downloadDirectory store p.url staging stagingFs
  .ok (fs q)

theorem after_eq {p : GcsPath} {store : Store} (h : RoundTrip id p pieceTree store staging stagingFs) :
    ∃ fs' : Fs Bytes Bytes, (∀ q, after p store q = .ok (fs' q)) ∧
      (∀ q, q ≠ [] → fs' ((parse staging).parts ++ q) = pieceTree.node q) ∧
      ∀ q, ¬ (parse staging).parts <+: q →
        fs' q = stagingFs q ∨ q <+: (parse staging).parts ∧ fs' q = some .dir := by
  obtain ⟨store', fs', hup, hdown, hinside, houtside⟩ := h
  refine ⟨fs', ?_, hinside, houtside⟩
  intro q
  simp only [after, hup, hdown, bind, Except.bind]

/-- The path `gs://bkt/b1` with a double slash behind it. -/
def slashedPath : GcsPath := ⟨ascii "bkt", ascii "b1//", bkt_length, bkt_bytes⟩

/-- A neighbour's object is written outside of the destination; and from a path that is not
written as joining writes it, nothing comes back. -/
theorem roundTrip_fails :
    ¬ RoundTrip id samplePath pieceTree (oneObject (ascii "b10/piece")) staging stagingFs ∧
      ¬ RoundTrip id slashedPath pieceTree (oneObject (ascii "c1/piece")) staging stagingFs := by
  constructor
  · intro h
    obtain ⟨fs', hafter, -, houtside⟩ := after_eq h
    have hneighbour := hafter [ascii "b10", ascii "piece"]
    have hrun : after samplePath (oneObject (ascii "b10/piece")) [ascii "b10", ascii "piece"] =
        .ok (some (.file (ascii "other"))) := by decide +kernel
    rw [hrun] at hneighbour
    have hfs := Except.ok.inj hneighbour
    rcases houtside [ascii "b10", ascii "piece"] (by decide +kernel) with hsame | ⟨-, hdir⟩
    · rw [← hfs] at hsame
      revert hsame
      decide
    · rw [← hfs] at hdir
      cases hdir
  · intro h
    obtain ⟨fs', hafter, hinside, -⟩ := after_eq h
    have hpiece := hafter ((parse staging).parts ++ [ascii "piece"])
    have hrun : after slashedPath (oneObject (ascii "c1/piece"))
        ((parse staging).parts ++ [ascii "piece"]) = .ok none := by decide +kernel
    rw [hrun, hinside [ascii "piece"] (by simp)] at hpiece
    have hnode := Except.ok.inj hpiece
    revert hnode
    decide

end Sample

end ElCarro.Gcs
