import ElCarro.Gcs.Path
import Mathlib.Data.List.TakeWhile

/-! # The names of uploaded objects

Encoding a path keeps its parts apart and loses nothing, so the objects of an upload are
named by the parts of the path and of the file, each of them encoded. This holds for paths
that `url.Parse` and `path.Join` leave as they are.
-/

namespace ElCarro.Gcs

open SlashPath

section Escape

theorem forall_byte {P : UInt8 → Prop} (h : ∀ n ∈ List.range 256, P (UInt8.ofNat n)) (b : UInt8) :
    P b := by
  have hb := h b.toNat (List.mem_range.mpr b.toNat_lt)
  rwa [UInt8.ofNat_toNat] at hb

theorem isAlnum_upperhex (b : UInt8) :
    isAlnum (upperhex (b / 16)) = true ∧ isAlnum (upperhex (b % 16)) = true := by
  revert b
  apply forall_byte
  decide +kernel

theorem pathSafe_of_mem_escapeByte (b : UInt8) : ∀ c ∈ escapeByte pathSafe b, pathSafe c ∨ c = 37 := by
  have halnum : ∀ {c}, isAlnum c = true → pathSafe c = true := by
    intro c hc
    simp [pathSafe, hc]
  obtain ⟨hhigh, hlow⟩ := isAlnum_upperhex b
  intro c hc
  unfold escapeByte at hc
  split at hc
  · next hsafe =>
    obtain rfl := List.mem_singleton.mp hc
    exact .inl hsafe
  · simp only [List.mem_cons, List.not_mem_nil, or_false] at hc
    rcases hc with rfl | rfl | rfl
    · exact .inr rfl
    · exact .inl (halnum hhigh)
    · exact .inl (halnum hlow)

theorem eq_of_sep_mem_escapeByte (b : UInt8) : 47 ∈ escapeByte pathSafe b → b = 47 := by
  revert b
  apply forall_byte
  decide +kernel

theorem harmless_of_pathSafe (b : UInt8) :
    pathSafe b ∨ b = 37 → b ≠ 35 ∧ b ≠ 63 ∧ ¬ (b < 32 ∨ b = 127) := by
  revert b
  apply forall_byte
  decide +kernel

theorem unhex_upperhex_div (b : UInt8) : unhex (upperhex (b / 16)) = some (b / 16) := by
  revert b
  apply forall_byte
  decide +kernel

theorem unhex_upperhex_mod (b : UInt8) : unhex (upperhex (b % 16)) = some (b % 16) := by
  revert b
  apply forall_byte
  decide +kernel

theorem div_mod_byte (b : UInt8) : 16 * (b / 16) + b % 16 = b := by
  revert b
  apply forall_byte
  decide +kernel

variable {s t : Bytes} {b : UInt8}

theorem unescape_cons (h : b ≠ 37) : unescape (b :: s) = (unescape s).map (b :: ·) := by
  conv_lhs => unfold unescape
  split
  · next heq => cases heq
  · next heq =>
    obtain ⟨rfl, -⟩ := List.cons.inj heq
    exact absurd rfl h
  · next heq =>
    obtain ⟨rfl, rfl⟩ := List.cons.inj heq
    rw [if_neg h]

theorem unescape_escapeByte : unescape (escapeByte pathSafe b ++ s) = (unescape s).map (b :: ·) := by
  unfold escapeByte
  split
  · next hsafe =>
    apply unescape_cons
    rintro rfl
    revert hsafe
    decide
  · simp only [List.cons_append, List.nil_append, unescape, unhex_upperhex_div, unhex_upperhex_mod,
      Option.bind_eq_bind, Option.bind_some, div_mod_byte]
    cases unescape s <;> rfl

theorem unescape_escape (s : Bytes) : unescape (escape pathSafe s) = some s := by
  induction s with
  | nil => rfl
  | cons b s ih =>
    rw [escape, List.flatMap_cons, unescape_escapeByte]
    change (unescape (escape pathSafe s)).map (b :: ·) = _
    rw [ih]
    rfl

theorem escape_injective : Function.Injective (escape pathSafe) := by
  intro s t h
  have hs := unescape_escape s
  rw [h, unescape_escape] at hs
  exact (Option.some.inj hs).symm

theorem escape_append : escape pathSafe (s ++ t) = escape pathSafe s ++ escape pathSafe t :=
  List.flatMap_append

theorem escape_cons_sep : escape pathSafe (47 :: s) = 47 :: escape pathSafe s := rfl

theorem escape_of_safe (h : ∀ b ∈ s, pathSafe b = true) : escape pathSafe s = s := by
  induction s with
  | nil => rfl
  | cons b s ih =>
    have hb := h b List.mem_cons_self
    rw [escape, List.flatMap_cons, escapeByte, if_pos hb]
    change b :: escape pathSafe s = _
    rw [ih fun c hc => h c (List.mem_cons_of_mem _ hc)]

/-- Encoding a text with a byte that is not safe makes it longer. -/
theorem length_lt_escape (hb : b ∈ s) (hchanged : pathSafe b = false) :
    s.length < (escape pathSafe s).length := by
  have hle : ∀ t : Bytes, t.length ≤ (escape pathSafe t).length := by
    intro t
    induction t with
    | nil => simp
    | cons c t ih =>
      change t.length + 1 ≤ (escapeByte pathSafe c ++ escape pathSafe t).length
      have hpos : 1 ≤ (escapeByte pathSafe c).length := by
        unfold escapeByte
        split <;> simp
      rw [List.length_append]
      omega
  obtain ⟨before, after, rfl⟩ := List.append_of_mem hb
  have hthree : (escape pathSafe [b]).length = 3 := by
    simp [escape, escapeByte, hchanged]
  rw [show before ++ b :: after = before ++ ([b] ++ after) by simp, escape_append, escape_append]
  simp only [List.length_append, hthree, List.length_singleton]
  have hbefore := hle before
  have hafter := hle after
  omega

/-- A byte that is not safe leaves a percent sign behind. -/
theorem percent_mem_escape (hb : b ∈ s) (hchanged : pathSafe b = false) : 37 ∈ escape pathSafe s := by
  rw [escape, List.mem_flatMap]
  refine ⟨b, hb, ?_⟩
  simp [escapeByte, hchanged]

/-- An encoded text has no byte that `url.Parse` would stop at. -/
theorem harmless_of_mem_escape (h : b ∈ escape pathSafe s) :
    b ≠ 35 ∧ b ≠ 63 ∧ ¬ (b < 32 ∨ b = 127) := by
  obtain ⟨c, -, hb⟩ := List.mem_flatMap.mp h
  exact harmless_of_pathSafe b (pathSafe_of_mem_escapeByte c b hb)

theorem plain_escape {part : Bytes} (h : Plain part) : Plain (escape pathSafe part) := by
  constructor
  · intro heq
    exact h.ne_nil (escape_injective (heq.trans rfl))
  · intro heq
    exact h.ne_self (escape_injective (heq.trans rfl))
  · intro heq
    exact h.ne_parent (escape_injective (heq.trans rfl))
  · intro hmem
    obtain ⟨c, hc, hsep⟩ := List.mem_flatMap.mp hmem
    obtain rfl := eq_of_sep_mem_escapeByte c hsep
    exact h.sep_notMem hc

theorem plain_map_escape {parts : List Bytes} (h : ∀ part ∈ parts, Plain part) :
    ∀ part ∈ parts.map (escape pathSafe), Plain part := by
  intro part hpart
  obtain ⟨orig, horig, rfl⟩ := List.mem_map.mp hpart
  exact plain_escape (h orig horig)

theorem escape_glue (parts : List Bytes) :
    escape pathSafe (glue parts) = glue (parts.map (escape pathSafe)) := by
  induction parts with
  | nil => rfl
  | cons part parts ih =>
    cases parts with
    | nil => simp [glue]
    | cons next parts =>
      simp only [glue, List.intercalate_cons_cons, List.map_cons, escape_append] at ih ⊢
      rw [ih]
      rfl

end Escape

section Target

/-- The path of an object as text. -/
def objectUrl (bucket name : Bytes) : Bytes := gsPrefix ++ bucket ++ 47 :: name

/-- The name of the object for a file below the parts of a path. -/
def objectName (parts names : List Bytes) : Bytes := glue ((parts ++ names).map (escape pathSafe))

/-- The path is encoded as `escape` does it and consists of these parts, with one slash behind
them or none. -/
def GcsPath.Names (p : GcsPath) (parts : List Bytes) : Prop :=
  (∀ part ∈ parts, Plain part) ∧
    (p.name = escape pathSafe (glue parts) ∨ parts ≠ [] ∧ p.name = escape pathSafe (glue parts ++ [47]))

variable {p : GcsPath} {parts names : List Bytes} {t bucket name : Bytes}

theorem GcsPath.sep_notMem_bucket (p : GcsPath) : 47 ∉ p.bucket := by
  intro h
  have hbytes := p.bucket_bytes 47 h
  revert hbytes
  decide

theorem splitURI_objectUrl (hsep : 47 ∉ bucket) (hlen : 2 ≤ bucket.length) :
    splitURI (objectUrl bucket name) = .ok (bucket, name) := by
  have hne : ∀ b ∈ bucket, decide (b ≠ 47) = true := by
    intro b hb
    have hb' : b ≠ 47 := fun heq => hsep (heq ▸ hb)
    simpa using hb'
  have hpre : gsPrefix <+: objectUrl bucket name := by
    rw [objectUrl, List.append_assoc]
    exact List.prefix_append _ _
  have hdrop : (objectUrl bucket name).drop gsPrefix.length = bucket ++ 47 :: name := by
    rw [objectUrl, List.append_assoc, List.drop_left]
  simp only [splitURI, if_pos hpre, hdrop, List.takeWhile_append_of_pos hne,
    List.dropWhile_append_of_pos hne]
  simp [hlen]

theorem GcsPath.splitURI_objectUrl (p : GcsPath) (name : Bytes) :
    splitURI (objectUrl p.bucket name) = .ok (p.bucket, name) := by
  have hlen := p.bucket_length
  exact Gcs.splitURI_objectUrl p.sep_notMem_bucket (by omega)

theorem GcsPath.splitURI_url (p : GcsPath) : splitURI p.url = .ok (p.bucket, p.name) :=
  p.splitURI_objectUrl p.name

theorem cut_of_notMem {c : UInt8} (h : c ∉ t) : cut c t = (t, []) := by
  have hne : ∀ b ∈ t, decide (b ≠ c) = true := by
    intro b hb
    have hb' : b ≠ c := fun heq => h (heq ▸ hb)
    simpa using hb'
  simp only [cut, List.takeWhile_eq_self_iff.mpr hne, List.dropWhile_eq_nil_iff.mpr hne,
    List.drop_nil]

/-- A path that is encoded as `escape` does it is decoded, and nothing else is in it. -/
theorem parseUrl_of_escape (h : p.name = escape pathSafe t) :
    parseUrl p = .ok ⟨47 :: t, [], false, [], [], []⟩ := by
  have hname : 47 :: p.name = escape pathSafe (47 :: t) := by rw [h, escape_cons_sep]
  have hbytes : ∀ b ∈ escape pathSafe (47 :: t), b ≠ 35 ∧ b ≠ 63 ∧ ¬ (b < 32 ∨ b = 127) :=
    fun _ => harmless_of_mem_escape
  have hfrag : cut 35 (escape pathSafe (47 :: t)) = (escape pathSafe (47 :: t), []) :=
    cut_of_notMem fun hmem => (hbytes 35 hmem).1 rfl
  have hquery : 63 ∉ escape pathSafe (47 :: t) := fun hmem => (hbytes 63 hmem).2.1 rfl
  have hctrl : ((escape pathSafe (47 :: t)).any fun b => b < 32 ∨ b = 127) = false := by
    rw [List.any_eq_false]
    intro b hb hctrl
    exact (hbytes b hb).2.2 (of_decide_eq_true hctrl)
  have hforce : ¬ ((escape pathSafe (47 :: t)).getLast? = some 63 ∧
      (escape pathSafe (47 :: t)).count 63 = 1) := by
    rintro ⟨hlast, -⟩
    exact hquery (List.mem_of_getLast? hlast)
  simp only [parseUrl, hname, hfrag, hctrl, Bool.false_eq_true, if_false, hforce, decide_false,
    cut_of_notMem hquery, unescape_escape]
  simp [unescape, hint, escape]

theorem cut_cons {c b : UInt8} (h : b ≠ c) : (cut c (b :: t)).1 = b :: t.takeWhile (· ≠ c) := by
  simp [cut, h]

theorem head?_unescape {path : Bytes} (hhead : t.head? = some 47) (h : unescape t = some path) :
    path.head? = some 47 := by
  cases t with
  | nil => cases hhead
  | cons c t =>
    obtain rfl := Option.some.inj hhead
    rw [unescape_cons (by decide)] at h
    obtain ⟨rest, -, rfl⟩ := Option.map_eq_some_iff.mp h
    rfl

theorem unescape_hint {path : Bytes} (h : unescape t = some path) :
    hint pathSafe path t = [] ∨ unescape (hint pathSafe path t) = some path := by
  unfold hint
  split
  · exact .inl rfl
  · exact .inr h

/-- The text that `url.Parse` decodes to the path. -/
def pathText (p : GcsPath) : Bytes :=
  let u := (cut 35 (47 :: p.name)).1
  if u.getLast? = some 63 ∧ u.count 63 = 1 then u.dropLast else (cut 63 u).1

theorem head?_pathText (p : GcsPath) : (pathText p).head? = some 47 := by
  simp only [pathText, cut_cons (show (47 : UInt8) ≠ 35 by decide)]
  split
  · next hforce =>
    cases hrest : p.name.takeWhile (· ≠ 35) with
    | nil =>
      rw [hrest] at hforce
      exact absurd hforce.1 (by decide)
    | cons c rest => rfl
  · rw [cut_cons (by decide)]
    rfl

theorem parseUrl_eq {u : Url} (h : parseUrl p = .ok u) : unescape (pathText p) = some u.path ∧
    u.rawPath = hint pathSafe u.path (pathText p) := by
  unfold parseUrl at h
  split at h
  next v frag hcut =>
  split at h
  · cases h
  · have htext : (if v.getLast? = some 63 ∧ v.count 63 = 1 then (v.dropLast, []) else cut 63 v).1 =
        pathText p := by
      simp only [pathText, hcut]
      split
      · rfl
      · rfl
    dsimp only at h
    rw [htext] at h
    split at h
    · next path fragment hpath hfrag =>
      obtain rfl := Except.ok.inj h
      exact ⟨hpath, rfl⟩
    · cases h

/-- What stands behind the path in the text of a URL. -/
def Url.tail (u : Url) : Bytes :=
  (if u.forceQuery ∨ u.rawQuery ≠ [] then 63 :: u.rawQuery else []) ++
    (if u.fragment ≠ [] then 35 :: escaped fragmentSafe u.fragment u.rawFragment else [])

/-- The path of an upload: the parts of the directory and of the file, each of them encoded. The
hint of the directory does not fit the path of a file. -/
theorem gcsTarget_eq {u : Url} (h : parseUrl p = .ok u) (hnames : ∀ part ∈ names, Plain part)
    (hne : names ≠ []) : gcsTarget p (glue names) =
      .ok (objectUrl p.bucket (objectName (parse u.path).parts names ++ u.tail)) := by
  obtain ⟨hpath, hraw⟩ := parseUrl_eq h
  have hroot := head?_unescape (head?_pathText p) hpath
  have hjoin : join u.path (glue names) = 47 :: glue ((parse u.path).parts ++ names) :=
    join_eq hroot hnames hne
  have hdiffer : join u.path (glue names) ≠ u.path := by
    intro heq
    have hparts := congrArg (fun s => (parse s).parts) heq
    simp only [parse_join hroot hnames hne] at hparts
    exact hne (by simpa using hparts)
  have hescaped : escaped pathSafe (join u.path (glue names)) u.rawPath =
      escape pathSafe (join u.path (glue names)) := by
    apply if_neg
    rintro ⟨hsome, -, hfits⟩
    rw [hraw] at hsome hfits
    rcases unescape_hint hpath with hnil | hhint
    · exact hsome hnil
    · rw [hhint] at hfits
      exact hdiffer (Option.some.inj hfits).symm
  simp only [gcsTarget, h, bind, Except.bind, Url.text, hescaped]
  simp [hjoin, escape_cons_sep, escape_glue, objectUrl, objectName, Url.tail]

theorem GcsPath.Names.parse_path (h : p.Names parts) : ∃ t, p.name = escape pathSafe t ∧
    parse (47 :: t) = ⟨true, parts⟩ := by
  obtain ⟨hplain, hname | ⟨-, hname⟩⟩ := h
  · exact ⟨_, hname, parse_sep_glue hplain⟩
  · refine ⟨_, hname, ?_⟩
    rw [← List.cons_append]
    exact (parse_append_sep (by simp)).trans (parse_sep_glue hplain)

theorem GcsPath.Names.gcsTarget (h : p.Names parts) (hnames : ∀ part ∈ names, Plain part)
    (hne : names ≠ []) :
    gcsTarget p (glue names) = .ok (objectUrl p.bucket (objectName parts names)) := by
  obtain ⟨t, hname, hparse⟩ := h.parse_path
  rw [gcsTarget_eq (parseUrl_of_escape hname) hnames hne, hparse]
  simp [Url.tail]

/-- The name of an object, taken apart. -/
theorem parse_objectName (hparts : ∀ part ∈ parts, Plain part) (hnames : ∀ name ∈ names, Plain name) :
    parse (objectName parts names) =
      ⟨false, parts.map (escape pathSafe) ++ names.map (escape pathSafe)⟩ := by
  have hplain : ∀ part ∈ parts ++ names, Plain part := by
    intro part hpart
    rcases List.mem_append.mp hpart with hpart | hpart
    · exact hparts part hpart
    · exact hnames part hpart
  rw [objectName, parse_glue (plain_map_escape hplain), List.map_append]

/-- The path taken apart as text, which is how a download does it. -/
theorem GcsPath.Names.parse_name (h : p.Names parts) :
    parse p.name = ⟨false, parts.map (escape pathSafe)⟩ := by
  obtain ⟨hplain, hname | ⟨hne, hname⟩⟩ := h
  · rw [hname, escape_glue, parse_glue (plain_map_escape hplain)]
  · have hglue := glue_ne_nil (plain_map_escape hplain) (by simpa using hne)
    rw [hname, escape_append, escape_glue]
    exact (parse_append_sep hglue).trans (parse_glue (plain_map_escape hplain))

/-- The objects of an upload are found by the path they were uploaded to. -/
theorem GcsPath.Names.prefix_objectName (h : p.Names parts) (hne : names ≠ []) :
    p.name <+: objectName parts names := by
  obtain ⟨-, hname | ⟨hparts, hname⟩⟩ := h
  · rw [hname, escape_glue, objectName, List.map_append]
    cases parts with
    | nil => exact List.nil_prefix
    | cons part parts =>
      rw [glue_append (by simp) (by simpa using hne)]
      exact List.prefix_append _ _
  · rw [hname, escape_append, escape_glue, objectName, List.map_append,
      glue_append (by simpa using hparts) (by simpa using hne), List.prefix_append_right_inj]
    exact ⟨_, rfl⟩

theorem objectName_injective {more : List Bytes} (hparts : ∀ part ∈ parts, Plain part)
    (hnames : ∀ name ∈ names, Plain name) (hmore : ∀ name ∈ more, Plain name)
    (h : objectName parts names = objectName parts more) : names = more := by
  have hparse := congrArg parse h
  rw [parse_objectName hparts hnames, parse_objectName hparts hmore] at hparse
  have hmap := List.append_cancel_left (congrArg Parts.parts hparse)
  exact List.map_injective_iff.mpr escape_injective hmap

end Target

end ElCarro.Gcs
