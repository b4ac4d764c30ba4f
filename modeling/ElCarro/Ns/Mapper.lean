import ElCarro.Lib.HashedName

/-! # Namespace mappers

Entities of one namespace are mapped into another. Where names of several namespaces
meet, or a name gets too long, the hash of the original is written at the end of what is
left of it. The suffix has no leading zeros, so it is shorter for a small hash.
-/

namespace ElCarro.Ns

open HashedName

/-- A string is the sequence of its bytes, which is how its length is counted and how it
is cut. -/
abbrev Bytes := List UInt8

def dash : UInt8 := 0x2D

def slash : UInt8 := 0x2F

-- Every rune of the set is one byte.
def charset : Bytes := "0123456789abcdefghijklmnopqrstuvwxyz".toUTF8.toList

def suffixLen : Nat := 14

section Suffix

/-- The loop of `hashSuffix`: append the lowest digit while there is one. -/
def hashLoop (c : Bytes) (i : UInt64) : Bytes :=
  if 0 < i then hashLoop (c ++ [charset.getD (i % 36).toNat 0]) (i / 36) else c
termination_by i.toNat
decreasing_by
  rename_i h
  rw [UInt64.toNat_div]
  exact Nat.div_lt_self (UInt64.lt_iff_toNat_lt.mp h) (by decide)

def hashSuffix (s : Bytes) : Bytes := hashLoop [dash] (fnv64 s)

theorem length_charset : charset.length = 36 := by decide +kernel

theorem one_lt_charset : 1 < charset.length := by
  rw [length_charset]
  omega

theorem hashLoop_eq (c : Bytes) (i : UInt64) :
    hashLoop c i = c ++ digitText charset 0 i.toNat := by
  fun_induction hashLoop c i with
  | case1 c i h ih =>
    rw [ih, digitText_pos 0 one_lt_charset (UInt64.lt_iff_toNat_lt.mp h), length_charset]
    simp
  | case2 c i h =>
    have hzero : i.toNat = 0 := by
      rw [UInt64.lt_iff_toNat_lt] at h
      simpa using h
    simp [hzero, digitText_zero]

theorem hashSuffix_eq (s : Bytes) :
    hashSuffix s = dash :: digitText charset 0 (fnv64 s).toNat := hashLoop_eq _ _

/-- Thirteen digits hold any 64 bits. -/
theorem length_hashSuffix_le (s : Bytes) : (hashSuffix s).length ≤ suffixLen := by
  have hlt : (fnv64 s).toNat < charset.length ^ 13 := by
    rw [length_charset]
    exact (fnv64 s).toNat_lt.trans (by norm_num)
  have hdigits := (length_digitText_le_iff 0 one_lt_charset _ _).mpr hlt
  rw [hashSuffix_eq, List.length_cons, suffixLen]
  omega

end Suffix

section Munge

/-- The two parts with a dash between them, or the only one that is not empty. -/
def join (s1 s2 : Bytes) : Bytes :=
  let j := s1 ++ dash :: s2
  let j := if s1.length = 0 then s2 else j
  if s2.length = 0 then s1 else j

/-- The joined string that is hashed. -/
def hashed (s1 s2 : Bytes) : Bytes := s1 ++ slash :: s2

def munge (s1 s2 : Bytes) (limit : Nat) (alwaysAddHash : Bool) : Bytes :=
  let j := join s1 s2
  if alwaysAddHash || decide (limit ≤ j.length) then
    let j := if limit - suffixLen < j.length then j.take (limit - suffixLen) else j
    j ++ hashSuffix (hashed s1 s2)
  else j

theorem munge_hashed {s1 s2 : Bytes} {limit : Nat} {always : Bool}
    (h : always = true ∨ limit ≤ (join s1 s2).length) :
    munge s1 s2 limit always =
      (join s1 s2).take (limit - suffixLen) ++ hashSuffix (hashed s1 s2) := by
  have hcond : (always || decide (limit ≤ (join s1 s2).length)) = true := by simpa using h
  unfold munge
  rw [if_pos hcond]
  split
  · rfl
  · rename_i hlen
    rw [List.take_of_length_le (Nat.not_lt.mp hlen)]

theorem munge_plain {s1 s2 : Bytes} {limit : Nat} (h : (join s1 s2).length < limit) :
    munge s1 s2 limit false = join s1 s2 := by
  simp [munge, h]

theorem length_munge_le {limit : Nat} (hlimit : suffixLen ≤ limit) (s1 s2 : Bytes)
    (always : Bool) : (munge s1 s2 limit always).length ≤ limit := by
  by_cases h : always = true ∨ limit ≤ (join s1 s2).length
  · have hsuffix := length_hashSuffix_le (hashed s1 s2)
    rw [munge_hashed h, List.length_append, List.length_take]
    omega
  · obtain ⟨halways, hlen⟩ := not_or.mp h
    rw [Bool.not_eq_true] at halways
    subst halways
    rw [munge_plain (Nat.not_le.mp hlen)]
    omega

/-- Names with a hash at their end have the hashes in common when they are equal. -/
theorem suffixed_inj {x y s t : Bytes} (h : x ++ hashSuffix s = y ++ hashSuffix t) :
    x = y ∧ fnv64 s = fnv64 t := by
  rw [hashSuffix_eq, hashSuffix_eq] at h
  obtain ⟨hx, hhash⟩ := hashed_inj one_lt_charset (by decide +kernel) (by decide +kernel) h
  exact ⟨hx, UInt64.toNat_inj.mp hhash⟩

theorem hashed_injective {s1 s2 t1 t2 : Bytes} (hs : slash ∉ s2) (ht : slash ∉ t2)
    (h : hashed s1 s2 = hashed t1 t2) : s1 = t1 ∧ s2 = t2 := append_sep_inj hs ht h

end Munge

section Mappers

inductive NamespaceMapper where
  | same
  | redirectToAnother (targetNS : Bytes)
  | prefixer (nsPrefix : Bytes)
  | prefixSwapper (oldPre newPre : Bytes)
  deriving DecidableEq, Repr

namespace NamespaceMapper

def destName (m : NamespaceMapper) (srcNS srcName : Bytes) : Bytes :=
  match m with
  | .same | .prefixer _ | .prefixSwapper _ _ => srcName
  | .redirectToAnother _ => munge srcNS srcName 63 true

/-- `strings.TrimPrefix`. -/
def trimPrefix (s pre : Bytes) : Bytes :=
  if pre.isPrefixOf s then s.drop pre.length else s

def destNamespace (m : NamespaceMapper) (srcNS : Bytes) : Bytes :=
  match m with
  | .same => srcNS
  | .redirectToAnother targetNS => targetNS
  | .prefixer nsPrefix => munge nsPrefix srcNS 63 false
  | .prefixSwapper oldPre newPre => munge [] (newPre ++ trimPrefix srcNS oldPre) 63 false

end NamespaceMapper

/-- An entity by its namespace and its name. -/
structure Source where
  ns : Bytes
  name : Bytes
  deriving DecidableEq, Repr

def Source.SlashFree (a : Source) : Prop := slash ∉ a.ns ∧ slash ∉ a.name

instance (a : Source) : Decidable a.SlashFree := inferInstanceAs (Decidable (_ ∧ _))

/-- Names that are redirected from different entities differ, but for a collision of the
hash; no destination is longer than a label may be. -/
theorem redirected_names_differ (targetNS : Bytes) :
    (∀ srcNS srcName : Bytes,
      ((NamespaceMapper.redirectToAnother targetNS).destName srcNS srcName).length ≤ 63) ∧
    (∀ a b : Source, a.SlashFree → b.SlashFree → a ≠ b →
      (NamespaceMapper.redirectToAnother targetNS).destName a.ns a.name ≠
          (NamespaceMapper.redirectToAnother targetNS).destName b.ns b.name ∨
        Collide (hashed a.ns a.name) (hashed b.ns b.name)) ∧
    (∀ nsPrefix srcNS : Bytes,
      ((NamespaceMapper.prefixer nsPrefix).destNamespace srcNS).length ≤ 63) ∧
    ∀ oldPre newPre srcNS : Bytes,
      ((NamespaceMapper.prefixSwapper oldPre newPre).destNamespace srcNS).length ≤ 63 := by
  have hlimit : suffixLen ≤ 63 := by decide
  refine ⟨fun srcNS srcName => length_munge_le hlimit srcNS srcName true, ?_,
    fun nsPrefix srcNS => length_munge_le hlimit nsPrefix srcNS false,
    fun oldPre newPre srcNS => length_munge_le hlimit [] _ false⟩
  rintro ⟨ns, name⟩ ⟨ns', name'⟩ ⟨_, hname⟩ ⟨_, hname'⟩ hne
  rw [or_iff_not_imp_left, not_ne_iff]
  intro heq
  simp only [NamespaceMapper.destName] at heq
  rw [munge_hashed (Or.inl rfl), munge_hashed (Or.inl rfl)] at heq
  refine ⟨fun hjoined => hne ?_, (suffixed_inj heq).2⟩
  obtain ⟨rfl, rfl⟩ := hashed_injective hname hname' hjoined
  rfl

-- Both are cut down to the same text before the hash.
theorem dashed_pairs_differ :
    let a : Source := ⟨"a-b".toUTF8.toList, "c".toUTF8.toList⟩
    let b : Source := ⟨"a".toUTF8.toList, "b-c".toUTF8.toList⟩
    join a.ns a.name = join b.ns b.name ∧
      (NamespaceMapper.redirectToAnother []).destName a.ns a.name ≠
        (NamespaceMapper.redirectToAnother []).destName b.ns b.name :=
  ⟨by decide +kernel, ((redirected_names_differ []).2.1 _ _ (by decide +kernel)
    (by decide +kernel) (by decide +kernel)).resolve_right (by decide +kernel)⟩

end Mappers

section Prefixes

/-- The name of `b` with the prefix is short, and spells what the long one of `a` is cut to
together with the digits of its hash, which are fewer than thirteen. -/
structure Mimics (nsPrefix a b : Bytes) : Prop where
  long : 63 ≤ (join nsPrefix a).length
  small : (fnv64 (hashed nsPrefix a)).toNat < 36 ^ 12
  spelled : join nsPrefix b =
    (join nsPrefix a).take 49 ++ dash :: digitText charset 0 (fnv64 (hashed nsPrefix a)).toNat
  other : fnv64 (hashed nsPrefix a) ≠ fnv64 (hashed nsPrefix b)

variable {nsPrefix a b : Bytes}

theorem join_injective : Function.Injective (join nsPrefix) := by
  intro a b h
  simp only [join, List.length_eq_zero_iff] at h
  by_cases ha : a = [] <;> by_cases hb : b = [] <;> by_cases hp : nsPrefix = [] <;>
    simp_all

theorem collide_iff (hne : a ≠ b) : Collide (hashed nsPrefix a) (hashed nsPrefix b) ↔
    fnv64 (hashed nsPrefix a) = fnv64 (hashed nsPrefix b) := by
  refine ⟨And.right, fun h => ⟨?_, h⟩⟩
  simpa [hashed] using hne

theorem mimics_iff (ha : 63 ≤ (join nsPrefix a).length) (hb : (join nsPrefix b).length < 63) :
    Mimics nsPrefix a b ↔
      munge nsPrefix a 63 false = munge nsPrefix b 63 false ∧
        fnv64 (hashed nsPrefix a) ≠ fnv64 (hashed nsPrefix b) := by
  rw [munge_hashed (Or.inr ha), munge_plain hb, hashSuffix_eq]
  constructor
  · intro h
    exact ⟨h.spelled.symm, h.other⟩
  · rintro ⟨hspelled, hother⟩
    refine ⟨ha, ?_, hspelled.symm, hother⟩
    have hlen := congrArg List.length hspelled
    rw [List.length_append, List.length_take, List.length_cons] at hlen
    rw [← length_charset, ← length_digitText_le_iff 0 one_lt_charset]
    simp only [suffixLen] at hlen
    omega

theorem Mimics.short (h : Mimics nsPrefix a b) : (join nsPrefix b).length < 63 := by
  have hdigits := h.small
  rw [← length_charset, ← length_digitText_le_iff 0 one_lt_charset] at hdigits
  rw [h.spelled, List.length_append, List.length_take, List.length_cons]
  omega

/-- Different namespaces get different destinations, but for a collision of the hash,
exactly when neither of them mimics what the other is cut to. -/
theorem destNamespace_prefixer_ne_iff (hne : a ≠ b) :
    ((NamespaceMapper.prefixer nsPrefix).destNamespace a ≠
          (NamespaceMapper.prefixer nsPrefix).destNamespace b ∨
        Collide (hashed nsPrefix a) (hashed nsPrefix b)) ↔
      ¬ Mimics nsPrefix a b ∧ ¬ Mimics nsPrefix b a := by
  rw [collide_iff hne]
  simp only [NamespaceMapper.destNamespace]
  rcases Nat.lt_or_ge (join nsPrefix a).length 63 with ha | ha <;>
    rcases Nat.lt_or_ge (join nsPrefix b).length 63 with hb | hb
  · have hdiff : munge nsPrefix a 63 false ≠ munge nsPrefix b 63 false := by
      rw [munge_plain ha, munge_plain hb]
      exact join_injective.ne hne
    refine iff_of_true (Or.inl hdiff) ⟨fun h => ?_, fun h => ?_⟩
    · exact absurd h.long (Nat.not_le.mpr ha)
    · exact absurd h.long (Nat.not_le.mpr hb)
  · have hab : ¬ Mimics nsPrefix a b := fun h => absurd h.long (Nat.not_le.mpr ha)
    rw [mimics_iff hb ha]
    tauto
  · have hba : ¬ Mimics nsPrefix b a := fun h => absurd h.long (Nat.not_le.mpr hb)
    rw [mimics_iff ha hb]
    tauto
  · have hhash : munge nsPrefix a 63 false = munge nsPrefix b 63 false →
        fnv64 (hashed nsPrefix a) = fnv64 (hashed nsPrefix b) := by
      rw [munge_hashed (Or.inr ha), munge_hashed (Or.inr hb)]
      exact fun h => (suffixed_inj h).2
    refine iff_of_true (not_or_of_imp hhash) ⟨fun h => ?_, fun h => ?_⟩
    · exact absurd h.short (Nat.not_lt.mpr hb)
    · exact absurd h.short (Nat.not_lt.mpr ha)

/-- Two short namespaces, which are only joined with the prefix. -/
theorem short_namespaces_differ :
    let a := "db".toUTF8.toList
    let b := "db-2".toUTF8.toList
    a ≠ b ∧ ((NamespaceMapper.prefixer "ods".toUTF8.toList).destNamespace a ≠
          (NamespaceMapper.prefixer "ods".toUTF8.toList).destNamespace b ∨
        Collide (hashed "ods".toUTF8.toList a) (hashed "ods".toUTF8.toList b)) :=
  ⟨by decide +kernel, (destNamespace_prefixer_ne_iff (by decide +kernel)).mpr
    ⟨fun h => absurd h.long (by decide +kernel), fun h => absurd h.long (by decide +kernel)⟩⟩

/-- A namespace that is cut, and one that has the twelve digits of its hash as text. -/
theorem hashed_and_plain_meet :
    ¬ ∀ nsPrefix a b : Bytes, slash ∉ nsPrefix → slash ∉ a → slash ∉ b → a ≠ b →
      (NamespaceMapper.prefixer nsPrefix).destNamespace a ≠
          (NamespaceMapper.prefixer nsPrefix).destNamespace b ∨
        Collide (hashed nsPrefix a) (hashed nsPrefix b) := by
  intro h
  let ods := "ods".toUTF8.toList
  let a := List.replicate 59 (0x61 : UInt8)
  let b := List.replicate 45 (0x61 : UInt8) ++ "-hh99y2ajpzl3".toUTF8.toList
  have hhash : (fnv64 (hashed ods a)).toNat = 475271075864617541 := by decide +kernel
  have hdigits : digitText charset 0 475271075864617541 = "hh99y2ajpzl3".toUTF8.toList := by
    have hnum : Nat.digits 36 475271075864617541 =
        [17, 17, 9, 9, 34, 2, 10, 19, 25, 35, 21, 3] := by norm_num
    rw [digitText, length_charset, hnum]
    decide +kernel
  have hmimics : Mimics ods a b := by
    refine ⟨by decide +kernel, ?_, ?_, by decide +kernel⟩
    · rw [hhash]
      norm_num
    · rw [hhash, hdigits]
      decide +kernel
  obtain ⟨hmeet, hother⟩ := (mimics_iff hmimics.long hmimics.short).mp hmimics
  have hclaim := h ods a b (by decide +kernel) (by decide +kernel) (by decide +kernel)
    (by decide +kernel)
  rcases hclaim with hdiff | hcollide
  · exact hdiff hmeet
  · exact hother hcollide.2

end Prefixes

end ElCarro.Ns
