import ElCarro.Database.UserRepository

/-! # Privileges after an update

Of the entries of a spec whose names agree in upper case the last one counts. Where a
statement stands for one privilege each, an update without an error gives the user of
such an entry what the entry names, and there is nothing left to change but the
passwords that are set every time.
-/

namespace ElCarro.Databases.Users

open K8s Api

variable {casing : Casing} {cat : Catalog} {secret : String → String} {env : Env}
  {a b : Accounts} {spec : DatabaseSpec} {versions : StrMap} {u : UserSpec}

section Entries

/-- No later entry has the same name. -/
def Counts (casing : Casing) (spec : DatabaseSpec) (u : UserSpec) : Prop :=
  ∃ earlier later, spec.users = earlier ++ u :: later ∧
    ∀ v ∈ later, casing.toUpper v.name ≠ casing.toUpper u.name

/-- The user of the repository for an entry. -/
def entryUser (casing : Casing) (versions : StrMap) (u : UserSpec) : DbUser casing :=
  newUser casing (userRequest versions u)

theorem Counts.mem (h : Counts casing spec u) : u ∈ spec.users := by
  obtain ⟨earlier, later, heq, -⟩ := h
  rw [heq]
  exact List.mem_append_right _ List.mem_cons_self

theorem Counts.nameToUser (h : Counts casing spec u) :
    nameToUser casing (spec.users.map (userRequest versions)) (entryUser casing versions u).userName =
      some (entryUser casing versions u) := by
  obtain ⟨earlier, later, heq, hlater⟩ := h
  rw [Users.nameToUser, Option.map_eq_some_iff]
  refine ⟨userRequest versions u, ?_, rfl⟩
  rw [List.find?_eq_some_iff_append]
  constructor
  · exact decide_eq_true rfl
  · refine ⟨(later.map (userRequest versions)).reverse, (earlier.map (userRequest versions)).reverse,
      by simp [heq], ?_⟩
    intro v hv
    obtain ⟨w, hw, rfl⟩ := List.mem_map.mp (List.mem_reverse.mp hv)
    simpa [userRequest, entryUser, newUser] using hlater w hw

theorem exists_counts {w : DbUser casing} {name : String}
    (h : nameToUser casing (spec.users.map (userRequest versions)) name = some w) :
    ∃ u, Counts casing spec u ∧ w = entryUser casing versions u := by
  obtain ⟨us, hus, rfl⟩ := Option.map_eq_some_iff.mp h
  obtain ⟨hname, xs, ys, heq, hxs⟩ := List.find?_eq_some_iff_append.mp hus
  have heq' : spec.users.map (userRequest versions) = ys.reverse ++ us :: xs.reverse := by
    have := congrArg List.reverse heq
    simpa using this
  obtain ⟨earlier, rest, husers, -, hrest⟩ := List.map_eq_append_iff.mp heq'
  obtain ⟨u, later, rfl, rfl, hlater⟩ := List.map_eq_cons_iff.mp hrest
  refine ⟨u, ⟨earlier, later, husers, ?_⟩, rfl⟩
  intro v hv hsame
  have hmem : userRequest versions v ∈ xs := by
    rw [← List.mem_reverse, ← hlater]
    exact List.mem_map_of_mem hv
  have hname' : casing.toUpper u.name = name := by simpa [userRequest] using hname
  have hne := hxs _ hmem
  simp [userRequest, hsame, hname'] at hne

/-- One password at most, by the check of the spec. -/
theorem password_eq_empty {ref : GsmSecretRef} (hvalid : validateSpec spec = none)
    (hu : u ∈ spec.users) (href : u.gsmSecretRef = some ref) : u.password = "" := by
  unfold validateSpec at hvalid
  split at hvalid
  · cases hvalid
  · split at hvalid
    · cases hvalid
    · next hnone =>
      have hboth := List.find?_eq_none.mp hnone u hu
      by_contra hne
      exact hboth (by simp [hne, href])

/-- The status notes the version of the entry that counts. -/
theorem lookup_recordedVersions (h : Counts casing spec u) {v : String}
    (hv : recordedVersion u = some v) : (recordedVersions spec versions).lookup u.name = some v := by
  obtain ⟨earlier, later, heq, hlater⟩ := h
  have hkeep : ∀ (m : StrMap), m.lookup u.name = some v →
      (later.foldl (fun m u => ((recordedVersion u).map fun v => m.insert u.name v).getD m) m).lookup
        u.name = some v := by
    clear heq
    induction later with
    | nil => exact fun m hm => hm
    | cons w later ih =>
      intro m hm
      have hne : u.name ≠ w.name := by
        intro hsame
        exact hlater w List.mem_cons_self (by rw [hsame])
      apply ih fun x hx => hlater x (List.mem_cons_of_mem _ hx)
      cases hw : recordedVersion w with
      | none => simpa [hw] using hm
      | some x => simpa [hw, Finmap.lookup_insert_of_ne m hne] using hm
  rw [recordedVersions, heq, List.foldl_append, List.foldl_cons]
  apply hkeep
  rw [hv]
  exact Finmap.lookup_insert _

end Entries

section Latest

/-- The latest version of a secret is asked for. -/
def asksLatest (u : UserSpec) : Bool :=
  u.gsmSecretRef.any fun ref => "latest".toList <:+ ref.version.toList

theorem suffix_of_not_mem {l xs ys : List Char} {c : Char} (h : l <:+ xs ++ c :: ys) (hc : c ∉ l) :
    l <:+ ys := by
  rcases List.suffix_or_suffix_of_suffix h (List.suffix_append xs (c :: ys)) with hl | hl
  · rcases List.suffix_cons_iff.mp hl with rfl | hl
    · exact absurd List.mem_cons_self hc
    · exact hl
  · exact absurd (hl.subset List.mem_cons_self) hc

theorem latest_suffix_iff (ref : GsmSecretRef) :
    "latest".toList <:+ (gsmResourceVersion ref).toList ↔ "latest".toList <:+ ref.version.toList := by
  have hform : (gsmResourceVersion ref).toList =
      (("projects/" ++ ref.projectId ++ "/secrets/" ++ ref.secretId ++ "/versions").toList) ++
        '/' :: ref.version.toList := by
    have hlast : "/versions/" = "/versions" ++ "/" := rfl
    unfold gsmResourceVersion
    have hslash : ∀ l : List Char, "/".toList ++ l = '/' :: l := fun _ => rfl
    rw [hlast, ← String.append_assoc, String.toList_append, String.toList_append,
      List.append_assoc, hslash]
  rw [hform]
  constructor
  · intro h
    exact suffix_of_not_mem h (by decide)
  · intro h
    exact h.trans ((List.suffix_cons _ _).trans (List.suffix_append _ _))

/-- A user whose versions are those on record asks for nothing but the latest version. -/
theorem asks_of_current {w : DbUser casing} (hgsm : w.gsmSecCurVer = w.gsmSecNewVer)
    (hpwd : w.curPassword = "" ∨ w.curPassword = w.newPassword) :
    w.asks = decide ("latest".toList <:+ w.gsmSecNewVer.toList) := by
  have hplaintext : w.toUpdatePlaintextPwd = false := by
    rcases hpwd with h | h <;> simp [DbUser.toUpdatePlaintextPwd, h]
  simp [DbUser.asks, DbUser.toUpdateGsmPwd, hgsm, casing.equalFold_self, hplaintext]

/-- With the recorded versions only the latest ones are asked for again. -/
theorem asks_recorded (hvalid : validateSpec spec = none) (h : Counts casing spec u) :
    (entryUser casing (recordedVersions spec versions) u).asks = asksLatest u := by
  cases href : u.gsmSecretRef with
  | none =>
    rw [asks_of_current]
    · simp [entryUser, newUser, userRequest, asksLatest, href]
    · simp [entryUser, newUser, userRequest, href]
    · by_cases hpwd : u.password = ""
      · exact .inl (by simp [entryUser, newUser, userRequest, hpwd])
      · have hlookup : (recordedVersions spec versions).lookup u.name = some u.password :=
          lookup_recordedVersions h (by simp [recordedVersion, href, hpwd])
        exact .inr (by simp [entryUser, newUser, userRequest, hpwd, valueAt, hlookup])
  | some ref =>
    have hpwd := password_eq_empty hvalid h.mem href
    have hlookup : (recordedVersions spec versions).lookup u.name = some (gsmResourceVersion ref) :=
      lookup_recordedVersions h (by simp [recordedVersion, href])
    rw [asks_of_current]
    · simp only [entryUser, newUser, userRequest, asksLatest, href, Option.map_some, Option.any_some,
        latest_suffix_iff]
    · simp only [entryUser, newUser, userRequest, href, valueAt, hlookup, Option.map_some,
        Option.getD_some]
    · exact .inl (by simp [entryUser, newUser, userRequest, hpwd])

end Latest

section Privileges

/-- The entries that are granted, in upper case; those on objects are left out. -/
def supported (casing : Casing) (u : UserSpec) : List String :=
  (u.privileges.map casing.toUpper).filter fun p => ¬ isObjectPrivilege p

/-- The privileges that an entry of the spec names. -/
def named (casing : Casing) (u : UserSpec) : List String :=
  (supported casing u).flatMap privilegeNames

/-- Each statement for the user stands for the one privilege it is made from. -/
structure PlainFor (casing : Casing) (u : UserSpec) (a : Accounts) : Prop where
  asked : ∀ p ∈ supported casing u, Plain p
  excess : ∀ p ∈ a.privs (casing.toUpper u.name), p ∉ supported casing u → Plain p

theorem PlainFor.mem_named (h : PlainFor casing u a) {p : String} :
    p ∈ named casing u ↔ p ∈ supported casing u := by
  rw [named, List.mem_flatMap]
  constructor
  · rintro ⟨s, hs, hp⟩
    rw [h.asked s hs] at hp
    obtain rfl := List.mem_singleton.mp hp
    exact hs
  · intro hp
    exact ⟨p, hp, by rw [h.asked p hp]; exact List.mem_singleton_self p⟩

/-- The account of an entry after an update: it is managed, and has what the entry names. -/
theorem account_of_updateUsers
    (hok : updateUsers cat secret env casing (spec.users.map (userRequest versions)) a = (true, b))
    (hu : Counts casing spec u) (hplain : PlainFor casing u a) :
    ∃ acc, b.account (casing.toUpper u.name) = some acc ∧ acc.managed = true ∧
      ∀ p, p ∈ acc.privs ↔ p ∈ named casing u := by
  obtain ⟨hcreated, hupdated⟩ := updateUsers_true hok hu.nameToUser
  cases hlisted : isListed a (casing.toUpper u.name) with
  | false =>
    obtain ⟨privs, hacc, hmem⟩ := (hcreated hlisted).account
    refine ⟨_, hacc, rfl, ?_⟩
    intro p
    rw [hmem, named, List.mem_flatMap]
    rfl
  | true =>
    obtain ⟨acc, hacc, hmanaged⟩ : ∃ acc, a.account (casing.toUpper u.name) = some acc ∧
        acc.managed = true := by
      simp only [isListed, Bool.and_eq_true, Option.any_eq_true] at hlisted
      exact hlisted.1
    obtain ⟨privs, hres, haligned⟩ := hupdated hlisted acc hacc
    refine ⟨_, hres, hmanaged, ?_⟩
    intro p
    rw [hplain.mem_named]
    apply haligned.exact hplain.asked
    rw [← privs_of_account hacc]
    exact hplain.excess

theorem listed_of_updateUsers
    (hok : updateUsers cat secret env casing (spec.users.map (userRequest versions)) a = (true, b))
    (hu : Counts casing spec u) (hplain : PlainFor casing u a) :
    isListed b (casing.toUpper u.name) = true ↔ casing.toUpper u.name ≠ pdbAdmin := by
  obtain ⟨acc, hacc, hmanaged, -⟩ := account_of_updateUsers hok hu hplain
  simp [isListed, hacc, hmanaged]

theorem not_differs_of_updateUsers {versions' : StrMap} {secret' : String → String}
    (hok : updateUsers cat secret env casing (spec.users.map (userRequest versions)) a = (true, b))
    (hu : Counts casing spec u) (hplain : PlainFor casing u a) :
    differs ((entryUser casing versions' u).difference secret' b) = false := by
  obtain ⟨acc, hacc, -, hprivs⟩ := account_of_updateUsers hok hu hplain
  have hb : b.privs (casing.toUpper u.name) = acc.privs := privs_of_account hacc
  have hsame : ∀ p, p ∈ b.privs (casing.toUpper u.name) ↔ p ∈ supported casing u := by
    intro p
    rw [hb, hprivs, hplain.mem_named]
  have hgrant : ((entryUser casing versions' u).difference secret' b).toGrant = [] := by
    rw [List.eq_nil_iff_forall_not_mem]
    intro p hp
    obtain ⟨hin, hout⟩ := mem_toGrant.mp hp
    exact hout ((hsame p).mpr hin)
  have hrevoke : ((entryUser casing versions' u).difference secret' b).toRevoke = [] := by
    rw [List.eq_nil_iff_forall_not_mem]
    intro p hp
    obtain ⟨hin, hout⟩ := mem_toRevoke.mp hp
    exact hout ((hsame p).mp hin)
  simp [differs, hgrant, hrevoke]

/-- A later check with the recorded versions. -/
theorem changed_iff {secret' : String → String} {env' : Env} {resp : UsersChangedResponse}
    (h : usersChanged secret' env' casing spec.name (spec.users.map (userRequest versions)) b =
      some resp) :
    resp.changed = true ↔ ∃ u, Counts casing spec u ∧
      (isListed b (casing.toUpper u.name) = false ∨ isListed b (casing.toUpper u.name) = true ∧
        (differs ((entryUser casing versions u).difference secret' b) = true ∨
          (entryUser casing versions u).asks = true)) := by
  obtain ⟨d, hd, rfl⟩ := Option.map_eq_some_iff.mp h
  obtain ⟨hcreate, hupdate, hpwd⟩ := usersDiff_eq_some hd
  simp only [hcreate, hupdate, hpwd, Bool.or_eq_true, decide_eq_true_eq, ne_eq,
    List.eq_nil_iff_forall_not_mem, not_forall, not_not]
  constructor
  · rintro ((⟨w, hw⟩ | ⟨w, hw⟩) | ⟨w, hw⟩)
    · obtain ⟨hw, hlisted⟩ := mem_missing.mp hw
      obtain ⟨u, hu, rfl⟩ := exists_counts hw
      exact ⟨u, hu, .inl hlisted⟩
    · obtain ⟨v, hv, htest, rfl⟩ := mem_chosen.mp hw
      obtain ⟨hv, hlisted⟩ := mem_present.mp hv
      obtain ⟨u, hu, rfl⟩ := exists_counts hv
      exact ⟨u, hu, .inr ⟨hlisted, .inl htest⟩⟩
    · obtain ⟨v, hv, htest, rfl⟩ := mem_chosen.mp hw
      obtain ⟨hv, hlisted⟩ := mem_present.mp hv
      obtain ⟨u, hu, rfl⟩ := exists_counts hv
      exact ⟨u, hu, .inr ⟨hlisted, .inr htest⟩⟩
  · rintro ⟨u, hu, hmissing | ⟨hlisted, htest | htest⟩⟩
    · exact .inl (.inl ⟨_, mem_missing.mpr ⟨hu.nameToUser, hmissing⟩⟩)
    · exact .inl (.inr ⟨_, mem_chosen.mpr ⟨_, mem_present.mpr ⟨hu.nameToUser, hlisted⟩, htest, rfl⟩⟩)
    · exact .inr ⟨_, mem_chosen.mpr ⟨_, mem_present.mpr ⟨hu.nameToUser, hlisted⟩, htest, rfl⟩⟩

/-- After an update without an error, each user has the privileges that its entry names, and a
check with the versions recorded reports a change only for passwords that are set every time. -/
theorem privileges_of_updateUsers (hvalid : validateSpec spec = none)
    (hok : updateUsers cat secret env casing (spec.users.map (userRequest versions)) a = (true, b)) :
    (∀ u, Counts casing spec u → PlainFor casing u a →
      ∃ acc, b.account (casing.toUpper u.name) = some acc ∧
        ∀ p, p ∈ acc.privs ↔ p ∈ named casing u) ∧
    ((∀ u, Counts casing spec u → PlainFor casing u a) → ∀ secret' env' resp,
      usersChanged secret' env' casing spec.name
          (spec.users.map (userRequest (recordedVersions spec versions))) b = some resp →
        (resp.changed = true ↔
          ∃ u, Counts casing spec u ∧ (asksLatest u = true ∨ casing.toUpper u.name = pdbAdmin))) := by
  constructor
  · intro u hu hplain
    obtain ⟨acc, hacc, -, hprivs⟩ := account_of_updateUsers hok hu hplain
    exact ⟨acc, hacc, hprivs⟩
  · intro hplain secret' env' resp hresp
    rw [changed_iff hresp]
    apply exists_congr
    intro u
    apply and_congr_right
    intro hu
    have hlisted := listed_of_updateUsers hok hu (hplain u hu)
    rw [asks_recorded hvalid hu, not_differs_of_updateUsers hok hu (hplain u hu),
      ← Bool.not_eq_true, hlisted]
    tauto

end Privileges

section Samples

/-- The letters of one script. -/
def asciiCasing : Casing where
  toUpper s := String.ofList (s.toList.map Char.toUpper)
  toUpper_toUpper s := by simp [Function.comp_def, toUpper_toUpper]
  equalFold s t := s.toList.map Char.toUpper = t.toList.map Char.toUpper
  equalFold_self _ := decide_eq_true rfl

def oneAccount (name : String) (acc : Account) : Accounts where
  names := [name]
  account := Function.update (fun _ => none) name (some acc)
  mem_names n := by
    by_cases h : n = name
    · simp [h]
    · simp [h]

def sampleCatalog : Catalog := ⟨["CONNECT"], ["CREATE SESSION", "CREATE TABLE"]⟩

def sampleAccounts : Accounts := oneAccount "SCOTT" ⟨"tiger", ["CREATE SESSION"], true⟩

def everyCall : Env := ⟨fun _ => true⟩

def tigerSecret : String → String := fun _ => "tiger"

def specOf (u : UserSpec) : DatabaseSpec := ⟨"PDB1", "", none, [u]⟩

theorem counts_specOf {u v : UserSpec} : Counts asciiCasing (specOf u) v ↔ v = u := by
  constructor
  · intro h
    exact List.mem_singleton.mp h.mem
  · rintro rfl
    exact ⟨[], [], rfl, by simp⟩

/-- An update of the sample, for one entry and with nothing recorded. -/
def sampleUpdate (u : UserSpec) : Bool × Accounts :=
  updateUsers sampleCatalog tigerSecret everyCall asciiCasing ((specOf u).users.map (userRequest ∅))
    sampleAccounts

def plainScott : UserSpec := ⟨"scott", "", none, ["create table", "connect"]⟩

def listScott : UserSpec := ⟨"scott", "", none, ["CREATE SESSION, CREATE TABLE"]⟩

def latestScott : UserSpec := ⟨"scott", "", some ⟨"p", "s", "latest"⟩, ["create session"]⟩

theorem plainScott_updated :
    (∃ acc, (sampleUpdate plainScott).2.account (asciiCasing.toUpper plainScott.name) = some acc ∧
      ∀ p, p ∈ acc.privs ↔ p ∈ named asciiCasing plainScott) ∧
    ∀ secret env resp, usersChanged secret env asciiCasing "PDB1"
        ((specOf plainScott).users.map (userRequest (recordedVersions (specOf plainScott) ∅)))
        (sampleUpdate plainScott).2 = some resp → resp.changed = false := by
  have htrue : (sampleUpdate plainScott).1 = true := by decide +kernel
  have hok : sampleUpdate plainScott = (true, (sampleUpdate plainScott).2) := by rw [← htrue]
  have hvalid : validateSpec (specOf plainScott) = none := by decide +kernel
  have hplain : PlainFor asciiCasing plainScott sampleAccounts := by
    constructor <;> decide +kernel
  obtain ⟨hprivs, hchange⟩ := privileges_of_updateUsers hvalid hok
  constructor
  · exact hprivs plainScott (counts_specOf.mpr rfl) hplain
  · intro secret env resp hresp
    have hall : ∀ u, Counts asciiCasing (specOf plainScott) u →
        PlainFor asciiCasing u sampleAccounts := by
      intro u hu
      obtain rfl := counts_specOf.mp hu
      exact hplain
    rw [← Bool.not_eq_true, hchange hall secret env resp hresp]
    rintro ⟨u, hu, h⟩
    obtain rfl := counts_specOf.mp hu
    revert h
    decide +kernel

/-- The latest version is set every time, and a list of privileges is granted as a whole
before its members are revoked. -/
theorem update_without_fixpoint :
    (validateSpec (specOf latestScott) = none ∧ (sampleUpdate latestScott).1 = true ∧
      (usersChanged tigerSecret everyCall asciiCasing "PDB1"
        ((specOf latestScott).users.map (userRequest (recordedVersions (specOf latestScott) ∅)))
        (sampleUpdate latestScott).2).any (·.changed) = true) ∧
    validateSpec (specOf listScott) = none ∧ (sampleUpdate listScott).1 = true ∧
      named asciiCasing listScott = ["CREATE SESSION", "CREATE TABLE"] ∧
      (sampleUpdate listScott).2.privs "SCOTT" = ["CREATE TABLE"] := by
  decide +kernel

end Samples

end ElCarro.Databases.Users
