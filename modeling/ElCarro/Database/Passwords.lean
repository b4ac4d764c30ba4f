import ElCarro.Database.Privileges

/-! # Passwords after a sync

A sync compares versions, not passwords: for a user that is there already, the password
is set when the status notes another version than the one asked for.
-/

namespace ElCarro.Databases.Users

open K8s Api

variable {casing : Casing} {cat : Catalog} {sync : SyncEnv} {a b : Accounts} {spec : DatabaseSpec}
  {versions : StrMap} {u : UserSpec} {status status' : UserStatus}

section Wanted

/-- The password that an entry asks for. -/
def wanted (secret : String → String) (u : UserSpec) : String :=
  match u.gsmSecretRef with
  | some ref => secret (gsmResourceVersion ref)
  | none => u.password

/-- The user has the password that the entry asks for. -/
def Applied (casing : Casing) (secret : String → String) (u : UserSpec) (b : Accounts) : Prop :=
  ∃ acc, b.account (casing.toUpper u.name) = some acc ∧ acc.password = wanted secret u

/-- The status notes the version that the entry asks for; the latest one is never noted. -/
def upToDate (casing : Casing) (versions : StrMap) (u : UserSpec) : Bool :=
  match u.gsmSecretRef with
  | some ref =>
    casing.equalFold (gsmResourceVersion ref) (valueAt versions u.name) && ¬ asksLatest u
  | none => valueAt versions u.name = u.password

/-- The user keeps the password it has. -/
def SamePassword (casing : Casing) (u : UserSpec) (a b : Accounts) : Prop :=
  ∃ acc acc', a.account (casing.toUpper u.name) = some acc ∧
    b.account (casing.toUpper u.name) = some acc' ∧ acc'.password = acc.password

/-- A user that is there, with a password in the spec and none in the status. -/
def Unrecorded (casing : Casing) (versions : StrMap) (a : Accounts) (u : UserSpec) : Prop :=
  isListed a (casing.toUpper u.name) = true ∧ u.gsmSecretRef = none ∧ valueAt versions u.name = ""

theorem gsmResourceVersion_ne_empty (ref : GsmSecretRef) : gsmResourceVersion ref ≠ "" := by
  intro h
  rw [gsmResourceVersion] at h
  simp only [String.append_eq_empty_iff] at h
  exact absurd h.1.1.1.1.1 (by decide)

theorem asks_eq_not_upToDate (hvalid : validateSpec spec = none) (hu : u ∈ spec.users)
    (hsome : recordedVersion u ≠ none) (hrec : u.gsmSecretRef = none → valueAt versions u.name ≠ "") :
    (entryUser casing versions u).asks = !upToDate casing versions u := by
  cases href : u.gsmSecretRef with
  | none =>
    have hpwd : u.password ≠ "" := by simpa [recordedVersion, href] using hsome
    simp [DbUser.asks, DbUser.toUpdateGsmPwd, DbUser.toUpdatePlaintextPwd, entryUser, newUser,
      userRequest, upToDate, href, hpwd, hrec href]
  | some ref =>
    have hpwd := password_eq_empty hvalid hu href
    have hplaintext : (entryUser casing versions u).toUpdatePlaintextPwd = false := by
      simp [DbUser.toUpdatePlaintextPwd, entryUser, newUser, userRequest, hpwd]
    have hnew : (entryUser casing versions u).gsmSecNewVer = gsmResourceVersion ref := by
      simp only [entryUser, newUser, userRequest, href, Option.map_some]
    have hcur : (entryUser casing versions u).gsmSecCurVer = valueAt versions u.name := by
      simp only [entryUser, newUser, userRequest, href, Option.map_some, Option.getD_some]
    have hgsm : (entryUser casing versions u).toUpdateGsmPwd =
        (!casing.equalFold (gsmResourceVersion ref) (valueAt versions u.name) || asksLatest u) := by
      have hne := gsmResourceVersion_ne_empty ref
      rw [DbUser.toUpdateGsmPwd, hnew, hcur, asksLatest, href, Option.any_some]
      simp only [hne, ne_eq, not_false_eq_true, decide_true, Bool.true_and, Bool.not_eq_true,
        Bool.decide_eq_false, latest_suffix_iff]
    rw [DbUser.asks, hplaintext, hgsm, upToDate, href]
    simp [Bool.not_and]

theorem newPassword_of_asks (hvalid : validateSpec spec = none) (hu : u ∈ spec.users)
    {secret : String → String} (h : (entryUser casing versions u).asks = true) :
    ((entryUser casing versions u).withSecret secret).newPassword = wanted secret u := by
  cases href : u.gsmSecretRef with
  | none => simp [DbUser.withSecret, DbUser.toUpdateGsmPwd, entryUser, newUser, userRequest, wanted, href]
  | some ref =>
    have hpwd := password_eq_empty hvalid hu href
    have hgsm : (entryUser casing versions u).toUpdateGsmPwd = true := by
      simpa [DbUser.asks, DbUser.toUpdatePlaintextPwd, entryUser, newUser, userRequest, hpwd] using h
    rw [DbUser.withSecret, if_pos hgsm]
    simp [entryUser, newUser, userRequest, wanted, href]

end Wanted

section Sync

/-- A sync without an error: there was nothing to change, or everything was changed. -/
theorem syncUsers_true (h : syncUsers cat sync casing spec status a = (true, b, status')) :
    status'.userResourceVersions = recordedVersions spec status.userResourceVersions ∧
      ((∃ resp, usersChanged sync.secret sync.changing casing spec.name
            (spec.users.map (userRequest status.userResourceVersions)) a = some resp ∧
          resp.changed = false ∧ b = a) ∨
        updateUsers cat sync.secret sync.updating casing
          (spec.users.map (userRequest status.userResourceVersions)) a = (true, b)) := by
  unfold syncUsers at h
  simp only at h
  split at h
  · cases h
  · next resp hresp =>
    split at h
    · next hchanged =>
      simp only [Prod.mk.injEq] at h
      obtain ⟨-, rfl, rfl⟩ := h
      exact ⟨rfl, .inl ⟨resp, hresp, by simpa using hchanged, rfl⟩⟩
    · split at h
      · cases h
      · split at h
        · cases h
        · next b' hupdate =>
          simp only [Prod.mk.injEq] at h
          obtain ⟨-, rfl, rfl⟩ := h
          exact ⟨rfl, .inr hupdate⟩

/-- The password of an entry's user after a sync. -/
theorem password_of_syncUsers (hvalid : validateSpec spec = none)
    (h : syncUsers cat sync casing spec status a = (true, b, status')) (hu : Counts casing spec u) :
    (isListed a (casing.toUpper u.name) = false → u.password ≠ "" ∧ Applied casing sync.secret u b) ∧
      (isListed a (casing.toUpper u.name) = true → ∃ acc acc',
        a.account (casing.toUpper u.name) = some acc ∧ b.account (casing.toUpper u.name) = some acc' ∧
          acc'.password = if (entryUser casing status.userResourceVersions u).asks then
            wanted sync.secret u else acc.password) := by
  have hexists : isListed a (casing.toUpper u.name) = true →
      ∃ acc, a.account (casing.toUpper u.name) = some acc := by
    intro hlisted
    simp only [isListed, Bool.and_eq_true, Option.any_eq_true] at hlisted
    obtain ⟨⟨acc, hacc, -⟩, -⟩ := hlisted
    exact ⟨acc, hacc⟩
  obtain ⟨-, ⟨resp, hresp, hchanged, rfl⟩ | hupdate⟩ := syncUsers_true h
  · have hnone := mt (changed_iff hresp).mpr (by simp [hchanged])
    have hsettled := fun h => hnone ⟨u, hu, h⟩
    constructor
    · intro hlisted
      exact absurd (.inl hlisted) hsettled
    · intro hlisted
      obtain ⟨acc, hacc⟩ := hexists hlisted
      refine ⟨acc, acc, hacc, hacc, ?_⟩
      rw [if_neg]
      intro hasks
      exact hsettled (.inr ⟨hlisted, .inr hasks⟩)
  · obtain ⟨hcreated, hupdated⟩ := updateUsers_true hupdate hu.nameToUser
    constructor
    · intro hlisted
      have hpwd : u.password ≠ "" := (hcreated hlisted).password
      obtain ⟨privs, hacc, -⟩ := (hcreated hlisted).account
      refine ⟨hpwd, _, hacc, ?_⟩
      cases href : u.gsmSecretRef with
      | none =>
        rw [wanted, href]
        rfl
      | some ref => exact absurd (password_eq_empty hvalid hu.mem href) hpwd
    · intro hlisted
      obtain ⟨acc, hacc⟩ := hexists hlisted
      obtain ⟨privs, hres, -⟩ := hupdated hlisted acc hacc
      refine ⟨acc, _, hacc, hres, ?_⟩
      split
      · next hasks =>
        exact newPassword_of_asks hvalid hu.mem hasks
      · rfl

/-- What the status notes: the version of the admin as it was, and those of the entries. -/
theorem recordedVersions_eq_some {name v : String}
    (h : (recordedVersions spec versions).lookup name = some v) :
    (name = pdbAdmin ∧ versions.lookup pdbAdmin = some v) ∨
      ∃ u ∈ spec.users, u.name = name ∧ recordedVersion u = some v := by
  have hfold : ∀ (us : List UserSpec) (m : StrMap),
      (us.foldl (fun m u => ((recordedVersion u).map fun v => m.insert u.name v).getD m) m).lookup
        name = some v →
      m.lookup name = some v ∨ ∃ u ∈ us, u.name = name ∧ recordedVersion u = some v := by
    intro us
    induction us with
    | nil => exact fun m hm => .inl hm
    | cons w us ih =>
      intro m hm
      rcases ih _ hm with hm | ⟨u, hu, heq⟩
      · cases hw : recordedVersion w with
        | none => exact .inl (by simpa [hw] using hm)
        | some x =>
          simp only [hw, Option.map_some, Option.getD_some] at hm
          by_cases hname : name = w.name
          · subst hname
            rw [Finmap.lookup_insert] at hm
            exact .inr ⟨w, List.mem_cons_self, rfl, hw.trans hm⟩
          · rw [Finmap.lookup_insert_of_ne _ hname] at hm
            exact .inl hm
      · exact .inr ⟨u, List.mem_cons_of_mem _ hu, heq⟩
  rcases hfold spec.users _ h with hm | hm
  · left
    cases hadmin : versions.lookup pdbAdmin with
    | none => simp [hadmin] at hm
    | some x =>
      simp only [hadmin, Option.map_some, Option.getD_some] at hm
      by_cases hname : name = pdbAdmin
      · subst hname
        rw [Finmap.lookup_insert] at hm
        exact ⟨rfl, hm⟩
      · rw [Finmap.lookup_insert_of_ne _ hname] at hm
        simp at hm
  · exact .inr hm

section Entry

variable (hvalid : validateSpec spec = none)
  (hok : syncUsers cat sync casing spec status a = (true, b, status')) (hu : Counts casing spec u)
  (hsome : recordedVersion u ≠ none) (hrec : ¬ Unrecorded casing status.userResourceVersions a u)

include hvalid hok hu hsome hrec

theorem applied_of_due
    (hdue : isListed a (casing.toUpper u.name) = false ∨
      upToDate casing status.userResourceVersions u = false) : Applied casing sync.secret u b := by
  cases hlisted : isListed a (casing.toUpper u.name) with
  | false => exact ((password_of_syncUsers hvalid hok hu).1 hlisted).2
  | true =>
    have hold : upToDate casing status.userResourceVersions u = false := by
      simpa [hlisted] using hdue
    have hasks : (entryUser casing status.userResourceVersions u).asks = true := by
      rw [asks_eq_not_upToDate hvalid hu.mem hsome fun href hempty => hrec ⟨hlisted, href, hempty⟩,
        hold]
      rfl
    obtain ⟨acc, acc', -, hacc', hpwd⟩ := (password_of_syncUsers hvalid hok hu).2 hlisted
    rw [if_pos hasks] at hpwd
    exact ⟨acc', hacc', hpwd⟩

theorem samePassword_of_upToDate (hlisted : isListed a (casing.toUpper u.name) = true)
    (hcur : upToDate casing status.userResourceVersions u = true) : SamePassword casing u a b := by
  have hasks : (entryUser casing status.userResourceVersions u).asks = false := by
    rw [asks_eq_not_upToDate hvalid hu.mem hsome fun href hempty => hrec ⟨hlisted, href, hempty⟩,
      hcur]
    rfl
  obtain ⟨acc, acc', hacc, hacc', hpwd⟩ := (password_of_syncUsers hvalid hok hu).2 hlisted
  rw [hasks] at hpwd
  exact ⟨acc, acc', hacc, hacc', hpwd⟩

end Entry

/-- After a sync without an error, a user whose version is not the one noted before has the
password of its entry, and one whose version is has the password it had. What the status notes
is the admin's version, or that of an entry. -/
theorem passwords_of_syncUsers (hvalid : validateSpec spec = none)
    (hok : syncUsers cat sync casing spec status a = (true, b, status')) :
    (∀ u, Counts casing spec u → recordedVersion u ≠ none →
      ¬ Unrecorded casing status.userResourceVersions a u →
        ((isListed a (casing.toUpper u.name) = false ∨
            upToDate casing status.userResourceVersions u = false) → Applied casing sync.secret u b) ∧
        (isListed a (casing.toUpper u.name) = true →
          upToDate casing status.userResourceVersions u = true → SamePassword casing u a b)) ∧
    ∀ name v, status'.userResourceVersions.lookup name = some v →
      (name = pdbAdmin ∧ status.userResourceVersions.lookup pdbAdmin = some v) ∨
        ∃ u ∈ spec.users, u.name = name ∧ recordedVersion u = some v ∧
          (Counts casing spec u → ¬ Unrecorded casing status.userResourceVersions a u →
            Applied casing sync.secret u b ∨
              upToDate casing status.userResourceVersions u = true) := by
  constructor
  · intro u hu hsome hrec
    constructor
    · exact applied_of_due hvalid hok hu hsome hrec
    · exact samePassword_of_upToDate hvalid hok hu hsome hrec
  · intro name v hv
    rw [(syncUsers_true hok).1] at hv
    rcases recordedVersions_eq_some hv with hadmin | ⟨u, hmem, hname, hrecorded⟩
    · exact .inl hadmin
    · refine .inr ⟨u, hmem, hname, hrecorded, ?_⟩
      intro hu hrec
      cases hcur : upToDate casing status.userResourceVersions u with
      | true => exact .inr rfl
      | false => exact .inl (applied_of_due hvalid hok hu (by simp [hrecorded]) hrec (.inr hcur))

/-- The PDB has a user of the given password, and the status notes the versions. -/
def syncSample (u : UserSpec) (versions : StrMap) (password : String) :
    Bool × Accounts × UserStatus :=
  syncUsers sampleCatalog ⟨0, fun _ => "lion", everyCall, everyCall, true, true⟩ asciiCasing (specOf u)
    ⟨versions, [], []⟩ (oneAccount "SCOTT" ⟨password, [], true⟩)

def passwordScott : UserSpec := ⟨"scott", "lion", none, []⟩

def noted (v : String) : StrMap := (∅ : StrMap).insert "scott" v

theorem passwordScott_synced :
    Applied asciiCasing (fun _ => "lion") passwordScott
      (syncSample passwordScott (noted "tiger") "tiger").2.1 := by
  have htrue : (syncSample passwordScott (noted "tiger") "tiger").1 = true := by decide +kernel
  have hok : syncSample passwordScott (noted "tiger") "tiger" =
      (true, (syncSample passwordScott (noted "tiger") "tiger").2) := by rw [← htrue]
  have hvalid : validateSpec (specOf passwordScott) = none := by decide +kernel
  have hentry := (passwords_of_syncUsers hvalid hok).1 passwordScott (counts_specOf.mpr rfl)
  apply (hentry (by decide) ?_).1
  · exact .inr (by decide +kernel)
  · rintro ⟨-, -, hempty⟩
    revert hempty
    decide +kernel

/-- A password that was changed in the PDB is not set again; nor is the first one of a user
that was there before, though the status then notes it. -/
theorem password_not_applied :
    validateSpec (specOf passwordScott) = none ∧
    ((syncSample passwordScott (noted "lion") "tiger").1 = true ∧
      (((syncSample passwordScott (noted "lion") "tiger").2.1.account "SCOTT").map (·.password)) =
        some "tiger") ∧
    (syncSample passwordScott ∅ "tiger").1 = true ∧
      (((syncSample passwordScott ∅ "tiger").2.1.account "SCOTT").map (·.password)) = some "tiger" ∧
      (syncSample passwordScott ∅ "tiger").2.2.userResourceVersions.lookup "scott" = some "lion" := by
  decide +kernel

end Sync

end ElCarro.Databases.Users
