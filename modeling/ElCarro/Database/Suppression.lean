import ElCarro.Database.Passwords
import ElCarro.Database.Statements

/-! # Suppressed users

`UsersChanged` reports the users that are not to be created or dropped, and `UpdateUsers`
finds out for itself what to do. The users that it sends statements for are those of the
spec; a user to be dropped is none of them, but a user without a password is.
-/

namespace ElCarro.Databases.Users

open K8s Api

variable {casing : Casing} {cat : Catalog} {secret : String → String} {env : Env}
  {a b : Accounts} {u : DbUser casing} {databaseName : String} {r : Request}

section Confined

/-- Whatever a request does to a user, it does to this one. -/
def Request.For (name : String) (r : Request) : Prop :=
  ∀ st ∈ r.commands, ∀ n, st.user = some n → n = name

theorem eq_of_mem_send {q : Request} (h : r ∈ send casing q) : r = q ∧ q.valid casing = true := by
  unfold send at h
  split at h
  · next hvalid => exact ⟨List.mem_singleton.mp h, hvalid⟩
  · cases h

theorem for_createSends (h : r ∈ u.createSends databaseName) : r.For u.userName := by
  obtain ⟨rfl, -⟩ := eq_of_mem_send h
  intro st hst n hn
  simp only [DbUser.createRequest, List.mem_cons, List.mem_map] at hst
  rcases hst with rfl | rfl | ⟨p, -, rfl⟩
  · cases hn
  · exact (Option.some.inj hn).symm
  · exact (Option.some.inj hn).symm

theorem for_grantSends {ps : List String} (h : r ∈ u.grantSends databaseName ps) :
    r.For u.userName := by
  unfold DbUser.grantSends at h
  split at h
  · cases h
  · obtain ⟨rfl, -⟩ := eq_of_mem_send h
    intro st hst n hn
    simp only [DbUser.grantRequest, List.mem_cons, List.mem_map] at hst
    rcases hst with rfl | ⟨p, -, rfl⟩
    · cases hn
    · exact (Option.some.inj hn).symm

theorem for_revokeSends {ps : List String} (h : r ∈ u.revokeSends databaseName ps) :
    r.For u.userName := by
  unfold DbUser.revokeSends at h
  split at h
  · cases h
  · obtain ⟨rfl, -⟩ := eq_of_mem_send h
    intro st hst n hn
    simp only [DbUser.revokeRequest, List.mem_cons, List.mem_map] at hst
    rcases hst with rfl | ⟨p, -, rfl⟩
    · cases hn
    · exact (Option.some.inj hn).symm

theorem for_updatePrivsSends {stage : Stage} {kind : String → Bool}
    (h : r ∈ u.updatePrivsSends cat secret env databaseName stage kind a) : r.For u.userName := by
  unfold DbUser.updatePrivsSends at h
  split at h
  · cases h
  · rcases List.mem_append.mp h with h | h
    · exact for_grantSends h
    · split at h
      · exact for_revokeSends h
      · cases h

theorem for_updateSends (h : r ∈ u.updateSends cat secret env databaseName a) :
    r.For u.userName := by
  rcases List.mem_append.mp h with h | h
  · exact for_updatePrivsSends h
  · split at h
    · exact for_updatePrivsSends h
    · cases h

theorem for_passwordSends (h : r ∈ u.passwordSends databaseName) : r.For u.userName := by
  obtain ⟨rfl, -⟩ := eq_of_mem_send h
  intro st hst n hn
  simp only [DbUser.passwordRequest, List.mem_cons, List.not_mem_nil, or_false] at hst
  rcases hst with rfl | rfl
  · cases hn
  · exact (Option.some.inj hn).symm

/-- A loop sends what it sends for one of its users. -/
theorem mem_forEachSends {op : DbUser casing → Accounts → Bool × Accounts}
    {sends : DbUser casing → Accounts → List Request} {us : List (DbUser casing)}
    (h : r ∈ forEachSends op sends us a) : ∃ u ∈ us, ∃ b, r ∈ sends u b := by
  induction us generalizing a with
  | nil => cases h
  | cons u us ih =>
    rcases List.mem_append.mp h with h | h
    · exact ⟨u, List.mem_cons_self, a, h⟩
    · obtain ⟨v, hv, b, hr⟩ := ih h
      exact ⟨v, List.mem_cons_of_mem _ hv, b, hr⟩

theorem forEachSends_of_mem {op : DbUser casing → Accounts → Bool × Accounts}
    {sends : DbUser casing → Accounts → List Request} {us : List (DbUser casing)} (hu : u ∈ us)
    (h : ∀ b, r ∈ sends u b) : r ∈ forEachSends op sends us a := by
  induction us generalizing a with
  | nil => cases hu
  | cons v us ih =>
    rcases List.mem_cons.mp hu with rfl | hu
    · exact List.mem_append_left _ (h a)
    · exact List.mem_append_right _ (ih hu)

end Confined

section Update

variable {pdbName : String} {userSpecs : List User}

theorem mem_chosen_present {test : DbUser.Diff casing → Bool}
    (h : u ∈ chosen secret a test (present casing userSpecs a)) :
    u.userName ∈ (userSpecs.map fun us => casing.toUpper us.name) ∧ isListed a u.userName = true := by
  obtain ⟨v, hv, -, rfl⟩ := mem_chosen.mp h
  rw [withSecret_userName]
  exact ⟨mem_specNames_of_nameToUser (mem_present.mp hv).1, (mem_present.mp hv).2⟩

/-- Statements are sent for missing users of the spec, to create them, and for listed ones. -/
theorem for_updateUsersSends (h : r ∈ updateUsersSends cat secret env casing pdbName userSpecs a) :
    (∃ u ∈ missing casing userSpecs a, r.For u.userName) ∨
      ∃ name ∈ (userSpecs.map fun us => casing.toUpper us.name),
        isListed a name = true ∧ r.For name := by
  unfold updateUsersSends at h
  simp only at h
  split at h
  · cases h
  · next d hdiff =>
    obtain ⟨hcreate, hupdate, hpwd⟩ := usersDiff_eq_some hdiff
    rw [hcreate, hupdate, hpwd] at h
    rcases List.mem_append.mp h with h | h
    · rcases List.mem_append.mp h with h | h
      · obtain ⟨u, hu, b, hr⟩ := mem_forEachSends h
        exact .inl ⟨u, hu, for_createSends hr⟩
      · obtain ⟨u, hu, b, hr⟩ := mem_forEachSends h
        obtain ⟨hspec, hlisted⟩ := mem_chosen_present hu
        exact .inr ⟨u.userName, hspec, hlisted, for_updateSends hr⟩
    · obtain ⟨u, hu, b, hr⟩ := mem_forEachSends h
      obtain ⟨hspec, hlisted⟩ := mem_chosen_present hu
      exact .inr ⟨u.userName, hspec, hlisted, for_passwordSends hr⟩

/-- The names that a response reports as suppressed. -/
def Suppressed.userName : Suppressed → String
  | .delete userName _ => userName
  | .create userName => userName

/-- Suppressed are the listed users that the spec does not have, and missing ones without a
password. -/
theorem mem_suppressed {resp : UsersChangedResponse} {s : Suppressed}
    (h : usersChanged secret env casing pdbName userSpecs a = some resp) (hs : s ∈ resp.suppressed) :
    (isListed a s.userName = true ∧ s.userName ∉ userSpecs.map fun us => casing.toUpper us.name) ∨
      ∃ u ∈ missing casing userSpecs a, u.newPassword = "" ∧ u.userName = s.userName := by
  obtain ⟨d, hd, rfl⟩ := Option.map_eq_some_iff.mp h
  have hcreate := (usersDiff_eq_some hd).1
  rcases List.mem_append.mp hs with hs | hs
  · obtain ⟨name, hname, rfl⟩ := List.mem_map.mp hs
    rw [usersDiff_toDelete hd, mem_elements, List.mem_filter, mem_envUserNames] at hname
    exact .inl ⟨hname.1, of_decide_eq_true hname.2⟩
  · obtain ⟨u, hu, rfl⟩ := List.mem_map.mp hs
    rw [hcreate, List.mem_filter] at hu
    exact .inr ⟨u, hu.1, by simpa using hu.2, rfl⟩

theorem suppressed_of_missing {resp : UsersChangedResponse}
    (h : usersChanged secret env casing pdbName userSpecs a = some resp)
    (hu : u ∈ missing casing userSpecs a) (hpwd : u.newPassword = "") :
    resp.changed = true ∧ .create u.userName ∈ resp.suppressed := by
  obtain ⟨d, hd, rfl⟩ := Option.map_eq_some_iff.mp h
  have hmem : u ∈ d.toCreate := (usersDiff_eq_some hd).1 ▸ hu
  have hne : d.toCreate ≠ [] := List.ne_nil_of_mem hmem
  constructor
  · simp [hne]
  · apply List.mem_append_right
    exact List.mem_map.mpr ⟨u, List.mem_filter.mpr ⟨hmem, by simpa using hpwd⟩, rfl⟩

end Update

section Sync

variable {sync : SyncEnv} {spec : DatabaseSpec} {status : UserStatus}

/-- A sync sends no statement for a user that it reports as suppressed. -/
def SparesSuppressed (cat : Catalog) (sync : SyncEnv) (casing : Casing) (spec : DatabaseSpec)
    (status : UserStatus) (a : Accounts) : Prop :=
  ∀ resp, usersChanged sync.secret sync.changing casing spec.name
      (spec.users.map (userRequest status.userResourceVersions)) a = some resp →
    ∀ s ∈ resp.suppressed, ∀ r ∈ syncUsersSends cat sync casing spec status a,
      ∀ st ∈ r.commands, st.user ≠ some s.userName

/-- Every user of the spec that the PDB does not list comes with a plaintext password. -/
def MissingHavePasswords (casing : Casing) (spec : DatabaseSpec) (a : Accounts) : Prop :=
  ∀ u, Counts casing spec u → isListed a (casing.toUpper u.name) = false → u.password ≠ ""

/-- What upper case does not change about names and privileges. -/
structure Casing.Keeps (casing : Casing) : Prop where
  identifier : ∀ s, isIdentifier s = true → isIdentifier (casing.toUpper s) = true
  privilege : ∀ p, isPrivilege p = true → isPrivilege (casing.toUpper p) = true

theorem sparesSuppressed_of_missingHavePasswords (h : MissingHavePasswords casing spec a) :
    SparesSuppressed cat sync casing spec status a := by
  intro resp hresp s hs r hr st hst hname
  have hsent : r ∈ updateUsersSends cat sync.secret sync.updating casing spec.name
      (spec.users.map (userRequest status.userResourceVersions)) a := by
    unfold syncUsersSends at hr
    simp only [hresp] at hr
    split at hr
    · exact hr
    · cases hr
  have hpwd : ∀ u ∈ missing casing (spec.users.map (userRequest status.userResourceVersions)) a,
      u.newPassword ≠ "" := by
    intro u hu
    obtain ⟨hname, hlisted⟩ := mem_missing.mp hu
    obtain ⟨e, he, rfl⟩ := exists_counts hname
    exact h e he hlisted
  rcases mem_suppressed hresp hs with ⟨hlisted, hspec⟩ | ⟨u, hu, hempty, -⟩
  · -- a user to be dropped is neither missing nor in the spec
    rcases for_updateUsersSends hsent with ⟨u, hu, hfor⟩ | ⟨name, hname', -, hfor⟩
    · have heq := hfor st hst _ hname
      rw [heq, (mem_missing.mp hu).2] at hlisted
      cases hlisted
    · have heq := hfor st hst _ hname
      exact hspec (heq ▸ hname')
  · exact hpwd u hu hempty

theorem valid_of_validateSpec (hvalid : validateSpec spec = none) :
    isIdentifier spec.name = true ∧ ∀ u ∈ spec.users, isIdentifier u.name = true ∧
      ∀ p ∈ u.privileges, isPrivilege p = true := by
  unfold validateSpec at hvalid
  split at hvalid
  · cases hvalid
  · split at hvalid
    · cases hvalid
    · split at hvalid
      · cases hvalid
      · next hname =>
        split at hvalid
        · cases hvalid
        · refine ⟨by simpa using hname, ?_⟩
          intro u hu
          have hnone := List.findSome?_eq_none_iff.mp hvalid u hu
          unfold validateUser at hnone
          split at hnone
          · cases hnone
          · next hid =>
            split at hnone
            · cases hnone
            · rw [Option.map_eq_none_iff, List.find?_eq_none] at hnone
              exact ⟨by simpa using hid, fun p hp => by simpa using hnone p hp⟩

/-- The request that would create a user without a password can be built. -/
theorem createRequest_valid (hkeeps : casing.Keeps) (hvalid : validateSpec spec = none)
    {versions : StrMap} {e : UserSpec} (he : e ∈ spec.users) (hpwd : e.password = "") :
    ((entryUser casing versions e).createRequest (casing.toUpper spec.name)).valid casing = true := by
  obtain ⟨hname, husers⟩ := valid_of_validateSpec hvalid
  obtain ⟨hid, hprivs⟩ := husers e he
  have hupper : isIdentifier (casing.toUpper (casing.toUpper e.name)) = true :=
    hkeeps.identifier _ (hkeeps.identifier _ hid)
  rw [Request.valid, List.all_eq_true]
  intro st hst
  simp only [DbUser.createRequest, List.mem_cons, List.mem_map] at hst
  rcases hst with rfl | rfl | ⟨p, hp, rfl⟩
  · exact hkeeps.identifier _ (hkeeps.identifier _ hname)
  · have hempty : (entryUser casing versions e).newPassword = "" := hpwd
    rw [Statement.valid, hempty, Bool.and_eq_true]
    exact ⟨hupper, by decide⟩
  · obtain ⟨hp, -⟩ := List.mem_filter.mp hp
    obtain ⟨q, hq, rfl⟩ := List.mem_map.mp hp
    rw [Statement.valid, Bool.and_eq_true]
    exact ⟨hkeeps.privilege _ (hprivs q hq), hupper⟩

theorem diffEach_everyCall (secret : String → String) (a : Accounts) (us : List (DbUser casing)) :
    ∃ ds, diffEach secret everyCall a us = some ds := by
  induction us with
  | nil => exact ⟨[], rfl⟩
  | cons u us ih =>
    obtain ⟨ds, hds⟩ := ih
    have hd : ∃ d, u.diff secret everyCall .check a = some d := by
      unfold DbUser.diff
      simp only [everyCall, not_true_eq_false, if_false, if_true]
      split
      · exact ⟨_, rfl⟩
      · exact ⟨_, rfl⟩
    obtain ⟨d, hd⟩ := hd
    exact ⟨d :: ds, by simp only [diffEach, hd, hds]⟩

theorem usersDiff_everyCall (secret : String → String) (a : Accounts) (userSpecs : List User) :
    ∃ d, usersDiff secret everyCall casing userSpecs a = some d := by
  obtain ⟨ds, hds⟩ := diffEach_everyCall secret a
    ((compare (userSpecs.map fun us => casing.toUpper us.name) (envUserNames a)).2.1.filterMap
      (nameToUser casing userSpecs))
  unfold usersDiff
  rw [if_neg (by simp [everyCall]), if_neg (by simp [everyCall]), hds]
  exact ⟨_, rfl⟩

/-- With a database that answers every call, a missing user without a password is created. -/
theorem missingHavePasswords_of_sparesSuppressed (hkeeps : casing.Keeps)
    (hvalid : validateSpec spec = none)
    (h : SparesSuppressed cat ⟨0, secret, everyCall, everyCall, true, true⟩ casing spec status a) :
    MissingHavePasswords casing spec a := by
  intro e he hlisted hpwd
  have hmissing : entryUser casing status.userResourceVersions e ∈
      missing casing (spec.users.map (userRequest status.userResourceVersions)) a :=
    mem_missing.mpr ⟨he.nameToUser, hlisted⟩
  obtain ⟨d, hd⟩ : ∃ d, usersDiff secret everyCall casing
      (spec.users.map (userRequest status.userResourceVersions)) a = some d :=
    usersDiff_everyCall secret a _
  obtain ⟨resp, hresp⟩ : ∃ resp, usersChanged secret everyCall casing spec.name
      (spec.users.map (userRequest status.userResourceVersions)) a = some resp := by
    rw [usersChanged, hd]
    exact ⟨_, rfl⟩
  obtain ⟨hchanged, hsuppressed⟩ := suppressed_of_missing hresp hmissing hpwd
  have hsent : (entryUser casing status.userResourceVersions e).createRequest
      (casing.toUpper spec.name) ∈ syncUsersSends cat ⟨0, secret, everyCall, everyCall, true, true⟩
        casing spec status a := by
    unfold syncUsersSends
    simp only [hresp, hchanged, and_self, if_true]
    unfold updateUsersSends
    simp only [hd]
    rw [(usersDiff_eq_some hd).1]
    apply List.mem_append_left
    apply List.mem_append_left
    apply forEachSends_of_mem hmissing
    intro _
    rw [DbUser.createSends, send, if_pos (createRequest_valid hkeeps hvalid he.mem hpwd)]
    exact List.mem_singleton_self _
  refine h resp hresp _ hsuppressed _ hsent
    (.createUser (entryUser casing status.userResourceVersions e).userName
      (entryUser casing status.userResourceVersions e).newPassword) ?_ rfl
  exact List.mem_cons_of_mem _ List.mem_cons_self

end Sync

section Samples

theorem toUpper_eq_or_isAlpha (c : Char) : c.toUpper = c ∨ c.toUpper.isAlpha = true := by
  by_cases h : c.toNat ≥ 97 ∧ c.toNat ≤ 122
  · right
    have hletters : ∀ n : Fin 26, (Char.ofNat (n.val + 97)).toUpper.isAlpha = true := by decide
    have hc := hletters ⟨c.toNat - 97, by omega⟩
    simp only [Nat.sub_add_cancel h.1, Char.ofNat_toNat] at hc
    exact hc
  · left
    unfold Char.toUpper
    rw [dif_neg]
    exact h

theorem asciiCasing_keeps : asciiCasing.Keeps := by
  constructor
  · intro s hs
    have hnot : '"' ∉ s.toList := of_decide_eq_true hs
    apply decide_eq_true
    simp only [asciiCasing, String.toList_ofList, List.mem_map]
    rintro ⟨c, hc, hquote⟩
    rcases toUpper_eq_or_isAlpha c with h | h
    · exact hnot (h.symm.trans hquote ▸ hc)
    · rw [hquote] at h
      revert h
      decide
  · intro p hp
    simp only [isPrivilege, decide_eq_true_eq, List.all_eq_true, Bool.or_eq_true] at hp ⊢
    simp only [asciiCasing, String.toList_ofList, List.map_eq_nil_iff, List.mem_map]
    constructor
    · exact hp.1
    · rintro _ ⟨c, hc, rfl⟩
      rcases toUpper_eq_or_isAlpha c with h | h
      · rw [h]
        exact hp.2 c hc
      · exact .inl (.inl (.inl h))

/-- A user with no password, which is not in the PDB. -/
def adams : UserSpec := ⟨"adams", "", none, []⟩

end Samples

end ElCarro.Databases.Users
