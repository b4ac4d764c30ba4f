import ElCarro.Database.Users

/-! # What an update does to one user

Every operation of the repository touches the account of its own user only. So after
an update without an error, each account is the result of the operations on its own
user, from the account that was there before.
-/

namespace ElCarro.Databases.Users

open K8s Api

section Names

/-- A name that a statement with nothing else in it stands for. -/
def Plain (p : String) : Prop := privilegeNames p = [p]

instance (p : String) : Decidable (Plain p) := inferInstanceAs (Decidable (_ = _))

theorem mem_splitOn {sep c : Char} {cs part : List Char} (h : part ∈ cs.splitOn sep)
    (hc : c ∈ part) : c ∈ cs ∧ c ≠ sep := by
  induction cs generalizing part with
  | nil =>
    obtain rfl : part = [] := by simpa using h
    cases hc
  | cons x cs ih =>
    rw [List.splitOn_cons_eq_if_modifyHead] at h
    split at h
    · rcases List.mem_cons.mp h with rfl | h
      · cases hc
      · exact ⟨List.mem_cons_of_mem x (ih h hc).1, (ih h hc).2⟩
    · next hx =>
      have hne : x ≠ sep := by simpa using hx
      obtain ⟨first, rest, hsplit⟩ := List.exists_cons_of_ne_nil (List.splitOn_ne_nil sep cs)
      rw [hsplit, List.modifyHead_cons] at h
      rcases List.mem_cons.mp h with rfl | h
      · rcases List.mem_cons.mp hc with rfl | hc
        · exact ⟨List.mem_cons_self, hne⟩
        · have := ih (hsplit ▸ List.mem_cons_self) hc
          exact ⟨List.mem_cons_of_mem x this.1, this.2⟩
      · have := ih (hsplit ▸ List.mem_cons_of_mem first h) hc
        exact ⟨List.mem_cons_of_mem x this.1, this.2⟩

theorem mem_intercalate {c : Char} {ws : List (List Char)} (h : c ∈ [' '].intercalate ws) :
    c = ' ' ∨ ∃ w ∈ ws, c ∈ w := by
  induction ws with
  | nil => simp at h
  | cons w ws ih =>
    cases ws with
    | nil => exact .inr ⟨w, List.mem_cons_self, by simpa using h⟩
    | cons w' ws =>
      rw [List.intercalate_cons_cons] at h
      rcases List.mem_append.mp h with h | h
      · rcases List.mem_append.mp h with h | h
        · exact .inr ⟨w, List.mem_cons_self, h⟩
        · exact .inl (by simpa using h)
      · rcases ih h with rfl | ⟨v, hv, hc⟩
        · exact .inl rfl
        · exact .inr ⟨v, List.mem_cons_of_mem w hv, hc⟩

/-- The words of a name are those it was put together from. -/
theorem words_intercalate (cs : List Char) : words ([' '].intercalate (words cs)) = words cs := by
  have hspace : ∀ w ∈ words cs, ' ' ∉ w := by
    intro w hw hc
    exact (mem_splitOn (List.mem_filter.mp hw).1 hc).2 rfl
  cases hws : words cs with
  | nil => rfl
  | cons w ws =>
    have hfull : ∀ w ∈ words cs, (w ≠ [] : Bool) = true := fun w hw => (List.mem_filter.mp hw).2
    rw [hws] at hspace hfull
    rw [words, List.splitOn_intercalate ' ' hspace (by simp)]
    exact List.filter_eq_self.mpr hfull

theorem toUpper_toUpper (c : Char) : c.toUpper.toUpper = c.toUpper := by
  by_cases h : c.toNat ≥ 97 ∧ c.toNat ≤ 122
  · have hletters : ∀ n : Fin 26, (Char.ofNat (n.val + 97)).toUpper.toUpper =
        (Char.ofNat (n.val + 97)).toUpper := by
      decide
    have hc := hletters ⟨c.toNat - 97, by omega⟩
    simp only [Nat.sub_add_cancel h.1, Char.ofNat_toNat] at hc
    exact hc
  · have hsame : c.toUpper = c := by
      unfold Char.toUpper
      rw [dif_neg]
      intro hr
      exact h hr
    rw [hsame, hsame]

/-- What a statement names is a plain name. -/
theorem plain_of_mem {p s : String} (h : p ∈ privilegeNames s) : Plain p := by
  obtain ⟨part, hpart, rfl⟩ := List.mem_map.mp h
  have hchars : ∀ c ∈ [' '].intercalate (words part), c.toUpper = c ∧ c ≠ ',' := by
    intro c hc
    rcases mem_intercalate hc with rfl | ⟨w, hw, hcw⟩
    · decide
    · have hc := mem_splitOn (List.mem_filter.mp hw).1 hcw
      obtain ⟨hmem, hcomma⟩ := mem_splitOn hpart hc.1
      obtain ⟨c', -, rfl⟩ := List.mem_map.mp hmem
      exact ⟨toUpper_toUpper c', hcomma⟩
  have hupper : ([' '].intercalate (words part)).map Char.toUpper = [' '].intercalate (words part) := by
    rw [List.map_congr_left fun c hc => (hchars c hc).1]
    exact List.map_id _
  have hsplit : ([' '].intercalate (words part)).splitOn ',' = [[' '].intercalate (words part)] := by
    apply List.splitOn_eq_singleton
    intro hc
    exact (hchars ',' hc).2 rfl
  simp only [Plain, privilegeNames, String.toList_ofList, hupper, hsplit, List.map_cons, List.map_nil,
    words_intercalate]

end Names

section Sets

theorem mem_elements {x : String} {l : List String} : x ∈ elements l ↔ x ∈ l := by
  simp [elements, List.mem_insertionSort]

theorem nodup_elements (l : List String) : (elements l).Nodup :=
  (List.perm_insertionSort _ _).nodup_iff.mpr l.nodup_dedup

end Sets

variable {casing : Casing} {cat : Catalog} {secret : String → String} {env : Env}
  {a b : Accounts} {acc : Account} {u : DbUser casing} {name : String}

section Frames

/-- Nothing but the account with the name can differ. -/
def Touches (name : String) (a b : Accounts) : Prop :=
  ∀ other, other ≠ name → b.account other = a.account other

theorem Touches.refl : Touches name a a := fun _ _ => rfl

theorem Touches.trans {c : Accounts} (h : Touches name a b) (h' : Touches name b c) :
    Touches name a c := fun other hne => (h' other hne).trans (h other hne)

theorem touches_set : Touches name a (a.set name acc) := by
  intro other hne
  exact Function.update_of_ne hne _ _

@[simp] theorem set_account : (a.set name acc).account name = some acc :=
  Function.update_self _ _ _

theorem touches_runEach {statement : String → Accounts → Option Accounts} {ps : List String}
    (h : ∀ p a b, statement p a = some b → Touches name a b) :
    Touches name a (runEach statement ps a).2 := by
  induction ps generalizing a with
  | nil => exact .refl
  | cons p ps ih =>
    simp only [runEach]
    split
    · exact .refl
    · next b hb => exact (h p a b hb).trans ih

theorem createStatement_eq_some {password : String} :
    createStatement name password a = some b ↔ isIdentifier name ∧ isIdentifier password ∧
      password ≠ "" ∧ a.account name = none ∧ b = a.set name ⟨password, [], true⟩ := by
  unfold createStatement
  split
  · next h =>
    simp only [Option.isNone_iff_eq_none] at h
    constructor
    · intro heq
      exact ⟨h.1, h.2.1, h.2.2.1, h.2.2.2, (Option.some.inj heq).symm⟩
    · rintro ⟨-, -, -, -, rfl⟩
      rfl
  · next h =>
    constructor
    · rintro ⟨⟩
    · rintro ⟨h1, h2, h3, h4, -⟩
      exact absurd ⟨h1, h2, h3, by rw [h4]; rfl⟩ h

theorem alterStatement_eq_some {password : String}
    (h : alterStatement name password a = some b) :
    ∃ acc, a.account name = some acc ∧ b = a.set name { acc with password } := by
  unfold alterStatement at h
  split at h
  · cases h
  · next acc hacc =>
    split at h <;> cases h
    exact ⟨acc, hacc, rfl⟩

theorem grantStatement_eq_some {p : String} (h : grantStatement cat name p a = some b) :
    ∃ acc, a.account name = some acc ∧
      b = a.set name { acc with privs := acc.privs ∪ privilegeNames p } := by
  unfold grantStatement at h
  split at h
  · cases h
  · next acc hacc =>
    split at h <;> cases h
    exact ⟨acc, hacc, rfl⟩

theorem revokeStatement_eq_some {p : String} (h : revokeStatement name p a = some b) :
    ∃ acc, a.account name = some acc ∧
      b = a.set name { acc with privs := acc.privs.filter (· ∉ privilegeNames p) } := by
  unfold revokeStatement at h
  split at h
  · cases h
  · next acc hacc =>
    split at h <;> cases h
    exact ⟨acc, hacc, rfl⟩

theorem touches_grant {stage : Stage} {ps : List String} :
    Touches u.userName a (u.grant cat env stage ps a).2 := by
  unfold DbUser.grant
  split
  · exact .refl
  · split
    · exact .refl
    · rw [u.upper]
      apply touches_runEach
      intro p a b h
      obtain ⟨acc, -, rfl⟩ := grantStatement_eq_some h
      exact touches_set

theorem touches_revoke {stage : Stage} {ps : List String} :
    Touches u.userName a (u.revoke env stage ps a).2 := by
  unfold DbUser.revoke
  split
  · exact .refl
  · split
    · exact .refl
    · rw [u.upper]
      apply touches_runEach
      intro p a b h
      obtain ⟨acc, -, rfl⟩ := revokeStatement_eq_some h
      exact touches_set

theorem touches_updatePrivs {stage : Stage} {kind : String → Bool} :
    Touches u.userName a (u.updatePrivs cat secret env stage kind a).2 := by
  unfold DbUser.updatePrivs
  split
  · exact .refl
  · next d _ =>
    have hgrant : Touches u.userName a (u.grant cat env stage (d.toGrant.filter kind) a).2 :=
      touches_grant
    split
    · next heq =>
      rw [heq] at hgrant
      exact hgrant
    · next heq =>
      rw [heq] at hgrant
      exact hgrant.trans touches_revoke

theorem touches_update : Touches u.userName a (u.update cat secret env a).2 := by
  unfold DbUser.update
  have hroles : Touches u.userName a (u.updateRolePrivs cat secret env a).2 := touches_updatePrivs
  split
  · next heq =>
    rw [heq] at hroles
    exact hroles
  · next heq =>
    rw [heq] at hroles
    exact hroles.trans touches_updatePrivs

theorem touches_create : Touches u.userName a (u.create cat env a).2 := by
  unfold DbUser.create
  rw [u.upper]
  split
  · exact .refl
  · split
    · exact .refl
    · next b hb =>
      obtain ⟨-, -, -, -, rfl⟩ := createStatement_eq_some.mp hb
      apply touches_set.trans
      apply touches_runEach
      intro p a b h
      obtain ⟨acc, -, rfl⟩ := grantStatement_eq_some h
      exact touches_set

theorem touches_updatePassword : Touches u.userName a (u.updatePassword env a).2 := by
  unfold DbUser.updatePassword
  rw [u.upper]
  split
  · exact .refl
  · split
    · exact .refl
    · next b hb =>
      obtain ⟨acc, -, rfl⟩ := alterStatement_eq_some hb
      exact touches_set

/-- A loop without an error: each account is what the operation on its user makes of it. -/
theorem forEach_true {op : DbUser casing → Accounts → Bool × Accounts} {us : List (DbUser casing)}
    (htouch : ∀ u a, Touches u.userName a (op u a).2) (hnodup : (us.map (·.userName)).Nodup)
    (h : (forEach op us a).1 = true) :
    (∀ name, name ∉ us.map (·.userName) →
      (forEach op us a).2.account name = a.account name) ∧
    ∀ u ∈ us, ∃ b, b.account u.userName = a.account u.userName ∧ (op u b).1 = true ∧
      (forEach op us a).2.account u.userName = (op u b).2.account u.userName := by
  induction us generalizing a with
  | nil => simp [forEach]
  | cons u us ih =>
    obtain ⟨hfresh, hnodup⟩ := List.nodup_cons.mp hnodup
    simp only [forEach, Bool.and_eq_true] at h
    obtain ⟨hkeep, heach⟩ := ih hnodup h.2
    constructor
    · intro name hname
      obtain ⟨hne, hname⟩ := not_or.mp (mt List.mem_cons.mpr hname)
      exact (hkeep name hname).trans (htouch u a name hne)
    · intro v hv
      rcases List.mem_cons.mp hv with rfl | hv
      · exact ⟨a, rfl, h.1, hkeep v.userName hfresh⟩
      · obtain ⟨b, hb, hok, hacc⟩ := heach v hv
        have hne : v.userName ≠ u.userName := by
          intro heq
          exact hfresh (List.mem_map.mpr ⟨v, hv, heq⟩)
        exact ⟨b, hb.trans (htouch u a _ hne), hok, hacc⟩

end Frames

section Effects

/-- Grants add what they name and leave the rest of the account alone. -/
theorem runEach_grant {ps : List String} (hacc : a.account name = some acc)
    (h : (runEach (grantStatement cat name) ps a).1 = true) :
    ∃ privs, (runEach (grantStatement cat name) ps a).2.account name = some { acc with privs } ∧
      ∀ p, p ∈ privs ↔ p ∈ acc.privs ∨ ∃ s ∈ ps, p ∈ privilegeNames s := by
  induction ps generalizing a acc with
  | nil => exact ⟨acc.privs, hacc, by simp⟩
  | cons s ps ih =>
    simp only [runEach] at h ⊢
    split at h
    · cases h
    · next b hb =>
      obtain ⟨acc', hacc', rfl⟩ := grantStatement_eq_some hb
      obtain rfl := Option.some.inj (hacc.symm.trans hacc')
      obtain ⟨privs, hres, hmem⟩ := ih set_account h
      refine ⟨privs, hres, ?_⟩
      intro p
      rw [hmem, List.mem_union_iff]
      simp only [List.mem_cons, exists_eq_or_imp, or_assoc]

/-- Revocations take away what they name. -/
theorem runEach_revoke {ps : List String} (hacc : a.account name = some acc)
    (h : (runEach (revokeStatement name) ps a).1 = true) :
    ∃ privs, (runEach (revokeStatement name) ps a).2.account name = some { acc with privs } ∧
      ∀ p, p ∈ privs ↔ p ∈ acc.privs ∧ ∀ s ∈ ps, p ∉ privilegeNames s := by
  induction ps generalizing a acc with
  | nil => exact ⟨acc.privs, hacc, by simp⟩
  | cons s ps ih =>
    simp only [runEach] at h ⊢
    split at h
    · cases h
    · next b hb =>
      obtain ⟨acc', hacc', rfl⟩ := revokeStatement_eq_some hb
      obtain rfl := Option.some.inj (hacc.symm.trans hacc')
      obtain ⟨privs, hres, hmem⟩ := ih set_account h
      refine ⟨privs, hres, ?_⟩
      intro p
      rw [hmem, List.mem_filter]
      simp [and_assoc]

theorem privs_of_account (h : a.account name = some acc) : a.privs name = acc.privs := by
  simp [Accounts.privs, h]

theorem grant_true {stage : Stage} {ps : List String} (hacc : a.account u.userName = some acc)
    (h : (u.grant cat env stage ps a).1 = true) :
    ∃ privs, (u.grant cat env stage ps a).2.account u.userName = some { acc with privs } ∧
      ∀ p, p ∈ privs ↔ p ∈ acc.privs ∨ ∃ s ∈ ps, p ∈ privilegeNames s := by
  unfold DbUser.grant at h ⊢
  split at h
  · next hnil =>
    rw [if_pos hnil]
    exact ⟨acc.privs, hacc, by simp [hnil]⟩
  · next hnil =>
    rw [if_neg hnil]
    split at h
    · cases h
    · next hcall =>
      rw [if_neg hcall]
      rw [u.upper] at h ⊢
      exact runEach_grant hacc h

theorem revoke_true {stage : Stage} {ps : List String} (hacc : a.account u.userName = some acc)
    (h : (u.revoke env stage ps a).1 = true) :
    ∃ privs, (u.revoke env stage ps a).2.account u.userName = some { acc with privs } ∧
      ∀ p, p ∈ privs ↔ p ∈ acc.privs ∧ ∀ s ∈ ps, p ∉ privilegeNames s := by
  unfold DbUser.revoke at h ⊢
  split at h
  · next hnil =>
    rw [if_pos hnil]
    exact ⟨acc.privs, hacc, by simp [hnil]⟩
  · next hnil =>
    rw [if_neg hnil]
    split at h
    · cases h
    · next hcall =>
      rw [if_neg hcall]
      rw [u.upper] at h ⊢
      exact runEach_revoke hacc h

/-- The user with the password that is to be set. -/
def DbUser.withSecret (secret : String → String) (u : DbUser casing) : DbUser casing :=
  if u.toUpdateGsmPwd then { u with newPassword := secret u.gsmSecNewVer } else u

theorem withSecret_userName : (u.withSecret secret).userName = u.userName := by
  unfold DbUser.withSecret
  split <;> rfl

theorem withSecret_specPrivs : (u.withSecret secret).specPrivs = u.specPrivs := by
  unfold DbUser.withSecret
  split <;> rfl

/-- The difference of a user whose reads succeed. -/
def DbUser.difference (secret : String → String) (u : DbUser casing) (a : Accounts) :
    DbUser.Diff casing where
  toGrant := (compare u.specPrivs (a.privs u.userName)).1
  toRevoke := (compare u.specPrivs (a.privs u.userName)).2.2
  toUpdatePwd := u.toUpdateGsmPwd || u.toUpdatePlaintextPwd
  user := u.withSecret secret

theorem diff_eq_some {stage : Stage} {d : DbUser.Diff casing}
    (h : u.diff secret env stage a = some d) : d = u.difference secret a := by
  unfold DbUser.diff at h
  simp only at h
  split at h
  · cases h
  · split at h
    · next hgsm =>
      split at h <;> cases h
      simp [DbUser.difference, DbUser.withSecret, hgsm]
    · next hgsm =>
      cases h
      simp [DbUser.difference, DbUser.withSecret, hgsm]

theorem mem_toGrant {p : String} : p ∈ (u.difference secret a).toGrant ↔
    p ∈ u.specPrivs ∧ p ∉ a.privs u.userName := by
  simp [DbUser.difference, compare, mem_elements]

theorem mem_toRevoke {p : String} : p ∈ (u.difference secret a).toRevoke ↔
    p ∈ a.privs u.userName ∧ p ∉ u.specPrivs := by
  simp [DbUser.difference, compare, mem_elements]

/-- One round of grants and revocations for a kind of privileges. -/
theorem updatePrivs_true {stage : Stage} {kind : String → Bool}
    (hacc : a.account u.userName = some acc)
    (h : (u.updatePrivs cat secret env stage kind a).1 = true) :
    ∃ privs, (u.updatePrivs cat secret env stage kind a).2.account u.userName =
        some { acc with privs } ∧
      ∀ p, p ∈ privs ↔
        (p ∈ acc.privs ∨ ∃ s, s ∈ u.specPrivs ∧ s ∉ acc.privs ∧ kind s = true ∧
          p ∈ privilegeNames s) ∧
        ∀ r, r ∈ acc.privs → r ∉ u.specPrivs → kind r = true → p ∉ privilegeNames r := by
  have hprivs := privs_of_account hacc
  unfold DbUser.updatePrivs at h ⊢
  cases hdiff : u.diff secret env stage a with
  | none =>
    rw [hdiff] at h
    cases h
  | some d =>
    obtain rfl := diff_eq_some hdiff
    rw [hdiff] at h
    simp only at h ⊢
    cases hgrant : u.grant cat env stage
        ((u.difference secret a).toGrant.filter kind) a with
    | mk ok b =>
      rw [hgrant] at h
      cases ok with
      | false => cases h
      | true =>
        simp only at h ⊢
        have hok : (u.grant cat env stage ((u.difference secret a).toGrant.filter kind) a).1 =
            true := by rw [hgrant]
        obtain ⟨granted, hg, hgmem⟩ := grant_true hacc hok
        rw [hgrant] at hg
        obtain ⟨privs, hr, hrmem⟩ := revoke_true hg h
        refine ⟨privs, hr, ?_⟩
        intro p
        rw [hrmem, hgmem]
        simp only [List.mem_filter, mem_toGrant, mem_toRevoke, hprivs, and_imp, and_assoc]

/-- The privileges of a user after an update: those of the spec if everything is plain; and
nothing that is not plain was revoked. -/
structure Aligned (specPrivs before after : List String) : Prop where
  exact : (∀ s ∈ specPrivs, Plain s) → (∀ p ∈ before, p ∉ specPrivs → Plain p) →
    ∀ p, p ∈ after ↔ p ∈ specPrivs
  kept : ∀ p ∈ before, ¬ Plain p → p ∈ after

theorem update_true (hacc : a.account u.userName = some acc)
    (h : (u.update cat secret env a).1 = true) :
    ∃ privs, (u.update cat secret env a).2.account u.userName = some { acc with privs } ∧
      Aligned u.specPrivs acc.privs privs := by
  unfold DbUser.update at h ⊢
  cases hroles : u.updateRolePrivs cat secret env a with
  | mk ok b =>
    rw [hroles] at h
    cases ok with
    | false => cases h
    | true =>
      simp only at h ⊢
      have hok : (u.updateRolePrivs cat secret env a).1 = true := by rw [hroles]
      obtain ⟨mid, hmid, hmidmem⟩ := updatePrivs_true hacc hok
      have hb : b.account u.userName = some { acc with privs := mid } := by
        have hsame : (u.updateRolePrivs cat secret env a).2 = b := by rw [hroles]
        exact hsame ▸ hmid
      obtain ⟨privs, hres, hmem⟩ := updatePrivs_true hb h
      simp only at hmem
      refine ⟨privs, hres, ?_, ?_⟩
      · intro hspec hold p
        have hnames : ∀ s ∈ u.specPrivs, privilegeNames s = [s] := hspec
        have hnames' : ∀ r ∈ acc.privs, r ∉ u.specPrivs → privilegeNames r = [r] := hold
        -- after the roles, only system privileges can be missing or in excess
        have hfirst : ∀ q, q ∈ mid ↔ (q ∈ u.specPrivs ∧ (q ∈ acc.privs ∨ q ∈ cat.roles)) ∨
            q ∈ acc.privs ∧ q ∉ u.specPrivs ∧ q ∉ cat.roles := by
          intro q
          rw [hmidmem]
          simp only [decide_eq_true_eq]
          grind
        rw [hmem]
        simp only [decide_eq_true_eq, hfirst]
        grind
      · intro p hp hnot
        have hmidp : p ∈ mid := by
          rw [hmidmem]
          exact ⟨.inl hp, fun r _ _ _ hr => hnot (plain_of_mem hr)⟩
        rw [hmem]
        exact ⟨.inl hmidp, fun r _ _ _ hr => hnot (plain_of_mem hr)⟩

theorem create_true (h : (u.create cat env a).1 = true) :
    a.account u.userName = none ∧ u.newPassword ≠ "" ∧
      ∃ privs, (u.create cat env a).2.account u.userName = some ⟨u.newPassword, privs, true⟩ ∧
        ∀ p, p ∈ privs ↔ ∃ s ∈ u.specPrivs, p ∈ privilegeNames s := by
  unfold DbUser.create at h ⊢
  rw [u.upper] at h ⊢
  split at h
  · cases h
  · next hcall =>
    rw [if_neg hcall]
    split at h
    · cases h
    · next b hb =>
      obtain ⟨-, -, hpwd, hnone, rfl⟩ := createStatement_eq_some.mp hb
      obtain ⟨privs, hres, hmem⟩ := runEach_grant set_account h
      exact ⟨hnone, hpwd, privs, hres, by simpa using hmem⟩

theorem updatePassword_true (hacc : a.account u.userName = some acc)
    (h : (u.updatePassword env a).1 = true) :
    (u.updatePassword env a).2.account u.userName = some { acc with password := u.newPassword } := by
  unfold DbUser.updatePassword at h ⊢
  rw [u.upper] at h ⊢
  split at h
  · cases h
  · next hcall =>
    rw [if_neg hcall]
    split at h
    · cases h
    · next b hb =>
      obtain ⟨acc', hacc', rfl⟩ := alterStatement_eq_some hb
      obtain rfl := Option.some.inj (hacc.symm.trans hacc')
      exact set_account

end Effects

section Update

variable {userSpecs : List User}

theorem nameToUser_userName (h : nameToUser casing userSpecs name = some u) : u.userName = name := by
  obtain ⟨us, hus, rfl⟩ := Option.map_eq_some_iff.mp h
  have hname : casing.toUpper us.name = name := by simpa using List.find?_some hus
  exact hname

theorem mem_specNames_of_nameToUser (h : nameToUser casing userSpecs name = some u) :
    name ∈ userSpecs.map fun us => casing.toUpper us.name := by
  obtain ⟨us, hus, rfl⟩ := Option.map_eq_some_iff.mp h
  have hname : casing.toUpper us.name = name := by simpa using List.find?_some hus
  have hmem : us ∈ userSpecs := by simpa using List.mem_of_find?_eq_some hus
  exact List.mem_map.mpr ⟨us, hmem, hname⟩

theorem nameToUser_of_mem {us : User} (h : us ∈ userSpecs) :
    ∃ u, nameToUser casing userSpecs (casing.toUpper us.name) = some u := by
  have hsome : (userSpecs.reverse.find? fun v => casing.toUpper v.name =
      casing.toUpper us.name).isSome := by
    rw [List.find?_isSome]
    exact ⟨us, List.mem_reverse.mpr h, by simp⟩
  obtain ⟨v, hv⟩ := Option.isSome_iff_exists.mp hsome
  exact ⟨newUser casing v, by rw [nameToUser, hv]; rfl⟩

/-- The names of users that are looked up are the names they are looked up by. -/
theorem map_userName_filterMap {names : List String}
    (h : ∀ n ∈ names, n ∈ userSpecs.map fun us => casing.toUpper us.name) :
    (names.filterMap (nameToUser casing userSpecs)).map (·.userName) = names := by
  induction names with
  | nil => rfl
  | cons n names ih =>
    obtain ⟨us, hus, rfl⟩ := List.mem_map.mp (h n List.mem_cons_self)
    obtain ⟨u, hu⟩ : ∃ u, nameToUser casing userSpecs (casing.toUpper us.name) = some u :=
      nameToUser_of_mem hus
    rw [List.filterMap_cons_some hu, List.map_cons, nameToUser_userName hu,
      ih fun k hk => h k (List.mem_cons_of_mem _ hk)]

theorem mem_envUserNames : name ∈ envUserNames a ↔ isListed a name = true := by
  rw [envUserNames, List.mem_filter, a.mem_names]
  constructor
  · exact fun h => h.2
  · intro h
    refine ⟨?_, h⟩
    cases hacc : a.account name with
    | none => simp [isListed, hacc] at h
    | some acc => rfl

/-- The users of the spec that the PDB does not have, and those it has. -/
def missing (casing : Casing) (userSpecs : List User) (a : Accounts) : List (DbUser casing) :=
  (elements ((userSpecs.map fun us => casing.toUpper us.name).filter (· ∉ envUserNames a))).filterMap
    (nameToUser casing userSpecs)

def present (casing : Casing) (userSpecs : List User) (a : Accounts) : List (DbUser casing) :=
  (elements ((userSpecs.map fun us => casing.toUpper us.name).filter (· ∈ envUserNames a))).filterMap
    (nameToUser casing userSpecs)

theorem mem_missing : u ∈ missing casing userSpecs a ↔
    nameToUser casing userSpecs u.userName = some u ∧ isListed a u.userName = false := by
  simp only [missing, List.mem_filterMap, mem_elements, List.mem_filter, decide_eq_true_eq,
    mem_envUserNames, Bool.not_eq_true]
  constructor
  · rintro ⟨name, ⟨-, hnot⟩, hu⟩
    obtain rfl := nameToUser_userName hu
    exact ⟨hu, hnot⟩
  · rintro ⟨hu, hnot⟩
    exact ⟨u.userName, ⟨mem_specNames_of_nameToUser hu, hnot⟩, hu⟩

theorem mem_present : u ∈ present casing userSpecs a ↔
    nameToUser casing userSpecs u.userName = some u ∧ isListed a u.userName = true := by
  simp only [present, List.mem_filterMap, mem_elements, List.mem_filter, decide_eq_true_eq,
    mem_envUserNames]
  constructor
  · rintro ⟨name, ⟨-, hlisted⟩, hu⟩
    obtain rfl := nameToUser_userName hu
    exact ⟨hu, hlisted⟩
  · rintro ⟨hu, hlisted⟩
    exact ⟨u.userName, ⟨mem_specNames_of_nameToUser hu, hlisted⟩, hu⟩

theorem nodup_missing : ((missing casing userSpecs a).map (·.userName)).Nodup := by
  rw [missing, map_userName_filterMap]
  · exact nodup_elements _
  · exact fun n hn => (List.mem_filter.mp (mem_elements.mp hn)).1

theorem nodup_present : ((present casing userSpecs a).map (·.userName)).Nodup := by
  rw [present, map_userName_filterMap]
  · exact nodup_elements _
  · exact fun n hn => (List.mem_filter.mp (mem_elements.mp hn)).1

/-- The users among some that are to be changed, with their passwords read. -/
def chosen (secret : String → String) (a : Accounts) (test : DbUser.Diff casing → Bool)
    (us : List (DbUser casing)) : List (DbUser casing) :=
  ((us.map (·.difference secret a)).filter test).map (·.user)

theorem mem_chosen {test : DbUser.Diff casing → Bool} {us : List (DbUser casing)}
    {v : DbUser casing} : v ∈ chosen secret a test us ↔
      ∃ u ∈ us, test (u.difference secret a) = true ∧ v = u.withSecret secret := by
  simp only [chosen, List.mem_map, List.mem_filter]
  constructor
  · rintro ⟨_, ⟨⟨u, hu, rfl⟩, htest⟩, rfl⟩
    exact ⟨u, hu, htest, rfl⟩
  · rintro ⟨u, hu, htest, rfl⟩
    exact ⟨_, ⟨⟨u, hu, rfl⟩, htest⟩, rfl⟩

theorem nodup_chosen {test : DbUser.Diff casing → Bool} {us : List (DbUser casing)}
    (h : (us.map (·.userName)).Nodup) : ((chosen secret a test us).map (·.userName)).Nodup := by
  have hmap : (us.map (·.difference secret a)).map (·.user.userName) = us.map (·.userName) := by
    rw [List.map_map]
    exact List.map_congr_left fun u _ => withSecret_userName
  rw [chosen, List.map_map]
  rw [← hmap] at h
  exact (List.filter_sublist.map _).nodup h

theorem diffEach_eq_some {us : List (DbUser casing)} {ds : List (DbUser.Diff casing)}
    (h : diffEach secret env a us = some ds) : ds = us.map (·.difference secret a) := by
  induction us generalizing ds with
  | nil => exact (Option.some.inj h).symm
  | cons u us ih =>
    simp only [diffEach] at h
    split at h
    · next d ds' hd hds =>
      cases h
      rw [diff_eq_some hd, ih hds, List.map_cons]
    · cases h

/-- The privileges differ. -/
def differs (d : DbUser.Diff casing) : Bool := d.toGrant ≠ [] ∨ d.toRevoke ≠ []

theorem usersDiff_eq_some {d : UsersDiff casing}
    (h : usersDiff secret env casing userSpecs a = some d) :
    d.toCreate = missing casing userSpecs a ∧
      d.toUpdate = chosen secret a differs (present casing userSpecs a) ∧
      d.toUpdatePwd = chosen secret a (·.toUpdatePwd) (present casing userSpecs a) := by
  unfold usersDiff at h
  split at h
  · cases h
  · simp only at h
    split at h
    · cases h
    · obtain ⟨ds, hds, rfl⟩ := Option.map_eq_some_iff.mp h
      obtain rfl := diffEach_eq_some hds
      exact ⟨rfl, rfl, rfl⟩

theorem usersDiff_toDelete {d : UsersDiff casing}
    (h : usersDiff secret env casing userSpecs a = some d) :
    d.toDelete = elements ((envUserNames a).filter
      (· ∉ userSpecs.map fun us => casing.toUpper us.name)) := by
  unfold usersDiff at h
  split at h
  · cases h
  · simp only at h
    split at h
    · cases h
    · obtain ⟨ds, -, rfl⟩ := Option.map_eq_some_iff.mp h
      rfl

theorem aligned_of_not_differs (hacc : a.account u.userName = some acc)
    (h : ¬ differs (u.difference secret a) = true) : Aligned u.specPrivs acc.privs acc.privs := by
  have hprivs := privs_of_account hacc
  obtain ⟨hgrant, hrevoke⟩ : (u.difference secret a).toGrant = [] ∧
      (u.difference secret a).toRevoke = [] := by simpa [differs] using h
  have hsame : ∀ p, p ∈ acc.privs ↔ p ∈ u.specPrivs := by
    intro p
    constructor
    · intro hp
      by_contra hnot
      have hmem : p ∈ (u.difference secret a).toRevoke := mem_toRevoke.mpr ⟨hprivs ▸ hp, hnot⟩
      rw [hrevoke] at hmem
      cases hmem
    · intro hp
      by_contra hnot
      have hmem : p ∈ (u.difference secret a).toGrant := mem_toGrant.mpr ⟨hp, hprivs ▸ hnot⟩
      rw [hgrant] at hmem
      cases hmem
  exact ⟨fun _ _ => hsame, fun p hp _ => hp⟩

/-- The password is to be set. -/
def DbUser.asks (u : DbUser casing) : Bool := u.toUpdateGsmPwd || u.toUpdatePlaintextPwd

/-- A user that was missing, as it is created. -/
structure Created (u : DbUser casing) (a b : Accounts) : Prop where
  fresh : a.account u.userName = none
  password : u.newPassword ≠ ""
  account : ∃ privs, b.account u.userName = some ⟨u.newPassword, privs, true⟩ ∧
    ∀ p, p ∈ privs ↔ ∃ s ∈ u.specPrivs, p ∈ privilegeNames s

/-- A user that was there, with its privileges aligned and its password set if it asks. -/
def Updated (secret : String → String) (u : DbUser casing) (acc : Account) (b : Accounts) : Prop :=
  ∃ privs, b.account u.userName = some
      ⟨if u.asks then (u.withSecret secret).newPassword else acc.password, privs, acc.managed⟩ ∧
    Aligned u.specPrivs acc.privs privs

theorem updateUsers_eq_true
    (h : updateUsers cat secret env casing userSpecs a = (true, b)) :
    ∃ c d, forEach (fun u => u.create cat env) (missing casing userSpecs a) a = (true, c) ∧
      forEach (fun u => u.update cat secret env)
        (chosen secret a differs (present casing userSpecs a)) c = (true, d) ∧
      forEach (fun u => u.updatePassword env)
        (chosen secret a (·.toUpdatePwd) (present casing userSpecs a)) d = (true, b) := by
  unfold updateUsers at h
  split at h
  · cases h
  · next diff hdiff =>
    obtain ⟨hcreate, hupdate, hpwd⟩ := usersDiff_eq_some hdiff
    rw [hcreate, hupdate, hpwd] at h
    simp only [Prod.mk.injEq, Bool.and_eq_true] at h
    obtain ⟨⟨⟨h1, h2⟩, h3⟩, rfl⟩ := h
    exact ⟨_, _, Prod.ext h1 rfl, Prod.ext h2 rfl, Prod.ext h3 rfl⟩

/-- The names that a loop over chosen users works on. -/
theorem mem_chosen_names {test : DbUser.Diff casing → Bool} :
    name ∈ (chosen secret a test (present casing userSpecs a)).map (·.userName) ↔
      ∃ u, nameToUser casing userSpecs name = some u ∧ isListed a name = true ∧
        test (u.difference secret a) = true := by
  rw [List.mem_map]
  constructor
  · rintro ⟨v, hv, rfl⟩
    obtain ⟨u, hu, htest, rfl⟩ := mem_chosen.mp hv
    rw [withSecret_userName]
    exact ⟨u, (mem_present.mp hu).1, (mem_present.mp hu).2, htest⟩
  · rintro ⟨u, hu, hlisted, htest⟩
    obtain rfl := nameToUser_userName hu
    exact ⟨u.withSecret secret, mem_chosen.mpr ⟨u, mem_present.mpr ⟨hu, hlisted⟩, htest, rfl⟩,
      withSecret_userName⟩

/-- What an update without an error does to a user of the spec. -/
theorem updateUsers_true (h : updateUsers cat secret env casing userSpecs a = (true, b))
    (hu : nameToUser casing userSpecs u.userName = some u) :
    (isListed a u.userName = false → Created u a b) ∧
      (isListed a u.userName = true → ∀ acc, a.account u.userName = some acc →
        Updated secret u acc b) := by
  obtain ⟨c, d, hcreate, hupdate, hpwd⟩ := updateUsers_eq_true h
  obtain ⟨hkeep1, heach1⟩ := forEach_true (fun _ _ => touches_create) nodup_missing
    (congrArg Prod.fst hcreate)
  obtain ⟨hkeep2, heach2⟩ := forEach_true (fun _ _ => touches_update) (nodup_chosen nodup_present)
    (congrArg Prod.fst hupdate)
  obtain ⟨hkeep3, heach3⟩ := forEach_true (fun _ _ => touches_updatePassword)
    (nodup_chosen nodup_present) (congrArg Prod.fst hpwd)
  rw [hcreate] at hkeep1 heach1
  rw [hupdate] at hkeep2 heach2
  rw [hpwd] at hkeep3 heach3
  simp only at hkeep1 heach1 hkeep2 heach2 hkeep3 heach3
  constructor
  · intro hlisted
    -- nothing but the creation works on a user that is not listed
    have hnot : ∀ test : DbUser.Diff casing → Bool,
        u.userName ∉ (chosen secret a test (present casing userSpecs a)).map (·.userName) := by
      intro test hmem
      obtain ⟨-, -, hl, -⟩ := mem_chosen_names.mp hmem
      rw [hlisted] at hl
      cases hl
    obtain ⟨a', hsame, hok, hacc⟩ := heach1 u (mem_missing.mpr ⟨hu, hlisted⟩)
    obtain ⟨hnone, hne, privs, hres, hmem⟩ := create_true hok
    refine ⟨hsame ▸ hnone, hne, privs, ?_, hmem⟩
    rw [hkeep3 _ (hnot _), hkeep2 _ (hnot _), hacc, hres]
  · intro hlisted acc hacc
    have hc : c.account u.userName = some acc := by
      rw [hkeep1, hacc]
      intro hmem
      obtain ⟨v, hv, hname⟩ := List.mem_map.mp hmem
      have hl := (mem_missing.mp hv).2
      rw [hname, hlisted] at hl
      cases hl
    obtain ⟨privs, hd, haligned⟩ : ∃ privs, d.account u.userName = some { acc with privs } ∧
        Aligned u.specPrivs acc.privs privs := by
      by_cases hdiffers : differs (u.difference secret a) = true
      · obtain ⟨c', hsame, hok, hacc'⟩ := heach2 (u.withSecret secret)
          (mem_chosen.mpr ⟨u, mem_present.mpr ⟨hu, hlisted⟩, hdiffers, rfl⟩)
        rw [withSecret_userName, hc] at hsame
        obtain ⟨privs, hres, haligned⟩ := update_true (withSecret_userName ▸ hsame) hok
        rw [withSecret_userName] at hacc' hres
        rw [withSecret_specPrivs] at haligned
        exact ⟨privs, hacc'.trans hres, haligned⟩
      · refine ⟨acc.privs, ?_, aligned_of_not_differs hacc hdiffers⟩
        rw [hkeep2, hc]
        intro hmem
        obtain ⟨v, hv, -, htest⟩ := mem_chosen_names.mp hmem
        obtain rfl := Option.some.inj (hu.symm.trans hv)
        exact hdiffers htest
    refine ⟨privs, ?_, haligned⟩
    by_cases hasks : u.asks = true
    · obtain ⟨d', hsame, hok, hacc'⟩ := heach3 (u.withSecret secret)
        (mem_chosen.mpr ⟨u, mem_present.mpr ⟨hu, hlisted⟩, hasks, rfl⟩)
      rw [withSecret_userName, hd] at hsame
      have hres := updatePassword_true (withSecret_userName ▸ hsame) hok
      rw [withSecret_userName] at hacc' hres
      rw [if_pos hasks]
      exact hacc'.trans hres
    · rw [if_neg hasks, hkeep3, hd]
      intro hmem
      obtain ⟨v, hv, -, htest⟩ := mem_chosen_names.mp hmem
      obtain rfl := Option.some.inj (hu.symm.trans hv)
      exact hasks htest

end Update

end ElCarro.Databases.Users
