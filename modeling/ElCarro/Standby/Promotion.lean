import ElCarro.Database.Privileges
import ElCarro.Standby.Replication

/-! # Promotion of a standby

The promotion takes the standby out of the configuration, or removes a configuration in which
there is no other standby. However often it is tried, whatever fails on the way and wherever
it is cut off, the other standbys stay in the configuration; and a later attempt in which
nothing fails completes it.
-/

namespace ElCarro.StandbyDR.DataGuard

open Dialogue

section Reading

variable {c : Config} {text : String} {m : Broker.DgMembers}

/-- The names of the members with a role. -/
def Config.named (c : Config) (role : Broker.Role) : List String :=
  (c.entries.filter (·.member.role = role)).map (·.member.name)

theorem named_of_members {shown : Broker.Shown} (h : shown.members = c.entries.map Entry.member)
    (role : Broker.Role) : shown.named role = c.named role := by
  rw [Broker.Shown.named, h, Config.named, List.filter_map, List.map_map]
  rfl

/-- What the tasks know about a configuration. -/
structure Reads (c : Config) (m : Broker.DgMembers) : Prop where
  configuration : m.configuration = c.name
  primary : ∃ others, c.named .primary = m.primary :: others
  physicalStandbys : m.physicalStandbys = c.named .physicalStandby
  logicalStandbys : m.logicalStandbys = c.named .logicalStandby

theorem Prints.members_eq (h : Prints c text) {primary : String} {others : List String}
    (hprimary : c.named .primary = primary :: others) :
    Broker.members [text] = .ok ⟨c.name, primary, c.named .physicalStandby,
      c.named .logicalStandby⟩ := by
  obtain ⟨shown, hproper, rfl, hname, hmembers⟩ := h
  rw [Broker.members_shown hproper ((named_of_members hmembers .primary).trans hprimary), hname,
    named_of_members hmembers, named_of_members hmembers]

theorem Prints.reads (h : Prints c text) (hm : Broker.members [text] = .ok m) : Reads c m := by
  cases hprimary : c.named .primary with
  | cons primary others =>
    rw [h.members_eq hprimary] at hm
    cases hm
    exact ⟨rfl, ⟨others, hprimary⟩, rfl, rfl⟩
  | nil =>
    obtain ⟨shown, hproper, rfl, -, hmembers⟩ := h
    have hnone : shown.named .primary = [] := (named_of_members hmembers .primary).trans hprimary
    exact absurd hm (Broker.members_ne_ok hproper hnone m)

variable {f : Folding} {name : String}

/-- A standby is listed when a member with its name is no primary. -/
theorem Reads.standbyContains_iff (h : Reads c m) :
    m.standbyContains f.toCasing name = true ↔
      ∃ e ∈ c.entries, e.member.role ≠ .primary ∧ e.Named f name := by
  rw [Broker.DgMembers.standbyContains, h.physicalStandbys, h.logicalStandbys, Bool.or_eq_true,
    List.any_eq_true, List.any_eq_true]
  simp only [Config.named, List.mem_map, List.mem_filter, decide_eq_true_eq]
  constructor
  · rintro (⟨_, ⟨e, ⟨he, hrole⟩, rfl⟩, hname⟩ | ⟨_, ⟨e, ⟨he, hrole⟩, rfl⟩, hname⟩)
    · exact ⟨e, he, by rw [hrole]; decide, hname⟩
    · exact ⟨e, he, by rw [hrole]; decide, hname⟩
  · rintro ⟨e, he, hrole, hname⟩
    cases hr : e.member.role with
    | primary => exact absurd hr hrole
    | physicalStandby => exact .inl ⟨_, ⟨e, ⟨he, hr⟩, rfl⟩, hname⟩
    | logicalStandby => exact .inr ⟨_, ⟨e, ⟨he, hr⟩, rfl⟩, hname⟩

theorem mem_standbys {e : Entry} (he : e ∈ c.entries) (hrole : e.member.role ≠ .primary) :
    e.member.name ∈ c.named .physicalStandby ++ c.named .logicalStandby := by
  rw [List.mem_append, Config.named, Config.named, List.mem_map, List.mem_map]
  cases hr : e.member.role with
  | primary => exact absurd hr hrole
  | physicalStandby => exact .inl ⟨e, List.mem_filter.mpr ⟨he, by simpa using hr⟩, rfl⟩
  | logicalStandby => exact .inr ⟨e, List.mem_filter.mpr ⟨he, by simpa using hr⟩, rfl⟩

/-- A configuration that lists one standby lists no other one. -/
theorem Reads.named_of_size (h : Reads c m) (hsize : m.size = 1)
    (hcontains : m.standbyContains f.toCasing name = true) {e : Entry} (he : e ∈ c.entries)
    (hrole : e.member.role ≠ .primary) : e.Named f name := by
  obtain ⟨d, hd, hdrole, hdname⟩ := h.standbyContains_iff.mp hcontains
  have hlen : (c.named .physicalStandby ++ c.named .logicalStandby).length = 1 := by
    rw [List.length_append, ← h.physicalStandbys, ← h.logicalStandbys]
    exact hsize
  obtain ⟨only, honly⟩ := List.length_eq_one_iff.mp hlen
  have heq : e.member.name = d.member.name := by
    have h₁ := mem_standbys he hrole
    have h₂ := mem_standbys hd hdrole
    rw [honly, List.mem_singleton] at h₁ h₂
    rw [h₁, h₂]
  rw [Entry.Named, heq]
  exact hdname

end Reading

section Kept

variable (f : Folding) (primaryUniqueName dbUniqueName : String)

/-- What a broker keeps to: names that it accepts, no name twice, and a primary. -/
structure Config.Consistent (c : Config) : Prop where
  name : Broker.IsWord c.name.toList
  names : ∀ e ∈ c.entries, Broker.IsUniqueName e.member.name.toList
  identifiers : ∀ e ∈ c.entries,
    Broker.IsWord e.identifier.toList ∧ Broker.quote ∉ e.identifier.toList
  distinct : c.entries.Pairwise fun d e => ¬ d.Named f e.member.name
  primary : ∃ e ∈ c.entries, e.member.role = .primary
  isPrimary : ∀ e ∈ c.entries, e.member.role = .primary → e.Named f primaryUniqueName

def Consistent (w : World) : Prop := ∀ c, w.config = some c → c.Consistent f primaryUniqueName

/-- The other standbys of the configuration are still in it. -/
def Spares (w t : World) : Prop :=
  ∀ c, w.config = some c → ∀ e ∈ c.entries, e.member.role ≠ .primary →
    ¬ e.Named f dbUniqueName → ∃ c', t.config = some c' ∧ e ∈ c'.entries

structure Kept (w t : World) : Prop extends Grows w t where
  spares : Spares f dbUniqueName w t
  consistent : Consistent f primaryUniqueName w → Consistent f primaryUniqueName t

variable {f primaryUniqueName dbUniqueName} {w t u : World}

theorem Calm.kept (h : Calm w t) : Kept f primaryUniqueName dbUniqueName w t := by
  refine ⟨h.toGrows, ?_, ?_⟩
  · intro c hc e he _ _
    exact ⟨c, h.config.trans hc, he⟩
  · intro hw c hc
    exact hw c (h.config.symm.trans hc)

instance : Std.Refl (Kept f primaryUniqueName dbUniqueName) := ⟨fun w => (Calm.refl w).kept⟩

instance : IsTrans World (Kept f primaryUniqueName dbUniqueName) := by
  refine ⟨fun w t u hwt htu => ⟨hwt.toGrows.trans htu.toGrows, ?_, htu.consistent ∘ hwt.consistent⟩⟩
  intro c hc e he hrole hname
  obtain ⟨c', hc', he'⟩ := hwt.spares c hc e he hrole hname
  exact htu.spares c' hc' e he' hrole hname

instance : Std.Refl Calm := ⟨Calm.refl⟩

instance : IsTrans World Calm := ⟨fun _ _ _ => Calm.trans⟩

end Kept

section Attempts

variable {f : Folding} {primaryUniqueName dbUniqueName : String} {parties : Parties} {w t : World}

/-- A script that was asked for has been run or not, whatever the reply says. -/
theorem serve_script {target : Target} {script : Script} {r : Except String (List String)}
    (h : serve f primaryUniqueName dbUniqueName w (.runDataGuard target [script]) r t) :
    ∃ u, CatchesUp f dbUniqueName u t ∧
      ((∃ text, r = .ok [text] ∧ script.Does f target w text u) ∨
        (∃ err, r = .error err) ∧ (u = w ∨ ∃ text, script.Does f target w text u)) := by
  obtain ⟨u, h | ⟨hfails, done, out, hpre, hrun⟩, hcatch⟩ := h
  · obtain ⟨out, rfl, text, rest, v, rfl, hdoes, rfl, rfl⟩ := h
    exact ⟨u, hcatch, .inl ⟨text, rfl, hdoes⟩⟩
  · refine ⟨u, hcatch, .inr ⟨hfails, ?_⟩⟩
    rcases List.prefix_cons_iff.mp hpre with rfl | ⟨rest, rfl, hrest⟩
    · exact .inl hrun.2
    · obtain rfl := List.prefix_nil.mp hrest
      obtain ⟨text, rest, v, -, hdoes, -, rfl⟩ := hrun
      exact .inr ⟨text, hdoes⟩

theorem within_calm {α : Type} {x : T α} (hx : Only Request.Calm x) (w : World) :
    Within (serve f primaryUniqueName dbUniqueName) Calm x (fun _ _ => True) w := by
  refine Only.within ?_ hx w
  intro w q r t hq h
  exact calm_serve hq h

theorem only_ask {q : Request} (hq : q.Calm) : Only Request.Calm (ask q) := only_request.mpr hq

theorem only_standbyDg : Only Request.Calm standbyDg := only_pure

theorem only_primaryDg : Only Request.Calm (primaryDg parties) := by
  refine (only_ask (q := .password) trivial).bind ?_
  rintro (err | passwd) <;> exact only_pure

theorem calm_show (target : Target) :
    (Request.runDataGuard target [.showConfiguration]).Calm := by
  intro script h
  exact .inl (List.mem_singleton.mp h)

theorem only_configExists {b : T (Except String Target)} (hb : Only Request.Calm b) :
    Only Request.Calm (configExists b) := by
  refine hb.bind ?_
  rintro (err | target)
  · exact only_pure
  · refine (only_ask (calm_show target)).bind ?_
    rintro (err | out) <;> exact only_pure

theorem only_existsSomewhere : Only Request.Calm (existsSomewhere parties) := by
  refine (only_configExists only_standbyDg).bind ?_
  rintro (- | -)
  · exact only_configExists only_primaryDg
  · exact only_pure

/-- The members that are read are those of the configuration. -/
theorem within_members {b : T (Except String Target)} (hb : Only Request.Calm b) (w : World) :
    Within (serve f primaryUniqueName dbUniqueName) Calm (members b)
      (fun r t => ∀ m, r = .ok m → ∃ c, t.config = some c ∧ Reads c m) w := by
  refine (within_calm hb w).bind ?_
  rintro (err | target) t - -
  · exact .pure (by simp)
  · refine Within.bind (P := fun r u => ∀ out, r = .ok out →
      ∃ c text, u.config = some c ∧ Prints c text ∧ out = [text]) (.request ?_) ?_
    · intro r u hserve
      refine ⟨calm_serve (calm_show target) hserve, ?_⟩
      rintro out rfl
      obtain ⟨v, hcatch, ⟨text, hr, hv, -, c, hc, hprints⟩ | ⟨⟨err, hr⟩, -⟩⟩ := serve_script hserve
      · cases hr
        exact ⟨c, text, (calm_catchesUp hcatch).config.trans (hv ▸ hc), hprints, rfl⟩
      · cases hr
    · rintro (err | out) u - hout
      · exact .pure (by simp)
      · obtain ⟨c, text, hc, hprints, rfl⟩ := hout out rfl
        exact .pure fun m hm => ⟨c, hc, hprints.reads hm⟩

theorem named_toLower_iff {name : String} (hascii : name.toList.all (·.toNat < 128) = true)
    (e : Entry) : e.Named f (f.toLower name) ↔ e.Named f name := by
  have hlower := f.equalFold_toLower name hascii
  constructor
  · intro h
    exact f.equalFold_trans _ _ _ h hlower
  · intro h
    exact f.equalFold_trans _ _ _ h ((f.equalFold_comm _ _).trans hlower)

theorem Config.Consistent.ne_named {c : Config} (hc : c.Consistent f primaryUniqueName)
    {d e : Entry} (hd : d ∈ c.entries) (he : e ∈ c.entries) (hne : d ≠ e) {name : String}
    (hname : d.Named f name) : ¬ e.Named f name := by
  intro hname'
  have hsymm : Std.Symm fun d e : Entry => ¬ d.Named f e.member.name := by
    refine ⟨fun d e h h' => h ?_⟩
    exact (f.equalFold_comm _ _).trans h'
  refine hc.distinct.forall hd he hne ?_
  exact f.equalFold_trans _ _ _ hname ((f.equalFold_comm _ _).trans hname')

theorem kept_removeConfiguration
    (honly : ∀ c, w.config = some c → ∀ e ∈ c.entries, e.member.role ≠ .primary →
      e.Named f dbUniqueName) :
    Kept f primaryUniqueName dbUniqueName w { w with config := none, linked := false } := by
  refine ⟨⟨id, id, id, id, id⟩, ?_, ?_⟩
  · intro c hc e he hrole hname
    exact absurd (honly c hc e he hrole) hname
  · intro _ c hc
    cases hc

theorem kept_removeDatabase {c : Config} (hc : w.config = some c)
    (hascii : dbUniqueName.toList.all (·.toNat < 128) = true)
    (hcontains : ∃ e ∈ c.entries, e.member.role ≠ .primary ∧ e.Named f dbUniqueName) :
    Kept f primaryUniqueName dbUniqueName w
      { w with config := some (c.without f (f.toLower dbUniqueName)), linked := false } := by
  have hmem : ∀ e, e ∈ (c.without f (f.toLower dbUniqueName)).entries ↔
      e ∈ c.entries ∧ ¬ e.Named f dbUniqueName := by
    intro e
    rw [Config.without, List.mem_filter, decide_eq_true_eq, named_toLower_iff hascii]
  refine ⟨⟨id, id, id, id, id⟩, ?_, ?_⟩
  · intro c' hc' e he _ hname
    obtain rfl : c = c' := Option.some.inj (hc.symm.trans hc')
    exact ⟨_, rfl, (hmem e).mpr ⟨he, hname⟩⟩
  · intro hw c' hc'
    obtain rfl := Option.some.inj hc'
    have hcons := hw c hc
    refine ⟨hcons.name, fun e he => hcons.names e ((hmem e).mp he).1,
      fun e he => hcons.identifiers e ((hmem e).mp he).1, hcons.distinct.filter _, ?_,
      fun e he => hcons.isPrimary e ((hmem e).mp he).1⟩
    obtain ⟨p, hp, hprole⟩ := hcons.primary
    obtain ⟨d, hd, hdrole, hdname⟩ := hcontains
    have hne : d ≠ p := by
      rintro rfl
      exact hdrole hprole
    exact ⟨p, (hmem p).mpr ⟨hp, hcons.ne_named hd hp hne hdname⟩, hprole⟩

/-- A part that changes no configuration, as part of a task that does. -/
theorem kept_within {α : Type} {x : T α} {P : α → World → Prop}
    (hx : Within (serve f primaryUniqueName dbUniqueName) Calm x P w) :
    Within (serve f primaryUniqueName dbUniqueName) (Kept f primaryUniqueName dbUniqueName) x
      (fun a t => Calm w t ∧ P a t) w :=
  hx.from (fun _ h => h.kept) fun _ _ h ha => ⟨h, ha⟩

theorem within_remove
    (honly : ∀ c, w.config = some c → ∀ e ∈ c.entries, e.member.role ≠ .primary →
      e.Named f dbUniqueName) :
    Within (serve f primaryUniqueName dbUniqueName)
      (Kept f primaryUniqueName dbUniqueName) (remove (primaryDg parties))
      (fun _ _ => True) w := by
  refine Within.bind (kept_within (within_calm only_primaryDg w)) ?_
  rintro (err | target) t - ⟨hcalm, -⟩
  · exact .pure trivial
  · refine Within.bind (P := fun _ _ => True) (.request ?_) ?_
    · intro r u hserve
      refine ⟨?_, trivial⟩
      obtain ⟨v, hcatch, hr⟩ := serve_script hserve
      have hv : v = t ∨ v = { t with config := none, linked := false } := by
        rcases hr with ⟨text, -, hdoes⟩ | ⟨-, rfl | ⟨text, hdoes⟩⟩
        · exact .inr hdoes
        · exact .inl rfl
        · exact .inr hdoes
      have hkept : Kept f primaryUniqueName dbUniqueName t v := by
        rcases hv with rfl | rfl
        · exact Std.Refl.refl v
        · exact kept_removeConfiguration fun c hc => honly c (hcalm.config.symm.trans hc)
      exact IsTrans.trans t v u hkept (calm_catchesUp hcatch).kept
    · rintro (err | out) u - - <;> exact .pure trivial

theorem within_removeStandbyDB (hascii : dbUniqueName.toList.all (·.toNat < 128) = true)
    {c : Config} (hc : w.config = some c)
    (hcontains : ∃ e ∈ c.entries, e.member.role ≠ .primary ∧ e.Named f dbUniqueName) :
    Within (serve f primaryUniqueName dbUniqueName)
      (Kept f primaryUniqueName dbUniqueName)
      (removeStandbyDB (primaryDg parties) (f.toLower dbUniqueName)) (fun _ _ => True) w := by
  refine Within.bind (kept_within (within_calm only_primaryDg w)) ?_
  rintro (err | target) t - ⟨hcalm, -⟩
  · exact .pure trivial
  · refine Within.bind (P := fun _ u => Calm t u) (.request ?_) ?_
    · intro r u hserve
      obtain ⟨v, hcatch, hr⟩ := serve_script hserve
      obtain rfl : v = t := by
        rcases hr with ⟨text, -, hdoes⟩ | ⟨-, rfl | ⟨text, hdoes⟩⟩
        · exact hdoes
        · rfl
        · exact hdoes
      exact ⟨(calm_catchesUp hcatch).kept, calm_catchesUp hcatch⟩
    · rintro (err | out) u - hcalm'
      · exact .pure trivial
      · refine Within.bind (P := fun _ _ => True) (.request ?_) ?_
        · intro r u' hserve
          refine ⟨?_, trivial⟩
          have hcu : u.config = some c := hcalm'.config.trans (hcalm.config.trans hc)
          obtain ⟨v, hcatch, hr⟩ := serve_script hserve
          have hkept : Kept f primaryUniqueName dbUniqueName u v := by
            have hdone : ∀ text, (Script.removeDatabase (f.toLower dbUniqueName)).Does f target u
                text v → Kept f primaryUniqueName dbUniqueName u v := by
              rintro text ⟨c', hc', rfl⟩
              obtain rfl : c = c' := Option.some.inj (hcu.symm.trans hc')
              exact kept_removeDatabase hcu hascii hcontains
            rcases hr with ⟨text, -, hdoes⟩ | ⟨-, rfl | ⟨text, hdoes⟩⟩
            · exact hdone text hdoes
            · exact Std.Refl.refl v
            · exact hdone text hdoes
          exact IsTrans.trans u v u' hkept (calm_catchesUp hcatch).kept
        · rintro (err | out) u' - - <;> exact .pure trivial

theorem within_orFail {rel : World → World → Prop} [Std.Refl rel] (text : String)
    (err : Option String) :
    Within (serve f primaryUniqueName dbUniqueName) rel (orFail text err)
      (fun _ _ => err = none) w := by
  cases err with
  | none => exact .pure rfl
  | some err => exact .fail _

theorem within_removeDataGuardConfig
    (hascii : parties.dbUniqueName.toList.all (·.toNat < 128) = true) (w : World) :
    Within (serve f primaryUniqueName parties.dbUniqueName)
      (Kept f primaryUniqueName parties.dbUniqueName)
      (removeDataGuardConfig f.toCasing parties f.toLower) (fun _ _ => True) w := by
  refine Within.bind (kept_within (within_calm only_existsSomewhere w)) ?_
  rintro (- | -) t - -
  · exact .pure trivial
  · refine Within.bind (kept_within (within_members only_primaryDg t)) ?_
    rintro (err | m) u - ⟨-, hm⟩
    · exact .fail _
    · obtain ⟨c, hc, hreads⟩ := hm m rfl
      simp only
      split
      · next hown =>
        refine Within.bind (within_remove ?_) fun err _ _ _ =>
          (within_orFail _ err).mono fun _ _ _ _ => trivial
        intro c' hc' e he hrole
        obtain rfl : c = c' := Option.some.inj (hc.symm.trans hc')
        exact hreads.named_of_size hown.2.1 hown.2.2 he hrole
      · split
        · next hcontains =>
          have hlisted := hreads.standbyContains_iff.mp hcontains
          exact Within.bind (within_removeStandbyDB hascii hc hlisted) fun err _ _ _ =>
            (within_orFail _ err).mono fun _ _ _ _ => trivial
        · exact .pure trivial

/-- Rows that are not empty come from the database. -/
theorem within_rowsOrNone (q : LocalQuery) (w : World) :
    Within (serve f primaryUniqueName dbUniqueName) Calm (rowsOrNone q)
      (fun rows _ => rows ≠ [] → q.Gives f w rows) w := by
  refine Within.bind (P := fun r _ => ∀ rows, fetchRows q.sql r = .ok rows → q.Gives f w rows)
    (.request ?_) ?_
  · intro r t hserve
    refine ⟨calm_serve (q := .query q) trivial hserve, ?_⟩
    intro rows hrows
    obtain ⟨u, ⟨⟨rows', ⟨messages, rfl, hparse⟩, hgives⟩, -⟩ | ⟨⟨err, rfl⟩, -⟩, -⟩ := hserve
    · obtain rfl : rows' = rows := Except.ok.inj (hparse.symm.trans hrows)
      exact hgives
    · cases hrows
  · intro r t _ hr
    split
    · exact .pure (by simp)
    · next rows hrows => exact .pure fun _ => hr rows hrows

/-- A statement that is not needed when the rows say so has had its effect. -/
theorem within_unlessRows {q : LocalQuery} {statement : Statement} {text : String}
    {done : World → Prop} (hgives : ∀ w rows, q.Gives f w rows → rows ≠ [] → done w)
    (hdoes : ∀ w t, statement.Does w t → done t) (hcalm : ∀ w t, Calm w t → done w → done t)
    (w : World) :
    Within (serve f primaryUniqueName dbUniqueName) Calm (unlessRows q statement text)
      (fun _ t => done t) w := by
  refine (within_rowsOrNone q w).bind ?_
  rintro (_ | ⟨row, rows⟩) t hwt hrows
  · refine Within.bind (P := fun r u => r = none → done u) (.request ?_) ?_
    · intro r u hserve
      refine ⟨calm_serve (q := .execute statement) trivial hserve, ?_⟩
      rintro rfl
      obtain ⟨v, ⟨-, hv⟩ | ⟨⟨err, herr⟩, -⟩, hcatch⟩ := hserve
      · exact hcalm v u (calm_catchesUp hcatch) (hdoes t v hv)
      · cases herr
    · intro r u _ hr
      refine (within_orFail text r).mono ?_
      intro _ v huv hnone
      exact hcalm u v huv (hr hnone)
  · exact .pure (hcalm w t hwt (hgives w _ (hrows (List.cons_ne_nil row rows))
      (List.cons_ne_nil row rows)))

theorem within_cancelRecovery (w : World) :
    Within (serve f primaryUniqueName dbUniqueName) Calm cancelRecovery (fun _ _ => True) w := by
  refine within_calm ?_ w
  have hrows : Only Request.Calm (rowsOrNone .listMRP) := by
    refine (only_ask (q := .query .listMRP) trivial).bind ?_
    intro r
    split <;> exact only_pure
  refine hrows.bind ?_
  rintro (_ | ⟨row, rows⟩)
  · exact only_pure
  · exact (only_ask (q := .execute .cancelMRP) trivial).bind fun _ => only_pure

theorem within_promoteStandby (w : World) :
    Within (serve f primaryUniqueName dbUniqueName) Calm promoteStandby
      (fun _ t => t.isPrimary = true ∧ t.isOpen = true) w := by
  have hactivate : ∀ w, Within (serve f primaryUniqueName dbUniqueName) Calm
      (unlessRows .listPrimaryRole .activateStandby
        "promoteStandby: Error while promoting standby database: ")
      (fun _ t => t.isPrimary = true) w := by
    refine within_unlessRows ?_ ?_ fun w t h => h.isPrimary
    · intro w rows hgives hne
      simpa using mt hgives.mpr hne
    · rintro w t ⟨-, rfl⟩
      rfl
  have hopen : ∀ w, Within (serve f primaryUniqueName dbUniqueName) Calm
      (unlessRows .listOpenDatabase .openDatabase
        "promoteStandby: Error while opening new primary database: ")
      (fun _ t => t.isOpen = true) w := by
    refine within_unlessRows ?_ ?_ fun w t h => h.isOpen
    · intro w rows hgives hne
      simpa using mt hgives.mpr hne
    · rintro w t ⟨-, rfl⟩
      rfl
  refine (within_cancelRecovery w).bind fun _ t _ _ => ?_
  refine (hactivate t).bind fun _ u _ hprimary => ?_
  exact (hopen u).mono fun _ v huv hv => ⟨huv.isPrimary hprimary, hv⟩

/-- Whatever fails and wherever it is cut off, the promotion spares the other standbys; when it
succeeds the database is an open primary. -/
theorem within_promote (hascii : parties.dbUniqueName.toList.all (·.toNat < 128) = true)
    (w : World) :
    Within (serve f primaryUniqueName parties.dbUniqueName)
      (Kept f primaryUniqueName parties.dbUniqueName) (promote f.toCasing parties f.toLower)
      (fun _ t => t.isPrimary = true ∧ t.isOpen = true) w := by
  refine (within_removeDataGuardConfig hascii w).bind fun _ t _ _ => ?_
  refine (kept_within (within_promoteStandby t)).bind fun _ u _ hu => ?_
  exact .pure hu.2

end Attempts

section Completion

variable {f : Folding} {primaryUniqueName : String} {parties : Parties} {w : World}

theorem Config.Consistent.exists_prints {c : Config} (hc : c.Consistent f primaryUniqueName) :
    ∃ text, Prints c text := by
  let shown : Broker.Shown := ⟨[], c.name, c.entries.map fun e => .member 2 0 0 e.member⟩
  refine ⟨shown.text, shown, ⟨by simp [shown], hc.name, ?_⟩, rfl, rfl, ?_⟩
  · intro line hline
    obtain ⟨e, he, rfl⟩ := List.mem_map.mp hline
    exact hc.names e he
  · rw [Broker.Shown.members, List.filterMap_map, ← List.filterMap_eq_map]
    rfl

theorem exists_replies (rows : List Row) : ∃ r, Replies r rows := by
  refine ⟨.ok (rows.map fun row => ⟨"", .ok row⟩), _, rfl, ?_⟩
  rw [parseSQLResponse, List.mapM_map]
  exact (List.mapM_pure (f := id)).trans (by rw [List.map_id]; rfl)

/-- When a request fails only because it cannot be done, the program ends without an error. -/
def Succeeds (f : Folding) (primaryUniqueName : String) {α : Type} (x : T α)
    (P : α → World → Prop) (w : World) : Prop :=
  Ends (sound f primaryUniqueName) (fun _ _ => True) x P (fun _ _ => False) w

theorem Succeeds.mono {α : Type} {x : T α} {P P' : α → World → Prop}
    (h : Succeeds f primaryUniqueName x P w) (hP : ∀ a t, P a t → P' a t) :
    Succeeds f primaryUniqueName x P' w := Ends.mono h hP fun _ _ h => h

theorem Succeeds.pure {α : Type} {a : α} {P : α → World → Prop} (h : P a w) :
    Succeeds f primaryUniqueName (pure a : T α) P w := h

theorem Succeeds.bind {α β : Type} {x : T α} {g : α → T β} {P : α → World → Prop}
    {P' : β → World → Prop} (hx : Succeeds f primaryUniqueName x P w)
    (hg : ∀ a t, P a t → Succeeds f primaryUniqueName (g a) P' t) :
    Succeeds f primaryUniqueName (x >>= g) P' w :=
  ends_bind.mpr (Ends.mono hx hg fun _ _ h => h)

/-- A request that can be done is done. -/
theorem Succeeds.ask {q : Request} {P : Reply q → World → Prop}
    (hex : ∃ r t, answers f primaryUniqueName w q r t)
    (h : ∀ r t, answers f primaryUniqueName w q r t → P r t) :
    Succeeds f primaryUniqueName (ask q) P w := by
  refine ⟨trivial, ?_⟩
  rintro r t (hr | ⟨hno, -⟩)
  · exact h r t hr
  · exact absurd hex hno

theorem succeeds_primaryDg :
    Succeeds f primaryUniqueName (primaryDg parties)
      (fun r t => t = w ∧ ∃ connection, r = .ok (.primary connection)) w := by
  refine Succeeds.bind (P := fun r t => t = w ∧ ∃ passwd, r = .ok passwd) (.ask ?_ ?_) ?_
  · exact ⟨.ok "", w, ⟨"", rfl⟩, rfl⟩
  · rintro r t ⟨hr, ht⟩
    exact ⟨ht, hr⟩
  · rintro r t ⟨rfl, passwd, rfl⟩
    exact .pure ⟨rfl, _, rfl⟩

theorem exists_runScript {target : Target} {script : Script} {text : String} {t : World}
    (h : script.Does f target w text t) :
    ∃ r t, answers f primaryUniqueName w (.runDataGuard target [script]) r t :=
  ⟨.ok [text], t, [text], rfl, text, [], t, rfl, h, rfl, rfl⟩

theorem answers_runScript {target : Target} {script : Script} {r : Except String (List String)}
    {t : World} (h : answers f primaryUniqueName w (.runDataGuard target [script]) r t) :
    ∃ text, r = .ok [text] ∧ script.Does f target w text t := by
  obtain ⟨out, rfl, text, rest, u, rfl, hdoes, rfl, rfl⟩ := h
  exact ⟨text, rfl, hdoes⟩

/-- A broker that shows a configuration has one; one that is not `near` shows what there is. -/
theorem succeeds_configExists (hw : Consistent f primaryUniqueName w) {near : Prop}
    {b : T (Except String Target)}
    (hb : Succeeds f primaryUniqueName b
      (fun r t => t = w ∧ ∃ target, r = .ok target ∧ (target = .standby → near)) w) :
    Succeeds f primaryUniqueName (configExists b)
      (fun shown t => t = w ∧ (shown = true → w.config.isSome = true) ∧
        (w.config.isSome = true → shown = true ∨ near)) w := by
  refine Succeeds.bind hb ?_
  rintro r t ⟨rfl, target, rfl, hnear⟩
  refine Succeeds.bind (P := fun r u => u = t ∧ ((∃ out, r = .ok out) → t.config.isSome = true) ∧
    (t.config.isSome = true → (∃ out, r = .ok out) ∨ near)) ⟨trivial, ?_⟩ ?_
  · rintro r u (h | ⟨hno, ⟨err, rfl⟩, rfl⟩)
    · obtain ⟨text, rfl, rfl, -, c, hc, -⟩ := answers_runScript h
      exact ⟨rfl, fun _ => by rw [hc]; rfl, fun _ => .inl ⟨_, rfl⟩⟩
    · refine ⟨rfl, by rintro ⟨out, ⟨⟩⟩, ?_⟩
      intro hsome
      obtain ⟨c, hc⟩ := Option.isSome_iff_exists.mp hsome
      obtain ⟨text, hprints⟩ := (hw c hc).exists_prints
      by_contra hfar
      have htarget : target ≠ .standby := fun h => hfar (.inr (hnear h))
      have hdoes : Script.showConfiguration.Does f target u text u :=
        ⟨rfl, fun h => absurd h htarget, c, hc, hprints⟩
      exact hno (exists_runScript hdoes)
  · rintro (err | out) u ⟨rfl, hsome, hshown⟩
    · refine .pure ⟨rfl, by simp, fun h => ?_⟩
      rcases hshown h with ⟨out, ⟨⟩⟩ | hnear
      exact .inr hnear
    · exact .pure ⟨rfl, fun _ => hsome ⟨out, rfl⟩, fun _ => .inl rfl⟩

/-- Whether there is a configuration. -/
theorem succeeds_existsSomewhere (hw : Consistent f primaryUniqueName w) :
    Succeeds f primaryUniqueName (existsSomewhere parties)
      (fun shown t => t = w ∧ (shown = true ↔ w.config.isSome = true)) w := by
  have hstandby : Succeeds f primaryUniqueName standbyDg
      (fun r t => t = w ∧ ∃ target, r = .ok target ∧ (target = .standby → True)) w :=
    .pure ⟨rfl, .standby, rfl, fun _ => trivial⟩
  have hprimary : Succeeds f primaryUniqueName (primaryDg parties)
      (fun r t => t = w ∧ ∃ target, r = .ok target ∧ (target = .standby → False)) w := by
    refine succeeds_primaryDg.mono ?_
    rintro r t ⟨rfl, connection, rfl⟩
    exact ⟨rfl, _, rfl, by rintro ⟨⟩⟩
  refine Succeeds.bind (succeeds_configExists hw hstandby) ?_
  rintro (- | -) t ⟨rfl, hsome, -⟩
  · refine (succeeds_configExists hw hprimary).mono ?_
    rintro shown u ⟨rfl, hshown, hconfig⟩
    exact ⟨rfl, hshown, fun h => (hconfig h).resolve_right id⟩
  · exact .pure ⟨rfl, fun _ => hsome rfl, fun _ => rfl⟩

theorem Config.Consistent.exists_named_primary {c : Config}
    (hc : c.Consistent f primaryUniqueName) :
    ∃ primary others, c.named .primary = primary :: others := by
  obtain ⟨e, he, hrole⟩ := hc.primary
  have hmem : e.member.name ∈ c.named .primary :=
    List.mem_map.mpr ⟨e, List.mem_filter.mpr ⟨he, by simpa using hrole⟩, rfl⟩
  obtain ⟨primary, others, heq⟩ := List.exists_cons_of_ne_nil (List.ne_nil_of_mem hmem)
  exact ⟨primary, others, heq⟩

theorem succeeds_members (hw : Consistent f primaryUniqueName w) {c : Config}
    (hc : w.config = some c) :
    Succeeds f primaryUniqueName (members (primaryDg parties))
      (fun r t => t = w ∧ ∃ m, r = .ok m ∧ Reads c m) w := by
  refine Succeeds.bind succeeds_primaryDg ?_
  rintro r t ⟨rfl, connection, rfl⟩
  obtain ⟨text, hprints⟩ := (hw c hc).exists_prints
  obtain ⟨primary, others, hprimary⟩ := (hw c hc).exists_named_primary
  refine Succeeds.bind (P := fun r u => u = t ∧ ∃ text, r = .ok [text] ∧ Prints c text)
    (.ask (exists_runScript ⟨rfl, by rintro ⟨⟩, c, hc, hprints⟩) ?_) ?_
  · intro r u h
    obtain ⟨text, rfl, rfl, -, c', hc', hprints'⟩ := answers_runScript h
    obtain rfl : c = c' := Option.some.inj (hc.symm.trans hc')
    exact ⟨rfl, text, rfl, hprints'⟩
  · rintro r u ⟨rfl, text', rfl, hprints'⟩
    have hread := hprints'.members_eq hprimary
    exact .pure ⟨rfl, _, hread, hprints'.reads hread⟩

/-- A script that can be run is run, with no error. -/
theorem succeeds_script {b : T (Except String Target)} {script : Script} {what : String → String}
    {text : String} {t : World} (hdoes : ∀ target, script.Does f target w text t)
    (honly : ∀ target text' t', script.Does f target w text' t' → t' = t)
    (hb : Succeeds f primaryUniqueName b (fun r u => u = w ∧ ∃ target, r = .ok target) w) :
    Succeeds f primaryUniqueName (runScript b script what) (fun err u => err = none ∧ u = t) w := by
  refine Succeeds.bind hb ?_
  rintro r u ⟨rfl, target, rfl⟩
  refine Succeeds.bind (P := fun r v => v = t ∧ ∃ out, r = .ok out)
    (.ask (exists_runScript (hdoes target)) ?_) ?_
  · intro r v h
    obtain ⟨text', rfl, hv⟩ := answers_runScript h
    exact ⟨honly target text' v hv, _, rfl⟩
  · rintro r v ⟨rfl, out, rfl⟩
    exact .pure ⟨rfl, rfl⟩

theorem succeeds_target :
    Succeeds f primaryUniqueName (primaryDg parties)
      (fun r t => t = w ∧ ∃ target, r = .ok target) w := by
  refine succeeds_primaryDg.mono ?_
  rintro r t ⟨rfl, connection, rfl⟩
  exact ⟨rfl, _, rfl⟩

/-- The standby is not listed as one any more. -/
def Unlisted (f : Folding) (dbUniqueName : String) (w : World) : Prop :=
  ∀ c, w.config = some c → ∀ e ∈ c.entries, e.member.role ≠ .primary → ¬ e.Named f dbUniqueName

theorem succeeds_removeStandbyDB {name : String} {c : Config} (hc : w.config = some c) :
    Succeeds f primaryUniqueName (removeStandbyDB (primaryDg parties) name)
      (fun err t => err = none ∧
        t = { w with config := some (c.without f name), linked := false }) w := by
  refine Succeeds.bind succeeds_target ?_
  rintro r t ⟨rfl, target, rfl⟩
  have hdisable : (Script.disableDatabase name).Does f target t "" t := rfl
  refine Succeeds.bind (P := fun r u => u = t ∧ ∃ out, r = .ok out)
    (.ask (exists_runScript hdisable) ?_) ?_
  · intro r u h
    obtain ⟨text, rfl, hu⟩ := answers_runScript h
    exact ⟨hu, _, rfl⟩
  · rintro r u ⟨rfl, out, rfl⟩
    have hremove : (Script.removeDatabase name).Does f target u ""
        { u with config := some (c.without f name), linked := false } := ⟨c, hc, rfl⟩
    refine Succeeds.bind (P := fun r v =>
      v = { u with config := some (c.without f name), linked := false } ∧ ∃ out, r = .ok out)
      (.ask (exists_runScript hremove) ?_) ?_
    · intro r v h
      obtain ⟨text, rfl, c', hc', hv⟩ := answers_runScript h
      obtain rfl : c = c' := Option.some.inj (hc.symm.trans hc')
      exact ⟨hv, _, rfl⟩
    · rintro r v ⟨rfl, out, rfl⟩
      exact .pure ⟨rfl, rfl⟩

theorem succeeds_orFail {text : String} {err : Option String} {P : Unit → World → Prop}
    (herr : err = none) (hP : P () w) : Succeeds f primaryUniqueName (orFail text err) P w := by
  subst herr
  exact hP

theorem succeeds_removeDataGuardConfig
    (hascii : parties.dbUniqueName.toList.all (·.toNat < 128) = true)
    (hw : Consistent f primaryUniqueName w) :
    Succeeds f primaryUniqueName (removeDataGuardConfig f.toCasing parties f.toLower)
      (fun _ t => Unlisted f parties.dbUniqueName t) w := by
  refine Succeeds.bind (succeeds_existsSomewhere hw) ?_
  rintro (- | -) t ⟨rfl, hshown⟩
  · refine .pure ?_
    intro c hc
    have hnone : t.config.isSome = true := by rw [hc]; rfl
    exact absurd (hshown.mpr hnone) (by decide)
  · obtain ⟨c, hc⟩ := Option.isSome_iff_exists.mp (hshown.mp rfl)
    refine Succeeds.bind (succeeds_members hw hc) ?_
    rintro r u ⟨rfl, m, rfl, hreads⟩
    simp only
    split
    · have hremove : ∀ target, Script.removeConfiguration.Does f target u ""
          { u with config := none, linked := false } := fun _ => rfl
      refine Succeeds.bind (succeeds_script hremove (fun _ _ _ h => h) succeeds_target) ?_
      rintro err v ⟨rfl, rfl⟩
      exact succeeds_orFail rfl fun c hc => by cases hc
    · split
      · refine Succeeds.bind (succeeds_removeStandbyDB hc) ?_
        rintro err v ⟨rfl, rfl⟩
        refine succeeds_orFail rfl ?_
        intro c' hc' e he _ hname
        obtain rfl := Option.some.inj hc'
        have hkept := (List.mem_filter.mp he).2
        rw [decide_eq_true_eq] at hkept
        exact hkept ((named_toLower_iff hascii e).mpr hname)
      · next hcontains =>
        refine .pure ?_
        intro c' hc' e he hrole hname
        obtain rfl : c = c' := Option.some.inj (hc.symm.trans hc')
        exact hcontains (hreads.standbyContains_iff.mpr ⟨e, he, hrole, hname⟩)

theorem succeeds_rowsOrNone {q : LocalQuery} (hex : ∃ rows, q.Gives f w rows) :
    Succeeds f primaryUniqueName (rowsOrNone q) (fun rows t => t = w ∧ q.Gives f w rows) w := by
  obtain ⟨rows, hrows⟩ := hex
  obtain ⟨r, hr⟩ := exists_replies rows
  refine Succeeds.bind (P := fun r t => t = w ∧ ∃ rows, Replies r rows ∧ q.Gives f w rows)
    (.ask ⟨r, w, ⟨rows, hr, hrows⟩, rfl⟩ ?_) ?_
  · rintro r t ⟨hrows, rfl⟩
    exact ⟨rfl, hrows⟩
  · rintro r t ⟨rfl, rows, ⟨messages, rfl, hparse⟩, hgives⟩
    have hfetch : fetchRows q.sql (.ok messages) = .ok rows := hparse
    rw [hfetch]
    exact .pure ⟨rfl, hgives⟩

theorem succeeds_unlessRows {q : LocalQuery} {statement : Statement} {text : String}
    (hex : ∃ rows, q.Gives f w rows)
    (hdo : q.Gives f w [] → ∃ t, statement.Does w t) {P : World → Prop}
    (hrows : ∀ row rows, q.Gives f w (row :: rows) → P w)
    (hdoes : ∀ t, statement.Does w t → P t) :
    Succeeds f primaryUniqueName (unlessRows q statement text) (fun _ t => P t) w := by
  refine Succeeds.bind (succeeds_rowsOrNone hex) ?_
  rintro (_ | ⟨row, rows⟩) t ⟨rfl, hgives⟩
  · obtain ⟨u, hu⟩ := hdo hgives
    refine Succeeds.bind (P := fun r v => r = none ∧ statement.Does t v)
      (.ask ⟨none, u, rfl, hu⟩ fun r v h => h) ?_
    rintro r v ⟨rfl, hv⟩
    exact succeeds_orFail rfl (hdoes v hv)
  · exact .pure (hrows row rows hgives)

theorem exists_rows (b : Bool) : ∃ rows : List Row, rows = [] ↔ b = false := by
  cases b with
  | false => exact ⟨[], by simp⟩
  | true => exact ⟨[[]], by simp⟩

theorem succeeds_promoteStandby (w : World) :
    Succeeds f primaryUniqueName promoteStandby
      (fun _ t => t.config = w.config ∧ t.isPrimary = true ∧ t.isOpen = true) w := by
  have hcancel : Succeeds f primaryUniqueName cancelRecovery
      (fun _ t => t.config = w.config) w := by
    refine Succeeds.bind (succeeds_rowsOrNone (q := .listMRP) (exists_rows w.recovering)) ?_
    rintro (_ | ⟨row, rows⟩) t ⟨rfl, -⟩
    · exact .pure rfl
    · refine Succeeds.bind (P := fun _ u => u.config = t.config)
        (.ask ⟨none, _, rfl, rfl⟩ ?_) fun _ u hu => .pure hu
      rintro r u ⟨-, rfl⟩
      rfl
  refine Succeeds.bind hcancel fun _ t ht => ?_
  refine Succeeds.bind (P := fun _ u => u.config = w.config ∧ u.isPrimary = true)
    (succeeds_unlessRows (q := .listPrimaryRole) (exists_rows t.isPrimary) ?_ ?_ ?_)
    fun _ u hu => ?_
  · exact fun h => ⟨_, h.mp rfl, rfl⟩
  · intro row rows h
    exact ⟨ht, by simpa using mt h.mpr (List.cons_ne_nil row rows)⟩
  · rintro u ⟨-, rfl⟩
    exact ⟨ht, rfl⟩
  · refine succeeds_unlessRows (q := .listOpenDatabase) (exists_rows u.isOpen) ?_ ?_ ?_
    · exact fun h => ⟨_, h.mp rfl, rfl⟩
    · intro row rows h
      exact ⟨hu.1, hu.2, by simpa using mt h.mpr (List.cons_ne_nil row rows)⟩
    · rintro v ⟨-, rfl⟩
      exact ⟨hu.1, hu.2, rfl⟩

theorem refines_sound (dbUniqueName : String) :
    Refines (sound f primaryUniqueName) (serve f primaryUniqueName dbUniqueName) := by
  intro w q r t h
  rcases h with h | ⟨-, hfails, rfl⟩
  · exact ⟨t, .inl h, .inl rfl⟩
  · refine ⟨t, .inr ⟨hfails, ?_⟩, .inl rfl⟩
    cases q with
    | runDataGuard target scripts => exact ⟨[], [], List.nil_prefix, rfl, rfl⟩
    | _ => exact .inl rfl

theorem toUpper_toLower (c : Char) : c.toLower.toUpper = c.toUpper := by
  by_cases h : c.toNat ≥ 65 ∧ c.toNat ≤ 90
  · have hletters : ∀ n : Fin 26, (Char.ofNat (n.val + 65)).toLower.toUpper =
        (Char.ofNat (n.val + 65)).toUpper := by
      decide
    have hc := hletters ⟨c.toNat - 65, by omega⟩
    simp only [Nat.sub_add_cancel h.1, Char.ofNat_toNat] at hc
    exact hc
  · have hsame : c.toLower = c := by
      unfold Char.toLower
      rw [dif_neg]
      intro hr
      exact h hr
    rw [hsame]

/-- The letters of one script. -/
def asciiFolding : Folding where
  toCasing := Databases.Users.asciiCasing
  toLower s := String.ofList (s.toList.map Char.toLower)
  equalFold_comm s t := decide_eq_decide.mpr eq_comm
  equalFold_trans s t u hst htu :=
    decide_eq_true ((of_decide_eq_true hst).trans (of_decide_eq_true htu))
  equalFold_toLower s _ := by
    refine decide_eq_true ?_
    rw [String.toList_ofList, List.map_map]
    exact List.map_congr_left fun c _ => toUpper_toLower c

def sampleParties : Parties where
  primary := ⟨"10.0.0.1", 6021, "GCLOUD.gke"⟩
  user := "sys"
  dbUniqueName := "mydb_standby"
  standbyHost := "10.0.0.2"
  standbyPort := 6021
  passwordFileGcsPath := "gs://bucket/orapw"

/-- A primary with two standbys. -/
def sampleConfig : Config where
  name := "operator_managed"
  entries := [⟨⟨"gcloud_mydb", .primary⟩, "10.0.0.1:6021/GCLOUD.gke"⟩,
    ⟨⟨"mydb_standby", .physicalStandby⟩, "10.0.0.2:6021/GCLOUD.gke"⟩,
    ⟨⟨"mydb_report", .logicalStandby⟩, "10.0.0.3:6021/GCLOUD.gke"⟩]

def sampleWorld : World where
  listener := true
  stage := .mounted
  standbyLogs := 4
  brokerStart := true
  config := some sampleConfig
  linked := true
  recovering := true
  isPrimary := false
  isOpen := false

theorem consistent_sampleWorld : Consistent asciiFolding "gcloud_mydb" sampleWorld := by
  rintro c ⟨⟩
  exact ⟨by decide +kernel, by decide +kernel, by decide +kernel, by decide +kernel,
    by decide +kernel, by decide +kernel⟩

end Completion

end ElCarro.StandbyDR.DataGuard
