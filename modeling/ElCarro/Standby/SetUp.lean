import ElCarro.Standby.Promotion

/-! # Setting up a standby

The tasks bring a standby into the configuration and see to its listener, its database and its
broker. Whatever fails and wherever they are cut off, no member leaves the configuration and
nobody but the standby and the primary is given another identifier. When all of them succeed
the standby is set up, and then they find nothing to do.
-/

namespace ElCarro.StandbyDR.DataGuard

open Dialogue

section Joining

variable (f : Folding) (primaryUniqueName : String) (parties : Parties)

/-- Names that the broker accepts for two databases, and identifiers that it prints. -/
structure Parties.Proper : Prop where
  primary : Broker.IsUniqueName primaryUniqueName.toList
  standby : Broker.IsUniqueName parties.dbUniqueName.toList
  wantPrimary : Broker.IsWord (wantPrimary parties).toList ∧
    Broker.quote ∉ (wantPrimary parties).toList
  wantStandby : Broker.IsWord (wantStandby parties).toList ∧
    Broker.quote ∉ (wantStandby parties).toList
  differ : f.equalFold primaryUniqueName parties.dbUniqueName = false

/-- The member is still there, with its role; only the primary and the standby may have got
another identifier. -/
def Config.Carries (c : Config) (e : Entry) : Prop :=
  ∃ e' ∈ c.entries, e'.member = e.member ∧
    (¬ e.Named f primaryUniqueName → ¬ e.Named f parties.dbUniqueName → e' = e)

structure Joins (w t : World) : Prop extends Grows w t where
  carries : ∀ c, w.config = some c → ∃ c', t.config = some c' ∧ c'.name = c.name ∧
    ∀ e ∈ c.entries, c'.Carries f primaryUniqueName parties e
  consistent : Consistent f primaryUniqueName w → Consistent f primaryUniqueName t

/-- What the tasks run in the broker of the primary. -/
def Script.Joins : Script → Prop
  | .showConfiguration | .showIdentifier _ | .enableConfiguration => True
  | .createConfiguration name identifier =>
      name = primaryUniqueName ∧ identifier = wantPrimary parties
  | .addDatabase name identifier => name = parties.dbUniqueName ∧ identifier = wantStandby parties
  | .setIdentifier name identifier =>
      name = parties.dbUniqueName ∧ identifier = wantStandby parties ∨
        name = primaryUniqueName ∧ identifier = wantPrimary parties
  | _ => False

variable {f primaryUniqueName parties} {w t u : World} {c : Config}

theorem carries_self {e : Entry} (he : e ∈ c.entries) : c.Carries f primaryUniqueName parties e :=
  ⟨e, he, rfl, fun _ _ => rfl⟩

theorem Calm.joins (h : Calm w t) : Joins f primaryUniqueName parties w t := by
  refine ⟨h.toGrows, ?_, ?_⟩
  · intro c hc
    exact ⟨c, h.config.trans hc, rfl, fun e he => carries_self he⟩
  · intro hw c hc
    exact hw c (h.config.symm.trans hc)

instance : Std.Refl (Joins f primaryUniqueName parties) := ⟨fun w => (Calm.refl w).joins⟩

instance : IsTrans World (Joins f primaryUniqueName parties) := by
  refine ⟨fun w t u hwt htu => ⟨hwt.toGrows.trans htu.toGrows, ?_, htu.consistent ∘ hwt.consistent⟩⟩
  intro c hc
  obtain ⟨c', hc', hname, hcarries⟩ := hwt.carries c hc
  obtain ⟨c'', hc'', hname', hcarries'⟩ := htu.carries c' hc'
  refine ⟨c'', hc'', hname'.trans hname, ?_⟩
  intro e he
  obtain ⟨e', he', hmember, hsame⟩ := hcarries e he
  obtain ⟨e'', he'', hmember', hsame'⟩ := hcarries' e' he'
  refine ⟨e'', he'', hmember'.trans hmember, ?_⟩
  intro hprimary hstandby
  obtain rfl := hsame hprimary hstandby
  exact hsame' hprimary hstandby

theorem isWord_defaultDGConfigName : Broker.IsWord defaultDGConfigName.toList := by
  decide +kernel

/-- A new configuration has the primary alone. -/
theorem joins_create (hp : parties.Proper f primaryUniqueName) (hc : w.config = none) :
    Joins f primaryUniqueName parties w { w with
      config := some ⟨defaultDGConfigName,
        [⟨⟨primaryUniqueName, .primary⟩, wantPrimary parties⟩]⟩ } := by
  refine ⟨⟨id, id, id, id, id⟩, ?_, ?_⟩
  · intro c hc'
    cases hc.symm.trans hc'
  · intro _ c' hc'
    obtain rfl := Option.some.inj hc'
    refine ⟨isWord_defaultDGConfigName, ?_, ?_, List.pairwise_singleton _ _,
      ⟨_, List.mem_singleton_self _, rfl⟩, ?_⟩
    · intro e he
      obtain rfl := List.mem_singleton.mp he
      exact hp.primary
    · intro e he
      obtain rfl := List.mem_singleton.mp he
      exact hp.wantPrimary
    · intro e he _
      obtain rfl := List.mem_singleton.mp he
      exact f.equalFold_self _

theorem joins_add (hp : parties.Proper f primaryUniqueName) (hc : w.config = some c)
    (hnew : ∀ e ∈ c.entries, ¬ e.Named f parties.dbUniqueName) :
    Joins f primaryUniqueName parties w
      { w with config := some (c.add parties.dbUniqueName (wantStandby parties)) } := by
  refine ⟨⟨id, id, id, id, id⟩, ?_, ?_⟩
  · intro c' hc'
    obtain rfl : c = c' := Option.some.inj (hc.symm.trans hc')
    exact ⟨_, rfl, rfl, fun e he => carries_self (List.mem_append_left _ he)⟩
  · intro hw c' hc'
    obtain rfl := Option.some.inj hc'
    have hcons := hw c hc
    obtain ⟨p, hpmem, hrole⟩ := hcons.primary
    refine ⟨hcons.name, ?_, ?_, ?_, ⟨p, List.mem_append_left _ hpmem, hrole⟩, ?_⟩
    · rintro e he
      rcases List.mem_append.mp he with he | he
      · exact hcons.names e he
      · obtain rfl := List.mem_singleton.mp he
        exact hp.standby
    · rintro e he
      rcases List.mem_append.mp he with he | he
      · exact hcons.identifiers e he
      · obtain rfl := List.mem_singleton.mp he
        exact hp.wantStandby
    · refine List.pairwise_append.mpr ⟨hcons.distinct, List.pairwise_singleton _ _, ?_⟩
      intro d hd e he
      obtain rfl := List.mem_singleton.mp he
      exact hnew d hd
    · intro e he hrole'
      rcases List.mem_append.mp he with he | he
      · exact hcons.isPrimary e he hrole'
      · obtain rfl := List.mem_singleton.mp he
        cases hrole'

theorem mem_setIdentifier {name identifier : String} {e : Entry} :
    e ∈ (c.setIdentifier f name identifier).entries ↔
      ∃ d ∈ c.entries, (if d.Named f name then { d with identifier } else d) = e := by
  rw [Config.setIdentifier, List.mem_map]

theorem member_setIdentifier (name identifier : String) (d : Entry) :
    (if d.Named f name then { d with identifier } else d).member = d.member := by
  split <;> rfl

theorem joins_set {name identifier : String} (hc : w.config = some c)
    (hname : name = parties.dbUniqueName ∨ name = primaryUniqueName)
    (hword : Broker.IsWord identifier.toList ∧ Broker.quote ∉ identifier.toList) :
    Joins f primaryUniqueName parties w
      { w with config := some (c.setIdentifier f name identifier) } := by
  refine ⟨⟨id, id, id, id, id⟩, ?_, ?_⟩
  · intro c' hc'
    obtain rfl : c = c' := Option.some.inj (hc.symm.trans hc')
    refine ⟨_, rfl, rfl, ?_⟩
    intro e he
    refine ⟨_, mem_setIdentifier.mpr ⟨e, he, rfl⟩, member_setIdentifier name identifier e, ?_⟩
    intro hprimary hstandby
    rcases hname with rfl | rfl
    · exact if_neg hstandby
    · exact if_neg hprimary
  · intro hw c' hc'
    obtain rfl := Option.some.inj hc'
    have hcons := hw c hc
    obtain ⟨p, hpmem, hrole⟩ := hcons.primary
    refine ⟨hcons.name, ?_, ?_, ?_,
      ⟨_, mem_setIdentifier.mpr ⟨p, hpmem, rfl⟩, ?_⟩, ?_⟩
    · intro e he
      obtain ⟨d, hd, rfl⟩ := mem_setIdentifier.mp he
      rw [member_setIdentifier]
      exact hcons.names d hd
    · intro e he
      obtain ⟨d, hd, rfl⟩ := mem_setIdentifier.mp he
      split
      · exact hword
      · exact hcons.identifiers d hd
    · refine List.pairwise_map.mpr (hcons.distinct.imp ?_)
      intro d e hde
      rw [Entry.Named, member_setIdentifier, member_setIdentifier]
      exact hde
    · rw [member_setIdentifier]
      exact hrole
    · intro e he hrole'
      obtain ⟨d, hd, rfl⟩ := mem_setIdentifier.mp he
      rw [member_setIdentifier] at hrole'
      rw [Entry.Named, member_setIdentifier]
      exact hcons.isPrimary d hd hrole'

theorem joins_does (hp : parties.Proper f primaryUniqueName) {target : Target} {script : Script}
    {text : String} (hscript : script.Joins primaryUniqueName parties)
    (h : script.Does f target w text t) : Joins f primaryUniqueName parties w t := by
  cases script with
  | showConfiguration => exact h.1 ▸ Std.Refl.refl t
  | showIdentifier name => exact h.1 ▸ Std.Refl.refl t
  | enableConfiguration => exact h ▸ Std.Refl.refl t
  | createConfiguration name identifier =>
    obtain ⟨rfl, rfl⟩ := hscript
    exact h.2 ▸ joins_create hp h.1
  | addDatabase name identifier =>
    obtain ⟨rfl, rfl⟩ := hscript
    obtain ⟨c, hc, hnew, rfl⟩ := h
    exact joins_add hp hc hnew
  | setIdentifier name identifier =>
    obtain ⟨c, hc, rfl⟩ := h
    rcases hscript with ⟨rfl, rfl⟩ | ⟨rfl, rfl⟩
    · exact joins_set hc (.inl rfl) hp.wantStandby
    · exact joins_set hc (.inr rfl) hp.wantPrimary
  | removeConfiguration => exact hscript.elim
  | disableDatabase name => exact hscript.elim
  | removeDatabase name => exact hscript.elim

theorem joins_runScripts (hp : parties.Proper f primaryUniqueName) {target : Target}
    {scripts : List Script} {out : List String}
    (hscripts : ∀ script ∈ scripts, script.Joins primaryUniqueName parties)
    (h : RunScripts f target scripts w out t) : Joins f primaryUniqueName parties w t := by
  induction scripts generalizing w out with
  | nil => exact h.2 ▸ Std.Refl.refl t
  | cons script scripts ih =>
    obtain ⟨text, rest, u, -, hdoes, hrest⟩ := h
    have hwu := joins_does hp (hscripts script List.mem_cons_self) hdoes
    have hut := ih (fun s hs => hscripts s (List.mem_cons_of_mem script hs)) hrest
    exact IsTrans.trans w u t hwu hut

/-- All scripts of a request have run when it succeeds, and the first of them when it fails. -/
theorem serve_scripts (hp : parties.Proper f primaryUniqueName) {target : Target}
    {scripts : List Script} {r : Except String (List String)}
    (hscripts : ∀ script ∈ scripts, script.Joins primaryUniqueName parties)
    (h : serve f primaryUniqueName parties.dbUniqueName w (.runDataGuard target scripts) r t) :
    Joins f primaryUniqueName parties w t ∧
      ∀ out, r = .ok out → ∃ u, RunScripts f target scripts w out u ∧ Calm u t := by
  obtain ⟨u, ⟨out, rfl, hrun⟩ | ⟨⟨err, rfl⟩, done, out, hpre, hrun⟩, hcatch⟩ := h
  · have hwu := joins_runScripts hp hscripts hrun
    refine ⟨IsTrans.trans w u t hwu (calm_catchesUp hcatch).joins, ?_⟩
    rintro out' hout
    obtain rfl := Except.ok.inj hout
    exact ⟨u, hrun, calm_catchesUp hcatch⟩
  · have hwu := joins_runScripts hp (fun s hs => hscripts s (hpre.subset hs)) hrun
    exact ⟨IsTrans.trans w u t hwu (calm_catchesUp hcatch).joins, by rintro out ⟨⟩⟩

end Joining

section Fetching

variable {f : Folding} {primaryUniqueName dbUniqueName : String} {parties : Parties} {w : World}

/-- The values of a column are those of the rows. -/
theorem fetchColumn_replies {function sql : String} {r : Except String (List Message)}
    {rows : List Row} (h : Replies r rows) :
    Metadata.fetchColumn function sql r = rows.mapM (Metadata.singleColumnIn function) := by
  obtain ⟨messages, rfl, hparse⟩ := h
  simp only [Metadata.fetchColumn, hparse]

/-- What is fetched from the standby is what the database has. -/
theorem within_fetchLocal (q : LocalQuery) (w : World) :
    Within (serve f primaryUniqueName dbUniqueName) Calm (fetchLocal q)
      (fun r _ => ∀ vals, r = .ok vals → ∃ rows, q.Gives f w rows ∧
        ∃ function, rows.mapM (Metadata.singleColumnIn function) = .ok vals) w := by
  refine Within.bind (P := fun r _ => ∀ vals, Metadata.fetchLocal q.sql r = .ok vals →
    ∃ rows, q.Gives f w rows ∧
      ∃ function, rows.mapM (Metadata.singleColumnIn function) = .ok vals) (.request ?_) ?_
  · intro r t hserve
    refine ⟨calm_serve (q := .query q) trivial hserve, ?_⟩
    intro vals hvals
    obtain ⟨u, ⟨⟨rows, hreplies, hgives⟩, -⟩ | ⟨⟨err, rfl⟩, -⟩, -⟩ := hserve
    · exact ⟨rows, hgives, _, (fetchColumn_replies hreplies).symm.trans hvals⟩
    · cases hvals
  · intro r t _ hr
    exact .pure hr

theorem only_fetchPrimary (q : PrimaryQuery) : Only Request.Calm (fetchPrimary parties q) := by
  refine (only_ask (q := .password) trivial).bind ?_
  rintro (err | passwd)
  · exact only_pure
  · exact (only_ask (q := .queryPrimary q _) trivial).bind fun _ => only_pure

theorem only_fetchLocal (q : LocalQuery) : Only Request.Calm (fetchLocal q) :=
  (only_ask (q := .query q) trivial).bind fun _ => only_pure

/-- The name that is fetched from the primary is its own. -/
theorem within_fetchUniqueName (w : World) :
    Within (serve f primaryUniqueName dbUniqueName) Calm (fetchPrimary parties .dbUniqueName)
      (fun r _ => ∀ vals, r = .ok vals → vals = [primaryUniqueName]) w := by
  refine Within.bind (within_calm (only_ask (q := .password) trivial) w) ?_
  rintro (err | passwd) t - -
  · exact .pure (by simp)
  · refine Within.bind (P := fun r _ => ∀ vals, Metadata.fetchColumn
      "fetchAndParseSingleColumnMultiRowQueries" PrimaryQuery.dbUniqueName.sql r = .ok vals →
        vals = [primaryUniqueName]) (.request ?_) ?_
    · intro r u hserve
      refine ⟨calm_serve (q := .queryPrimary .dbUniqueName _) trivial hserve, ?_⟩
      intro vals hvals
      obtain ⟨v, ⟨⟨rows, hreplies, hgives⟩, -⟩ | ⟨⟨err, rfl⟩, -⟩, -⟩ := hserve
      · rw [fetchColumn_replies hreplies, hgives] at hvals
        exact (Except.ok.inj hvals).symm
      · cases hvals
    · intro r u _ hr
      exact .pure hr

theorem only_first (vals : List String) : Only Request.Calm (first vals) := by
  cases vals with
  | nil => exact only_fail
  | cons v vals => exact only_pure

theorem only_orFail (text : String) (err : Option String) :
    Only Request.Calm (orFail text err) := by
  cases err with
  | none => exact only_pure
  | some err => exact only_fail

/-- A request that reports no error has done what it does. -/
theorem within_orFail_ask {q : Request} {text : String} (hq : q.Calm)
    {errOf : Reply q → Option String} {done : World → Prop}
    (hcalm : ∀ w t, Calm w t → done w → done t)
    (hdone : ∀ r t, serve f primaryUniqueName dbUniqueName w q r t → errOf r = none → done t) :
    Within (serve f primaryUniqueName dbUniqueName) Calm
      (ask q >>= fun r => orFail text (errOf r)) (fun _ t => done t) w := by
  refine Within.bind (P := fun r t => errOf r = none → done t) (.request ?_) ?_
  · intro r t hserve
    exact ⟨calm_serve hq hserve, hdone r t hserve⟩
  · intro r t _ hr
    refine (within_orFail text (errOf r)).mono ?_
    intro _ u htu hnone
    exact hcalm t u htu (hr hnone)

end Fetching

section Standby

variable {f : Folding} {primaryUniqueName dbUniqueName : String} {parties : Parties}

theorem within_ensureListener (w : World) :
    Within (serve f primaryUniqueName dbUniqueName) Calm (ensureListener parties)
      (fun _ t => t.listener = true) w := by
  refine Within.bind (P := fun r t => r = none → t.listener = true) (.request ?_) ?_
  · intro r t hserve
    refine ⟨calm_serve (q := .tnsPing _) trivial hserve, ?_⟩
    rintro rfl
    obtain ⟨u, ⟨-, hlistener, rfl⟩ | ⟨⟨err, herr⟩, -⟩, hcatch⟩ := hserve
    · exact (calm_catchesUp hcatch).listener hlistener
    · cases herr
  · rintro (_ | err) t - hr
    · exact .pure (hr rfl)
    · refine Within.bind (within_calm (only_fetchPrimary .dbName) t) ?_
      rintro (err | dbName) u - -
      · exact .fail _
      · refine Within.bind (within_calm (only_first dbName) u) fun name v _ _ => ?_
        refine within_orFail_ask (q := .createListener name _) trivial
          (fun w t h => h.listener) ?_
        rintro r x ⟨y, ⟨-, rfl⟩ | ⟨⟨err, rfl⟩, -⟩, hcatch⟩ hnone
        · exact (calm_catchesUp hcatch).listener rfl
        · cases hnone

theorem within_ensureDatabase (w : World) :
    Within (serve f primaryUniqueName dbUniqueName) Calm (ensureDatabase parties)
      (fun _ t => t.stage = .mounted) w := by
  refine Within.bind (within_fetchLocal .openMode w) ?_
  rintro (err | vals) t hwt hr
  · refine Within.bind (within_calm (only_fetchPrimary .dbName) t) ?_
    rintro (err | dbName) u - -
    · exact .fail _
    · refine Within.bind (within_calm (only_first dbName) u) fun name v _ _ => ?_
      refine Within.bind (within_calm (only_ask (q := .startupNomount name) trivial) v) ?_
      intro r x _ _
      refine Within.bind (within_calm (only_orFail _ r) x) fun _ y _ _ => ?_
      refine within_orFail_ask (q := .execute .mountStandby) trivial (fun w t h => h.stage) ?_
      rintro r z ⟨z', ⟨-, -, rfl⟩ | ⟨⟨err, rfl⟩, -⟩, hcatch⟩ hnone
      · exact (calm_catchesUp hcatch).stage rfl
      · cases hnone
  · obtain ⟨rows, ⟨hmounted, -⟩, -⟩ := hr vals rfl
    exact .pure (hwt.stage hmounted)

theorem only_addStandbyLogs (rows : List Row) : Only Request.Calm (addStandbyLogs rows) := by
  induction rows with
  | nil => exact only_pure
  | cons row rows ih =>
    rw [addStandbyLogs]
    split
    · exact only_pure
    · next size _ =>
      refine (only_ask (q := .execute (.addStandbyLogfile size)) trivial).bind ?_
      rintro (_ | err)
      · exact ih
      · exact only_pure

theorem only_ensureStandbyLog : Only Request.Calm (ensureStandbyLog parties) := by
  refine (only_ask (q := .query .standbyLog) trivial).bind fun r => ?_
  split
  · exact only_pure
  · exact only_pure
  · refine (only_ask (q := .password) trivial).bind ?_
    rintro (err | passwd)
    · exact only_pure
    · refine (only_ask (q := .queryPrimary .logBytes _) trivial).bind fun r => ?_
      split
      · exact only_pure
      · exact only_pure
      · next row rows _ =>
        refine (only_addStandbyLogs (row :: rows)).bind ?_
        rintro (- | -)
        · exact only_pure
        · exact (only_ask (q := .execute (.addStandbyLogfile _)) trivial).bind fun _ => only_pure

theorem only_brokerStarted (r : Except String (List String)) :
    Only Request.Calm (brokerStarted f.toCasing r) := by
  rcases r with err | vals
  · exact only_fail
  · exact (only_first vals).bind fun _ => only_pure

theorem only_ensureConfigLocation :
    Only Request.Calm (ensureConfigLocation f.toCasing parties) := by
  refine (only_fetchLocal .configLocations).bind ?_
  rintro (err | locations)
  · exact only_fail
  · simp only
    split
    · exact only_pure
    · refine (only_fetchLocal .brokerStart).bind fun r => (only_brokerStarted r).bind ?_
      rintro (- | -)
      · refine (only_ask (q := .execute (.setConfigFiles _)) trivial).bind fun r => ?_
        exact only_orFail _ r
      · exact only_pure

theorem within_ensureDataGuardBrokerEnable (w : World) :
    Within (serve f primaryUniqueName dbUniqueName) Calm (ensureDataGuardBrokerEnable f.toCasing)
      (fun _ t => t.brokerStart = true) w := by
  refine Within.bind (within_fetchLocal .brokerStart w) fun r t hwt hr => ?_
  have hstarted : Within (serve f primaryUniqueName dbUniqueName) Calm
      (brokerStarted f.toCasing r) (fun started u => started = true → u.brokerStart = true) t := by
    rcases r with err | vals
    · exact .fail _
    · obtain ⟨rows, ⟨value, rfl, hvalue⟩, function, hvals⟩ := hr vals rfl
      obtain rfl : [value] = vals := Except.ok.inj hvals
      exact .pure fun h => hwt.brokerStart (hvalue.symm.trans h)
  refine Within.bind hstarted ?_
  rintro (- | -) u - hu
  · refine within_orFail_ask (q := .execute .startBroker) trivial (fun w t h => h.brokerStart) ?_
    rintro r x ⟨y, ⟨-, rfl⟩ | ⟨⟨err, rfl⟩, -⟩, hcatch⟩ hnone
    · exact (calm_catchesUp hcatch).brokerStart rfl
    · cases hnone
  · exact .pure (hu rfl)

end Standby

section Configuring

variable {f : Folding} {primaryUniqueName : String} {parties : Parties} {w t : World}

/-- A part that changes no configuration, as part of a task that does. -/
theorem joins_within {α : Type} {x : T α} {P : α → World → Prop}
    (hx : Within (serve f primaryUniqueName parties.dbUniqueName) Calm x P w) :
    Within (serve f primaryUniqueName parties.dbUniqueName) (Joins f primaryUniqueName parties) x
      (fun a t => Calm w t ∧ P a t) w :=
  hx.from (fun _ h => h.joins) fun _ _ h ha => ⟨h, ha⟩

theorem only_downloadPasswordFile : Only Request.Calm (downloadPasswordFile parties) := by
  refine (only_fetchPrimary .dbName).bind ?_
  rintro (err | dbName)
  · exact only_pure
  · refine (only_first dbName).bind fun name => ?_
    refine (only_ask (q := .downloadDirectory _ _) trivial).bind ?_
    rintro (_ | err) <;> exact only_pure

/-- The scripts have run when no error is returned. -/
theorem within_runOnPrimary (hp : parties.Proper f primaryUniqueName) {accessing running : String}
    {scripts : List Script}
    (hscripts : ∀ script ∈ scripts, script.Joins primaryUniqueName parties) (w : World) :
    Within (serve f primaryUniqueName parties.dbUniqueName) (Joins f primaryUniqueName parties)
      (runOnPrimary parties accessing running scripts)
      (fun _ t => ∃ target out u v, Calm w u ∧ RunScripts f target scripts u out v ∧ Calm v t)
      w := by
  refine Within.bind (joins_within (within_calm (only_ask (q := .password) trivial) w)) ?_
  rintro (err | passwd) u - ⟨hwu, -⟩
  · exact .fail _
  · refine Within.bind (P := fun r t => ∀ out, r = .ok out →
      ∃ target v, RunScripts f target scripts u out v ∧ Calm v t) (.request ?_) ?_
    · intro r t hserve
      obtain ⟨hjoins, hrun⟩ := serve_scripts hp hscripts hserve
      exact ⟨hjoins, fun out hout => ⟨_, hrun out hout⟩⟩
    · rintro (err | out) t - hr
      · exact .fail _
      · obtain ⟨target, v, hrun, hcalm⟩ := hr out rfl
        exact .pure ⟨target, out, u, v, hwu, hrun, hcalm⟩

theorem within_runScript (hp : parties.Proper f primaryUniqueName) {script : Script}
    {what : String → String} (hscript : script.Joins primaryUniqueName parties) (w : World) :
    Within (serve f primaryUniqueName parties.dbUniqueName) (Joins f primaryUniqueName parties)
      (runScript (primaryDg parties) script what)
      (fun err t => err = none →
        ∃ target text u v, Calm w u ∧ script.Does f target u text v ∧ Calm v t) w := by
  refine Within.bind (joins_within (within_calm only_primaryDg w)) ?_
  rintro (err | target) u - ⟨hwu, -⟩
  · exact .pure (by simp)
  · refine Within.bind (P := fun r t => ∀ out, r = .ok out →
      ∃ text v, script.Does f target u text v ∧ Calm v t) (.request ?_) ?_
    · intro r t hserve
      have hscripts : ∀ s ∈ [script], s.Joins primaryUniqueName parties := by
        intro s hs
        obtain rfl := List.mem_singleton.mp hs
        exact hscript
      obtain ⟨hjoins, hrun⟩ := serve_scripts hp hscripts hserve
      refine ⟨hjoins, ?_⟩
      intro out hout
      obtain ⟨v, ⟨text, rest, v', rfl, hdoes, rfl, rfl⟩, hcalm⟩ := hrun out hout
      exact ⟨text, v, hdoes, hcalm⟩
    · rintro (err | out) t - hr
      · exact .pure (by simp)
      · obtain ⟨text, v, hdoes, hcalm⟩ := hr out rfl
        exact .pure fun _ => ⟨target, text, u, v, hwu, hdoes, hcalm⟩

theorem calm_showIdentifier (target : Target) (name : String) :
    (Request.runDataGuard target [.showIdentifier name]).Calm := by
  intro script h
  exact .inr ⟨name, List.mem_singleton.mp h⟩

/-- The identifier that is read is the one of a member with the name; a broker that is asked
`near` the standby has the configuration. -/
theorem within_connectIdentifier {near : Prop} {b : T (Except String Target)} {name : String}
    (hb : Within (serve f primaryUniqueName parties.dbUniqueName) Calm b
      (fun r _ => near → r = .ok .standby) w) :
    Within (serve f primaryUniqueName parties.dbUniqueName) Calm (connectIdentifier b name)
      (fun r t => ∀ got, r = .ok got → (near → t.linked = true) ∧
        ∃ c, t.config = some c ∧ ∃ e ∈ c.entries, e.Named f name ∧ e.identifier = got) w := by
  refine hb.bind ?_
  rintro (err | target) u - hnear
  · exact .pure (by simp)
  · refine Within.bind (P := fun r t => ∀ out, r = .ok out → (near → t.linked = true) ∧
      ∃ c text, t.config = some c ∧ out = [text] ∧
        ∃ e ∈ c.entries, e.Named f name ∧ PrintsIdentifier e.identifier text) (.request ?_) ?_
    · intro r t hserve
      refine ⟨calm_serve (calm_showIdentifier target name) hserve, ?_⟩
      rintro out rfl
      obtain ⟨v, hcatch, ⟨text, hr, rfl, hlinked, c, hc, hentry⟩ | ⟨⟨err, hr⟩, -⟩⟩ :=
        serve_script hserve
      · have hvt := calm_catchesUp hcatch
        refine ⟨fun h => hvt.linked (hlinked (Except.ok.inj (hnear h))), ?_⟩
        exact ⟨c, text, hvt.config.trans hc, Except.ok.inj hr, hentry⟩
      · cases hr
    · rintro (err | out) t - hr
      · exact .pure (by simp)
      · obtain ⟨hlinked, c, text, hc, rfl, e, he, hname, shown, hproper, rfl, hid⟩ := hr out rfl
        refine .pure ?_
        intro got hgot
        rw [Broker.connectIdentifier_shown hproper] at hgot
        exact ⟨hlinked, c, hc, e, he, hname, hid.symm.trans (Except.ok.inj hgot)⟩

theorem within_standbyDg (w : World) :
    Within (serve f primaryUniqueName parties.dbUniqueName) Calm standbyDg
      (fun r _ => True → r = .ok .standby) w := .pure fun _ => rfl

theorem within_primaryDg (w : World) :
    Within (serve f primaryUniqueName parties.dbUniqueName) Calm (primaryDg parties)
      (fun r _ => False → r = .ok .standby) w :=
  (within_calm only_primaryDg w).mono fun _ _ _ _ => False.elim

theorem within_standbyIdentifier (w : World) :
    Within (serve f primaryUniqueName parties.dbUniqueName) Calm (standbyIdentifier parties)
      (fun got t => ∃ c, t.config = some c ∧
        ∃ e ∈ c.entries, e.Named f parties.dbUniqueName ∧ e.identifier = got) w := by
  refine Within.bind (within_connectIdentifier (within_standbyDg w)) ?_
  rintro (err | got) t - hr
  · refine Within.bind (within_connectIdentifier (within_primaryDg t)) ?_
    rintro (err | got) u - hr
    · exact .fail _
    · exact .pure (hr got rfl).2
  · exact .pure (hr got rfl).2

/-- The standby is in the configuration and is to be reached under the wanted identifier. -/
def Placed (f : Folding) (parties : Parties) (w : World) : Prop :=
  ∃ c, w.config = some c ∧ (∃ e ∈ c.entries, e.Named f parties.dbUniqueName) ∧
    ∀ e ∈ c.entries, e.Named f parties.dbUniqueName → e.identifier = wantStandby parties

theorem Calm.placed (h : Calm w t) (hw : Placed f parties w) : Placed f parties t := by
  obtain ⟨c, hc, hplaced⟩ := hw
  exact ⟨c, h.config.trans hc, hplaced⟩

theorem within_ensureDGConfigExists (hp : parties.Proper f primaryUniqueName) (w : World) :
    Within (serve f primaryUniqueName parties.dbUniqueName) (Joins f primaryUniqueName parties)
      (ensureDGConfigExists parties) (fun _ _ => True) w := by
  refine Within.bind (joins_within (within_calm only_existsSomewhere w)) ?_
  rintro (- | -) t - -
  · refine Within.bind (joins_within (within_calm only_downloadPasswordFile t)) fun err u _ _ => ?_
    refine Within.bind (joins_within (within_calm (only_orFail _ err) u)) fun _ v _ _ => ?_
    refine Within.bind (joins_within (within_fetchUniqueName v)) ?_
    rintro (err | vals) x - ⟨-, hvals⟩
    · exact .fail _
    · obtain rfl := hvals vals rfl
      refine (within_runOnPrimary hp ?_ x).mono fun _ _ _ _ => trivial
      intro script hscript
      rcases List.mem_cons.mp hscript with rfl | hscript
      · exact ⟨rfl, rfl⟩
      rcases List.mem_cons.mp hscript with rfl | hscript
      · exact ⟨rfl, rfl⟩
      · obtain rfl := List.mem_singleton.mp hscript
        trivial
  · exact .pure trivial

theorem placed_add {c : Config}
    (hnew : ∀ e ∈ c.entries, ¬ e.Named f parties.dbUniqueName) :
    Placed f parties
      { w with config := some (c.add parties.dbUniqueName (wantStandby parties)) } := by
  refine ⟨_, rfl, ⟨_, List.mem_append_right _ (List.mem_singleton_self _), f.equalFold_self _⟩, ?_⟩
  intro e he hname
  rcases List.mem_append.mp he with he | he
  · exact absurd hname (hnew e he)
  · obtain rfl := List.mem_singleton.mp he
    rfl

/-- After an identifier was set, those that have the name have the identifier. -/
theorem identifier_setIdentifier {c : Config} {name identifier : String} {e : Entry}
    (he : e ∈ (c.setIdentifier f name identifier).entries) (hname : e.Named f name) :
    e.identifier = identifier := by
  obtain ⟨d, hd, rfl⟩ := mem_setIdentifier.mp he
  have hd' : d.Named f name := by
    rw [Entry.Named, member_setIdentifier] at hname
    exact hname
  rw [if_pos hd']

theorem within_ensureDGConfigStandbyMatch (hp : parties.Proper f primaryUniqueName)
    (hw : Consistent f primaryUniqueName w) :
    Within (serve f primaryUniqueName parties.dbUniqueName) (Joins f primaryUniqueName parties)
      (ensureDGConfigStandbyMatch parties) (fun _ t => Placed f parties t) w := by
  refine Within.bind (joins_within (within_calm (only_configExists only_standbyDg) w)) ?_
  rintro (- | -) t hwt -
  · refine Within.bind (joins_within (within_calm only_downloadPasswordFile t)) fun err u _ _ => ?_
    refine Within.bind (joins_within (within_calm (only_orFail _ err) u)) fun _ v _ _ => ?_
    refine (within_runOnPrimary hp ?_ v).mono ?_
    · intro script hscript
      rcases List.mem_cons.mp hscript with rfl | hscript
      · exact ⟨rfl, rfl⟩
      · obtain rfl := List.mem_singleton.mp hscript
        trivial
    · rintro _ x - ⟨target, out, y, z, -, hrun, hzx⟩
      obtain ⟨-, -, y', -, ⟨c, -, hnew, rfl⟩, -, -, -, -, rfl, -, rfl⟩ := hrun
      exact hzx.placed (placed_add hnew)
  · refine Within.bind (joins_within (within_standbyIdentifier t)) ?_
    rintro got u htu ⟨-, c, hc, e, he, hname, rfl⟩
    have hcons := htu.consistent (hwt.consistent hw) c hc
    split
    · next hwant =>
      refine .pure ⟨c, hc, ⟨e, he, hname⟩, ?_⟩
      intro e' he' hname'
      by_cases heq : e = e'
      · exact heq ▸ hwant
      · exact absurd hname' (hcons.ne_named he he' heq hname)
    · have hscript : (Script.setIdentifier parties.dbUniqueName (wantStandby parties)).Joins
          primaryUniqueName parties := Or.inl ⟨rfl, rfl⟩
      refine Within.bind (within_runScript hp hscript u) fun err v _ hset => ?_
      refine (joins_within (within_orFail _ err)).mono ?_
      rintro _ x - ⟨hvx, hnone⟩
      obtain ⟨target, text, y, z, huy, ⟨c', hc', rfl⟩, hzv⟩ := hset hnone
      obtain rfl : c = c' := Option.some.inj (hc.symm.trans (huy.config.symm.trans hc'))
      refine (hzv.trans hvx).placed ⟨_, rfl, ⟨_, mem_setIdentifier.mpr ⟨e, he, rfl⟩, ?_⟩, ?_⟩
      · rw [Entry.Named, member_setIdentifier]
        exact hname
      · exact fun e' he' hname' => identifier_setIdentifier he' hname'

/-- The primary is to be reached under the wanted identifier. -/
def Matches (parties : Parties) (w : World) : Prop :=
  ∀ c, w.config = some c → ∀ e ∈ c.entries, e.member.role = .primary →
    e.identifier = wantPrimary parties

theorem Calm.matches (h : Calm w t) (hw : Matches parties w) : Matches parties t := by
  intro c hc
  exact hw c (h.config.symm.trans hc)

theorem Config.Consistent.eq_of_named {c : Config} (hc : c.Consistent f primaryUniqueName)
    {d e : Entry} (hd : d ∈ c.entries) (he : e ∈ c.entries) {name : String}
    (hdname : d.Named f name) (hename : e.Named f name) : d = e := by
  by_contra hne
  exact hc.ne_named hd he hne hdname hename

theorem Reads.exists_primary {c : Config} {m : Broker.DgMembers} (h : Reads c m) :
    ∃ e ∈ c.entries, e.member.role = .primary ∧ e.member.name = m.primary := by
  obtain ⟨others, hprimary⟩ := h.primary
  have hmem : m.primary ∈ c.named .primary := hprimary ▸ List.mem_cons_self
  obtain ⟨e, he, hname⟩ := List.mem_map.mp hmem
  obtain ⟨hmem, hrole⟩ := List.mem_filter.mp he
  exact ⟨e, hmem, of_decide_eq_true hrole, hname⟩

/-- Setting the identifier of the primary leaves the one of the standby. -/
theorem placed_setPrimary (hp : parties.Proper f primaryUniqueName) {c : Config}
    (hc : w.config = some c) (hw : Placed f parties w) :
    Placed f parties { w with
      config := some (c.setIdentifier f primaryUniqueName (wantPrimary parties)) } := by
  obtain ⟨c', hc', ⟨e, he, hname⟩, hall⟩ := hw
  obtain rfl : c = c' := Option.some.inj (hc.symm.trans hc')
  refine ⟨_, rfl, ⟨_, mem_setIdentifier.mpr ⟨e, he, rfl⟩, ?_⟩, ?_⟩
  · rw [Entry.Named, member_setIdentifier]
    exact hname
  · intro e' he' hname'
    obtain ⟨d, hd, rfl⟩ := mem_setIdentifier.mp he'
    have hstandby : d.Named f parties.dbUniqueName := by
      rw [Entry.Named, member_setIdentifier] at hname'
      exact hname'
    have hprimary : ¬ d.Named f primaryUniqueName := by
      intro h
      have hsame := f.equalFold_trans _ _ _ ((f.equalFold_comm _ _).trans h) hstandby
      exact absurd (hp.differ.symm.trans hsame) (by decide)
    rw [if_neg hprimary]
    exact hall d hd hstandby

theorem within_ensureDGConfigPrimaryMatch (hp : parties.Proper f primaryUniqueName)
    (hw : Consistent f primaryUniqueName w) (hplaced : Placed f parties w) :
    Within (serve f primaryUniqueName parties.dbUniqueName) (Joins f primaryUniqueName parties)
      (ensureDGConfigPrimaryMatch parties)
      (fun _ t => Placed f parties t ∧ Matches parties t ∧ t.linked = true) w := by
  refine Within.bind (joins_within (within_members only_standbyDg w)) ?_
  rintro (err | m) t hwt ⟨hcalm, hm⟩
  · exact .fail _
  obtain ⟨c, hc, hreads⟩ := hm m rfl
  refine Within.bind (joins_within (within_connectIdentifier (within_standbyDg t))) ?_
  rintro (err | got) u htu ⟨hcalm', hgot⟩
  · exact .fail _
  obtain ⟨hlinked, c', hcu, e, he, hname, rfl⟩ := hgot got rfl
  obtain rfl : c = c' := Option.some.inj (hc.symm.trans (hcalm'.config.symm.trans hcu))
  have hcons := htu.consistent (hwt.consistent hw) c hcu
  have hplacedu : Placed f parties u := hcalm'.placed (hcalm.placed hplaced)
  -- all members that are primaries are the one whose identifier was read
  have honly : ∀ e' ∈ c.entries, e'.member.role = .primary → e' = e := by
    intro e' he' hrole'
    obtain ⟨p, hpmem, hprole, hpname⟩ := hreads.exists_primary
    obtain rfl : p = e := hcons.eq_of_named hpmem he (hpname ▸ f.equalFold_self _) hname
    exact hcons.eq_of_named he' hpmem (hcons.isPrimary e' he' hrole')
      (hcons.isPrimary p hpmem hprole)
  simp only
  split
  · next hwant =>
    refine .pure ⟨hplacedu, ?_, hlinked trivial⟩
    intro c' hc' e' he' hrole'
    obtain rfl : c = c' := Option.some.inj (hcu.symm.trans hc')
    exact honly e' he' hrole' ▸ hwant
  · refine Within.bind (joins_within (within_fetchUniqueName u)) ?_
    rintro (err | vals) v - ⟨huv, hvals⟩
    · exact .fail _
    · obtain rfl := hvals vals rfl
      have hscript : (Script.setIdentifier primaryUniqueName (wantPrimary parties)).Joins
          primaryUniqueName parties := Or.inr ⟨rfl, rfl⟩
      refine Within.bind (P := fun name x => primaryUniqueName = name ∧ x = v)
        (.pure ⟨rfl, rfl⟩) ?_
      rintro _ x - ⟨rfl, rfl⟩
      refine Within.bind (within_runScript hp hscript x) fun err x _ hset => ?_
      refine (joins_within (within_orFail _ err)).mono ?_
      rintro _ y - ⟨hxy, hnone⟩
      obtain ⟨target, text, z, z', hvz, ⟨c', hc', rfl⟩, hzx⟩ := hset hnone
      have hzy := hzx.trans hxy
      have huz := huv.trans hvz
      refine ⟨hzy.placed (placed_setPrimary hp hc' (huz.placed hplacedu)), ?_,
        hzy.linked (huz.linked (hlinked trivial))⟩
      refine hzy.matches ?_
      intro c'' hc'' e' he' hrole'
      obtain rfl := Option.some.inj hc''
      refine identifier_setIdentifier he' ?_
      obtain rfl : c = c' := Option.some.inj (hcu.symm.trans (huz.config.symm.trans hc'))
      obtain ⟨d, hd, rfl⟩ := mem_setIdentifier.mp he'
      rw [member_setIdentifier] at hrole'
      rw [Entry.Named, member_setIdentifier]
      exact hcons.isPrimary d hd hrole'

end Configuring

section Established

variable {f : Folding} {primaryUniqueName : String} {parties : Parties}

/-- What the tasks are to bring about. -/
structure SetUp (f : Folding) (parties : Parties) (w : World) : Prop where
  listener : w.listener = true
  stage : w.stage = .mounted
  brokerStart : w.brokerStart = true
  linked : w.linked = true
  placed : Placed f parties w
  matched : Matches parties w

theorem within_setUpDataGuard (hp : parties.Proper f primaryUniqueName) {w : World}
    (hw : Consistent f primaryUniqueName w) :
    Within (serve f primaryUniqueName parties.dbUniqueName) (Joins f primaryUniqueName parties)
      (setUpDataGuard f.toCasing parties) (fun _ t => SetUp f parties t) w := by
  refine (joins_within (within_ensureListener w)).bind fun _ w₁ h₁ ⟨_, hlistener⟩ => ?_
  refine (joins_within (within_ensureDatabase w₁)).bind fun _ w₂ h₂ ⟨_, hstage⟩ => ?_
  refine (joins_within (within_calm only_ensureStandbyLog w₂)).bind fun _ w₃ h₃ _ => ?_
  refine (joins_within (within_calm only_ensureConfigLocation w₃)).bind fun _ w₄ h₄ _ => ?_
  refine (joins_within (within_ensureDataGuardBrokerEnable w₄)).bind fun _ w₅ h₅ ⟨_, hbroker⟩ => ?_
  refine (within_ensureDGConfigExists hp w₅).bind fun _ w₆ h₆ _ => ?_
  have hcons : Consistent f primaryUniqueName w₆ := h₆.consistent (h₅.consistent (h₄.consistent
    (h₃.consistent (h₂.consistent (h₁.consistent hw)))))
  refine (within_ensureDGConfigStandbyMatch hp hcons).bind fun _ w₇ h₇ hplaced => ?_
  refine (within_ensureDGConfigPrimaryMatch hp (h₇.consistent hcons) hplaced).bind
    fun _ t h₈ ⟨hplaced', hmatched, hlinked⟩ => ?_
  have h₅t : Grows w₅ t := h₆.toGrows.trans (h₇.toGrows.trans h₈.toGrows)
  have h₂t : Grows w₂ t := h₃.toGrows.trans (h₄.toGrows.trans (h₅.toGrows.trans h₅t))
  exact .pure ⟨(h₂.toGrows.trans h₂t).listener hlistener, h₂t.stage hstage,
    h₅t.brokerStart hbroker, hlinked, hplaced', hmatched⟩

theorem proper_sampleParties : sampleParties.Proper asciiFolding "gcloud_mydb" where
  primary := by decide +kernel
  standby := by decide +kernel
  wantPrimary := by decide +kernel
  wantStandby := by decide +kernel
  differ := by decide +kernel

end Established

section Again

variable {f : Folding} {primaryUniqueName : String} {parties : Parties} {w : World}

/-- The program only reads, and ends without an error. -/
def Quiet (f : Folding) (primaryUniqueName : String) {α : Type} (x : T α) (P : α → Prop)
    (w : World) : Prop :=
  Ends (sound f primaryUniqueName) (fun t q => t = w ∧ q.Reads) x (fun a t => t = w ∧ P a)
    (fun _ _ => False) w

theorem Quiet.pure {α : Type} {a : α} {P : α → Prop} (h : P a) :
    Quiet f primaryUniqueName (pure a : T α) P w := ⟨rfl, h⟩

theorem Quiet.bind {α β : Type} {x : T α} {g : α → T β} {P : α → Prop} {P' : β → Prop}
    (hx : Quiet f primaryUniqueName x P w)
    (hg : ∀ a, P a → Quiet f primaryUniqueName (g a) P' w) :
    Quiet f primaryUniqueName (x >>= g) P' w := by
  refine ends_bind.mpr (Ends.mono hx ?_ fun _ _ h => h)
  rintro a t ⟨rfl, ha⟩
  exact hg a ha

/-- A request that reads is answered, as it can be. -/
theorem Quiet.ask {q : Request} {P : Reply q → Prop} (hq : q.Reads)
    (hex : ∃ r, answers f primaryUniqueName w q r w)
    (h : ∀ r t, answers f primaryUniqueName w q r t → t = w ∧ P r) :
    Quiet f primaryUniqueName (ask q) P w := by
  refine ⟨⟨rfl, hq⟩, ?_⟩
  rintro r t (hr | ⟨hno, -⟩)
  · exact h r t hr
  · obtain ⟨r', hr'⟩ := hex
    exact absurd ⟨r', w, hr'⟩ hno

theorem quiet_query {q : LocalQuery} (hex : ∃ rows, q.Gives f w rows) :
    Quiet f primaryUniqueName (ask (.query q))
      (fun r => ∃ rows, Replies r rows ∧ q.Gives f w rows) w := by
  obtain ⟨rows, hrows⟩ := hex
  obtain ⟨r, hr⟩ := exists_replies rows
  refine .ask trivial ⟨r, ⟨rows, hr, hrows⟩, rfl⟩ ?_
  rintro r t ⟨hrows, rfl⟩
  exact ⟨rfl, hrows⟩

theorem quiet_fetchLocal {q : LocalQuery} (hex : ∃ rows, q.Gives f w rows)
    {P : Except String (List String) → Prop}
    (hP : ∀ rows function, q.Gives f w rows →
      P (rows.mapM (Metadata.singleColumnIn function))) :
    Quiet f primaryUniqueName (fetchLocal q) P w := by
  refine (quiet_query hex).bind ?_
  rintro r ⟨rows, hreplies, hgives⟩
  refine .pure ?_
  rw [Metadata.fetchLocal, fetchColumn_replies hreplies]
  exact hP rows _ hgives

/-- A script of the broker of the standby, which has the configuration. -/
theorem quiet_script {script : Script}
    (hscript : script = .showConfiguration ∨ ∃ name, script = .showIdentifier name)
    (hex : ∃ text, script.Does f .standby w text w) :
    Quiet f primaryUniqueName (ask (.runDataGuard .standby [script]))
      (fun r => ∃ text, r = .ok [text] ∧ script.Does f .standby w text w) w := by
  obtain ⟨text, hdoes⟩ := hex
  have hq : (Request.runDataGuard .standby [script]).Reads := by
    intro s hs
    obtain rfl := List.mem_singleton.mp hs
    exact hscript
  refine .ask hq ⟨.ok [text], [text], rfl, text, [], w, rfl, hdoes, rfl, rfl⟩ ?_
  intro r t h
  obtain ⟨text', rfl, hdoes'⟩ := answers_runScript h
  obtain rfl : t = w := by
    rcases hscript with rfl | ⟨name, rfl⟩
    · exact hdoes'.1
    · exact hdoes'.1
  exact ⟨rfl, text', rfl, hdoes'⟩

theorem quiet_ensureListener (hw : SetUp f parties w) :
    Quiet f primaryUniqueName (ensureListener parties) (fun _ => True) w := by
  refine Quiet.bind (P := fun r => r = none) (.ask trivial ⟨none, rfl, hw.listener, rfl⟩ ?_) ?_
  · rintro r t ⟨rfl, -, rfl⟩
    exact ⟨rfl, rfl⟩
  · rintro r rfl
    exact .pure trivial

theorem quiet_ensureDatabase (hw : SetUp f parties w) :
    Quiet f primaryUniqueName (ensureDatabase parties) (fun _ => True) w := by
  have hmode : LocalQuery.openMode.Gives f w [[("OPEN_MODE", "")]] := ⟨hw.stage, "", rfl⟩
  refine Quiet.bind (P := fun r => ∃ mode, r = .ok [mode]) (quiet_fetchLocal ⟨_, hmode⟩ ?_) ?_
  · rintro rows function ⟨-, mode, rfl⟩
    exact ⟨mode, rfl⟩
  · rintro r ⟨mode, rfl⟩
    exact .pure trivial

theorem quiet_ensureStandbyLog (hlogs : 0 < w.standbyLogs) :
    Quiet f primaryUniqueName (ensureStandbyLog parties) (fun _ => True) w := by
  refine Quiet.bind (quiet_query ⟨List.replicate w.standbyLogs [], List.length_replicate⟩) ?_
  rintro r ⟨rows, ⟨messages, rfl, hparse⟩, hlength⟩
  have hfetch : fetchRows LocalQuery.standbyLog.sql (.ok messages) = .ok rows := hparse
  cases rows with
  | nil => exact absurd hlength hlogs.ne
  | cons row rows =>
    rw [hfetch]
    exact .pure trivial

/-- The broker is found to be running. -/
theorem quiet_fetchStart (hw : SetUp f parties w) :
    Quiet f primaryUniqueName (fetchLocal .brokerStart)
      (fun r => Quiet f primaryUniqueName (brokerStarted f.toCasing r)
        (fun started => started = true) w) w := by
  have hstart : LocalQuery.brokerStart.Gives f w [[("VALUE", "true")]] :=
    ⟨"true", rfl, (f.equalFold_self _).trans hw.brokerStart.symm⟩
  refine quiet_fetchLocal ⟨_, hstart⟩ ?_
  rintro rows function ⟨value, rfl, hvalue⟩
  exact Quiet.pure (hvalue.trans hw.brokerStart)

theorem quiet_ensureConfigLocation (hw : SetUp f parties w) :
    Quiet f primaryUniqueName (ensureConfigLocation f.toCasing parties) (fun _ => True) w := by
  have hfiles : LocalQuery.configLocations.Gives f w [[("VALUE", "")], [("VALUE", "")]] :=
    ⟨"", "", rfl⟩
  refine Quiet.bind (P := fun r => ∃ files, r = .ok files) (quiet_fetchLocal ⟨_, hfiles⟩ ?_) ?_
  · rintro rows function ⟨file1, file2, rfl⟩
    exact ⟨[file1, file2], rfl⟩
  · rintro r ⟨files, rfl⟩
    simp only
    split
    · exact .pure trivial
    · -- the broker runs already, so the locations are left
      refine Quiet.bind (quiet_fetchStart hw) fun r hr => Quiet.bind hr ?_
      rintro started rfl
      exact .pure trivial

theorem quiet_ensureDataGuardBrokerEnable (hw : SetUp f parties w) :
    Quiet f primaryUniqueName (ensureDataGuardBrokerEnable f.toCasing) (fun _ => True) w := by
  refine Quiet.bind (quiet_fetchStart hw) fun r hr => Quiet.bind hr ?_
  rintro started rfl
  exact .pure trivial

variable {c : Config}

/-- The broker of the standby shows the configuration. -/
theorem exists_showConfiguration (hc : w.config = some c) (hcons : c.Consistent f primaryUniqueName)
    (hw : SetUp f parties w) : ∃ text, Script.showConfiguration.Does f .standby w text w := by
  obtain ⟨text, hprints⟩ := hcons.exists_prints
  exact ⟨text, rfl, fun _ => hw.linked, c, hc, hprints⟩

theorem quiet_standbyDg :
    Quiet f primaryUniqueName standbyDg (fun r => r = .ok .standby) w := .pure rfl

theorem quiet_configExists (hc : w.config = some c) (hcons : c.Consistent f primaryUniqueName)
    (hw : SetUp f parties w) :
    Quiet f primaryUniqueName (configExists standbyDg) (fun shown => shown = true) w := by
  refine Quiet.bind quiet_standbyDg ?_
  rintro target rfl
  refine Quiet.bind (quiet_script (.inl rfl) (exists_showConfiguration hc hcons hw)) ?_
  rintro r ⟨text, rfl, -⟩
  exact .pure rfl

theorem exists_printsIdentifier {identifier : String}
    (h : Broker.IsWord identifier.toList ∧ Broker.quote ∉ identifier.toList) :
    ∃ text, PrintsIdentifier identifier text := by
  let shown : Broker.ShownIdentifier := ⟨[], 0, identifier⟩
  exact ⟨shown.text, shown, ⟨by simp [shown], h.1, h.2⟩, rfl, rfl⟩

/-- The identifier that is read is the one of the member. -/
theorem quiet_connectIdentifier (hc : w.config = some c)
    (hcons : c.Consistent f primaryUniqueName) (hw : SetUp f parties w) {name : String}
    {e : Entry} (he : e ∈ c.entries) (hname : e.Named f name) :
    Quiet f primaryUniqueName (connectIdentifier standbyDg name)
      (fun r => r = .ok e.identifier) w := by
  obtain ⟨text, hprints⟩ := exists_printsIdentifier (hcons.identifiers e he)
  have hdoes : (Script.showIdentifier name).Does f .standby w text w :=
    ⟨rfl, fun _ => hw.linked, c, hc, e, he, hname, hprints⟩
  refine Quiet.bind quiet_standbyDg ?_
  rintro target rfl
  refine Quiet.bind (quiet_script (.inr ⟨name, rfl⟩) ⟨text, hdoes⟩) ?_
  rintro r ⟨text', rfl, -, -, c', hc', e', he', hname', shown, hproper, rfl, hid⟩
  obtain rfl : c = c' := Option.some.inj (hc.symm.trans hc')
  obtain rfl : e = e' := hcons.eq_of_named he he' hname hname'
  refine .pure ?_
  rw [Broker.connectIdentifier_shown hproper, hid]

theorem quiet_members (hc : w.config = some c) (hcons : c.Consistent f primaryUniqueName)
    (hw : SetUp f parties w) :
    Quiet f primaryUniqueName (members standbyDg) (fun r => ∃ m, r = .ok m ∧ Reads c m) w := by
  refine Quiet.bind quiet_standbyDg ?_
  rintro target rfl
  refine Quiet.bind (quiet_script (.inl rfl) (exists_showConfiguration hc hcons hw)) ?_
  rintro r ⟨text, rfl, -, -, c', hc', hprints⟩
  obtain rfl : c = c' := Option.some.inj (hc.symm.trans hc')
  obtain ⟨primary, others, hprimary⟩ := hcons.exists_named_primary
  have hread := hprints.members_eq hprimary
  exact .pure ⟨_, hread, hprints.reads hread⟩

theorem quiet_ensureDGConfigExists (hc : w.config = some c)
    (hcons : c.Consistent f primaryUniqueName) (hw : SetUp f parties w) :
    Quiet f primaryUniqueName (ensureDGConfigExists parties) (fun _ => True) w := by
  have hexists : Quiet f primaryUniqueName (existsSomewhere parties) (fun b => b = true) w := by
    refine Quiet.bind (quiet_configExists hc hcons hw) ?_
    rintro shown rfl
    exact .pure rfl
  refine Quiet.bind hexists ?_
  rintro shown rfl
  exact .pure trivial

theorem quiet_ensureDGConfigStandbyMatch (hc : w.config = some c)
    (hcons : c.Consistent f primaryUniqueName) (hw : SetUp f parties w) :
    Quiet f primaryUniqueName (ensureDGConfigStandbyMatch parties) (fun _ => True) w := by
  obtain ⟨c', hc', ⟨e, he, hname⟩, hwant⟩ := hw.placed
  obtain rfl : c = c' := Option.some.inj (hc.symm.trans hc')
  refine Quiet.bind (quiet_configExists hc hcons hw) ?_
  rintro shown rfl
  have hid : Quiet f primaryUniqueName (standbyIdentifier parties)
      (fun got => got = wantStandby parties) w := by
    refine Quiet.bind (quiet_connectIdentifier hc hcons hw he hname) ?_
    rintro r rfl
    exact .pure (hwant e he hname)
  refine Quiet.bind hid ?_
  rintro got rfl
  rw [if_pos rfl]
  exact .pure trivial

theorem quiet_ensureDGConfigPrimaryMatch (hc : w.config = some c)
    (hcons : c.Consistent f primaryUniqueName) (hw : SetUp f parties w) :
    Quiet f primaryUniqueName (ensureDGConfigPrimaryMatch parties) (fun _ => True) w := by
  refine Quiet.bind (quiet_members hc hcons hw) ?_
  rintro r ⟨m, rfl, hreads⟩
  obtain ⟨e, he, hrole, hname⟩ := hreads.exists_primary
  refine Quiet.bind (quiet_connectIdentifier hc hcons hw he (hname ▸ f.equalFold_self _)) ?_
  rintro r rfl
  simp only [if_pos (hw.matched c hc e he hrole)]
  exact .pure trivial

/-- A standby that is set up and has its logs is left as it is: the tasks then only read, and
return no error. -/
theorem setUp_again {srv : Service World Request Reply}
    (hsrv : Refines srv (sound f primaryUniqueName)) (hw : Consistent f primaryUniqueName w)
    (hset : SetUp f parties w) (hlogs : 0 < w.standbyLogs) :
    Ends srv (fun t q => t = w ∧ q.Reads) (setUpDataGuard f.toCasing parties)
      (fun _ t => t = w) (fun _ _ => False) w := by
  obtain ⟨c, hc, -⟩ := hset.placed
  have hcons := hw c hc
  have hquiet : Quiet f primaryUniqueName (setUpDataGuard f.toCasing parties)
      (fun _ => True) w := by
    refine (quiet_ensureListener hset).bind fun _ _ => ?_
    refine (quiet_ensureDatabase hset).bind fun _ _ => ?_
    refine (quiet_ensureStandbyLog hlogs).bind fun _ _ => ?_
    refine (quiet_ensureConfigLocation hset).bind fun _ _ => ?_
    refine (quiet_ensureDataGuardBrokerEnable hset).bind fun _ _ => ?_
    refine (quiet_ensureDGConfigExists hc hcons hset).bind fun _ _ => ?_
    refine (quiet_ensureDGConfigStandbyMatch hc hcons hset).bind fun _ _ => ?_
    exact (quiet_ensureDGConfigPrimaryMatch hc hcons hset).bind fun _ _ => .pure trivial
  exact Ends.of_refines hsrv (Ends.mono hquiet (fun _ _ h => h.1) fun _ _ h => h)

theorem setUp_sampleWorld : SetUp asciiFolding sampleParties sampleWorld where
  listener := rfl
  stage := rfl
  brokerStart := rfl
  linked := rfl
  placed := ⟨sampleConfig, rfl, by decide +kernel⟩
  matched := by
    rintro c ⟨⟩
    decide +kernel

theorem setUp_again_sample :
    0 < sampleWorld.standbyLogs ∧
      Ends (sound asciiFolding "gcloud_mydb") (fun t q => t = sampleWorld ∧ q.Reads)
        (setUpDataGuard asciiFolding.toCasing sampleParties) (fun _ t => t = sampleWorld)
        (fun _ _ => False) sampleWorld :=
  ⟨by decide, setUp_again (fun _ _ _ _ h => h) consistent_sampleWorld setUp_sampleWorld (by decide)⟩

end Again

end ElCarro.StandbyDR.DataGuard
