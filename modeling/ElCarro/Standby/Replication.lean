import ElCarro.Standby.DataGuard

/-! # The databases and their brokers

What the requests of the tasks do to a standby, and to the configuration that the brokers of
the two databases share. Every request may fail, before it has done anything or when it has
done some of it. The broker of the standby shows the configuration only some time after the
standby was added.
-/

namespace ElCarro.StandbyDR.DataGuard

open Dialogue
open Databases.Users (Casing)

section World

/-- Comparison of names up to the case of their letters. -/
structure Folding extends Casing where
  toLower : String → String
  equalFold_comm : ∀ s t, equalFold s t = equalFold t s
  equalFold_trans : ∀ s t u, equalFold s t = true → equalFold t u = true → equalFold s u = true
  equalFold_toLower : ∀ s, s.toList.all (·.toNat < 128) = true → equalFold (toLower s) s = true

inductive Stage where
  | down | nomount | mounted
  deriving DecidableEq, Repr

/-- A member of a configuration and where it is to be reached. -/
structure Entry where
  member : Broker.Member
  identifier : String
  deriving DecidableEq, Repr

structure Config where
  name : String
  entries : List Entry
  deriving DecidableEq, Repr

structure World where
  listener : Bool
  stage : Stage
  standbyLogs : ℕ
  brokerStart : Bool
  config : Option Config
  /-- The broker of the standby has the configuration. -/
  linked : Bool
  recovering : Bool
  isPrimary : Bool
  isOpen : Bool
  deriving DecidableEq, Repr

end World

section Scripts

/-- The broker prints the configuration. -/
def Prints (c : Config) (text : String) : Prop :=
  ∃ shown : Broker.Shown, shown.Proper ∧ shown.text = text ∧ shown.configuration = c.name ∧
    shown.members = c.entries.map Entry.member

def PrintsIdentifier (identifier text : String) : Prop :=
  ∃ shown : Broker.ShownIdentifier, shown.Proper ∧ shown.text = text ∧
    shown.identifier = identifier

variable (f : Folding)

def Entry.Named (name : String) (e : Entry) : Prop := f.equalFold e.member.name name = true

instance (name : String) (e : Entry) : Decidable (e.Named f name) :=
  inferInstanceAs (Decidable (_ = _))

def Config.without (c : Config) (name : String) : Config :=
  { c with entries := c.entries.filter fun e => ¬ e.Named f name }

def Config.setIdentifier (c : Config) (name identifier : String) : Config :=
  { c with entries := c.entries.map fun e =>
      if e.Named f name then { e with identifier } else e }

def Config.add (c : Config) (name identifier : String) : Config :=
  { c with entries := c.entries ++ [⟨⟨name, .physicalStandby⟩, identifier⟩] }

/-- What a script prints and does when it succeeds. -/
def Script.Does (target : Target) (w : World) : Script → String → World → Prop
  | .showConfiguration, text, t => t = w ∧ (target = .standby → w.linked = true) ∧
      ∃ c, w.config = some c ∧ Prints c text
  | .showIdentifier name, text, t => t = w ∧ (target = .standby → w.linked = true) ∧
      ∃ c, w.config = some c ∧ ∃ e ∈ c.entries, e.Named f name ∧
        PrintsIdentifier e.identifier text
  | .removeConfiguration, _, t => t = { w with config := none, linked := false }
  | .disableDatabase _, _, t => t = w
  | .removeDatabase name, _, t =>
      ∃ c, w.config = some c ∧ t = { w with config := some (c.without f name), linked := false }
  | .setIdentifier name identifier, _, t =>
      ∃ c, w.config = some c ∧ t = { w with config := some (c.setIdentifier f name identifier) }
  | .createConfiguration primary identifier, _, t => w.config = none ∧
      t = { w with config := some ⟨defaultDGConfigName, [⟨⟨primary, .primary⟩, identifier⟩]⟩ }
  | .addDatabase name identifier, _, t =>
      ∃ c, w.config = some c ∧ (∀ e ∈ c.entries, ¬ e.Named f name) ∧
        t = { w with config := some (c.add name identifier) }
  | .enableConfiguration, _, t => t = w

/-- One script after the other. -/
def RunScripts (target : Target) : List Script → World → List String → World → Prop
  | [], w, out, t => out = [] ∧ t = w
  | script :: scripts, w, out, t =>
      ∃ text rest u, out = text :: rest ∧ script.Does f target w text u ∧
        RunScripts target scripts u rest t

end Scripts

section Serving

variable (f : Folding) (primaryUniqueName : String)

def Statement.Does (w : World) : Statement → World → Prop
  | .mountStandby, t => w.stage = .nomount ∧ t = { w with stage := .mounted }
  | .addStandbyLogfile _, t => t = { w with standbyLogs := w.standbyLogs + 1 }
  | .setConfigFiles _, t => t = w
  | .startBroker, t => t = { w with brokerStart := true }
  | .cancelMRP, t => t = { w with recovering := false }
  | .activateStandby, t => w.isPrimary = false ∧ t = { w with isPrimary := true }
  | .openDatabase, t => w.isOpen = false ∧ t = { w with isOpen := true }

/-- The rows of a query in the standby. -/
def LocalQuery.Gives (w : World) : LocalQuery → List Row → Prop
  | .openMode, rows => w.stage = .mounted ∧ ∃ mode, rows = [[("OPEN_MODE", mode)]]
  | .standbyLog, rows => rows.length = w.standbyLogs
  | .configLocations, rows => ∃ file1 file2, rows = [[("VALUE", file1)], [("VALUE", file2)]]
  | .brokerStart, rows =>
      ∃ value, rows = [[("VALUE", value)]] ∧ f.equalFold value "true" = w.brokerStart
  | .listMRP, rows => rows = [] ↔ w.recovering = false
  | .listPrimaryRole, rows => rows = [] ↔ w.isPrimary = false
  | .listOpenDatabase, rows => rows = [] ↔ w.isOpen = false

def PrimaryQuery.Gives : PrimaryQuery → List Row → Prop
  | .dbName, rows => ∃ name, rows = [[("VALUE", name)]]
  | .dbUniqueName, rows => rows = [[("VALUE", primaryUniqueName)]]
  | .logBytes, _ => True

/-- A response with these rows. -/
def Replies (r : Except String (List Message)) (rows : List Row) : Prop :=
  ∃ messages, r = .ok messages ∧ parseSQLResponse messages = .ok rows

/-- A request that succeeds. -/
def answers (w : World) : (q : Request) → Reply q → World → Prop
  | .password, r, t => (∃ passwd, r = .ok passwd) ∧ t = w
  | .tnsPing _, r, t => r = none ∧ w.listener = true ∧ t = w
  | .createListener _ _, r, t => r = none ∧ t = { w with listener := true }
  | .startupNomount _, r, t => r = none ∧ w.stage = .down ∧ t = { w with stage := .nomount }
  | .execute statement, r, t => r = none ∧ statement.Does w t
  | .query q, r, t => (∃ rows, Replies r rows ∧ q.Gives f w rows) ∧ t = w
  | .queryPrimary q _, r, t => (∃ rows, Replies r rows ∧ q.Gives primaryUniqueName rows) ∧ t = w
  | .runDataGuard target scripts, r, t => ∃ out, r = .ok out ∧ RunScripts f target scripts w out t
  | .downloadDirectory _ _, r, t => r = none ∧ t = w

/-- The reply is an error. -/
def fails : (q : Request) → Reply q → Prop
  | .password, r => ∃ err, r = .error err
  | .tnsPing _, r => ∃ err, r = some err
  | .createListener _ _, r => ∃ err, r = some err
  | .startupNomount _, r => ∃ err, r = some err
  | .execute _, r => ∃ err, r = some err
  | .query _, r => ∃ err, r = .error err
  | .queryPrimary _ _, r => ∃ err, r = .error err
  | .runDataGuard _ _, r => ∃ err, r = .error err
  | .downloadDirectory _ _, r => ∃ err, r = some err

/-- What a request that fails may have done: the first of its scripts, or all of it. -/
def Partly (w : World) : Request → World → Prop
  | .runDataGuard target scripts, t =>
      ∃ done out, done <+: scripts ∧ RunScripts f target done w out t
  | q, t => t = w ∨ ∃ r, answers f primaryUniqueName w q r t

/-- The broker of a standby that is a member gets to know the configuration. -/
def CatchesUp (dbUniqueName : String) (w t : World) : Prop :=
  t = w ∨ t = { w with linked := true } ∧
    ∃ c, w.config = some c ∧ ∃ e ∈ c.entries, e.Named f dbUniqueName

/-- The service of the daemon. -/
def serve (dbUniqueName : String) : Service World Request Reply := fun w q r t =>
  ∃ u, (answers f primaryUniqueName w q r u ∨ fails q r ∧ Partly f primaryUniqueName w q u) ∧
    CatchesUp f dbUniqueName u t

/-- The service when a request fails only because it cannot be done. -/
def sound : Service World Request Reply := fun w q r t =>
  answers f primaryUniqueName w q r t ∨
    (¬ ∃ r' t', answers f primaryUniqueName w q r' t') ∧ fails q r ∧ t = w

/-- The request changes nothing. -/
def Request.Reads : Request → Prop
  | .password | .tnsPing _ | .query _ | .queryPrimary _ _ => True
  | .runDataGuard _ scripts =>
      ∀ script ∈ scripts, script = .showConfiguration ∨ ∃ name, script = .showIdentifier name
  | _ => False

/-- The request does not change the configuration. -/
def Request.Calm : Request → Prop
  | .runDataGuard _ scripts =>
      ∀ script ∈ scripts, script = .showConfiguration ∨ ∃ name, script = .showIdentifier name
  | _ => True

end Serving

section Changes

variable {f : Folding} {primaryUniqueName dbUniqueName : String} {w t u : World}

/-- No request takes back what another one has done in the standby. -/
structure Grows (w t : World) : Prop where
  listener : w.listener = true → t.listener = true
  stage : w.stage = .mounted → t.stage = .mounted
  brokerStart : w.brokerStart = true → t.brokerStart = true
  isPrimary : w.isPrimary = true → t.isPrimary = true
  isOpen : w.isOpen = true → t.isOpen = true

/-- And the configuration stays as it is. -/
structure Calm (w t : World) : Prop extends Grows w t where
  config : t.config = w.config
  linked : w.linked = true → t.linked = true

theorem Grows.refl (w : World) : Grows w w := ⟨id, id, id, id, id⟩

theorem Grows.trans (h : Grows w t) (h' : Grows t u) : Grows w u :=
  ⟨h'.listener ∘ h.listener, h'.stage ∘ h.stage, h'.brokerStart ∘ h.brokerStart,
    h'.isPrimary ∘ h.isPrimary, h'.isOpen ∘ h.isOpen⟩

theorem Calm.refl (w : World) : Calm w w := ⟨.refl w, rfl, id⟩

theorem Calm.trans (h : Calm w t) (h' : Calm t u) : Calm w u :=
  ⟨h.toGrows.trans h'.toGrows, h'.config.trans h.config, h'.linked ∘ h.linked⟩

theorem eq_of_shows {target : Target} {scripts : List Script} {out : List String}
    (hshow : ∀ script ∈ scripts,
      script = .showConfiguration ∨ ∃ name, script = .showIdentifier name)
    (h : RunScripts f target scripts w out t) : t = w := by
  induction scripts generalizing w out with
  | nil => exact h.2
  | cons script scripts ih =>
    obtain ⟨text, rest, u, -, hdoes, hrest⟩ := h
    obtain rfl : u = w := by
      rcases hshow script List.mem_cons_self with rfl | ⟨name, rfl⟩
      · exact hdoes.1
      · exact hdoes.1
    exact ih (fun s hs => hshow s (List.mem_cons_of_mem script hs)) hrest

theorem calm_statement {statement : Statement} (h : statement.Does w t) : Calm w t := by
  have hcalm : t.config = w.config ∧ t.linked = w.linked ∧ Grows w t := by
    cases statement with
    | mountStandby => exact h.2 ▸ ⟨rfl, rfl, id, fun _ => rfl, id, id, id⟩
    | addStandbyLogfile size => exact h ▸ ⟨rfl, rfl, id, id, id, id, id⟩
    | setConfigFiles want => exact h ▸ ⟨rfl, rfl, .refl _⟩
    | startBroker => exact h ▸ ⟨rfl, rfl, id, id, fun _ => rfl, id, id⟩
    | cancelMRP => exact h ▸ ⟨rfl, rfl, id, id, id, id, id⟩
    | activateStandby => exact h.2 ▸ ⟨rfl, rfl, id, id, id, fun _ => rfl, id⟩
    | openDatabase => exact h.2 ▸ ⟨rfl, rfl, id, id, id, id, fun _ => rfl⟩
  exact ⟨hcalm.2.2, hcalm.1, fun hw => hcalm.2.1.trans hw⟩

theorem calm_answers {q : Request} {r : Reply q} (hq : q.Calm)
    (h : answers f primaryUniqueName w q r t) : Calm w t := by
  cases q with
  | password => exact h.2 ▸ .refl w
  | tnsPing connection => exact h.2.2 ▸ .refl w
  | createListener name service => exact h.2 ▸ ⟨⟨fun _ => rfl, id, id, id, id⟩, rfl, id⟩
  | startupNomount name =>
    obtain ⟨-, hdown, rfl⟩ := h
    exact ⟨⟨id, fun hm => absurd (hdown.symm.trans hm) (by decide), id, id, id⟩, rfl, id⟩
  | execute statement => exact calm_statement h.2
  | query q => exact h.2 ▸ .refl w
  | queryPrimary q dsn => exact h.2 ▸ .refl w
  | runDataGuard target scripts =>
    obtain ⟨out, -, hrun⟩ := h
    exact eq_of_shows hq hrun ▸ .refl w
  | downloadDirectory gcsPath localPath => exact h.2 ▸ .refl w

theorem calm_partly {q : Request} (hq : q.Calm) (h : Partly f primaryUniqueName w q t) :
    Calm w t := by
  cases q with
  | runDataGuard target scripts =>
    obtain ⟨done, out, hpre, hrun⟩ := h
    exact eq_of_shows (fun s hs => hq s (hpre.subset hs)) hrun ▸ .refl w
  | _ =>
    rcases h with rfl | ⟨r, h⟩
    · exact .refl t
    · exact calm_answers hq h

theorem calm_catchesUp (h : CatchesUp f dbUniqueName w t) : Calm w t := by
  rcases h with rfl | ⟨rfl, -⟩
  · exact .refl t
  · exact ⟨⟨id, id, id, id, id⟩, rfl, fun _ => rfl⟩

theorem calm_serve {q : Request} {r : Reply q} (hq : q.Calm)
    (h : serve f primaryUniqueName dbUniqueName w q r t) : Calm w t := by
  obtain ⟨u, h | ⟨-, h⟩, hcatch⟩ := h
  · exact (calm_answers hq h).trans (calm_catchesUp hcatch)
  · exact (calm_partly hq h).trans (calm_catchesUp hcatch)

end Changes

end ElCarro.StandbyDR.DataGuard
