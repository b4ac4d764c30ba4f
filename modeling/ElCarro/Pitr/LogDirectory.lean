import ElCarro.Pitr.Storage

/-! # Where the log syncer copies from

The syncer asks the database for the directory of the archived logs at the very beginning, and
again after each pass that succeeds. It takes over the answer if the question failed, where it
means to take over the answer if it did not.
-/

namespace ElCarro.Pitr.LogSyncer

open K8s Api

/-- The results of `getArchivedLogDir`. -/
@[ext] structure Answer where
  dir : String
  err : Option String
  deriving DecidableEq

/-- `getArchivedLogDir`, where `unmarshal` reads a row of the response. -/
def getArchivedLogDir (unmarshal : String → Except String StrMap)
    (resp : Except String (List String)) : Answer :=
  match resp with
  | .error err => ⟨"", some err⟩
  | .ok [] => ⟨"", some "getArchivedLogDir: failed to find the recovery_file_dest"⟩
  | .ok (msg :: _) =>
    match unmarshal msg with
    | .error err => ⟨"", some err⟩
    | .ok row => ⟨valueAt row "NAME", none⟩

/-- What a tick of the syncer meets: the error of the pass, and the response of the database if it
is asked. -/
structure Tick where
  replicationErr : Option String
  resp : Except String (List String)

/-- What the syncer does: ask for the directory, or copy from the one that an answer gave. -/
inductive Event where
  | query (answer : Answer)
  | pass (src : Answer)
  deriving DecidableEq

section

variable (unmarshal : String → Except String StrMap)

/-- The loop of `run`, with the answer that the directory in use was taken from. -/
def loop : Answer → List Tick → List Event
  | _, [] => []
  | src, tick :: ticks =>
    .pass src ::
      match tick.replicationErr with
      | some _ => loop src ticks
      | none =>
        let newSrc := getArchivedLogDir unmarshal tick.resp
        .query newSrc ::
          -- the test is the wrong way round
          if newSrc.err ≠ none then loop newSrc ticks else loop src ticks

/-- `run` up to a number of ticks. -/
def run (resp : Except String (List String)) (ticks : List Tick) : List Event :=
  let src := getArchivedLogDir unmarshal resp
  match src.err with
  | some _ => [.query src]
  | none => .query src :: .pass src :: loop unmarshal src ticks

/-- `RunLogReplication`, where the client of the destination may not be there. -/
def runLogReplication (dest : String) (newGcsClientErr : Option String)
    (resp : Except String (List String)) (ticks : List Tick) : List Event :=
  if gsPrefix.toList <+: dest.toList ∧ newGcsClientErr ≠ none then [] else run unmarshal resp ticks

end

/-- What a query reports, unless it fails. -/
def Event.reported : Event → Option String
  | .query answer => if answer.err = none then some answer.dir else none
  | .pass _ => none

/-- The directory reported by the most recent query that did not fail. -/
def mostRecent (trace : List Event) : Option String := (trace.filterMap Event.reported).getLast?

/-- Every pass, after the events before it, copies from the directory that the most recent
successful query reported, and not from the result of a failed query. -/
def FollowsAfter (before trace : List Event) : Prop :=
  ∀ earlier src later, trace = earlier ++ .pass src :: later →
    src.err = none ∧ mostRecent (before ++ earlier) = some src.dir

def Follows (trace : List Event) : Prop := FollowsAfter [] trace

section

variable {unmarshal : String → Except String StrMap} {before trace : List Event}
  {src answer : Answer} {ticks : List Tick}

theorem mostRecent_query (h : answer.err = none) :
    mostRecent (before ++ [.query answer]) = some answer.dir := by
  simp [mostRecent, Event.reported, h]

theorem mostRecent_pass : mostRecent (before ++ [.pass src]) = mostRecent before := by
  simp [mostRecent, Event.reported]

theorem followsAfter_nil : FollowsAfter before [] := by
  intro earlier src later h
  simp at h

theorem followsAfter_query :
    FollowsAfter before (.query answer :: trace) ↔
      FollowsAfter (before ++ [.query answer]) trace := by
  constructor
  · intro h earlier src later heq
    rw [List.append_assoc]
    exact h (.query answer :: earlier) src later (by rw [heq]; rfl)
  · intro h earlier src later heq
    cases earlier with
    | nil => simp at heq
    | cons event earlier =>
      obtain ⟨rfl, hrest⟩ := List.cons.inj heq
      have hpass := h earlier src later hrest
      rwa [List.append_assoc] at hpass

theorem followsAfter_pass :
    FollowsAfter before (.pass src :: trace) ↔
      (src.err = none ∧ mostRecent before = some src.dir) ∧
        FollowsAfter (before ++ [.pass src]) trace := by
  constructor
  · intro h
    constructor
    · have hpass := h [] src trace rfl
      rwa [List.append_nil] at hpass
    · intro earlier src' later heq
      rw [List.append_assoc]
      exact h (.pass src :: earlier) src' later (by rw [heq]; rfl)
  · rintro ⟨hpass, h⟩ earlier src' later heq
    cases earlier with
    | nil =>
      obtain ⟨hsrc, -⟩ := List.cons.inj heq
      cases hsrc
      rwa [List.append_nil]
    | cons event earlier =>
      obtain ⟨rfl, hrest⟩ := List.cons.inj heq
      have hlater := h earlier src' later hrest
      rwa [List.append_assoc] at hlater

/-- A directory that is not the one to use shows in the next pass. -/
theorem followsAfter_loop_of_wrong (h : ¬ (src.err = none ∧ mostRecent before = some src.dir)) :
    FollowsAfter before (loop unmarshal src ticks) ↔ ticks = [] := by
  cases ticks with
  | nil => exact iff_of_true followsAfter_nil rfl
  | cons tick ticks =>
    rw [loop, followsAfter_pass]
    exact iff_of_false (fun hfollows => h hfollows.1) (List.cons_ne_nil tick ticks)

/-- A failed query leaves its result in use, and a new directory is left unused. -/
theorem followsAfter_answer_of_wrong (h : answer ≠ ⟨src.dir, none⟩) :
    FollowsAfter (before ++ [.query answer])
      (if answer.err ≠ none then loop unmarshal answer ticks else loop unmarshal src ticks) ↔
      ticks = [] := by
  split
  · next hfailed => exact followsAfter_loop_of_wrong fun hright => hfailed hright.1
  · next hreported =>
    rw [not_not] at hreported
    apply followsAfter_loop_of_wrong
    rintro ⟨-, hrecent⟩
    rw [mostRecent_query hreported] at hrecent
    exact h (Answer.ext (Option.some.inj hrecent) hreported)

/-- The question that is asked after a pass confirms a directory. -/
def Confirms (unmarshal : String → Except String StrMap) (dir : String) (tick : Tick) : Prop :=
  tick.replicationErr = none → getArchivedLogDir unmarshal tick.resp = ⟨dir, none⟩

theorem forall_mem_dropLast_cons {P : Tick → Prop} {tick : Tick} :
    (∀ t ∈ (tick :: ticks).dropLast, P t) ↔
      (ticks ≠ [] → P tick) ∧ ∀ t ∈ ticks.dropLast, P t := by
  cases ticks with
  | nil => simp
  | cons tick' ticks => simp [List.dropLast]

theorem followsAfter_loop_iff (hsrc : src.err = none) (hrecent : mostRecent before = some src.dir) :
    FollowsAfter before (loop unmarshal src ticks) ↔
      ∀ tick ∈ ticks.dropLast, Confirms unmarshal src.dir tick := by
  induction ticks generalizing before with
  | nil => exact iff_of_true followsAfter_nil (by simp)
  | cons tick ticks ih =>
    rw [loop, followsAfter_pass, forall_mem_dropLast_cons]
    have hpass : mostRecent (before ++ [.pass src]) = some src.dir := mostRecent_pass.trans hrecent
    cases herr : tick.replicationErr with
    | some err =>
      rw [ih hpass]
      have hconfirms : Confirms unmarshal src.dir tick := by
        intro hnone
        rw [herr] at hnone
        cases hnone
      exact ⟨fun h => ⟨fun _ => hconfirms, h.2⟩, fun h => ⟨⟨hsrc, hrecent⟩, h.2⟩⟩
    | none =>
      dsimp only
      rw [followsAfter_query]
      set answer := getArchivedLogDir unmarshal tick.resp
      by_cases hok : answer = ⟨src.dir, none⟩
      · -- the answer is the directory in use
        have hnone : answer.err = none := by rw [hok]
        have hquery : mostRecent (before ++ [.pass src] ++ [.query answer]) = some src.dir := by
          rw [mostRecent_query hnone, hok]
        rw [if_neg (not_not.mpr hnone), ih hquery]
        exact ⟨fun h => ⟨fun _ _ => hok, h.2⟩, fun h => ⟨⟨hsrc, hrecent⟩, h.2⟩⟩
      · have hconfirms : ¬ Confirms unmarshal src.dir tick := fun h => hok (h herr)
        rw [followsAfter_answer_of_wrong hok]
        constructor
        · rintro ⟨-, rfl⟩
          exact ⟨fun hne => absurd rfl hne, by simp⟩
        · rintro ⟨htick, -⟩
          exact ⟨⟨hsrc, hrecent⟩, by_contra fun hne => hconfirms (htick hne)⟩

theorem follows_run_iff (unmarshal : String → Except String StrMap)
    (resp : Except String (List String)) (ticks : List Tick) :
    Follows (run unmarshal resp ticks) ↔
      ((getArchivedLogDir unmarshal resp).err = none →
        ∀ tick ∈ ticks.dropLast,
          Confirms unmarshal (getArchivedLogDir unmarshal resp).dir tick) := by
  unfold Follows run
  dsimp only
  cases herr : (getArchivedLogDir unmarshal resp).err with
  | some err =>
    dsimp only
    rw [followsAfter_query]
    exact iff_of_true followsAfter_nil (by simp)
  | none =>
    dsimp only
    have hrecent : mostRecent ([] ++ [.query (getArchivedLogDir unmarshal resp)]) = some _ :=
      mostRecent_query herr
    rw [followsAfter_query, followsAfter_pass,
      followsAfter_loop_iff herr (mostRecent_pass.trans hrecent)]
    exact ⟨fun h _ => h.2, fun h => ⟨⟨herr, hrecent⟩, h rfl⟩⟩

end

/-- The passes of a replication copy from the directories that are reported if and only if, once
it has started, each answer that another pass comes after is the one given at the beginning. -/
theorem follows_iff (unmarshal : String → Except String StrMap) (dest : String)
    (newGcsClientErr : Option String) (resp : Except String (List String)) (ticks : List Tick) :
    Follows (runLogReplication unmarshal dest newGcsClientErr resp ticks) ↔
      (¬ (gsPrefix.toList <+: dest.toList ∧ newGcsClientErr ≠ none) →
        (getArchivedLogDir unmarshal resp).err = none →
        ∀ tick ∈ ticks.dropLast, tick.replicationErr = none →
          getArchivedLogDir unmarshal tick.resp =
            ⟨(getArchivedLogDir unmarshal resp).dir, none⟩) := by
  unfold runLogReplication
  split
  · next hclient => exact iff_of_true followsAfter_nil fun h => absurd hclient h
  · next hclient =>
    rw [follows_run_iff]
    exact ⟨fun h _ => h, fun h => h hclient⟩

section Counterexample

/-- Rows with the two directories of the sample. -/
def readRow (msg : String) : Except String StrMap :=
  if msg = "\x7b\"NAME\":\"/u03/old\"\x7d" then .ok ((∅ : StrMap).insert "NAME" "/u03/old")
  else if msg = "\x7b\"NAME\":\"/u04/new\"\x7d" then .ok ((∅ : StrMap).insert "NAME" "/u04/new")
  else .error "invalid character"

def oldDirectory : Except String (List String) := .ok ["\x7b\"NAME\":\"/u03/old\"\x7d"]

def newDirectory : Except String (List String) := .ok ["\x7b\"NAME\":\"/u04/new\"\x7d"]

end Counterexample

/-- After a query that fails the next pass has no directory at all, and after one that reports
another directory the next pass still copies from the old one. -/
theorem wrong_directory :
    ¬ Follows (runLogReplication readRow "gs://bk/mydb" none oldDirectory
        [⟨none, .error "connection refused"⟩, ⟨none, oldDirectory⟩]) ∧
      ¬ Follows (runLogReplication readRow "gs://bk/mydb" none oldDirectory
        [⟨none, newDirectory⟩, ⟨none, newDirectory⟩]) := by
  constructor
  · intro h
    have hpass := h [.query ⟨"/u03/old", none⟩, .pass ⟨"/u03/old", none⟩, .pass ⟨"/u03/old", none⟩,
      .query ⟨"", some "connection refused"⟩] ⟨"", some "connection refused"⟩
      [.query ⟨"/u03/old", none⟩] (by decide)
    exact absurd hpass.1 (by decide)
  · intro h
    have hpass := h [.query ⟨"/u03/old", none⟩, .pass ⟨"/u03/old", none⟩, .pass ⟨"/u03/old", none⟩,
      .query ⟨"/u04/new", none⟩] ⟨"/u03/old", none⟩ [.query ⟨"/u04/new", none⟩] (by decide)
    exact absurd hpass.2 (by decide)

end ElCarro.Pitr.LogSyncer
