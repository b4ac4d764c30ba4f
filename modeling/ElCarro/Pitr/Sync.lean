import ElCarro.Lib.Checksum
import ElCarro.Lib.Runs
import ElCarro.Pitr.Agent

/-! # Synchronisation of one log

`sync` looks at the record of a log and at the time of its source, copies the source
chunk by chunk, compares checksums and records the time that the source then has.
The database may write to the source between any two of these steps.
-/

namespace ElCarro.Pitr.Sync

open GoTime Checksum Runs

structure File where
  content : Bytes
  mtime : Time
  deriving DecidableEq

/-- Where `sync` stands with the log. -/
inductive Phase where
  | idle
  /-- A record was found, the time of the source is to be read. -/
  | detecting (stored : LogHashEntry)
  | copying (read : Bytes)
  /-- The checksum of the bytes read so far, and their number. -/
  | hashing (crc : UInt32) (offset : Nat)
  | comparing (srcHash : String)
  | timing (hash : String)
  | recording (hash : String) (t : Time)
  deriving DecidableEq

structure State where
  source : File
  /-- The replica. -/
  dest : Option Bytes
  /-- What the hash store has about the source. -/
  record : Option LogHashEntry
  phase : Phase
  /-- Errors that this log adds to those of the pass under way, or of the last one. -/
  errCount : Nat
  deriving DecidableEq

/-- Steps of `sync` with the answers they get, and writes to the source. -/
inductive Event where
  | write (source : File)
  | start (read : Bool)
  | detect (stat : Bool)
  | copyChunk (n : Nat)
  /-- The copy fails, and leaves the replica alone or stores some of what was read. -/
  | copyFail (stored : Option Nat)
  | hashChunk (n : Nat)
  | hashFail
  | compare (attrs : Bool)
  | time (stat : Bool)
  | store (r : CallResult)
  deriving DecidableEq

/-- What a read of at most `n + 1` bytes returns; nothing at the end of the file. -/
def File.chunk (f : File) (offset n : Nat) : Bytes := (f.content.drop offset).take (n + 1)

variable (dest : String)

def fail (s : State) : State := { s with phase := .idle, errCount := s.errCount + 1 }

/-- A record that cannot be read or names no replica leads to a copy at once. -/
def start (s : State) (read : Bool) : Option State :=
  match s.phase with
  | .idle =>
    match (if read then s.record else none) with
    | none => some { s with phase := .copying [], errCount := 0 }
    | some stored =>
      some { s with
        phase := if stored.replicaPath = "" then .copying [] else .detecting stored
        errCount := 0 }
  | _ => none

def detect (s : State) (stat : Bool) : Option State :=
  match s.phase with
  | .detecting stored =>
    if stat ∧ s.source.mtime = stored.modTime then some { s with phase := .idle }
    else some { s with phase := .copying [] }
  | _ => none

def copyChunk (s : State) (n : Nat) : Option State :=
  match s.phase with
  | .copying read =>
    match s.source.chunk read.length n with
    | [] => some { s with dest := some read, phase := .hashing 0 0 }
    | b :: bs => some { s with phase := .copying (read ++ b :: bs) }
  | _ => none

def copyFail (s : State) (stored : Option Nat) : Option State :=
  match s.phase with
  | .copying read =>
    match stored with
    | none => some (fail s)
    | some n => some (fail { s with dest := some (read.take n) })
  | _ => none

def hashChunk (s : State) (n : Nat) : Option State :=
  match s.phase with
  | .hashing crc offset =>
    match s.source.chunk offset n with
    | [] => some { s with phase := .comparing (encode crc) }
    | b :: bs =>
      some { s with phase := .hashing (update crc (b :: bs)) (offset + (b :: bs).length) }
  | _ => none

def hashFail (s : State) : Option State :=
  match s.phase with
  | .hashing _ _ => some (fail s)
  | _ => none

/-- The storage service tells the checksum of the replica. -/
def compare (s : State) (attrs : Bool) : Option State :=
  match s.phase with
  | .comparing srcHash =>
    match (if attrs then s.dest else none) with
    | none => some (fail s)
    | some replica =>
      if srcHash = encode (crc32c replica) then
        some { s with phase := .timing (encode (crc32c replica)) }
      else some (fail s)
  | _ => none

/-- The zero time stands for one that could not be read. -/
def time (s : State) (stat : Bool) : Option State :=
  match s.phase with
  | .timing hash =>
    if stat then some { s with phase := .recording hash s.source.mtime }
    else some { s with phase := .recording hash 0, errCount := s.errCount + 1 }
  | _ => none

def store (s : State) (r : CallResult) : Option State :=
  match s.phase with
  | .recording hash t =>
    some { s with
      record := if r.Effective then some ⟨hash, dest, t⟩ else s.record
      phase := .idle
      errCount := if r = .ok then s.errCount else s.errCount + 1 }
  | _ => none

def step (s : State) : Event → Option State
  | .write source => some { s with source := source }
  | .start read => start s read
  | .detect stat => detect s stat
  | .copyChunk n => copyChunk s n
  | .copyFail stored => copyFail s stored
  | .hashChunk n => hashChunk s n
  | .hashFail => hashFail s
  | .compare attrs => compare s attrs
  | .time stat => time s stat
  | .store r => store dest s r

/-- A log that was never synchronised. -/
def State.fresh (source : File) (replica : Option Bytes) : State :=
  ⟨source, replica, none, .idle, 0⟩

/-- `changed` of the agent, when nothing happens between its two readings. -/
theorem changed_iff {c : Config} {agent : Pitr.State} {src : String} {s : State}
    (hrecord : c.hashStore.readHash agent.objects src = s.record) (hidle : s.phase = .idle)
    (read stat : Bool) :
    changed c agent src read (if stat then some s.source.mtime else none) = false ↔
      ∃ t, run (step dest) s [.start read, .detect stat] = some t ∧ t.phase = .idle := by
  unfold changed
  rw [hrecord]
  cases hr : (if read then s.record else none) with
  | none => simp [run, step, start, detect, hidle, hr]
  | some stored =>
    by_cases hpath : stored.replicaPath = ""
    · cases stat <;> simp [run, step, start, detect, hidle, hr, hpath]
    · cases stat
      · simp [run, step, start, detect, hidle, hr, hpath]
      · by_cases ht : s.source.mtime = stored.modTime <;>
          simp [run, step, start, detect, hidle, hr, hpath, ht]

section Guarded

/-- The next pass will take the log for unchanged. -/
def Recorded (s : State) : Prop :=
  ∃ stored ∈ s.record, stored.replicaPath ≠ "" ∧ s.source.mtime = stored.modTime

instance (s : State) : Decidable (Recorded s) :=
  inferInstanceAs (Decidable (∃ stored ∈ s.record, _))

/-- The time that is about to be recorded. -/
def Phase.pending : Phase → Option Time
  | .recording _ t => some t
  | _ => none

/-- The checksum that was compared, while the time of the source is still to be read. -/
def Phase.compared : Phase → Option String
  | .timing hash => some hash
  | _ => none

/-- The bytes that a copy has read so far. -/
def Phase.copied : Phase → Option Bytes
  | .copying read => some read
  | _ => none

/-- What the recorded time rests on. A write leaves the source with a time that is
neither recorded nor about to be; when the time is read, the source still has the
checksum that was compared, and shares it with no other replica; and a copy of a log
that is already recorded does not fail with only a part of it stored. -/
def Sound (s : State) : Event → Prop
  | .write source =>
    ¬ Recorded { s with source := source } ∧ ∀ t ∈ s.phase.pending, source.mtime ≠ t
  | .copyFail stored =>
    Recorded s → ∀ n ∈ stored, ∀ read ∈ s.phase.copied, read.take n = s.source.content
  | .time stat =>
    ∀ hash ∈ s.phase.compared, (if stat then s.source.mtime else 0) = s.source.mtime →
      hash = encode (crc32c s.source.content) ∧
        ∀ replica ∈ s.dest, encode (crc32c replica) = encode (crc32c s.source.content) →
          replica = s.source.content
  | _ => True

instance (s : State) : (e : Event) → Decidable (Sound s e)
  | .write _ => inferInstanceAs (Decidable (_ ∧ _))
  | .copyFail _ => inferInstanceAs (Decidable (_ → ∀ n ∈ _, ∀ read ∈ _, _))
  | .time _ => inferInstanceAs (Decidable (∀ hash ∈ _, _ → _ ∧ _))
  | .start _ | .detect _ | .copyChunk _ | .hashChunk _ | .hashFail | .compare _ | .store _ =>
    isTrue trivial

/-- A log that passes for unchanged has its content in the replica. -/
structure Inv (s : State) : Prop where
  synced : Recorded s → s.dest = some s.source.content
  detecting {stored} : s.phase = .detecting stored →
    s.record = some stored ∧ stored.replicaPath ≠ ""
  copying {read} : s.phase = .copying read → Recorded s → read <+: s.source.content
  timing {hash} : s.phase = .timing hash → ∃ replica ∈ s.dest, hash = encode (crc32c replica)
  recording {hash t} : s.phase = .recording hash t → t = s.source.mtime →
    s.dest = some s.source.content

theorem inv_fresh (source : File) (replica : Option Bytes) : Inv (.fresh source replica) where
  synced := by simp [Recorded, State.fresh]
  detecting := by simp [State.fresh]
  copying := by simp [State.fresh]
  timing := by simp [State.fresh]
  recording := by simp [State.fresh]

variable {dest} {s t : State}

theorem Inv.write {source : File} (hs : Inv s) (hok : Sound s (.write source)) :
    Inv { s with source := source } where
  synced h := absurd h hok.1
  detecting := hs.detecting
  copying _ h := absurd h hok.1
  timing := hs.timing
  recording h ht := absurd ht.symm (hok.2 _ (by rw [h]; rfl))

theorem Inv.fail (hs : Inv s) : Inv (fail s) where
  synced := hs.synced
  detecting h := by cases h
  copying h := by cases h
  timing h := by cases h
  recording h := by cases h

theorem Inv.start {read : Bool} (hs : Inv s) (h : start s read = some t) : Inv t := by
  unfold Sync.start at h
  split at h <;> try cases h
  split at h <;> cases h
  · exact ⟨hs.synced, by simp, by rintro _ ⟨⟩ _; exact List.nil_prefix, by simp, by simp⟩
  · next stored hr =>
    have hstored : s.record = some stored := by
      by_cases hread : read <;> simp [hread] at hr
      exact hr
    refine ⟨hs.synced, ?_, ?_, ?_, ?_⟩
    · intro _ h
      dsimp only at h
      split at h
      · cases h
      · next hpath =>
        cases h
        exact ⟨hstored, hpath⟩
    · intro _ h _
      dsimp only at h
      split at h <;> cases h
      exact List.nil_prefix
    · intro _ h
      dsimp only at h
      split at h <;> cases h
    · intro _ _ h
      dsimp only at h
      split at h <;> cases h

theorem Inv.detect {stat : Bool} (hs : Inv s) (h : detect s stat = some t) : Inv t := by
  unfold Sync.detect at h
  split at h <;> try cases h
  split at h <;> cases h
  · exact ⟨hs.synced, by simp, by simp, by simp, by simp⟩
  · exact ⟨hs.synced, by simp, by rintro _ ⟨⟩ _; exact List.nil_prefix, by simp, by simp⟩

/-- At the end of the file the bytes read are the whole of it, if it was not written to. -/
theorem eq_of_chunk_eq_nil {f : File} {read : Bytes} {n : Nat} (hp : read <+: f.content)
    (h : f.chunk read.length n = []) : read = f.content := by
  obtain ⟨rest, hrest⟩ := hp
  simp [File.chunk, ← hrest] at h
  simp [← hrest, h]

theorem prefix_append_chunk {f : File} {read : Bytes} {n : Nat} (hp : read <+: f.content) :
    read ++ f.chunk read.length n <+: f.content := by
  obtain ⟨rest, hrest⟩ := hp
  simp only [File.chunk, ← hrest, List.drop_left]
  exact (List.prefix_append_right_inj read).mpr (List.take_prefix _ _)

theorem Inv.copyChunk {n : Nat} (hs : Inv s) (h : copyChunk s n = some t) : Inv t := by
  unfold Sync.copyChunk at h
  split at h <;> try cases h
  next read hread =>
    split at h <;> cases h
    · next hend =>
      refine ⟨?_, by simp, by simp, by simp, by simp⟩
      intro hrec
      exact congrArg some (eq_of_chunk_eq_nil (hs.copying hread hrec) hend)
    · next b bs hchunk =>
      refine ⟨hs.synced, by simp, ?_, by simp, by simp⟩
      rintro _ ⟨⟩ hrec
      rw [← hchunk]
      exact prefix_append_chunk (hs.copying hread hrec)

theorem Inv.copyFail {stored : Option Nat} (hs : Inv s) (hok : Sound s (.copyFail stored))
    (h : copyFail s stored = some t) : Inv t := by
  unfold Sync.copyFail at h
  split at h <;> try cases h
  next read hread =>
    split at h <;> cases h
    · exact hs.fail
    · next n =>
      refine ⟨?_, by simp [Sync.fail], by simp [Sync.fail], by simp [Sync.fail],
        by simp [Sync.fail]⟩
      intro hrec
      exact congrArg some (hok hrec n rfl read (by rw [hread]; rfl))

theorem Inv.hashChunk {n : Nat} (hs : Inv s) (h : hashChunk s n = some t) : Inv t := by
  unfold Sync.hashChunk at h
  split at h <;> try cases h
  split at h <;> cases h
  all_goals exact ⟨hs.synced, by simp, by simp, by simp, by simp⟩

theorem Inv.hashFail (hs : Inv s) (h : hashFail s = some t) : Inv t := by
  unfold Sync.hashFail at h
  split at h <;> cases h
  exact hs.fail

theorem Inv.compare {attrs : Bool} (hs : Inv s) (h : compare s attrs = some t) : Inv t := by
  unfold Sync.compare at h
  split at h <;> try cases h
  split at h
  · cases h
    exact hs.fail
  · next replica hr =>
    have hreplica : s.dest = some replica := by
      by_cases hattrs : attrs <;> simp [hattrs] at hr
      exact hr
    split at h <;> cases h
    · refine ⟨hs.synced, by simp, by simp, ?_, by simp⟩
      rintro _ ⟨⟩
      exact ⟨replica, hreplica, rfl⟩
    · exact hs.fail

theorem Inv.time {stat : Bool} (hs : Inv s) (hok : Sound s (.time stat))
    (h : time s stat = some t) : Inv t := by
  unfold Sync.time at h
  split at h <;> try cases h
  next hash hphase =>
    -- the replica was compared with the very content whose time is now read
    have hcopied : (if stat then s.source.mtime else 0) = s.source.mtime →
        s.dest = some s.source.content := by
      intro ht
      obtain ⟨hhash, huniq⟩ := hok hash (by rw [hphase]; rfl) ht
      obtain ⟨replica, hreplica, hr⟩ := hs.timing hphase
      rw [← huniq replica hreplica (hr.symm.trans hhash)]
      exact hreplica
    split at h <;> cases h
    · next hstat =>
      refine ⟨hs.synced, by simp, by simp, by simp, ?_⟩
      rintro _ _ ⟨⟩ _
      exact hcopied (by simp [hstat])
    · next hstat =>
      refine ⟨hs.synced, by simp, by simp, by simp, ?_⟩
      rintro _ _ ⟨⟩ ht
      exact hcopied (by simpa [hstat] using ht)

theorem Inv.store {r : CallResult} (hs : Inv s) (h : store dest s r = some t) : Inv t := by
  unfold Sync.store at h
  split at h <;> cases h
  next hash time hphase =>
    refine ⟨?_, by simp, by simp, by simp, by simp⟩
    intro hrec
    by_cases hr : r.Effective
    · obtain ⟨stored, hstored, -, ht⟩ := hrec
      simp only [hr, if_true, Option.mem_some_iff] at hstored
      subst hstored
      exact hs.recording hphase ht.symm
    · simp only [hr, if_false] at hrec
      exact hs.synced hrec

theorem Inv.step {e : Event} (hs : Inv s) (hok : Sound s e) (h : step dest s e = some t) :
    Inv t := by
  cases e with
  | write source =>
    cases h
    exact hs.write hok
  | start read => exact hs.start h
  | detect stat => exact hs.detect h
  | copyChunk n => exact hs.copyChunk h
  | copyFail stored => exact hs.copyFail hok h
  | hashChunk n => exact hs.hashChunk h
  | hashFail => exact hs.hashFail h
  | compare attrs => exact hs.compare h
  | time stat => exact hs.time hok h
  | store r => exact hs.store h

/-- What a pass without errors comes to, as long as the source is not written to. -/
structure Clean (s : State) : Prop where
  idle : s.errCount = 0 → s.phase = .idle → s.dest = some s.source.content
  recording {hash t} : s.errCount = 0 → s.phase = .recording hash t → t = s.source.mtime

theorem clean_fail (s : State) : Clean (fail s) where
  idle h := by cases h
  recording h := by cases h

theorem clean_start {read : Bool} (h : start s read = some t) : Clean t := by
  unfold start at h
  split at h <;> try cases h
  split at h <;> cases h
  · exact ⟨by simp, by simp⟩
  · constructor
    · intro _ h
      dsimp only at h
      split at h <;> cases h
    · intro _ _ _ h
      dsimp only at h
      split at h <;> cases h

theorem Inv.clean_detect {stat : Bool} (hs : Inv s) (h : Sync.detect s stat = some t) :
    Clean t := by
  unfold Sync.detect at h
  split at h <;> try cases h
  next stored hphase =>
    split at h <;> cases h
    · next hsame =>
      obtain ⟨hrecord, hpath⟩ := hs.detecting hphase
      exact ⟨fun _ _ => hs.synced ⟨stored, hrecord, hpath, hsame.2⟩, by simp⟩
    · exact ⟨by simp, by simp⟩

theorem Inv.clean_store {r : CallResult} (hs : Inv s) (hc : Clean s)
    (h : Sync.store dest s r = some t) : Clean t := by
  unfold Sync.store at h
  split at h <;> cases h
  next hash time hphase =>
    refine ⟨?_, by simp⟩
    intro herr _
    by_cases hr : r = .ok
    · rw [if_pos hr] at herr
      exact hs.recording hphase (hc.recording herr hphase)
    · rw [if_neg hr] at herr
      cases herr

theorem Inv.clean_step {e : Event} (hs : Inv s) (hc : Clean s) (hquiet : ∀ f, e ≠ .write f)
    (h : Sync.step dest s e = some t) : Clean t := by
  cases e with
  | write f => exact absurd rfl (hquiet f)
  | start read => exact clean_start h
  | detect stat => exact hs.clean_detect h
  | copyChunk n =>
    simp only [Sync.step, Sync.copyChunk] at h
    split at h <;> try cases h
    split at h <;> cases h
    all_goals exact ⟨by simp, by simp⟩
  | copyFail stored =>
    simp only [Sync.step, Sync.copyFail] at h
    split at h <;> try cases h
    split at h <;> cases h
    all_goals exact clean_fail _
  | hashChunk n =>
    simp only [Sync.step, Sync.hashChunk] at h
    split at h <;> try cases h
    split at h <;> cases h
    all_goals exact ⟨by simp, by simp⟩
  | hashFail =>
    simp only [Sync.step, Sync.hashFail] at h
    split at h <;> cases h
    exact clean_fail _
  | compare attrs =>
    simp only [Sync.step, Sync.compare] at h
    split at h <;> try cases h
    split at h
    · cases h
      exact clean_fail _
    · split at h <;> cases h
      · exact ⟨by simp, by simp⟩
      · exact clean_fail _
  | time stat =>
    simp only [Sync.step, Sync.time] at h
    split at h <;> try cases h
    split at h <;> cases h
    · exact ⟨by simp, by rintro _ _ _ ⟨⟩; rfl⟩
    · exact ⟨by simp, by simp⟩
  | store r => exact hs.clean_store hc h

end Guarded

/-- After a pass without errors, and without writes since its start, the replica has
the content of the source. -/
theorem replica_eq_source_of_sound {source : File} {replica : Option Bytes} {es ps : List Event}
    {read : Bool} {t : State}
    (hsound : Meets (step dest) Sound (.fresh source replica) (es ++ .start read :: ps))
    (hrun : run (step dest) (.fresh source replica) (es ++ .start read :: ps) = some t)
    (hquiet : ∀ e ∈ ps, ∀ f, e ≠ .write f) (hidle : t.phase = .idle) (herr : t.errCount = 0) :
    t.dest = some t.source.content := by
  obtain ⟨s, hs, hpass⟩ := run_append.mp hrun
  obtain ⟨hbefore, hafter⟩ := meets_append.mp hsound
  have hstep : ∀ s e t, Inv s → Sound s e → step dest s e = some t → Inv t :=
    fun _ _ _ hs hok h => hs.step hok h
  have hinv : Inv s := invariant hstep (inv_fresh source replica) hbefore hs
  obtain ⟨u, hu, hpass⟩ := run_cons.mp hpass
  obtain ⟨hok, hrest⟩ := hafter s hs
  -- from its start on, the pass keeps what it will have achieved if it meets no error
  have hclean : Inv t ∧ Clean t := by
    apply invariant (I := fun s => Inv s ∧ Clean s) _ ⟨hinv.step hok hu, clean_start hu⟩
      ((hrest u hu).and_forall hquiet) hpass
    rintro s e t ⟨hs, hc⟩ ⟨hok, hw⟩ h
    exact ⟨hs.step hok h, hs.clean_step hc hw h⟩
  exact hclean.2.idle herr hidle

section Undisturbed

/-- The call of the step succeeds, and the source is left alone. -/
def Succeeds : Event → Prop
  | .write _ | .copyFail _ | .hashFail => False
  | .compare attrs => attrs
  | .time stat => stat
  | .store r => r = .ok
  | _ => True

/-- A pass that nothing disturbs compares the replica with what it copied. -/
structure Undisturbed (s : State) : Prop where
  errCount : s.errCount = 0
  copying {read} : s.phase = .copying read → read <+: s.source.content
  hashing {crc offset} : s.phase = .hashing crc offset →
    s.dest = some s.source.content ∧ crc = crc32c (s.source.content.take offset)
  comparing {srcHash} : s.phase = .comparing srcHash →
    s.dest = some s.source.content ∧ srcHash = encode (crc32c s.source.content)

variable {dest} {s t : State}

theorem undisturbed_start {read : Bool} (h : start s read = some t) : Undisturbed t := by
  unfold start at h
  split at h <;> try cases h
  split at h <;> cases h
  · exact ⟨rfl, by rintro _ ⟨⟩; exact List.nil_prefix, by simp, by simp⟩
  · next stored _ =>
    by_cases hpath : stored.replicaPath = ""
    · simp only [hpath, if_true]
      exact ⟨rfl, by rintro _ ⟨⟩; exact List.nil_prefix, by simp, by simp⟩
    · simp only [hpath, if_false]
      exact ⟨rfl, by simp, by simp, by simp⟩

theorem Undisturbed.copyChunk {n : Nat} (hs : Undisturbed s) (h : copyChunk s n = some t) :
    Undisturbed t := by
  unfold Sync.copyChunk at h
  split at h <;> try cases h
  next read hread =>
    split at h <;> cases h
    · next hend =>
      have hwhole : read = s.source.content := eq_of_chunk_eq_nil (hs.copying hread) hend
      refine ⟨hs.errCount, by simp, ?_, by simp⟩
      rintro _ _ ⟨⟩
      exact ⟨congrArg some hwhole, by simp⟩
    · next b bs hchunk =>
      refine ⟨hs.errCount, ?_, by simp, by simp⟩
      rintro _ ⟨⟩
      rw [← hchunk]
      exact prefix_append_chunk (hs.copying hread)

theorem Undisturbed.hashChunk {n : Nat} (hs : Undisturbed s) (h : hashChunk s n = some t) :
    Undisturbed t := by
  unfold Sync.hashChunk at h
  split at h <;> try cases h
  next crc offset hphase =>
    obtain ⟨hdest, hcrc⟩ := hs.hashing hphase
    split at h <;> cases h
    · next hend =>
      have hlen : s.source.content.length ≤ offset := by
        simpa [File.chunk] using hend
      refine ⟨hs.errCount, by simp, by simp, ?_⟩
      rintro _ ⟨⟩
      rw [hcrc, List.take_of_length_le hlen]
      exact ⟨hdest, rfl⟩
    · next b bs hchunk =>
      refine ⟨hs.errCount, by simp, ?_, by simp⟩
      rintro _ _ ⟨⟩
      refine ⟨hdest, ?_⟩
      -- the chunk continues the bytes that were read before it
      have htake : s.source.content.take offset ++ b :: bs =
          s.source.content.take (offset + (b :: bs).length) := by
        rw [List.take_add, ← hchunk]
        simp [File.chunk]
      rw [hcrc, crc32c, update_update, htake]
      rfl

theorem Undisturbed.compare (hs : Undisturbed s) (h : compare s true = some t) :
    Undisturbed t := by
  unfold Sync.compare at h
  split at h <;> try cases h
  next srcHash hphase =>
    obtain ⟨hdest, hhash⟩ := hs.comparing hphase
    simp only [hdest, if_true, hhash] at h
    cases h
    exact ⟨hs.errCount, by simp, by simp, by simp⟩

theorem Undisturbed.step {e : Event} (hs : Undisturbed s) (he : Succeeds e)
    (h : step dest s e = some t) : Undisturbed t := by
  cases e with
  | write f => cases he
  | start read => exact undisturbed_start h
  | detect stat =>
    simp only [Sync.step, Sync.detect] at h
    split at h <;> try cases h
    split at h <;> cases h
    · exact ⟨hs.errCount, by simp, by simp, by simp⟩
    · exact ⟨hs.errCount, by rintro _ ⟨⟩; exact List.nil_prefix, by simp, by simp⟩
  | copyChunk n => exact hs.copyChunk h
  | copyFail stored => cases he
  | hashChunk n => exact hs.hashChunk h
  | hashFail => cases he
  | compare attrs =>
    obtain rfl : attrs = true := he
    exact hs.compare h
  | time stat =>
    obtain rfl : stat = true := he
    simp only [Sync.step, Sync.time] at h
    split at h <;> cases h
    exact ⟨hs.errCount, by simp, by simp, by simp⟩
  | store r =>
    obtain rfl : r = .ok := he
    simp only [Sync.step, Sync.store] at h
    split at h <;> cases h
    exact ⟨hs.errCount, by simp, by simp, by simp⟩

/-- A pass that nothing disturbs reports no error. -/
theorem errCount_of_succeeds {read : Bool} {ps : List Event}
    (hrun : run (Sync.step dest) s (.start read :: ps) = some t) (hps : ∀ e ∈ ps, Succeeds e) :
    t.errCount = 0 := by
  obtain ⟨u, hu, hpass⟩ := run_cons.mp hrun
  have hmeets : Meets (Sync.step dest) (fun _ _ => True) u ps := meets_of_forall (by simp) u ps
  have ht : Undisturbed t := by
    apply invariant _ (undisturbed_start hu) (hmeets.and_forall hps) hpass
    rintro s e t hs ⟨-, he⟩ h
    exact hs.step he h
  exact ht.errCount

end Undisturbed

/-- One pass over a log that was not recorded, with the writes that land after its comparison. -/
def samplePass (writes : List File) : List Event :=
  ([.start true, .copyChunk 7, .copyChunk 7, .hashChunk 7, .hashChunk 7, .compare true] :
      List Event) ++
    (writes.map .write : List Event) ++ ([.time true, .store .ok] : List Event)

/-- A write between the comparison and the reading of the time is taken for replicated. -/
theorem late_write_not_replicated :
    ∃ t, run (step "gs://bucket/log") (.fresh ⟨[1], 1⟩ none)
        (samplePass [⟨[2], 2⟩] ++ .start true :: [.detect true]) = some t ∧
      t.phase = .idle ∧ t.errCount = 0 ∧ t.source.content = [2] ∧ t.dest = some [1] := by
  decide +kernel

/-- A write after a pass is found by the next one. -/
theorem rewritten_log_replicated :
    ∃ t, run (step "gs://bucket/log") (.fresh ⟨[1], 1⟩ none)
        ((samplePass [] ++ [.write ⟨[2], 2⟩]) ++ .start true :: .detect true ::
          (samplePass []).tail) = some t ∧ t.dest = some t.source.content := by
  have hsound : Meets (step "gs://bucket/log") Sound (.fresh ⟨[1], 1⟩ none)
      ((samplePass [] ++ [.write ⟨[2], 2⟩]) ++ .start true :: .detect true ::
        (samplePass []).tail) := by
    decide +kernel
  have hrun : ∃ t, run (step "gs://bucket/log") (.fresh ⟨[1], 1⟩ none)
      ((samplePass [] ++ [.write ⟨[2], 2⟩]) ++ .start true :: .detect true ::
        (samplePass []).tail) = some t ∧ t.phase = .idle ∧ t.errCount = 0 := by
    decide +kernel
  obtain ⟨t, hrun, hidle, herr⟩ := hrun
  refine ⟨t, hrun, replica_eq_source_of_sound _ hsound hrun ?_ hidle herr⟩
  simp [samplePass]

end ElCarro.Pitr.Sync
