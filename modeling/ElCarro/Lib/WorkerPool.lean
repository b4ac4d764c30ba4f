import Mathlib.Algebra.BigOperators.Fin
import Mathlib.Algebra.Order.BigOperators.Group.Finset
import Mathlib.Data.Multiset.AddSub
import ElCarro.Lib.Runs

/-! # A producer and a pool of workers

The producer goes through a list of entries and hands items to workers over an
unbuffered channel: an item changes hands when the producer sends and a worker
waits. Workers leave when the channel is closed or the work is cancelled; the
producer does not look whether it is. Items are accounted for throughout a run.
-/

namespace WorkerPool

variable {α : Type*} {n : ℕ}

inductive Worker (α : Type*) where
  | waiting
  | busy (item : α)
  | exited
  deriving DecidableEq

/-- An entry without an item is passed over. -/
inductive Producer (α : Type*) where
  | working (rest : List (Option α))
  | sending (item : α) (rest : List (Option α))
  | closed
  deriving DecidableEq

structure State (α : Type*) (n : ℕ) where
  producer : Producer α
  workers : Fin n → Worker α
  cancelled : Bool
  /-- The producer met an error and left out the rest of the entries. -/
  gaveUp : Bool
  /-- The items that were worked on and how it went, latest first. -/
  finished : List (α × Bool)

/-- All workers wait, and the producer has the entries before it. -/
def init (n : ℕ) (entries : List (Option α)) : State α n :=
  ⟨.working entries, fun _ => .waiting, false, false, []⟩

inductive Event (n : ℕ) where
  /-- The producer comes to its next entry, or to an error there. -/
  | pass (ok : Bool)
  | handOver (w : Fin n)
  | close
  | cancel
  | finish (w : Fin n) (ok : Bool)
  /-- A worker sees that the work is cancelled. -/
  | quit (w : Fin n)
  /-- A worker sees that the channel is closed. -/
  | drain (w : Fin n)
  deriving DecidableEq

def State.setWorker (s : State α n) (w : Fin n) (worker : Worker α) : State α n :=
  { s with workers := Function.update s.workers w worker }

/-- One step; only a fallible producer can meet an error. -/
def step (fallible : Bool) (s : State α n) : Event n → Option (State α n)
  | .pass ok =>
    match s.producer, ok, fallible with
    | .working (some item :: rest), true, _ => some { s with producer := .sending item rest }
    | .working (none :: rest), true, _ => some { s with producer := .working rest }
    | .working (_ :: _), false, true => some { s with producer := .working [], gaveUp := true }
    | _, _, _ => none
  | .handOver w =>
    match s.producer, s.workers w with
    | .sending item rest, .waiting =>
      some { s.setWorker w (.busy item) with producer := .working rest }
    | _, _ => none
  | .close =>
    match s.producer with
    | .working [] => some { s with producer := .closed }
    | _ => none
  | .cancel => some { s with cancelled := true }
  | .finish w ok =>
    match s.workers w with
    | .busy item => some { s.setWorker w .waiting with finished := (item, ok) :: s.finished }
    | _ => none
  | .quit w =>
    match s.workers w, s.cancelled with
    | .waiting, true => some (s.setWorker w .exited)
    | _, _ => none
  | .drain w =>
    match s.workers w, s.producer with
    | .waiting, .closed => some (s.setWorker w .exited)
    | _, _ => none

/-- The items that the producer has not handed over yet. -/
def Producer.items : Producer α → List α
  | .working rest => rest.reduceOption
  | .sending item rest => item :: rest.reduceOption
  | .closed => []

/-- The producer waits for a worker, and none is left. -/
def Stuck (s : State α n) : Prop :=
  (∃ item rest, s.producer = .sending item rest) ∧ ∀ w, s.workers w = .exited

/-- Nothing is cancelled before the last item has been handed over. -/
def Timely (s : State α n) (e : Event n) : Prop := e = .cancel → s.producer.items = []

instance [DecidableEq α] (s : State α n) (e : Event n) : Decidable (Timely s e) :=
  inferInstanceAs (Decidable (_ → _))

/-- Every worker has left after the channel was closed. -/
def Done (s : State α n) : Prop := s.producer = .closed ∧ ∀ w, s.workers w = .exited

instance [DecidableEq α] (s : State α n) : Decidable (Done s) :=
  inferInstanceAs (Decidable (_ ∧ _))

section Steps

variable {fallible : Bool} {s t : State α n} {e : Event n}

/-- What a step can do. -/
inductive Moves (fallible : Bool) (s : State α n) : Event n → State α n → Prop where
  | arrive {item : α} {rest : List (Option α)} (hp : s.producer = .working (some item :: rest)) :
      Moves fallible s (.pass true) { s with producer := .sending item rest }
  | skip {rest : List (Option α)} (hp : s.producer = .working (none :: rest)) :
      Moves fallible s (.pass true) { s with producer := .working rest }
  | giveUp {entry : Option α} {rest : List (Option α)} (hf : fallible = true)
      (hp : s.producer = .working (entry :: rest)) :
      Moves fallible s (.pass false) { s with producer := .working [], gaveUp := true }
  | handOver {w : Fin n} {item : α} {rest : List (Option α)}
      (hp : s.producer = .sending item rest) (hw : s.workers w = .waiting) :
      Moves fallible s (.handOver w)
        { s.setWorker w (.busy item) with producer := .working rest }
  | close (hp : s.producer = .working []) :
      Moves fallible s .close { s with producer := .closed }
  | cancel : Moves fallible s .cancel { s with cancelled := true }
  | finish {w : Fin n} {item : α} (ok : Bool) (hw : s.workers w = .busy item) :
      Moves fallible s (.finish w ok)
        { s.setWorker w .waiting with finished := (item, ok) :: s.finished }
  | quit {w : Fin n} (hw : s.workers w = .waiting) (hc : s.cancelled = true) :
      Moves fallible s (.quit w) (s.setWorker w .exited)
  | drain {w : Fin n} (hw : s.workers w = .waiting) (hp : s.producer = .closed) :
      Moves fallible s (.drain w) (s.setWorker w .exited)

theorem moves_of_step (h : step fallible s e = some t) : Moves fallible s e t := by
  cases e with
  | pass ok =>
    simp only [step] at h
    split at h
    · next hp => cases h; exact .arrive hp
    · next hp => cases h; exact .skip hp
    · next hp => cases h; exact .giveUp rfl hp
    · cases h
  | handOver w =>
    simp only [step] at h
    split at h
    · next hp hw => cases h; exact .handOver hp hw
    · cases h
  | close =>
    simp only [step] at h
    split at h
    · next hp => cases h; exact .close hp
    · cases h
  | cancel => cases h; exact .cancel
  | finish w ok =>
    simp only [step] at h
    split at h
    · next hw => cases h; exact .finish ok hw
    · cases h
  | quit w =>
    simp only [step] at h
    split at h
    · next hw hc => cases h; exact .quit hw hc
    · cases h
  | drain w =>
    simp only [step] at h
    split at h
    · next hw hp => cases h; exact .drain hw hp
    · cases h

end Steps

section Progress

variable {fallible : Bool} {s t : State α n} {e : Event n} {es : List (Event n)}

/-- As long as there is something to hand over, all workers are there. -/
def Attended (s : State α n) : Prop :=
  s.producer.items ≠ [] → s.cancelled = false ∧ ∀ w, s.workers w ≠ .exited

theorem attended_init (entries : List (Option α)) : Attended (init n entries) :=
  fun _ => ⟨rfl, fun _ => by simp [init]⟩

theorem attended_step (hs : Attended s) (ht : Timely s e) (h : step fallible s e = some t) :
    Attended t := by
  have hworker : ∀ {w : Fin n} {worker : Worker α}, worker ≠ .exited →
      (∀ v, s.workers v ≠ .exited) → ∀ v, Function.update s.workers w worker v ≠ .exited := by
    intro w worker hne hall v
    by_cases hv : v = w
    · subst hv
      rwa [Function.update_self]
    · rw [Function.update_of_ne hv]
      exact hall v
  cases moves_of_step h with
  | arrive hp => exact fun hne => hs (by rw [hp]; exact hne)
  | skip hp => exact fun hne => hs (by rw [hp]; exact hne)
  | giveUp hf hp => exact fun hne => absurd rfl hne
  | handOver hp hw =>
    intro _
    obtain ⟨hc, hall⟩ := hs (by rw [hp]; exact List.cons_ne_nil _ _)
    exact ⟨hc, hworker (by simp) hall⟩
  | close hp => exact fun hne => absurd rfl hne
  | cancel => exact fun hne => absurd (ht rfl) hne
  | finish ok hw =>
    intro hne
    obtain ⟨hc, hall⟩ := hs hne
    exact ⟨hc, hworker (by simp) hall⟩
  | quit hw hc =>
    intro hne
    rw [(hs hne).1] at hc
    cases hc
  | drain hw hp =>
    intro hne
    simp only [State.setWorker, hp] at hne
    exact absurd rfl hne

theorem not_stuck_of_attended (hn : 0 < n) (hs : Attended s) : ¬ Stuck s := by
  rintro ⟨⟨item, rest, hp⟩, hall⟩
  have hne : s.producer.items ≠ [] := by
    rw [hp]
    exact List.cons_ne_nil _ _
  exact (hs hne).2 ⟨0, hn⟩ (hall ⟨0, hn⟩)

/-- The producer always finds a worker if nothing is cancelled too early. -/
theorem never_stuck (hn : 0 < n) (entries : List (Option α))
    (hm : Runs.Meets (step fallible) Timely (init n entries) es) :
    Runs.Always (step fallible) (fun s => ¬ Stuck s) (init n entries) es :=
  Runs.always_of_invariant (fun _ _ _ hs ht h => attended_step hs ht h)
    (fun _ hs => not_stuck_of_attended hn hs) (attended_init entries) hm

/-- Once the work is cancelled, a worker may leave as soon as its hands are free. -/
theorem exists_run_leave (hc : s.cancelled = true) (w : Fin n) :
    ∃ es t, Runs.run (step fallible) s es = some t ∧ t.cancelled = true ∧
      t.producer = s.producer ∧ t.workers = Function.update s.workers w .exited := by
  cases hw : s.workers w with
  | exited => exact ⟨[], s, rfl, hc, rfl, by rw [← hw, Function.update_eq_self]⟩
  | waiting =>
    exact ⟨[.quit w], s.setWorker w .exited, by simp [Runs.run, step, hw, hc], hc, rfl, rfl⟩
  | busy item =>
    refine ⟨[.finish w false, .quit w],
      { s.setWorker w .exited with finished := (item, false) :: s.finished }, ?_, hc, rfl, rfl⟩
    simp [Runs.run, step, hw, hc, State.setWorker]

/-- Every worker may leave before it is handed another item. -/
theorem exists_run_exited (hc : s.cancelled = true) :
    ∃ es t, Runs.run (step fallible) s es = some t ∧ t.producer = s.producer ∧
      ∀ w, t.workers w = .exited := by
  have hleave : ∀ (ws : List (Fin n)) (s : State α n), s.cancelled = true → ∃ es t,
      Runs.run (step fallible) s es = some t ∧ t.producer = s.producer ∧
        ∀ w, w ∈ ws ∨ s.workers w = .exited → t.workers w = .exited := by
    intro ws
    induction ws with
    | nil => exact fun s _ => ⟨[], s, rfl, rfl, by simp⟩
    | cons w ws ih =>
      intro s hc
      obtain ⟨es, u, hu, hcu, hpu, hwu⟩ := exists_run_leave hc w
      obtain ⟨fs, t, ht, hpt, hall⟩ := ih u hcu
      refine ⟨es ++ fs, t, Runs.run_append.mpr ⟨u, hu, ht⟩, hpt.trans hpu, ?_⟩
      intro v hv
      apply hall
      rw [hwu]
      by_cases hvw : v = w
      · subst hvw
        exact Or.inr (Function.update_self ..)
      · rw [Function.update_of_ne hvw]
        exact hv.imp_left fun hm => (List.mem_cons.mp hm).resolve_left hvw
  obtain ⟨es, t, hr, hp, hall⟩ := hleave (List.finRange n) s hc
  exact ⟨es, t, hr, hp, fun w => hall w (Or.inl (List.mem_finRange w))⟩

/-- The producer gets to its next item without looking for a worker. -/
theorem exists_run_sending {rest : List (Option α)} (hp : s.producer = .working rest)
    (hne : rest.reduceOption ≠ []) :
    ∃ es t, Runs.run (step fallible) s es = some t ∧ t.cancelled = s.cancelled ∧
      ∃ item later, t.producer = .sending item later := by
  induction rest generalizing s with
  | nil => exact absurd rfl hne
  | cons entry rest ih =>
    cases entry with
    | some item =>
      exact ⟨[.pass true], { s with producer := .sending item rest },
        by simp [Runs.run, step, hp], rfl, item, rest, rfl⟩
    | none =>
      obtain ⟨es, t, hr, hc, hsend⟩ := ih (s := { s with producer := .working rest }) rfl hne
      exact ⟨.pass true :: es, t, Runs.run_cons.mpr ⟨_, by simp [step, hp], hr⟩, hc, hsend⟩

/-- If the work is cancelled with items left, the producer may get stuck. -/
theorem exists_run_stuck (hc : s.cancelled = true) (hne : s.producer.items ≠ []) :
    ∃ es t, Runs.run (step fallible) s es = some t ∧ Stuck t := by
  have hsending : ∃ es t, Runs.run (step fallible) s es = some t ∧ t.cancelled = true ∧
      ∃ item later, t.producer = .sending item later := by
    cases hp : s.producer with
    | working rest =>
      obtain ⟨es, t, hr, hct, hsend⟩ := exists_run_sending hp (by rwa [hp] at hne)
      exact ⟨es, t, hr, hct.trans hc, hsend⟩
    | sending item rest => exact ⟨[], s, rfl, hc, item, rest, hp⟩
    | closed =>
      rw [hp] at hne
      exact absurd rfl hne
  obtain ⟨es, u, hu, hcu, item, later, hpu⟩ := hsending
  obtain ⟨fs, t, ht, hpt, hall⟩ := exists_run_exited hcu
  exact ⟨es ++ fs, t, Runs.run_append.mpr ⟨u, hu, ht⟩, ⟨item, later, hpt.trans hpu⟩, hall⟩

end Progress

section Account

variable {fallible : Bool} {s t : State α n} {e : Event n} {es : List (Event n)}

/-- What a worker has in hand. -/
def Worker.item : Worker α → Multiset α
  | .busy item => {item}
  | _ => 0

def State.inHand (s : State α n) : Multiset α := ∑ w, (s.workers w).item

/-- All items: those not handed over, those in the hands of workers and the finished ones. -/
def State.account (s : State α n) : Multiset α :=
  (s.producer.items : Multiset α) + s.inHand + (s.finished.map Prod.fst : List α)

theorem inHand_setWorker (s : State α n) (w : Fin n) (worker : Worker α) :
    (s.setWorker w worker).inHand + (s.workers w).item = s.inHand + worker.item := by
  have hsum : ∀ f : Fin n → Worker α,
      ∑ v, (f v).item = (f w).item + ∑ v ∈ Finset.univ.erase w, (f v).item :=
    fun f => (Finset.add_sum_erase _ _ (Finset.mem_univ w)).symm
  have hrest : ∑ v ∈ Finset.univ.erase w, (Function.update s.workers w worker v).item =
      ∑ v ∈ Finset.univ.erase w, (s.workers v).item := by
    apply Finset.sum_congr rfl
    intro v hv
    rw [Function.update_of_ne (Finset.ne_of_mem_erase hv)]
  unfold State.inHand State.setWorker
  dsimp only
  rw [hsum, hsum s.workers, hrest, Function.update_self, add_right_comm, add_comm worker.item,
    add_right_comm]

/-- A worker with free hands that leaves takes nothing along. -/
theorem inHand_exit {w : Fin n} (hw : s.workers w = .waiting) :
    (s.setWorker w .exited).inHand = s.inHand := by
  simpa [hw, Worker.item] using inHand_setWorker s w .exited

/-- A producer that meets no error loses no item, and neither does a worker. -/
theorem account_step (h : step false s e = some t) : t.account = s.account := by
  cases moves_of_step h with
  | arrive hp =>
    unfold State.account
    rw [hp]
    rfl
  | skip hp =>
    unfold State.account
    rw [hp]
    rfl
  | giveUp hf hp => cases hf
  | @handOver w item rest hp hw =>
    have hset : (s.setWorker w (.busy item)).inHand = s.inHand + {item} := by
      simpa [hw, Worker.item] using inHand_setWorker s w (.busy item)
    have hitems : (s.producer.items : Multiset α) = {item} + (rest.reduceOption : List α) := by
      rw [hp]
      rfl
    calc (rest.reduceOption : Multiset α) + (s.setWorker w (.busy item)).inHand +
          (s.finished.map Prod.fst : List α)
        = {item} + (rest.reduceOption : List α) + s.inHand + (s.finished.map Prod.fst : List α) := by
          rw [hset, ← add_assoc, add_comm (_ + s.inHand), ← add_assoc]
      _ = s.account := by rw [State.account, hitems]
  | close hp =>
    unfold State.account
    rw [hp]
    rfl
  | cancel => rfl
  | @finish w item ok hw =>
    have hset : (s.setWorker w .waiting).inHand + {item} = s.inHand := by
      simpa [hw, Worker.item] using inHand_setWorker s w .waiting
    calc (s.producer.items : Multiset α) + (s.setWorker w .waiting).inHand +
          ((item :: s.finished.map Prod.fst : List α) : Multiset α)
        = s.producer.items + ((s.setWorker w .waiting).inHand + {item}) +
            (s.finished.map Prod.fst : List α) := by
          rw [← Multiset.cons_coe, ← Multiset.singleton_add, ← add_assoc, ← add_assoc]
      _ = s.account := by rw [hset, State.account]
  | quit hw hc => rw [State.account, inHand_exit hw]; rfl
  | drain hw hp => rw [State.account, inHand_exit hw]; rfl

/-- When all is done, the finished items are the ones that there were. -/
theorem finished_perm_of_done {entries : List (Option α)}
    (hr : Runs.run (step false) (init n entries) es = some t) (hd : Done t) :
    (t.finished.map Prod.fst).Perm entries.reduceOption := by
  have hinit : (init n entries).account = (entries.reduceOption : List α) := by
    simp [State.account, init, State.inHand, Worker.item, Producer.items]
  have hrun : t.account = (init n entries).account := by
    have hm : Runs.Meets (step false) (fun _ _ => True) (init n entries) es :=
      Runs.meets_of_forall (fun _ _ => trivial) _ _
    refine Runs.invariant (I := fun s => s.account = (init n entries).account) ?_ rfl hm hr
    intro s e u hs _ h
    exact (account_step h).trans hs
  have hlast : t.account = (t.finished.map Prod.fst : List α) := by
    simp [State.account, State.inHand, Worker.item, Producer.items, hd.1, hd.2]
  exact Multiset.coe_eq_coe.mp (hlast.symm.trans (hrun.trans hinit))

end Account

end WorkerPool
