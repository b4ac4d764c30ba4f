import ElCarro.Lib.Paging
import ElCarro.Lro.Publication

/-! # Listing the operations

`ListOperations` lists the job map in pages, in the order of the IDs. The token of the
next page is the ID of the first job that did not fit, and the next request finds its
place by comparing IDs with the token, whatever has become of that job in the meantime.
-/

namespace ElCarro.Lro

open GoTime Runs

structure ListOperationsResponse where
  operations : List Operation
  nextPageToken : String
  deriving DecidableEq, Repr

/-- Where a token points: the empty one, to the beginning. -/
def cursor (pageToken : String) : Option String :=
  if pageToken = "" then none else some pageToken

/-- A response, read as a page with a cursor. -/
def ListOperationsResponse.toPage (r : ListOperationsResponse) : List String × Option String :=
  (r.operations.map Operation.name, cursor r.nextPageToken)

namespace Server

/-- The loop of `ListOperations` over the IDs, with the operations so far. -/
def listLoop (s : Server) (pageSize : Int) (pageToken : String) :
    List String → List Operation → Option ListOperationsResponse
  | [], operations => some ⟨operations, ""⟩
  | id :: ids, operations =>
    if pageToken = "" ∨ pageToken ≤ id then
      if pageSize ≤ operations.length then some ⟨operations, id⟩
      else do
        let h ← s.jobs.lookup id
        let j ← s.heap[h]?
        let op ← getOperationData id j.job
        listLoop s pageSize pageToken ids (operations ++ [op])
    else listLoop s pageSize pageToken ids operations

/-- The page size of a request, with the default in the place of zero. -/
def effectivePageSize (pageSize : Int) : Int :=
  if pageSize = 0 then Service.defaultPageSize else pageSize

/-- `ListOperations`; the outer `none` is the nil dereference on a job without a task. -/
def listOperations (s : Server) (pageSize : Int) (pageToken : String) :
    Option ListOperationsResponse :=
  s.listLoop (effectivePageSize pageSize) pageToken (Service.sortedMapKeys s) []

/-- The pages of a client that follows the tokens, with the server at each of its requests. -/
def followPages (pageSize : Int) : String → List Server → Option (List ListOperationsResponse)
  | _, [] => some []
  | pageToken, s :: ss => do
    let r ← s.listOperations pageSize pageToken
    if r.nextPageToken = "" then some [r]
    else do
      let rs ← followPages pageSize r.nextPageToken ss
      some (r :: rs)

/-- The IDs on the pages. -/
def listedIDs (rs : List ListOperationsResponse) : List String :=
  rs.flatMap fun r => r.operations.map Operation.name

/-- The last page has an empty token. -/
def Complete (rs : List ListOperationsResponse) : Prop :=
  ∃ r, rs.getLast? = some r ∧ r.nextPageToken = ""

/-- Every job in the map has been started. -/
def JobsStarted (s : Server) : Prop :=
  ∀ id h, s.jobs.lookup id = some h → ∃ j, s.heap[h]? = some j ∧ j.job.task ≠ none

variable {s : Server} {pageSize : Int} {pageToken : String}

theorem getOperationData_name {id : String} {j : Job} {op : Operation}
    (h : getOperationData id j = some op) : op.name = id := by
  obtain ⟨⟨done, result, e⟩, -, rfl⟩ := Option.map_eq_some_iff.mp h
  rcases result with _ | value <;> rcases e with _ | ⟨code, m⟩ | m <;> rfl

theorem effectivePageSize_pos (h : 0 ≤ pageSize) : 0 < effectivePageSize pageSize := by
  unfold effectivePageSize Service.defaultPageSize
  split <;> omega

/-- The IDs from the token on. -/
def fromToken (pageToken : String) (ids : List String) : List String :=
  ids.filter fun id => pageToken = "" ∨ pageToken ≤ id

/-- The loop takes the next IDs up to the page size, and leaves the first one that is too many. -/
theorem listLoop_eq_some {k : ℕ} {ids : List String} {operations : List Operation}
    {r : ListOperationsResponse} (h : s.listLoop k pageToken ids operations = some r)
    (hk : operations.length ≤ k) :
    r.operations.map Operation.name = operations.map Operation.name ++
        (fromToken pageToken ids).take (k - operations.length) ∧
      r.nextPageToken = ((fromToken pageToken ids)[k - operations.length]?).getD "" := by
  induction ids generalizing operations with
  | nil =>
    obtain rfl := Option.some.inj h
    simp [fromToken]
  | cons id ids ih =>
    rw [listLoop] at h
    split at h
    · next htoken =>
      have hcons : fromToken pageToken (id :: ids) = id :: fromToken pageToken ids :=
        List.filter_cons_of_pos (decide_eq_true htoken)
      rw [hcons]
      split at h
      · next hfull =>
        obtain rfl := Option.some.inj h
        have hlen : k - operations.length = 0 := by omega
        simp [hlen]
      · next hroom =>
        obtain ⟨_, -, h⟩ := Option.bind_eq_some_iff.mp h
        obtain ⟨_, -, h⟩ := Option.bind_eq_some_iff.mp h
        obtain ⟨op, hop, h⟩ := Option.bind_eq_some_iff.mp h
        have hlen : (operations ++ [op]).length = operations.length + 1 := by simp
        obtain ⟨hnames, hnext⟩ := ih h (by omega)
        have hsub : k - operations.length = k - (operations ++ [op]).length + 1 := by omega
        rw [hsub]
        simp [hnames, hnext, getOperationData_name hop]
    · next htoken =>
      have hcons : fromToken pageToken (id :: ids) = fromToken pageToken ids :=
        List.filter_cons_of_neg (by simpa only [decide_eq_true_eq] using htoken)
      rw [hcons]
      exact ih h hk

/-- The jobs that have been started are reported. -/
theorem listLoop_isSome (hs : s.JobsStarted) {ids : List String} (hids : ∀ id ∈ ids, id ∈ s.jobs)
    (operations : List Operation) : (s.listLoop pageSize pageToken ids operations).isSome := by
  induction ids generalizing operations with
  | nil => rfl
  | cons id ids ih =>
    have hrest := ih fun i hi => hids i (List.mem_cons_of_mem _ hi)
    rw [listLoop]
    split
    · split
      · rfl
      · obtain ⟨h, hh⟩ := Finmap.mem_iff.mp (hids id List.mem_cons_self)
        obtain ⟨j, hj, htask⟩ := hs id h hh
        obtain ⟨task, ht⟩ := Option.ne_none_iff_exists'.mp htask
        simpa [hh, hj, getOperationData, Job.status, Job.isDone, ht] using hrest _
    · exact hrest operations

theorem not_lt_empty (id : String) : ¬ id < "" := by
  rw [String.lt_iff_toList_lt]
  exact List.not_lt_nil _

theorem fromToken_sortedMapKeys (s : Server) (pageToken : String) :
    fromToken pageToken (Service.sortedMapKeys s) =
      Paging.rest s.jobs.keys (cursor pageToken) := by
  unfold fromToken Paging.rest cursor Service.sortedMapKeys
  refine List.filter_congr fun id _ => ?_
  by_cases h : pageToken = "" <;> simp [h]

/-- `ListOperations` gives the page of the set of IDs at the cursor of its token. -/
theorem listOperations_toPage {r : ListOperationsResponse} (hsize : 0 ≤ pageSize)
    (h : s.listOperations pageSize pageToken = some r) :
    r.toPage = (Paging.page (effectivePageSize pageSize).toNat s.jobs.keys (cursor pageToken),
      Paging.next (effectivePageSize pageSize).toNat s.jobs.keys (cursor pageToken)) := by
  have hpos := effectivePageSize_pos hsize
  obtain ⟨k, hk⟩ : ∃ k : ℕ, effectivePageSize pageSize = k := ⟨_, (Int.toNat_of_nonneg hpos.le).symm⟩
  unfold listOperations at h
  rw [hk] at h hpos ⊢
  obtain ⟨hnames, hnext⟩ := listLoop_eq_some h (Nat.zero_le k)
  rw [fromToken_sortedMapKeys, List.length_nil, Nat.sub_zero] at hnames hnext
  change r.nextPageToken = (Paging.next k s.jobs.keys (cursor pageToken)).getD "" at hnext
  have hcursor : cursor r.nextPageToken = Paging.next k s.jobs.keys (cursor pageToken) := by
    rw [hnext]
    cases hn : Paging.next k s.jobs.keys (cursor pageToken) with
    | none => simp [cursor]
    | some id =>
      -- a job has come before it, so that it is not the empty ID
      obtain ⟨a, ha⟩ := Paging.exists_mem_page (by omega) hn
      have hne : id ≠ "" := by
        rintro rfl
        exact not_lt_empty a (Paging.lt_of_mem_page hn ha)
      simp [cursor, hne]
  rw [ListOperationsResponse.toPage, hcursor, hnames]
  rfl

/-- The IDs of a page are those that the steps of the service visit. -/
theorem listOperations_names {r : ListOperationsResponse} (hsize : 0 ≤ pageSize)
    (h : s.listOperations pageSize pageToken = some r) :
    r.operations.map Operation.name = Service.page s pageSize pageToken := by
  obtain ⟨hnames, -⟩ := Prod.mk.inj (listOperations_toPage hsize h)
  rw [hnames, Paging.page, ← fromToken_sortedMapKeys]
  rfl

theorem listOperations_isSome (hs : s.JobsStarted) (pageSize : Int) (pageToken : String) :
    (s.listOperations pageSize pageToken).isSome :=
  listLoop_isSome hs (by simp [Service.sortedMapKeys, Finmap.mem_keys]) []

theorem cursor_eq_none_iff : cursor pageToken = none ↔ pageToken = "" := by
  unfold cursor
  split <;> simp_all

/-- The pages of a client are those of the set of IDs. -/
theorem followPages_toPage {ss : List Server} {rs : List ListOperationsResponse}
    (hsize : 0 ≤ pageSize) (h : followPages pageSize pageToken ss = some rs) :
    rs.map ListOperationsResponse.toPage =
      Paging.follow (effectivePageSize pageSize).toNat (cursor pageToken)
        (ss.map fun s => s.jobs.keys) := by
  induction ss generalizing pageToken rs with
  | nil =>
    obtain rfl := Option.some.inj h
    rfl
  | cons s ss ih =>
    obtain ⟨r, hr, h⟩ := Option.bind_eq_some_iff.mp h
    have hpage := listOperations_toPage hsize hr
    obtain ⟨-, hnext⟩ := Prod.mk.inj hpage
    rw [List.map_cons]
    split at h
    · next hend =>
      obtain rfl := Option.some.inj h
      rw [cursor_eq_none_iff.mpr hend] at hnext
      rw [Paging.follow_none hnext.symm, List.map_singleton, hpage, ← hnext]
    · next hmore =>
      obtain ⟨rs, hrs, h⟩ := Option.bind_eq_some_iff.mp h
      obtain rfl := Option.some.inj h
      have hcursor : cursor r.nextPageToken = some r.nextPageToken := if_neg hmore
      have hrest := ih hrs
      rw [hcursor] at hnext hrest
      rw [Paging.follow_some hnext.symm, List.map_cons, hpage, ← hnext, hrest]

theorem followPages_isSome {ss : List Server} (hs : ∀ s ∈ ss, s.JobsStarted) (pageSize : Int)
    (pageToken : String) : (followPages pageSize pageToken ss).isSome := by
  induction ss generalizing pageToken with
  | nil => rfl
  | cons s ss ih =>
    obtain ⟨r, hr⟩ := Option.isSome_iff_exists.mp
      (listOperations_isSome (hs s List.mem_cons_self) pageSize pageToken)
    obtain ⟨rs, hrs⟩ := Option.isSome_iff_exists.mp
      (ih (fun t ht => hs t (List.mem_cons_of_mem _ ht)) r.nextPageToken)
    by_cases hend : r.nextPageToken = "" <;> simp [followPages, hr, hend, hrs]

theorem listedIDs_eq (rs : List ListOperationsResponse) :
    listedIDs rs = Paging.listed (rs.map ListOperationsResponse.toPage) := by
  simp [listedIDs, Paging.listed, List.flatMap_map, ListOperationsResponse.toPage]

theorem complete_iff (rs : List ListOperationsResponse) :
    Complete rs ↔ Paging.Ended (rs.map ListOperationsResponse.toPage) := by
  simp [Complete, Paging.Ended, ListOperationsResponse.toPage, cursor_eq_none_iff]

/-- In a reachable state with no `addAndStartJob` call under way all jobs have been started. -/
theorem jobsStarted_of_run {c : Service} {es : List Call}
    (hr : run Service.step .new es = some c) (hc : c.starting = []) :
    c.server.JobsStarted := by
  intro id h hl
  obtain ⟨j, hj, htask | hmem⟩ := (Service.Published.of_run hr).mapped id h hl
  · exact ⟨j, hj, htask⟩
  · simp [hc] at hmem

/--
A client that follows the tokens from the empty one sees the IDs in increasing order and
none of them twice, whatever happens to the map between its requests, and once it has come
to an empty token it has seen every ID that was there at each of them, once. It comes to an
empty token when the map no longer changes; its requests are answered when the jobs in
the map have been started.
-/
theorem followPages_lists (pageSize : Int) (hsize : 0 ≤ pageSize) :
    (∀ ss rs, followPages pageSize "" ss = some rs →
      (listedIDs rs).Pairwise (· < ·) ∧ (listedIDs rs).Nodup ∧
      (Complete rs → ∀ id, (∀ s ∈ ss.take rs.length, id ∈ s.jobs) →
        (listedIDs rs).count id = 1)) ∧
    ∀ ss s n, s.jobs.keys.card < n →
      (∀ rs, followPages pageSize "" (ss ++ List.replicate n s) = some rs → Complete rs) ∧
      ((∀ t ∈ s :: ss, t.JobsStarted) →
        (followPages pageSize "" (ss ++ List.replicate n s)).isSome) := by
  have hpos := effectivePageSize_pos hsize
  constructor
  · intro ss rs h
    have hpages := followPages_toPage hsize h
    have hsorted : (listedIDs rs).Pairwise (· < ·) := by
      rw [listedIDs_eq, hpages]
      exact (Paging.listed_follow _ _ _).1
    have hnodup : (listedIDs rs).Nodup := hsorted.imp fun hlt => hlt.ne
    refine ⟨hsorted, hnodup, fun hend id hid => List.count_eq_one_of_mem hnodup ?_⟩
    rw [complete_iff, hpages] at hend
    rw [listedIDs_eq, hpages]
    refine Paging.mem_listed_of_ended hend (fun S hS => ?_) (by simp [cursor])
    rw [← hpages, List.length_map, ← List.map_take] at hS
    obtain ⟨s, hs, rfl⟩ := List.mem_map.mp hS
    exact Finmap.mem_keys.mpr (hid s hs)
  · intro ss s n hn
    constructor
    · intro rs h
      rw [complete_iff, followPages_toPage hsize h, List.map_append, List.map_replicate]
      exact Paging.ended_follow (by omega) hn _ _
    · intro hs
      refine followPages_isSome (fun t ht => hs t ?_) pageSize ""
      rcases List.mem_append.mp ht with ht | ht
      · exact List.mem_cons_of_mem _ ht
      · exact List.mem_cons.mpr (.inl (List.eq_of_mem_replicate ht))

/-- Three jobs are added and started. -/
def threeJobs : List Call :=
  [.addJob "Job_1" "BackupPhysical" 1, .startJob "Job_1" 0, .addJob "Job_2" "BackupPhysical" 2,
    .startJob "Job_2" 1, .addJob "Job_4" "BackupPhysical" 4, .startJob "Job_4" 2]

/-- The second one is deleted, and another one is added. -/
def secondDeleted : List Call :=
  [.server (.findDeleted "Job_2"), .server (.markDeleted 1 minute),
    .server (.lockExpired (12 * minute) ttlAfterDelete ttlAfterComplete),
    .server (.checkDelete "Job_2"), .server .checkComplete, .server .removeExpired,
    .server (.checkDelete "Job_1"), .server .checkComplete, .server .removeExpired,
    .server (.checkDelete "Job_4"), .server .checkComplete, .server .removeExpired,
    .server .unlockExpired, .addJob "Job_3" "BackupPhysical" (13 * minute), .startJob "Job_3" 3]

/-- A client that lists one job a page, the second one deleted when the token points at it. -/
theorem followPages_second_deleted :
    ∃ c c', run Service.step .new threeJobs = some c ∧
      run Service.step .new (threeJobs ++ secondDeleted) = some c' ∧
      ∃ rs, followPages 1 "" ([c.server] ++ List.replicate 4 c'.server) = some rs ∧
        Complete rs ∧ (listedIDs rs).count "Job_4" = 1 := by
  obtain ⟨c, hc, hstarting, hmem⟩ : ∃ c, run Service.step .new threeJobs = some c ∧
      c.starting = [] ∧ "Job_4" ∈ c.server.jobs := ⟨_, rfl, rfl, by decide⟩
  obtain ⟨c', hc', hstarting', hmem', hcard⟩ : ∃ c',
      run Service.step .new (threeJobs ++ secondDeleted) = some c' ∧ c'.starting = [] ∧
      "Job_4" ∈ c'.server.jobs ∧ c'.server.jobs.keys.card < 4 :=
    ⟨_, rfl, rfl, by decide, by decide⟩
  obtain ⟨hlists, hends⟩ := followPages_lists 1 (by decide)
  obtain ⟨hcomplete, hanswered⟩ := hends [c.server] c'.server 4 hcard
  have hstarted : ∀ t ∈ c'.server :: [c.server], t.JobsStarted := by
    intro t ht
    simp only [List.mem_cons, List.not_mem_nil, or_false] at ht
    rcases ht with rfl | rfl
    · exact jobsStarted_of_run hc' hstarting'
    · exact jobsStarted_of_run hc hstarting
  obtain ⟨rs, hrs⟩ := Option.isSome_iff_exists.mp (hanswered hstarted)
  refine ⟨c, c', hc, hc', rs, hrs, hcomplete rs hrs, ?_⟩
  refine (hlists _ rs hrs).2.2 (hcomplete rs hrs) "Job_4" fun s hs => ?_
  rcases List.mem_append.mp (List.mem_of_mem_take hs) with hs | hs
  · exact List.mem_singleton.mp hs ▸ hmem
  · exact List.eq_of_mem_replicate hs ▸ hmem'

end Server

end ElCarro.Lro
