import Rogichat.Lib.Fence
import Rogichat.Lib.Listing
import Rogichat.Queue.System

/-!
# Leases are exclusive and fenced

A claim raises the generation of every row it takes and returns that generation
in the lease, and no operation lowers one. The queue therefore simulates the
fencing tokens of `Lib.Fence`: a row's generation is its epoch, a lease is a
ticket, and an operation succeeds only under a current ticket.

* **`claimRows_spec`** — the loop of a claim raises each row it was given by one
  and leaves the others alone.
* **`exec_steps`** — every command is a sequence of fencing steps.
* **`exec_forward`** — what a command does to a stored row; the only way out of
  `COMPLETED` is the recovery of that row's own media cleanup.
* **`lease_exclusive`** — the guarantees of the queue, for every reachable state.
-/

namespace Rogichat.Queue

open Lib

/-! ## The loop of a claim -/

/-- A claim that took `rows` and returned `leases`. -/
structure Claimed (rows : List Job) (jobs jobs' : Table Job) (leases : List JobLease)
    (leaseUntil : Time) : Prop where
  forward : ∀ r ∈ jobs, ∃ r' ∈ jobs', r.Follows r' ∧
    (r ∈ rows → r'.generation = r.generation + 1) ∧ (r ∉ rows → r' = r)
  stored : ∀ l ∈ leases, ∃ r ∈ rows, r.id = l.id ∧ l.generation = r.generation + 1 ∧
    ∃ r' ∈ jobs', ∀ now, now < leaseUntil → Fence now l r'

/-- The first row is changed, and the rest of the loop runs on. -/
theorem Claimed.cons {row : Job} {rows : List Job} {jobs jobs' : Table Job}
    {leases : List JobLease} {leaseUntil : Time} {f : Job → Job} {hf : Table.Keeps f}
    (hrow : row ∈ jobs) (hne : ∀ r ∈ rows, row.id ≠ r.id) (hfollows : row.Follows (f row))
    (hgen : (f row).generation = row.generation + 1)
    (h : Claimed rows (jobs.update (fun j => j.id = row.id) f hf) jobs' leases leaseUntil) :
    Claimed (row :: rows) jobs jobs' leases leaseUntil ∧ f row ∈ jobs' := by
  have hchanged : f row ∈ jobs.update (fun j => j.id = row.id) f hf := by
    have := Table.mem_update_of_mem (p := fun j => j.id = row.id) (k := hf) hrow
    rwa [if_pos rfl] at this
  have hnotin : f row ∉ rows := by
    intro hmem
    exact hne _ hmem hfollows.id.symm
  have hkept : f row ∈ jobs' := by
    obtain ⟨r', hr', -, -, hsame⟩ := h.forward _ hchanged
    rwa [hsame hnotin] at hr'
  refine ⟨⟨?_, ?_⟩, hkept⟩
  · intro r hr
    by_cases hid : r.id = row.id
    · -- the row itself: the rest of the loop does not see it again
      obtain rfl := eq_of_id hr hrow hid
      exact ⟨f r, hkept, hfollows, fun _ => hgen, fun hn => absurd List.mem_cons_self hn⟩
    · have hr1 := Table.mem_update_of_mem (p := fun j => j.id = row.id) (k := hf) hr
      rw [if_neg hid] at hr1
      obtain ⟨r', hr', hfol, htaken, hother⟩ := h.forward _ hr1
      refine ⟨r', hr', hfol, ?_, ?_⟩
      · intro hmem
        rcases List.mem_cons.mp hmem with rfl | hmem
        · exact absurd rfl hid
        · exact htaken hmem
      · intro hmem
        exact hother fun hin => hmem (List.mem_cons_of_mem _ hin)
  · intro l hl
    obtain ⟨r, hr, hrest⟩ := h.stored l hl
    exact ⟨r, List.mem_cons_of_mem _ hr, hrest⟩

theorem claimRows_spec {self : Jobs} {evidence : PurgeEvidence} {token : Uuid → Uuid}
    {leaseUntil : Time} {rows : List Job} {jobs jobs' : Table Job} {leases : List JobLease}
    (h : claimRows self evidence token leaseUntil rows jobs = .ok (jobs', leases))
    (hmem : ∀ r ∈ rows, r ∈ jobs) (hids : rows.Pairwise fun r s => r.id ≠ s.id) :
    Claimed rows jobs jobs' leases leaseUntil := by
  induction rows generalizing jobs leases with
  | nil =>
    simp only [claimRows, pure_ok, Prod.mk.injEq] at h
    obtain ⟨rfl, rfl⟩ := h
    constructor
    · intro r hr
      exact ⟨r, hr, .refl r, fun hn => absurd hn List.not_mem_nil, fun _ => rfl⟩
    · intro l hl
      exact absurd hl List.not_mem_nil
  | cons row rows ih =>
    have hrow := hmem row List.mem_cons_self
    obtain ⟨hne, hids⟩ := List.pairwise_cons.mp hids
    have hrest : ∀ (f : Job → Job) (hf : Table.Keeps f), ∀ r ∈ rows,
        r ∈ jobs.update (fun j => j.id = row.id) f hf := by
      intro f hf r hr
      have := Table.mem_update_of_mem (p := fun j => j.id = row.id) (k := hf)
        (hmem r (List.mem_cons_of_mem _ hr))
      rwa [if_neg (Ne.symm (hne r hr))] at this
    rw [claimRows] at h
    simp only [bind_ok, ensure_ok] at h
    obtain ⟨-, -, h⟩ := h
    split at h
    · -- attempts exhausted: no lease for this row
      exact (Claimed.cons hrow hne ⟨rfl, rfl, rfl, rfl, Nat.le_succ _⟩ rfl
        (ih h (hrest _ _) hids)).1
    · simp only [bind_ok, pure_ok, Prod.mk.injEq] at h
      obtain ⟨⟨jobs₁, leases₁⟩, hloop, rfl, rfl⟩ := h
      have hclaimed := ih hloop (hrest _ _) hids
      obtain ⟨hcons, hin⟩ :=
        Claimed.cons hrow hne ⟨rfl, rfl, rfl, rfl, Nat.le_succ _⟩ rfl hclaimed
      refine ⟨hcons.forward, ?_⟩
      intro l hl
      rcases List.mem_cons.mp hl with rfl | hl
      · refine ⟨row, List.mem_cons_self, rfl, rfl, _, hin, ?_⟩
        intro now hnow
        exact ⟨rfl, rfl, rfl, rfl, rfl, rfl, leaseUntil, rfl, hnow⟩
      · exact hcons.stored l hl

/-- The rows a claim reads are stored, each once. -/
theorem JobsRepository.claim_rows {jobs : Table Job} {purposes : List JobPurpose} {now : Time}
    {locked : List Uuid} {limit : Nat} :
    (∀ r ∈ JobsRepository.claim jobs purposes now locked limit, r ∈ jobs) ∧
      (JobsRepository.claim jobs purposes now locked limit).Pairwise
        fun r s => r.id ≠ s.id := by
  unfold JobsRepository.claim
  constructor
  · intro r hr
    have hsorted := List.mem_of_mem_take hr
    rw [List.mem_insertionSort, List.mem_filter] at hsorted
    exact (Table.mem_select.mp hsorted.1).1
  · refine List.Pairwise.take ?_
    refine (List.Perm.pairwise_iff ?_ (List.perm_insertionSort QueueLe _)).mpr ?_
    · intro r s hne
      exact hne.symm
    · refine List.Pairwise.filter _ (List.Pairwise.filter _ ?_)
      refine jobs.unique.imp ?_
      intro r s hclash hid
      exact hclash ⟨.inl r.id, List.mem_cons_self, hid ▸ List.mem_cons_self⟩

instance : Std.Total QueueLe where
  total a b := by
    unfold QueueLe
    grind

instance : IsTrans Job QueueLe where
  trans a b c hab hbc := by
    unfold QueueLe at *
    grind

/-- A row that is due and that no other transaction holds is taken, or waits behind a full
batch. -/
theorem JobsRepository.claim_due {jobs : Table Job} {purposes : List JobPurpose} {now : Time}
    {locked : List Uuid} {limit : Nat} {r : Job} (hr : r ∈ jobs)
    (hdue : Claimable purposes now r) (hfree : r.id ∉ locked) :
    r ∈ JobsRepository.claim jobs purposes now locked limit ∨
      (JobsRepository.claim jobs purposes now locked limit).length = limit ∧
        ∀ q ∈ JobsRepository.claim jobs purposes now locked limit, QueueLe q r := by
  have hlisted : r ∈ ((jobs.select (Claimable purposes now)).filter
      fun j => j.id ∉ locked).insertionSort QueueLe := by
    rw [List.mem_insertionSort, List.mem_filter]
    exact ⟨Table.mem_select.mpr ⟨hr, hdue⟩, decide_eq_true hfree⟩
  exact Listing.mem_take_or_full QueueLe (List.pairwise_insertionSort QueueLe _) limit hlisted

/-- A claim takes pending rows and rows whose lease ran out, never a completed
one. -/
theorem JobsRepository.claim_not_completed {jobs : Table Job} {purposes : List JobPurpose}
    {now : Time} {locked : List Uuid} {limit : Nat} {r : Job}
    (hr : r ∈ JobsRepository.claim jobs purposes now locked limit) : r.state ≠ .completed := by
  unfold JobsRepository.claim at hr
  have hsorted := List.mem_of_mem_take hr
  rw [List.mem_insertionSort, List.mem_filter] at hsorted
  obtain ⟨-, -, hstate⟩ := Table.mem_select.mp hsorted.1
  intro hcompleted
  rcases hstate with ⟨hpending, -⟩ | ⟨hrunning, -⟩
  · rw [hcompleted] at hpending
    cases hpending
  · rw [hcompleted] at hrunning
    cases hrunning

/-- The rows a claim takes: the head of the queue, for its purposes and up to its limit. -/
def Command.taken (s : Sys) : Command → List Job
  | .claim self options locked _ _ =>
    JobsRepository.claim s.jobs (options.purposes.getD (consumerPurposes self.consumer)) s.now
      locked (options.limit.getD (if self.consumer = .api then 20 else 10))
  | _ => []

/-- A committed claim ran its loop over the head of the queue. -/
theorem Jobs.claim_spec {self : Jobs} {jobs jobs' : Table Job} {now : Time}
    {options : ClaimOptions} {locked : List Uuid} {evidence : PurgeEvidence}
    {token : Uuid → Uuid} {leases : List JobLease}
    (h : self.claim jobs now options locked evidence token = .ok (jobs', leases)) :
    ∃ leaseUntil, now < leaseUntil ∧
      claimRows self evidence token leaseUntil
        (JobsRepository.claim jobs (options.purposes.getD (consumerPurposes self.consumer)) now
          locked (options.limit.getD (if self.consumer = .api then 20 else 10))) jobs =
        .ok (jobs', leases) := by
  simp only [Jobs.claim, integer, bind_ok, ensure_ok] at h
  obtain ⟨-, -, -, -, -, ⟨hlease, -⟩, hrows⟩ := h
  refine ⟨_, Nat.lt_add_of_pos_right ?_, hrows⟩
  omega

/-! ## The queue simulates fencing tokens -/

/-- A lease is a ticket for its job at its generation. -/
def tickets : Fence.Tickets Uuid JobLease := ⟨JobLease.id, JobLease.generation⟩

/-- The stored generation of each job, zero where there is none. -/
def epochOf (jobs : Table Job) (id : Uuid) : Nat :=
  ((jobs.find? fun j => j.id = id).map Job.generation).getD 0

/-- What the fencing abstraction sees of the queue. -/
def Sys.fence (s : Sys) : Fence.State Uuid JobLease := ⟨epochOf s.jobs, s.issued⟩

theorem find?_id {jobs : Table Job} {r : Job} (hr : r ∈ jobs) :
    (jobs.find? fun j => j.id = r.id) = some r :=
  Table.find?_eq_some hr rfl (k := .inl r.id) List.mem_cons_self
    fun _ h => h ▸ List.mem_cons_self

theorem epochOf_mem {jobs : Table Job} {r : Job} (hr : r ∈ jobs) :
    epochOf jobs r.id = r.generation := by
  unfold epochOf
  rw [find?_id hr]
  rfl

theorem epochOf_le {jobs jobs' : Table Job}
    (h : ∀ r ∈ jobs, ∃ r' ∈ jobs', r.Follows r') (id : Uuid) :
    epochOf jobs id ≤ epochOf jobs' id := by
  cases hfind : jobs.find? fun j => j.id = id with
  | none =>
    unfold epochOf
    rw [hfind]
    exact Nat.zero_le _
  | some r =>
    obtain ⟨r', hr', hfollows⟩ := h r (Table.mem_of_find? hfind)
    have hid := Table.holds_of_find? hfind
    calc epochOf jobs id = r.generation := by
          rw [← hid]
          exact epochOf_mem (Table.mem_of_find? hfind)
      _ ≤ r'.generation := hfollows.generation
      _ = epochOf jobs' id := by
          rw [← hid, ← hfollows.id]
          exact (epochOf_mem hr').symm

theorem epochOf_update {jobs : Table Job} {row : Job} {f : Job → Job} {hf : Table.Keeps f}
    (hrow : row ∈ jobs) (hid : (f row).id = row.id) :
    epochOf (jobs.update (fun j => j.id = row.id) f hf) =
      Function.update (epochOf jobs) row.id (f row).generation := by
  funext k
  by_cases hk : k = row.id
  · subst hk
    have hmem := Table.mem_update_of_mem (p := fun j => j.id = row.id) (k := hf) hrow
    rw [if_pos rfl] at hmem
    rw [Function.update_self, ← epochOf_mem hmem, hid]
  · rw [Function.update_of_ne hk]
    cases hfind : jobs.find? fun j => j.id = k with
    | some r =>
      have hrid := Table.holds_of_find? hfind
      have hmem := Table.mem_update_of_mem (p := fun j => j.id = row.id) (k := hf)
        (Table.mem_of_find? hfind)
      rw [if_neg (by rw [hrid]; exact hk)] at hmem
      rw [← hrid, epochOf_mem hmem, epochOf_mem (Table.mem_of_find? hfind)]
    | none =>
      have hnone : (jobs.update (fun j => j.id = row.id) f hf).find? (fun j => j.id = k) =
          none := by
        rw [Table.find?_eq_none] at hfind ⊢
        intro r hr
        obtain ⟨r₀, hr₀, rfl⟩ := Table.mem_update.mp hr
        split
        · rename_i hmatch
          obtain rfl := eq_of_id hr₀ hrow hmatch
          rw [hid]
          exact Ne.symm hk
        · exact hfind r₀ hr₀
      unfold epochOf
      rw [hfind, hnone]

/-- The loop of a claim, as fencing steps: an exhausted row is a bump, a leased
row a new ticket. -/
theorem claimRows_steps {self : Jobs} {evidence : PurgeEvidence} {token : Uuid → Uuid}
    {leaseUntil : Time} {rows : List Job} {jobs jobs' : Table Job} {leases : List JobLease}
    (h : claimRows self evidence token leaseUntil rows jobs = .ok (jobs', leases))
    (hmem : ∀ r ∈ rows, r ∈ jobs) (hids : rows.Pairwise fun r s => r.id ≠ s.id)
    (issued : List JobLease) :
    Fence.Steps tickets ⟨epochOf jobs, issued⟩ ⟨epochOf jobs', leases.reverse ++ issued⟩ := by
  induction rows generalizing jobs leases issued with
  | nil =>
    simp only [claimRows, pure_ok, Prod.mk.injEq] at h
    obtain ⟨rfl, rfl⟩ := h
    exact .refl _
  | cons row rows ih =>
    have hrow := hmem row List.mem_cons_self
    obtain ⟨hne, hids⟩ := List.pairwise_cons.mp hids
    have hrest : ∀ (f : Job → Job) (hf : Table.Keeps f), ∀ r ∈ rows,
        r ∈ jobs.update (fun j => j.id = row.id) f hf := by
      intro f hf r hr
      have := Table.mem_update_of_mem (p := fun j => j.id = row.id) (k := hf)
        (hmem r (List.mem_cons_of_mem _ hr))
      rwa [if_neg (Ne.symm (hne r hr))] at this
    rw [claimRows] at h
    simp only [bind_ok, ensure_ok] at h
    obtain ⟨-, -, h⟩ := h
    split at h
    · refine Fence.Steps.trans (t := ⟨epochOf (JobsRepository.exhaust _ _ _), issued⟩)
        (.single (.advance ?_ rfl)) (ih h (hrest _ _) hids issued)
      intro k
      show epochOf jobs k ≤ epochOf (JobsRepository.exhaust jobs _ row.id) k
      rw [JobsRepository.exhaust, epochOf_update hrow rfl]
      by_cases hk : k = row.id
      · subst hk
        rw [Function.update_self, epochOf_mem hrow]
        exact Nat.le_succ _
      · rw [Function.update_of_ne hk]
    · simp only [bind_ok, pure_ok, Prod.mk.injEq] at h
      obtain ⟨⟨jobs₁, leases₁⟩, hloop, rfl, rfl⟩ := h
      rw [List.reverse_cons, List.append_assoc, List.singleton_append]
      refine Fence.Steps.trans (.single (.issue _ ?_ ?_ rfl)) (ih hloop (hrest _ _) hids _)
      · show epochOf jobs row.id < row.generation + 1
        rw [epochOf_mem hrow]
        exact Nat.lt_succ_self _
      · exact epochOf_update hrow rfl

/-! ## What a command does to a stored row -/

/-- The command recovers this row's own media cleanup. -/
def Recovers (c : Command) (r : Job) : Prop :=
  ∃ assetId, c = .recoverMedia assetId ∧ r.purpose = .media ∧ r.resourceId = some assetId ∧
    r.dedupeKey = some (.mediaCleanup assetId)

/-- An update that keeps identities and never lowers a generation moves every
row forward. -/
theorem update_forward {jobs : Table Job} {p : Job → Prop} [DecidablePred p] {f : Job → Job}
    {hf : Table.Keeps f} {q : Prop} (hfollows : ∀ r : Job, r.Follows (f r)) {r : Job}
    (hr : r ∈ jobs) (hq : p r → q) :
    ∃ r' ∈ jobs.update p f hf, r.Follows r' ∧ (r' = r ∨ q) := by
  refine ⟨_, Table.mem_update_of_mem hr, ?_⟩
  by_cases hp : p r
  · rw [if_pos hp]
    exact ⟨hfollows r, .inr (hq hp)⟩
  · rw [if_neg hp]
    exact ⟨.refl r, .inl rfl⟩

theorem enqueue_forward {jobs jobs' : Table Job} {now : Time} {input : EnqueueJob} {id : Uuid}
    (h : JobsCoreService.enqueue jobs now input = .ok (jobs', id)) {r : Job} (hr : r ∈ jobs) :
    r ∈ jobs' := by
  unfold JobsCoreService.enqueue at h
  simp only [bind_ok] at h
  obtain ⟨-, -, -, -, h⟩ := h
  split at h
  · simp only [bind_ok, require_ok, pure_ok, Prod.mk.injEq] at h
    obtain ⟨jobs₁, hinsert, rfl, -⟩ := h
    exact (Table.mem_insert hinsert).mpr (.inl hr)
  · simp only [bind_ok, require_ok, ensure_ok, pure_ok, Prod.mk.injEq] at h
    obtain ⟨-, -, -, -, rfl, -⟩ := h
    generalize hinsert : jobs.insert _ = inserted
    cases inserted with
    | none => exact hr
    | some jobs₁ => exact (Table.mem_insert hinsert).mpr (.inl hr)

theorem recover_forward {jobs jobs' : Table Job} {now : Time} {requestId : Uuid}
    {roomId : Option Uuid}
    (h : PurgeWorkerRepository.recover jobs now requestId roomId = .ok jobs') {r : Job}
    (hr : r ∈ jobs) : ∃ r' ∈ jobs', r.Follows r' ∧ (r' = r ∨ r.state = .failed) := by
  unfold PurgeWorkerRepository.recover at h
  split at h
  · simp only [pure_ok] at h
    subst h
    exact ⟨r, hr, .refl r, .inl rfl⟩
  · simp only [bind_ok, ensure_ok] at h
    obtain ⟨-, -, h⟩ := h
    split at h
    · simp only [pure_ok] at h
      subst h
      exact ⟨r, hr, .refl r, .inl rfl⟩
    · simp only [bind_ok, pure_ok] at h
      obtain ⟨-, -, rfl⟩ := h
      refine update_forward ?_ hr ?_
      · intro r
        exact ⟨rfl, rfl, rfl, rfl, Nat.le_succ _⟩
      · intro hp
        exact hp.2

/-- Every stored row survives every command, and leaves `COMPLETED` only by the
recovery of its own media cleanup. -/
theorem exec_forward {c : Command} {s t : Sys} (h : exec c s = .ok t) {r : Job}
    (hr : r ∈ s.jobs) :
    ∃ r' ∈ t.jobs, r.Follows r' ∧ (r.state = .completed → r' = r ∨ Recovers c r) := by
  cases c with
  | tick elapsed =>
    simp only [exec, pure_ok] at h
    subst h
    exact ⟨r, hr, .refl r, fun _ => .inl rfl⟩
  | enqueue input =>
    simp only [exec, bind_ok, pure_ok] at h
    obtain ⟨⟨jobs, id⟩, henqueue, rfl⟩ := h
    exact ⟨r, enqueue_forward henqueue hr, .refl r, fun _ => .inl rfl⟩
  | claim self options locked evidence token =>
    simp only [exec, bind_ok, pure_ok] at h
    obtain ⟨⟨jobs, leases⟩, hclaim, rfl⟩ := h
    obtain ⟨leaseUntil, -, hloop⟩ := Jobs.claim_spec hclaim
    have hspec := claimRows_spec hloop JobsRepository.claim_rows.1 JobsRepository.claim_rows.2
    obtain ⟨r', hr', hfollows, -, hother⟩ := hspec.forward r hr
    refine ⟨r', hr', hfollows, ?_⟩
    intro hcompleted
    refine .inl (hother ?_)
    intro hin
    -- a claim takes pending and expired rows only
    exact JobsRepository.claim_not_completed hin hcompleted
  | fenced op lease =>
    simp only [exec, bind_ok, pure_ok] at h
    obtain ⟨⟨jobs, b⟩, hop, rfl⟩ := h
    obtain ⟨r', hr', hfollows, hwhy⟩ := (Fenced.exec_spec hop).forward r hr
    refine ⟨r', hr', hfollows, ?_⟩
    intro hcompleted
    refine .inl (hwhy.resolve_right ?_)
    -- a fenced operation needs its row running
    rintro ⟨-, -, -, -, -, hrunning, -⟩
    rw [hcompleted] at hrunning
    cases hrunning
  | recoverMedia assetId =>
    simp only [exec, pure_ok] at h
    subst h
    obtain ⟨r', hr', hfollows, hwhy⟩ : ∃ r' ∈ JobsCoreService.recoverMedia s.jobs s.now assetId,
        r.Follows r' ∧ (r' = r ∨ Recovers (.recoverMedia assetId) r) := by
      refine update_forward ?_ hr ?_
      · intro r
        exact ⟨rfl, rfl, rfl, rfl, Nat.le_refl _⟩
      · intro hp
        exact ⟨assetId, rfl, hp.1, hp.2.1, hp.2.2.1⟩
    exact ⟨r', hr', hfollows, fun _ => hwhy⟩
  | recover requestId roomId =>
    simp only [exec, bind_ok, pure_ok] at h
    obtain ⟨jobs, hrecover, rfl⟩ := h
    obtain ⟨r', hr', hfollows, hwhy⟩ := recover_forward hrecover hr
    refine ⟨r', hr', hfollows, ?_⟩
    intro hcompleted
    refine .inl (hwhy.resolve_right ?_)
    intro hfailed
    rw [hcompleted] at hfailed
    cases hfailed

/-- Every command is a sequence of fencing steps. -/
theorem exec_steps {c : Command} {s t : Sys} (h : exec c s = .ok t) :
    Fence.Steps tickets s.fence t.fence := by
  have hle : ∀ id, epochOf s.jobs id ≤ epochOf t.jobs id := by
    refine epochOf_le ?_
    intro r hr
    obtain ⟨r', hr', hfollows, -⟩ := exec_forward h hr
    exact ⟨r', hr', hfollows⟩
  cases c with
  | claim self options locked evidence token =>
    simp only [exec, bind_ok, pure_ok] at h
    obtain ⟨⟨jobs, leases⟩, hclaim, rfl⟩ := h
    obtain ⟨leaseUntil, -, hloop⟩ := Jobs.claim_spec hclaim
    exact claimRows_steps hloop JobsRepository.claim_rows.1 JobsRepository.claim_rows.2 s.issued
  | tick elapsed =>
    simp only [exec, pure_ok] at h
    subst h
    exact .refl _
  | enqueue input =>
    simp only [exec, bind_ok, pure_ok] at h
    obtain ⟨_, _, rfl⟩ := h
    exact .single (.advance hle rfl)
  | fenced op lease =>
    simp only [exec, bind_ok, pure_ok] at h
    obtain ⟨_, _, rfl⟩ := h
    exact .single (.advance hle rfl)
  | recoverMedia assetId =>
    simp only [exec, pure_ok] at h
    subst h
    exact .single (.advance hle rfl)
  | recover requestId roomId =>
    simp only [exec, bind_ok, pure_ok] at h
    obtain ⟨_, _, rfl⟩ := h
    exact .single (.advance hle rfl)

/-! ## Runs -/

theorem run_steps {s t : Sys} {cs : List Command} (h : system.Run s cs t) :
    Fence.Steps tickets s.fence t.fence := by
  induction h with
  | nil => exact .refl _
  | cons hstep _ ih => exact (exec_steps hstep).trans ih

theorem reachable_inv {s : Sys} (h : system.Reachable s) : Fence.Inv tickets s.fence := by
  refine System.Reachable.induct (P := fun s => Fence.Inv tickets s.fence) ⟨?_, ?_⟩ h
  · rintro s ⟨-, hissued⟩
    constructor
    · intro l hl
      have : l ∈ s.issued := hl
      rw [hissued] at this
      exact absurd this List.not_mem_nil
    · show s.issued.Pairwise _
      rw [hissued]
      exact List.Pairwise.nil
  · intro s t c _ hinv hstep
    exact (exec_steps hstep).inv hinv

theorem run_forward {s t : Sys} {cs : List Command} (h : system.Run s cs t) {r : Job}
    (hr : r ∈ s.jobs) : ∃ r' ∈ t.jobs, r.Follows r' := by
  induction h generalizing r with
  | nil => exact ⟨r, hr, .refl r⟩
  | cons hstep _ ih =>
    obtain ⟨r₁, hr₁, hfollows₁, -⟩ := exec_forward hstep hr
    obtain ⟨r₂, hr₂, hfollows₂⟩ := ih hr₁
    exact ⟨r₂, hr₂, hfollows₁.trans hfollows₂⟩

/-- An operation that succeeds found its own lease in the row, unexpired. -/
theorem Succeeds.fence {s : Sys} {op : Fenced} {l : JobLease} (h : Succeeds s op l) :
    ∃ r ∈ s.jobs, Fence s.now l r := by
  obtain ⟨jobs, hexec⟩ := h
  exact (Fenced.exec_spec hexec).fence rfl

theorem current_of_fence {s : Sys} {l : JobLease} {r : Job} (hr : r ∈ s.jobs)
    (h : Fence s.now l r) : Fence.Current tickets s.fence l := by
  obtain ⟨hid, -, hgen, -⟩ := h
  show epochOf s.jobs l.id = l.generation
  rw [← hid, epochOf_mem hr, hgen]

/-- A lease behind its job's generation changes nothing any more. -/
theorem stale_noop {s t : Sys} {cs : List Command} (hrun : system.Run s cs t) {l : JobLease}
    (hlt : l.generation < epochOf s.jobs l.id) {op : Fenced} {jobs : Table Job} {b : Bool}
    (h : op.exec t.jobs t.now l = .ok (jobs, b)) : jobs = t.jobs ∧ b = false := by
  refine (Fenced.exec_spec h).noop ?_
  intro r hr hfence
  exact (run_steps hrun).stale (x := l) hlt (current_of_fence hr hfence)

/-- A claim raises exactly the rows it takes, and every lease it returns is
stored in one of them. -/
theorem claim_raises {s t : Sys} {self : Jobs} {options : ClaimOptions} {locked : List Uuid}
    {evidence : PurgeEvidence} {token : Uuid → Uuid}
    (h : system.step (.claim self options locked evidence token) s t) :
    ∃ (rows : List Job) (leases : List JobLease), t.issued = leases ++ s.issued ∧
      (∀ r ∈ rows, r ∈ s.jobs ∧ ∃ r' ∈ t.jobs, r'.id = r.id ∧ r.generation < r'.generation) ∧
      (∀ r ∈ s.jobs, r ∉ rows → r ∈ t.jobs) ∧
      ∀ l ∈ leases, (∃ r ∈ rows, r.id = l.id) ∧ ∃ r' ∈ t.jobs, Fence t.now l r' := by
  have h : exec _ s = .ok t := h
  simp only [exec, bind_ok, pure_ok] at h
  obtain ⟨⟨jobs, leases⟩, hclaim, rfl⟩ := h
  obtain ⟨leaseUntil, hnow, hloop⟩ := Jobs.claim_spec hclaim
  let c : Command := .claim self options locked evidence token
  have hmem : ∀ r ∈ c.taken s, r ∈ s.jobs := JobsRepository.claim_rows.1
  have hspec := claimRows_spec hloop hmem JobsRepository.claim_rows.2
  refine ⟨c.taken s, leases.reverse, rfl, ?_, ?_, ?_⟩
  · intro r hr
    obtain ⟨r', hr', hfollows, hraised, -⟩ := hspec.forward r (hmem r hr)
    refine ⟨hmem r hr, r', hr', hfollows.id, ?_⟩
    rw [hraised hr]
    exact Nat.lt_succ_self _
  · intro r hr hout
    obtain ⟨r', hr', -, -, hsame⟩ := hspec.forward r hr
    rwa [hsame hout] at hr'
  · intro l hl
    obtain ⟨r, hr, hid, -, r', hr', hfence⟩ := hspec.stored l (List.mem_reverse.mp hl)
    exact ⟨⟨r, hr, hid⟩, r', hr', hfence _ hnow⟩

/-- A completed job that is pending later was recovered as its own media
cleanup in between. -/
theorem completed_pending {s t : Sys} {cs : List Command} (hrun : system.Run s cs t)
    {r r' : Job} (hr : r ∈ s.jobs) (hcompleted : r.state = .completed) (hr' : r' ∈ t.jobs)
    (hid : r'.id = r.id) (hpending : r'.state = .pending) : ∃ c ∈ cs, Recovers c r := by
  induction hrun with
  | nil =>
    obtain rfl := eq_of_id hr' hr hid
    rw [hcompleted] at hpending
    cases hpending
  | cons hstep _ ih =>
    obtain ⟨r₁, hr₁, -, hleft⟩ := exec_forward hstep hr
    rcases hleft hcompleted with rfl | hrecovers
    · obtain ⟨c, hc, hrecovers⟩ := ih hr₁ hr'
      exact ⟨c, List.mem_cons_of_mem _ hc, hrecovers⟩
    · exact ⟨_, List.mem_cons_self, hrecovers⟩

/-- **Job leases are exclusive and fenced.** In every reachable state: no run
lowers a job's generation; a claim raises the generation of every row it takes,
and the leases it returns are for such rows and are stored in them; of all leases
ever issued for a job at most one can still succeed, and what succeeds is the
stored, unexpired lease of a running row; once a claim has issued a lease, no
operation under an earlier lease of that job changes anything; and a completed
job is pending again only after the recovery of its own media cleanup. -/
theorem lease_exclusive {s : Sys} (hs : system.Reachable s) :
    (∀ cs t, system.Run s cs t → ∀ r ∈ s.jobs, ∃ r' ∈ t.jobs,
      r'.id = r.id ∧ r.generation ≤ r'.generation) ∧
    (∀ self options locked evidence token t,
      system.step (.claim self options locked evidence token) s t →
        ∃ (rows : List Job) (leases : List JobLease), t.issued = leases ++ s.issued ∧
          (∀ r ∈ rows, r ∈ s.jobs ∧ ∃ r' ∈ t.jobs, r'.id = r.id ∧ r.generation < r'.generation) ∧
          (∀ r ∈ s.jobs, r ∉ rows → r ∈ t.jobs) ∧
          ∀ l ∈ leases, (∃ r ∈ rows, r.id = l.id) ∧ ∃ r' ∈ t.jobs, Fence t.now l r') ∧
    (∀ l₁ ∈ s.issued, ∀ l₂ ∈ s.issued, l₁.id = l₂.id →
      CanStillSucceed s l₁ → CanStillSucceed s l₂ → l₁ = l₂) ∧
    (∀ op l, Succeeds s op l → ∃ r ∈ s.jobs, r.id = l.id ∧ r.generation = l.generation ∧
      r.leaseOwner = some l.leaseOwner ∧ r.leaseToken = some l.leaseToken ∧
      r.state = .running ∧ ∃ t ∈ r.leaseUntil, s.now < t) ∧
    (∀ l ∈ s.issued, ∀ self options locked evidence token t,
      system.step (.claim self options locked evidence token) s t →
        (∃ leases : List JobLease, t.issued = leases ++ s.issued ∧
          ∃ l' ∈ leases, l'.id = l.id) →
        ∀ cs u, system.Run t cs u → ∀ (op : Fenced) jobs b, op.exec u.jobs u.now l = .ok (jobs, b) →
          jobs = u.jobs ∧ b = false) ∧
    (∀ cs t, system.Run s cs t → ∀ r ∈ s.jobs, r.state = .completed → ∀ r' ∈ t.jobs,
      r'.id = r.id → r'.state = .pending →
        ∃ assetId, Command.recoverMedia assetId ∈ cs ∧ r.purpose = .media ∧
          r.resourceId = some assetId ∧ r.dedupeKey = some (.mediaCleanup assetId)) := by
  have hinv := reachable_inv hs
  refine ⟨?_, ?_, ?_, ?_, ?_, ?_⟩
  · intro cs t hrun r hr
    obtain ⟨r', hr', hfollows⟩ := run_forward hrun hr
    exact ⟨r', hr', hfollows.id, hfollows.generation⟩
  · intro self options locked evidence token t hstep
    exact claim_raises hstep
  · rintro l₁ h₁ l₂ h₂ hid ⟨cs, t, op, hrun, hsucc⟩ ⟨cs', t', op', hrun', hsucc'⟩
    obtain ⟨r, hr, hfence⟩ := hsucc.fence
    obtain ⟨r', hr', hfence'⟩ := hsucc'.fence
    exact Fence.current_unique_ever hinv h₁ h₂ hid (run_steps hrun) (current_of_fence hr hfence)
      (run_steps hrun') (current_of_fence hr' hfence')
  · intro op l hsucc
    obtain ⟨r, hr, hid, -, hgen, howner, htoken, hstate, huntil⟩ := hsucc.fence
    exact ⟨r, hr, hid, hgen, howner, htoken, hstate, huntil⟩
  · rintro l hl self options locked evidence token t hstep ⟨leases, hissued, l', hl', hid⟩
      cs u hrun op jobs b hop
    refine stale_noop hrun ?_ hop
    obtain ⟨rows, leases₁, hissued₁, hraised, -, hstored⟩ := claim_raises hstep
    obtain rfl := List.append_cancel_right (hissued.symm.trans hissued₁)
    obtain ⟨⟨r, hr, hrid⟩, -⟩ := hstored l' hl'
    obtain ⟨hmem, r', hr', hid', hlt⟩ := hraised r hr
    -- the older lease was at most the stored generation, which the claim raised
    calc l.generation ≤ epochOf s.jobs l.id := hinv.bounded l hl
      _ = r.generation := by rw [← hid, ← hrid, epochOf_mem hmem]
      _ < r'.generation := hlt
      _ = epochOf t.jobs l.id := by rw [← hid, ← hrid, ← hid', epochOf_mem hr']
  · intro cs t hrun r hr hcompleted r' hr' hid hpending
    obtain ⟨c, hc, assetId, rfl, hrecovers⟩ :=
      completed_pending hrun hr hcompleted hr' hid hpending
    exact ⟨assetId, hc, hrecovers⟩

/-- A job whose lease runs out is claimed by a second worker. Only the second lease can still
succeed, and a completion under the first one leaves the table as it is. -/
theorem lease_exclusive_claimed : ∃ (s : Sys) (older newer : JobLease),
    s.issued = [newer, older] ∧ newer.id = older.id ∧
      Succeeds s (.complete ⟨.worker, 8⟩) newer ∧ ¬CanStillSucceed s older ∧
      ∀ jobs b, (Fenced.complete ⟨.worker, 7⟩).exec s.jobs s.now older = .ok (jobs, b) →
        jobs = s.jobs ∧ b = false := by
  let job : Job :=
    { id := 1, purpose := .purge, roomId := none, resourceId := none, availableAt := 0,
      dedupeKey := none }
  let running (generation : Nat) (owner token : Uuid) (until_ : Time) : Job :=
    { job with state := .running, generation, leaseOwner := some owner,
               leaseToken := some token, leaseUntil := some until_, attempts := generation }
  let older : JobLease := ⟨1, .purge, none, none, 1, 7, 9, 1, 5⟩
  let newer : JobLease := ⟨1, .purge, none, none, 2, 8, 10, 2, 5⟩
  let enqueued : Sys := ⟨⟨[job], List.pairwise_singleton _ _⟩, 0, []⟩
  let claimed : Sys := ⟨⟨[running 1 7 9 1000], List.pairwise_singleton _ _⟩, 0, [older]⟩
  let expired : Sys := { claimed with now := 1000 }
  let reclaimed : Sys :=
    ⟨⟨[running 2 8 10 2000], List.pairwise_singleton _ _⟩, 1000, [newer, older]⟩
  have henqueue : system.step (.enqueue { id := 1, purpose := .purge }) ⟨.empty, 0, []⟩
      enqueued := rfl
  have hclaim : system.step (.claim ⟨.worker, 7⟩ { leaseMs := some 1000 } []
      ⟨fun _ => false, fun _ => none⟩ fun _ => 9) enqueued claimed := rfl
  have htick : system.step (.tick 1000) claimed expired := rfl
  have hreclaim : system.step (.claim ⟨.worker, 8⟩ { leaseMs := some 1000 } []
      ⟨fun _ => false, fun _ => none⟩ fun _ => 10) expired reclaimed := rfl
  have hexpired : system.Reachable expired :=
    .step (.step (.step (.init ⟨rfl, rfl⟩) henqueue) hclaim) htick
  have hreclaimed : system.Reachable reclaimed := .step hexpired hreclaim
  have hsucceeds : Succeeds reclaimed (.complete ⟨.worker, 8⟩) newer := ⟨_, rfl⟩
  have honly := (lease_exclusive hreclaimed).2.2.1 older (List.mem_cons_of_mem _ (.head _)) newer
    (.head _) rfl
  have hstale := (lease_exclusive hexpired).2.2.2.2.1 older (.head _) _ _ _ _ _ _ hreclaim
    ⟨[newer], rfl, newer, .head _, rfl⟩ [] reclaimed (.nil _) (.complete ⟨.worker, 7⟩)
  refine ⟨reclaimed, older, newer, rfl, rfl, hsucceeds, fun holder => ?_, hstale⟩
  have heq : older = newer := honly holder ⟨[], reclaimed, _, .nil _, hsucceeds⟩
  exact absurd (congrArg JobLease.generation heq) (by decide)

end Rogichat.Queue
