import Rogichat.Lib.Trace
import Rogichat.Queue.Model

/-!
# The queue as a system

Any number of workers run the queue's transactions in any order, under a clock
that only moves forward. The state is the table, the clock, and the history of
every lease a claim ever returned; a fenced operation may present any lease at
all, current, stale or made up.
-/

namespace Rogichat.Queue

open Lib

/-- The operations a worker performs under a lease. -/
inductive Fenced
  | complete (self : Jobs)
  | completeInDomain
  | renew (self : Jobs) (leaseMs : Nat)
  | retry (self : Jobs) (code : JobErrorCode) (options : RetryOptions)
  | continueMedia (progress : Bool)
  | continuePurge (outcome : PurgeContinuation)

/-- A fenced operation as a transaction. -/
def Fenced.exec (op : Fenced) (jobs : Table Job) (now : Time) (lease : JobLease) :
    Except JobError (Table Job × Bool) :=
  match op with
  | .complete self => self.complete jobs now lease
  | .completeInDomain => JobsCoreService.complete jobs now lease
  | .renew self leaseMs => self.renew jobs now lease leaseMs
  | .retry self code options => self.retry jobs now lease code options
  | .continueMedia progress => JobsCoreService.continueMedia jobs now lease progress
  | .continuePurge outcome => JobsCoreService.continuePurge jobs now lease outcome

/-- The queue's state, with the leases ever issued, newest first. -/
structure Sys where
  jobs : Table Job
  now : Time
  issued : List JobLease

/-- The repository's operations and the passing of time. -/
inductive Command
  | tick (elapsed : Nat)
  | enqueue (input : EnqueueJob)
  | claim (self : Jobs) (options : ClaimOptions) (locked : List Uuid) (evidence : PurgeEvidence)
      (token : Uuid → Uuid)
  | fenced (op : Fenced) (lease : JobLease)
  | recoverMedia (assetId : Uuid)
  | recover (requestId : Uuid) (roomId : Option Uuid)

/-- A command in a state; a failed one changes nothing. -/
def exec (c : Command) (s : Sys) : Except JobError Sys :=
  match c with
  | .tick elapsed => return { s with now := s.now + elapsed }
  | .enqueue input => do
    let (jobs, _) ← JobsCoreService.enqueue s.jobs s.now input
    return { s with jobs := jobs }
  | .claim self options locked evidence token => do
    let (jobs, leases) ← self.claim s.jobs s.now options locked evidence token
    return { s with jobs := jobs, issued := leases.reverse ++ s.issued }
  | .fenced op lease => do
    let (jobs, _) ← op.exec s.jobs s.now lease
    return { s with jobs := jobs }
  | .recoverMedia assetId =>
    return { s with jobs := JobsCoreService.recoverMedia s.jobs s.now assetId }
  | .recover requestId roomId => do
    let jobs ← PurgeWorkerRepository.recover s.jobs s.now requestId roomId
    return { s with jobs := jobs }

/-- The queue, started empty. -/
def system : System Sys Command where
  init s := s.jobs = .empty ∧ s.issued = []
  step c s t := exec c s = .ok t

/-- The operation, run now under the lease, reports success. -/
def Succeeds (s : Sys) (op : Fenced) (lease : JobLease) : Prop :=
  ∃ jobs, op.exec s.jobs s.now lease = .ok (jobs, true)

/-- Some fenced operation succeeds under the lease, now or after further
commands. -/
def CanStillSucceed (s : Sys) (lease : JobLease) : Prop :=
  ∃ cs t op, system.Run s cs t ∧ Succeeds t op lease

/-! ## What a fenced operation does -/

theorem ScopedFence.fence {purpose : JobPurpose} {now : Time} {lease : JobLease} {j : Job}
    (hp : lease.purpose = purpose) (h : ScopedFence purpose now lease j) : Fence now lease j := by
  obtain ⟨hid, hpurpose, -, -, hstate, hgen, howner, htoken, huntil⟩ := h
  exact ⟨hid, hpurpose.trans hp.symm, hgen, howner, htoken, hstate, huntil⟩

/-- What no operation takes from a row: its identity, its scope, and the
generations it has been through. -/
structure Job.Follows (r r' : Job) : Prop where
  id : r'.id = r.id
  purpose : r'.purpose = r.purpose
  resourceId : r'.resourceId = r.resourceId
  dedupeKey : r'.dedupeKey = r.dedupeKey
  generation : r.generation ≤ r'.generation

theorem Job.Follows.refl (r : Job) : r.Follows r :=
  ⟨rfl, rfl, rfl, rfl, Nat.le_refl _⟩

theorem Job.Follows.trans {r s t : Job} (h : r.Follows s) (h' : s.Follows t) : r.Follows t :=
  ⟨h'.id.trans h.id, h'.purpose.trans h.purpose, h'.resourceId.trans h.resourceId,
    h'.dedupeKey.trans h.dedupeKey, Nat.le_trans h.generation h'.generation⟩

/-- An operation either finds its fence, and then only rewrites the fenced row
within its identity and generation, or leaves the table alone. -/
structure FencedUpdate (jobs jobs' : Table Job) (now : Time) (lease : JobLease)
    (succeeded : Bool) : Prop where
  fence : succeeded = true → ∃ r ∈ jobs, Fence now lease r
  noop : (∀ r ∈ jobs, ¬Fence now lease r) → jobs' = jobs ∧ succeeded = false
  forward : ∀ r ∈ jobs, ∃ r' ∈ jobs', r.Follows r' ∧ (r' = r ∨ Fence now lease r)

/-- Every operation is one guarded update of the table. -/
theorem FencedUpdate.of_update {jobs : Table Job} {now : Time} {lease : JobLease}
    {p : Job → Prop} [DecidablePred p] {f : Job → Job} {hf : Table.Keeps f} {b : Bool}
    (hp : ∀ r, p r → Fence now lease r) (hfollows : ∀ r : Job, r.Follows (f r))
    (hb : b = true ↔ jobs.Has p) : FencedUpdate jobs (jobs.update p f hf) now lease b := by
  constructor
  · intro h
    obtain ⟨r, hr, hpr⟩ := hb.mp h
    exact ⟨r, hr, hp r hpr⟩
  · intro hnone
    have hnp : ∀ r ∈ jobs, ¬p r := fun r hr h => hnone r hr (hp r h)
    refine ⟨Table.update_eq_self hnp, ?_⟩
    rw [← Bool.not_eq_true, hb]
    rintro ⟨r, hr, hpr⟩
    exact hnp r hr hpr
  · intro r hr
    refine ⟨_, Table.mem_update_of_mem hr, ?_⟩
    by_cases hpr : p r
    · rw [if_pos hpr]
      exact ⟨hfollows r, .inr (hp r hpr)⟩
    · rw [if_neg hpr]
      exact ⟨.refl r, .inl rfl⟩

theorem Fenced.exec_spec {op : Fenced} {jobs jobs' : Table Job} {now : Time} {lease : JobLease}
    {b : Bool} (h : op.exec jobs now lease = .ok (jobs', b)) :
    FencedUpdate jobs jobs' now lease b := by
  cases op with
  | complete self =>
    simp only [Fenced.exec, Jobs.complete, JobsCoreService.complete, bind_ok, pure_ok,
      Prod.mk.injEq] at h
    obtain ⟨-, -, -, -, rfl, rfl⟩ := h
    exact .of_update (fun r hr => hr) (fun r => ⟨rfl, rfl, rfl, rfl, Nat.le_refl _⟩) (by simp)
  | completeInDomain =>
    simp only [Fenced.exec, JobsCoreService.complete, bind_ok, pure_ok, Prod.mk.injEq] at h
    obtain ⟨-, -, rfl, rfl⟩ := h
    exact .of_update (fun r hr => hr) (fun r => ⟨rfl, rfl, rfl, rfl, Nat.le_refl _⟩) (by simp)
  | renew self leaseMs =>
    simp only [Fenced.exec, Jobs.renew, bind_ok, pure_ok, Prod.mk.injEq] at h
    obtain ⟨-, -, -, -, rfl, rfl⟩ := h
    exact .of_update (fun r hr => hr) (fun r => ⟨rfl, rfl, rfl, rfl, Nat.le_refl _⟩) (by simp)
  | retry self code options =>
    simp only [Fenced.exec, Jobs.retry, bind_ok, pure_ok, Prod.mk.injEq] at h
    obtain ⟨-, -, -, -, rfl, rfl⟩ := h
    exact .of_update (fun r hr => hr) (fun r => ⟨rfl, rfl, rfl, rfl, Nat.le_refl _⟩) (by simp)
  | continueMedia progress =>
    simp only [Fenced.exec, JobsCoreService.continueMedia, bind_ok, pure_ok, ensure_ok,
      Prod.mk.injEq] at h
    obtain ⟨-, -, -, ⟨hpurpose, -, hhas⟩, rfl, rfl⟩ := h
    exact .of_update (fun r hr => hr.fence hpurpose)
      (fun r => ⟨rfl, rfl, rfl, rfl, Nat.le_refl _⟩) (by simpa using hhas)
  | continuePurge outcome =>
    simp only [Fenced.exec, JobsCoreService.continuePurge, bind_ok, pure_ok, ensure_ok,
      Prod.mk.injEq] at h
    obtain ⟨-, -, -, ⟨hpurpose, -⟩, -, -, -, -, -, hhas, rfl, rfl⟩ := h
    exact .of_update (fun r hr => hr.fence hpurpose)
      (fun r => ⟨rfl, rfl, rfl, rfl, Nat.le_refl _⟩) (by simpa using hhas)

end Rogichat.Queue
