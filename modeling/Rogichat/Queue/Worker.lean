import Rogichat.Queue.Attempts

/-!
# The worker loop

`worker-loop.ts` as a process beside the queue. The code between two awaits runs in one step;
at every await other transactions, `stop` and the drain signal may come first. A rejected
promise ends the tick.

* **`turns_eq`** — the claims of a loop follow its turn counter.
* **`started_at_boundary`** — no step starts a handler once the loop was told to stop.
* **`replay`** — a run of the loop is a run of the queue.
-/

namespace Rogichat.Queue

open Lib

/-- `WorkerResult`. -/
inductive WorkerResult
  | completed | leaseLost | progress | deferred | subsetDrained
  deriving DecidableEq, Repr

/-- How the promise of a handler settles: with a result, with any other value, with a
`JobFailure`, or with any other error. -/
inductive Settled
  | result (result : WorkerResult)
  | unknown
  | jobFailure (code : JobErrorCode) (terminal : Bool)
  | error
  deriving DecidableEq, Repr

/-- `WorkerTick`. -/
structure WorkerTick where
  claimed : Nat := 0
  completed : Nat := 0
  leaseLost : Nat := 0
  retried : Nat := 0
  failed : Nat := 0
  progress : Nat := 0
  deferred : Nat := 0
  subsetDrained : Nat := 0
  deriving DecidableEq, Repr

/-- Count a handler's result. -/
def WorkerTick.count (counts : WorkerTick) : WorkerResult → WorkerTick
  | .completed => { counts with completed := counts.completed + 1 }
  | .leaseLost => { counts with leaseLost := counts.leaseLost + 1 }
  | .progress => { counts with progress := counts.progress + 1 }
  | .deferred => { counts with deferred := counts.deferred + 1 }
  | .subsetDrained => { counts with subsetDrained := counts.subsetDrained + 1 }

/-- A loop as it is constructed: the claims it makes and the handlers installed in it. -/
structure WorkerLoop where
  jobs : Jobs
  handlers : JobPurpose → Bool
  maxPerTick : Nat := 10
  leaseMs : Nat := 30000

/-- `purposes`: the installed ones, purges first. -/
def WorkerLoop.purposes (loop : WorkerLoop) : List JobPurpose :=
  [.purge, .media, .publication, .push, .ledgerExport].filter fun purpose => loop.handlers purpose

/-- The loop's purposes without the purge. -/
def WorkerLoop.otherPurposes (loop : WorkerLoop) : List JobPurpose :=
  loop.purposes.filter fun purpose => purpose ≠ .purge

/-- The loop takes turns: it has purges and something else to do. -/
def WorkerLoop.Shared (loop : WorkerLoop) : Prop :=
  .purge ∈ loop.purposes ∧ loop.otherPurposes ≠ []

instance (loop : WorkerLoop) : Decidable loop.Shared :=
  inferInstanceAs (Decidable (_ ∧ _))

/-- `reserved`, at a turn. -/
def WorkerLoop.reserved (loop : WorkerLoop) (claimTurn : Nat) : Bool :=
  decide loop.Shared && claimTurn % 4 = 3

/-- The purposes of the claim made at a turn. -/
def WorkerLoop.asked (loop : WorkerLoop) (claimTurn : Nat) : List JobPurpose :=
  if loop.reserved claimTurn then loop.otherPurposes else loop.purposes

/-- Where the tick waits: for readiness, for a claim, to go on after one, for the return of a
lease, for a handler, or for the retry of a failed one. -/
inductive Phase
  | idle
  | checking (index : Nat)
  | claiming (index claimTurn : Nat)
  | claimed (index claimTurn : Nat) (lease : Option JobLease)
  | returning (lease : JobLease)
  | handling (index : Nat) (lease : JobLease)
  | failing (index : Nat) (lease : JobLease) (code : JobErrorCode) (terminal : Bool)
  deriving DecidableEq, Repr

/-- A loop and the queue. The commands the queue executed, the claims the loop made and the
handlers it started are kept, oldest first. -/
structure Worker where
  queue : Sys
  claimTurn : Nat := 0
  stopped : Bool := false
  draining : Bool := false
  phase : Phase := .idle
  counts : WorkerTick := {}
  executed : List Command := []
  claims : List (List JobPurpose) := []
  started : List JobLease := []

/-- `this.stopped || this.lifecycle.draining`. -/
def Worker.halted (s : Worker) : Bool := s.stopped || s.draining

/-- What the loop does between two awaits, and what happens beside it. -/
inductive WorkerAction
  | queue (c : Command)
  | stop
  | drain
  | tick
  | ready (answer : Bool)
  | claim (locked : List Uuid) (evidence : PurgeEvidence) (token : Uuid → Uuid)
  | resume
  | handled (outcome : Settled)
  | retry (delayMs : Nat)
  | rejected

/-- The head of the `for`. -/
def WorkerLoop.head (loop : WorkerLoop) (s : Worker) (index : Nat) : Worker :=
  { s with phase := if index < loop.maxPerTick ∧ s.halted = false then .checking index else .idle }

/-- The turn is only counted where the reservation looks at it. -/
def WorkerLoop.nextClaim (loop : WorkerLoop) (s : Worker) (index : Nat) : Worker :=
  { s with
    claimTurn := if loop.Shared then s.claimTurn + 1 else s.claimTurn
    claims := s.claims ++ [loop.asked s.claimTurn]
    phase := .claiming index s.claimTurn }

/-- The queue executes a command. -/
def Worker.execute (s : Worker) (c : Command) : Option Worker :=
  (exec c s.queue).toOption.map fun queue => { s with queue, executed := s.executed ++ [c] }

/-- The claim of a turn, as a command of the queue. -/
def WorkerLoop.claimCommand (loop : WorkerLoop) (claimTurn : Nat) (locked : List Uuid)
    (evidence : PurgeEvidence) (token : Uuid → Uuid) : Command :=
  .claim loop.jobs
    { purposes := some (loop.asked claimTurn), limit := some 1, leaseMs := some loop.leaseMs }
    locked evidence token

/-- `const [lease] = …`: the leases a claim returned are those it added to the history. -/
def returned (before after : Sys) : Option JobLease :=
  (after.issued.take (after.issued.length - before.issued.length)).reverse.head?

/-- A claimed lease goes back, or to its handler; without a handler the tick throws. -/
def WorkerLoop.dispatch (loop : WorkerLoop) (s : Worker) (index : Nat) (lease : JobLease) :
    Worker :=
  if s.halted then { s with phase := .returning lease }
  else if loop.handlers lease.purpose then
    { s with phase := .handling index lease, started := s.started ++ [lease] }
  else { s with phase := .idle }

/-- A claim is answered. -/
def WorkerLoop.resume (loop : WorkerLoop) (s : Worker) (index claimTurn : Nat) :
    Option JobLease → Worker
  | none => if loop.reserved claimTurn then loop.head s (index + 1) else { s with phase := .idle }
  | some lease =>
    loop.dispatch { s with counts := { s.counts with claimed := s.counts.claimed + 1 } } index lease

/-- A handler settles. -/
def WorkerLoop.handled (loop : WorkerLoop) (s : Worker) (index : Nat) (lease : JobLease) :
    Settled → Worker
  | .result result => loop.head { s with counts := s.counts.count result } index.succ
  | .unknown => { s with phase := .failing index lease .permanentFailure true }
  | .jobFailure code terminal => { s with phase := .failing index lease code terminal }
  | .error => { s with phase := .failing index lease .temporaryUnavailable false }

/-- The retry under a lease, as a command of the queue. -/
def WorkerLoop.retryCommand (loop : WorkerLoop) (lease : JobLease) (code : JobErrorCode)
    (delayMs : Nat) (terminal : Bool) : Command :=
  .fenced (.retry loop.jobs code { delayMs, terminal }) lease

/-- Whether the fenced row was found. -/
def WorkerLoop.retries (s : Worker) (lease : JobLease) : Bool :=
  decide (s.queue.jobs.Has (Fence s.queue.now lease))

/-- How a failed job is counted. -/
def WorkerTick.retry (counts : WorkerTick) (found failed : Bool) : WorkerTick :=
  if !found then { counts with leaseLost := counts.leaseLost + 1 }
  else if failed then { counts with failed := counts.failed + 1 }
  else { counts with retried := counts.retried + 1 }

/-- One action, where it is possible. -/
def WorkerLoop.exec (loop : WorkerLoop) (a : WorkerAction) (s : Worker) : Option Worker :=
  match a, s.phase with
  | .queue c, _ => s.execute c
  | .stop, _ => some { s with stopped := true }
  | .drain, _ => some { s with draining := true }
  | .tick, .idle =>
    if s.halted || loop.purposes.isEmpty then some s else some (loop.head { s with counts := {} } 0)
  | .tick, _ => some s
  | .ready answer, .checking index =>
    some (if !answer || s.halted then { s with phase := .idle } else loop.nextClaim s index)
  | .claim locked evidence token, .claiming index claimTurn =>
    (s.execute (loop.claimCommand claimTurn locked evidence token)).map fun t =>
      { t with phase := .claimed index claimTurn (returned s.queue t.queue) }
  | .resume, .claimed index claimTurn lease => some (loop.resume s index claimTurn lease)
  | .handled outcome, .handling index lease => some (loop.handled s index lease outcome)
  -- a lease claimed across the stop goes back at once, whatever delay was drawn
  | .retry _, .returning lease =>
    (s.execute (loop.retryCommand lease .temporaryUnavailable 0 false)).map fun t =>
      { t with phase := .idle, counts := s.counts.retry (WorkerLoop.retries s lease) false }
  | .retry delayMs, .failing index lease code terminal =>
    (s.execute (loop.retryCommand lease code delayMs terminal)).map fun t =>
      loop.head
        { t with
          counts := s.counts.retry (WorkerLoop.retries s lease)
            (terminal || decide (lease.attempts ≥ lease.maxAttempts)) }
        (index + 1)
  | .rejected, .checking _ | .rejected, .claiming _ _ | .rejected, .returning _
  | .rejected, .failing _ _ _ _ => some { s with phase := .idle }
  | _, _ => none

/-- The loop beside a queue that was started empty. -/
def WorkerLoop.system (loop : WorkerLoop) : System Worker WorkerAction where
  init s := Queue.system.init s.queue ∧ s.claimTurn = 0 ∧ s.phase = .idle ∧ s.counts = {} ∧
    s.executed = [] ∧ s.claims = [] ∧ s.started = []
  step a s t := loop.exec a s = some t

/-! ## What a step does -/

/-- The queue executed one command, or none. -/
def Executed (s t : Worker) : Prop :=
  t.queue = s.queue ∧ t.executed = s.executed ∨
    ∃ c, Queue.exec c s.queue = .ok t.queue ∧ t.executed = s.executed ++ [c]

/-- Everything but the queue, of one step of the loop. -/
structure Stepped (loop : WorkerLoop) (s t : Worker) : Prop where
  halted : s.halted = true → t.halted = true
  turn : t.claimTurn = s.claimTurn ∧ t.claims = s.claims ∨
    t.claimTurn = (if loop.Shared then s.claimTurn + 1 else s.claimTurn) ∧
      t.claims = s.claims ++ [loop.asked s.claimTurn]
  started : t.started = s.started ∨ s.halted = false

theorem execute_spec {s t : Worker} {c : Command} (h : s.execute c = some t) :
    Queue.exec c s.queue = .ok t.queue ∧
      t = { s with queue := t.queue, executed := s.executed ++ [c] } := by
  simp only [Worker.execute, Option.map_eq_some_iff] at h
  obtain ⟨queue, hqueue, rfl⟩ := h
  exact ⟨toOption_eq_some.mp hqueue, rfl⟩

variable {loop : WorkerLoop}

/-- What leaves the turns and the handlers alone. -/
theorem Stepped.quiet {s t : Worker} (hstopped : t.stopped = s.stopped)
    (hdraining : t.draining = s.draining) (hturn : t.claimTurn = s.claimTurn)
    (hclaims : t.claims = s.claims) (hstarted : t.started = s.started) : Stepped loop s t := by
  refine ⟨fun hhalted => ?_, .inl ⟨hturn, hclaims⟩, .inl hstarted⟩
  rw [Worker.halted, hstopped, hdraining]
  exact hhalted

theorem dispatch_spec (s : Worker) (index : Nat) (lease : JobLease) :
    (loop.dispatch s index lease).queue = s.queue ∧
      (loop.dispatch s index lease).executed = s.executed ∧
      Stepped loop s (loop.dispatch s index lease) := by
  rw [WorkerLoop.dispatch]
  by_cases hhalted : s.halted = true
  · rw [if_pos hhalted]
    exact ⟨rfl, rfl, .quiet rfl rfl rfl rfl rfl⟩
  · rw [if_neg hhalted]
    by_cases hhandler : loop.handlers lease.purpose = true
    · rw [if_pos hhandler]
      exact ⟨rfl, rfl, fun h => h, .inl ⟨rfl, rfl⟩, .inr (Bool.eq_false_iff.mpr hhalted)⟩
    · rw [if_neg hhandler]
      exact ⟨rfl, rfl, .quiet rfl rfl rfl rfl rfl⟩

theorem resume_spec (s : Worker) (index claimTurn : Nat) (lease : Option JobLease) :
    (loop.resume s index claimTurn lease).queue = s.queue ∧
      (loop.resume s index claimTurn lease).executed = s.executed ∧
      Stepped loop s (loop.resume s index claimTurn lease) := by
  cases lease with
  | none =>
    rw [WorkerLoop.resume]
    split
    · exact ⟨rfl, rfl, .quiet rfl rfl rfl rfl rfl⟩
    · exact ⟨rfl, rfl, .quiet rfl rfl rfl rfl rfl⟩
  | some lease =>
    have hcounted := @dispatch_spec loop
      { s with counts := { s.counts with claimed := s.counts.claimed + 1 } } index lease
    exact ⟨hcounted.1, hcounted.2.1, hcounted.2.2.halted, hcounted.2.2.turn, hcounted.2.2.started⟩

theorem handled_spec (s : Worker) (index : Nat) (lease : JobLease) (outcome : Settled) :
    (loop.handled s index lease outcome).queue = s.queue ∧
      (loop.handled s index lease outcome).executed = s.executed ∧
      Stepped loop s (loop.handled s index lease outcome) := by
  cases outcome <;> exact ⟨rfl, rfl, .quiet rfl rfl rfl rfl rfl⟩

theorem step_spec {a : WorkerAction} {s t : Worker} (h : loop.exec a s = some t) :
    Executed s t ∧ Stepped loop s t := by
  rw [WorkerLoop.exec.eq_def] at h
  split at h
  · obtain ⟨hexec, ht⟩ := execute_spec h
    rw [ht]
    exact ⟨.inr ⟨_, hexec, rfl⟩, .quiet rfl rfl rfl rfl rfl⟩
  · cases h
    exact ⟨.inl ⟨rfl, rfl⟩, fun _ => rfl, .inl ⟨rfl, rfl⟩, .inl rfl⟩
  · cases h
    exact ⟨.inl ⟨rfl, rfl⟩, fun _ => Bool.or_true _, .inl ⟨rfl, rfl⟩, .inl rfl⟩
  · split at h
    · cases h
      exact ⟨.inl ⟨rfl, rfl⟩, .quiet rfl rfl rfl rfl rfl⟩
    · cases h
      exact ⟨.inl ⟨rfl, rfl⟩, .quiet rfl rfl rfl rfl rfl⟩
  · cases h
    exact ⟨.inl ⟨rfl, rfl⟩, .quiet rfl rfl rfl rfl rfl⟩
  · -- the turn counts where the claim is made
    obtain rfl := Option.some.inj h
    split
    · exact ⟨.inl ⟨rfl, rfl⟩, .quiet rfl rfl rfl rfl rfl⟩
    · exact ⟨.inl ⟨rfl, rfl⟩, fun hhalted => hhalted, .inr ⟨rfl, rfl⟩, .inl rfl⟩
  · obtain ⟨u, hu, rfl⟩ := Option.map_eq_some_iff.mp h
    obtain ⟨hexec, ht⟩ := execute_spec hu
    rw [ht]
    exact ⟨.inr ⟨_, hexec, rfl⟩, .quiet rfl rfl rfl rfl rfl⟩
  · obtain rfl := Option.some.inj h
    obtain ⟨hqueue, hexecuted, hstepped⟩ := @resume_spec loop s _ _ _
    exact ⟨.inl ⟨hqueue, hexecuted⟩, hstepped⟩
  · obtain rfl := Option.some.inj h
    obtain ⟨hqueue, hexecuted, hstepped⟩ := @handled_spec loop s _ _ _
    exact ⟨.inl ⟨hqueue, hexecuted⟩, hstepped⟩
  · obtain ⟨u, hu, rfl⟩ := Option.map_eq_some_iff.mp h
    obtain ⟨hexec, ht⟩ := execute_spec hu
    rw [ht]
    exact ⟨.inr ⟨_, hexec, rfl⟩, .quiet rfl rfl rfl rfl rfl⟩
  · obtain ⟨u, hu, rfl⟩ := Option.map_eq_some_iff.mp h
    obtain ⟨hexec, ht⟩ := execute_spec hu
    rw [ht]
    exact ⟨.inr ⟨_, hexec, rfl⟩, .quiet rfl rfl rfl rfl rfl⟩
  all_goals
    cases h
  all_goals exact ⟨.inl ⟨rfl, rfl⟩, .quiet rfl rfl rfl rfl rfl⟩

/-- A run of the loop is a run of the queue. -/
theorem replay {s : Worker} (hs : loop.system.Reachable s) :
    ∃ q, Queue.system.init q ∧ Queue.system.Run q s.executed s.queue := by
  refine System.Reachable.induct
    (P := fun s => ∃ q, Queue.system.init q ∧ Queue.system.Run q s.executed s.queue) ⟨?_, ?_⟩ hs
  · rintro s ⟨hqueue, -, -, -, hexecuted, -, -⟩
    refine ⟨s.queue, hqueue, ?_⟩
    rw [hexecuted]
    exact .nil _
  · rintro s t a - ⟨q, hq, hrun⟩ hstep
    refine ⟨q, hq, ?_⟩
    rcases (step_spec hstep).1 with ⟨hqueue, hexecuted⟩ | ⟨c, hexec, hexecuted⟩
    · rw [hqueue, hexecuted]
      exact hrun
    · rw [hexecuted]
      exact hrun.append (.single hexec)

/-! ## Turns -/

/-- The claims of a loop that takes turns follow its counter. -/
theorem turns_eq {s : Worker} (hs : loop.system.Reachable s) (hshared : loop.Shared) :
    s.claims = (List.range s.claimTurn).map loop.asked := by
  refine System.Reachable.induct
    (P := fun s : Worker => s.claims = (List.range s.claimTurn).map loop.asked) ⟨?_, ?_⟩ hs
  · rintro s ⟨-, hturn, -, -, -, hclaims, -⟩
    rw [hturn, hclaims]
    rfl
  · rintro s t a - hclaims hstep
    rcases (step_spec hstep).2.turn with ⟨hturn, hsame⟩ | ⟨hturn, hnext⟩
    · rw [hturn, hsame, hclaims]
    · rw [hturn, hnext, hclaims, if_pos hshared, List.range_succ, List.map_append]
      rfl

/-- The fourth of every four turns leaves the purges out. -/
theorem asked_reserved (hshared : loop.Shared) {turn : Nat} (h : turn % 4 = 3) :
    .purge ∉ loop.asked turn ∧ loop.asked turn ≠ [] := by
  have hreserved : loop.reserved turn = true := by
    simp [WorkerLoop.reserved, hshared, h]
  rw [WorkerLoop.asked, if_pos hreserved]
  refine ⟨fun hpurge => ?_, hshared.2⟩
  simp [WorkerLoop.otherPurposes] at hpurge

theorem turns_excluding {s : Worker} (hs : loop.system.Reachable s) (hshared : loop.Shared)
    {i : Nat} (hi : i + 4 ≤ s.claims.length) :
    ∃ k < 4, ∃ purposes, s.claims[i + k]? = some purposes ∧ .purge ∉ purposes ∧ purposes ≠ [] := by
  have hclaims := turns_eq hs hshared
  have hlength : s.claims.length = s.claimTurn := by
    rw [hclaims, List.length_map, List.length_range]
  refine ⟨3 - i % 4, by omega, loop.asked (i + (3 - i % 4)), ?_, asked_reserved hshared (by omega)⟩
  rw [hclaims, List.getElem?_map, List.getElem?_range (by omega)]
  rfl

/-! ## The stop boundary -/

theorem started_at_boundary {s t : Worker} {as : List WorkerAction}
    (h : loop.system.Run s as t) (hhalted : s.halted = true) :
    t.halted = true ∧ t.started = s.started := by
  induction h with
  | nil => exact ⟨hhalted, rfl⟩
  | cons hstep _ ih =>
    obtain ⟨hkept, -, hstarted⟩ := (step_spec hstep).2
    obtain ⟨hlast, hsame⟩ := ih (hkept hhalted)
    refine ⟨hlast, hsame.trans ?_⟩
    rcases hstarted with hstarted | hrunning
    · exact hstarted
    · rw [hhalted] at hrunning
      cases hrunning

/-! ## The lease in hand -/

/-- The lease a phase is about. -/
def Phase.lease? : Phase → Option JobLease
  | .claimed _ _ lease => lease
  | .returning lease | .handling _ lease | .failing _ lease _ _ => some lease
  | .idle | .checking _ | .claiming _ _ => none

theorem claimRows_own {self : Jobs} {evidence : PurgeEvidence} {token : Uuid → Uuid}
    {leaseUntil : Time} {rows : List Job} {jobs jobs' : Table Job} {leases : List JobLease}
    (h : claimRows self evidence token leaseUntil rows jobs = .ok (jobs', leases))
    (hpurpose : ∀ r ∈ rows, r.purpose ∈ consumerPurposes self.consumer) :
    ∀ l ∈ leases, self.own l = .ok () := by
  induction rows generalizing jobs leases with
  | nil =>
    simp only [claimRows, pure_ok, Prod.mk.injEq] at h
    obtain ⟨-, rfl⟩ := h
    exact fun l hl => absurd hl List.not_mem_nil
  | cons row rows ih =>
    have hrest := fun r hr => hpurpose r (List.mem_cons_of_mem _ hr)
    rw [claimRows] at h
    simp only [bind_ok, ensure_ok] at h
    obtain ⟨-, hgeneration, h⟩ := h
    split at h
    · exact ih h hrest
    · simp only [bind_ok, pure_ok, Prod.mk.injEq] at h
      obtain ⟨⟨jobs₁, leases₁⟩, hrun, rfl, rfl⟩ := h
      intro l hl
      rcases List.mem_cons.mp hl with rfl | hl
      · simp only [Jobs.own, leaseValues, bind_ok, ensure_ok]
        exact ⟨(), ⟨Nat.le_add_left _ _, hgeneration⟩, trivial, hpurpose row List.mem_cons_self⟩
      · exact ih hrun hrest l hl

/-- The leases of a claim are the claimer's own. -/
theorem Jobs.claim_own {self : Jobs} {jobs jobs' : Table Job} {now : Time}
    {options : ClaimOptions} {locked : List Uuid} {evidence : PurgeEvidence} {token : Uuid → Uuid}
    {leases : List JobLease}
    (h : self.claim jobs now options locked evidence token = .ok (jobs', leases)) :
    ∀ l ∈ leases, self.own l = .ok () := by
  simp only [Jobs.claim, bind_ok, ensure_ok] at h
  obtain ⟨-, ⟨-, -, hallowed⟩, -, -, -, -, hrows⟩ := h
  refine claimRows_own hrows fun r hr => hallowed _ ?_
  unfold JobsRepository.claim at hr
  have hsorted := List.mem_of_mem_take hr
  rw [List.mem_insertionSort, List.mem_filter] at hsorted
  exact (Table.mem_select.mp hsorted.1).2.1

theorem returned_own {before after : Sys} {claimTurn : Nat} {locked : List Uuid}
    {evidence : PurgeEvidence} {token : Uuid → Uuid}
    (h : Queue.exec (loop.claimCommand claimTurn locked evidence token) before = .ok after) :
    ∀ l ∈ returned before after, loop.jobs.own l = .ok () := by
  simp only [WorkerLoop.claimCommand, Queue.exec, bind_ok, pure_ok] at h
  obtain ⟨⟨jobs, leases⟩, hclaim, rfl⟩ := h
  intro l hl
  refine Jobs.claim_own hclaim l ?_
  have hnew : (leases.reverse ++ before.issued).take
      ((leases.reverse ++ before.issued).length - before.issued.length) = leases.reverse := by
    rw [List.length_append, Nat.add_sub_cancel, List.take_left]
  rw [returned, hnew, List.reverse_reverse] at hl
  exact List.mem_of_mem_head? hl

theorem head_lease (s : Worker) (index : Nat) : (loop.head s index).phase.lease? = none := by
  show (if index < loop.maxPerTick ∧ s.halted = false then Phase.checking index
    else .idle).lease? = none
  split <;> rfl

/-- A lease in hand is the loop's own. -/
theorem held_own {s : Worker} (hs : loop.system.Reachable s) :
    ∀ l ∈ s.phase.lease?, loop.jobs.own l = .ok () := by
  refine System.Reachable.induct
    (P := fun s : Worker => ∀ l ∈ s.phase.lease?, loop.jobs.own l = .ok ()) ⟨?_, ?_⟩ hs
  · rintro s ⟨-, -, hphase, -⟩ l hl
    rw [hphase] at hl
    cases hl
  · rintro s t a - hheld hstep
    change loop.exec a s = some t at hstep
    -- the three ways a step leaves the lease: given up, not there, as it was
    have hhead : ∀ (u : Worker) (index : Nat), t = loop.head u index →
        ∀ l ∈ t.phase.lease?, loop.jobs.own l = .ok () := by
      rintro u index rfl l hl
      rw [head_lease] at hl
      cases hl
    have hnone : t.phase.lease? = none → ∀ l ∈ t.phase.lease?, loop.jobs.own l = .ok () := by
      intro hphase l hl
      rw [hphase] at hl
      cases hl
    have hsame : t.phase.lease? = s.phase.lease? →
        ∀ l ∈ t.phase.lease?, loop.jobs.own l = .ok () := by
      intro hphase
      rw [hphase]
      exact hheld
    rw [WorkerLoop.exec.eq_def] at hstep
    split at hstep
    · obtain ⟨-, ht⟩ := execute_spec hstep
      exact hsame (by rw [ht])
    · cases hstep
      exact hsame rfl
    · cases hstep
      exact hsame rfl
    · split at hstep
      · cases hstep
        exact hsame rfl
      · exact hhead _ _ (Option.some.inj hstep).symm
    · cases hstep
      exact hsame rfl
    · refine hnone ?_
      obtain rfl := Option.some.inj hstep
      split <;> rfl
    · obtain ⟨u, hu, rfl⟩ := Option.map_eq_some_iff.mp hstep
      obtain ⟨hexec, -⟩ := execute_spec hu
      exact returned_own hexec
    · next lease hphase =>
      obtain rfl := Option.some.inj hstep
      rw [hphase] at hheld
      cases lease with
      | none =>
        refine hnone ?_
        rw [WorkerLoop.resume]
        split
        · exact head_lease _ _
        · rfl
      | some lease =>
        show ∀ l ∈ (loop.dispatch _ _ lease).phase.lease?, _
        rw [WorkerLoop.dispatch]
        split
        · exact hheld
        · split
          · exact hheld
          · exact fun l hl => by cases hl
    · next outcome index lease hphase =>
      obtain rfl := Option.some.inj hstep
      rw [hphase] at hheld
      cases outcome with
      | result result => exact hhead _ _ rfl
      | unknown => exact hheld
      | jobFailure code terminal => exact hheld
      | error => exact hheld
    · obtain ⟨u, hu, rfl⟩ := Option.map_eq_some_iff.mp hstep
      exact hnone rfl
    · obtain ⟨u, hu, rfl⟩ := Option.map_eq_some_iff.mp hstep
      exact hhead _ _ rfl
    all_goals
      cases hstep
    all_goals exact hnone rfl

/-! ## What fails a job -/

/-- A failed row was failed by this command: an exhausting claim, or a retry that is terminal or
finds no attempt left. -/
def FailedBy (c : Command) (r : Job) : Prop :=
  (∃ evidence ∈ c.evidence?, Exhausted evidence r) ∨
    ∃ self code options lease, c = .fenced (.retry self code options) lease ∧
      (options.terminal = true ∨ r.attempts ≥ r.maxAttempts)

/-- An update that fails no row. -/
theorem not_failed_update {jobs : Table Job} {p : Job → Prop} [DecidablePred p] {f : Job → Job}
    {hf : Table.Keeps f} {r r' : Job} (hr : r ∈ jobs) (hr' : r' ∈ jobs.update p f hf)
    (hid : r'.id = r.id) (hfid : ∀ q, (f q).id = q.id)
    (hfailed : ∀ q, (f q).state = .failed → q.state = .failed) :
    r'.state = .failed → r.state = .failed := by
  obtain ⟨q, hq, rfl⟩ := Table.mem_update.mp hr'
  by_cases hp : p q
  · rw [if_pos hp] at hid ⊢
    obtain rfl := eq_of_id hq hr ((hfid q).symm.trans hid)
    exact hfailed q
  · rw [if_neg hp] at hid ⊢
    obtain rfl := eq_of_id hq hr hid
    exact id

theorem fenced_failed {op : Fenced} {jobs jobs' : Table Job} {now : Time} {lease : JobLease}
    {b : Bool} (h : op.exec jobs now lease = .ok (jobs', b)) {r r' : Job} (hr : r ∈ jobs)
    (hr' : r' ∈ jobs') (hid : r'.id = r.id) (hbefore : r.state ≠ .failed)
    (hfailed : r'.state = .failed) : FailedBy (.fenced op lease) r := by
  have hleft : ¬(r'.state = .failed → r.state = .failed) := fun himp => hbefore (himp hfailed)
  cases op with
  | complete self =>
    simp only [Fenced.exec, Jobs.complete, JobsCoreService.complete, bind_ok, pure_ok,
      Prod.mk.injEq] at h
    obtain ⟨-, -, -, -, rfl, -⟩ := h
    exact absurd (not_failed_update hr hr' hid (fun _ => rfl) fun q hq => by cases hq) hleft
  | completeInDomain =>
    simp only [Fenced.exec, JobsCoreService.complete, bind_ok, pure_ok, Prod.mk.injEq] at h
    obtain ⟨-, -, rfl, -⟩ := h
    exact absurd (not_failed_update hr hr' hid (fun _ => rfl) fun q hq => by cases hq) hleft
  | renew self leaseMs =>
    simp only [Fenced.exec, Jobs.renew, bind_ok, pure_ok, Prod.mk.injEq] at h
    obtain ⟨-, -, -, -, rfl, -⟩ := h
    exact absurd (not_failed_update hr hr' hid (fun _ => rfl) fun q hq => hq) hleft
  | retry self code options =>
    simp only [Fenced.exec, Jobs.retry, bind_ok, pure_ok, Prod.mk.injEq] at h
    obtain ⟨-, -, -, -, rfl, -⟩ := h
    refine .inr ⟨self, code, options, lease, rfl, ?_⟩
    obtain ⟨q, hq, rfl⟩ := Table.mem_update.mp hr'
    by_cases hfence : Fence now lease q
    · rw [if_pos hfence] at hid hfailed
      obtain rfl := eq_of_id hq hr hid
      by_contra hnot
      simp only [if_neg hnot] at hfailed
      cases hfailed
    · rw [if_neg hfence] at hid hfailed
      obtain rfl := eq_of_id hq hr hid
      exact absurd hfailed hbefore
  | continueMedia progress =>
    simp only [Fenced.exec, JobsCoreService.continueMedia, bind_ok, pure_ok, Prod.mk.injEq] at h
    obtain ⟨-, -, -, -, rfl, -⟩ := h
    exact absurd (not_failed_update hr hr' hid (fun _ => rfl) fun q hq => by cases hq) hleft
  | continuePurge outcome =>
    simp only [Fenced.exec, JobsCoreService.continuePurge, bind_ok, pure_ok, Prod.mk.injEq] at h
    obtain ⟨-, -, -, -, -, -, -, -, -, -, rfl, -⟩ := h
    exact absurd (not_failed_update hr hr' hid (fun _ => rfl) fun q hq => by cases hq) hleft

/-- Only an exhausting claim and a retry fail a job. -/
theorem failed_by {c : Command} {s t : Sys} (h : Queue.exec c s = .ok t) {r r' : Job}
    (hr : r ∈ s.jobs) (hr' : r' ∈ t.jobs) (hid : r'.id = r.id) (hbefore : r.state ≠ .failed)
    (hfailed : r'.state = .failed) : FailedBy c r := by
  cases c with
  | claim self options locked evidence token =>
    obtain ⟨leases, -, -, hback⟩ := claim_back h
    obtain ⟨q, hq, hafter⟩ := hback r' hr'
    obtain rfl := eq_of_id hq hr (hafter.same.id.symm.trans hid)
    rcases hafter.cases with ⟨rfl, -⟩ | ⟨-, -, hleased⟩
    · exact absurd hfailed hbefore
    · refine .inl ⟨evidence, rfl, ?_⟩
      by_contra hnot
      rw [(hleased hnot).1] at hfailed
      cases hfailed
  | tick elapsed =>
    simp only [Queue.exec, pure_ok] at h
    subst h
    exact absurd (eq_of_id hr' hr hid ▸ hfailed) hbefore
  | enqueue input =>
    simp only [Queue.exec, bind_ok, pure_ok] at h
    obtain ⟨⟨jobs, id⟩, henqueue, rfl⟩ := h
    have hkept : r ∈ jobs := enqueue_forward henqueue hr
    exact absurd (eq_of_id hr' hkept hid ▸ hfailed) hbefore
  | fenced op lease =>
    simp only [Queue.exec, bind_ok, pure_ok] at h
    obtain ⟨⟨jobs, b⟩, hop, rfl⟩ := h
    exact fenced_failed hop hr hr' hid hbefore hfailed
  | recoverMedia assetId =>
    simp only [Queue.exec, pure_ok] at h
    subst h
    change r' ∈ JobsCoreService.recoverMedia s.jobs s.now assetId at hr'
    unfold JobsCoreService.recoverMedia at hr'
    exact absurd (not_failed_update hr hr' hid (fun _ => rfl) (fun q hq => by cases hq) hfailed)
      hbefore
  | recover requestId roomId =>
    simp only [Queue.exec, bind_ok, pure_ok] at h
    obtain ⟨jobs, hrecover, rfl⟩ := h
    obtain ⟨q, hq, hfollows, hcase⟩ := recover_forward hrecover hr
    obtain rfl := eq_of_id hq hr' (hfollows.id.trans hid.symm)
    rcases hcase with rfl | hwas
    · exact absurd hfailed hbefore
    · exact absurd hwas hbefore

/-- What a claim that takes `rows` makes of a row and of its leases. -/
structure ClaimedRow (evidence : PurgeEvidence) (rows : List Job) (issued issued' : List JobLease)
    (r r' : Job) : Prop where
  passed : r ∉ rows → r' = r ∧ leasesOf r.id issued' = leasesOf r.id issued
  exhausted : r ∈ rows → r.attempts ≥ r.maxAttempts → durablePurge evidence r = false →
    r'.state = .failed ∧ r'.attempts = r.attempts ∧ leasesOf r.id issued' = leasesOf r.id issued
  leased : r ∈ rows → r.attempts < r.maxAttempts → durablePurge evidence r = false →
    r'.state = .running ∧ r'.attempts = r.attempts + 1 ∧
      leasesOf r.id issued' = leasesOf r.id issued + 1
  durable : r ∈ rows → durablePurge evidence r = true →
    r'.state = .running ∧ r'.attempts = max r.attempts (min (r.attempts + 1) r.maxAttempts) ∧
      leasesOf r.id issued' = leasesOf r.id issued + 1

/-- What a claim makes of a row that was in the table before it. -/
theorem claim_row {s t : Sys} {self : Jobs} {options : ClaimOptions} {locked : List Uuid}
    {evidence : PurgeEvidence} {token : Uuid → Uuid}
    (h : Queue.exec (.claim self options locked evidence token) s = .ok t) {r r' : Job}
    (hr : r ∈ s.jobs) (hr' : r' ∈ t.jobs) (hid : r'.id = r.id) :
    ClaimedRow evidence (Command.taken s (.claim self options locked evidence token)) s.issued
      t.issued r r' := by
  obtain ⟨leases, hissued, -, hback⟩ := claim_back h
  obtain ⟨q, hq, hafter⟩ := hback r' hr'
  obtain rfl := eq_of_id hq hr (hafter.same.id.symm.trans hid)
  have hcount : leasesOf q.id t.issued = leasesOf q.id leases + leasesOf q.id s.issued := by
    rw [hissued, leasesOf_append]
  constructor
  · intro hout
    obtain ⟨rfl, hzero⟩ := hafter.passed hout
    exact ⟨rfl, by rw [hcount, hzero, Nat.zero_add]⟩
  · intro hin hused hordinary
    obtain ⟨hfailed, hattempts, hzero⟩ := (hafter.taken hin).exhausted ⟨hused, hordinary⟩
    exact ⟨hfailed, hattempts, by rw [hcount, hzero, Nat.zero_add]⟩
  · intro hin hleft hordinary
    have hnot : ¬Exhausted evidence q := fun hex => absurd hex.1 (Nat.not_le_of_lt hleft)
    obtain ⟨hrunning, hattempts, hone⟩ := (hafter.taken hin).leased hnot
    rw [nextAttempts, hordinary] at hattempts
    exact ⟨hrunning, hattempts, by rw [hcount, hone, Nat.add_comm]⟩
  · intro hin hdurable
    have hnot : ¬Exhausted evidence q := fun hex => by
      rw [hex.2] at hdurable
      cases hdurable
    obtain ⟨hrunning, hattempts, hone⟩ := (hafter.taken hin).leased hnot
    rw [nextAttempts, if_pos hdurable] at hattempts
    exact ⟨hrunning, hattempts, by rw [hcount, hone, Nat.add_comm]⟩

/-- What a retry makes of the row its lease is for. -/
theorem retry_row {s t : Sys} {self : Jobs} {code : JobErrorCode} {options : RetryOptions}
    {lease : JobLease} (h : Queue.exec (.fenced (.retry self code options) lease) s = .ok t)
    {r r' : Job} (hr : r ∈ s.jobs) (hfence : Fence s.now lease r) (hr' : r' ∈ t.jobs)
    (hid : r'.id = r.id) :
    r'.state = (if options.terminal ∨ r.attempts ≥ r.maxAttempts then .failed else .pending) ∧
      r'.availableAt = s.now + options.delayMs ∧ r'.leaseToken = none := by
  simp only [Queue.exec, Fenced.exec, Jobs.retry, bind_ok, pure_ok] at h
  obtain ⟨⟨jobs, b⟩, ⟨-, -, -, -, heq⟩, rfl⟩ := h
  have hmem : r' ∈ jobs := hr'
  obtain ⟨rfl, -⟩ := Prod.mk.inj heq
  obtain ⟨q, hq, rfl⟩ := Table.mem_update.mp hmem
  by_cases hp : Fence s.now lease q
  · rw [if_pos hp] at hid ⊢
    obtain rfl := eq_of_id hq hr hid
    exact ⟨rfl, rfl, rfl⟩
  · rw [if_neg hp] at hid
    obtain rfl := eq_of_id hq hr hid
    exact absurd hfence hp

/-- The retry of an own lease commits, whether or not it finds its row. -/
theorem retry_commits {s : Worker} {lease : JobLease} (hown : loop.jobs.own lease = .ok ())
    {code : JobErrorCode} {delayMs : Nat} {terminal : Bool} (hdelay : delayMs ≤ maxDelayMs) :
    ∃ t, s.execute (loop.retryCommand lease code delayMs terminal) = some t := by
  have hinteger : integer delayMs 0 maxDelayMs = .ok () :=
    ensure_ok.mpr ⟨Nat.zero_le _, hdelay⟩
  simp only [Worker.execute, WorkerLoop.retryCommand, Queue.exec, Fenced.exec, Jobs.retry, hown,
    hinteger, ok_bind]
  exact ⟨_, rfl⟩

/-- A lease claimed across the stop is only left by its return, or by the failure of that. -/
theorem returning_left {s t : Worker} {a : WorkerAction} {lease : JobLease}
    (hphase : s.phase = .returning lease) (h : loop.exec a s = some t) :
    t.phase = .returning lease ∨ a = .rejected ∨
      Queue.exec (loop.retryCommand lease .temporaryUnavailable 0 false) s.queue = .ok t.queue := by
  rw [WorkerLoop.exec.eq_def, hphase] at h
  cases a with
  | queue c =>
    obtain ⟨-, ht⟩ := execute_spec h
    rw [ht]
    exact .inl hphase
  | retry delayMs =>
    obtain ⟨u, hu, rfl⟩ := Option.map_eq_some_iff.mp h
    exact .inr (.inr (execute_spec hu).1)
  | rejected => exact .inr (.inl rfl)
  | stop | drain =>
    obtain rfl := Option.some.inj h
    exact .inl rfl
  | tick =>
    obtain rfl := Option.some.inj h
    exact .inl hphase
  | ready | claim | resume | handled =>
    cases h

/-- **Attempts and turns.** Over every run of the queue and a worker loop: a job that no claim
found durable has as many leases as attempts, never more than its maximum; a claim takes every
due row that no other transaction holds, or a full batch of rows before it, and leaves the
others as they are; a job it takes is leased once, a durable one with a saturating counter,
unless its attempts are used up and it is not durable: then it is failed without a lease, as a
retry under its last lease fails it; no command lowers a counter; only an exhausting claim or a
retry that is terminal or finds no attempt left fails a job; of any four consecutive claims of a
loop with purges and another purpose one leaves the purges out; and once the loop is stopped or
drained no handler starts, and a lease it claimed goes back by a retry. -/
theorem attempts_and_turns {s : Worker} (hs : loop.system.Reachable s) :
    (∀ r ∈ s.queue.jobs, r.maxAttempts ≤ 25 ∧ r.attempts ≤ r.maxAttempts ∧
      (NeverDurable s.executed r → leasesOf r.id s.queue.issued = r.attempts)) ∧
    (∀ c q, Queue.exec c s.queue = .ok q → ∀ r ∈ s.queue.jobs, ∃ r' ∈ q.jobs, r'.id = r.id ∧
      r.attempts ≤ r'.attempts ∧
      (∀ self options locked evidence token, c = .claim self options locked evidence token →
        ClaimedRow evidence (c.taken s.queue) s.queue.issued q.issued r r' ∧
        (r.purpose ∈ options.purposes.getD (consumerPurposes self.consumer) →
          (r.state = .pending ∧ r.availableAt ≤ s.queue.now ∨
            r.state = .running ∧ ∃ t ∈ r.leaseUntil, t ≤ s.queue.now) →
          r.id ∉ locked → r ∈ c.taken s.queue ∨
            (c.taken s.queue).length =
                options.limit.getD (if self.consumer = .api then 20 else 10) ∧
              ∀ p ∈ c.taken s.queue, QueueLe p r)) ∧
      (r.state ≠ .failed → r'.state = .failed → FailedBy c r) ∧
      (∀ self code options lease, c = .fenced (.retry self code options) lease →
        Fence s.queue.now lease r → r.attempts ≥ r.maxAttempts → r'.state = .failed)) ∧
    (loop.Shared → ∀ i, i + 4 ≤ s.claims.length → ∃ k < 4, ∃ purposes,
      s.claims[i + k]? = some purposes ∧ .purge ∉ purposes ∧ purposes ≠ []) ∧
    (s.halted = true → ∀ as t, loop.system.Run s as t → t.started = s.started) ∧
    (s.halted = true → ∀ index claimTurn lease,
      s.phase = .claimed index claimTurn (some lease) →
      ∃ t, loop.exec .resume s = some t ∧ t.phase = .returning lease ∧ t.queue = s.queue) ∧
    (∀ lease, s.phase = .returning lease →
      (∀ a t, loop.exec a s = some t → t.phase = .returning lease ∨ a = .rejected ∨
        Queue.exec (loop.retryCommand lease .temporaryUnavailable 0 false) s.queue =
          .ok t.queue) ∧
      ∀ delayMs, ∃ t, loop.exec (.retry delayMs) s = some t ∧ t.phase = .idle ∧
        ∀ r ∈ s.queue.jobs, Fence s.queue.now lease r → ∀ r' ∈ t.queue.jobs, r'.id = r.id →
          r'.state = (if r.attempts ≥ r.maxAttempts then .failed else .pending) ∧
            r'.availableAt = s.queue.now ∧ r'.leaseToken = none) := by
  -- the loop's own commands are a run of the queue, so the queue's results apply
  obtain ⟨q₀, hinit, hrun⟩ := replay hs
  have hqueue : Queue.system.Reachable s.queue := hrun.reachable (.init hinit)
  refine ⟨?_, ?_, ?_, ?_, ?_, ?_⟩
  · intro r hr
    have hcounted := (run_attempts hinit hrun).1 r hr
    exact ⟨hcounted.maxAttempts.2, hcounted.bounded, hcounted.leases⟩
  · intro c q hc r hr
    obtain ⟨r', hr', hsame, hle⟩ := run_forward_attempts hqueue (.single hc) hr
    refine ⟨r', hr', hsame.id, hle, ?_, ?_, ?_⟩
    · rintro self options locked evidence token rfl
      exact ⟨claim_row hc hr hr' hsame.id, fun hpurpose hdue hfree =>
        JobsRepository.claim_due hr ⟨hpurpose, hdue⟩ hfree⟩
    · exact failed_by hc hr hr' hsame.id
    · rintro self code options lease rfl hfence hno
      rw [(retry_row hc hr hfence hr' hsame.id).1, if_pos (.inr hno)]
  · intro hshared i hi
    exact turns_excluding hs hshared hi
  · intro hhalted as t hsteps
    exact (started_at_boundary hsteps hhalted).2
  · intro hhalted index claimTurn lease hphase
    have hexec : loop.exec .resume s = some (loop.resume s index claimTurn (some lease)) := by
      rw [WorkerLoop.exec.eq_def, hphase]
    refine ⟨_, hexec, ?_, (resume_spec s index claimTurn (some lease)).1⟩
    show (loop.dispatch _ index lease).phase = _
    rw [WorkerLoop.dispatch, if_pos]
    exact hhalted
  · intro lease hphase
    -- a lease being returned leaves by a retry only, and one is always possible
    refine ⟨fun a t h => returning_left hphase h, fun delayMs => ?_⟩
    have hown : loop.jobs.own lease = .ok () := held_own hs lease (by rw [hphase]; rfl)
    obtain ⟨t, ht⟩ : ∃ t, s.execute (loop.retryCommand lease .temporaryUnavailable 0 false) =
        some t := retry_commits hown (Nat.zero_le maxDelayMs)
    have hexec := (execute_spec ht).1
    refine ⟨{ t with phase := .idle, counts := s.counts.retry (WorkerLoop.retries s lease) false },
      ?_, rfl, ?_⟩
    · rw [WorkerLoop.exec.eq_def, hphase]
      exact congrArg (Option.map _) ht
    intro r hr hfence r' hr' hid
    obtain ⟨hstate, havailable, htoken⟩ := retry_row hexec hr hfence hr' hid
    refine ⟨?_, havailable, htoken⟩
    rw [hstate]
    simp only [Bool.false_eq_true, false_or]

/-! ## Runs on fixed inputs -/

/-- A loop with purges and media, a tick that has claimed the first job it was given, and the
signal to stop. -/
theorem attempts_and_turns_stopped : ∃ (loop : WorkerLoop) (s : Worker) (lease : JobLease),
    loop.Shared ∧ s.halted = true ∧ s.claims.length = 1 ∧
      s.phase = .claimed 0 0 (some lease) ∧
      ∃ t, loop.exec .resume s = some t ∧ t.phase = .returning lease ∧ t.queue = s.queue := by
  let loop : WorkerLoop := { jobs := ⟨.worker, 7⟩, handlers := fun p => p = .purge ∨ p = .media }
  let start : Worker := { queue := ⟨.empty, 0, []⟩ }
  let before : List WorkerAction :=
    [.queue (.enqueue { id := 1, purpose := .purge }), .tick, .ready true,
      .claim [] ⟨fun _ => false, fun _ => none⟩ fun _ => 9, .stop]
  have hstart : loop.system.init start := ⟨⟨rfl, rfl⟩, rfl, rfl, rfl, rfl, rfl, rfl⟩
  have hplay : (System.play loop.exec before start).map
      (fun s => (s.halted, s.claims.length, s.phase)) =
      some (true, 1, .claimed 0 0 (some ⟨1, .purge, none, none, 1, 7, 9, 1, 5⟩)) := by
    decide +kernel
  obtain ⟨s, hs, hseen⟩ := Option.map_eq_some_iff.mp hplay
  obtain ⟨hhalted, hclaims, hphase⟩ := Prod.mk.inj hseen |>.imp id Prod.mk.inj
  have hreach : loop.system.Reachable s :=
    (System.Run.of_play (S := loop.system) (fun _ _ _ h => h) hs).reachable (.init hstart)
  exact ⟨loop, s, _, by decide, hhalted, hclaims, hphase,
    (attempts_and_turns hreach).2.2.2.2.1 hhalted _ _ _ hphase⟩

/-- A durable purge that may be tried once is failed by the retry of its only attempt, though
every claim had its deletion intent before it and no handler reported a terminal failure. -/
theorem durable_purge_failed : ¬∀ (loop : WorkerLoop) (s : Worker), loop.system.Reachable s →
    ∀ r ∈ s.queue.jobs,
      (∀ c ∈ s.executed, ∀ evidence ∈ c.evidence?, durablePurge evidence r = true) →
      (∀ c ∈ s.executed, ∀ self code options lease,
        c = .fenced (.retry self code options) lease → options.terminal = false) →
      r.state ≠ .failed := by
  intro hclaim
  -- one attempt, an error of the handler, and the retry that finds none left
  let loop : WorkerLoop := { jobs := ⟨.worker, 7⟩, handlers := fun p => p = .purge }
  let evidence : PurgeEvidence := ⟨fun _ => false, fun _ => some (true, none)⟩
  let actions : List WorkerAction :=
    [.queue (.enqueue
      { id := 1, purpose := .purge, resourceId := some 3, dedupeKey := some (.purge 3),
        maxAttempts := 1 }),
      .tick, .ready true, .claim [] evidence fun _ => 9, .resume, .handled .error, .retry 0]
  let start : Worker := { queue := ⟨.empty, 0, []⟩ }
  have hstart : loop.system.init start := ⟨⟨rfl, rfl⟩, rfl, rfl, rfl, rfl, rfl, rfl⟩
  let failed : Job :=
    { id := 1, purpose := .purge, roomId := none, resourceId := some 3, state := .failed,
      generation := 1, availableAt := 0, attempts := 1, maxAttempts := 1,
      lastErrorCode := some (.error .temporaryUnavailable), dedupeKey := some (.purge 3) }
  obtain ⟨s, hs, hrows, hexecuted⟩ : ∃ s, System.play loop.exec actions start = some s ∧
      s.queue.jobs.rows = [failed] ∧
      s.executed =
        [.enqueue
          { id := 1, purpose := .purge, resourceId := some 3, dedupeKey := some (.purge 3),
            maxAttempts := 1 },
          loop.claimCommand 0 [] evidence fun _ => 9,
          loop.retryCommand ⟨1, .purge, none, some 3, 1, 7, 9, 1, 1⟩ .temporaryUnavailable 0
            false] := ⟨_, rfl, rfl, rfl⟩
  have hreach : loop.system.Reachable s :=
    (System.Run.of_play (S := loop.system) (fun _ _ _ h => h) hs).reachable (.init hstart)
  refine hclaim loop s hreach failed ?_ ?_ ?_ rfl
  · rw [← Table.mem_rows, hrows]
    exact List.mem_singleton_self _
  · intro c hc seen hseen
    rw [hexecuted] at hc
    simp only [List.mem_cons, List.not_mem_nil, or_false] at hc
    rcases hc with rfl | rfl | rfl
    · cases hseen
    · obtain rfl := Option.some.inj hseen
      rfl
    · cases hseen
  · intro c hc self code options lease hretry
    rw [hexecuted] at hc
    simp only [List.mem_cons, List.not_mem_nil, or_false] at hc
    rcases hc with rfl | rfl | rfl
    · cases hretry
    · cases hretry
    · cases hretry
      rfl

end Rogichat.Queue
