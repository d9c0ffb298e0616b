import Rogichat.Queue.Leases

/-!
# Attempts

Attempts are counted where a job is leased and nowhere else. A job without durable evidence
is leased only below its maximum; a durable one is leased at its maximum too, and its counter
stays there.

* **`claimRows_back`** — what a claim makes of every row: taken rows are leased or exhausted.
* **`exec_back`** — no other command touches an attempt counter.
* **`run_attempts`** — over every run the counter of a job that never was durable is the
  number of its leases.
-/

namespace Rogichat.Queue

open Lib

/-- What no operation takes from a job but its progress. -/
structure Job.Same (r r' : Job) : Prop where
  id : r'.id = r.id
  purpose : r'.purpose = r.purpose
  roomId : r'.roomId = r.roomId
  resourceId : r'.resourceId = r.resourceId
  dedupeKey : r'.dedupeKey = r.dedupeKey
  maxAttempts : r'.maxAttempts = r.maxAttempts

theorem Job.Same.refl (r : Job) : r.Same r := ⟨rfl, rfl, rfl, rfl, rfl, rfl⟩

theorem Job.Same.trans {r s t : Job} (h : r.Same s) (h' : s.Same t) : r.Same t :=
  ⟨h'.id.trans h.id, h'.purpose.trans h.purpose, h'.roomId.trans h.roomId,
    h'.resourceId.trans h.resourceId, h'.dedupeKey.trans h.dedupeKey,
    h'.maxAttempts.trans h.maxAttempts⟩

/-- The evidence reads only what stays the same. -/
theorem Job.Same.durable {r r' : Job} (h : r.Same r') (evidence : PurgeEvidence) :
    durablePurge evidence r' = durablePurge evidence r := by
  simp only [durablePurge, isDurablePurge, h.purpose, h.roomId, h.resourceId, h.dedupeKey]
  rfl

/-- The leases of a job among some. -/
def leasesOf (id : Uuid) (leases : List JobLease) : Nat := leases.countP fun l => l.id = id

/-- The counter of a row that is leased. -/
def nextAttempts (evidence : PurgeEvidence) (row : Job) : Nat :=
  if durablePurge evidence row then max row.attempts (min (row.attempts + 1) row.maxAttempts)
  else row.attempts + 1

/-- The row has no attempt left, and no durable evidence. -/
def Exhausted (evidence : PurgeEvidence) (row : Job) : Prop :=
  row.attempts ≥ row.maxAttempts ∧ durablePurge evidence row = false

/-- What a claim makes of a row it takes. -/
structure Taken (evidence : PurgeEvidence) (leases : List JobLease) (row r' : Job) : Prop where
  raised : r'.generation = row.generation + 1
  exhausted : Exhausted evidence row →
    r'.state = .failed ∧ r'.attempts = row.attempts ∧ leasesOf row.id leases = 0
  leased : ¬Exhausted evidence row →
    r'.state = .running ∧ r'.attempts = nextAttempts evidence row ∧ leasesOf row.id leases = 1

/-- What a claim of `rows` makes of a stored row. -/
structure AfterClaim (evidence : PurgeEvidence) (rows : List Job) (leases : List JobLease)
    (r r' : Job) : Prop where
  same : r.Same r'
  passed : r ∉ rows → r' = r ∧ leasesOf r.id leases = 0
  taken : r ∈ rows → Taken evidence leases r r'

theorem AfterClaim.cases {evidence : PurgeEvidence} {rows : List Job} {leases : List JobLease}
    {r r' : Job} (h : AfterClaim evidence rows leases r r') :
    r' = r ∧ leasesOf r.id leases = 0 ∨ Taken evidence leases r r' := by
  by_cases hin : r ∈ rows
  · exact .inr (h.taken hin)
  · exact .inl (h.passed hin)

theorem leasesOf_eq_zero {id : Uuid} {leases : List JobLease} (h : ∀ l ∈ leases, l.id ≠ id) :
    leasesOf id leases = 0 :=
  List.countP_eq_zero.mpr fun l hl => by simp [h l hl]

theorem leasesOf_cons {id : Uuid} {l : JobLease} {leases : List JobLease} :
    leasesOf id (l :: leases) = leasesOf id leases + if l.id = id then 1 else 0 := by
  simp [leasesOf, List.countP_cons]

/-- A row that is changed before the loop over the others is not seen by it again. -/
theorem changed_back {evidence : PurgeEvidence} {row : Job} {rows : List Job}
    {jobs jobs' : Table Job} {f : Job → Job} {hf : Table.Keeps f} {ls : List JobLease}
    (hrow : row ∈ jobs) (hne : ∀ r ∈ rows, row.id ≠ r.id) (hsame : row.Same (f row))
    (hls : ∀ l ∈ ls, ∃ r ∈ rows, r.id = l.id)
    (hloop : ∀ r' ∈ jobs', ∃ r ∈ jobs.update (fun j => j.id = row.id) f hf, r.Same r' ∧
      (r ∉ rows → r' = r) ∧ (r ∈ rows → Taken evidence ls r r')) :
    ∀ r' ∈ jobs', (∃ r ∈ jobs, r.id ≠ row.id ∧ r.Same r' ∧ (r ∉ row :: rows → r' = r) ∧
      (r ∈ row :: rows → Taken evidence ls r r')) ∨ r' = f row ∧ leasesOf row.id ls = 0 := by
  intro r' hr'
  obtain ⟨r₁, hr₁, hsame₁, hother, htaken⟩ := hloop r' hr'
  obtain ⟨r, hr, rfl⟩ := Table.mem_update.mp hr₁
  by_cases hid : r.id = row.id
  · obtain rfl := eq_of_id hr hrow hid
    rw [if_pos rfl] at hother
    refine .inr ⟨hother ?_, leasesOf_eq_zero ?_⟩
    · intro hin
      exact hne _ hin hsame.id.symm
    · intro l hl heq
      obtain ⟨s, hs, hsid⟩ := hls l hl
      exact hne s hs (heq.symm.trans hsid.symm)
  · rw [if_neg hid] at hsame₁ hother htaken
    refine .inl ⟨r, hr, hid, hsame₁, ?_, ?_⟩
    · exact fun hout => hother fun hin => hout (List.mem_cons_of_mem _ hin)
    · intro hin
      rcases List.mem_cons.mp hin with rfl | hin
      · exact absurd rfl hid
      · exact htaken hin

theorem claimRows_back {self : Jobs} {evidence : PurgeEvidence} {token : Uuid → Uuid}
    {leaseUntil : Time} {rows : List Job} {jobs jobs' : Table Job} {leases : List JobLease}
    (h : claimRows self evidence token leaseUntil rows jobs = .ok (jobs', leases))
    (hmem : ∀ r ∈ rows, r ∈ jobs) (hids : rows.Pairwise fun r s => r.id ≠ s.id) :
    (∀ l ∈ leases, ∃ r ∈ rows, r.id = l.id) ∧
      ∀ r' ∈ jobs', ∃ r ∈ jobs, r.Same r' ∧
        (r ∉ rows → r' = r) ∧ (r ∈ rows → Taken evidence leases r r') := by
  induction rows generalizing jobs leases with
  | nil =>
    simp only [claimRows, pure_ok, Prod.mk.injEq] at h
    obtain ⟨rfl, rfl⟩ := h
    refine ⟨fun l hl => absurd hl List.not_mem_nil, ?_⟩
    intro r hr
    exact ⟨r, hr, .refl r, fun _ => rfl, fun hin => absurd hin List.not_mem_nil⟩
  | cons row rows ih =>
    have hrow := hmem row List.mem_cons_self
    obtain ⟨hne, hids⟩ := List.pairwise_cons.mp hids
    have hrest : ∀ (f : Job → Job) (hf : Table.Keeps f), ∀ r ∈ rows,
        r ∈ jobs.update (fun j => j.id = row.id) f hf := by
      intro f hf r hr
      have hkept := Table.mem_update_of_mem (p := fun j => j.id = row.id) (k := hf)
        (hmem r (List.mem_cons_of_mem _ hr))
      rwa [if_neg (Ne.symm (hne r hr))] at hkept
    rw [claimRows] at h
    simp only [bind_ok, ensure_ok] at h
    obtain ⟨-, -, h⟩ := h
    by_cases hexhausted : row.attempts ≥ row.maxAttempts ∧ durablePurge evidence row = false
    · rw [if_pos hexhausted] at h
      obtain ⟨hls, hloop⟩ := ih h (hrest _ _) hids
      refine ⟨fun l hl => ?_, fun r' hr' => ?_⟩
      · obtain ⟨r, hr, hid⟩ := hls l hl
        exact ⟨r, List.mem_cons_of_mem _ hr, hid⟩
      · rcases changed_back hrow hne ⟨rfl, rfl, rfl, rfl, rfl, rfl⟩ hls hloop r' hr' with
          ⟨r, hr, -, hrest⟩ | ⟨rfl, hnone⟩
        · exact ⟨r, hr, hrest⟩
        · refine ⟨row, hrow, ⟨rfl, rfl, rfl, rfl, rfl, rfl⟩, ?_, ?_⟩
          · exact fun hout => absurd List.mem_cons_self hout
          · exact fun _ => ⟨rfl, fun _ => ⟨rfl, rfl, hnone⟩, fun hnot => absurd hexhausted hnot⟩
    · rw [if_neg hexhausted] at h
      simp only [bind_ok, pure_ok, Prod.mk.injEq] at h
      obtain ⟨⟨jobs₁, leases₁⟩, hrun, rfl, rfl⟩ := h
      obtain ⟨hls, hloop⟩ := ih hrun (hrest _ _) hids
      refine ⟨fun l hl => ?_, fun r' hr' => ?_⟩
      · rcases List.mem_cons.mp hl with rfl | hl
        · exact ⟨row, List.mem_cons_self, rfl⟩
        · obtain ⟨r, hr, hid⟩ := hls l hl
          exact ⟨r, List.mem_cons_of_mem _ hr, hid⟩
      · rcases changed_back hrow hne ⟨rfl, rfl, rfl, rfl, rfl, rfl⟩ hls hloop r' hr' with
          ⟨r, hr, hid, hsame, hother, htaken⟩ | ⟨rfl, hnone⟩
        · refine ⟨r, hr, hsame, hother, fun hin => ?_⟩
          obtain ⟨hraised, hex, hleased⟩ := htaken hin
          have hcount : ∀ l : JobLease, l.id = row.id → leasesOf r.id (l :: leases₁) =
              leasesOf r.id leases₁ := by
            intro l hl
            rw [leasesOf_cons, hl, if_neg (Ne.symm hid)]
            rfl
          refine ⟨hraised, ?_, ?_⟩
          · rw [hcount _ rfl]
            exact hex
          · rw [hcount _ rfl]
            exact hleased
        · refine ⟨row, hrow, ⟨rfl, rfl, rfl, rfl, rfl, rfl⟩, ?_, ?_⟩
          · exact fun hout => absurd List.mem_cons_self hout
          · refine fun _ => ⟨rfl, fun hex => absurd hex hexhausted, fun _ => ⟨rfl, rfl, ?_⟩⟩
            rw [leasesOf_cons, hnone, if_pos rfl]

/-- What a claim makes of every stored row. -/
theorem claim_back {s t : Sys} {self : Jobs} {options : ClaimOptions} {locked : List Uuid}
    {evidence : PurgeEvidence} {token : Uuid → Uuid}
    (h : exec (.claim self options locked evidence token) s = .ok t) :
    ∃ leases, t.issued = leases.reverse ++ s.issued ∧
      (∀ l ∈ leases, ∃ r ∈ s.jobs, r.id = l.id) ∧
      ∀ r' ∈ t.jobs, ∃ r ∈ s.jobs,
        AfterClaim evidence (Command.taken s (.claim self options locked evidence token))
          leases r r' := by
  simp only [exec, bind_ok, pure_ok] at h
  obtain ⟨⟨jobs, leases⟩, hclaim, rfl⟩ := h
  obtain ⟨leaseUntil, -, hloop⟩ := Jobs.claim_spec hclaim
  let c : Command := .claim self options locked evidence token
  have hmem : ∀ r ∈ c.taken s, r ∈ s.jobs := JobsRepository.claim_rows.1
  obtain ⟨hls, hback⟩ := claimRows_back hloop hmem JobsRepository.claim_rows.2
  refine ⟨leases, rfl, ?_, ?_⟩
  · intro l hl
    obtain ⟨r, hr, hid⟩ := hls l hl
    exact ⟨r, hmem r hr, hid⟩
  · intro r' hr'
    obtain ⟨r, hr, hsame, hother, htaken⟩ := hback r' hr'
    refine ⟨r, hr, hsame, fun hout => ⟨hother hout, leasesOf_eq_zero ?_⟩, htaken⟩
    intro l hl heq
    obtain ⟨q, hq, hqid⟩ := hls l hl
    exact hout (eq_of_id (hmem q hq) hr (hqid.trans heq) ▸ hq)

/-! ## The other commands -/

/-- What every command but a claim keeps of a row. -/
def Unclaimed (r r' : Job) : Prop := r.Same r' ∧ r'.attempts = r.attempts

/-- A row that was just enqueued. -/
structure Enqueued (jobs : Table Job) (r : Job) : Prop where
  attempts : r.attempts = 0
  maxAttempts : 1 ≤ r.maxAttempts ∧ r.maxAttempts ≤ 25
  fresh : ∀ q ∈ jobs, q.id ≠ r.id

theorem update_back {jobs : Table Job} {p : Job → Prop} [DecidablePred p] {f : Job → Job}
    {hf : Table.Keeps f} {r' : Job} (hr' : r' ∈ jobs.update p f hf)
    (hkept : ∀ r, Unclaimed r (f r)) : ∃ r ∈ jobs, Unclaimed r r' := by
  obtain ⟨r, hr, rfl⟩ := Table.mem_update.mp hr'
  refine ⟨r, hr, ?_⟩
  by_cases hp : p r
  · rw [if_pos hp]
    exact hkept r
  · rw [if_neg hp]
    exact ⟨.refl r, rfl⟩

theorem fenced_back {op : Fenced} {jobs jobs' : Table Job} {now : Time} {lease : JobLease}
    {b : Bool} (h : op.exec jobs now lease = .ok (jobs', b)) {r' : Job} (hr' : r' ∈ jobs') :
    ∃ r ∈ jobs, Unclaimed r r' := by
  cases op with
  | complete self =>
    simp only [Fenced.exec, Jobs.complete, JobsCoreService.complete, bind_ok, pure_ok,
      Prod.mk.injEq] at h
    obtain ⟨-, -, -, -, rfl, -⟩ := h
    exact update_back hr' fun r => ⟨⟨rfl, rfl, rfl, rfl, rfl, rfl⟩, rfl⟩
  | completeInDomain =>
    simp only [Fenced.exec, JobsCoreService.complete, bind_ok, pure_ok, Prod.mk.injEq] at h
    obtain ⟨-, -, rfl, -⟩ := h
    exact update_back hr' fun r => ⟨⟨rfl, rfl, rfl, rfl, rfl, rfl⟩, rfl⟩
  | renew self leaseMs =>
    simp only [Fenced.exec, Jobs.renew, bind_ok, pure_ok, Prod.mk.injEq] at h
    obtain ⟨-, -, -, -, rfl, -⟩ := h
    exact update_back hr' fun r => ⟨⟨rfl, rfl, rfl, rfl, rfl, rfl⟩, rfl⟩
  | retry self code options =>
    simp only [Fenced.exec, Jobs.retry, bind_ok, pure_ok, Prod.mk.injEq] at h
    obtain ⟨-, -, -, -, rfl, -⟩ := h
    exact update_back hr' fun r => ⟨⟨rfl, rfl, rfl, rfl, rfl, rfl⟩, rfl⟩
  | continueMedia progress =>
    simp only [Fenced.exec, JobsCoreService.continueMedia, bind_ok, pure_ok, Prod.mk.injEq] at h
    obtain ⟨-, -, -, -, rfl, -⟩ := h
    exact update_back hr' fun r => ⟨⟨rfl, rfl, rfl, rfl, rfl, rfl⟩, rfl⟩
  | continuePurge outcome =>
    simp only [Fenced.exec, JobsCoreService.continuePurge, bind_ok, pure_ok, Prod.mk.injEq] at h
    obtain ⟨-, -, -, -, -, -, -, -, -, -, rfl, -⟩ := h
    exact update_back hr' fun r => ⟨⟨rfl, rfl, rfl, rfl, rfl, rfl⟩, rfl⟩

theorem recover_back {jobs jobs' : Table Job} {now : Time} {requestId : Uuid}
    {roomId : Option Uuid} (h : PurgeWorkerRepository.recover jobs now requestId roomId = .ok jobs')
    {r' : Job} (hr' : r' ∈ jobs') : ∃ r ∈ jobs, Unclaimed r r' := by
  unfold PurgeWorkerRepository.recover at h
  split at h
  · simp only [pure_ok] at h
    subst h
    exact ⟨r', hr', .refl r', rfl⟩
  · simp only [bind_ok, ensure_ok] at h
    obtain ⟨-, -, h⟩ := h
    split at h
    · simp only [pure_ok] at h
      subst h
      exact ⟨r', hr', .refl r', rfl⟩
    · simp only [bind_ok, pure_ok] at h
      obtain ⟨-, -, rfl⟩ := h
      exact update_back hr' fun r => ⟨⟨rfl, rfl, rfl, rfl, rfl, rfl⟩, rfl⟩

theorem enqueue_back {jobs jobs' : Table Job} {now : Time} {input : EnqueueJob} {id : Uuid}
    (h : JobsCoreService.enqueue jobs now input = .ok (jobs', id)) {r' : Job} (hr' : r' ∈ jobs') :
    (∃ r ∈ jobs, Unclaimed r r') ∨ Enqueued jobs r' := by
  simp only [JobsCoreService.enqueue, bind_ok, integer, ensure_ok] at h
  obtain ⟨-, hmax, -, -, h⟩ := h
  have hnew : ∀ {row : Job} {jobs₁ : Table Job}, jobs.insert row = some jobs₁ → r' ∈ jobs₁ →
      row.attempts = 0 → row.maxAttempts = input.maxAttempts →
      (∃ r ∈ jobs, Unclaimed r r') ∨ Enqueued jobs r' := by
    intro row jobs₁ hinsert hr₁ hattempts hrowmax
    rcases (Table.mem_insert hinsert).mp hr₁ with hr | rfl
    · exact .inl ⟨r', hr, .refl r', rfl⟩
    · refine .inr ⟨hattempts, hrowmax ▸ hmax, ?_⟩
      intro q hq hid
      refine Table.fresh_of_insert hinsert hq ⟨.inl q.id, List.mem_cons_self, ?_⟩
      rw [hid]
      exact List.mem_cons_self
  split at h
  · simp only [bind_ok, require_ok, pure_ok, Prod.mk.injEq] at h
    obtain ⟨jobs₁, hinsert, rfl, -⟩ := h
    exact hnew hinsert hr' rfl rfl
  · simp only [bind_ok, require_ok, ensure_ok, pure_ok, Prod.mk.injEq] at h
    obtain ⟨-, -, -, -, rfl, -⟩ := h
    generalize hinsert : jobs.insert _ = inserted at hr'
    cases inserted with
    | none => exact .inl ⟨r', hr', .refl r', rfl⟩
    | some jobs₁ => exact hnew hinsert hr' rfl rfl

/-- The command is a claim with some evidence. -/
def Command.evidence? : Command → Option PurgeEvidence
  | .claim _ _ _ evidence _ => some evidence
  | _ => none

/-- What a command makes of the rows: a claim leases, and no other command touches a counter or
issues a lease. -/
theorem exec_back {c : Command} {s t : Sys} (h : exec c s = .ok t) :
    (∃ evidence leases, c.evidence? = some evidence ∧ t.issued = leases.reverse ++ s.issued ∧
      (∀ l ∈ leases, ∃ r ∈ s.jobs, r.id = l.id) ∧
      ∀ r' ∈ t.jobs, ∃ r ∈ s.jobs, AfterClaim evidence (c.taken s) leases r r') ∨
    (c.evidence? = none ∧ t.issued = s.issued ∧
      ∀ r' ∈ t.jobs, (∃ r ∈ s.jobs, Unclaimed r r') ∨ Enqueued s.jobs r') := by
  cases c with
  | claim self options locked evidence token =>
    obtain ⟨leases, hissued, hls, hback⟩ := claim_back h
    exact .inl ⟨evidence, leases, rfl, hissued, hls, hback⟩
  | tick elapsed =>
    simp only [exec, pure_ok] at h
    subst h
    exact .inr ⟨rfl, rfl, fun r' hr' => .inl ⟨r', hr', .refl r', rfl⟩⟩
  | enqueue input =>
    simp only [exec, bind_ok, pure_ok] at h
    obtain ⟨⟨jobs, id⟩, henqueue, rfl⟩ := h
    exact .inr ⟨rfl, rfl, fun r' hr' => enqueue_back henqueue hr'⟩
  | fenced op lease =>
    simp only [exec, bind_ok, pure_ok] at h
    obtain ⟨⟨jobs, b⟩, hop, rfl⟩ := h
    exact .inr ⟨rfl, rfl, fun r' hr' => .inl (fenced_back hop hr')⟩
  | recoverMedia assetId =>
    simp only [exec, pure_ok] at h
    subst h
    refine .inr ⟨rfl, rfl, fun r' hr' => .inl ?_⟩
    change r' ∈ JobsCoreService.recoverMedia s.jobs s.now assetId at hr'
    unfold JobsCoreService.recoverMedia at hr'
    exact update_back hr' fun r => ⟨⟨rfl, rfl, rfl, rfl, rfl, rfl⟩, rfl⟩
  | recover requestId roomId =>
    simp only [exec, bind_ok, pure_ok] at h
    obtain ⟨jobs, hrecover, rfl⟩ := h
    exact .inr ⟨rfl, rfl, fun r' hr' => .inl (recover_back hrecover hr')⟩

/-! ## Runs -/

/-- No claim of the run has durable evidence for the row. -/
def NeverDurable (cs : List Command) (r : Job) : Prop :=
  ∀ c ∈ cs, ∀ evidence ∈ c.evidence?, durablePurge evidence r = false

/-- The counter of a row in the state a run from the empty queue ends in. -/
structure Counted (cs : List Command) (issued : List JobLease) (r : Job) : Prop where
  bounded : r.attempts ≤ r.maxAttempts
  maxAttempts : 1 ≤ r.maxAttempts ∧ r.maxAttempts ≤ 25
  leases : NeverDurable cs r → leasesOf r.id issued = r.attempts

theorem nextAttempts_bounded {evidence : PurgeEvidence} {r : Job} (h : r.attempts ≤ r.maxAttempts)
    (hnot : ¬Exhausted evidence r) : r.attempts ≤ nextAttempts evidence r ∧
      nextAttempts evidence r ≤ r.maxAttempts := by
  unfold nextAttempts
  by_cases hdurable : durablePurge evidence r = true
  · rw [if_pos hdurable]
    omega
  · rw [if_neg hdurable]
    have hless : ¬r.attempts ≥ r.maxAttempts :=
      fun hge => hnot ⟨hge, Bool.eq_false_iff.mpr hdurable⟩
    omega

theorem leasesOf_append {id : Uuid} {leases issued : List JobLease} :
    leasesOf id (leases.reverse ++ issued) = leasesOf id leases + leasesOf id issued := by
  simp [leasesOf]

/-- A claim keeps the count of a row. -/
theorem AfterClaim.counted {cs : List Command} {c : Command} {evidence : PurgeEvidence}
    {rows : List Job} {leases issued : List JobLease} {r r' : Job}
    (h : AfterClaim evidence rows leases r r') (hc : c.evidence? = some evidence)
    (hr : Counted cs issued r) :
    Counted (cs ++ [c]) (leases.reverse ++ issued) r' := by
  have hsame := h.same
  have hordinary : NeverDurable (cs ++ [c]) r' → durablePurge evidence r = false ∧
      NeverDurable cs r := by
    intro hnever
    refine ⟨?_, fun d hd e he => ?_⟩
    · rw [← hsame.durable]
      exact hnever c (List.mem_append_right _ (List.mem_singleton.mpr rfl)) evidence hc
    · rw [← hsame.durable]
      exact hnever d (List.mem_append_left _ hd) e he
  rcases h.cases with ⟨rfl, hnone⟩ | ⟨-, hexhausted, hleased⟩
  · refine ⟨hr.bounded, hr.maxAttempts, fun hnever => ?_⟩
    rw [leasesOf_append, hnone, Nat.zero_add]
    exact hr.leases (hordinary hnever).2
  · by_cases hex : Exhausted evidence r
    · obtain ⟨-, hattempts, hnone⟩ := hexhausted hex
      refine ⟨?_, ?_, fun hnever => ?_⟩
      · rw [hattempts, hsame.maxAttempts]
        exact hr.bounded
      · rw [hsame.maxAttempts]
        exact hr.maxAttempts
      · rw [leasesOf_append, hsame.id, hnone, Nat.zero_add, hattempts]
        exact hr.leases (hordinary hnever).2
    · obtain ⟨-, hattempts, hone⟩ := hleased hex
      refine ⟨?_, ?_, fun hnever => ?_⟩
      · rw [hattempts, hsame.maxAttempts]
        exact (nextAttempts_bounded hr.bounded hex).2
      · rw [hsame.maxAttempts]
        exact hr.maxAttempts
      · obtain ⟨hdurable, hbefore⟩ := hordinary hnever
        rw [leasesOf_append, hsame.id, hone, hr.leases hbefore, hattempts, nextAttempts, hdurable]
        exact Nat.add_comm _ _

/-- Over every run from the empty queue the counters are bounded, and that of a job that never
was durable is the number of its leases. -/
theorem run_attempts {s t : Sys} {cs : List Command} (hinit : system.init s)
    (h : system.Run s cs t) :
    (∀ r ∈ t.jobs, Counted cs t.issued r) ∧ ∀ l ∈ t.issued, ∃ r ∈ t.jobs, r.id = l.id := by
  obtain ⟨hjobs, hissued⟩ := hinit
  refine System.Run.snoc_induct (P := fun cs t => (∀ r ∈ t.jobs, Counted cs t.issued r) ∧
    ∀ l ∈ t.issued, ∃ r ∈ t.jobs, r.id = l.id) ?_ ?_ h
  · constructor
    · intro r hr
      rw [hjobs] at hr
      exact absurd hr (Table.not_mem_empty r)
    · intro l hl
      rw [hissued] at hl
      exact absurd hl List.not_mem_nil
  · rintro cs c s t - ⟨hcounted, hids⟩ hstep
    have hforward : ∀ l ∈ s.issued, ∃ r ∈ t.jobs, r.id = l.id := by
      intro l hl
      obtain ⟨r, hr, hid⟩ := hids l hl
      obtain ⟨r', hr', hfollows, -⟩ := exec_forward hstep hr
      exact ⟨r', hr', hfollows.id.trans hid⟩
    -- a claim raises what it counts and issues as much; no other step does either
    rcases exec_back hstep with ⟨evidence, leases, hc, hnew, hls, hback⟩ | ⟨hc, hnew, hback⟩
    · rw [hnew]
      constructor
      · intro r' hr'
        obtain ⟨r, hr, hafter⟩ := hback r' hr'
        exact hafter.counted hc (hcounted r hr)
      · intro l hl
        rcases List.mem_append.mp hl with hl | hl
        · obtain ⟨r, hr, hid⟩ := hls l (List.mem_reverse.mp hl)
          obtain ⟨r', hr', hfollows, -⟩ := exec_forward hstep hr
          exact ⟨r', hr', hfollows.id.trans hid⟩
        · exact hforward l hl
    · rw [hnew]
      refine ⟨fun r' hr' => ?_, hforward⟩
      rcases hback r' hr' with ⟨r, hr, hsame, hattempts⟩ | hfresh
      · obtain ⟨hbounded, hmax, hleases⟩ := hcounted r hr
        refine ⟨?_, ?_, fun hnever => ?_⟩
        · rw [hattempts, hsame.maxAttempts]
          exact hbounded
        · rw [hsame.maxAttempts]
          exact hmax
        · rw [hsame.id, hattempts]
          refine hleases fun d hd e he => ?_
          rw [← hsame.durable]
          exact hnever d (List.mem_append_left _ hd) e he
      · -- a job just enqueued has no lease yet, for its id is new
        refine ⟨?_, hfresh.maxAttempts, fun _ => ?_⟩
        · rw [hfresh.attempts]
          exact Nat.zero_le _
        · rw [hfresh.attempts]
          refine leasesOf_eq_zero fun l hl heq => ?_
          obtain ⟨r, hr, hid⟩ := hids l hl
          exact hfresh.fresh r hr (hid.trans heq)

/-- No run lowers an attempt counter. -/
theorem run_forward_attempts {s t : Sys} {cs : List Command} (hs : system.Reachable s)
    (h : system.Run s cs t) {r : Job} (hr : r ∈ s.jobs) :
    ∃ r' ∈ t.jobs, r.Same r' ∧ r.attempts ≤ r'.attempts := by
  have hbounded : ∀ u, system.Reachable u → ∀ q ∈ u.jobs, q.attempts ≤ q.maxAttempts := by
    intro u hu
    refine System.Reachable.induct (P := fun u => ∀ q ∈ u.jobs, q.attempts ≤ q.maxAttempts)
      ⟨?_, ?_⟩ hu
    · rintro u ⟨hjobs, -⟩ q hq
      rw [hjobs] at hq
      exact absurd hq (Table.not_mem_empty q)
    · rintro u v c - hu hstep q hq
      rcases exec_back hstep with ⟨evidence, leases, -, -, -, hback⟩ | ⟨-, -, hback⟩
      · obtain ⟨p, hp, hafter⟩ := hback q hq
        rcases hafter.cases with ⟨rfl, -⟩ | ⟨-, hexhausted, hleased⟩
        · exact hu q hp
        · rw [hafter.same.maxAttempts]
          by_cases hex : Exhausted evidence p
          · rw [(hexhausted hex).2.1]
            exact hu p hp
          · rw [(hleased hex).2.1]
            exact (nextAttempts_bounded (hu p hp) hex).2
      · rcases hback q hq with ⟨p, hp, hsame, hattempts⟩ | hfresh
        · rw [hattempts, hsame.maxAttempts]
          exact hu p hp
        · rw [hfresh.attempts]
          exact Nat.zero_le _
  induction h generalizing r with
  | nil => exact ⟨r, hr, .refl r, Nat.le_refl _⟩
  | @cons s u t c cs hstep _ ih =>
    obtain ⟨r₁, hr₁, hfollows, -⟩ := exec_forward hstep hr
    have hone : r.Same r₁ ∧ r.attempts ≤ r₁.attempts := by
      rcases exec_back hstep with ⟨evidence, leases, -, -, -, hback⟩ | ⟨-, -, hback⟩
      · obtain ⟨q, hq, hafter⟩ := hback r₁ hr₁
        obtain rfl := eq_of_id hq hr (hafter.same.id.symm.trans hfollows.id)
        refine ⟨hafter.same, ?_⟩
        rcases hafter.cases with ⟨rfl, -⟩ | ⟨-, hexhausted, hleased⟩
        · exact Nat.le_refl _
        · by_cases hex : Exhausted evidence q
          · exact (hexhausted hex).2.1.ge
          · rw [(hleased hex).2.1]
            exact (nextAttempts_bounded (hbounded s hs q hr) hex).1
      · rcases hback r₁ hr₁ with ⟨q, hq, hsame, hattempts⟩ | hfresh
        · obtain rfl := eq_of_id hq hr (hsame.id.symm.trans hfollows.id)
          exact ⟨hsame, hattempts.ge⟩
        · exact absurd hfollows.id.symm (hfresh.fresh r hr)
    obtain ⟨r', hr', hsame, hle⟩ := ih (.step hs hstep) hr₁
    exact ⟨r', hr', hone.1.trans hsame, Nat.le_trans hone.2 hle⟩

end Rogichat.Queue
