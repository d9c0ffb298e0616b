import Rogichat.MessageActions.System

/-!
# What every run keeps

* **`Journaled`** — every record was begun, under an id of its own, and is kept.
* **`State.desk`**, **`State.unblockDesk`** — the permits of the two owners.
* **`ActorBlocksState.Hears`** — the pages on the screen are the ones heard since the list was
  asked for.
* **`Unseen`** — a block that counts as undone was missing from a complete list asked for later.
-/

namespace Rogichat.MessageActions

open Lib

/-! ## The journal of actions -/

/-- Every record was begun, under an id of its own, and is kept. -/
structure Journaled (s : State) : Prop where
  apart : s.begun.Pairwise fun e e' => e.2.id ≠ e'.2.id
  before : ∀ e ∈ s.begun, e.1 < s.now
  stored : ∀ e ∈ s.begun, ∃ r ∈ s.actions, e.2.Kept r
  known : ∀ r ∈ s.actions, ∃ e ∈ s.begun, e.2.Kept r

/-- An action is begun once. -/
theorem Journaled.eq_of_id {s : State} (h : Journaled s) {e e' : Nat × ActionRecord}
    (he : e ∈ s.begun) (he' : e' ∈ s.begun) (hid : e.2.id = e'.2.id) : e = e' := by
  by_contra hne
  have : Std.Symm fun e e' : Nat × ActionRecord => e.2.id ≠ e'.2.id := ⟨fun _ _ hab => hab.symm⟩
  exact h.apart.forall he he' hne hid

/-- A list that is shown settles records only. -/
theorem Shows.carried {s t : State} {token : BlockPageToken} {page : BlockPage}
    (h : Shows s t token page) : Table.Carried ActionRecord.Kept s.actions t.actions := by
  rw [h.actions]
  exact .putAll_map (ActorBlocksState.keeps_observeBlock _) ActionRecord.Kept.refl
    fun r _ _ => ActorBlocksState.observeBlock_kept _ r

/-- A begun record is new to the journal. -/
theorem Journaled.fresh {s t : State} (hs : Journaled s) {token : ActionViewToken}
    {action : MessageAction} {id : Uuid} {permit : ActionPermit}
    (h : Adds s t token action id permit) : ∀ r ∈ s.actions, ¬Row.Clash r permit.record := by
  intro r hr hclash
  obtain ⟨e, he, hkept⟩ := hs.known r hr
  refine h.fresh e he ?_
  rw [← hkept.id, ActionRecord.clash_iff.mp hclash, h.begins.recordId]

/-- The journal keeps what was begun when records are only settled. -/
theorem Journaled.carry {s t : State} (hs : Journaled s) (hnow : t.now = s.now + 1)
    (hbegun : t.begun = s.begun) (h : Table.Carried ActionRecord.Kept s.actions t.actions) :
    Journaled t := by
  constructor
  · exact hbegun ▸ hs.apart
  · rw [hbegun, hnow]
    intro e he
    have := hs.before e he
    omega
  · rw [hbegun]
    intro e he
    obtain ⟨r, hr, hkept⟩ := hs.stored e he
    obtain ⟨r', hr', hkept'⟩ := h.forward r hr
    exact ⟨r', hr', hkept.trans hkept'⟩
  · rw [hbegun]
    intro r' hr'
    obtain ⟨r, hr, hkept'⟩ := h.back r' hr'
    obtain ⟨e, he, hkept⟩ := hs.known r hr
    exact ⟨e, he, hkept.trans hkept'⟩

/-- A record that is begun is journaled. -/
theorem Journaled.add {s t : State} (hs : Journaled s) (hnow : t.now = s.now + 1)
    {token : ActionViewToken} {action : MessageAction} {id : Uuid} {permit : ActionPermit}
    (h : Adds s t token action id permit) : Journaled t := by
  have hmem : ∀ r, r ∈ t.actions ↔ r ∈ s.actions ∨ r = permit.record := by
    intro r
    rw [h.begins.journal]
    exact Table.mem_put_fresh (hs.fresh h)
  constructor
  · rw [h.begun]
    refine List.pairwise_cons.mpr ⟨?_, hs.apart⟩
    intro e he hid
    exact h.fresh e he (hid.symm.trans h.begins.recordId)
  · rw [h.begun, hnow]
    intro e he
    rcases List.mem_cons.mp he with rfl | he
    · show s.now < s.now + 1
      omega
    · have := hs.before e he
      omega
  · rw [h.begun]
    intro e he
    rcases List.mem_cons.mp he with rfl | he
    · exact ⟨permit.record, (hmem _).mpr (.inr rfl), .refl _⟩
    · obtain ⟨r, hr, hkept⟩ := hs.stored e he
      exact ⟨r, (hmem r).mpr (.inl hr), hkept⟩
  · rw [h.begun]
    intro r hr
    rcases (hmem r).mp hr with hr | rfl
    · obtain ⟨e, he, hkept⟩ := hs.known r hr
      exact ⟨e, List.mem_cons_of_mem _ he, hkept⟩
    · exact ⟨_, List.mem_cons_self, .refl _⟩

/-- Whatever was begun is in the journal, in every run. -/
theorem reachable_journaled {s : State} (h : actionSystem.Reachable s) : Journaled s := by
  refine h.induct (P := Journaled) ⟨?_, ?_⟩
  · intro s hs
    subst hs
    constructor
    · exact .nil
    · exact fun e he => absurd he List.not_mem_nil
    · exact fun e he => absurd he List.not_mem_nil
    · exact fun r hr => absurd hr (Table.not_mem_empty r)
  · intro s t c _ hs hstep
    have hnow := step_now hstep
    rcases step_actions hstep with h | ⟨token, action, emoji, reason, id, permit, -, h⟩ |
      ⟨token, page, -, h⟩
    · exact hs.carry hnow h.begun (h.actions.imp fun _ _ hsettled => hsettled.toKept)
    · exact hs.add hnow h
    · exact hs.carry hnow h.begun h.carried

/-- A record has a later version in every later state. -/
theorem run_kept {s t : State} {cs : List Command} (hrun : actionSystem.Run s cs t)
    (hs : actionSystem.Reachable s) {r : ActionRecord} (hr : r ∈ s.actions) :
    ∃ r' ∈ t.actions, r.Kept r' := by
  refine hrun.keeps (P := fun t => ∃ r' ∈ t.actions, r.Kept r') hs ⟨r, hr, .refl r⟩ ?_
  intro t u c _ ht hkept hstep
  obtain ⟨r', hr', hkept⟩ := hkept
  rcases step_actions hstep with h | ⟨token, action, emoji, reason, id, permit, -, h⟩ |
    ⟨token, page, -, h⟩
  · obtain ⟨r'', hr'', hsettled⟩ := h.actions.forward r' hr'
    exact ⟨r'', hr'', hkept.trans hsettled.toKept⟩
  · refine ⟨r', ?_, hkept⟩
    rw [h.begins.journal]
    exact (Table.mem_put_fresh ((reachable_journaled ht).fresh h)).mpr (.inl hr')
  · obtain ⟨r'', hr'', hkept'⟩ := h.carried.forward r' hr'
    exact ⟨r'', hr'', hkept.trans hkept'⟩

/-! ## The journal of unblocks -/

/-- Every unblock was asked for. -/
def UnblocksKnown (s : State) : Prop :=
  ∀ r ∈ s.unblocks, ∃ e ∈ s.unblocked, e.2.id = r.id

/-- What a command does to the unblocks. -/
theorem step_unblocks {s t : State} {c : Command} (h : actionSystem.step c s t) :
    (Table.Carried UnblockRecord.Kept s.unblocks t.unblocks ∧ t.unblocked = s.unblocked) ∨
      ∃ permit : UnblockPermit, (∀ e ∈ s.unblocked, e.2.id ≠ permit.record.id) ∧
        t.unblocks = s.unblocks.put permit.record ∧
        t.unblocked = (s.now, permit.record) :: s.unblocked := by
  have hsame : t.unblocks = s.unblocks → t.unblocked = s.unblocked →
      Table.Carried UnblockRecord.Kept s.unblocks t.unblocks ∧ t.unblocked = s.unblocked :=
    fun hu hb => ⟨hu ▸ .refl UnblockRecord.Kept.refl s.unblocks, hb⟩
  obtain ⟨hfresh, u, hrun, rfl⟩ := step_ok h
  cases c with
  | unblock token actorId id =>
    simp only [run, bind_ok, pure_ok] at hrun
    obtain ⟨⟨unblocks, blocks, permit⟩, hunblock, rfl⟩ := hrun
    obtain ⟨-, -, rfl, -, rfl, -⟩ := ActorBlocksState.unblock_ok hunblock
    exact .inr ⟨permit, hfresh, rfl, rfl⟩
  | accept token page =>
    simp only [run, bind_ok, pure_ok] at hrun
    obtain ⟨⟨unblocks, actions, blocks, reset⟩, haccept, rfl⟩ := hrun
    rcases ActorBlocksState.accept_cases haccept with ⟨-, rfl, -⟩ | ⟨-, hcases⟩
    · exact .inl (hsame rfl rfl)
    cases hcases with
    | drifted => exact .inl (hsame rfl rfl)
    | more => exact .inl (hsame rfl rfl)
    | last =>
      refine .inl ⟨?_, rfl⟩
      exact .putAll_map (ActorBlocksState.keeps_observe _) UnblockRecord.Kept.refl
        fun r _ _ => ActorBlocksState.observe_kept _ r
  | finishUnblock id outcome =>
    simp only [run, bind_ok, pure_ok] at hrun
    obtain ⟨permit, -, rfl⟩ := hrun
    exact .inl ⟨ActorBlocksState.finish_carried _ _ permit outcome, rfl⟩
  | select _ | deleted _ _ | reportStatus _ _ _ | publicationStatus _ _ _ | selectBlocks _
  | fail _ | restart =>
    cases hrun
    exact .inl (hsame rfl rfl)
  | begin _ _ _ _ _ | finish _ _ | refresh | more | dispatchEnded _ _ =>
    simp only [run, bind_ok, pure_ok] at hrun
    obtain ⟨_, _, rfl⟩ := hrun
    exact .inl (hsame rfl rfl)
  | claim _ | claimUnblock _ =>
    simp only [run, bind_ok, pure_ok] at hrun
    obtain ⟨_, _, _, _, rfl⟩ := hrun
    exact .inl (hsame rfl rfl)

/-- A new id meets no unblock record. -/
theorem UnblocksKnown.fresh {s : State} (hs : UnblocksKnown s) {r : UnblockRecord}
    (hfresh : ∀ e ∈ s.unblocked, e.2.id ≠ r.id) : ∀ q ∈ s.unblocks, ¬Row.Clash q r := by
  intro q hq hclash
  obtain ⟨e, he, hid⟩ := hs q hq
  exact hfresh e he (hid.trans (UnblockRecord.clash_iff.mp hclash))

/-- Every unblock record was begun, in every run. -/
theorem reachable_unblocksKnown {s : State} (h : actionSystem.Reachable s) : UnblocksKnown s := by
  refine h.induct (P := UnblocksKnown) ⟨?_, ?_⟩
  · intro s hs
    subst hs
    exact fun r hr => absurd hr (Table.not_mem_empty r)
  · intro s t c _ hs hstep r' hr'
    rcases step_unblocks hstep with ⟨hcarried, hunblocked⟩ | ⟨permit, hfresh, hput, hunblocked⟩
    · obtain ⟨r, hr, hkept⟩ := hcarried.back r' hr'
      rw [hunblocked, hkept.id]
      exact hs r hr
    · rw [hput, Table.mem_put_fresh (hs.fresh hfresh)] at hr'
      rw [hunblocked]
      rcases hr' with hr' | rfl
      · obtain ⟨e, he, hid⟩ := hs r' hr'
        exact ⟨e, List.mem_cons_of_mem _ he, hid⟩
      · exact ⟨_, List.mem_cons_self, rfl⟩

/-- An unblock has a later version in every later state. -/
theorem run_unblockKept {s t : State} {cs : List Command} (hrun : actionSystem.Run s cs t)
    (hs : actionSystem.Reachable s) {r : UnblockRecord} (hr : r ∈ s.unblocks) :
    ∃ r' ∈ t.unblocks, r'.id = r.id ∧ (r.outcome ≠ .unknown → r'.outcome ≠ .unknown) := by
  refine hrun.keeps (P := fun t => ∃ r' ∈ t.unblocks, r'.id = r.id ∧
    (r.outcome ≠ .unknown → r'.outcome ≠ .unknown)) hs ⟨r, hr, rfl, fun h => h⟩ ?_
  intro t u c _ ht hkept hstep
  obtain ⟨r', hr', hid, hresolved⟩ := hkept
  rcases step_unblocks hstep with ⟨hcarried, -⟩ | ⟨permit, hfresh, hput, -⟩
  · obtain ⟨r'', hr'', hkept⟩ := hcarried.forward r' hr'
    exact ⟨r'', hr'', hkept.id.trans hid, fun h => hkept.resolved (hresolved h)⟩
  · refine ⟨r', ?_, hid, hresolved⟩
    rw [hput, Table.mem_put_fresh ((reachable_unblocksKnown ht).fresh hfresh)]
    exact .inl hr'

/-! ## Permits -/

/-- The permits of actions. -/
def State.desk (s : State) : Desk where
  held := {t | ∃ p ∈ s.permits, t = p.ticket}
  generation := s.owner.generation
  since := s.selectedAt
  issued := s.begun.map fun e => (e.1, e.2.id)
  claims := s.claims
  now := s.now

/-- The permits of unblocks. -/
def State.unblockDesk (s : State) : Desk where
  held := {t | ∃ p ∈ s.unblockPermits, t = p.ticket}
  generation := s.blocks.generation
  since := s.viewedAt
  issued := s.unblocked.map fun e => (e.1, e.2.id)
  claims := s.unblockClaims
  now := s.now

theorem ActionPermit.clash_iff {p q : ActionPermit} : Row.Clash p q ↔ p.record.id = q.record.id := by
  constructor
  · intro h
    obtain ⟨k, hk, hk'⟩ := h
    exact (List.mem_singleton.mp hk).symm.trans (List.mem_singleton.mp hk')
  · intro h
    exact ⟨p.record.id, List.mem_singleton.mpr rfl, List.mem_singleton.mpr h⟩

theorem UnblockPermit.clash_iff {p q : UnblockPermit} :
    Row.Clash p q ↔ p.record.id = q.record.id := by
  constructor
  · intro h
    obtain ⟨k, hk, hk'⟩ := h
    exact (List.mem_singleton.mp hk).symm.trans (List.mem_singleton.mp hk')
  · intro h
    exact ⟨p.record.id, List.mem_singleton.mpr rfl, List.mem_singleton.mpr h⟩

/-- A permit is found by its record's id. -/
theorem State.permit_ok {s : State} {id : Uuid} {p : ActionPermit} (h : s.permit id = .ok p) :
    p ∈ s.permits ∧ p.record.id = id := by
  rw [State.permit, require_ok] at h
  exact ⟨Table.mem_of_find? h,
    Table.holds_of_find? (p := fun p : ActionPermit => p.record.id = id) h⟩

theorem State.unblockPermit_ok {s : State} {id : Uuid} {p : UnblockPermit}
    (h : s.unblockPermit id = .ok p) : p ∈ s.unblockPermits ∧ p.record.id = id := by
  rw [State.unblockPermit, require_ok] at h
  exact ⟨Table.mem_of_find? h,
    Table.holds_of_find? (p := fun p : UnblockPermit => p.record.id = id) h⟩

/-- A claimed permit takes the place of itself. -/
theorem ActionPermit.mem_put {permits : Table ActionPermit} {p q : ActionPermit}
    (h : q ∈ permits.put p) : q ∈ permits ∧ q.record.id ≠ p.record.id ∨ q = p := by
  rcases Table.mem_put.mp h with ⟨hq, hclash⟩ | rfl
  · exact .inl ⟨hq, fun hid => hclash (clash_iff.mpr hid)⟩
  · exact .inr rfl

/-- A put replaces the permit of its record. -/
theorem UnblockPermit.mem_put {permits : Table UnblockPermit} {p q : UnblockPermit}
    (h : q ∈ permits.put p) : q ∈ permits ∧ q.record.id ≠ p.record.id ∨ q = p := by
  rcases Table.mem_put.mp h with ⟨hq, hclash⟩ | rfl
  · exact .inl ⟨hq, fun hid => hclash (clash_iff.mpr hid)⟩
  · exact .inr rfl

/-- A step of the actions' desk in which no permit changes. -/
theorem State.desk_keep {s t : State} (hpermits : t.permits = s.permits)
    (hbegun : t.begun = s.begun) (hclaims : t.claims = s.claims)
    (hfence : t.owner.generation = s.owner.generation ∧ t.selectedAt = s.selectedAt ∨
      s.owner.generation < t.owner.generation ∧ t.selectedAt ≤ s.now) :
    s.desk.Step t.desk := by
  refine .keep ?_ ?_ hclaims hfence
  · show {x | ∃ p ∈ t.permits, x = p.ticket} ⊆ {x | ∃ p ∈ s.permits, x = p.ticket}
    rw [hpermits]
  · show t.begun.map _ = s.begun.map _
    rw [hbegun]

/-- What a step does with the permits. -/
theorem step_desk {s t : State} {c : Command} (h : actionSystem.step c s t) :
    s.desk.Step t.desk := by
  obtain ⟨hfresh, u, hrun, rfl⟩ := step_ok h
  cases c with
  | select value =>
    cases hrun
    exact State.desk_keep rfl rfl rfl (.inr ⟨Nat.lt_succ_self _, le_refl _⟩)
  | begin token action emoji reason id =>
    simp only [run, bind_ok, pure_ok] at hrun
    obtain ⟨⟨actions, owner, permit⟩, hbegin, rfl⟩ := hrun
    have hbegins := MessageActionState.begin_ok hbegin
    have hgeneration : owner.generation = s.owner.generation := by rw [hbegins.owner]
    refine .issue id ?_ ?_ ?_ rfl (le_of_eq hgeneration.symm) rfl
    · intro e he
      obtain ⟨e', he', rfl⟩ := List.mem_map.mp he
      exact hfresh e' he'
    · intro x hx
      obtain ⟨p, hp, rfl⟩ := hx
      rcases ActionPermit.mem_put hp with ⟨hp, -⟩ | rfl
      · exact .inl ⟨p, hp, rfl⟩
      · refine .inr ?_
        show (⟨p.record.id, p.generation, p.consumed⟩ : Ticket) = ⟨id, owner.generation, false⟩
        rw [hbegins.recordId, hbegins.generation, hbegins.unconsumed, hgeneration]
    · show (s.now, permit.record.id) :: s.begun.map _ = (s.now, id) :: s.begun.map _
      rw [hbegins.recordId]
  | claim id =>
    simp only [run, bind_ok, pure_ok] at hrun
    obtain ⟨permit, hpermit, permit', hclaim, rfl⟩ := hrun
    obtain ⟨hp, rfl⟩ := State.permit_ok hpermit
    obtain ⟨hunused, hcurrent, rfl⟩ := MessageActionState.claim_ok hclaim
    refine .claim permit.ticket ⟨permit, hp, rfl⟩ hunused hcurrent ?_ rfl rfl rfl rfl
    intro x hx
    obtain ⟨q, hq, rfl⟩ := hx
    rcases ActionPermit.mem_put hq with ⟨hq, hne⟩ | rfl
    · exact .inl ⟨⟨q, hq, rfl⟩, hne⟩
    · exact .inr rfl
  | finish id result =>
    simp only [run, bind_ok, pure_ok] at hrun
    obtain ⟨permit, -, rfl⟩ := hrun
    exact State.desk_keep rfl rfl rfl
      (.inl ⟨(MessageActionState.finish_cases _ _ permit result).2, rfl⟩)
  | deleted scope messageId =>
    cases hrun
    refine State.desk_keep rfl rfl rfl ?_
    rcases MessageActionState.deleted_generation s.owner s.actions scope messageId with hg | hg
    · -- the deleted message is not the selected one, or the selection is dropped with it
      exact .inl ⟨hg, if_pos hg⟩
    · refine .inr ⟨?_, ?_⟩
      · show s.owner.generation < (s.owner.deleted s.actions scope messageId).2.generation
        omega
      · show (if _ then _ else _) ≤ s.now
        rw [if_neg (by omega)]
  | reportStatus token recordId reportId =>
    cases hrun
    exact State.desk_keep rfl rfl rfl
      (.inl ⟨MessageActionState.reportStatus_generation _ _ token recordId reportId, rfl⟩)
  | publicationStatus token recordId result =>
    cases hrun
    exact State.desk_keep rfl rfl rfl
      (.inl ⟨MessageActionState.publicationStatus_generation _ _ token recordId result, rfl⟩)
  | restart =>
    cases hrun
    refine .clear ?_ rfl rfl (le_refl _)
    -- no permit outlives a restart
    refine Set.eq_empty_iff_forall_notMem.mpr ?_
    intro x hx
    obtain ⟨p, hp, -⟩ := hx
    exact Table.not_mem_empty p hp
  | selectBlocks _ | fail _ =>
    cases hrun
    exact State.desk_keep rfl rfl rfl (.inl ⟨rfl, rfl⟩)
  | refresh | more | accept _ _ | unblock _ _ _ | finishUnblock _ _ | dispatchEnded _ _ =>
    simp only [run, bind_ok, pure_ok] at hrun
    obtain ⟨_, _, rfl⟩ := hrun
    exact State.desk_keep rfl rfl rfl (.inl ⟨rfl, rfl⟩)
  | claimUnblock _ =>
    simp only [run, bind_ok, pure_ok] at hrun
    obtain ⟨_, _, _, _, rfl⟩ := hrun
    exact State.desk_keep rfl rfl rfl (.inl ⟨rfl, rfl⟩)

/-- The permits are in order in every run. -/
theorem reachable_desk {s : State} (h : actionSystem.Reachable s) : s.desk.Ok := by
  refine h.induct (P := fun s => s.desk.Ok) ⟨?_, ?_⟩
  · intro s hs
    subst hs
    refine .of_empty ?_ rfl (le_refl _)
    exact Set.eq_empty_iff_forall_notMem.mpr fun x hx =>
      hx.elim fun p hp => Table.not_mem_empty p hp.1
  · intro s t c _ hs hstep
    exact hs.step (step_now hstep) (step_desk hstep)

end Rogichat.MessageActions
