import Rogichat.MessageActions.Runs

/-!
# Lists of blocked actors

A list is read page by page. What its last page shows of a block counts only if no block of the
room was begun or answered since the first page was asked for.

* **`Hears`** — the pages on the screen are the ones heard since the list was asked for.
* **`Baseline`** — the records a list is compared with were begun before it was asked for.
* **`Unseen`** — a block that counts as undone was missing from a complete list asked for later.
-/

namespace Rogichat.MessageActions

open Lib

/-! ## Pages -/

namespace ActorBlocksState

/-- The pages on the screen are the ones heard since the list was asked for. -/
structure Hears (s : ActorBlocksState) (heard : List Uuid) : Prop where
  first : ∀ token ∈ s.pagePending, token.after = none → heard = []
  later : ∀ token ∈ s.pagePending, token.after ≠ none → s.next ≠ none
  heard : s.next ≠ none → s.blocks.map (·.actorId) = heard
  complete : s.complete = true → s.next = none
  busy : s.pending ≠ none → s.next = none ∧ s.pagePending = none

variable {s s' : ActorBlocksState} {heard : List Uuid}

/-- A view that waits for no page and knows of none. -/
theorem Hears.idle (hnext : s.next = none) (hpage : s.pagePending = none) : s.Hears heard := by
  constructor
  · intro token htoken
    rw [hpage] at htoken
    cases htoken
  · intro token htoken
    rw [hpage] at htoken
    cases htoken
  · exact fun h => absurd hnext h
  · exact fun _ => hnext
  · exact fun _ => ⟨hnext, hpage⟩

/-- A refresh starts the listing anew, from the records it finds. -/
theorem refresh_ok {actions : Table ActionRecord} {token : BlockPageToken}
    (h : s.refresh actions = some (s', token)) :
    s'.pending = none ∧ s'.next = none ∧ s'.complete = false ∧ s'.pagePending = some token ∧
      s'.generation = s.generation + 1 ∧ s'.baseline = s.currentActorRecords actions := by
  unfold refresh at h
  split at h
  · rename_i hpending _
    cases h
    exact ⟨hpending, rfl, rfl, rfl, rfl, rfl⟩
  · cases h

/-- A new listing has heard nothing. -/
theorem Hears.refresh {actions : Table ActionRecord} {token : BlockPageToken}
    (h : s.refresh actions = some (s', token)) : s'.Hears [] := by
  obtain ⟨hpending, hnext, hcomplete, hpage, -, -⟩ := refresh_ok h
  have hafter : token.after = none := by
    unfold ActorBlocksState.refresh at h
    split at h
    · cases h
      rfl
    · cases h
  constructor
  · exact fun _ _ _ => rfl
  · intro token' htoken hne
    rw [hpage] at htoken
    cases htoken
    exact absurd hafter hne
  · exact fun hne => absurd hnext hne
  · exact fun _ => hnext
  · exact fun hne => absurd hpending hne

/-- The next page continues where the last one ended. -/
theorem more_ok {token : BlockPageToken} (h : s.more = some (s', token)) :
    s.pending = none ∧ s.complete = false ∧ token.after = s.next ∧ s.next ≠ none ∧
      s' = { s with pagePending := some token, failed := false, issued := s.issued + 1 } := by
  unfold more at h
  split at h
  · cases h
  rename_i hopen
  simp only [not_or, not_not] at hopen
  obtain ⟨view, -, heq⟩ := Option.map_eq_some_iff.mp h
  cases heq
  exact ⟨hopen.1, by simpa using hopen.2.2.1, rfl, hopen.2.2.2, rfl⟩

/-- Asking for a page tells nothing new. -/
theorem Hears.more {token : BlockPageToken} (hs : s.Hears heard) (h : s.more = some (s', token)) :
    s'.Hears heard := by
  obtain ⟨hpending, hcomplete, hafter, hnext, rfl⟩ := more_ok h
  constructor
  · intro token' htoken hnone
    cases htoken
    exact absurd (hafter.symm.trans hnone) hnext
  · exact fun _ _ _ => hnext
  · exact hs.heard
  · intro hc
    rw [show s.complete = true from hc] at hcomplete
    cases hcomplete
  · exact fun hne => absurd hpending hne

theorem Hears.fail (hs : s.Hears heard) (token : BlockPageToken) : (s.fail token).Hears heard := by
  unfold ActorBlocksState.fail
  split
  · constructor
    · intro token' htoken
      cases htoken
    · intro token' htoken
      cases htoken
    · exact hs.heard
    · exact hs.complete
    · exact fun hne => ⟨(hs.busy hne).1, rfl⟩
  · exact hs

/-- The pages so far, with the one that was waited for. -/
theorem Hears.blocks_paged (hs : s.Hears heard) {token : BlockPageToken}
    (htakes : s.Takes token) (page : BlockPage) :
    (s.paged token page).blocks.map (·.actorId) = heard ++ page.blocks.map (·.actorId) := by
  unfold paged
  by_cases hafter : token.after = none
  · rw [if_pos hafter, hs.first token htakes.1 hafter]
    rfl
  · rw [if_neg hafter, List.map_append, hs.heard (hs.later token htakes.1 hafter)]

/-- A page that is taken adds its actors. -/
theorem Hears.paged (hs : s.Hears heard) {token : BlockPageToken} (htakes : s.Takes token)
    (page : BlockPage) : (s.paged token page).Hears (heard ++ page.blocks.map (·.actorId)) := by
  constructor
  · intro token' htoken
    cases htoken
  · intro token' htoken
    cases htoken
  · exact fun _ => hs.blocks_paged htakes page
  · intro hc
    simpa [ActorBlocksState.paged] using hc
  · intro hne
    -- while an unblock is out no page is waited for
    have hnone := (hs.busy hne).2
    rw [htakes.1] at hnone
    cases hnone

theorem Hears.finish (hs : s.Hears heard) (unblocks : Table UnblockRecord)
    (permit : UnblockPermit) (outcome : UnblockOutcome) :
    (s.finish unblocks permit outcome).2.1.Hears heard := by
  unfold ActorBlocksState.finish
  split
  · exact hs
  split
  · exact hs
  split
  · exact hs
  rename_i hcurrent
  rw [not_or, not_not, not_not] at hcurrent
  have hbusy : s.next = none ∧ s.pagePending = none := hs.busy (by simp [hcurrent.1])
  split
  · exact .idle hbusy.1 hbusy.2
  · exact .idle hbusy.1 hbusy.2

theorem Hears.dispatchEnded (hs : s.Hears heard) (permit : UnblockPermit) (enqueued : Bool) :
    (s.dispatchEndedWithoutPersistence permit enqueued).Hears heard := by
  unfold dispatchEndedWithoutPersistence
  split
  · exact hs
  · exact .idle rfl rfl

/-! ## Generations -/

/-- An answer to an unblock leaves view and baseline alone. -/
theorem finish_generation (s : ActorBlocksState) (unblocks : Table UnblockRecord)
    (permit : UnblockPermit) (outcome : UnblockOutcome) :
    (s.finish unblocks permit outcome).2.1.generation = s.generation ∧
      (s.finish unblocks permit outcome).2.1.baseline = s.baseline := by
  unfold ActorBlocksState.finish
  split
  · exact ⟨rfl, rfl⟩
  split
  · exact ⟨rfl, rfl⟩
  split
  · exact ⟨rfl, rfl⟩
  split <;> exact ⟨rfl, rfl⟩

theorem fail_generation (s : ActorBlocksState) (token : BlockPageToken) :
    (s.fail token).generation = s.generation ∧ (s.fail token).baseline = s.baseline := by
  unfold fail
  split <;> exact ⟨rfl, rfl⟩

/-- A dispatch that ended never takes the generation back. -/
theorem dispatchEnded_generation (s : ActorBlocksState) (permit : UnblockPermit)
    (enqueued : Bool) :
    s.generation ≤ (s.dispatchEndedWithoutPersistence permit enqueued).generation ∧
      (s.dispatchEndedWithoutPersistence permit enqueued).baseline = s.baseline := by
  unfold dispatchEndedWithoutPersistence
  split
  · exact ⟨le_refl _, rfl⟩
  · exact ⟨Nat.le_succ _, rfl⟩

/-- A page leaves the generation of its view. -/
theorem Accepts.generation {unblocks unblocks' : Table UnblockRecord}
    {actions actions' : Table ActionRecord} {token : BlockPageToken} {page : BlockPage}
    {reset : Option BlockScope}
    (h : s.Accepts unblocks actions token page unblocks' actions' s' reset) :
    s.generation ≤ s'.generation ∧ s'.baseline = s.baseline := by
  cases h with
  | drifted => exact ⟨Nat.le_succ _, rfl⟩
  | more => exact ⟨le_refl _, rfl⟩
  | last => exact ⟨le_refl _, rfl⟩

end ActorBlocksState

/-- A step of the unblocks' desk in which no permit changes. -/
theorem State.unblockDesk_keep {s t : State} (hpermits : t.unblockPermits = s.unblockPermits)
    (hunblocked : t.unblocked = s.unblocked) (hclaims : t.unblockClaims = s.unblockClaims)
    (hgrows : s.blocks.generation ≤ t.blocks.generation) (hviewed : t.viewedAt = s.viewedAt)
    (hs : s.viewedAt ≤ s.now) : s.unblockDesk.Step t.unblockDesk := by
  refine .keep ?_ ?_ hclaims ?_
  · show {x | ∃ p ∈ t.unblockPermits, x = p.ticket} ⊆ {x | ∃ p ∈ s.unblockPermits, x = p.ticket}
    rw [hpermits]
  · show t.unblocked.map _ = s.unblocked.map _
    rw [hunblocked]
  · rcases Nat.eq_or_lt_of_le hgrows with heq | hlt
    · exact .inl ⟨heq.symm, hviewed⟩
    · exact .inr ⟨hlt, (le_of_eq hviewed).trans hs⟩

/-- What a step does with the unblock permits. -/
theorem step_unblockDesk {s t : State} {c : Command} (hs : s.viewedAt ≤ s.now)
    (h : actionSystem.step c s t) : s.unblockDesk.Step t.unblockDesk := by
  obtain ⟨hfresh, u, hrun, rfl⟩ := step_ok h
  cases c with
  | selectBlocks value =>
    cases hrun
    -- another selection of blocks leaves every permit of before behind
    exact .keep (fun _ h => h) rfl rfl (.inr ⟨Nat.lt_succ_self _, le_refl _⟩)
  | refresh =>
    simp only [run, bind_ok, require_ok, pure_ok] at hrun
    obtain ⟨⟨blocks, token⟩, hrefresh, rfl⟩ := hrun
    obtain ⟨-, -, -, -, hgeneration, -⟩ := ActorBlocksState.refresh_ok hrefresh
    exact State.unblockDesk_keep rfl rfl rfl (hgeneration ▸ Nat.le_succ _) rfl hs
  | more =>
    simp only [run, bind_ok, require_ok, pure_ok] at hrun
    obtain ⟨⟨blocks, token⟩, hmore, rfl⟩ := hrun
    obtain ⟨-, -, -, -, rfl⟩ := ActorBlocksState.more_ok hmore
    exact State.unblockDesk_keep rfl rfl rfl (le_refl _) rfl hs
  | fail token =>
    cases hrun
    exact State.unblockDesk_keep rfl rfl rfl
      (le_of_eq (ActorBlocksState.fail_generation _ token).1.symm) rfl hs
  | accept token page =>
    simp only [run, bind_ok, pure_ok] at hrun
    obtain ⟨⟨unblocks, actions, blocks, reset⟩, haccept, rfl⟩ := hrun
    -- a page of a list no longer shown is dropped
    rcases ActorBlocksState.accept_cases haccept with ⟨-, -, -, rfl, -⟩ | ⟨-, hcases⟩
    · exact State.unblockDesk_keep rfl rfl rfl (le_refl _) rfl hs
    · exact State.unblockDesk_keep rfl rfl rfl hcases.generation.1 rfl hs
  | unblock token actorId id =>
    simp only [run, bind_ok, pure_ok] at hrun
    obtain ⟨⟨unblocks, blocks, permit⟩, hunblock, rfl⟩ := hrun
    obtain ⟨-, -, hid, hticket, -, rfl⟩ := ActorBlocksState.unblock_ok hunblock
    refine .issue id ?_ ?_ ?_ rfl (Nat.le_succ _) rfl
    · intro e he
      obtain ⟨e', he', rfl⟩ := List.mem_map.mp he
      exact hfresh e' he'
    · intro x hx
      obtain ⟨p, hp, rfl⟩ := hx
      rcases UnblockPermit.mem_put hp with ⟨hp, -⟩ | rfl
      · exact .inl ⟨p, hp, rfl⟩
      · exact .inr hticket
    · show (s.now, permit.record.id) :: s.unblocked.map _ = (s.now, id) :: s.unblocked.map _
      rw [hid]
  | claimUnblock id =>
    simp only [run, bind_ok, pure_ok] at hrun
    obtain ⟨permit, hpermit, permit', hclaim, rfl⟩ := hrun
    obtain ⟨hp, rfl⟩ := State.unblockPermit_ok hpermit
    obtain ⟨hunused, hcurrent, rfl⟩ := ActorBlocksState.claim_ok hclaim
    refine .claim permit.ticket ⟨permit, hp, rfl⟩ hunused hcurrent ?_ rfl rfl rfl rfl
    intro x hx
    obtain ⟨q, hq, rfl⟩ := hx
    rcases UnblockPermit.mem_put hq with ⟨hq, hne⟩ | rfl
    · exact .inl ⟨⟨q, hq, rfl⟩, hne⟩
    · exact .inr rfl
  | finishUnblock id outcome =>
    simp only [run, bind_ok, pure_ok] at hrun
    obtain ⟨permit, -, rfl⟩ := hrun
    exact State.unblockDesk_keep rfl rfl rfl
      (le_of_eq (ActorBlocksState.finish_generation _ _ permit outcome).1.symm) rfl hs
  | dispatchEnded id enqueued =>
    simp only [run, bind_ok, pure_ok] at hrun
    obtain ⟨permit, -, rfl⟩ := hrun
    exact State.unblockDesk_keep rfl rfl rfl
      (ActorBlocksState.dispatchEnded_generation _ permit enqueued).1 rfl hs
  | restart =>
    cases hrun
    refine .clear ?_ rfl rfl (le_refl _)
    -- a restart keeps the records but no permit
    refine Set.eq_empty_iff_forall_notMem.mpr ?_
    intro x hx
    obtain ⟨p, hp, -⟩ := hx
    exact Table.not_mem_empty p hp
  | select _ | deleted _ _ | reportStatus _ _ _ | publicationStatus _ _ _ =>
    cases hrun
    exact State.unblockDesk_keep rfl rfl rfl (le_refl _) rfl hs
  | begin _ _ _ _ _ | finish _ _ =>
    simp only [run, bind_ok, pure_ok] at hrun
    obtain ⟨_, _, rfl⟩ := hrun
    exact State.unblockDesk_keep rfl rfl rfl (le_refl _) rfl hs
  | claim _ =>
    simp only [run, bind_ok, pure_ok] at hrun
    obtain ⟨_, _, _, _, rfl⟩ := hrun
    exact State.unblockDesk_keep rfl rfl rfl (le_refl _) rfl hs

/-- The unblock permits are in order in every run. -/
theorem reachable_unblockDesk {s : State} (h : actionSystem.Reachable s) : s.unblockDesk.Ok := by
  refine h.induct (P := fun s => s.unblockDesk.Ok) ⟨?_, ?_⟩
  · intro s hs
    subst hs
    refine .of_empty ?_ rfl (le_refl _)
    exact Set.eq_empty_iff_forall_notMem.mpr fun x hx =>
      hx.elim fun p hp => Table.not_mem_empty p hp.1
  · intro s t c _ hs hstep
    exact hs.step (step_now hstep) (step_unblockDesk hs.since hstep)

/-! ## Complete lists -/

/-- The list shows actors the server has named, in every run. -/
theorem reachable_hears {s : State} (h : actionSystem.Reachable s) : s.blocks.Hears s.heard := by
  refine h.induct (P := fun s => s.blocks.Hears s.heard) ⟨?_, ?_⟩
  · intro s hs
    subst hs
    exact .idle rfl rfl
  · intro s t c _ hs hstep
    obtain ⟨-, u, hrun, rfl⟩ := step_ok hstep
    cases c with
    | selectBlocks value =>
      cases hrun
      exact .idle rfl rfl
    | refresh =>
      simp only [run, bind_ok, require_ok, pure_ok] at hrun
      obtain ⟨⟨blocks, token⟩, hrefresh, rfl⟩ := hrun
      exact .refresh hrefresh
    | more =>
      simp only [run, bind_ok, require_ok, pure_ok] at hrun
      obtain ⟨⟨blocks, token⟩, hmore, rfl⟩ := hrun
      exact hs.more hmore
    | fail token =>
      cases hrun
      exact hs.fail token
    | accept token page =>
      simp only [run, bind_ok, pure_ok] at hrun
      obtain ⟨⟨unblocks, actions, blocks, reset⟩, haccept, rfl⟩ := hrun
      rcases ActorBlocksState.accept_cases haccept with ⟨htakes, -, -, rfl, -⟩ | ⟨htakes, hcases⟩
      · -- a page nobody waits for is not heard, and nothing changes
        show s.blocks.Hears (s.hears token page)
        rw [State.hears, if_neg htakes]
        exact hs
      · have hpaged : (s.blocks.paged token page).Hears (s.hears token page) := by
          rw [State.hears, if_pos htakes]
          exact hs.paged htakes page
        cases hcases with
        | drifted => exact .idle rfl rfl
        | more => exact hpaged
        | last => exact hpaged
    | unblock token actorId id =>
      simp only [run, bind_ok, pure_ok] at hrun
      obtain ⟨⟨unblocks, blocks, permit⟩, hunblock, rfl⟩ := hrun
      obtain ⟨hcomplete, -, -, -, -, rfl⟩ := ActorBlocksState.unblock_ok hunblock
      exact .idle (hs.complete hcomplete) rfl
    | finishUnblock id outcome =>
      simp only [run, bind_ok, pure_ok] at hrun
      obtain ⟨permit, -, rfl⟩ := hrun
      exact hs.finish _ permit outcome
    | dispatchEnded id enqueued =>
      simp only [run, bind_ok, pure_ok] at hrun
      obtain ⟨permit, -, rfl⟩ := hrun
      exact hs.dispatchEnded permit enqueued
    | restart =>
      cases hrun
      exact .idle rfl rfl
    | select _ | deleted _ _ | reportStatus _ _ _ | publicationStatus _ _ _ =>
      cases hrun
      exact hs
    | begin _ _ _ _ _ | finish _ _ =>
      simp only [run, bind_ok, pure_ok] at hrun
      obtain ⟨_, _, rfl⟩ := hrun
      exact hs
    | claim _ | claimUnblock _ =>
      simp only [run, bind_ok, pure_ok] at hrun
      obtain ⟨_, _, _, _, rfl⟩ := hrun
      exact hs

/-- The records a list is compared with were begun before it was asked for. -/
def Baseline (s : State) : Prop :=
  ∀ r ∈ s.blocks.baseline, ∃ e ∈ s.begun, e.2.id = r.id ∧ e.1 < s.requestedAt

/-- A baseline stays what it was while no refresh sets it. -/
theorem Baseline.keep {s t : State} (hs : Baseline s) (hbaseline : t.blocks.baseline = s.blocks.baseline)
    (hbegun : s.begun ⊆ t.begun) (hrequested : t.requestedAt = s.requestedAt) : Baseline t := by
  intro r hr
  rw [hbaseline] at hr
  obtain ⟨e, he, hid, hbefore⟩ := hs r hr
  exact ⟨e, hbegun he, hid, hrequested ▸ hbefore⟩

/-- The baseline is what the journal held when the listing began. -/
theorem reachable_baseline {s : State} (h : actionSystem.Reachable s) : Baseline s := by
  refine h.induct (P := Baseline) ⟨?_, ?_⟩
  · intro s hs
    subst hs
    exact fun r hr => absurd hr List.not_mem_nil
  · intro s t c hreachable hs hstep
    obtain ⟨-, u, hrun, rfl⟩ := step_ok hstep
    have hrefl : s.begun ⊆ s.begun := List.Subset.refl s.begun
    cases c with
    | selectBlocks value =>
      cases hrun
      exact fun r hr => absurd hr List.not_mem_nil
    | refresh =>
      simp only [run, bind_ok, require_ok, pure_ok] at hrun
      obtain ⟨⟨blocks, token⟩, hrefresh, rfl⟩ := hrun
      obtain ⟨-, -, -, -, -, hbaseline⟩ := ActorBlocksState.refresh_ok hrefresh
      intro r hr
      rw [show _ = _ from hbaseline] at hr
      -- the refresh takes its baseline from the records, and these were all begun before
      obtain ⟨hr, -⟩ := ActorBlocksState.mem_actorRecords.mp hr
      obtain ⟨e, he, hkept⟩ := (reachable_journaled hreachable).known r hr
      exact ⟨e, he, hkept.id.symm, (reachable_journaled hreachable).before e he⟩
    | more =>
      simp only [run, bind_ok, require_ok, pure_ok] at hrun
      obtain ⟨⟨blocks, token⟩, hmore, rfl⟩ := hrun
      obtain ⟨-, -, -, -, rfl⟩ := ActorBlocksState.more_ok hmore
      exact hs.keep rfl hrefl rfl
    | fail token =>
      cases hrun
      exact hs.keep (ActorBlocksState.fail_generation _ token).2 hrefl rfl
    | accept token page =>
      simp only [run, bind_ok, pure_ok] at hrun
      obtain ⟨⟨unblocks, actions, blocks, reset⟩, haccept, rfl⟩ := hrun
      rcases ActorBlocksState.accept_cases haccept with ⟨-, -, -, rfl, -⟩ | ⟨-, hcases⟩
      · exact hs.keep rfl hrefl rfl
      · exact hs.keep hcases.generation.2 hrefl rfl
    | unblock token actorId id =>
      simp only [run, bind_ok, pure_ok] at hrun
      obtain ⟨⟨unblocks, blocks, permit⟩, hunblock, rfl⟩ := hrun
      obtain ⟨-, -, -, -, -, rfl⟩ := ActorBlocksState.unblock_ok hunblock
      exact hs.keep rfl hrefl rfl
    | finishUnblock id outcome =>
      simp only [run, bind_ok, pure_ok] at hrun
      obtain ⟨permit, -, rfl⟩ := hrun
      exact hs.keep (ActorBlocksState.finish_generation _ _ permit outcome).2 hrefl rfl
    | dispatchEnded id enqueued =>
      simp only [run, bind_ok, pure_ok] at hrun
      obtain ⟨permit, -, rfl⟩ := hrun
      exact hs.keep (ActorBlocksState.dispatchEnded_generation _ permit enqueued).2 hrefl rfl
    | restart =>
      cases hrun
      exact fun r hr => absurd hr List.not_mem_nil
    | begin token action emoji reason id =>
      simp only [run, bind_ok, pure_ok] at hrun
      obtain ⟨_, _, rfl⟩ := hrun
      exact hs.keep rfl (List.subset_cons_self _ _) rfl
    | select _ | deleted _ _ | reportStatus _ _ _ | publicationStatus _ _ _ =>
      cases hrun
      exact hs.keep rfl hrefl rfl
    | finish _ _ =>
      simp only [run, bind_ok, pure_ok] at hrun
      obtain ⟨_, _, rfl⟩ := hrun
      exact hs.keep rfl hrefl rfl
    | claim _ | claimUnblock _ =>
      simp only [run, bind_ok, pure_ok] at hrun
      obtain ⟨_, _, _, _, rfl⟩ := hrun
      exact hs.keep rfl hrefl rfl

/-- A complete list of the room that was asked for after the record was begun and does not name
its actor. -/
def Missing (s : State) (r : ActionRecord) (l : CompleteList) : Prop :=
  l.room = r.selection.scope.room ∧ (∀ actor ∈ r.selection.visibleActorId, actor ∉ l.actors) ∧
    ∀ e ∈ s.begun, e.2.id = r.id → e.1 < l.requestedAt

/-- A block that counts as undone was missing from a complete list asked for later. -/
def Unseen (s : State) : Prop :=
  ∀ r ∈ s.actions, r.action = .blockActor → r.observedBlocked = some false →
    ∃ l ∈ s.listed, Missing s r l

/-- A list does not miss more of a record that is only settled further. -/
theorem Missing.settled {s t : State} {r r' : ActionRecord} {l : CompleteList}
    (h : Missing s r l) (hsettled : r.Kept r') (hbegun : t.begun = s.begun) : Missing t r' l := by
  obtain ⟨hroom, hactors, hbefore⟩ := h
  refine ⟨?_, ?_, ?_⟩
  · rw [hsettled.scope]
    exact hroom
  · intro actor hactor
    exact hactors actor (hsettled.visibleActorId hactor)
  · rw [hbegun, hsettled.id]
    exact hbefore

/-- The list a record is shown to was asked for after the record was begun. -/
theorem Shows.missing {s t : State} {token : BlockPageToken} {page : BlockPage}
    (h : Shows s t token page) (hs : actionSystem.Reachable s) {r : ActionRecord}
    (hr : r ∈ s.actions) (hblock : r.action = .blockActor)
    (hroom : r.selection.scope.room = token.view.scope.partition)
    (hactor : r.selection.visibleActorId ∉
      ((s.blocks.paged token page).blocks.map (·.actorId)).map some) :
    Missing t r ⟨token.view.scope.partition, s.hears token page, s.requestedAt⟩ := by
  refine ⟨hroom.symm, ?_, ?_⟩
  · intro actor hsome hheard
    refine hactor (List.mem_map.mpr ⟨actor, ?_, hsome.symm⟩)
    rw [(reachable_hears hs).blocks_paged h.takes page]
    rwa [State.hears, if_pos h.takes] at hheard
  · intro e he hid
    rw [h.begun] at he
    -- the journal is what it was when the list was asked for
    have hbaseline : r ∈ s.blocks.baseline := by
      rw [← h.baseline]
      refine ActorBlocksState.mem_actorRecords.mpr ⟨hr, hblock, ?_⟩
      rw [hroom, ← h.takes.2.1]
      rfl
    obtain ⟨e', he', hid', hbefore⟩ := reachable_baseline hs r hbaseline
    obtain rfl := (reachable_journaled hs).eq_of_id he he' (hid.trans hid'.symm)
    exact hbefore

/-- A record is observed unblocked only through a list that misses its actor. -/
theorem reachable_unseen {s : State} (h : actionSystem.Reachable s) : Unseen s := by
  refine h.induct (P := Unseen) ⟨?_, ?_⟩
  · intro s hs
    subst hs
    exact fun r hr => absurd hr (Table.not_mem_empty r)
  · intro s t c hreachable hs hstep r' hr' hblock hobserved
    rcases step_actions hstep with h | ⟨token, action, emoji, reason, id, permit, -, h⟩ |
      ⟨token, page, -, h⟩
    · obtain ⟨r, hr, hsettled⟩ := h.actions.back r' hr'
      obtain ⟨l, hl, hmissing⟩ := hs r hr (hsettled.action.symm.trans hblock)
        (hsettled.observed.symm.trans hobserved)
      exact ⟨l, h.listed ▸ hl, hmissing.settled hsettled.toKept h.begun⟩
    · rw [h.begins.journal,
        Table.mem_put_fresh ((reachable_journaled hreachable).fresh h)] at hr'
      rcases hr' with hr' | rfl
      · obtain ⟨l, hl, hroom, hactors, hbefore⟩ := hs r' hr' hblock hobserved
        refine ⟨l, h.listed ▸ hl, hroom, hactors, ?_⟩
        rw [h.begun]
        intro e he hid
        rcases List.mem_cons.mp he with rfl | he
        · -- the begun record has an id of its own
          obtain ⟨e, he, hkept⟩ := (reachable_journaled hreachable).known r' hr'
          exact absurd (hkept.id.symm.trans (hid.symm.trans h.begins.recordId)) (h.fresh e he)
        · exact hbefore e he hid
      · rw [h.begins.observed] at hobserved
        cases hobserved
    · rw [h.actions, Table.mem_putAll_map (ActorBlocksState.keeps_observeBlock _)] at hr'
      obtain ⟨r, hr, rfl⟩ := hr'
      by_cases hin : r.action = .blockActor ∧ r.selection.scope.room = token.view.scope.partition
      · rw [if_pos hin] at hobserved hblock ⊢
        refine ⟨_, h.listed ▸ List.mem_cons_self, ?_⟩
        have hactor : r.selection.visibleActorId ∉
            ((s.blocks.paged token page).blocks.map (·.actorId)).map some := by
          simpa [ActorBlocksState.observeBlock] using hobserved
        exact (h.missing hreachable hr hin.1 hin.2 hactor).settled
          (ActorBlocksState.observeBlock_kept _ r) rfl
      · rw [if_neg hin] at hobserved hblock ⊢
        obtain ⟨l, hl, hmissing⟩ := hs r hr hblock hobserved
        exact ⟨l, h.listed ▸ List.mem_cons_of_mem _ hl, hmissing.settled (.refl r) h.begun⟩

end Rogichat.MessageActions
