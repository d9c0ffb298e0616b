import Rogichat.MessageActions.Lists

/-!
# No uncertain action is replayed

A permit is claimed once, under the selection it was handed out for. An unresolved record holds
its action back until it is resolved, and a resolved one is resolved for good. What a deletion
erases is the actor of a block, and with it what would hold a second block back.

* **`NeverReplayed`** — what is asked of every run of the two owners.
* **`actions_neverReplayed`** — it holds.
-/

namespace Rogichat.MessageActions

open Lib

/-- What is asked of every run of the two owners. -/
structure NeverReplayed (S : System State Command) : Prop where
  /-- A permit is claimed once, and no other message was selected since it was handed out. -/
  claimed : ∀ s t id, S.Reachable s → S.step (.claim id) s t →
    id ∉ s.claims ∧ ∃ e ∈ s.begun, e.2.id = id ∧ s.selectedAt ≤ e.1
  claimedUnblock : ∀ s t id, S.Reachable s → S.step (.claimUnblock id) s t →
    id ∉ s.unblockClaims ∧ ∃ e ∈ s.unblocked, e.2.id = id ∧ s.viewedAt ≤ e.1
  /-- A record leaves `UNKNOWN` at most once. -/
  resolved : ∀ s cs t r, S.Reachable s → S.Run s cs t → r ∈ s.actions → r.phase ≠ .unknown →
    ∃ r' ∈ t.actions, r'.id = r.id ∧ r'.phase ≠ .unknown
  resolvedUnblock : ∀ s cs t r, S.Reachable s → S.Run s cs t → r ∈ s.unblocks →
    r.outcome ≠ .unknown → ∃ r' ∈ t.unblocks, r'.id = r.id ∧ r'.outcome ≠ .unknown
  /-- A late answer does not overwrite a result. -/
  final : ∀ s t id result r, S.Reachable s → S.step (.finish id result) s t → r ∈ s.actions →
    r.phase ≠ .unknown → r ∈ t.actions
  finalUnblock : ∀ s t id outcome r, S.Reachable s → S.step (.finishUnblock id outcome) s t →
    r ∈ s.unblocks → r.outcome ≠ .unknown → r ∈ t.unblocks
  /-- While a begun action is unresolved, or a publication prepared, nothing it holds back is
  begun on its message. -/
  excluded : ∀ s t token action emoji reason id e, S.Reachable s →
    S.step (.begin token action emoji reason id) s t → e ∈ s.begun →
    e.2.selection.scope.room = token.selection.scope.room →
    e.2.selection.messageId = token.selection.messageId →
    ∃ r ∈ s.actions, r.id = e.2.id ∧
      (r.phase ∉ [ActionPhase.unknown, .preparing] ∨ e.2.action.holds action = false)
  /-- Nothing is begun on a message that is gone, except a block over a block. -/
  closed : ∀ s cs t u r token action emoji reason id, S.Reachable s → r ∈ s.actions →
    (r.phase = .blocked ∨ r.selection.contentKind = "TOMBSTONE") → S.Run s cs t →
    S.step (.begin token action emoji reason id) t u →
    r.selection.scope.room = token.selection.scope.room →
    r.selection.messageId = token.selection.messageId →
    r.action = .blockActor ∧ action = .blockActor
  /-- An actor is blocked again only if every earlier block of that actor in the room is undone:
  it was answered otherwise, a complete list asked for later does not name the actor, or the
  actor was erased from the record. -/
  reblocked : ∀ s t token emoji reason id e actor, S.Reachable s →
    S.step (.begin token .blockActor emoji reason id) s t →
    token.selection.visibleActorId = some actor → e ∈ s.begun → e.2.action = .blockActor →
    e.2.selection.scope.room = token.selection.scope.room →
    e.2.selection.visibleActorId = some actor →
    ∃ r ∈ s.actions, r.id = e.2.id ∧
      (r.phase ∉ [ActionPhase.unknown, .actorBlocked] ∨
        (∃ l ∈ s.listed, l.room = token.selection.scope.room ∧ actor ∉ l.actors ∧
          e.1 < l.requestedAt) ∨
        r.selection.visibleActorId = none)

/-! ## What a begun action has passed -/

/-- What was in the journal when an action is begun was begun before. -/
theorem begins_of_step {s t : State} {token : ActionViewToken} {action : MessageAction}
    {emoji : Option String} {reason : Option ReportReason} {id : Uuid}
    (h : actionSystem.step (.begin token action emoji reason id) s t) :
    ∀ r ∈ s.actions, r.conflicts token.selection action = false := by
  obtain ⟨-, u, hrun, rfl⟩ := step_ok h
  simp only [run, bind_ok, pure_ok] at hrun
  obtain ⟨⟨actions, owner, permit⟩, hbegin, rfl⟩ := hrun
  exact (MessageActionState.begin_ok hbegin).free

namespace ActionRecord

variable {r : ActionRecord} {target : ActionSelection} {candidate : MessageAction}

/-- A record of the message that does not stand in the way is not gone, and is resolved or holds
other actions back. -/
theorem free_of_message (hfree : r.conflicts target candidate = false)
    (hroom : r.selection.scope.room = target.scope.room)
    (hmessage : r.selection.messageId = target.messageId)
    (hother : ¬(r.action = .blockActor ∧ candidate = .blockActor)) :
    ¬(r.phase = .blocked ∨ r.selection.contentKind = "TOMBSTONE") ∧
      (r.phase ∉ [ActionPhase.unknown, .preparing] ∨ r.action.holds candidate = false) := by
  unfold conflicts at hfree
  rw [if_neg (not_not.mpr hroom), if_neg hother, if_neg (not_not.mpr hmessage)] at hfree
  split at hfree
  · cases hfree
  rename_i hgone
  refine ⟨hgone, ?_⟩
  split at hfree
  · rename_i hphase
    exact .inl hphase
  · exact .inr hfree

/-- A block that does not stand in the way of another one of its actor is undone. -/
theorem free_of_block (hfree : r.conflicts target .blockActor = false)
    (hroom : r.selection.scope.room = target.scope.room) (hblock : r.action = .blockActor)
    (hactor : r.selection.visibleActorId = target.visibleActorId) :
    r.phase ∉ [ActionPhase.unknown, .actorBlocked] ∨ r.observedBlocked = some false := by
  unfold conflicts at hfree
  rw [if_neg (not_not.mpr hroom), if_pos ⟨hblock, rfl⟩, decide_eq_false_iff_not] at hfree
  by_cases hphase : r.phase ∈ [ActionPhase.unknown, .actorBlocked]
  · refine .inr ?_
    by_contra hobserved
    exact hfree ⟨hactor, hphase, hobserved⟩
  · exact .inl hphase

end ActionRecord

/-- No second record of an action is begun while the first one stands. -/
theorem excluded {s t : State} {token : ActionViewToken} {action : MessageAction}
    {emoji : Option String} {reason : Option ReportReason} {id : Uuid} {e : Nat × ActionRecord}
    (hs : actionSystem.Reachable s)
    (hstep : actionSystem.step (.begin token action emoji reason id) s t) (he : e ∈ s.begun)
    (hroom : e.2.selection.scope.room = token.selection.scope.room)
    (hmessage : e.2.selection.messageId = token.selection.messageId) :
    ∃ r ∈ s.actions, r.id = e.2.id ∧
      (r.phase ∉ [ActionPhase.unknown, .preparing] ∨ e.2.action.holds action = false) := by
  obtain ⟨r, hr, hkept⟩ := (reachable_journaled hs).stored e he
  refine ⟨r, hr, hkept.id, ?_⟩
  by_cases hblock : r.action = .blockActor ∧ action = .blockActor
  · -- a block holds nothing else back
    refine .inr ?_
    rw [← hkept.action, hblock.1]
    rfl
  · have hfree := begins_of_step hstep r hr
    rw [← hkept.action]
    refine (ActionRecord.free_of_message hfree ?_ ?_ hblock).2
    · rw [hkept.scope]
      exact hroom
    · rw [hkept.messageId]
      exact hmessage

/-- In every later state the record still keeps its action from being begun. -/
theorem closed {s t u : State} {cs : List Command} {r : ActionRecord} {token : ActionViewToken}
    {action : MessageAction} {emoji : Option String} {reason : Option ReportReason} {id : Uuid}
    (hs : actionSystem.Reachable s) (hr : r ∈ s.actions)
    (hgone : r.phase = .blocked ∨ r.selection.contentKind = "TOMBSTONE")
    (hrun : actionSystem.Run s cs t)
    (hstep : actionSystem.step (.begin token action emoji reason id) t u)
    (hroom : r.selection.scope.room = token.selection.scope.room)
    (hmessage : r.selection.messageId = token.selection.messageId) :
    r.action = .blockActor ∧ action = .blockActor := by
  obtain ⟨r', hr', hkept⟩ := run_kept hrun hs hr
  by_contra hother
  rw [← hkept.action] at hother
  refine (ActionRecord.free_of_message (begins_of_step hstep r' hr') ?_ ?_ hother).1 ?_
  · rw [hkept.scope]
    exact hroom
  · rw [hkept.messageId]
    exact hmessage
  · -- the record is still gone
    rcases hgone with hblocked | htombstone
    · exact .inl (hkept.blocked hblocked)
    · exact .inr (hkept.tombstone htombstone)

/-- A block is begun again only after a list has missed its actor. -/
theorem reblocked {s t : State} {token : ActionViewToken} {emoji : Option String}
    {reason : Option ReportReason} {id : Uuid} {e : Nat × ActionRecord} {actor : Uuid}
    (hs : actionSystem.Reachable s)
    (hstep : actionSystem.step (.begin token .blockActor emoji reason id) s t)
    (htarget : token.selection.visibleActorId = some actor) (he : e ∈ s.begun)
    (hblock : e.2.action = .blockActor)
    (hroom : e.2.selection.scope.room = token.selection.scope.room)
    (hactor : e.2.selection.visibleActorId = some actor) :
    ∃ r ∈ s.actions, r.id = e.2.id ∧
      (r.phase ∉ [ActionPhase.unknown, .actorBlocked] ∨
        (∃ l ∈ s.listed, l.room = token.selection.scope.room ∧ actor ∉ l.actors ∧
          e.1 < l.requestedAt) ∨
        r.selection.visibleActorId = none) := by
  obtain ⟨r, hr, hkept⟩ := (reachable_journaled hs).stored e he
  refine ⟨r, hr, hkept.id, ?_⟩
  rcases hkept.selection with hselection | hselection
  · have hroom' : r.selection.scope.room = token.selection.scope.room := by
      rw [hselection]
      exact hroom
    have hactor' : r.selection.visibleActorId = some actor := by
      rw [hselection]
      exact hactor
    have hblock' : r.action = .blockActor := hkept.action.trans hblock
    rcases ActionRecord.free_of_block (begins_of_step hstep r hr) hroom' hblock'
      (hactor'.trans htarget.symm) with hphase | hobserved
    · exact .inl hphase
    · obtain ⟨l, hl, hlroom, hlactors, hbefore⟩ := reachable_unseen hs r hr hblock' hobserved
      exact .inr (.inl ⟨l, hl, hlroom.trans hroom', hlactors actor hactor',
        hbefore e he hkept.id.symm⟩)
  · refine .inr (.inr ?_)
    rw [hselection]
    rfl

/-- No uncertain action is replayed: permits are used once and for what they were handed out for,
results are final, and what is unresolved or gone holds back what it must. -/
theorem actions_neverReplayed : NeverReplayed actionSystem where
  claimed s t id hs hstep := by
    obtain ⟨-, u, hrun, rfl⟩ := step_ok hstep
    simp only [run, bind_ok, pure_ok] at hrun
    obtain ⟨permit, hpermit, permit', hclaim, rfl⟩ := hrun
    obtain ⟨hp, rfl⟩ := State.permit_ok hpermit
    obtain ⟨hunused, hcurrent, -⟩ := MessageActionState.claim_ok hclaim
    obtain ⟨hnew, e, he, hid, hsince⟩ :=
      (reachable_desk hs).claim (t := permit.ticket) ⟨permit, hp, rfl⟩ hunused hcurrent
    obtain ⟨e, hmem, rfl⟩ := List.mem_map.mp he
    exact ⟨hnew, e, hmem, hid, hsince⟩
  claimedUnblock s t id hs hstep := by
    obtain ⟨-, u, hrun, rfl⟩ := step_ok hstep
    simp only [run, bind_ok, pure_ok] at hrun
    obtain ⟨permit, hpermit, permit', hclaim, rfl⟩ := hrun
    obtain ⟨hp, rfl⟩ := State.unblockPermit_ok hpermit
    obtain ⟨hunused, hcurrent, -⟩ := ActorBlocksState.claim_ok hclaim
    obtain ⟨hnew, e, he, hid, hsince⟩ :=
      (reachable_unblockDesk hs).claim (t := permit.ticket) ⟨permit, hp, rfl⟩ hunused hcurrent
    obtain ⟨e, hmem, rfl⟩ := List.mem_map.mp he
    exact ⟨hnew, e, hmem, hid, hsince⟩
  resolved s cs t r hs hrun hr hphase := by
    obtain ⟨r', hr', hkept⟩ := run_kept hrun hs hr
    exact ⟨r', hr', hkept.id, hkept.resolved hphase⟩
  resolvedUnblock s cs t r hs hrun hr houtcome := by
    obtain ⟨r', hr', hid, hresolved⟩ := run_unblockKept hrun hs hr
    exact ⟨r', hr', hid, hresolved houtcome⟩
  final s t id result r hs hstep hr hphase := by
    obtain ⟨-, u, hrun, rfl⟩ := step_ok hstep
    simp only [run, bind_ok, pure_ok] at hrun
    obtain ⟨permit, -, rfl⟩ := hrun
    exact MessageActionState.mem_finish hr hphase
  finalUnblock s t id outcome r hs hstep hr houtcome := by
    obtain ⟨-, u, hrun, rfl⟩ := step_ok hstep
    simp only [run, bind_ok, pure_ok] at hrun
    obtain ⟨permit, -, rfl⟩ := hrun
    exact ActorBlocksState.mem_finish hr houtcome
  excluded _ _ _ _ _ _ _ _ hs hstep he hroom hmessage := excluded hs hstep he hroom hmessage
  closed _ _ _ _ _ _ _ _ _ _ hs hr hgone hrun hstep hroom hmessage :=
    closed hs hr hgone hrun hstep hroom hmessage
  reblocked _ _ _ _ _ _ _ _ hs hstep htarget he hblock hroom hactor :=
    reblocked hs hstep htarget he hblock hroom hactor

/-! ## A block, undone and begun again -/

/-- A message of actor 20 in room 3, as account 1 sees it. -/
def text (messageId : Uuid) : ActionSelection where
  scope := ⟨.qa, 1, 2, 3, 4, 5, 6, 7⟩
  messageId
  version := 1
  hints := ⟨true, true⟩
  contentKind := "TEXT"
  anonymous := false
  visibleActorId := some 20
  unnamed := by simp
  fits := by decide

/-- The list of blocks of the room of the run. -/
def blocksView : BlockScope := ⟨.qa, 1, 2, 3, 8⟩

/-- A block is answered, and answered again too late. A complete list does not name the actor, who
is blocked again over another message, and once more when that one is erased. The last list names
the actor, and the block is undone. -/
def blockedThrice : List Command :=
  [.select (text 30), .begin ⟨text 30, 1⟩ .blockActor none none 100, .claim 100,
    .finish 100 (.actorBlocked 20), .finish 100 .rejected,
    .selectBlocks blocksView, .refresh, .accept ⟨0, ⟨blocksView, 2⟩, none⟩ ⟨[], none⟩,
    .select (text 31), .begin ⟨text 31, 2⟩ .blockActor none none 101,
    .deleted (text 31).scope 31, .select (text 31), .begin ⟨text 31, 4⟩ .blockActor none none 102,
    .refresh, .accept ⟨1, ⟨blocksView, 3⟩, none⟩ ⟨[⟨20, 0, none⟩], none⟩,
    .unblock ⟨blocksView, 3⟩ 20 200, .claimUnblock 200, .finishUnblock 200 .acknowledged,
    .finishUnblock 200 .rejected]

/-- The state after its first `n` commands. -/
def thrice (n : Nat) : State :=
  (System.play (fun c s => (exec c s).toOption) (blockedThrice.take n) {}).getD {}

/-- The run goes through however often it is repeated. -/
theorem thrice_reachable (n : Nat) : actionSystem.Reachable (thrice n) := by
  unfold thrice
  cases hplay : System.play (fun c s => (exec c s).toOption) (blockedThrice.take n) {} with
  | none => exact .init rfl
  | some s =>
    refine (System.Run.of_play ?_ hplay).reachable (.init rfl)
    intro c s t hexec
    exact toOption_eq_some.mp hexec

/-- The permits of the first block and of the unblock are claimed when nothing was claimed yet, the
late answers change nothing, the second block needs the list that does not name the actor, and the
third one is a block over the erased second one. -/
theorem actions_neverReplayed_blocks :
    100 ∉ (thrice 2).claims ∧ 200 ∉ (thrice 16).unblockClaims ∧
    (∃ r ∈ (thrice 4).actions, r.phase = .actorBlocked ∧ r ∈ (thrice 5).actions ∧
      ∃ r' ∈ (thrice 6).actions, r'.id = r.id ∧ r'.phase ≠ .unknown) ∧
    (∃ r ∈ (thrice 18).unblocks, r.outcome = .acknowledged ∧ r ∈ (thrice 19).unblocks) ∧
    (∃ l ∈ (thrice 9).listed, 20 ∉ l.actors) ∧
    ∃ r ∈ (thrice 12).actions, r.id = 101 ∧ r.selection.contentKind = "TOMBSTONE" ∧
      r.action = .blockActor := by
  have hnever := actions_neverReplayed
  obtain ⟨hclaim, -⟩ := hnever.claimed _ (thrice 3) 100 (thrice_reachable 2) rfl
  obtain ⟨hunblock, -⟩ := hnever.claimedUnblock _ (thrice 17) 200 (thrice_reachable 16) rfl
  refine ⟨hclaim, hunblock, ?_, ?_, ?_, ?_⟩
  · obtain ⟨r, hr, hphase⟩ : ∃ r ∈ (thrice 4).actions.rows, r.phase = .actorBlocked := by decide
    have hknown : r.phase ≠ .unknown := by simp [hphase]
    have hlate : r ∈ (thrice 5).actions :=
      hnever.final _ _ 100 .rejected r (thrice_reachable 4) rfl hr hknown
    have hrun : actionSystem.Run (thrice 5) [.selectBlocks blocksView] (thrice 6) := .single rfl
    exact ⟨r, hr, hphase, hlate, hnever.resolved _ _ _ r (thrice_reachable 5) hrun hlate hknown⟩
  · obtain ⟨r, hr, hdone⟩ : ∃ r ∈ (thrice 18).unblocks.rows, r.outcome = .acknowledged := by decide
    exact ⟨r, hr, hdone, hnever.finalUnblock _ _ 200 .rejected r (thrice_reachable 18) rfl hr
      (by simp [hdone])⟩
  · obtain ⟨e, he, hblock, hroom, hactor⟩ : ∃ e ∈ (thrice 9).begun, e.2.action = .blockActor ∧
        e.2.selection.scope.room = (text 31).scope.room ∧
        e.2.selection.visibleActorId = some 20 := by decide
    have hrecorded : ∀ r ∈ (thrice 9).actions.rows, r.phase = .actorBlocked ∧
        r.selection.visibleActorId = some 20 := by decide
    obtain ⟨r, hr, -, hundone⟩ := hnever.reblocked _ (thrice 10) ⟨text 31, 2⟩ none none 101 e 20
      (thrice_reachable 9) rfl rfl he hblock hroom hactor
    obtain ⟨hphase, hvisible⟩ := hrecorded r hr
    rcases hundone with hanswered | ⟨l, hl, -, hunlisted, -⟩ | herased
    · simp [hphase] at hanswered
    · exact ⟨l, hl, hunlisted⟩
    · simp [hvisible] at herased
  · obtain ⟨e, he, hid, hroom, hmessage⟩ : ∃ e ∈ (thrice 12).begun, e.2.id = 101 ∧
        e.2.selection.scope.room = (text 31).scope.room ∧ e.2.selection.messageId = 31 := by decide
    have herased : ∀ r ∈ (thrice 12).actions.rows, r.id = 101 →
        r.selection.contentKind = "TOMBSTONE" ∧ r.selection.scope.room = (text 31).scope.room ∧
        r.selection.messageId = 31 := by decide
    obtain ⟨r, hr, hrid, -⟩ := hnever.excluded _ (thrice 13) ⟨text 31, 4⟩ .blockActor none none 102 e
      (thrice_reachable 12) rfl he hroom hmessage
    obtain ⟨htombstone, hrroom, hrmessage⟩ := herased r hr (hrid.trans hid)
    obtain ⟨hrblock, -⟩ := hnever.closed _ [] _ (thrice 13) r ⟨text 31, 4⟩ .blockActor none none 102
      (thrice_reachable 12) hr (.inr htombstone) (.nil _) rfl hrroom hrmessage
    exact ⟨r, hr, hrid.trans hid, htombstone, hrblock⟩

end Rogichat.MessageActions
