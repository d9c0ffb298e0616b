import Rogichat.Lib.Desk
import Rogichat.MessageActions.Model

/-!
# What the two owners do to the journals

A command of the actions' owner adds one record or rewrites records in place, and a rewritten
record keeps its id, its action and its message for good: it is `Kept`. Only a complete list of
the blocked actors changes what a list has shown of a record.

* **`begin_ok`** — what a begun action has passed.
* **`finish_cases`** — an answer rewrites an unresolved record, or nothing.
* **`accept_cases`** — a page is dropped, refused for a change of the journal, taken in, or the
  last one.
-/

namespace Rogichat.MessageActions

open Lib

/-! ## Records -/

@[simp] theorem ActionSelection.tombstone_tombstone (s : ActionSelection) :
    s.tombstone.tombstone = s.tombstone := rfl

/-- What every later version of a record keeps. -/
structure ActionRecord.Kept (r r' : ActionRecord) : Prop where
  id : r'.id = r.id
  action : r'.action = r.action
  selection : r'.selection = r.selection ∨ r'.selection = r.selection.tombstone
  resolved : r.phase ≠ .unknown → r'.phase ≠ .unknown
  blocked : r.phase = .blocked → r'.phase = .blocked

namespace ActionRecord.Kept

variable {r r' r'' : ActionRecord}

theorem refl (r : ActionRecord) : r.Kept r := ⟨rfl, rfl, .inl rfl, fun h => h, fun h => h⟩

theorem trans (h : r.Kept r') (h' : r'.Kept r'') : r.Kept r'' where
  id := h'.id.trans h.id
  action := h'.action.trans h.action
  selection := by
    rcases h'.selection with hs' | hs' <;> rcases h.selection with hs | hs <;> simp [hs', hs]
  resolved hr := h'.resolved (h.resolved hr)
  blocked hr := h'.blocked (h.blocked hr)

/-- A kept record stays in its scope. -/
theorem scope (h : r.Kept r') : r'.selection.scope = r.selection.scope := by
  rcases h.selection with hs | hs <;> rw [hs]
  rfl

/-- A kept record stays with its message. -/
theorem messageId (h : r.Kept r') : r'.selection.messageId = r.selection.messageId := by
  rcases h.selection with hs | hs <;> rw [hs]
  rfl

/-- A record whose message is deleted stays so. -/
theorem tombstone (h : r.Kept r') (hr : r.selection.contentKind = "TOMBSTONE") :
    r'.selection.contentKind = "TOMBSTONE" := by
  rcases h.selection with hs | hs <;> rw [hs]
  · exact hr
  · rfl

/-- A later version shows no other actor. -/
theorem visibleActorId (h : r.Kept r') {actor : Uuid}
    (hr : r'.selection.visibleActorId = some actor) : r.selection.visibleActorId = some actor := by
  rcases h.selection with hs | hs <;> rw [hs] at hr
  · exact hr
  · cases hr

end ActionRecord.Kept

/-- A record as the actions' owner rewrites it. -/
structure ActionRecord.Settled (r r' : ActionRecord) : Prop extends r.Kept r' where
  observed : r'.observedBlocked = r.observedBlocked

theorem ActionRecord.Settled.refl (r : ActionRecord) : r.Settled r := ⟨.refl r, rfl⟩

theorem ActionRecord.mem_keys {r : ActionRecord} {k : Uuid} : k ∈ Row.keys r ↔ k = r.id :=
  List.mem_singleton

/-- Records have distinct ids. -/
theorem ActionRecord.eq_of_id {t : Table ActionRecord} {r r' : ActionRecord} (hr : r ∈ t)
    (hr' : r' ∈ t) (hid : r.id = r'.id) : r = r' :=
  Table.eq_of_key hr hr' (mem_keys.mpr rfl) (mem_keys.mpr hid)

theorem ActionRecord.clash_iff {r r' : ActionRecord} : Row.Clash r r' ↔ r.id = r'.id := by
  constructor
  · intro h
    obtain ⟨k, hk, hk'⟩ := h
    exact (mem_keys.mp hk).symm.trans (mem_keys.mp hk')
  · intro h
    exact ⟨r.id, mem_keys.mpr rfl, mem_keys.mpr h⟩

/-- A record stays where one with another id is put. -/
theorem ActionRecord.mem_put_of_ne {t : Table ActionRecord} {r r' : ActionRecord} (hr : r ∈ t)
    (hne : r.id ≠ r'.id) : r ∈ t.put r' :=
  Table.mem_put.mpr (.inl ⟨hr, fun h => hne (clash_iff.mp h)⟩)

/-! ## Actions -/

/-- What the library's desk knows of a permit. -/
def ActionPermit.ticket (p : ActionPermit) : Ticket := ⟨p.record.id, p.generation, p.consumed⟩

namespace MessageActionState

variable {s s' : MessageActionState} {journal journal' : Table ActionRecord}

/-- What a begun action has passed, and what it leaves. -/
structure Begins (s : MessageActionState) (journal : Table ActionRecord) (token : ActionViewToken)
    (action : MessageAction) (id : Uuid) (journal' : Table ActionRecord)
    (s' : MessageActionState) (permit : ActionPermit) : Prop where
  admits : s.Admits token.selection token.generation
  idle : s.pending = none
  free : ∀ r ∈ journal, r.conflicts token.selection action = false
  actor : action = .blockActor → token.selection.visibleActorId ≠ none
  recordId : permit.record.id = id
  selection : permit.record.selection = token.selection
  action : permit.record.action = action
  phase : permit.record.phase = .unknown
  observed : permit.record.observedBlocked = none
  unconsumed : permit.consumed = false
  generation : permit.generation = s.generation
  journal : journal' = journal.put permit.record
  owner : s' = { s with pending := some id, presentation := some permit.record }

/-- A new record, and the permit to send it, when nothing conflicts. -/
theorem begin_ok {token : ActionViewToken} {action : MessageAction} {emoji : Option String}
    {reportReason : Option ReportReason} {id : Uuid} {permit : ActionPermit}
    (h : s.begin journal token action emoji reportReason id = .ok (journal', s', permit)) :
    Begins s journal token action id journal' s' permit := by
  simp only [begin, bind_ok, ensure_ok, pure_ok, Prod.mk.injEq] at h
  obtain ⟨-, ⟨hadmits, hidle⟩, -, havailable, -, hfree, -, -, -, -, rfl, rfl, rfl⟩ := h
  refine ⟨hadmits, hidle, ?_, ?_, rfl, rfl, rfl, rfl, rfl, rfl, rfl, rfl, rfl⟩
  · intro r hr
    rw [blockedActions, if_neg (not_not.mpr hadmits), List.mem_filter] at hfree
    have hentry : action ∈ MessageAction.entries := by cases action <;> simp [MessageAction.entries]
    have hnone : ¬(journal.rows.any fun r => r.conflicts token.selection action) = true :=
      fun hany => hfree ⟨hentry, hany⟩
    rw [Bool.not_eq_true, List.any_eq_false] at hnone
    simpa using hnone r hr
  · intro hblock
    subst hblock
    exact havailable.2.1

/-- A claimed permit was not consumed before. -/
theorem claim_ok {permit permit' : ActionPermit} (h : s.claim permit = .ok permit') :
    permit.consumed = false ∧ permit.generation = s.generation ∧
      permit' = { permit with consumed := true } := by
  simp only [claim, bind_ok, ensure_ok, pure_ok] at h
  obtain ⟨-, ⟨hfresh, hgeneration, -⟩, rfl⟩ := h
  exact ⟨hfresh, hgeneration.symm, rfl⟩

/-- A result resolves an unresolved record, or leaves it as it is. -/
theorem next_settled {original record : ActionRecord} {result : ActionResult}
    (hphase : original.phase = .unknown) (h : next original result = some record) :
    original.Settled record := by
  have hresolved : ∀ {P : Prop}, original.phase ≠ .unknown → P := fun hne => absurd hphase hne
  have hblocked : ∀ {P : Prop}, original.phase = .blocked → P := by
    intro P hb
    rw [hphase] at hb
    cases hb
  cases result with
  | deleted requestId =>
    simp only [next] at h
    split at h
    · cases h
    · cases h
      exact ⟨⟨rfl, rfl, .inr rfl, hresolved, hblocked⟩, rfl⟩
  | publication value =>
    simp only [next] at h
    split at h
    · cases h
    · cases h
      exact ⟨⟨rfl, rfl, .inl rfl, hresolved, hblocked⟩, rfl⟩
  | reported reportId =>
    simp only [next] at h
    split at h
    · cases h
    · cases h
      exact ⟨⟨rfl, rfl, .inl rfl, hresolved, hblocked⟩, rfl⟩
  | actorBlocked actorId =>
    simp only [next] at h
    split at h
    · cases h
    · cases h
      exact ⟨⟨rfl, rfl, .inl rfl, hresolved, hblocked⟩, rfl⟩
  | reacted =>
    simp only [next] at h
    split at h
    · cases h
    · cases h
      exact ⟨⟨rfl, rfl, .inl rfl, hresolved, hblocked⟩, rfl⟩
  | rejected =>
    cases h
    exact ⟨⟨rfl, rfl, .inl rfl, hresolved, hblocked⟩, rfl⟩
  | unknown =>
    cases h
    exact .refl _

/-- An answer rewrites the unresolved record of its permit, or nothing. -/
theorem finish_cases (s : MessageActionState) (journal : Table ActionRecord)
    (permit : ActionPermit) (result : ActionResult) :
    ((s.finish journal permit result).1 = journal ∨
      ∃ original ∈ journal, ∃ record, original.phase = .unknown ∧ original.Settled record ∧
        (s.finish journal permit result).1 = journal.put record) ∧
    (s.finish journal permit result).2.1.generation = s.generation := by
  unfold finish
  split
  · exact ⟨.inl rfl, rfl⟩
  rename_i original hfind
  split
  · exact ⟨.inl rfl, rfl⟩
  rename_i hphase
  rw [not_not] at hphase
  split
  · exact ⟨.inl rfl, rfl⟩
  rename_i record hnext
  have hrewrite : ∃ original ∈ journal, ∃ r, original.phase = .unknown ∧
      original.Settled r ∧ journal.put record = journal.put r :=
    ⟨original, Table.mem_of_find? hfind, record, hphase, next_settled hphase hnext, rfl⟩
  split
  · exact ⟨.inr hrewrite, rfl⟩
  · exact ⟨.inr hrewrite, rfl⟩

/-- An answer only settles records. -/
theorem finish_carried (s : MessageActionState) (journal : Table ActionRecord)
    (permit : ActionPermit) (result : ActionResult) :
    Table.Carried ActionRecord.Settled journal (s.finish journal permit result).1 := by
  rcases (finish_cases s journal permit result).1 with h | ⟨r, hr, r', -, hsettled, h⟩ <;> rw [h]
  · exact .refl ActionRecord.Settled.refl journal
  · exact .put ActionRecord.Settled.refl hr hsettled (congrArg (fun id => [id]) hsettled.id)

/-- A resolved record is not touched by an answer. -/
theorem mem_finish {permit : ActionPermit} {result : ActionResult} {r : ActionRecord}
    (hr : r ∈ journal) (hphase : r.phase ≠ .unknown) :
    r ∈ (s.finish journal permit result).1 := by
  rcases (finish_cases s journal permit result).1 with
    h | ⟨original, horiginal, record, hunknown, hsettled, h⟩ <;> rw [h]
  · exact hr
  · refine ActionRecord.mem_put_of_ne hr ?_
    intro hid
    -- the rewritten record is unresolved, this one is not
    obtain rfl := ActionRecord.eq_of_id hr horiginal (hid.trans hsettled.id)
    exact hphase hunknown

theorem keeps_erased : Table.Keeps erased := ⟨fun _ => rfl⟩

/-- Erasing what a record shows settles nothing else. -/
theorem erased_settled (r : ActionRecord) : r.Settled (erased r) :=
  ⟨⟨rfl, rfl, .inr rfl, id, id⟩, rfl⟩

theorem deleted_carried (s : MessageActionState) (journal : Table ActionRecord)
    (scope : ActionScope) (messageId : Uuid) :
    Table.Carried ActionRecord.Settled journal (s.deleted journal scope messageId).1 := by
  have hall := Table.Carried.putAll_map (t := journal) (p := fun r =>
    r.selection.scope.partition = scope.partition ∧ r.selection.messageId = messageId)
    keeps_erased ActionRecord.Settled.refl fun r _ _ => erased_settled r
  unfold deleted
  split <;> exact hall

/-- A deletion leaves the selection, or selects nothing. -/
theorem deleted_generation (s : MessageActionState) (journal : Table ActionRecord)
    (scope : ActionScope) (messageId : Uuid) :
    (s.deleted journal scope messageId).2.generation = s.generation ∨
      (s.deleted journal scope messageId).2.generation = s.generation + 1 := by
  unfold deleted
  split
  · exact .inr rfl
  · exact .inl rfl

theorem reportStatus_carried (s : MessageActionState) (journal : Table ActionRecord)
    (token : ActionViewToken) (recordId reportId : Uuid) :
    Table.Carried ActionRecord.Settled journal
      (s.reportStatus journal token recordId reportId).1 := by
  unfold reportStatus
  split
  · exact .refl ActionRecord.Settled.refl journal
  split
  · exact .refl ActionRecord.Settled.refl journal
  rename_i old hfind
  split
  · exact .refl ActionRecord.Settled.refl journal
  rename_i hphase
  rw [not_not] at hphase
  refine .put ActionRecord.Settled.refl (Table.mem_of_find? hfind) ?_ rfl
  refine ⟨⟨rfl, rfl, .inl rfl, fun hne => absurd hphase hne, ?_⟩, rfl⟩
  intro hb
  rw [hphase] at hb
  cases hb

theorem reportStatus_generation (s : MessageActionState) (journal : Table ActionRecord)
    (token : ActionViewToken) (recordId reportId : Uuid) :
    (s.reportStatus journal token recordId reportId).2.1.generation = s.generation := by
  unfold reportStatus
  split
  · rfl
  split
  · rfl
  split <;> rfl

theorem publicationStatus_carried (s : MessageActionState) (journal : Table ActionRecord)
    (token : ActionViewToken) (recordId : Uuid) (result : Publication) :
    Table.Carried ActionRecord.Settled journal
      (s.publicationStatus journal token recordId result).1 := by
  unfold publicationStatus
  split
  · exact .refl ActionRecord.Settled.refl journal
  split
  · exact .refl ActionRecord.Settled.refl journal
  rename_i old hfind
  split
  · exact .refl ActionRecord.Settled.refl journal
  rename_i hold
  split
  · exact .refl ActionRecord.Settled.refl journal
  have hphase : old.phase = .preparing ∨ old.phase = .published := by
    by_contra hne
    refine hold (.inl ?_)
    simpa using hne
  refine .put ActionRecord.Settled.refl (Table.mem_of_find? hfind) ?_ rfl
  refine ⟨⟨rfl, rfl, .inl rfl, ?_, ?_⟩, rfl⟩
  · intro _ hunknown
    have hknown := result.known
    rw [show result.status = .unknown from hunknown] at hknown
    simp at hknown
  · intro hb
    rcases hphase with hp | hp <;> rw [hp] at hb <;> cases hb

theorem publicationStatus_generation (s : MessageActionState) (journal : Table ActionRecord)
    (token : ActionViewToken) (recordId : Uuid) (result : Publication) :
    (s.publicationStatus journal token recordId result).2.1.generation = s.generation := by
  unfold publicationStatus
  split
  · rfl
  split
  · rfl
  split
  · rfl
  split <;> rfl

end MessageActionState

/-! ## Blocked actors -/

/-- What the library's desk knows of an unblock permit. -/
def UnblockPermit.ticket (p : UnblockPermit) : Ticket :=
  ⟨p.record.id, p.token.generation, p.used⟩

/-- What every later version of an unblock keeps. -/
structure UnblockRecord.Kept (r r' : UnblockRecord) : Prop where
  id : r'.id = r.id
  scope : r'.scope = r.scope
  actorId : r'.actorId = r.actorId
  resolved : r.outcome ≠ .unknown → r'.outcome ≠ .unknown

theorem UnblockRecord.Kept.refl (r : UnblockRecord) : r.Kept r :=
  ⟨rfl, rfl, rfl, fun h => h⟩

theorem UnblockRecord.mem_keys {r : UnblockRecord} {k : Uuid} : k ∈ Row.keys r ↔ k = r.id :=
  List.mem_singleton

/-- Unblock records have distinct ids. -/
theorem UnblockRecord.eq_of_id {t : Table UnblockRecord} {r r' : UnblockRecord} (hr : r ∈ t)
    (hr' : r' ∈ t) (hid : r.id = r'.id) : r = r' :=
  Table.eq_of_key hr hr' (mem_keys.mpr rfl) (mem_keys.mpr hid)

theorem UnblockRecord.clash_iff {r r' : UnblockRecord} : Row.Clash r r' ↔ r.id = r'.id := by
  constructor
  · intro h
    obtain ⟨k, hk, hk'⟩ := h
    exact (mem_keys.mp hk).symm.trans (mem_keys.mp hk')
  · intro h
    exact ⟨r.id, mem_keys.mpr rfl, mem_keys.mpr h⟩

/-- An unblock stays where one with another id is put. -/
theorem UnblockRecord.mem_put_of_ne {t : Table UnblockRecord} {r r' : UnblockRecord}
    (hr : r ∈ t) (hne : r.id ≠ r'.id) : r ∈ t.put r' :=
  Table.mem_put.mpr (.inl ⟨hr, fun h => hne (clash_iff.mp h)⟩)

namespace ActorBlocksState

variable {s s' : ActorBlocksState} {unblocks unblocks' : Table UnblockRecord}
  {actions actions' : Table ActionRecord}

/-- The block records of a room. -/
theorem mem_actorRecords {room : Option (Environment × Uuid × Uuid)} {r : ActionRecord} :
    r ∈ actorRecords actions room ↔
      r ∈ actions ∧ r.action = .blockActor ∧ some r.selection.scope.room = room := by
  rw [actorRecords, List.mem_insertionSort, Table.mem_select]

theorem keeps_observe (actors : List Uuid) : Table.Keeps (observe actors) := ⟨fun _ => rfl⟩

theorem keeps_observeBlock (actors : List Uuid) : Table.Keeps (observeBlock actors) :=
  ⟨fun _ => rfl⟩

/-- What a page leaves that the view takes in. -/
inductive Accepts (s : ActorBlocksState) (unblocks : Table UnblockRecord)
    (actions : Table ActionRecord) (token : BlockPageToken) (page : BlockPage) :
    Table UnblockRecord → Table ActionRecord → ActorBlocksState → Option BlockScope → Prop
  /-- A block was begun or answered while the page was read. -/
  | drifted : Accepts s unblocks actions token page unblocks actions
      (s.paged token page).drifted none
  | more : (s.paged token page).currentActorRecords actions = s.baseline → page.next ≠ none →
      Accepts s unblocks actions token page unblocks actions (s.paged token page) none
  | last : (s.paged token page).currentActorRecords actions = s.baseline → page.next = none →
      Accepts s unblocks actions token page
        (unblocks.putAll ((unblocks.select fun r => r.scope.partition = token.view.scope.partition ∧
          r.outcome = .unknown).map (observe ((s.paged token page).blocks.map (·.actorId)))))
        (actions.putAll ((actions.select fun r => r.action = .blockActor ∧
          r.selection.scope.room = token.view.scope.partition).map
            (observeBlock ((s.paged token page).blocks.map (·.actorId)))))
        (s.paged token page) (some token.view.scope)

/-- A page is stale, goes on, finds the journal moved, or completes the list. -/
theorem accept_cases {token : BlockPageToken} {page : BlockPage} {reset : Option BlockScope}
    (h : s.accept unblocks actions token page = .ok (unblocks', actions', s', reset)) :
    (¬s.Takes token ∧ unblocks' = unblocks ∧ actions' = actions ∧ s' = s ∧ reset = none) ∨
      s.Takes token ∧ Accepts s unblocks actions token page unblocks' actions' s' reset := by
  unfold accept at h
  split at h
  · rename_i htakes
    simp only [pure_ok, Prod.mk.injEq] at h
    obtain ⟨rfl, rfl, rfl, rfl⟩ := h
    exact .inl ⟨htakes, rfl, rfl, rfl, rfl⟩
  rename_i htakes
  refine .inr ⟨not_not.mp htakes, ?_⟩
  simp only [bind_ok] at h
  obtain ⟨-, -, h⟩ := h
  split at h
  · simp only [pure_ok, Prod.mk.injEq] at h
    obtain ⟨rfl, rfl, rfl, rfl⟩ := h
    exact .drifted
  rename_i hsame
  rw [not_not] at hsame
  split at h
  · rename_i hopen
    simp only [pure_ok, Prod.mk.injEq] at h
    obtain ⟨rfl, rfl, rfl, rfl⟩ := h
    refine .more hsame ?_
    simpa [paged] using hopen
  · rename_i hopen
    simp only [pure_ok, Prod.mk.injEq] at h
    obtain ⟨rfl, rfl, rfl, rfl⟩ := h
    refine .last hsame ?_
    simpa [paged] using hopen

/-- A list may settle an unblock's outcome, nothing else. -/
theorem observe_kept (actors : List Uuid) (r : UnblockRecord) : r.Kept (observe actors r) :=
  ⟨rfl, rfl, rfl, id⟩

/-- A list leaves a block record's outcome alone. -/
theorem observeBlock_kept (actors : List Uuid) (r : ActionRecord) :
    r.Kept (observeBlock actors r) := ⟨rfl, rfl, .inl rfl, id, id⟩

/-- An unblock is begun on a complete list when none is pending. -/
theorem unblock_ok {token : BlockViewToken} {actorId id : Uuid} {permit : UnblockPermit}
    (h : s.unblock unblocks token actorId id = .ok (unblocks', s', permit)) :
    s.complete = true ∧ s.pending = none ∧ permit.record.id = id ∧
      permit.ticket = ⟨id, s.generation + 1, false⟩ ∧ unblocks' = unblocks.put permit.record ∧
      s' = { s with
        lastOutcome := some .unknown
        generation := s.generation + 1
        complete := false
        pagePending := none
        pending := some id } := by
  simp only [unblock, bind_ok, ensure_ok, pure_ok, Prod.mk.injEq] at h
  obtain ⟨-, ⟨-, hcomplete, hidle, -⟩, rfl, rfl, rfl⟩ := h
  exact ⟨hcomplete, hidle, rfl, rfl, rfl, rfl⟩

/-- A claimed unblock permit was not used before. -/
theorem claim_ok {permit permit' : UnblockPermit} (h : s.claim permit = .ok permit') :
    permit.used = false ∧ permit.token.generation = s.generation ∧
      permit' = { permit with used := true } := by
  simp only [claim, bind_ok, ensure_ok, pure_ok] at h
  obtain ⟨-, ⟨hunused, ⟨-, hgeneration⟩, -⟩, rfl⟩ := h
  exact ⟨hunused, hgeneration, rfl⟩

/-- An answer resolves the unresolved unblock of its permit, or nothing. -/
theorem finish_cases (s : ActorBlocksState) (unblocks : Table UnblockRecord)
    (permit : UnblockPermit) (outcome : UnblockOutcome) :
    (s.finish unblocks permit outcome).1 = unblocks ∨
      ∃ original ∈ unblocks, original.outcome = .unknown ∧
        (s.finish unblocks permit outcome).1 = unblocks.put { original with outcome } := by
  unfold finish
  split
  · exact .inl rfl
  rename_i original hfind
  split
  · exact .inl rfl
  rename_i houtcome
  refine .inr ⟨original, Table.mem_of_find? hfind, not_not.mp houtcome, ?_⟩
  split
  · rfl
  split <;> rfl

/-- An answer only settles unblock records. -/
theorem finish_carried (s : ActorBlocksState) (unblocks : Table UnblockRecord)
    (permit : UnblockPermit) (outcome : UnblockOutcome) :
    Table.Carried UnblockRecord.Kept unblocks (s.finish unblocks permit outcome).1 := by
  rcases finish_cases s unblocks permit outcome with h | ⟨r, hr, hunknown, h⟩ <;> rw [h]
  · exact .refl UnblockRecord.Kept.refl unblocks
  · exact .put UnblockRecord.Kept.refl hr ⟨rfl, rfl, rfl, fun hne => absurd hunknown hne⟩ rfl

/-- A resolved unblock is not touched by an answer. -/
theorem mem_finish {permit : UnblockPermit} {outcome : UnblockOutcome} {r : UnblockRecord}
    (hr : r ∈ unblocks) (houtcome : r.outcome ≠ .unknown) :
    r ∈ (s.finish unblocks permit outcome).1 := by
  rcases finish_cases s unblocks permit outcome with h | ⟨original, horiginal, hunknown, h⟩ <;>
    rw [h]
  · exact hr
  · refine UnblockRecord.mem_put_of_ne hr ?_
    intro hid
    obtain rfl := UnblockRecord.eq_of_id hr horiginal hid
    exact houtcome hunknown

end ActorBlocksState

end Rogichat.MessageActions
