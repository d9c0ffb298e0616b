import Rogichat.Web.Messages
import Rogichat.Lib.Trace

/-!
# The timeline between two snapshots

What `ChatController` does to its messages and tombstones between the snapshot that began
the list and the next one: `synchronize` applies a page of events, and re-reads what is left
when the page removed anything; `loadOlder` merges a page of history; `reauthorizeComposer`
merges quoted messages right after the snapshot. Each is one command, with what the server
answered to it. A command that fails clears the controller, which ends the list, so it makes
no step; so does an abort.

* **`Slot.event`** — a page as one id sees it.
* **`apply_acts`** — the loop over a page treats every id on its own.
-/

namespace Rogichat.Web

open Lib

variable {B : Type}

/-- A deletion the controller remembers. -/
structure Tombstone where
  version : Nat
  createdAt : Option String
  deriving DecidableEq

inductive MessageEvent (B : Type)
  | upsert (message : ServerMessage B)
  | deleted (messageId : String) (version : Nat)

/-- The message an event is about. -/
def MessageEvent.id : MessageEvent B → String
  | .upsert message => message.id
  | .deleted messageId _ => messageId

/-! ## The loop over a page -/

/-- What the loop carries: `merged`, `tombstones` and `removed`. -/
structure Pass (B : Type) where
  messages : List (ServerMessage B)
  tombstones : String → Option Tombstone
  removed : Bool

/-- A deletion, against what is held and what was deleted before: it is applied unless
either is newer. -/
def Deletes (prior : Option (ServerMessage B)) (tombstone : Option Tombstone) (version : Nat) :
    Prop :=
  ((prior.map ServerMessage.version).or (tombstone.map Tombstone.version)).getD 0 ≤ version

instance (prior : Option (ServerMessage B)) (tombstone : Option Tombstone) (version : Nat) :
    Decidable (Deletes prior tombstone version) :=
  inferInstanceAs (Decidable (_ ≤ _))

/-- The tombstone an applied deletion leaves. -/
def buried (prior : Option (ServerMessage B)) (tombstone : Option Tombstone) (version : Nat) :
    Tombstone :=
  { version := version
    createdAt := (prior.map ServerMessage.createdAt).or (tombstone.bind Tombstone.createdAt) }

/-- A round of the loop. -/
def Pass.apply (p : Pass B) : MessageEvent B → Except ChatError (Pass B)
  | .deleted messageId version =>
    let prior := held p.messages messageId
    let tombstone := p.tombstones messageId
    if Deletes prior tombstone version then
      .ok { messages := p.messages.filter fun m => m.id ≠ messageId
            tombstones :=
              Function.update p.tombstones messageId (some (buried prior tombstone version))
            removed := p.removed || tombstone.isNone }
    else .ok p
  | .upsert message =>
    match p.tombstones message.id with
    | some prior => do
      ensure (∀ t ∈ prior.createdAt, t = message.createdAt) .immutableDisplayKey
      return p
    | none => do
      let merged ← mergeMessages p.messages [message]
      return { p with messages := merged }

/-! ## Re-reads after a removal -/

/-- What a `GET` of a message is answered with. -/
inductive Answer (B : Type)
  | found (value : ServerMessage B)
  /-- 404 -/
  | missing
  /-- Any other status, an answer that does not parse, or none. -/
  | failed

/-- The re-read of a message, with the id it was sent for. -/
def reread (item : ServerMessage B) (answer : String × Answer B) :
    Except ChatError (Option (ServerMessage B)) := do
  ensure (answer.1 = item.id) .requestFailed
  match answer.2 with
  | .found value =>
    ensure (value.id = item.id ∧ value.createdAt = item.createdAt ∧ item.version ≤ value.version)
      .invalidResponse
    return some value
  | .missing => return none
  | .failed => .error .requestFailed

/-- The rows that are left, in the order of the messages. -/
def rereads : List (ServerMessage B) → List (String × Answer B) →
    Except ChatError (List (ServerMessage B))
  | [], [] => .ok []
  | item :: items, answer :: answers => do
    let row ← reread item answer
    let rows ← rereads items answers
    return row.toList ++ rows
  | _, _ => .error .requestFailed

/-- The list a page leaves: what its loop left, re-read if it removed anything. -/
def Pass.finish (p : Pass B) (answers : List (String × Answer B)) :
    Except ChatError (List (ServerMessage B)) :=
  if p.removed then do
    let refreshed ← rereads p.messages answers
    mergeMessages [] (refreshed.filter fun m => (p.tombstones m.id).isNone)
  else if answers = [] then .ok p.messages
  else .error .requestFailed

/-! ## Commands -/

/-- The controller's list. `fresh` says that it is still the snapshot's, with the quoted
messages that were read to it. -/
structure Timeline (B : Type) where
  messages : List (ServerMessage B)
  tombstones : String → Option Tombstone
  fresh : Bool

/-- What the client reads, and what it is told. -/
inductive Command (B : Type)
  /-- `reauthorizeComposer` reads a quoted message. -/
  | quote (value : ServerMessage B)
  /-- A page of events, with the answers to the re-reads it leads to. -/
  | events (page : List (MessageEvent B)) (answers : List (String × Answer B))
  /-- A page of history. -/
  | history (rows : List (ServerMessage B))

/-- The rows of a history page that were not deleted. -/
def undeleted (tombstones : String → Option Tombstone) :
    List (ServerMessage B) → Except ChatError (List (ServerMessage B))
  | [] => .ok []
  | item :: rows =>
    match tombstones item.id with
    | some deleted => do
      ensure (∀ t ∈ deleted.createdAt, t = item.createdAt) .immutableDisplayKey
      undeleted tombstones rows
    | none => do
      let rest ← undeleted tombstones rows
      return item :: rest

/-- The loop over a page, from the list as it is. -/
def Timeline.pass (s : Timeline B) (page : List (MessageEvent B)) : Except ChatError (Pass B) :=
  page.foldlM Pass.apply { messages := s.messages, tombstones := s.tombstones, removed := false }

/-- One command; one that fails clears the list. -/
def exec : Command B → Timeline B → Except ChatError (Timeline B)
  | .quote value, s => do
    ensure (s.fresh = true) .requestFailed
    let messages ← mergeMessages s.messages [value]
    return { s with messages := messages }
  | .events page answers, s => do
    let p ← s.pass page
    let messages ← p.finish answers
    return { messages := messages, tombstones := p.tombstones, fresh := false }
  | .history rows, s => do
    let incoming ← undeleted s.tombstones rows
    let messages ← mergeMessages s.messages incoming
    return { s with messages := messages, fresh := false }

/-- The list from one snapshot to the next. It begins with the snapshot's messages in display
order, and with the tombstones of the list before where the controller kept them. -/
def timeline (B : Type) : System (Timeline B) (Command B) where
  init s := Ordered s.messages ∧ s.fresh = true
  step c s t := exec c s = .ok t

/-! ## What a page is to one id -/

/-- What is held of an id, and what is remembered of its deletion. -/
structure Slot (B : Type) where
  held : Option (ServerMessage B)
  gone : Option Tombstone

/-- A round of the loop, for the id it concerns. -/
def Slot.event (s : Slot B) : MessageEvent B → Except ChatError (Slot B)
  | .deleted _ version =>
    if Deletes s.held s.gone version then
      .ok { held := none, gone := some (buried s.held s.gone version) }
    else .ok s
  | .upsert message =>
    match s.gone with
    | some prior => do
      ensure (∀ t ∈ prior.createdAt, t = message.createdAt) .immutableDisplayKey
      return s
    | none => do
      let kept ← take s.held message
      return { s with held := kept }

/-- What a pass knows of an id. -/
def Pass.slot (p : Pass B) (id : String) : Slot B := ⟨held p.messages id, p.tombstones id⟩

theorem held_filter (ms : List (ServerMessage B)) (id k : String) :
    held (ms.filter fun m => m.id ≠ id) k = if k = id then none else held ms k := by
  by_cases hk : k = id
  · rw [if_pos hk, held, Keyed.at?_eq_none]
    intro m hm heq
    obtain ⟨-, hne⟩ := List.mem_filter.mp hm
    rw [decide_eq_true_eq] at hne
    exact hne (heq.trans hk)
  · rw [if_neg hk, held, held]
    induction ms with
    | nil => rfl
    | cons m ms ih =>
      by_cases hm : m.id = id
      · have hmk : m.id ≠ k := fun heq => hk (heq.symm.trans hm)
        rw [List.filter_cons_of_neg (by simpa using hm), Keyed.at?_cons, if_neg hmk, ih]
      · rw [List.filter_cons_of_pos (by simpa using hm), Keyed.at?_cons, Keyed.at?_cons, ih]

theorem Ordered.filter {ms : List (ServerMessage B)} (h : Ordered ms)
    (p : ServerMessage B → Bool) : Ordered (ms.filter p) where
  ids := h.ids.sublist (List.filter_sublist.map _)
  sorted := h.sorted.sublist List.filter_sublist

/-- Merging one message. -/
theorem merge_one_iff {ms ns : List (ServerMessage B)} (hms : Ordered ms) {m : ServerMessage B} :
    mergeMessages ms [m] = .ok ns ↔ Ordered ns ∧ take (held ms m.id) m = .ok (held ns m.id) ∧
      ∀ id, id ≠ m.id → held ns id = held ms id := by
  have hof : ∀ id, ofId id [m] = if m.id = id then [m] else [] := by
    intro id
    by_cases h : m.id = id
    · rw [if_pos h, ofId, List.filter_cons_of_pos (by simpa using h), List.filter_nil]
    · rw [if_neg h, ofId, List.filter_cons_of_neg (by simpa using h), List.filter_nil]
  have hsame : ∀ {o o' : Option (ServerMessage B)}, take o m = .ok o' ↔
      Agree o [m] ∧ o' = [m].foldl keep o := by
    intro o o'
    rw [← takes_iff, List.foldlM_cons, bind_ok]
    simp only [List.foldlM_nil, pure_ok]
    constructor
    · intro h
      exact ⟨o', h, rfl⟩
    · rintro ⟨_, h, heq⟩
      exact heq ▸ h
  rw [merge_iff]
  refine and_congr_right fun _ => ⟨fun h => ⟨?_, ?_⟩, fun h id => ?_⟩
  · have hid := h m.id
    rw [hof, if_pos rfl, hms.entry] at hid
    exact hsame.mpr hid
  · intro id hne
    have hid := (h id).2
    rwa [hof, if_neg (Ne.symm hne), List.foldl_nil, hms.entry] at hid
  · rw [hof, hms.entry]
    by_cases hid : m.id = id
    · subst hid
      rw [if_pos rfl]
      exact hsame.mp h.1
    · rw [if_neg hid, h.2 id (Ne.symm hid), List.foldl_nil]
      refine ⟨?_, rfl⟩
      cases held ms id with
      | none => exact ⟨"", by simp, by simp⟩
      | some p => exact ⟨p.createdAt, by simp, by simp⟩

/-- A round of the loop over a page concerns its event's id. -/
theorem apply_acts : Keyed.Acts (fun p : Pass B => Ordered p.messages) Pass.apply MessageEvent.id
    Pass.slot Slot.event where
  ok := by
    intro p q e hp hstep
    cases e with
    | deleted messageId version =>
      simp only [Pass.apply] at hstep
      -- a deletion newer than what is known, or one that is already known
      by_cases hdeletes : Deletes (held p.messages messageId) (p.tombstones messageId) version
      · rw [if_pos hdeletes] at hstep
        cases hstep
        refine ⟨hp.filter _, ?_, fun id hne => ?_⟩
        · rw [Slot.event, if_pos (by exact hdeletes)]
          simp only [Pass.slot, MessageEvent.id, held_filter, if_true, Function.update_self]
        · replace hne : id ≠ messageId := hne
          simp only [Pass.slot, held_filter, if_neg hne, Function.update_of_ne hne]
      · rw [if_neg hdeletes] at hstep
        cases hstep
        refine ⟨hp, ?_, fun id _ => rfl⟩
        rw [Slot.event, if_neg (by exact hdeletes)]
    | upsert message =>
      simp only [Pass.apply] at hstep
      -- a message that is gone must agree with its tombstone; else it is merged in
      cases hgone : p.tombstones message.id with
      | some prior =>
        simp only [hgone, bind_ok, ensure_ok, pure_ok] at hstep
        obtain ⟨_, hsame, rfl⟩ := hstep
        refine ⟨hp, ?_, fun id _ => rfl⟩
        simp only [Slot.event, Pass.slot, MessageEvent.id, hgone]
        rw [ensure_pos hsame, ok_bind]
        rfl
      | none =>
        simp only [hgone, bind_ok, pure_ok] at hstep
        obtain ⟨merged, hmerge, rfl⟩ := hstep
        obtain ⟨hmerged, htake, hothers⟩ := (merge_one_iff hp).mp hmerge
        refine ⟨hmerged, ?_, fun id hne => ?_⟩
        · simp only [Slot.event, Pass.slot, MessageEvent.id, hgone]
          rw [htake, ok_bind]
          rfl
        · simp only [Pass.slot, hothers id hne]
  total := by
    intro p e slot hp hone
    cases e with
    | deleted messageId version =>
      simp only [Pass.apply]
      by_cases hdeletes : Deletes (held p.messages messageId) (p.tombstones messageId) version
      · exact ⟨_, if_pos hdeletes⟩
      · exact ⟨_, if_neg hdeletes⟩
    | upsert message =>
      simp only [Pass.apply]
      simp only [Slot.event, Pass.slot, MessageEvent.id] at hone
      cases hgone : p.tombstones message.id with
      | some prior =>
        simp only [hgone, bind_ok, ensure_ok] at hone
        obtain ⟨_, hsame, -⟩ := hone
        exact ⟨p, by simp only [ensure_pos hsame, ok_bind]; rfl⟩
      | none =>
        simp only [hgone, bind_ok] at hone
        obtain ⟨kept, htake, -⟩ := hone
        obtain ⟨hsame, rfl⟩ := take_ok.mp htake
        -- the merge can fail at the message's own id only
        have hagree : ∀ id, Agree (entry p.messages id) (ofId id [message]) := by
          intro id
          rw [hp.entry]
          by_cases hid : message.id = id
          · subst hid
            refine ⟨message.createdAt, hsame, ?_⟩
            intro m hm
            obtain rfl := List.mem_singleton.mp (List.mem_of_mem_filter hm)
            rfl
          · rw [ofId, List.filter_cons_of_neg (by simpa using hid), List.filter_nil]
            cases held p.messages id with
            | none => exact ⟨"", by simp, by simp⟩
            | some x => exact ⟨x.createdAt, by simp, by simp⟩
        obtain ⟨merged, hmerged⟩ := merge_total hagree
        exact ⟨{ p with messages := merged }, by simp only [hmerged, ok_bind]; rfl⟩

end Rogichat.Web
