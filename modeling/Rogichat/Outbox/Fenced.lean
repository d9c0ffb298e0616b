import Rogichat.Outbox.Permissions

/-!
# A command is sent with its own content, under its authority, once

* **`exec_tells`** — a step is silent, creates one record, or releases one payload.
* **`released_permitted`** — what a release was checked against.
* **`erased_run`** — an erased payload stays erased until its id is created anew.
* **`outbox_fenced`** — the guarantees, for every reachable state.
-/

namespace Rogichat.Outbox

open Lib

/-! ## What a step tells -/

/-- A step that neither creates a record nor releases one. -/
def Silent (s s' : Sys) : Prop :=
  Kept s.state.records s'.state.records ∧ ∃ events, s'.log = events ++ s.log ∧
    ∀ e ∈ events, (∃ tab, e = .changed tab) ∨ ∃ tab id, e = .notFound tab id

/-- A step that creates a record. -/
def Created (s s' : Sys) : Prop :=
  ∃ tab given kept record, s'.log = .created tab record.clientMessageId given :: s.log ∧
    s'.state.records = kept ++ [record] ∧ Kept s.state.records kept

/-- A step that releases a payload. -/
def Releases (s s' : Sys) : Prop :=
  Kept s.state.records s'.state.records ∧ ∃ tab id payload t now explicitRetry,
    s'.log = .released tab id payload :: s.log ∧ s.tabs tab = some t ∧ t.stopped = false ∧
      t.completing = none ∧ Released t s.state now id explicitRetry payload

/-- Beginning an operation tells nothing. -/
theorem silent_begin (s : Sys) (tab : TabId) (t : Tab) (k : Nat) (op : Op) :
    Silent s (s.begin tab t k op) := by
  unfold Sys.begin
  split <;> exact ⟨.refl _, [], rfl, fun e he => absurd he List.not_mem_nil⟩

theorem silent_beginGrant (s : Sys) (tab : TabId) (t : Tab) (k : Nat)
    (authority : OutboxAuthority) : Silent s (s.beginGrant tab t k authority) := by
  unfold Sys.beginGrant Sys.begin
  split <;> exact ⟨.refl _, [.changed tab], rfl, fun e he => .inl ⟨tab, List.mem_singleton.mp he⟩⟩

theorem silent_suspended (s : Sys) (tab : TabId) (t : Tab) : Silent s (s.suspended tab t) := by
  unfold Sys.suspended
  split
  · exact ⟨.refl _, [], rfl, fun e he => absurd he List.not_mem_nil⟩
  · exact ⟨.refl _, [.changed tab], rfl, fun e he => .inl ⟨tab, List.mem_singleton.mp he⟩⟩

theorem silent_start (s : Sys) (tab : TabId) (t : Tab) (k : Nat) (op : Op) :
    Silent s (s.start tab t k op) := by
  cases op with
  | refresh authority =>
    rw [Sys.start]
    split
    · exact silent_begin s tab _ k _
    · exact silent_beginGrant s tab _ k authority
  | revoke held =>
    obtain ⟨hkept, events, hlog, hevents⟩ := silent_suspended s tab t
    obtain ⟨hkept', events', hlog', hevents'⟩ :=
      silent_begin (s.suspended tab t) tab t.suspend k (.revoke held)
    refine ⟨hkept.trans hkept', events' ++ events, ?_, ?_⟩
    · rw [Sys.start, hlog', hlog, List.append_assoc]
    · intro e he
      rcases List.mem_append.mp he with he | he
      · exact hevents' e he
      · exact hevents e he
  | _ => exact silent_begin s tab t k _

theorem silent_completed (s : Sys) (k : Nat) (p : Pending) (t : Tab) :
    Silent s (s.completed k p t) := by
  unfold Sys.completed
  split
  · exact ⟨.refl _, [], rfl, fun e he => absurd he List.not_mem_nil⟩
  · split
    · exact ⟨.refl _, [], rfl, fun e he => absurd he List.not_mem_nil⟩
    · refine ⟨.refl _, resolveEvents p.tab p.op, rfl, ?_⟩
      intro e he
      unfold resolveEvents at he
      split at he
      · exact .inr ⟨p.tab, _, List.mem_singleton.mp he⟩
      · cases he
  · split
    · exact silent_beginGrant (s.setPending k none) p.tab t k _
    · exact ⟨.refl _, [], rfl, fun e he => absurd he List.not_mem_nil⟩

/-- A transaction tells nothing, that it created a record, or that it released one. -/
theorem ran_tells {nfc : Nfc} {s : Sys} (h : Inv nfc s) {k : Nat} {p : Pending} {t : Tab}
    (ht : s.tabs p.tab = some t) (hruns : t.stopped = false) (hidle : t.completing = none)
    (now later : Time) (commits : Bool) :
    Silent s (s.ran k p t now later commits) ∨ Created s (s.ran k p t now later commits) ∨
      Releases s (s.ran k p t now later commits) := by
  unfold Sys.ran
  split
  · left
    refine ⟨.refl _, _, rfl, ?_⟩
    intro e he
    split at he
    · cases he
    · exact .inl ⟨p.tab, List.mem_singleton.mp he⟩
  · rename_i t' state result hwork
    split
    · rcases p.op.kinds with ⟨roomId, given, payload, hop⟩ | ⟨id, explicitRetry, hop⟩ | hquiet
      · rw [hop] at hwork
        obtain ⟨-, ⟨rfl, hkept⟩ | ⟨rfl, kept, record, hrecords, hkept, hid, -, -⟩⟩ :=
          prepare_ok hwork
        · refine .inl ⟨hkept, _, rfl, ?_⟩
          intro e he
          rw [hop] at he
          cases he
        · refine .inr (.inl ⟨p.tab, given, kept, record, ?_, hrecords, hkept⟩)
          show commitEvents p.tab p.op (.prepared true) ++ s.log = _
          rw [hop, hid]
          rfl
      · rw [hop] at hwork
        obtain ⟨payload, rfl, -, hreleased, hkept⟩ := release_ok hwork
        refine .inr (.inr ⟨hkept, p.tab, id, payload, t, now, explicitRetry, ?_, ht, hruns, hidle,
          hreleased⟩)
        show commitEvents p.tab p.op _ ++ s.log = _
        rw [hop]
        rfl
      · obtain ⟨-, hkept⟩ := quiet_ok h.store.ids hquiet hwork
        refine .inl ⟨hkept, _, rfl, ?_⟩
        intro e he
        rw [commitEvents_quiet hquiet] at he
        cases he
    · exact .inl ⟨.refl _, [], rfl, fun e he => absurd he List.not_mem_nil⟩

/-- A command tells nothing, that it created a record, or that it released one. -/
theorem exec_tells {nfc : Nfc} {c : Command} {s s' : Sys} (h : exec nfc c s = some s')
    (hinv : Inv nfc s) : Silent s s' ∨ Created s s' ∨ Releases s s' := by
  cases c with
  | openTab tab now =>
    obtain ⟨-, grant, rfl⟩ := exec_cases h
    exact .inl ⟨kept_expire s.state now, [], rfl, fun e he => absurd he List.not_mem_nil⟩
  | openLost now =>
    have hlost : s' = { s with state := expire s.state now } := exec_cases h
    subst hlost
    exact .inl ⟨kept_expire s.state now, [], rfl, fun e he => absurd he List.not_mem_nil⟩
  | call tab k call =>
    obtain ⟨t, op, -, -, -, rfl⟩ := exec_cases h
    exact .inl (silent_start s tab t k op)
  | run k now later commits =>
    obtain ⟨p, t, -, ht, -, rfl | ⟨hruns, -, hidle, rfl⟩⟩ := exec_cases h
    · exact .inl ⟨.refl _, [], rfl, fun e he => absurd he List.not_mem_nil⟩
    · exact ran_tells hinv ht hruns hidle now later commits
  | complete k =>
    obtain ⟨p, t, -, -, rfl⟩ := exec_cases h
    exact .inl (silent_completed s k p t)
  | suspend tab =>
    obtain ⟨t, -, rfl⟩ := exec_cases h
    exact .inl (silent_suspended s tab t)
  | close tab =>
    obtain ⟨t, -, rfl | rfl⟩ := exec_cases h
    · exact .inl ⟨.refl _, [], rfl, fun e he => absurd he List.not_mem_nil⟩
    · exact .inl (silent_suspended s tab t)

/-- A step that released a payload had a permission for it. -/
theorem released_permitted {nfc : Nfc} {c : Command} {s s' : Sys} (h : exec nfc c s = some s')
    (hinv : Inv nfc s) {tab : TabId} {id : String} {payload : OutboxPayload}
    (hlog : s'.log = .released tab id payload :: s.log) :
    ∃ t now explicitRetry, s.tabs tab = some t ∧
      Released t s.state now id explicitRetry payload ∧
      (Unspent (Creates tab id) tab id s.log ∨
        explicitRetry = true ∧ Unspent (Misses tab id) tab id s.log) := by
  rcases exec_tells h hinv with ⟨-, events, hevents, hsilent⟩ | ⟨tab', given, _, _, hcreated, -⟩ |
    ⟨-, tab', id', payload', t, now, explicitRetry, hreleases, ht, hruns, hidle, hreleased⟩
  · rw [hlog, ← List.singleton_append, List.append_left_inj] at hevents
    obtain ⟨tab', hc⟩ | ⟨tab', id', hc⟩ := hsilent _ (hevents ▸ List.mem_singleton_self _) <;>
      cases hc
  · rw [hlog] at hcreated
    cases (List.cons.inj hcreated).1
  · rw [hlog] at hreleases
    cases (List.cons.inj hreleases).1
    refine ⟨t, now, explicitRetry, ht, hreleased, ?_⟩
    have hok := hinv.tabs tab t ht
    rcases hreleased.permission with hprepared | ⟨hretry, hmissed⟩
    · left
      rcases hok.prepared hruns id hprepared with hunspent | ⟨k, p, _, _, hk, _⟩
      · exact hunspent
      · rw [hidle] at hk
        cases hk
    · exact .inr ⟨hretry, hok.missed id hmissed⟩

/-- No record of the id has a payload. -/
def Erased (id : String) (s : Sys) : Prop :=
  ∀ r ∈ s.state.records, r.clientMessageId = id → r.payload = none

/-- Unless the id's record was created anew, its payload stayed erased and was not released. -/
def StaysErased (id : String) (s s' : Sys) : Prop :=
  ∃ events, s'.log = events ++ s.log ∧
    ((∀ tab given, .created tab id given ∉ events) →
      Erased id s' ∧ ∀ tab payload, .released tab id payload ∉ events)

/-- An erased record stays erased where records are kept. -/
theorem Erased.kept {id : String} {s : Sys} (h : Erased id s) {records : List OutboxRecord}
    (hkept : Kept s.state.records records) :
    ∀ r ∈ records, r.clientMessageId = id → r.payload = none := by
  intro r hr hid
  obtain ⟨r₀, hr₀, hlater⟩ := hkept.later r hr
  have hnone := h r₀ hr₀ (hlater.id.symm.trans hid)
  rcases hlater.payload with hgone | hsame
  · exact hgone
  · exact hsame.trans hnone

/-- A step brings no erased payload back. -/
theorem erased_step {nfc : Nfc} {c : Command} {s s' : Sys} (h : exec nfc c s = some s')
    (hinv : Inv nfc s) {id : String} (herased : Erased id s) : StaysErased id s s' := by
  rcases exec_tells h hinv with ⟨hkept, events, hevents, hsilent⟩ |
    ⟨tab, given, kept, record, hcreated, hrecords, hkept⟩ |
    ⟨hkept, tab, id', payload, t, now, explicitRetry, hreleases, -, -, -, hreleased⟩
  · refine ⟨events, hevents, fun _ => ⟨herased.kept hkept, fun tab payload hmem => ?_⟩⟩
    obtain ⟨tab', hc⟩ | ⟨tab', id', hc⟩ := hsilent _ hmem <;> cases hc
  · refine ⟨[.created tab record.clientMessageId given], hcreated, fun hno => ⟨?_, ?_⟩⟩
    · intro r hr hid
      rw [hrecords, List.mem_append, List.mem_singleton] at hr
      rcases hr with hr | rfl
      · exact herased.kept hkept r hr hid
      · exact absurd (hid ▸ List.mem_singleton_self _) (hno tab given)
    · intro tab payload hmem
      cases List.mem_singleton.mp hmem
  · refine ⟨[.released tab id' payload], hreleases, fun _ => ⟨herased.kept hkept, ?_⟩⟩
    intro tab' payload' hmem
    cases List.mem_singleton.mp hmem
    -- what was released was stored
    obtain ⟨authority, -, -, r, hr, hid, hpayload, -⟩ := hreleased.authority
    have hnone := herased.kept (kept_expire s.state now) r hr hid
    rw [hpayload] at hnone
    cases hnone

/-- A command only adds to the log. -/
theorem exec_log {nfc : Nfc} {c : Command} {s s' : Sys} (h : exec nfc c s = some s')
    (hinv : Inv nfc s) : ∃ events, s'.log = events ++ s.log := by
  rcases exec_tells h hinv with ⟨-, events, hevents, -⟩ | ⟨tab, given, _, record, hcreated, -⟩ |
    ⟨-, tab, id, payload, _, _, _, hreleases, -⟩
  · exact ⟨events, hevents⟩
  · exact ⟨[.created tab record.clientMessageId given], hcreated⟩
  · exact ⟨[.released tab id payload], hreleases⟩

/-- A run only adds to the log. -/
theorem run_log {nfc : Nfc} {s s' : Sys} {cs : List Command} (hrun : (system nfc).Run s cs s')
    (hs : (system nfc).Reachable s) : ∃ events, s'.log = events ++ s.log := by
  induction hrun with
  | nil => exact ⟨[], rfl⟩
  | cons hstep _ ih =>
    obtain ⟨first, hfirst⟩ := exec_log hstep (reachable_inv hs)
    obtain ⟨events, hevents⟩ := ih (.step hs hstep)
    exact ⟨events ++ first, by rw [hevents, hfirst, List.append_assoc]⟩

/-- A run brings no erased payload back, unless the id is created anew. -/
theorem erased_run {nfc : Nfc} {s s' : Sys} {cs : List Command}
    (hrun : (system nfc).Run s cs s') (hs : (system nfc).Reachable s) {id : String}
    (herased : Erased id s) : StaysErased id s s' := by
  induction hrun with
  | nil => exact ⟨[], rfl, fun _ => ⟨herased, fun _ _ => List.not_mem_nil⟩⟩
  | @cons s u s' c cs hstep hrest ih =>
    obtain ⟨first, hfirst, hsilent⟩ := erased_step hstep (reachable_inv hs) herased
    by_cases hcreated : ∃ tab given, .created tab id given ∈ first
    · -- the id is created anew: nothing is claimed of the new record
      obtain ⟨tab, given, hmem⟩ := hcreated
      obtain ⟨events, hevents⟩ := run_log hrest (.step hs hstep)
      refine ⟨events ++ first, by rw [hevents, hfirst, List.append_assoc], fun hno => ?_⟩
      exact absurd (List.mem_append_right _ hmem) (hno tab given)
    · obtain ⟨herased', hunreleased⟩ := hsilent fun tab given hmem => hcreated ⟨tab, given, hmem⟩
      obtain ⟨events, hevents, hlast⟩ := ih (.step hs hstep) herased'
      refine ⟨events ++ first, by rw [hevents, hfirst, List.append_assoc], fun hno => ?_⟩
      obtain ⟨hgone, hunreleased'⟩ := hlast fun tab given hmem =>
        hno tab given (List.mem_append_left _ hmem)
      refine ⟨hgone, fun tab payload hmem => ?_⟩
      rcases List.mem_append.mp hmem with hmem | hmem
      · exact hunreleased' tab payload hmem
      · exact hunreleased tab payload hmem

/-! ## The guarantees -/

/-- A `beforeSend` of the tab resolves with the payload to be sent. -/
def Sends (nfc : Nfc) (s : Sys) (tab : TabId) (id : String) (sent : OutboxPayload) : Prop :=
  ∃ k p t explicitRetry payload, s.pending k = some p ∧ p.tab = tab ∧ s.tabs tab = some t ∧
    ¬p.Stale t ∧ p.op = .beforeSend id explicitRetry ∧ p.stage = .committed (.payload payload) ∧
    normalizePayload nfc payload = .ok sent

/-- What is sent was released by its transaction; a release is of the payload the
record's `prepare` was given, rebuilt, under the stored authority and an unspent
permission; and what is erased is not sent again. -/
theorem outbox_fenced (nfc : Nfc) {s : Sys} (hs : (system nfc).Reachable s) :
    (∀ tab id sent, Sends nfc s tab id sent → .released tab id sent ∈ s.log) ∧
    (∀ c s' tab id payload, (system nfc).step c s s' →
      s'.log = .released tab id payload :: s.log →
        (∃ creator given, lastCreated id s.log = some (creator, given) ∧
          normalizePayload nfc given = .ok payload) ∧
        ∃ t now explicitRetry, s.tabs tab = some t ∧
          Released t s.state now id explicitRetry payload ∧
          (Unspent (Creates tab id) tab id s.log ∨
            explicitRetry = true ∧ Unspent (Misses tab id) tab id s.log)) ∧
    (∀ cs s', (system nfc).Run s cs s' → ∀ r ∈ s.state.records, r.payload = none →
      ∃ events, s'.log = events ++ s.log ∧
        ((∀ tab given, .created tab r.clientMessageId given ∉ events) →
          (∀ r' ∈ s'.state.records, r'.clientMessageId = r.clientMessageId → r'.payload = none) ∧
          ∀ tab payload, .released tab r.clientMessageId payload ∉ events)) := by
  have hinv := reachable_inv hs
  refine ⟨?_, ?_, ?_⟩
  · rintro tab id sent ⟨k, p, t, explicitRetry, payload, hp, rfl, ht, -, hop, hstage, hsent⟩
    obtain ⟨hmem, hnormal⟩ := (hinv.pendingOk hp ht).releasing id explicitRetry payload hop hstage
    rw [hnormal] at hsent
    cases hsent
    exact hmem
  · intro c s' tab id payload hstep hlog
    obtain ⟨t, now, explicitRetry, ht, hreleased, hpermission⟩ :=
      released_permitted hstep hinv hlog
    exact ⟨hinv.store.normal hreleased, t, now, explicitRetry, ht, hreleased, hpermission⟩
  · intro cs s' hrun r hr hnone
    refine erased_run hrun hs ?_
    intro r' hr' hid
    rw [eq_of_id hinv.store.ids hr' hr hid]
    exact hnone

/-! ## An id that is used twice -/

/-- A run, from the new database. -/
def play (nfc : Nfc) (cs : List Command) (s : Sys) : Option Sys :=
  cs.foldlM (fun s c => exec nfc c s) s

/-- What is played is a run. -/
theorem run_of_play {nfc : Nfc} {cs : List Command} {s s' : Sys} (h : play nfc cs s = some s') :
    (system nfc).Run s cs s' := by
  induction cs generalizing s with
  | nil =>
    obtain rfl := Option.some.inj h
    exact .nil s
  | cons c cs ih =>
    rw [play, List.foldlM_cons, Option.bind_eq_bind, Option.bind_eq_some_iff] at h
    obtain ⟨u, hexec, hrest⟩ := h
    exact .cons hexec (ih hrest)

/-- Texts that are already in normal form. -/
def plain : Nfc := ⟨id, fun _ => rfl⟩

def scopeToken : String := "AAAAAAAAAAAAAAAAAAAAAAAAAAAAAAAAAAAAAAAAAAA"

def sharedRoom : String := "00000000-0000-4000-8000-00000000000d"

/-- The id that is used twice. -/
def reusedId : String := "00000000-0000-4000-8000-000000000001"

/-- The authority of a member of the room. -/
def member : OutboxAuthority :=
  { accountPartition := scopeToken
    sessionKey := "aaaaaaaaaaaaaaaaaaaaaaaaaaaaaaaaaaaaaaaaaaaaaaaaaaaaaaaaaaaaaaaa"
    rooms := [⟨sharedRoom, scopeToken, scopeToken⟩] }

/-- The first message under the id. -/
def firstPayload : OutboxPayload :=
  { clientMessageId := reusedId, membershipScope := scopeToken, intent := .shared,
    content := .text "a" }

/-- With a quote that is not one. -/
def secondPayload : OutboxPayload :=
  { firstPayload with quoteId := some "", content := .text "b" }

/-- One tab prepares a message and leaves it until the record has expired; another tab
prepares one with its id; then the first tab sends. -/
def reuse : List Command :=
  [.openTab 0 0, .call 0 0 (.authorize member), .run 0 0 0 true, .complete 0,
    .call 0 1 (.prepare sharedRoom firstPayload), .run 1 0 0 true, .complete 1,
    .openTab 1 identityMs, .call 1 2 (.authorize member), .run 2 identityMs identityMs true,
    .complete 2, .call 1 3 (.prepare sharedRoom secondPayload),
    .run 3 identityMs identityMs true, .complete 3, .call 0 4 (.beforeSend reusedId false)]

/-- The log before the first tab's transaction. -/
def reuseLog : List Event :=
  [.created 1 reusedId secondPayload, .changed 1, .created 0 reusedId firstPayload, .changed 0]

/-- The run, played to its end. -/
theorem play_reuse : ((play plain reuse {}).bind fun s =>
      (exec plain (.run 4 identityMs identityMs true) s).map fun s' => (s.log, s'.log)) =
    some (reuseLog, .released 0 reusedId { secondPayload with quoteId := none } :: reuseLog) := by
  decide +kernel

/-- The second message under the id is released. -/
theorem reuse_released : ∃ s s', (system plain).Reachable s ∧
    (system plain).step (.run 4 identityMs identityMs true) s s' ∧ s.log = reuseLog ∧
    s'.log = .released 0 reusedId { secondPayload with quoteId := none } :: s.log := by
  obtain ⟨s, hplay, hrest⟩ := Option.bind_eq_some_iff.mp play_reuse
  obtain ⟨s', hexec, hlogs⟩ := Option.map_eq_some_iff.mp hrest
  obtain ⟨hlog, hlog'⟩ := Prod.mk.inj hlogs
  exact ⟨s, s', (run_of_play hplay).reachable (.init rfl), hexec, hlog, hlog ▸ hlog'⟩

/-- What the first tab sends is what the second one's `prepare` was given, rebuilt. -/
theorem outbox_fenced_reused : ∃ s s', (system plain).Reachable s ∧
    (system plain).step (.run 4 identityMs identityMs true) s s' ∧
    ∃ creator given, lastCreated reusedId s.log = some (creator, given) ∧
      normalizePayload plain given = .ok { secondPayload with quoteId := none } := by
  obtain ⟨s, s', hs, hstep, -, hlog⟩ := reuse_released
  exact ⟨s, s', hs, hstep, ((outbox_fenced plain hs).2.1 _ s' _ _ _ hstep hlog).1⟩

/-- So it is neither literally the payload it was given, nor sent by the tab that
created the record or found it missing. -/
theorem outbox_reused :
    (¬∀ nfc s c s' tab id payload, (system nfc).Reachable s → (system nfc).step c s s' →
      s'.log = .released tab id payload :: s.log →
        ∃ creator, lastCreated id s.log = some (creator, payload)) ∧
    ¬∀ nfc s c s' tab id payload, (system nfc).Reachable s → (system nfc).step c s s' →
      s'.log = .released tab id payload :: s.log →
        (∃ given, lastCreated id s.log = some (tab, given)) ∨
          Unspent (Misses tab id) tab id s.log := by
  obtain ⟨s, s', hs, hstep, hlog, hlog'⟩ := reuse_released
  have hcreated : lastCreated reusedId s.log = some (1, secondPayload) := by
    rw [hlog]
    rfl
  constructor
  · intro hclaim
    obtain ⟨creator, hcreator⟩ := hclaim plain s _ s' _ _ _ hs hstep hlog'
    rw [hcreated] at hcreator
    cases hcreator
  · intro hclaim
    rcases hclaim plain s _ s' _ _ _ hs hstep hlog' with ⟨given, hgiven⟩ | hunspent
    · rw [hcreated] at hgiven
      cases hgiven
    · rw [hlog] at hunspent
      -- no event of the log is a lookup that found nothing
      have hnever : ∀ log : List Event, (∀ e ∈ log, ¬Misses 0 reusedId e) →
          ¬Unspent (Misses 0 reusedId) 0 reusedId log := by
        intro log hlog h
        induction h with
        | granted hgrant => exact hlog _ List.mem_cons_self hgrant
        | later _ _ ih => exact ih fun e he => hlog e (List.mem_cons_of_mem _ he)
      refine hnever reuseLog ?_ hunspent
      simp [reuseLog, Misses]

end Rogichat.Outbox
