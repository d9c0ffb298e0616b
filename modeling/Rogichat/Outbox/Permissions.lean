import Rogichat.Outbox.Records

/-!
# The permissions of a tab

A tab's permission to send an id is read back from the log: `Unspent` says that the
tab was granted one since it last changed its authority and has released nothing of
the id since.

* **`Inv`** — the stored records come from the `prepare` that created them, and the
  permissions a tab holds are unspent, up to the one a committed `beforeSend` is about
  to hand in.
* **`exec_inv`**, **`reachable_inv`** — every step keeps it.
-/

namespace Rogichat.Outbox

open Lib

/-! ## Reading the log -/

/-- The tab an event is about. -/
def Event.tab : Event → TabId
  | .created tab _ _ | .released tab _ _ | .notFound tab _ | .changed tab => tab

/-- The tab's permissions for the id end: it released it, or dropped its authority. -/
def Spends (tab : TabId) (id : String) (e : Event) : Prop :=
  e = .changed tab ∨ ∃ payload, e = .released tab id payload

/-- The tab created a record of the id. -/
def Creates (tab : TabId) (id : String) (e : Event) : Prop := ∃ given, e = .created tab id given

/-- The tab recorded that the server does not know the id. -/
def Misses (tab : TabId) (id : String) (e : Event) : Prop := e = .notFound tab id

/-- A permission the tab was granted for the id, and has neither used nor lost. -/
inductive Unspent (grants : Event → Prop) (tab : TabId) (id : String) : List Event → Prop
  | granted {e : Event} {log : List Event} : grants e → Unspent grants tab id (e :: log)
  | later {e : Event} {log : List Event} :
      ¬Spends tab id e → Unspent grants tab id log → Unspent grants tab id (e :: log)

/-- The creation of the id's record, and the payload it was given. -/
def lastCreated (id : String) : List Event → Option (TabId × OutboxPayload)
  | [] => none
  | .created tab id' given :: log => if id' = id then some (tab, given) else lastCreated id log
  | _ :: log => lastCreated id log

theorem spends_tab {tab : TabId} {id : String} {e : Event} (h : Spends tab id e) : e.tab = tab := by
  obtain rfl | ⟨payload, rfl⟩ := h <;> rfl

/-- What spends no permission leaves it unspent. -/
theorem Unspent.append {grants : Event → Prop} {tab : TabId} {id : String} {log : List Event}
    (h : Unspent grants tab id log) {events : List Event}
    (hevents : ∀ e ∈ events, ¬Spends tab id e) : Unspent grants tab id (events ++ log) := by
  induction events with
  | nil => exact h
  | cons e events ih =>
    refine .later (hevents e List.mem_cons_self) (ih ?_)
    intro e' he'
    exact hevents e' (List.mem_cons_of_mem _ he')

/-- What creates no record leaves the last creation. -/
theorem lastCreated_append {id : String} {events log : List Event}
    (hevents : ∀ tab given, .created tab id given ∉ events) :
    lastCreated id (events ++ log) = lastCreated id log := by
  induction events with
  | nil => rfl
  | cons e events ih =>
    have hrest : lastCreated id (events ++ log) = lastCreated id log :=
      ih fun tab given h => hevents tab given (List.mem_cons_of_mem _ h)
    cases e with
    | created tab id' given =>
      have hne : id' ≠ id := by
        rintro rfl
        exact hevents tab given List.mem_cons_self
      rw [List.cons_append, lastCreated, if_neg hne, hrest]
    | released tab id' payload => exact hrest
    | notFound tab id' => exact hrest
    | changed tab => exact hrest

/-! ## The invariant -/

/-- The record holds, if anything, the payload its `prepare` was given. -/
def Original (nfc : Nfc) (log : List Event) (r : OutboxRecord) : Prop :=
  ∀ payload ∈ r.payload, ∃ tab given, lastCreated r.clientMessageId log = some (tab, given) ∧
    normalizePayload nfc given = .ok payload

/-- The store agrees with the log. -/
structure StoreOk (nfc : Nfc) (s : Sys) : Prop where
  ids : (s.state.records.map OutboxRecord.clientMessageId).Nodup
  original : ∀ r ∈ s.state.records, Original nfc s.log r

/-- A called operation of a tab. -/
structure PendingOk (nfc : Nfc) (log : List Event) (t : Tab) (k : Nat) (p : Pending) : Prop where
  generation : p.generation ≤ t.generation
  prepared : ∀ roomId given payload, p.op = .prepare roomId given payload →
    normalizePayload nfc given = .ok payload
  completing : ∀ result, p.stage = .committed result → t.completing = some k
  creating : ∀ roomId given payload, p.op = .prepare roomId given payload →
    p.stage = .committed (.prepared true) → p.generation = t.generation →
      Unspent (Creates p.tab payload.clientMessageId) p.tab payload.clientMessageId log
  releasing : ∀ id explicitRetry payload, p.op = .beforeSend id explicitRetry →
    p.stage = .committed (.payload payload) →
      .released p.tab id payload ∈ log ∧ normalizePayload nfc payload = .ok payload

/-- The tab is about to hand in its permission for the id. -/
def Releasing (pending : Nat → Option Pending) (tab : TabId) (t : Tab) (id : String) : Prop :=
  ∃ k p explicitRetry result, t.completing = some k ∧ pending k = some p ∧ p.tab = tab ∧
    p.op = .beforeSend id explicitRetry ∧ p.stage = .committed result ∧
    p.generation = t.generation

/-- The permissions of a tab that still runs. -/
structure TabOk (pending : Nat → Option Pending) (log : List Event) (tab : TabId) (t : Tab) :
    Prop where
  prepared : t.stopped = false → ∀ id ∈ t.preparedHere,
    Unspent (Creates tab id) tab id log ∨ Releasing pending tab t id
  missed : ∀ id ∈ t.lookup404, Unspent (Misses tab id) tab id log

/-- Store, tabs and operations under way agree with the log. -/
structure Inv (nfc : Nfc) (s : Sys) : Prop where
  store : StoreOk nfc s
  pending : ∀ k p, s.pending k = some p →
    ∃ t, s.tabs p.tab = some t ∧ PendingOk nfc s.log t k p
  tabs : ∀ tab t, s.tabs tab = some t → TabOk s.pending s.log tab t

/-- Events of other tabs leave an operation in order. -/
theorem PendingOk.append {nfc : Nfc} {log : List Event} {t : Tab} {k : Nat} {p : Pending}
    (h : PendingOk nfc log t k p) {events : List Event} (hevents : ∀ e ∈ events, e.tab ≠ p.tab) :
    PendingOk nfc (events ++ log) t k p where
  generation := h.generation
  prepared := h.prepared
  completing := h.completing
  creating roomId given payload hop hstage hgeneration :=
    (h.creating roomId given payload hop hstage hgeneration).append
      fun e he hspends => hevents e he (spends_tab hspends)
  releasing id explicitRetry payload hop hstage := by
    obtain ⟨hmem, hnormal⟩ := h.releasing id explicitRetry payload hop hstage
    exact ⟨List.mem_append_right _ hmem, hnormal⟩

/-- Events of other tabs leave a tab in order. -/
theorem TabOk.append {pending : Nat → Option Pending} {log : List Event} {tab : TabId} {t : Tab}
    (h : TabOk pending log tab t) {events : List Event} (hevents : ∀ e ∈ events, e.tab ≠ tab) :
    TabOk pending (events ++ log) tab t where
  prepared hruns id hid :=
    (h.prepared hruns id hid).imp_left fun hunspent =>
      hunspent.append fun e he hspends => hevents e he (spends_tab hspends)
  missed id hid := (h.missed id hid).append fun e he hspends => hevents e he (spends_tab hspends)

/-- A step of one tab only has to account for that tab. -/
theorem Inv.of_local {nfc : Nfc} {s s' : Sys} (h : Inv nfc s) {tab : TabId} {u : Tab}
    {l : List Event} (hstore : StoreOk nfc s')
    (htabs : s'.tabs = Function.update s.tabs tab (some u)) (hlog : s'.log = l ++ s.log)
    (hevents : ∀ e ∈ l, e.tab = tab)
    (hpending : ∀ k p, p.tab ≠ tab → (s'.pending k = some p ↔ s.pending k = some p))
    (hown : ∀ k p, s'.pending k = some p → p.tab = tab → PendingOk nfc s'.log u k p)
    (htab : TabOk s'.pending s'.log tab u) : Inv nfc s' := by
  refine ⟨hstore, ?_, ?_⟩
  · intro k p hp
    by_cases hne : p.tab = tab
    · refine ⟨u, ?_, hown k p hp hne⟩
      rw [htabs, hne, Function.update_self]
    · obtain ⟨t, ht, hok⟩ := h.pending k p ((hpending k p hne).mp hp)
      refine ⟨t, ?_, ?_⟩
      · rw [htabs, Function.update_of_ne hne, ht]
      · rw [hlog]
        exact hok.append fun e he heq => hne (heq.symm.trans (hevents e he))
  · intro other t ht
    by_cases hne : other = tab
    · subst hne
      rw [htabs, Function.update_self, Option.some.injEq] at ht
      exact ht ▸ htab
    · rw [htabs, Function.update_of_ne hne] at ht
      have hok : TabOk s.pending (l ++ s.log) other t :=
        (h.tabs other t ht).append fun e he heq => hne (heq.symm.trans (hevents e he))
      rw [hlog]
      refine ⟨fun hruns id hid => ?_, hok.missed⟩
      rcases hok.prepared hruns id hid with
        hunspent | ⟨k, p, explicitRetry, result, hk, hp, hptab, hrest⟩
      · exact .inl hunspent
      · refine .inr ⟨k, p, explicitRetry, result, hk, ?_, hptab, hrest⟩
        exact (hpending k p (hptab ▸ hne)).mpr hp

/-! ## The store -/

/-- Where records are kept and none is created the store stays in order. -/
theorem StoreOk.of_kept {nfc : Nfc} {s s' : Sys} (h : StoreOk nfc s)
    (hkept : Kept s.state.records s'.state.records) {l : List Event}
    (hlog : s'.log = l ++ s.log) (hevents : ∀ tab id given, .created tab id given ∉ l) :
    StoreOk nfc s' := by
  refine ⟨h.ids.sublist hkept.ids, ?_⟩
  intro r' hr' payload hpayload
  obtain ⟨r, hr, hlater⟩ := hkept.later r' hr'
  have hsame : payload ∈ r.payload := by
    rcases hlater.payload with hnone | hsame
    · rw [hnone] at hpayload
      cases hpayload
    · exact hsame ▸ hpayload
  rw [hlog, lastCreated_append fun tab given => hevents tab _ given, hlater.id]
  exact h.original r hr payload hsame

/-- A store that gained the record a `prepare` created. -/
theorem StoreOk.of_created {nfc : Nfc} {s s' : Sys} (h : StoreOk nfc s)
    {kept : List OutboxRecord} {record : OutboxRecord} {i : TabId}
    {g payload : OutboxPayload} (hrecords : s'.state.records = kept ++ [record])
    (hkept : Kept s.state.records kept) (hid : record.clientMessageId = payload.clientMessageId)
    (hpayload : record.payload = some payload)
    (hfresh : ∀ r ∈ kept, r.clientMessageId ≠ payload.clientMessageId)
    (hlog : s'.log = .created i payload.clientMessageId g :: s.log)
    (hnormal : normalizePayload nfc g = .ok payload) : StoreOk nfc s' := by
  constructor
  · rw [hrecords, List.map_append, List.nodup_append]
    refine ⟨h.ids.sublist hkept.ids, List.nodup_singleton _, ?_⟩
    intro id hid' id' hid''
    obtain ⟨r, hr, rfl⟩ := List.mem_map.mp hid'
    obtain rfl := List.mem_singleton.mp hid''
    rw [hid]
    exact hfresh r hr
  · intro r hr stored hstored
    rw [hrecords, List.mem_append, List.mem_singleton] at hr
    rcases hr with hr | rfl
    · obtain ⟨r₀, hr₀, hlater⟩ := hkept.later r hr
      have hsame : stored ∈ r₀.payload := by
        rcases hlater.payload with hnone | hsame
        · rw [hnone] at hstored
          cases hstored
        · exact hsame ▸ hstored
      rw [hlog, lastCreated, if_neg (hfresh r hr).symm, hlater.id]
      exact h.original r₀ hr₀ stored hsame
    · rw [hpayload] at hstored
      cases hstored
      refine ⟨i, g, ?_, hnormal⟩
      rw [hlog, lastCreated, if_pos hid.symm]

/-! ## Steps of a tab -/

/-- An operation stays in order while its tab does not move on. -/
theorem PendingOk.of_tab {nfc : Nfc} {log : List Event} {t t' : Tab} {k : Nat} {p : Pending}
    (h : PendingOk nfc log t k p) (hgeneration : t'.generation = t.generation)
    (hcompleting : t'.completing = t.completing) : PendingOk nfc log t' k p where
  generation := hgeneration ▸ h.generation
  prepared := h.prepared
  completing result hstage := hcompleting ▸ h.completing result hstage
  creating roomId given payload hop hstage heq :=
    h.creating roomId given payload hop hstage (heq.trans hgeneration)
  releasing := h.releasing

/-- The tab of a pending operation. -/
theorem Inv.pendingOk {nfc : Nfc} {s : Sys} (h : Inv nfc s) {k : Nat} {p : Pending} {t : Tab}
    (hp : s.pending k = some p) (ht : s.tabs p.tab = some t) : PendingOk nfc s.log t k p := by
  obtain ⟨t', ht', hok⟩ := h.pending k p hp
  rw [ht, Option.some.injEq] at ht'
  exact ht' ▸ hok

/-- Other fields of a tab may change freely. -/
theorem inv_setTab {nfc : Nfc} {s : Sys} (h : Inv nfc s) {tab : TabId} {t t' : Tab}
    (ht : s.tabs tab = some t) (hgeneration : t'.generation = t.generation)
    (hcompleting : t'.completing = t.completing) (hprepared : t'.preparedHere ⊆ t.preparedHere)
    (hmissed : t'.lookup404 ⊆ t.lookup404) (hstopped : t'.stopped = false → t.stopped = false) :
    Inv nfc (s.setTab tab t') := by
  refine h.of_local (l := []) ⟨h.store.ids, h.store.original⟩ rfl rfl
    (fun e he => (by cases he)) (fun k p _ => Iff.rfl) ?_ ?_
  · rintro k p hp rfl
    exact (h.pendingOk hp ht).of_tab hgeneration hcompleting
  · refine ⟨fun hruns id hid => ?_, fun id hid => (h.tabs tab t ht).missed id (hmissed hid)⟩
    rcases (h.tabs tab t ht).prepared (hstopped hruns) id (hprepared hid) with
      hunspent | hreleasing
    · exact .inl hunspent
    · obtain ⟨k, p, explicitRetry, result, hk, hp, hptab, hop, hstage, heq⟩ := hreleasing
      exact .inr ⟨k, p, explicitRetry, result, hcompleting.trans hk, hp, hptab, hop, hstage,
        heq.trans hgeneration.symm⟩

/-- A tab that drops its authority begins a generation, or has nothing to complete. -/
theorem inv_drop {nfc : Nfc} {s : Sys} (h : Inv nfc s) {tab : TabId} {t u : Tab}
    (ht : s.tabs tab = some t) (hcompleting : u.completing = t.completing)
    (hprepared : u.preparedHere = []) (hmissed : u.lookup404 = [])
    (hgeneration : t.generation < u.generation ∨
      u.generation = t.generation ∧ t.completing = none) :
    Inv nfc ({ s with log := .changed tab :: s.log }.setTab tab u) := by
  refine h.of_local (l := [.changed tab]) ?_ rfl rfl ?_ (fun k p _ => Iff.rfl) ?_ ?_
  · refine h.store.of_kept (.refl _) (l := [.changed tab]) rfl ?_
    intro tab id given hmem
    cases List.mem_singleton.mp hmem
  · intro e he
    obtain rfl := List.mem_singleton.mp he
    rfl
  · rintro k p hp rfl
    have hok := h.pendingOk hp ht
    refine ⟨?_, hok.prepared, fun result hstage => hcompleting ▸ hok.completing result hstage,
      ?_, ?_⟩
    · have hle := hok.generation
      omega
    · intro roomId given payload hop hstage heq
      rcases hgeneration with hlt | ⟨-, hnone⟩
      · -- the operation is of an earlier generation
        have hle := hok.generation
        omega
      · have hsome := hok.completing _ hstage
        rw [hnone] at hsome
        cases hsome
    · intro id explicitRetry payload hop hstage
      obtain ⟨hmem, hnormal⟩ := hok.releasing id explicitRetry payload hop hstage
      exact ⟨List.mem_cons_of_mem _ hmem, hnormal⟩
  · constructor
    · intro _ id hid
      rw [hprepared] at hid
      cases hid
    · intro id hid
      rw [hmissed] at hid
      cases hid

/-- An operation is put in the place of one that is not committed, or taken away. -/
theorem inv_setPending {nfc : Nfc} {s : Sys} (h : Inv nfc s) {k : Nat} {p' : Option Pending}
    (hold : ∀ p, s.pending k = some p → ∀ result, p.stage ≠ .committed result)
    (hnew : ∀ p, p' = some p → ∃ t, s.tabs p.tab = some t ∧ p.generation ≤ t.generation ∧
      (∀ roomId given payload, p.op = .prepare roomId given payload →
        normalizePayload nfc given = .ok payload) ∧ ∀ result, p.stage ≠ .committed result) :
    Inv nfc (s.setPending k p') := by
  refine ⟨⟨h.store.ids, h.store.original⟩, ?_, ?_⟩
  · intro k' p hp
    by_cases hk : k' = k
    · subst hk
      simp only [Sys.setPending, Function.update_self] at hp
      obtain ⟨t, ht, hle, hprepared, hstage⟩ := hnew p hp
      exact ⟨t, ht, hle, hprepared, fun result hc => absurd hc (hstage result),
        fun _ _ _ _ hc => absurd hc (hstage _), fun _ _ _ _ hc => absurd hc (hstage _)⟩
    · simp only [Sys.setPending, Function.update_of_ne hk] at hp
      exact h.pending k' p hp
  · intro tab t ht
    have hok := h.tabs tab t ht
    refine ⟨fun hruns id hid => ?_, hok.missed⟩
    rcases hok.prepared hruns id hid with
      hunspent | ⟨k', p, explicitRetry, result, hk', hp, hrest⟩
    · exact .inl hunspent
    · refine .inr ⟨k', p, explicitRetry, result, hk', ?_, hrest⟩
      have hne : k' ≠ k := by
        rintro rfl
        exact hold p hp result hrest.2.2.1
      exact (Function.update_of_ne hne _ _).trans hp

theorem tabs_setTab (s : Sys) (tab : TabId) (t : Tab) : (s.setTab tab t).tabs tab = some t :=
  Function.update_self ..

theorem begin_setTab (s : Sys) (tab : TabId) (t : Tab) (k : Nat) (op : Op) :
    (s.setTab tab t).begin tab t k op = s.begin tab t k op := by
  simp [Sys.begin, Sys.setTab, Sys.setPending]

/-- Beginning an operation keeps the invariant. -/
theorem inv_begin {nfc : Nfc} {s : Sys} (h : Inv nfc s) {tab : TabId} {t : Tab} {k : Nat}
    {op : Op} (ht : s.tabs tab = some t) (hk : s.pending k = none)
    (hop : ∀ roomId given payload, op = .prepare roomId given payload →
      normalizePayload nfc given = .ok payload) : Inv nfc (s.begin tab t k op) := by
  have htab : Inv nfc (s.setTab tab t) := inv_setTab h ht rfl rfl (List.Subset.refl _)
    (List.Subset.refl _) id
  unfold Sys.begin
  split
  · exact htab
  · refine inv_setPending htab ?_ ?_
    · intro p hp
      rw [show (s.setTab tab t).pending k = none from hk] at hp
      cases hp
    · rintro p ⟨⟩
      exact ⟨t, tabs_setTab s tab t, le_rfl, hop, fun result hc => (by cases hc)⟩

/-- Suspending a tab keeps the invariant. -/
theorem inv_suspended {nfc : Nfc} {s : Sys} (h : Inv nfc s) {tab : TabId} {t : Tab}
    (ht : s.tabs tab = some t) :
    Inv nfc (s.suspended tab t) ∧ (s.suspended tab t).tabs tab = some t.suspend := by
  unfold Sys.suspended Tab.suspend
  split
  · exact ⟨h, ht⟩
  · exact ⟨inv_drop h ht rfl rfl rfl (.inl (Nat.lt_succ_self _)), tabs_setTab _ tab _⟩

/-- Beginning a grant keeps the invariant. -/
theorem inv_beginGrant {nfc : Nfc} {s : Sys} (h : Inv nfc s) {tab : TabId} {t : Tab} {k : Nat}
    {authority : OutboxAuthority} (ht : s.tabs tab = some t) (hk : s.pending k = none) :
    Inv nfc (s.beginGrant tab t k authority) := by
  unfold Sys.beginGrant
  rw [← begin_setTab]
  refine inv_begin ?_ (tabs_setTab _ tab _) hk ?_
  · exact inv_drop h ht rfl rfl rfl (.inl (Nat.lt_succ_self _))
  · intro roomId given payload hop
    cases hop

/-- A payload is normalized before its operation begins. -/
theorem op_normal {nfc : Nfc} {t : Tab} {call : Call} {op : Op} (h : call.op nfc t = .ok op)
    (roomId : String) (given payload : OutboxPayload) (hop : op = .prepare roomId given payload) :
    normalizePayload nfc given = .ok payload := by
  subst hop
  cases call with
  | «prepare» roomId' value =>
    cases hvalue : normalizePayload nfc value with
    | error e =>
      rw [Call.op, hvalue] at h
      cases h
    | ok payload' =>
      rw [Call.op, hvalue] at h
      cases h
      exact hvalue
  | authorize value =>
    cases hvalue : normalizeAuthority value with
    | error e =>
      rw [Call.op, hvalue] at h
      cases h
    | ok authority =>
      rw [Call.op, hvalue] at h
      cases h
  | _ => cases h

/-- A tab between two calls may forget that it was suspended. -/
theorem inv_resumed {nfc : Nfc} {s : Sys} (h : Inv nfc s) {tab : TabId} {t : Tab}
    (ht : s.tabs tab = some t) : Inv nfc (s.setTab tab { t with locallySuspended := false }) :=
  inv_setTab h ht rfl rfl (List.Subset.refl _) (List.Subset.refl _) id

theorem beginGrant_setTab (s : Sys) (tab : TabId) (t t' : Tab) (k : Nat)
    (authority : OutboxAuthority) :
    (s.setTab tab t').beginGrant tab t k authority = s.beginGrant tab t k authority := by
  simp [Sys.beginGrant, Sys.begin, Sys.setTab, Sys.setPending]

/-- Starting an operation keeps the invariant. -/
theorem inv_start {nfc : Nfc} {s : Sys} (h : Inv nfc s) {tab : TabId} {t : Tab} {k : Nat}
    {op : Op} (ht : s.tabs tab = some t) (hk : s.pending k = none)
    (hop : ∀ roomId given payload, op = .prepare roomId given payload →
      normalizePayload nfc given = .ok payload) : Inv nfc (s.start tab t k op) := by
  cases op with
  | refresh authority =>
    rw [Sys.start]
    split
    · rw [← begin_setTab]
      exact inv_begin (inv_resumed h ht) (tabs_setTab s tab _) hk hop
    · rw [← beginGrant_setTab s tab _ { t with locallySuspended := false }]
      exact inv_beginGrant (inv_resumed h ht) (tabs_setTab s tab _) hk
  | revoke held =>
    obtain ⟨hsuspended, htab⟩ := inv_suspended h ht
    refine inv_begin hsuspended htab ?_ hop
    unfold Sys.suspended
    split
    · exact hk
    · exact hk
  | _ => exact inv_begin h ht hk hop

/-! ## A transaction runs -/

/-- What the log records of a commit is about the tab. -/
theorem commitEvents_tab {tab : TabId} {op : Op} {result : Result} :
    ∀ e ∈ commitEvents tab op result, e.tab = tab := by
  intro e he
  unfold commitEvents at he
  split at he
  · obtain rfl := List.mem_singleton.mp he
    rfl
  · obtain rfl := List.mem_singleton.mp he
    rfl
  · cases he

/-- A quiet operation logs nothing. -/
theorem commitEvents_quiet {tab : TabId} {op : Op} {result : Result} (h : op.Quiet) :
    commitEvents tab op result = [] := by
  cases op with
  | «prepare» => cases h
  | beforeSend => cases h
  | _ => rfl

/-- The state after a transaction has committed. -/
def Sys.committed (s : Sys) (k : Nat) (p : Pending) (t : Tab) (state : OutboxState)
    (result : Result) : Sys :=
  ({ s with state := state, log := commitEvents p.tab p.op result ++ s.log }.setTab p.tab
    { t with completing := some k }).setPending k (some { p with stage := .committed result })

/-- The other operations of the tab, when one of them has committed. -/
theorem not_committed {nfc : Nfc} {s : Sys} (h : Inv nfc s) {tab : TabId} {t : Tab}
    (ht : s.tabs tab = some t) (hidle : t.completing = none) {k : Nat} {p : Pending}
    (hp : s.pending k = some p) (htab : p.tab = tab) (result : Result) :
    p.stage ≠ .committed result := by
  intro hstage
  have hsome := (h.pendingOk hp (htab ▸ ht)).completing result hstage
  rw [hidle] at hsome
  cases hsome

/-- A commit that a tab's permissions survive. -/
theorem inv_committed {nfc : Nfc} {s : Sys} (h : Inv nfc s) {k : Nat} {p : Pending} {t t' : Tab}
    {state : OutboxState} {result : Result} (hp : s.pending k = some p)
    (ht : s.tabs p.tab = some t) (hidle : t.completing = none)
    (hcurrent : p.generation = t.generation) (hgeneration : t'.generation = t.generation)
    (hprepared : t'.preparedHere = t.preparedHere) (hstopped : t'.stopped = t.stopped)
    (hstore : StoreOk nfc (s.committed k p t' state result))
    (hcreating : ∀ roomId given payload, p.op = .prepare roomId given payload →
      result = .prepared true → commitEvents p.tab p.op result =
        [.created p.tab payload.clientMessageId given])
    (hreleasing : ∀ id explicitRetry payload, p.op = .beforeSend id explicitRetry →
      result = .payload payload → commitEvents p.tab p.op result = [.released p.tab id payload] ∧
        normalizePayload nfc payload = .ok payload)
    (hspends : ∀ id, (∃ e ∈ commitEvents p.tab p.op result, Spends p.tab id e) →
      (∃ explicitRetry, p.op = .beforeSend id explicitRetry) ∧ id ∉ t'.lookup404)
    (hmissed : t'.lookup404 ⊆ t.lookup404) : Inv nfc (s.committed k p t' state result) := by
  have hok := h.pendingOk hp ht
  have hold := h.tabs p.tab t ht
  refine h.of_local (u := { t' with completing := some k }) hstore rfl rfl
    commitEvents_tab ?_ ?_ ?_
  · intro k' p' hne
    -- the call itself has just left the started stage
    by_cases hk : k' = k
    · subst hk
      simp only [Sys.committed, Sys.setPending, Function.update_self, hp, Option.some.injEq]
      constructor
      · rintro rfl
        exact absurd rfl hne
      · rintro rfl
        exact absurd rfl hne
    · simp only [Sys.committed, Sys.setPending, Function.update_of_ne hk]
      exact Iff.rfl
  · intro k' p' hp' htab
    by_cases hk : k' = k
    · subst hk
      simp only [Sys.committed, Sys.setPending, Function.update_self, Option.some.injEq] at hp'
      subst hp'
      refine ⟨?_, hok.prepared, fun _ _ => rfl, ?_, ?_⟩
      · exact hok.generation.trans_eq hgeneration.symm
      · intro roomId given payload hop hstage _
        show Unspent _ _ _ (commitEvents p.tab p.op result ++ s.log)
        rw [hcreating roomId given payload hop (Stage.committed.inj hstage)]
        exact .granted ⟨given, rfl⟩
      · intro id explicitRetry payload hop hstage
        obtain ⟨hevents, hnormal⟩ :=
          hreleasing id explicitRetry payload hop (Stage.committed.inj hstage)
        refine ⟨?_, hnormal⟩
        show _ ∈ commitEvents p.tab p.op result ++ s.log
        rw [hevents]
        exact List.mem_cons_self
    · simp only [Sys.committed, Sys.setPending, Function.update_of_ne hk] at hp'
      have hother := h.pendingOk hp' (htab ▸ ht)
      -- one commit of a tab at a time, so no other call of it is committed
      have hnot := not_committed h ht hidle hp' htab
      exact ⟨hother.generation.trans_eq hgeneration.symm, hother.prepared,
        fun result hc => absurd hc (hnot result), fun _ _ _ _ hc => absurd hc (hnot _),
        fun _ _ _ _ hc => absurd hc (hnot _)⟩
  · constructor
    · intro hruns id hid
      have hunspent : Unspent (Creates p.tab id) p.tab id s.log := by
        rcases hold.prepared (hstopped ▸ hruns) id (hprepared ▸ hid) with hunspent | ⟨k', p', _, _, hk', _⟩
        · exact hunspent
        · rw [hidle] at hk'
          cases hk'
      -- the commit spends the permission, or touches another id
      by_cases hspend : ∃ e ∈ commitEvents p.tab p.op result, Spends p.tab id e
      · obtain ⟨⟨explicitRetry, hop⟩, -⟩ := hspends id hspend
        refine .inr ⟨k, _, explicitRetry, result, rfl, Function.update_self .., rfl, hop, rfl, ?_⟩
        exact hcurrent.trans hgeneration.symm
      · exact .inl (hunspent.append fun e he hs => hspend ⟨e, he, hs⟩)
    · intro id hid
      refine (hold.missed id (hmissed hid)).append ?_
      intro e he hs
      exact (hspends id ⟨e, he, hs⟩).2 hid

/-- The payload a `beforeSend` reads was rebuilt before it was stored. -/
theorem StoreOk.normal {nfc : Nfc} {s : Sys} (h : StoreOk nfc s) {t : Tab} {now : Time}
    {id : String} {explicitRetry : Bool} {payload : OutboxPayload}
    (hreleased : Released t s.state now id explicitRetry payload) :
    ∃ tab given, lastCreated id s.log = some (tab, given) ∧
      normalizePayload nfc given = .ok payload := by
  obtain ⟨authority, -, -, r', hr', rfl, hpayload, -⟩ := hreleased.authority
  obtain ⟨r, hr, hlater⟩ := (kept_expire s.state now).later r' hr'
  have hsame : payload ∈ r.payload := by
    rcases hlater.payload with hnone | hsame
    · rw [hnone] at hpayload
      cases hpayload
    · exact hsame ▸ hpayload
  rw [hlater.id]
  exact h.original r hr payload hsame

/-- A quiet transaction keeps the invariant. -/
theorem inv_committed_quiet {nfc : Nfc} {s : Sys} (h : Inv nfc s) {k : Nat} {p : Pending}
    {t : Tab} {state : OutboxState} {result : Result} (hp : s.pending k = some p)
    (ht : s.tabs p.tab = some t) (hidle : t.completing = none)
    (hcurrent : p.generation = t.generation) (hquiet : p.op.Quiet)
    (hkept : Kept s.state.records state.records) :
    Inv nfc (s.committed k p t state result) := by
  have hevents : commitEvents p.tab p.op result = [] := commitEvents_quiet hquiet
  refine inv_committed h hp ht hidle hcurrent rfl rfl rfl ?_ ?_ ?_ ?_ (List.Subset.refl _)
  · exact h.store.of_kept hkept (l := commitEvents p.tab p.op result) rfl
      (by simp [hevents])
  · intro roomId given payload hop
    rw [hop] at hquiet
    cases hquiet
  · intro id explicitRetry payload hop
    rw [hop] at hquiet
    cases hquiet
  · rintro id ⟨e, he, -⟩
    rw [hevents] at he
    cases he

/-- A transaction that creates a record keeps the invariant. -/
theorem inv_committed_prepare {nfc : Nfc} {s : Sys} (h : Inv nfc s) {k : Nat} {p : Pending}
    {t t' : Tab} {state : OutboxState} {result : Result} {now later : Time} {roomId : String}
    {given payload : OutboxPayload} (hp : s.pending k = some p) (ht : s.tabs p.tab = some t)
    (hidle : t.completing = none) (hcurrent : p.generation = t.generation)
    (hop : p.op = .prepare roomId given payload)
    (hwork : p.op.work t s.state now later = (t', .ok (state, result))) :
    Inv nfc (s.committed k p t' state result) := by
  have hnormal := (h.pendingOk hp ht).prepared roomId given payload hop
  rw [hop] at hwork
  obtain ⟨rfl, hresult⟩ := prepare_ok hwork
  refine inv_committed h hp ht hidle hcurrent rfl rfl rfl ?_ ?_ ?_ ?_ (List.Subset.refl _)
  · rcases hresult with ⟨rfl, hkept⟩ | ⟨rfl, kept, record, hrecords, hkept, hid, hpayload, hfresh⟩
    · refine h.store.of_kept hkept (l := commitEvents p.tab p.op (.prepared false)) rfl ?_
      intro tab id given' hmem
      rw [hop] at hmem
      cases hmem
    · refine h.store.of_created hrecords hkept hid hpayload hfresh (i := p.tab)
        (g := given) ?_ hnormal
      show commitEvents p.tab p.op (.prepared true) ++ s.log = _
      rw [hop]
      rfl
  · rintro roomId' given' payload' hop' rfl
    rw [hop']
    rfl
  · intro id explicitRetry payload' hop'
    rw [hop] at hop'
    cases hop'
  · rintro id ⟨e, he, hs⟩
    -- a creation ends no permission
    rw [hop] at he
    rcases hresult with ⟨rfl, -⟩ | ⟨rfl, -⟩
    · cases he
    · cases List.mem_singleton.mp he
      obtain hc | ⟨payload', hc⟩ := hs <;> cases hc

/-- A transaction that releases a record keeps the invariant. -/
theorem inv_committed_release {nfc : Nfc} {s : Sys} (h : Inv nfc s) {k : Nat} {p : Pending}
    {t t' : Tab} {state : OutboxState} {result : Result} {now later : Time} {id : String}
    {explicitRetry : Bool} (hp : s.pending k = some p) (ht : s.tabs p.tab = some t)
    (hidle : t.completing = none) (hcurrent : p.generation = t.generation)
    (hop : p.op = .beforeSend id explicitRetry)
    (hwork : p.op.work t s.state now later = (t', .ok (state, result))) :
    Inv nfc (s.committed k p t' state result) := by
  rw [hop] at hwork
  obtain ⟨payload, rfl, rfl, hreleased, hkept⟩ := release_ok hwork
  have hevents : commitEvents p.tab p.op (.payload payload) = [.released p.tab id payload] := by
    rw [hop]
    rfl
  refine inv_committed h hp ht hidle hcurrent rfl rfl rfl ?_ ?_ ?_ ?_ ?_
  · refine h.store.of_kept hkept (l := commitEvents p.tab p.op (.payload payload)) rfl ?_
    intro tab id' given hmem
    rw [hevents] at hmem
    cases List.mem_singleton.mp hmem
  · intro roomId given payload' hop'
    rw [hop] at hop'
    cases hop'
  · rintro id' explicitRetry' payload' hop' heq
    cases heq
    obtain ⟨rfl, rfl⟩ := Op.beforeSend.inj (hop.symm.trans hop')
    obtain ⟨tab, given, -, hnormal⟩ := h.store.normal hreleased
    exact ⟨hevents, normalizePayload_normal hnormal⟩
  · rintro id' ⟨e, he, hs⟩
    rw [hevents, List.mem_singleton] at he
    subst he
    obtain hc | ⟨payload', hc⟩ := hs
    · cases hc
    · cases hc
      refine ⟨⟨explicitRetry, hop⟩, ?_⟩
      simp [Tab.spend]
  · exact List.filter_subset_self _

/-- What work that succeeds leaves of its tab. -/
theorem work_tab {op : Op} {t t' : Tab} {state state' : OutboxState} {now later : Time}
    {result : Result} (hids : (state.records.map OutboxRecord.clientMessageId).Nodup)
    (h : op.work t state now later = (t', .ok (state', result))) :
    t'.generation = t.generation ∧ t'.completing = t.completing ∧
      t'.preparedHere ⊆ t.preparedHere ∧ t'.lookup404 ⊆ t.lookup404 ∧ t'.stopped = t.stopped := by
  rcases op.kinds with ⟨roomId, given, payload, rfl⟩ | ⟨id, explicitRetry, rfl⟩ | hquiet
  · obtain ⟨rfl, -⟩ := prepare_ok h
    exact ⟨rfl, rfl, List.Subset.refl _, List.Subset.refl _, rfl⟩
  · obtain ⟨payload, -, rfl, -⟩ := release_ok h
    exact ⟨rfl, rfl, List.Subset.refl _, List.filter_subset_self _, rfl⟩
  · obtain ⟨rfl, -⟩ := quiet_ok hids hquiet h
    exact ⟨rfl, rfl, List.Subset.refl _, List.Subset.refl _, rfl⟩

/-- A transaction keeps the invariant, committed or not. -/
theorem inv_ran {nfc : Nfc} {s : Sys} (h : Inv nfc s) {k : Nat} {p : Pending} {t : Tab}
    {now later : Time} {commits : Bool} (hp : s.pending k = some p) (ht : s.tabs p.tab = some t)
    (hstarted : p.stage = .started) (hidle : t.completing = none)
    (hcurrent : p.generation = t.generation) : Inv nfc (s.ran k p t now later commits) := by
  have hok := h.pendingOk hp ht
  have hnot : ∀ q, s.pending k = some q → ∀ result, q.stage ≠ .committed result := by
    intro q hq result hc
    rw [hp, Option.some.injEq] at hq
    subst hq
    rw [hstarted] at hc
    cases hc
  unfold Sys.ran
  split
  · rename_i t' e hwork
    rcases work_error hwork with rfl | ⟨rfl, hauthority⟩
    · rw [if_pos rfl]
      refine inv_setPending (inv_setTab h ht rfl rfl (List.Subset.refl _) (List.Subset.refl _) id)
        hnot ?_
      rintro q ⟨⟩
      exact ⟨_, tabs_setTab s p.tab _, hok.generation, hok.prepared, fun _ hc => (by cases hc)⟩
    · rw [if_neg (fun heq => hauthority heq.symm)]
      refine inv_setPending (inv_drop (u := t.drop) h ht rfl rfl rfl (.inr ⟨rfl, hidle⟩)) hnot ?_
      rintro q ⟨⟩
      exact ⟨_, tabs_setTab _ p.tab _, hok.generation, hok.prepared, fun _ hc => (by cases hc)⟩
  · rename_i t' state result hwork
    split
    · show Inv nfc (s.committed k p t' state result)
      rcases p.op.kinds with ⟨roomId, given, payload, hop⟩ | ⟨id, explicitRetry, hop⟩ | hquiet
      · exact inv_committed_prepare h hp ht hidle hcurrent hop hwork
      · exact inv_committed_release h hp ht hidle hcurrent hop hwork
      · obtain ⟨rfl, hkept⟩ := quiet_ok h.store.ids hquiet hwork
        exact inv_committed_quiet h hp ht hidle hcurrent hquiet hkept
    · obtain ⟨hgeneration, hcompleting, hprepared, hmissed, hstopped⟩ :=
        work_tab h.store.ids hwork
      have htab : Inv nfc (s.setTab p.tab t') :=
        inv_setTab h ht hgeneration hcompleting hprepared hmissed hstopped.symm.trans
      refine inv_setPending htab hnot ?_
      rintro q ⟨⟩
      exact ⟨_, tabs_setTab s p.tab _, hok.generation.trans_eq hgeneration.symm, hok.prepared,
        fun _ hc => (by cases hc)⟩

/-! ## A transaction has completed -/

/-- A tab remembers an id as its own when it prepared it. -/
theorem resolve_prepared {t : Tab} {op : Op} {result : Result} {id : String}
    (h : id ∈ (t.resolve op result).preparedHere) :
    (∃ roomId given payload, op = .prepare roomId given payload ∧ result = .prepared true ∧
      id = payload.clientMessageId) ∨
    (id ∈ t.preparedHere ∧ ∀ explicitRetry, op ≠ .beforeSend id explicitRetry) := by
  unfold Tab.resolve at h
  split at h
  · exact .inr ⟨h, fun _ hop => (by cases hop)⟩
  · rename_i roomId given payload
    rcases List.mem_cons.mp h with rfl | h
    · exact .inl ⟨roomId, given, payload, rfl, rfl, rfl⟩
    · exact .inr ⟨h, fun _ hop => (by cases hop)⟩
  · exact .inr ⟨h, fun _ hop => (by cases hop)⟩
  · rename_i id' explicitRetry
    obtain ⟨hmem, hne⟩ := List.mem_filter.mp h
    refine .inr ⟨hmem, fun _ hop => ?_⟩
    cases hop
    simp at hne
  · exact .inr ⟨List.mem_of_mem_filter h, fun _ hop => (by cases hop)⟩
  · cases h
  · exact .inr ⟨List.mem_of_mem_filter h, fun _ hop => (by cases hop)⟩
  · exact .inr ⟨h, fun _ hop => (by cases hop)⟩
  · rename_i hsend _ _ _ _ _ _
    exact .inr ⟨h, hsend id⟩

/-- A tab remembers an id as missed when its lookup did not find it. -/
theorem resolve_missed {t : Tab} {op : Op} {result : Result} {id : String}
    (h : id ∈ (t.resolve op result).lookup404) : op = .lookupNotFound id ∨ id ∈ t.lookup404 := by
  unfold Tab.resolve at h
  split at h
  · exact .inr h
  · exact .inr h
  · rcases List.mem_cons.mp h with rfl | h
    · exact .inl rfl
    · exact .inr h
  · exact .inr h
  · exact .inr (List.mem_of_mem_filter h)
  · exact .inr h
  · exact .inr h
  · exact .inr h
  · exact .inr h

theorem resolve_frame (t : Tab) (op : Op) (result : Result) :
    (t.resolve op result).generation = t.generation ∧
      (t.resolve op result).stopped = t.stopped := by
  unfold Tab.resolve
  split <;> exact ⟨rfl, rfl⟩

/-- The tab has handled its completion: the operation is over. -/
theorem inv_handled {nfc : Nfc} {s : Sys} (h : Inv nfc s) {k : Nat} {p : Pending} {t t' : Tab}
    {result : Result} {l : List Event} (hp : s.pending k = some p)
    (ht : s.tabs p.tab = some t) (hstage : p.stage = .committed result)
    (hgeneration : t'.generation = t.generation)
    (hevents : ∀ e ∈ l, ∃ id, e = .notFound p.tab id)
    (hprepared : t'.stopped = false → ∀ id ∈ t'.preparedHere,
      Unspent (Creates p.tab id) p.tab id s.log)
    (hmissed : ∀ id ∈ t'.lookup404,
      .notFound p.tab id ∈ l ∨ Unspent (Misses p.tab id) p.tab id s.log) :
    Inv nfc (({ s with log := l ++ s.log }.setTab p.tab
      { t' with completing := none }).setPending k none) := by
  have hspends : ∀ id, ∀ e ∈ l, ¬Spends p.tab id e := by
    intro id e he hs
    obtain ⟨id', rfl⟩ := hevents e he
    obtain hc | ⟨payload, hc⟩ := hs <;> cases hc
  have hcompleting := (h.pendingOk hp ht).completing result hstage
  refine h.of_local (u := { t' with completing := none }) ?_ rfl rfl ?_ ?_ ?_ ?_
  · refine h.store.of_kept (.refl _) (l := l) rfl ?_
    intro tab id given hmem
    obtain ⟨id', hc⟩ := hevents _ hmem
    cases hc
  · intro e he
    obtain ⟨id, rfl⟩ := hevents e he
    rfl
  · intro k' p' hne
    by_cases hk : k' = k
    · subst hk
      simp only [Sys.setPending, Function.update_self, hp, Option.some.injEq, reduceCtorEq,
        false_iff]
      rintro rfl
      exact hne rfl
    · simp only [Sys.setPending, Function.update_of_ne hk]
      exact Iff.rfl
  · intro k' p' hp' htab
    have hk : k' ≠ k := by
      rintro rfl
      simp only [Sys.setPending, Function.update_self, reduceCtorEq] at hp'
    simp only [Sys.setPending, Function.update_of_ne hk] at hp'
    have hother := h.pendingOk hp' (htab ▸ ht)
    -- only one operation of a tab is committed at a time
    have hnot : ∀ result, p'.stage ≠ .committed result := by
      intro result hc
      have hk' := hother.completing result hc
      rw [hcompleting, Option.some.injEq] at hk'
      exact hk hk'.symm
    exact ⟨hother.generation.trans_eq hgeneration.symm, hother.prepared,
      fun result hc => absurd hc (hnot result), fun _ _ _ _ hc => absurd hc (hnot _),
      fun _ _ _ _ hc => absurd hc (hnot _)⟩
  · constructor
    · intro hruns id hid
      exact .inl ((hprepared hruns id hid).append (hspends id))
    · intro id hid
      rcases hmissed id hid with hmem | hunspent
      · obtain ⟨newer, older, hsplit⟩ := List.append_of_mem hmem
        have hgranted : Unspent (Misses p.tab id) p.tab id
            (.notFound p.tab id :: (older ++ s.log)) := .granted rfl
        show Unspent _ _ _ (l ++ s.log)
        rw [hsplit, List.append_assoc]
        refine hgranted.append ?_
        intro e he
        exact hspends id e (hsplit ▸ List.mem_append_left _ he)
      · exact hunspent.append (hspends id)

/-- Completing an operation keeps the invariant. -/
theorem inv_completed {nfc : Nfc} {s : Sys} (h : Inv nfc s) {k : Nat} {p : Pending} {t : Tab}
    (hp : s.pending k = some p) (ht : s.tabs p.tab = some t) : Inv nfc (s.completed k p t) := by
  have hok := h.pendingOk hp ht
  have htab := h.tabs p.tab t ht
  cases hstage : p.stage with
  | started =>
    simp only [Sys.completed, hstage]
    exact h
  | aborted e =>
    have hnot : ∀ q, s.pending k = some q → ∀ result, q.stage ≠ .committed result := by
      intro q hq result hc
      rw [hp, Option.some.injEq] at hq
      subst hq
      rw [hstage] at hc
      cases hc
    have hremoved : Inv nfc (s.setPending k none) := inv_setPending h hnot fun _ hc => (by cases hc)
    simp only [Sys.completed, hstage]
    split
    · exact inv_beginGrant hremoved ht (Function.update_self ..)
    · exact hremoved
  | committed result =>
    have hcompleting := hok.completing result hstage
    simp only [Sys.completed, hstage]
    split
    · -- the tab was suspended or closed between commit and answer: the answer is lost
      rename_i hstale
      refine inv_handled h (l := []) hp ht hstage rfl (fun e he => (by cases he)) ?_
        fun id hid => .inr (htab.missed id hid)
      intro hruns id hid
      rcases htab.prepared hruns id hid with hunspent | ⟨k', p', _, _, hk', hp', _, _, _, heq⟩
      · exact hunspent
      · rw [hcompleting, Option.some.injEq] at hk'
        subst hk'
        rw [hp, Option.some.injEq] at hp'
        subst hp'
        rcases hstale with hstopped | hne
        · rw [hruns] at hstopped
          cases hstopped
        · exact absurd heq hne
    · rename_i hfresh
      rw [Pending.Stale, not_or, not_not] at hfresh
      obtain ⟨hgeneration, hstopped⟩ := resolve_frame t p.op result
      refine inv_handled h hp ht hstage hgeneration ?_ ?_ ?_
      · intro e he
        unfold resolveEvents at he
        split at he
        · exact ⟨_, List.mem_singleton.mp he⟩
        · cases he
      · intro hruns id hid
        rcases resolve_prepared hid with ⟨roomId, given, payload, hop, rfl, rfl⟩ | ⟨hmem, hne⟩
        · exact hok.creating roomId given payload hop hstage hfresh.2
        · -- the permission was there before; the call that may be spending it is this one
          rcases htab.prepared (hstopped ▸ hruns) id hmem with
            hunspent | ⟨k', p', explicitRetry, _, hk', hp', _, hop, _⟩
          · exact hunspent
          · rw [hcompleting, Option.some.injEq] at hk'
            subst hk'
            rw [hp, Option.some.injEq] at hp'
            subst hp'
            exact absurd hop (hne explicitRetry)
      · intro id hid
        rcases resolve_missed hid with hop | hmem
        · left
          rw [hop]
          exact List.mem_singleton.mpr rfl
        · exact .inr (htab.missed id hmem)

/-! ## Every step -/

/-- Where records are kept the invariant is. -/
theorem inv_state {nfc : Nfc} {s : Sys} (h : Inv nfc s) {state : OutboxState}
    (hkept : Kept s.state.records state.records) : Inv nfc { s with state := state } where
  store := h.store.of_kept hkept (l := []) rfl fun _ _ _ hmem => (by cases hmem)
  pending := h.pending
  tabs := h.tabs

/-- Opening a tab keeps the invariant. -/
theorem inv_openTab {nfc : Nfc} {s : Sys} (h : Inv nfc s) {tab : TabId} {grant : Option Grant}
    (ht : s.tabs tab = none) : Inv nfc (s.setTab tab { lastGrant := grant }) := by
  refine h.of_local (l := []) ⟨h.store.ids, h.store.original⟩ rfl rfl
    (fun e he => (by cases he)) (fun k p _ => Iff.rfl) ?_ ⟨?_, ?_⟩
  · -- no operation was called in a tab that was not open
    rintro k p hp rfl
    obtain ⟨t, ht', -⟩ := h.pending k p hp
    rw [ht] at ht'
    cases ht'
  · intro _ id hid
    cases hid
  · intro id hid
    cases hid

/-- Closing a tab keeps the invariant. -/
theorem inv_close {nfc : Nfc} {s : Sys} (h : Inv nfc s) {tab : TabId} {t : Tab}
    (ht : s.tabs tab = some t) :
    Inv nfc ((s.suspended tab t).setTab tab { t.suspend with stopped := true }) := by
  obtain ⟨hsuspended, htab⟩ := inv_suspended h ht
  exact inv_setTab hsuspended htab rfl rfl (List.Subset.refl _) (List.Subset.refl _)
    fun hruns => (by cases hruns)

/-- A stale operation that does nothing keeps the invariant. -/
theorem inv_stale {nfc : Nfc} {s : Sys} (h : Inv nfc s) {k : Nat} {p : Pending} {t : Tab}
    (hp : s.pending k = some p) (ht : s.tabs p.tab = some t) (hstage : p.stage = .started) :
    Inv nfc (s.setPending k (some { p with stage := .aborted .locked })) := by
  have hok := h.pendingOk hp ht
  refine inv_setPending h ?_ ?_
  · intro q hq result hc
    rw [hp, Option.some.injEq] at hq
    subst hq
    rw [hstage] at hc
    cases hc
  · rintro q ⟨⟩
    exact ⟨t, ht, hok.generation, hok.prepared, fun result hc => (by cases hc)⟩

/-- What each command needs, and what it does. -/
theorem exec_cases {nfc : Nfc} {c : Command} {s s' : Sys} (h : exec nfc c s = some s') :
    match c with
    | .openTab tab now => s.tabs tab = none ∧ ∃ grant,
      s' = { s with state := expire s.state now }.setTab tab { lastGrant := grant }
    | .openLost now => s' = { s with state := expire s.state now }
    | .call tab k call => ∃ t op, s.tabs tab = some t ∧ s.pending k = none ∧
      call.op nfc t = .ok op ∧ s' = s.start tab t k op
    | .run k now later commits => ∃ p t, s.pending k = some p ∧ s.tabs p.tab = some t ∧
      p.stage = .started ∧
      (s' = s.setPending k (some { p with stage := .aborted .locked }) ∨
        t.stopped = false ∧ p.generation = t.generation ∧ t.completing = none ∧
          s' = s.ran k p t now later commits)
    | .complete k => ∃ p t, s.pending k = some p ∧ s.tabs p.tab = some t ∧
      s' = s.completed k p t
    | .suspend tab => ∃ t, s.tabs tab = some t ∧ s' = s.suspended tab t
    | .close tab => ∃ t, s.tabs tab = some t ∧
      (s' = s ∨ s' = (s.suspended tab t).setTab tab { t.suspend with stopped := true }) := by
  cases c with
  | openTab tab now =>
    simp only [exec] at h
    split at h
    · cases h
    · rename_i hnone
      cases h
      exact ⟨hnone, _, rfl⟩
  | openLost now =>
    cases h
    rfl
  | call tab k call =>
    simp only [exec] at h
    split at h
    · rename_i t ht hk
      split at h
      · rename_i op hop
        cases h
        exact ⟨t, op, ht, hk, hop, rfl⟩
      · cases h
    · cases h
  | run k now later commits =>
    simp only [exec] at h
    split at h
    · rename_i p hp
      split at h
      · rename_i t ht hstage
        refine ⟨p, t, hp, ht, hstage, ?_⟩
        split at h
        · cases h
          exact .inl rfl
        · rename_i hfresh
          -- the transaction starts: the tab runs, and nothing of it waits to complete
          rw [Pending.Stale, not_or, not_not] at hfresh
          split at h
          · rename_i hidle
            cases h
            exact .inr ⟨Bool.eq_false_iff.mpr hfresh.1, hfresh.2, hidle, rfl⟩
          · cases h
      · cases h
    · cases h
  | complete k =>
    simp only [exec] at h
    split at h
    · rename_i p hp
      split at h
      · rename_i t ht
        cases h
        exact ⟨p, t, hp, ht, rfl⟩
      · cases h
    · cases h
  | suspend tab =>
    simp only [exec, Option.map_eq_some_iff] at h
    obtain ⟨t, ht, rfl⟩ := h
    exact ⟨t, ht, rfl⟩
  | close tab =>
    simp only [exec, Option.map_eq_some_iff] at h
    obtain ⟨t, ht, rfl⟩ := h
    refine ⟨t, ht, ?_⟩
    split
    · exact .inl rfl
    · exact .inr rfl

/-- Every step keeps the invariant. -/
theorem exec_inv {nfc : Nfc} {c : Command} {s s' : Sys} (h : exec nfc c s = some s')
    (hinv : Inv nfc s) : Inv nfc s' := by
  cases c with
  | openTab tab now =>
    obtain ⟨hnone, grant, rfl⟩ := exec_cases h
    exact inv_openTab (inv_state hinv (kept_expire s.state now)) hnone
  | openLost now =>
    have hlost : s' = { s with state := expire s.state now } := exec_cases h
    subst hlost
    exact inv_state hinv (kept_expire s.state now)
  | call tab k call =>
    obtain ⟨t, op, ht, hk, hop, rfl⟩ := exec_cases h
    exact inv_start hinv ht hk (op_normal hop)
  | run k now later commits =>
    obtain ⟨p, t, hp, ht, hstage, rfl | ⟨-, hcurrent, hidle, rfl⟩⟩ := exec_cases h
    · exact inv_stale hinv hp ht hstage
    · exact inv_ran hinv hp ht hstage hidle hcurrent
  | complete k =>
    obtain ⟨p, t, hp, ht, rfl⟩ := exec_cases h
    exact inv_completed hinv hp ht
  | suspend tab =>
    obtain ⟨t, ht, rfl⟩ := exec_cases h
    exact (inv_suspended hinv ht).1
  | close tab =>
    obtain ⟨t, ht, rfl | rfl⟩ := exec_cases h
    · exact hinv
    · exact inv_close hinv ht

/-- The invariant holds in every run. -/
theorem reachable_inv {nfc : Nfc} {s : Sys} (hs : (system nfc).Reachable s) : Inv nfc s := by
  refine hs.induct (P := Inv nfc) ⟨?_, ?_⟩
  · rintro _ rfl
    exact ⟨⟨List.nodup_nil, fun r hr => absurd hr List.not_mem_nil⟩, fun k p hp => (by cases hp),
      fun tab t ht => (by cases ht)⟩
  · intro s t c _ hinv hstep
    exact exec_inv hstep hinv

end Rogichat.Outbox
