import Rogichat.Identity.Apple
import Rogichat.Lib.Trace
import Rogichat.Lib.Watermark

/-!
# The status of an Apple identity

Notifications and exchanges of any identities commit in any order, between other transactions.
What the tables say of one identity is a mark that proofs and revocations are delivered to.

* **`notification_view`**, **`exchange_view`** — a transaction delivers to the identity it is for,
  and to no other.
* **`reachable_view`** — over every run the tables are the mark of the deliveries.
-/

namespace Rogichat.Identity

open Lib Lib.Watermark

/-! ## The system -/

/-- The transactions of the Apple identity, in any order. -/
inductive AppleCommand
  | notification (event : AppleEvent)
  | exchange (input : AppleExchangeDto) (credentials : Option SessionCredentials) (drawn : Drawn)
  /-- Another transaction and the passing of time. -/
  | other (db : Db) (now : Time)

/-- The tables, the clock, and what was delivered to each identity so far, oldest first. -/
structure State where
  db : Db
  now : Time
  delivered : String → String → List (Delivery Time) := fun _ _ => []

/-- The event reaches its identity: it is new, it is not about mail, and no guard keeps it. -/
def Reaches (config : Config) (db : Db) (event : AppleEvent) : Prop :=
  (¬db.receipts.Has fun r => r.digest = event.id) ∧ ¬event.Email ∧
    (IdentityGuardService.checkApple config db event.scope event.subject).isOk

instance (config : Config) (db : Db) (event : AppleEvent) : Decidable (Reaches config db event) :=
  inferInstanceAs (Decidable (_ ∧ _ ∧ _))

/-- What a command delivers to an identity. An exchange that stops at the recorded event time
has presented its proof; one that stops elsewhere has presented none. -/
def delivers (config : Config) (s : State) (scope subject : String) :
    AppleCommand → List (Delivery Time)
  | .notification event =>
    if Reaches config s.db event ∧ event.scope = scope ∧ event.subject = subject then
      [.revoke event.eventTime]
    else []
  | .exchange input credentials drawn =>
    match presented s.db input with
    | some proof =>
      if proof.scope = scope ∧ proof.subject = subject ∧
          ((AppleService.exchange config s.db s.now input credentials drawn).isOk ∨
            proof.issuedAt * 1000 ≤ recordedEvent s.db scope subject) then
        [.prove (proof.issuedAt * 1000)]
      else []
    | none => []
  | .other _ _ => []

/-- What a command commits. One that stops leaves the tables; the other transactions of the
service touch neither the recorded events nor the identities. -/
def Commits (config : Config) (s : State) : AppleCommand → State → Prop
  | .notification event, t =>
    AppleLifecycleService.notification config s.db s.now event = .ok t.db ∧ t.now = s.now
  | .exchange input credentials drawn, t =>
    (AppleService.exchange config s.db s.now input credentials drawn = .ok t.db ∨
      (AppleService.exchange config s.db s.now input credentials drawn).isOk = false ∧
        t.db = s.db) ∧ t.now = s.now
  | .other db now, t => t.db = db ∧ t.now = now ∧ db.events = s.db.events ∧
    db.identities = s.db.identities

/-- The identities, from the first. -/
def identities (config : Config) : System State AppleCommand where
  init s := s.db.events = .empty ∧ s.db.identities = .empty ∧ s.delivered = fun _ _ => []
  step c s t := Commits config s c t ∧
    t.delivered = fun scope subject => s.delivered scope subject ++ delivers config s scope subject c

/-- What the tables say of an identity. -/
def view (db : Db) (scope subject : String) : Mark Time where
  fence := recordedEvent db scope subject
  proved := (AppleRepository.identity db scope subject).bind AuthIdentity.verifiedAt
  valid := (AppleRepository.identity db scope subject).any fun i => i.status = .verified

/-! ## The recorded event time -/

variable {config : Config} {db db' : Db} {now : Time} {scope subject : String}

/-- The fence row is there after it was asked for, and no recorded time changed. -/
theorem event_spec (db : Db) (scope subject : String) :
    (∃ e ∈ (AppleRepository.event db scope subject).events,
      e.scope = scope ∧ e.subject = subject) ∧
    ∀ scope' subject', recordedEvent (AppleRepository.event db scope subject) scope' subject' =
      recordedEvent db scope' subject' := by
  unfold AppleRepository.event
  cases hinsert : db.events.insert { scope, subject, revokedAt := 0 } with
  | none =>
    obtain ⟨e, he, k, hk, hk'⟩ := Table.clash_of_insert hinsert
    obtain rfl := List.mem_singleton.mp hk
    refine ⟨⟨e, he, ?_⟩, fun _ _ => rfl⟩
    have hkey := List.mem_singleton.mp hk'
    exact ⟨(Prod.mk.inj hkey).1, (Prod.mk.inj hkey).2⟩
  | some events =>
    have hnew : ({ scope, subject, revokedAt := 0 } : AppleIdentityEvent) ∈ events :=
      (Table.mem_insert hinsert).mpr (.inr rfl)
    refine ⟨⟨_, hnew, rfl, rfl⟩, fun scope' subject' => ?_⟩
    rw [recordedEvent, recordedEvent]
    show Option.getD (Option.map _ (events.find? _)) 0 = _
    rw [Table.find?_insert hinsert]
    cases db.events.find? fun e => e.scope = scope' ∧ e.subject = subject' with
    | some e => rfl
    | none =>
      simp only [Option.none_or]
      split <;> rfl

/-- A newer event moves the recorded time of its own subject. -/
theorem recordEvent_spec {eventTime : Time}
    (hrow : ∃ e ∈ db.events, e.scope = scope ∧ e.subject = subject)
    (hlater : recordedEvent db scope subject < eventTime) (scope' subject' : String) :
    recordedEvent (AppleLifecycleRepository.recordEvent db scope subject eventTime) scope' subject' =
      if scope' = scope ∧ subject' = subject then eventTime
      else recordedEvent db scope' subject' := by
  have hq : ∀ e : AppleIdentityEvent,
      (({ e with revokedAt := eventTime } : AppleIdentityEvent).scope = scope' ∧
        ({ e with revokedAt := eventTime } : AppleIdentityEvent).subject = subject') ↔
      e.scope = scope' ∧ e.subject = subject' := fun e => Iff.rfl
  unfold recordedEvent AppleLifecycleRepository.recordEvent at *
  dsimp only
  rw [Table.find?_update hq]
  cases hfind : db.events.find? fun e => e.scope = scope' ∧ e.subject = subject' with
  | none =>
    by_cases hsame : scope' = scope ∧ subject' = subject
    · obtain ⟨e, he, hscope, hsubject⟩ := hrow
      exact absurd ⟨hscope.trans hsame.1.symm, hsubject.trans hsame.2.symm⟩
        (Table.find?_eq_none.mp hfind e he)
    · rw [if_neg hsame]
      rfl
  | some e =>
    obtain ⟨hscope, hsubject⟩ := Table.holds_of_find? hfind
    by_cases hsame : scope' = scope ∧ subject' = subject
    · obtain ⟨rfl, rfl⟩ := hsame
      have hrecorded : e.revokedAt < eventTime := by
        rw [hfind] at hlater
        exact hlater
      rw [if_pos ⟨rfl, rfl⟩, Option.map_some, if_pos ⟨hscope, hsubject, hrecorded⟩]
      rfl
    · rw [if_neg hsame, Option.map_some, if_neg]
      rintro ⟨hscope', hsubject', -⟩
      exact hsame ⟨hscope.symm.trans hscope', hsubject.symm.trans hsubject'⟩

/-! ## The identity -/

theorem view_congr (hevents : db'.events = db.events) (hids : db'.identities = db.identities) :
    view db' scope subject = view db scope subject := by
  simp only [view, recordedEvent, AppleRepository.identity, hevents, hids]

theorem identity_spec {i : AuthIdentity} (h : AppleRepository.identity db scope subject = some i) :
    i ∈ db.identities ∧ i.scope = scope ∧ i.subject = subject :=
  ⟨Table.mem_of_find? h,
    Table.holds_of_find? (p := fun i : AuthIdentity => i.scope = scope ∧ i.subject = subject) h⟩

/-- An update that keeps every subject changes what is found, and nothing else. -/
theorem identity_update {p : AuthIdentity → Prop} [DecidablePred p]
    {f : AuthIdentity → AuthIdentity} {hf : Table.Keeps f}
    (hids : db'.identities = db.identities.update p f hf)
    (hscope : ∀ i, (f i).scope = i.scope) (hsubject : ∀ i, (f i).subject = i.subject) :
    AppleRepository.identity db' scope subject =
      (AppleRepository.identity db scope subject).map fun i => if p i then f i else i := by
  rw [AppleRepository.identity, hids, Table.find?_update, AppleRepository.identity]
  intro i
  rw [hscope, hsubject]

/-- Two subjects have two identities. -/
theorem identity_ne {i j : AuthIdentity} {scope' subject' : String}
    (hi : AppleRepository.identity db scope subject = some i)
    (hj : AppleRepository.identity db scope' subject' = some j)
    (hne : ¬(scope = scope' ∧ subject = subject')) : j.id ≠ i.id := by
  obtain ⟨hi, hscope, hsubject⟩ := identity_spec hi
  obtain ⟨hj, hscope', hsubject'⟩ := identity_spec hj
  intro hid
  obtain rfl := eq_of_identity hj hi hid
  exact hne ⟨hscope.symm.trans hscope', hsubject.symm.trans hsubject'⟩

/-! ## Notifications -/

/-- An event that is not newer than the recorded one, or than the proof of the identity, leaves
the accounts alone. -/
theorem enforce_quiet {event : AppleEvent}
    (h : (view db event.scope event.subject).Later event.eventTime) :
    (AppleLifecycleService.enforce db now event).identities = db.identities ∧
      (AppleLifecycleService.enforce db now event).sessions = db.sessions ∧
      (AppleLifecycleService.enforce db now event).users = db.users := by
  unfold AppleLifecycleService.enforce
  dsimp only
  split
  · exact ⟨rfl, rfl, rfl⟩
  · split
    · exact ⟨rfl, rfl, rfl⟩
    · next identity hfound =>
      have hlater : ∃ t ∈ identity.verifiedAt, event.eventTime < t := by
        obtain ⟨p, hp, hlt⟩ := h
        change AppleRepository.identity db event.scope event.subject = some identity at hfound
        rw [view, hfound] at hp
        exact ⟨p, hp, hlt⟩
      rw [if_pos hlater]
      exact ⟨rfl, rfl, rfl⟩

/-- Invalidating an identity that was not verified after the event unsets it, and no other. -/
theorem invalidate_view {identity : AuthIdentity} {eventTime : Time} {own own' : String}
    (hfound : AppleRepository.identity db own own' = some identity)
    (hold : ∀ t ∈ identity.verifiedAt, t ≤ eventTime) (scope subject : String) :
    view (AppleLifecycleRepository.invalidate db now identity.id identity.userId eventTime)
        scope subject =
      { view db scope subject with
        valid := (view db scope subject).valid && !decide (own = scope ∧ own' = subject) } := by
  have hlookup : AppleRepository.identity
      (AppleLifecycleRepository.invalidate db now identity.id identity.userId eventTime)
      scope subject = (AppleRepository.identity db scope subject).map fun i =>
        if i.id = identity.id ∧ ∀ t ∈ i.verifiedAt, t ≤ eventTime then
          { i with status := .revoked, revokedAt := some eventTime }
        else i :=
    @identity_update db _ scope subject _ _ _ ⟨fun _ => rfl⟩ rfl (fun _ => rfl) fun _ => rfl
  have hfence : recordedEvent
      (AppleLifecycleRepository.invalidate db now identity.id identity.userId eventTime)
      scope subject = recordedEvent db scope subject := rfl
  simp only [view, hlookup, hfence]
  by_cases hown : own = scope ∧ own' = subject
  · obtain ⟨rfl, rfl⟩ := hown
    rw [hfound, Option.map_some, if_pos ⟨rfl, hold⟩]
    simp
  · cases hother : AppleRepository.identity db scope subject with
    | none => simp
    | some i =>
      have hne := identity_ne hfound hother hown
      simp [hne, hown]

theorem enforce_view (db : Db) (now : Time) (event : AppleEvent) (scope subject : String) :
    view (AppleLifecycleService.enforce db now event) scope subject =
      if event.scope = scope ∧ event.subject = subject then
        (view db scope subject).deliver (.revoke event.eventTime)
      else view db scope subject := by
  obtain ⟨hrow, hkept⟩ := event_spec db event.scope event.subject
  unfold AppleLifecycleService.enforce
  dsimp only
  rw [hkept]
  by_cases hstale : recordedEvent db event.scope event.subject ≥ event.eventTime
  · rw [if_pos hstale]
    have hsame : view (AppleRepository.event db event.scope event.subject) scope subject =
        view db scope subject := by
      simp only [view, hkept]
      rfl
    rw [hsame]
    split
    · next hsubject =>
      obtain ⟨rfl, rfl⟩ := hsubject
      exact (if_pos hstale).symm
    · rfl
  · rw [if_neg hstale]
    have hrecorded := recordEvent_spec hrow (by rw [hkept]; exact lt_of_not_ge hstale)
    -- the event is recorded, and the identity is still what it was
    generalize hdb₁ : AppleLifecycleRepository.recordEvent
      (AppleRepository.event db event.scope event.subject) event.scope event.subject
      event.eventTime = db₁ at hrecorded ⊢
    have hids : db₁.identities = db.identities := by
      rw [← hdb₁]
      rfl
    have hlookup : ∀ a b, AppleRepository.identity db₁ a b = AppleRepository.identity db a b := by
      intro a b
      rw [AppleRepository.identity, hids]
      rfl
    have hview : view db₁ scope subject =
        if event.scope = scope ∧ event.subject = subject then
          { view db scope subject with fence := event.eventTime }
        else view db scope subject := by
      simp only [view, hlookup, hrecorded, hkept, eq_comm (a := scope), eq_comm (a := subject)]
      split <;> rfl
    by_cases hown : event.scope = scope ∧ event.subject = subject
    · obtain ⟨rfl, rfl⟩ := hown
      rw [if_pos ⟨rfl, rfl⟩] at hview ⊢
      have hdeliver : (view db event.scope event.subject).deliver (.revoke event.eventTime) =
          { view db event.scope event.subject with
            fence := event.eventTime
            valid := (view db event.scope event.subject).valid &&
              decide ((view db event.scope event.subject).Later event.eventTime) } :=
        if_neg hstale
      rw [hdeliver, hlookup]
      cases hfound : AppleRepository.identity db event.scope event.subject with
      | none =>
        show view db₁ _ _ = _
        rw [hview]
        simp [view, hfound]
      | some identity =>
        show view (if _ then _ else _) _ _ = _
        have hlater : (view db event.scope event.subject).Later event.eventTime ↔
            ∃ t ∈ identity.verifiedAt, event.eventTime < t := by
          simp [Mark.Later, view, hfound]
        by_cases hnewer : ∃ t ∈ identity.verifiedAt, event.eventTime < t
        · rw [if_pos hnewer, hview, decide_eq_true (hlater.mpr hnewer), Bool.and_true]
        · have hold : ∀ t ∈ identity.verifiedAt, t ≤ event.eventTime :=
            fun t ht => le_of_not_gt fun hlt => hnewer ⟨t, ht, hlt⟩
          rw [if_neg hnewer, invalidate_view ((hlookup _ _).trans hfound) hold, hview,
            decide_eq_false fun h => hnewer (hlater.mp h)]
          simp
    · rw [if_neg hown] at hview ⊢
      rw [hlookup]
      cases hfound : AppleRepository.identity db event.scope event.subject with
      | none => exact hview
      | some identity =>
        show view (if _ then _ else _) _ _ = _
        by_cases hnewer : ∃ t ∈ identity.verifiedAt, event.eventTime < t
        · rw [if_pos hnewer, hview]
        · have hold : ∀ t ∈ identity.verifiedAt, t ≤ event.eventTime :=
            fun t ht => le_of_not_gt fun hlt => hnewer ⟨t, ht, hlt⟩
          rw [if_neg hnewer, invalidate_view ((hlookup _ _).trans hfound) hold, hview]
          simp [hown]

/-- A passed check changes the guards alone, and reads nothing but them and their key. -/
theorem checkApple_ok : IdentityGuardService.checkApple config db scope subject = .ok db' ↔
    ∃ key, config.identityGuardKey = some key ∧
      (∀ fingerprint ∈ db.guardKey, fingerprint = config.fingerprint key) ∧
      ∃ guards, guards = IdentityGuardRepository.lock db.guards
          { subjectHmac := config.appleHmac key scope subject,
            keyFingerprint := config.fingerprint key } ∧
        (¬guards.Has fun g => g.subjectHmac = config.appleHmac key scope subject ∧
          g.requestId ≠ none) ∧ db' = { db with guards } := by
  simp only [IdentityGuardService.checkApple, IdentityGuardService.checkKey, bind_ok, require_ok,
    ensure_ok, pure_ok]
  constructor
  · rintro ⟨key, hkey, -, hfingerprint, -, hfree, rfl⟩
    exact ⟨key, hkey, hfingerprint, _, rfl, hfree, rfl⟩
  · rintro ⟨key, hkey, hfingerprint, guards, rfl, hfree, rfl⟩
    exact ⟨key, hkey, (), hfingerprint, (), hfree, rfl⟩

theorem isOk_iff {ε α : Type} {x : Except ε α} : x.isOk = true ↔ ∃ a, x = .ok a := by
  cases x <;> simp [Except.isOk, Except.toBool]

/-- The receipts do not matter to the check. -/
theorem checkApple_receipts (receipts : Table NotificationReceipt) :
    (IdentityGuardService.checkApple config { db with receipts } scope subject).isOk = true ↔
      (IdentityGuardService.checkApple config db scope subject).isOk = true := by
  rw [isOk_iff, isOk_iff]
  simp only [checkApple_ok]
  constructor
  · rintro ⟨-, key, hkey, hfingerprint, guards, hguards, hfree, -⟩
    exact ⟨_, key, hkey, hfingerprint, guards, hguards, hfree, rfl⟩
  · rintro ⟨-, key, hkey, hfingerprint, guards, hguards, hfree, -⟩
    exact ⟨_, key, hkey, hfingerprint, guards, hguards, hfree, rfl⟩

/-- What a committed notification does: it enforces an event that reaches its identity, and
otherwise leaves events, identities, sessions and accounts alone. -/
theorem notification_spec {event : AppleEvent}
    (h : AppleLifecycleService.notification config db now event = .ok db') :
    (Reaches config db event ∧ ∃ guards receipts, db' =
      AppleLifecycleService.enforce { db with guards, receipts } now event) ∨
    ¬Reaches config db event ∧ ∃ receipts, db' = { db with receipts } := by
  unfold AppleLifecycleService.notification at h
  cases hinsert : db.receipts.insert { digest := event.id } with
  | none =>
    rw [hinsert] at h
    obtain rfl := pure_ok.mp h
    obtain ⟨r, hr, k, hk, hk'⟩ := Table.clash_of_insert hinsert
    have hdigest : r.digest = event.id :=
      (List.mem_singleton.mp hk).symm.trans (List.mem_singleton.mp hk')
    exact .inr ⟨fun hreaches => hreaches.1 ⟨r, hr, hdigest⟩, db.receipts, rfl⟩
  | some receipts =>
    rw [hinsert] at h
    dsimp only at h
    have hfresh : ¬db.receipts.Has fun r => r.digest = event.id := by
      rintro ⟨r, hr, hdigest⟩
      exact Table.fresh_of_insert hinsert hr
        ⟨event.id, List.mem_singleton.mpr hdigest.symm, List.mem_cons_self⟩
    have hchecked := @checkApple_receipts config db event.scope event.subject receipts
    by_cases hemail : event.Email
    · rw [if_pos hemail] at h
      obtain rfl := pure_ok.mp h
      exact .inr ⟨fun hreaches => hreaches.2.1 hemail, receipts, rfl⟩
    · rw [if_neg hemail] at h
      split at h
      · next checked hcheck =>
        obtain rfl := pure_ok.mp h
        refine .inl ⟨⟨hfresh, hemail, hchecked.mp (isOk_iff.mpr ⟨_, hcheck⟩)⟩, ?_⟩
        obtain ⟨key, -, -, guards, -, -, rfl⟩ := checkApple_ok.mp hcheck
        exact ⟨guards, receipts, rfl⟩
      · next hcheck =>
        obtain rfl := pure_ok.mp h
        refine .inr ⟨fun hreaches => ?_, receipts, rfl⟩
        obtain ⟨checked, hok⟩ := isOk_iff.mp (hchecked.mpr hreaches.2.2)
        rw [hcheck] at hok
        cases hok
      · cases h

/-- What a committed notification delivers. -/
theorem notification_view {event : AppleEvent}
    (h : AppleLifecycleService.notification config db now event = .ok db') (scope subject : String) :
    view db' scope subject =
      if Reaches config db event ∧ event.scope = scope ∧ event.subject = subject then
        (view db scope subject).deliver (.revoke event.eventTime)
      else view db scope subject := by
  rcases notification_spec h with ⟨hreaches, guards, receipts, rfl⟩ | ⟨hnot, receipts, rfl⟩
  · rw [enforce_view]
    simp only [hreaches, true_and]
    rfl
  · rw [if_neg fun hall => hnot hall.1]
    rfl

/-! ## Exchanges -/

/-- `connect` verifies its identity at the issue time, and touches no other. -/
theorem connect_view {userId id : Uuid} {issuedAt : Time} {drawn : Drawn} {own own' : String}
    (h : AppleRepository.connect db (AppleRepository.identity db own own') userId own own' issuedAt
      drawn = .ok (db', id)) :
    db'.events = db.events ∧ ∀ scope subject, view db' scope subject =
      if own = scope ∧ own' = subject then
        { view db scope subject with proved := some issuedAt, valid := true }
      else view db scope subject := by
  cases hfound : AppleRepository.identity db own own' with
  | some identity =>
    simp only [AppleRepository.connect, hfound, bind_ok, pure_ok, Prod.mk.injEq] at h
    obtain ⟨-, -, -, rfl, rfl, -⟩ := h
    refine ⟨rfl, fun scope subject => ?_⟩
    have hlookup : ∀ users, AppleRepository.identity
        { db with
          identities := db.identities.update (fun i => i.id = identity.id) fun i =>
            { i with status := .verified, verifiedAt := some issuedAt, revokedAt := none }
          users } scope subject =
        (AppleRepository.identity db scope subject).map fun i =>
          if i.id = identity.id then
            { i with status := .verified, verifiedAt := some issuedAt, revokedAt := none }
          else i := fun users =>
      @identity_update db _ scope subject _ _ _ ⟨fun _ => rfl⟩ rfl (fun _ => rfl) fun _ => rfl
    -- a login writes no event, so the recorded one stays
    have hfence : ∀ identities users, recordedEvent { db with identities, users } scope subject =
        recordedEvent db scope subject := fun _ _ => rfl
    simp only [view, hlookup, hfence]
    by_cases hown : own = scope ∧ own' = subject
    · obtain ⟨rfl, rfl⟩ := hown
      rw [hfound, if_pos ⟨rfl, rfl⟩, Option.map_some, if_pos rfl]
      rfl
    · rw [if_neg hown]
      cases hother : AppleRepository.identity db scope subject with
      | none => rfl
      | some i =>
        have hne := identity_ne hfound hother hown
        rw [Option.map_some, if_neg hne]
  | none =>
    simp only [AppleRepository.connect, hfound, bind_ok, pure_ok, require_ok, Prod.mk.injEq] at h
    obtain ⟨-, -, identities, hinsert, rfl, -⟩ := h
    refine ⟨rfl, fun scope subject => ?_⟩
    have hlookup : ∀ users, AppleRepository.identity { db with identities, users } scope subject =
        (AppleRepository.identity db scope subject).or
          (if own = scope ∧ own' = subject then
            some { id := drawn.identityId, userId, scope := own, subject := own',
                   verifiedAt := some issuedAt }
          else none) := fun users =>
      Table.find?_insert hinsert fun i => i.scope = scope ∧ i.subject = subject
    have hfence : ∀ identities users, recordedEvent { db with identities, users } scope subject =
        recordedEvent db scope subject := fun _ _ => rfl
    simp only [view, hlookup, hfence]
    by_cases hown : own = scope ∧ own' = subject
    · obtain ⟨rfl, rfl⟩ := hown
      rw [hfound, if_pos ⟨rfl, rfl⟩, if_pos ⟨rfl, rfl⟩]
      rfl
    · rw [if_neg hown, if_neg hown, Option.or_none]

/-- What keeps the recorded events and the identities. -/
def Untouched (db db' : Db) : Prop := db'.events = db.events ∧ db'.identities = db.identities

theorem Untouched.view (h : Untouched db db') (scope subject : String) :
    view db' scope subject = Identity.view db scope subject :=
  view_congr h.1 h.2

theorem account_untouched {existing : Option AuthIdentity} {row : AppleTransaction} {drawn : Drawn}
    {userId : Uuid} (h : AppleService.account db existing row drawn = .ok (db', userId)) :
    Untouched db db' := by
  unfold AppleService.account at h
  split at h
  · simp only [bind_ok, pure_ok, Prod.mk.injEq] at h
    obtain ⟨-, -, rfl, -⟩ := h
    exact ⟨rfl, rfl⟩
  · simp only [bind_ok, pure_ok, Prod.mk.injEq] at h
    obtain ⟨-, -, users, -, rfl, -⟩ := h
    exact ⟨rfl, rfl⟩

theorem activateCredential_untouched {id identityId userId : Uuid}
    (h : AppleRepository.activateCredential db id identityId userId = .ok db') :
    Untouched db db' := by
  simp only [AppleRepository.activateCredential, bind_ok, pure_ok] at h
  obtain ⟨-, -, rfl⟩ := h
  exact ⟨rfl, rfl⟩

theorem revokeSession_untouched (db : Db) (now : Time) (id : Option Uuid) :
    Untouched db (LoginRepository.revokeSession db now id) := by
  cases id <;> exact ⟨rfl, rfl⟩

theorem issue_untouched {userId : Uuid} {client : ClientId} {drawn : Drawn}
    (h : SessionService.issue config db now userId client drawn = .ok db') : Untouched db db' := by
  simp only [SessionService.issue, bind_ok, pure_ok] at h
  obtain ⟨sessions, -, rfl⟩ := h
  exact ⟨rfl, rfl⟩

theorem Untouched.trans {db'' : Db} (h : Untouched db db') (h' : Untouched db' db'') :
    Untouched db db'' := ⟨h'.1.trans h.1, h'.2.trans h.2⟩

theorem connectAndIssue_view {input : AppleExchangeDto} {credentials : Option SessionCredentials}
    {drawn : Drawn} {row : AppleTransaction} {proof : AppleProof}
    (h : AppleService.connectAndIssue config db now input credentials drawn row proof = .ok db') :
    db'.events = db.events ∧ ∀ scope subject, view db' scope subject =
      if proof.scope = scope ∧ proof.subject = subject then
        { view db scope subject with proved := some (proof.issuedAt * 1000), valid := true }
      else view db scope subject := by
  simp only [AppleService.connectAndIssue, bind_ok] at h
  obtain ⟨-, -, -, -, ⟨db₂, userId⟩, haccount, ⟨db₃, identityId⟩, hconnect, db₄, hactivate, db₅,
    hissue, hlast⟩ := h
  have hopened := account_untouched haccount
  have hfound : AppleRepository.identity db proof.scope proof.subject =
      AppleRepository.identity db₂ proof.scope proof.subject := by
    simp only [AppleRepository.identity, hopened.2]
  rw [hfound] at hconnect
  obtain ⟨hevents, hviews⟩ := connect_view hconnect
  have hdone : Untouched db₃ db₅ := by
    refine (activateCredential_untouched hactivate).trans ?_
    refine (revokeSession_untouched db₄ now row.sessionId).trans ?_
    exact ⟨(issue_untouched hissue).1, (issue_untouched hissue).2⟩
  have hresult : db' = db₅ := by
    split at hlast
    · exact (pure_ok.mp hlast).symm
    · simp only [bind_ok, pure_ok] at hlast
      obtain ⟨-, -, rfl⟩ := hlast
      rfl
  rw [hresult]
  refine ⟨hdone.1.trans (hevents.trans hopened.1), fun scope subject => ?_⟩
  rw [hdone.view, hviews, hopened.view]

/-- A committed exchange verifies the identity of its proof, whose issue time is later than the
recorded event. -/
theorem exchange_spec {input : AppleExchangeDto} {credentials : Option SessionCredentials}
    {drawn : Drawn}
    (h : AppleService.exchange config db now input credentials drawn = .ok db') :
    ∃ proof, presented db input = some proof ∧
      recordedEvent db proof.scope proof.subject < proof.issuedAt * 1000 ∧
      ∀ scope subject, view db' scope subject =
        if proof.scope = scope ∧ proof.subject = subject then
          (view db scope subject).deliver (.prove (proof.issuedAt * 1000))
        else view db scope subject := by
  simp only [AppleService.exchange, bind_ok, require_ok, ensure_ok] at h
  obtain ⟨row, hrow, -, -, proof, hproof, -, -, checked, hchecked, -, hfresh, h⟩ := h
  obtain ⟨-, -, -, guards, -, -, rfl⟩ := checkApple_ok.mp hchecked
  obtain ⟨-, hkept⟩ := event_spec { db with guards } proof.scope proof.subject
  rw [hkept] at hfresh
  have hpresented : presented db input = some proof := by
    rw [presented, hrow]
    exact hproof
  refine ⟨proof, hpresented, hfresh, fun scope subject => ?_⟩
  have hbefore : view (AppleRepository.event { db with guards } proof.scope proof.subject)
      scope subject = view db scope subject := by
    simp only [view, hkept]
    rfl
  rw [← hbefore]
  rw [(connectAndIssue_view h).2, hbefore]
  split
  · next hown =>
    obtain ⟨rfl, rfl⟩ := hown
    exact (if_neg (not_le_of_gt hfresh)).symm
  · rfl

/-! ## Runs -/

/-- A command that stopped delivers a proof that is too old, or nothing. -/
theorem stopped_deliver {s : State} {input : AppleExchangeDto}
    {credentials : Option SessionCredentials} {drawn : Drawn}
    (h : (AppleService.exchange config s.db s.now input credentials drawn).isOk = false)
    (scope subject : String) :
    (view s.db scope subject).run
      (delivers config s scope subject (.exchange input credentials drawn)) =
        view s.db scope subject := by
  rw [delivers]
  split
  · next proof _ =>
    split
    · next hdelivered =>
      have hold : proof.issuedAt * 1000 ≤ recordedEvent s.db scope subject := by
        rcases hdelivered.2.2 with hok | hold
        · rw [h] at hok
          cases hok
        · exact hold
      exact if_pos hold
    · rfl
  · rfl

theorem step_view {c : AppleCommand} {s t : State} (h : (identities config).step c s t)
    (scope subject : String) :
    view t.db scope subject =
      (view s.db scope subject).run (delivers config s scope subject c) := by
  obtain ⟨hcommits, -⟩ := h
  cases c with
  | notification event =>
    rw [notification_view hcommits.1, delivers]
    split <;> rfl
  | exchange input credentials drawn =>
    rcases hcommits.1 with hok | ⟨hstopped, hsame⟩
    · obtain ⟨proof, hpresented, -, hviews⟩ := exchange_spec hok
      have hisOk := isOk_iff.mpr ⟨_, hok⟩
      rw [hviews, delivers, hpresented]
      dsimp only
      by_cases hown : proof.scope = scope ∧ proof.subject = subject
      · rw [if_pos hown, if_pos ⟨hown.1, hown.2, .inl hisOk⟩]
        rfl
      · rw [if_neg hown, if_neg fun hall => hown ⟨hall.1, hall.2.1⟩]
        rfl
    · rw [hsame, stopped_deliver hstopped]
  | other db now =>
    obtain ⟨hdb, -, hevents, hids⟩ := hcommits
    rw [hdb]
    exact view_congr hevents hids

/-- Over every run the tables say of an identity what its deliveries make of a blank mark. -/
theorem reachable_view {s : State} (hs : (identities config).Reachable s)
    (scope subject : String) :
    view s.db scope subject = blank.run (s.delivered scope subject) := by
  refine System.Reachable.induct
    (P := fun s => view s.db scope subject = blank.run (s.delivered scope subject)) ⟨?_, ?_⟩ hs
  · rintro s ⟨hevents, hids, hdelivered⟩
    rw [hdelivered]
    simp only [view, recordedEvent, AppleRepository.identity, hevents, hids]
    rfl
  · rintro s t c - hview hstep
    rw [step_view hstep, hstep.2, hview]
    exact (List.foldl_append ..).symm

/-! ## Proofs in order -/

/-- The command does not put an older proof in the place of a newer one. -/
def Forward (config : Config) (s : State) : AppleCommand → Prop
  | .exchange input credentials drawn =>
    (AppleService.exchange config s.db s.now input credentials drawn).isOk →
      ∀ proof ∈ presented s.db input, ∀ identity,
        AppleRepository.identity s.db proof.scope proof.subject = some identity →
          ∀ t ∈ identity.verifiedAt, t ≤ proof.issuedAt * 1000
  | _ => True

/-- The runs all of whose exchanges go forward. -/
def forward (config : Config) : System State AppleCommand where
  init := (identities config).init
  step c s t := (identities config).step c s t ∧ Forward config s c

theorem forward_reachable {s : State} (hs : (forward config).Reachable s) :
    (identities config).Reachable s := by
  induction hs with
  | init h => exact .init h
  | step _ hstep ih => exact .step ih hstep.1

theorem forward_inOrder {s : State} (hs : (forward config).Reachable s) (scope subject : String) :
    InOrder (s.delivered scope subject) := by
  induction hs with
  | init h =>
    rw [h.2.2]
    exact .nil
  | @step s t c hs hstep ih =>
    obtain ⟨⟨-, hdelivered⟩, hforward⟩ := hstep
    have hview := reachable_view (forward_reachable hs) scope subject
    rw [hdelivered]
    dsimp only
    have hnone : InOrder (s.delivered scope subject ++ []) := by rwa [List.append_nil]
    cases c with
    | notification event =>
      rw [delivers]
      split
      · exact .snoc ih fun t ht => by cases ht
      · exact hnone
    | exchange input credentials drawn =>
      rw [delivers]
      split
      · next proof hpresented =>
        split
        · next hown =>
          obtain ⟨rfl, rfl, hcase⟩ := hown
          refine .snoc ih fun t ht hlater p hp => ?_
          obtain rfl := Delivery.prove.inj ht
          rw [← hview] at hlater hp
          have hok : (AppleService.exchange config s.db s.now input credentials drawn).isOk = true := by
            rcases hcase with hok | hold
            · exact hok
            · exact absurd hlater (not_lt_of_ge hold)
          obtain ⟨identity, hfound, hverified⟩ := Option.bind_eq_some_iff.mp hp
          exact hforward hok proof hpresented identity hfound p hverified
        · exact hnone
      · exact hnone
    | other db now => exact hnone

/-- The identity is verified. -/
def Verified (db : Db) (scope subject : String) : Prop :=
  ∃ identity, AppleRepository.identity db scope subject = some identity ∧
    identity.status = .verified

theorem view_valid : (view db scope subject).valid = true ↔ Verified db scope subject := by
  simp [view, Verified, Option.any_eq_true]

/-- **When the status of an identity is that of the newest delivery.** In every reachable state a
verified identity has presented a proof later than every recorded event; the converse holds
exactly where, if any proof presented is later than every event, the one accepted last is. In
every run whose committed exchanges never put an older proof in the place of a newer one the
identity is verified if and only if its newest proof is later than its newest event, and a
notification older than an accepted proof leaves identities, sessions and accounts as they are. -/
theorem status_by_newest {s : State} (hs : (identities config).Reachable s)
    (scope subject : String) :
    (Verified s.db scope subject →
      ProvedAfter (latestRevoked (s.delivered scope subject)) (s.delivered scope subject)) ∧
    ((Verified s.db scope subject ↔
        ProvedAfter (latestRevoked (s.delivered scope subject)) (s.delivered scope subject)) ↔
      Settles (s.delivered scope subject)) ∧
    ((forward config).Reachable s →
      (Verified s.db scope subject ↔
        ProvedAfter (latestRevoked (s.delivered scope subject)) (s.delivered scope subject)) ∧
      ∀ event t, event.scope = scope → event.subject = subject →
        (identities config).step (.notification event) s t →
        (∃ p, Accepted p (s.delivered scope subject) ∧ event.eventTime < p) →
        t.db.identities = s.db.identities ∧ t.db.sessions = s.db.sessions ∧
          t.db.users = s.db.users) := by
  have hview := reachable_view hs scope subject
  rw [← view_valid, hview]
  refine ⟨valid_newest, valid_iff _, fun hforward => ?_⟩
  have horder := forward_inOrder hforward scope subject
  refine ⟨horder.valid_iff, ?_⟩
  rintro event t rfl rfl ⟨hcommits, -⟩ ⟨p, haccepted, hlt⟩
  obtain ⟨hlater, -⟩ := horder.late_revoke haccepted hlt
  rw [← hview] at hlater
  rcases notification_spec hcommits.1 with ⟨-, guards, receipts, hdb⟩ | ⟨-, receipts, hdb⟩
  · rw [hdb]
    exact @enforce_quiet { s.db with guards, receipts } s.now event hlater
  · rw [hdb]
    exact ⟨rfl, rfl, rfl⟩

/-! ## Two logins that finish in the other order -/

/-- A configuration with a guard key. -/
def appleConfig : Config where
  identityGuardKey := some 0
  client _ := { audience := "app", scope := "team" }
  csrf token := token
  challenge verifier := verifier
  fingerprint _ := 0
  appleHmac _ _ _ := 0

/-- A login that waits for its exchange. -/
def pendingLogin (id issuedAt : Nat) : AppleTransaction :=
  { id, clientId := .web, intent := .login, codeChallenge := 7, status := .processing,
    expiresAt := 600000, completion := some 3, completionExpires := some 120000,
    proof := some { subject := "subject", scope := "team", audience := "app", issuedAt } }

/-- Two logins of one subject are waiting, with proofs of the seconds 10 and 5. -/
def pendingLogins : State where
  db :=
    { transactions := ⟨[pendingLogin 1 10, pendingLogin 2 5], by decide⟩
      credentials :=
        ⟨[{ id := 1, userId := none, status := .pending, availableAt := 0 },
          { id := 2, userId := none, status := .pending, availableAt := 0 }], by decide⟩ }
  now := 20000

def finish (id : Uuid) : AppleCommand :=
  .exchange { transactionId := id, clientId := .web, code := 3, codeVerifier := 7 } none
    ⟨100 + id, 200 + id, 300 + id, 400 + id, 500 + id⟩

/-- Apple revoked the consent in second 7. -/
def consentRevoked : AppleCommand :=
  .notification
    { id := 1, scope := "team", subject := "subject", type := .consentRevoked, eventTime := 7000 }

/-- The state after the command, where it commits. -/
def after (c : AppleCommand) (s : State) : Option State :=
  (match c with
    | .notification event => (AppleLifecycleService.notification appleConfig s.db s.now event).toOption
    | .exchange input credentials drawn =>
      (AppleService.exchange appleConfig s.db s.now input credentials drawn).toOption
    | .other _ _ => none).map fun db =>
      { db, now := s.now,
        delivered := fun scope subject =>
          s.delivered scope subject ++ delivers appleConfig s scope subject c }

theorem after_step {c : AppleCommand} {s t : State} (h : after c s = some t) :
    (identities appleConfig).step c s t := by
  obtain ⟨db, hdb, rfl⟩ := Option.map_eq_some_iff.mp h
  cases c with
  | notification event => exact ⟨⟨toOption_eq_some.mp hdb, rfl⟩, rfl⟩
  | exchange input credentials drawn => exact ⟨⟨.inl (toOption_eq_some.mp hdb), rfl⟩, rfl⟩
  | other db now => cases hdb

/-- The run of one login, whose identity is new, goes forward. -/
theorem forward_login {s : State} (h : after (finish 1) pendingLogins = some s) :
    (forward appleConfig).Reachable s := by
  refine .step (.init ⟨rfl, rfl, rfl⟩) ⟨after_step h, ?_⟩
  intro _ proof _ identity hidentity
  have hnone : AppleRepository.identity pendingLogins.db proof.scope proof.subject = none := rfl
  rw [hnone] at hidentity
  cases hidentity

/-- One login with the proof of second 10, and the older event after it: the login has verified
the identity, and the event leaves identities, sessions and accounts as they are. -/
theorem status_by_newest_login : ∃ s t : State,
    s.delivered "team" "subject" = [.prove 10000] ∧
      t.delivered "team" "subject" = [.prove 10000, .revoke 7000] ∧
      (identities appleConfig).step consentRevoked s t ∧ Verified s.db "team" "subject" ∧
      t.db.identities = s.db.identities ∧ t.db.sessions = s.db.sessions ∧
      t.db.users = s.db.users := by
  have hplay : ((after (finish 1) pendingLogins).bind fun s => (after consentRevoked s).map fun t =>
      (s.delivered "team" "subject", t.delivered "team" "subject")) =
        some ([.prove 10000], [.prove 10000, .revoke 7000]) := by
    decide +kernel
  obtain ⟨s, hs, hplay⟩ := Option.bind_eq_some_iff.mp hplay
  obtain ⟨t, ht, hdelivered⟩ := Option.map_eq_some_iff.mp hplay
  obtain ⟨hlogin, hlate⟩ := Prod.mk.inj hdelivered
  have hforward := forward_login hs
  obtain ⟨hstatus, hquiet⟩ :=
    (status_by_newest (forward_reachable hforward) "team" "subject").2.2 hforward
  have haccepted : Accepted 10000 (s.delivered "team" "subject") := by
    rw [hlogin]
    exact ⟨[], [], rfl, by decide⟩
  refine ⟨s, t, hlogin, hlate, after_step ht, hstatus.mpr ?_,
    hquiet _ t rfl rfl (after_step ht) ⟨10000, haccepted, by decide⟩⟩
  rw [hlogin]
  exact ⟨10000, List.mem_singleton_self _, by decide⟩

/-- The login with the older proof finishes last, and the event between the two proofs revokes an
identity whose newest proof is later than every event. -/
theorem older_proof_revoked :
    ¬∀ (config : Config) (s : State), (identities config).Reachable s → ∀ scope subject,
      (Verified s.db scope subject ↔
        ProvedAfter (latestRevoked (s.delivered scope subject)) (s.delivered scope subject)) := by
  intro hclaim
  have hplay : (System.play after [finish 1, finish 2, consentRevoked] pendingLogins).map
      (fun s => s.delivered "team" "subject") =
        some [.prove 10000, .prove 5000, .revoke 7000] := by
    decide +kernel
  obtain ⟨s, hs, hdelivered⟩ := Option.map_eq_some_iff.mp hplay
  have hreach : (identities appleConfig).Reachable s :=
    (System.Run.of_play (fun _ _ _ h => after_step h) hs).reachable (.init ⟨rfl, rfl, rfl⟩)
  have hiff := hclaim appleConfig s hreach "team" "subject"
  rw [← view_valid, reachable_view hreach, hdelivered] at hiff
  have hnewest : ProvedAfter (latestRevoked [.prove 10000, .prove 5000, .revoke 7000])
      [.prove 10000, .prove 5000, .revoke (7000 : Time)] :=
    ⟨10000, List.mem_cons_self, by decide⟩
  have hvalid := hiff.mpr hnewest
  revert hvalid
  decide

end Rogichat.Identity
