import Rogichat.Lib.Versioned
import Rogichat.Notifications.Model

/-!
# Push subscription generations

The generation of a subscription is its version: every write names the one it saw, or
revokes and raises it.

* **`step_ages`** — a step leaves every row as it is or raises its generation.
* **`finish_stale`**, **`remove_stale`** — a generation that is not the current one changes
  nothing.
* **`revived`** — only a registration that names the generation of a revoked row makes it
  active again.
* **`remove_again`**, **`register_again`** — what a repeated request meets.
-/

namespace Rogichat.Notifications

open Lib

/-! ## Statements -/

/-- A generation below the largest has its successor. -/
theorem next_ok {value n : Nat} :
    next value = .ok n ↔ value < maxUnsignedBigInt ∧ value + 1 = n := by
  simp only [next, bind_ok, ensure_ok, pure_ok, exists_const]

theorem eq_of_id {t : Table Subscription} {r r' : Subscription} (hr : r ∈ t) (hr' : r' ∈ t)
    (h : r.id = r'.id) : r = r' := by
  refine Table.eq_of_key hr hr' (k := .inl r.id) List.mem_cons_self ?_
  rw [h]
  exact List.mem_cons_self

/-- A locked row is the one with the id. -/
theorem lock_ok {t : Table Subscription} {id : Uuid} {r : Subscription} :
    lockSubscription t id = some r ↔ r ∈ t ∧ r.id = id := by
  constructor
  · intro h
    exact ⟨Table.mem_of_find? h, Table.holds_of_find? (p := fun r : Subscription => r.id = id) h⟩
  · rintro ⟨hr, rfl⟩
    refine Table.find?_eq_some hr rfl (k := .inl r.id) List.mem_cons_self ?_
    rintro s hs
    rw [← hs]
    exact List.mem_cons_self

/-- A change of a row that no unique index sees. -/
theorem keeps_row {f : Subscription → Subscription} (k : Table.Keeps f) (r : Subscription) :
    (f r).id = r.id ∧ (f r).endpointDigest = r.endpointDigest := by
  have hkeys := k.keys r
  simp only [Row.keys, List.cons.injEq, Sum.inl.injEq, Sum.inr.injEq, and_true] at hkeys
  exact hkeys

/-- What an update makes of one row. -/
theorem update_row {t : Table Subscription} {p : Subscription → Prop} [DecidablePred p]
    {f : Subscription → Subscription} {k : Table.Keeps f} {r r' : Subscription} (hr : r ∈ t)
    (hr' : r' ∈ t.update p f k) (h : r'.id = r.id) : r' = if p r then f r else r := by
  obtain ⟨s, hs, rfl⟩ := Table.mem_update.mp hr'
  have hid : s.id = r.id := by
    by_cases hp : p s
    · rw [if_pos hp, (keeps_row k s).1] at h
      exact h
    · rw [if_neg hp] at h
      exact h
  rw [eq_of_id hs hr hid]

/-- A replacement goes through when the row has the owner and the generation it names. -/
theorem replace_ok {t t' : Table Subscription} {id userId : Uuid} {generation : Nat}
    {data : Subscription → Subscription} {k : Table.Keeps data} :
    replace t id userId generation data k = .ok t' ↔
      (t.select fun r => r.id = id ∧ r.userId = userId ∧ r.generation = generation).length = 1 ∧
        t.update (fun r => r.id = id ∧ r.userId = userId ∧ r.generation = generation) data k =
          t' := by
  simp only [replace, bind_ok, ensure_ok, pure_ok, exists_const]

/-- A revocation goes through when every row it meets has a following generation. -/
theorem revokeWhere_ok {t t' : Table Subscription} {now : Time} {p : Subscription → Prop}
    [DecidablePred p] :
    revokeWhere t now p = .ok t' ↔
      (∀ r ∈ t.select p, r.generation < maxUnsignedBigInt) ∧
        t.update p (fun r => { r with revokedAt := some now, generation := r.generation + 1 }) =
          t' := by
  simp only [revokeWhere, bind_ok, ensure_ok, pure_ok, exists_const]

/-! ## What a request writes -/

/-- The change of a row that `register` makes. -/
def Registration.data (r : Registration) (generation : Nat) (row : Subscription) : Subscription :=
  { row with sessionId := r.actor.sessionId, endpoint := some r.input.endpoint,
             p256dh := some r.input.p256dh, authSecret := some r.input.auth,
             accountGeneration := r.binding.membershipGeneration,
             generation := generation, revokedAt := none }

/-- The rows a request may touch. -/
def Registration.Owns (r : Registration) (row : Subscription) : Prop :=
  row.userId = r.actor.userId ∧ row.audience = r.audience ∧ row.provider = .web

/-- A registration over a row the account owns observes or replaces it. -/
theorem rebind_ok {r : Registration} {t t' : Table Subscription} {prior : Subscription}
    {dto : PushSubscriptionDto} :
    r.rebind t prior = .ok (dto, t') ↔ r.Owns prior ∧
      ((r.Observes prior ∧ { id := prior.id, generation := prior.generation } = dto ∧ t = t') ∨
        (¬r.Observes prior ∧ r.input.generation = some prior.generation ∧
          prior.generation < maxUnsignedBigInt ∧
          { id := prior.id, generation := prior.generation + 1 } = dto ∧
          replace t prior.id r.actor.userId prior.generation (r.data (prior.generation + 1))
            ⟨fun _ => rfl⟩ = .ok t')) := by
  rw [Registration.rebind, bind_ok]
  simp only [ensure_ok, exists_const]
  refine and_congr Iff.rfl ?_
  by_cases hobserves : r.Observes prior
  · rw [if_pos hobserves, Except.ok.injEq, Prod.mk.injEq]
    simp [hobserves]
  · rw [if_neg hobserves]
    simp only [bind_ok, ensure_ok, next_ok, pure_ok, exists_const, hobserves, false_and,
      not_false_eq_true, true_and, false_or, Prod.mk.injEq]
    constructor
    · rintro ⟨hnamed, _, ⟨hmax, rfl⟩, rows, hrows, rfl, rfl⟩
      exact ⟨hnamed, hmax, rfl, hrows⟩
    · rintro ⟨hnamed, hmax, rfl, hrows⟩
      exact ⟨hnamed, _, ⟨hmax, rfl⟩, t', hrows, rfl, rfl⟩

/-- With a row under the hint, the registration binds it again. -/
theorem finish_found {t : Table Subscription} {r : Registration} {prior : Subscription}
    (h : r.hint.bind (lockSubscription t) = some prior) (randomUUID : Uuid) :
    finishRegister t randomUUID r = r.rebind t prior := by
  simp only [finishRegister, h]

/-- Without one it creates a row, unless the endpoint has one by now. -/
theorem finish_created {t t' : Table Subscription} {r : Registration} {randomUUID : Uuid}
    {dto : PushSubscriptionDto} (h : r.hint.bind (lockSubscription t) = none) :
    finishRegister t randomUUID r = .ok (dto, t') ↔ r.input.generation = none ∧
      t.insert (r.row randomUUID) = some t' ∧ { id := randomUUID, generation := 1 } = dto := by
  simp only [finishRegister, h, bind_ok, ensure_ok, require_ok, pure_ok, exists_const,
    Prod.mk.injEq]
  constructor
  · rintro ⟨hnone, rows, hrows, rfl, rfl⟩
    exact ⟨hnone, hrows, rfl⟩
  · rintro ⟨hnone, hrows, rfl⟩
    exact ⟨hnone, t', hrows, rfl, rfl⟩

/-- A removal goes through once, or as its own repetition. -/
theorem remove_ok {t t' : Table Subscription} {now : Time} {actor : Principal}
    {audience : String} {id : Uuid} {generation : Nat} :
    remove t now actor audience id generation = .ok t' ↔
      ∃ prior, lockSubscription t id = some prior ∧
        (prior.userId = actor.userId ∧ prior.sessionId = actor.sessionId ∧
          prior.audience = audience ∧ prior.provider = .web) ∧
        ((prior.revokedAt ≠ none ∧
            (prior.generation = generation + 1 ∨ prior.generation = generation) ∧ t = t') ∨
          (prior.revokedAt = none ∧ prior.generation = generation ∧
            generation < maxUnsignedBigInt ∧
            replace t id actor.userId generation (fun row =>
              { row with generation := generation + 1, revokedAt := some now }) ⟨fun _ => rfl⟩ =
                .ok t')) := by
  rw [remove, bind_ok]
  simp only [require_ok]
  refine exists_congr fun prior => and_congr Iff.rfl ?_
  rw [bind_ok]
  simp only [ensure_ok, exists_const]
  refine and_congr Iff.rfl ?_
  by_cases hrevoked : prior.revokedAt = none
  · rw [if_neg fun h => h.1 hrevoked, bind_ok]
    simp only [ensure_ok, exists_const, hrevoked, ne_eq, not_true_eq_false, if_false, bind_ok,
      next_ok, false_and, true_and, false_or]
    constructor
    · rintro ⟨hcurrent, _, ⟨hmax, rfl⟩, hrows⟩
      exact ⟨hcurrent, hmax, hrows⟩
    · rintro ⟨hcurrent, hmax, hrows⟩
      exact ⟨hcurrent, _, ⟨hmax, rfl⟩, hrows⟩
  · by_cases hlost : prior.generation = generation + 1
    · rw [if_pos ⟨hrevoked, hlost⟩, Except.ok.injEq]
      simp [hrevoked, hlost]
    · rw [if_neg fun h => hlost h.2, bind_ok]
      simp [hrevoked, hlost]

/-! ## Rows grow older -/

/-- What a subscription is for: its id, its account, the audience and the endpoint. -/
def subscriptionVersion : Version Subscription (Uuid × Uuid × String × Digest) where
  fixed r := (r.id, r.userId, r.audience, r.endpointDigest)
  version r := r.generation

/-- A revocation raises the generation of what it writes. -/
theorem revokeWhere_ages {t t' : Table Subscription} {now : Time} {p : Subscription → Prop}
    [DecidablePred p] (h : revokeWhere t now p = .ok t') : subscriptionVersion.Ages t t' := by
  obtain ⟨-, rfl⟩ := revokeWhere_ok.mp h
  refine .update ?_
  intro r _ _
  exact .raised rfl (Nat.lt_succ_self r.generation)

/-- A replacement raises the generation of its row. -/
theorem replace_ages {t t' : Table Subscription} {id userId : Uuid} {generation : Nat}
    {data : Subscription → Subscription} {k : Table.Keeps data}
    (h : replace t id userId generation data k = .ok t')
    (hdata : ∀ r, r.generation = generation → subscriptionVersion.Later r (data r)) :
    subscriptionVersion.Ages t t' := by
  obtain ⟨-, rfl⟩ := replace_ok.mp h
  refine .update ?_
  rintro r _ ⟨-, -, hcurrent⟩
  exact hdata r hcurrent

theorem finish_ages {t t' : Table Subscription} {r : Registration} {randomUUID : Uuid}
    {dto : PushSubscriptionDto} (h : finishRegister t randomUUID r = .ok (dto, t')) :
    subscriptionVersion.Ages t t' := by
  cases hlock : r.hint.bind (lockSubscription t) with
  | none =>
    obtain ⟨-, hinsert, -⟩ := (finish_created hlock).mp h
    exact .insert hinsert
  | some prior =>
    rw [finish_found hlock, rebind_ok] at h
    obtain ⟨-, ⟨-, -, rfl⟩ | ⟨-, -, -, -, hreplace⟩⟩ := h
    · exact .refl t
    · refine replace_ages hreplace ?_
      intro row hcurrent
      refine .raised rfl ?_
      show row.generation < prior.generation + 1
      omega

theorem remove_ages {t t' : Table Subscription} {now : Time} {actor : Principal}
    {audience : String} {id : Uuid} {generation : Nat}
    (h : remove t now actor audience id generation = .ok t') :
    subscriptionVersion.Ages t t' := by
  obtain ⟨prior, -, -, ⟨-, -, rfl⟩ | ⟨-, -, -, hreplace⟩⟩ := remove_ok.mp h
  · exact .refl t
  · refine replace_ages hreplace ?_
    intro row hcurrent
    refine .raised rfl ?_
    show row.generation < generation + 1
    omega

/-- A step leaves every row as it is or raises its generation. -/
theorem step_ages {sha256 : String → Digest} {c : Command} {s t : World}
    (h : Step sha256 c s t) : subscriptionVersion.Ages s.subscriptions t.subscriptions := by
  cases h with
  | start _ => exact .refl _
  | finish _ hfinish => exact finish_ages hfinish
  | abort _ => exact .refl _
  | remove hremove => exact remove_ages hremove
  | revokeSession hrevoke => exact revokeWhere_ages hrevoke
  | revokeUser hrevoke => exact revokeWhere_ages hrevoke
  | invalidate hrevoke => exact revokeWhere_ages hrevoke
  | accounts => exact .refl _

/-! ## Registrations under way -/

/-- A registration has the digest of its endpoint, and its hint is a row with this digest. -/
structure Registration.Sound (sha256 : String → Digest) (t : Table Subscription)
    (r : Registration) : Prop where
  digest : r.endpointDigest = sha256 r.input.endpoint
  hint : ∀ id ∈ r.hint, ∃ row ∈ t, row.id = id ∧ row.endpointDigest = r.endpointDigest

/-- A pending registration stays sound while others commit. -/
theorem Registration.Sound.later {sha256 : String → Digest} {t t' : Table Subscription}
    {r : Registration} (h : r.Sound sha256 t) (hages : subscriptionVersion.Ages t t') :
    r.Sound sha256 t' := by
  refine ⟨h.digest, ?_⟩
  intro id hid
  obtain ⟨row, hrow, rfl, hdigest⟩ := h.hint id hid
  obtain ⟨row', hrow', hfixed, -⟩ := hages row hrow
  simp only [subscriptionVersion, Prod.mk.injEq] at hfixed
  exact ⟨row', hrow', hfixed.1, hfixed.2.2.2.trans hdigest⟩

/-- A registration begins under a live session of its audience. -/
theorem start_ok {sha256 : String → Digest} {a : Accounts} {t : Table Subscription} {now : Time}
    {actor : Principal} {audience : String} {input : PushSubscriptionInput} {r : Registration} :
    startRegister sha256 a t now actor audience input = .ok r ↔
      ∃ b, binding a now actor.userId actor.sessionId none = some b ∧ b.audience = audience ∧
        { actor := actor, audience := audience, input := input, binding := b,
          endpointDigest := sha256 input.endpoint,
          hint := byEndpoint t (sha256 input.endpoint) } = r := by
  simp only [startRegister, bind_ok, require_ok, ensure_ok, pure_ok, exists_const]

/-- A registration is sound when it begins. -/
theorem start_sound {sha256 : String → Digest} {a : Accounts} {t : Table Subscription} {now : Time}
    {actor : Principal} {audience : String} {input : PushSubscriptionInput} {r : Registration}
    (h : startRegister sha256 a t now actor audience input = .ok r) : r.Sound sha256 t := by
  obtain ⟨b, -, -, rfl⟩ := start_ok.mp h
  refine ⟨rfl, ?_⟩
  intro id hid
  obtain ⟨row, hfind, rfl⟩ := Option.map_eq_some_iff.mp hid
  exact ⟨row, Table.mem_of_find? hfind, rfl, Table.holds_of_find?
    (p := fun row : Subscription => row.endpointDigest = sha256 input.endpoint) hfind⟩

/-- The registrations under way are sound in every reachable state. -/
theorem reachable_sound {sha256 : String → Digest} {s : World}
    (h : (notifications sha256).Reachable s) :
    ∀ r ∈ s.pending, r.Sound sha256 s.subscriptions := by
  induction h with
  | init hinit =>
    intro r hr
    rw [hinit] at hr
    exact absurd hr List.not_mem_nil
  | @step s t c _ hstep ih =>
    have hages := step_ages hstep
    intro r hr
    have hcases : r ∈ s.pending ∨ r.Sound sha256 t.subscriptions := by
      cases hstep with
      | start hstart =>
        rcases List.mem_cons.mp hr with rfl | hr
        · exact .inr (start_sound hstart)
        · exact .inl hr
      | finish _ _ => exact .inl (List.mem_of_mem_erase hr)
      | abort _ => exact .inl (List.mem_of_mem_erase hr)
      | remove _ => exact .inl hr
      | revokeSession _ => exact .inl hr
      | revokeUser _ => exact .inl hr
      | invalidate _ => exact .inl hr
      | accounts => exact .inl hr
    rcases hcases with hr | hsound
    · exact (ih r hr).later hages
    · exact hsound

/-- The row a registration locks is the row of its endpoint. -/
theorem locked_digest {sha256 : String → Digest} {t : Table Subscription} {r : Registration}
    (h : r.Sound sha256 t) {prior : Subscription}
    (hlock : r.hint.bind (lockSubscription t) = some prior) :
    prior ∈ t ∧ prior.endpointDigest = r.endpointDigest := by
  obtain ⟨id, hid, hfind⟩ := Option.bind_eq_some_iff.mp hlock
  obtain ⟨hmem, rfl⟩ := lock_ok.mp hfind
  obtain ⟨row, hrow, hsame, hdigest⟩ := h.hint prior.id hid
  obtain rfl := eq_of_id hrow hmem hsame
  exact ⟨hrow, hdigest⟩

/-! ## Generations that are not current -/

/-- A registration that names a generation other than that of its endpoint's row is refused. -/
theorem finish_stale {sha256 : String → Digest} {t : Table Subscription} {r : Registration}
    (h : r.Sound sha256 t) {generation : Nat} (hnamed : r.input.generation = some generation)
    (hstale : ∀ row ∈ t, row.endpointDigest = sha256 r.input.endpoint →
      row.generation ≠ generation) (randomUUID : Uuid)
    (out : PushSubscriptionDto × Table Subscription) :
    finishRegister t randomUUID r ≠ .ok out := by
  intro hfinish
  cases hlock : r.hint.bind (lockSubscription t) with
  | none =>
    obtain ⟨hnone, -⟩ := (@finish_created t out.2 r randomUUID out.1 hlock).mp hfinish
    rw [hnamed] at hnone
    cases hnone
  | some prior =>
    obtain ⟨hmem, hdigest⟩ := locked_digest h hlock
    rw [finish_found hlock] at hfinish
    obtain ⟨-, ⟨hobserves, -⟩ | ⟨-, hcurrent, -⟩⟩ :=
      (@rebind_ok r t out.2 prior out.1).mp hfinish
    · have hnone := hobserves.1
      rw [hnamed] at hnone
      cases hnone
    · rw [hnamed, Option.some.injEq] at hcurrent
      exact hstale prior hmem (hdigest.trans h.digest) hcurrent.symm

/-- A removal that names a generation other than that of the row leaves the table alone. -/
theorem remove_stale {t t' : Table Subscription} {now : Time} {actor : Principal}
    {audience : String} {id : Uuid} {generation : Nat}
    (hstale : ∀ row ∈ t, row.id = id → row.generation ≠ generation)
    (h : remove t now actor audience id generation = .ok t') : t' = t := by
  obtain ⟨prior, hlock, -, ⟨-, -, rfl⟩ | ⟨-, hcurrent, -⟩⟩ := remove_ok.mp h
  · rfl
  · obtain ⟨hmem, hid⟩ := lock_ok.mp hlock
    exact absurd hcurrent (hstale prior hmem hid)

/-! ## Revoked rows -/

/-- A revocation makes no row active again. -/
theorem revokeWhere_revoked {t t' : Table Subscription} {now : Time} {p : Subscription → Prop}
    [DecidablePred p] (h : revokeWhere t now p = .ok t') {row row' : Subscription} (hrow : row ∈ t)
    (hrow' : row' ∈ t') (hid : row'.id = row.id) (hrevoked : row.revokedAt ≠ none) :
    row'.revokedAt ≠ none := by
  obtain ⟨-, rfl⟩ := revokeWhere_ok.mp h
  rw [update_row hrow hrow' hid]
  by_cases hp : p row
  · rw [if_pos hp]
    exact Option.some_ne_none now
  · rw [if_neg hp]
    exact hrevoked

/-- A removal makes no row active again. -/
theorem remove_revoked {t t' : Table Subscription} {now : Time} {actor : Principal}
    {audience : String} {id : Uuid} {generation : Nat}
    (h : remove t now actor audience id generation = .ok t') {row row' : Subscription}
    (hrow : row ∈ t) (hrow' : row' ∈ t') (hid : row'.id = row.id)
    (hrevoked : row.revokedAt ≠ none) : row'.revokedAt ≠ none := by
  obtain ⟨prior, -, -, ⟨-, -, rfl⟩ | ⟨-, -, -, hreplace⟩⟩ := remove_ok.mp h
  · rw [eq_of_id hrow' hrow hid]
    exact hrevoked
  · obtain ⟨-, rfl⟩ := replace_ok.mp hreplace
    rw [update_row hrow hrow' hid]
    by_cases hp : row.id = id ∧ row.userId = actor.userId ∧ row.generation = generation
    · rw [if_pos hp]
      exact Option.some_ne_none now
    · rw [if_neg hp]
      exact hrevoked

/-- A registration that makes a revoked row active again names its generation. -/
theorem finish_revived {sha256 : String → Digest} {t t' : Table Subscription} {r : Registration}
    (h : r.Sound sha256 t) {randomUUID : Uuid} {dto : PushSubscriptionDto}
    (hfinish : finishRegister t randomUUID r = .ok (dto, t')) {row row' : Subscription}
    (hrow : row ∈ t) (hrow' : row' ∈ t') (hid : row'.id = row.id)
    (hrevoked : row.revokedAt ≠ none) (hactive : row'.revokedAt = none) :
    r.input.generation = some row.generation ∧
      row.endpointDigest = sha256 r.input.endpoint ∧ row.userId = r.actor.userId := by
  have hchanged : row' ≠ row := by
    rintro rfl
    exact hrevoked hactive
  cases hlock : r.hint.bind (lockSubscription t) with
  | none =>
    obtain ⟨-, hinsert, -⟩ := (finish_created hlock).mp hfinish
    rcases (Table.mem_insert hinsert).mp hrow' with hold | rfl
    · exact absurd (eq_of_id hold hrow hid) hchanged
    · refine absurd ⟨.inl row.id, List.mem_cons_self, ?_⟩ (Table.fresh_of_insert hinsert hrow)
      rw [← hid]
      exact List.mem_cons_self
  | some prior =>
    obtain ⟨hmem, hdigest⟩ := locked_digest h hlock
    rw [finish_found hlock, rebind_ok] at hfinish
    obtain ⟨-, ⟨-, -, rfl⟩ | ⟨-, hcurrent, -, -, hreplace⟩⟩ := hfinish
    · exact absurd (eq_of_id hrow' hrow hid) hchanged
    · obtain ⟨-, rfl⟩ := replace_ok.mp hreplace
      have hvalue := update_row hrow hrow' hid
      by_cases hp : row.id = prior.id ∧ row.userId = r.actor.userId ∧
          row.generation = prior.generation
      · obtain rfl := eq_of_id hrow hmem hp.1
        exact ⟨hcurrent, hdigest.trans h.digest, hp.2.1⟩
      · rw [if_neg hp] at hvalue
        exact absurd hvalue hchanged

/-- Only a registration that names the generation of a revoked row makes it active again. -/
theorem revived {sha256 : String → Digest} {s t : World} {c : Command}
    (hsound : ∀ r ∈ s.pending, r.Sound sha256 s.subscriptions) (h : Step sha256 c s t)
    {row row' : Subscription} (hrow : row ∈ s.subscriptions) (hrow' : row' ∈ t.subscriptions)
    (hid : row'.id = row.id) (hrevoked : row.revokedAt ≠ none) (hactive : row'.revokedAt = none) :
    ∃ r randomUUID, c = .finish r randomUUID ∧ r.input.generation = some row.generation ∧
      row.endpointDigest = sha256 r.input.endpoint ∧ row.userId = r.actor.userId := by
  have hsame : t.subscriptions = s.subscriptions → False := by
    intro hrows
    rw [hrows] at hrow'
    rw [eq_of_id hrow' hrow hid] at hactive
    exact hrevoked hactive
  cases h with
  | start _ => exact absurd rfl hsame
  | finish hr hfinish =>
    exact ⟨_, _, rfl, finish_revived (hsound _ hr) hfinish hrow hrow' hid hrevoked hactive⟩
  | abort _ => exact absurd rfl hsame
  | remove hremove => exact absurd hactive (remove_revoked hremove hrow hrow' hid hrevoked)
  | revokeSession hrevoke =>
    exact absurd hactive (revokeWhere_revoked hrevoke hrow hrow' hid hrevoked)
  | revokeUser hrevoke =>
    exact absurd hactive (revokeWhere_revoked hrevoke hrow hrow' hid hrevoked)
  | invalidate hrevoke =>
    exact absurd hactive (revokeWhere_revoked hrevoke hrow hrow' hid hrevoked)
  | accounts => exact absurd rfl hsame

/-! ## Requests made again -/

/-- A removal made again, of a row that nothing else changed: it succeeds, and changes
nothing. -/
theorem remove_again {t t' u : Table Subscription} {now now' : Time} {actor : Principal}
    {audience : String} {id : Uuid} {generation : Nat}
    (h : remove t now actor audience id generation = .ok t')
    (hsame : lockSubscription u id = lockSubscription t' id) :
    remove u now' actor audience id generation = .ok u := by
  obtain ⟨prior, hlock, howner, hcase⟩ := remove_ok.mp h
  rcases hcase with ⟨hrevoked, hgeneration, rfl⟩ | ⟨-, hcurrent, -, hreplace⟩
  · exact remove_ok.mpr ⟨prior, hsame.trans hlock, howner, .inl ⟨hrevoked, hgeneration, rfl⟩⟩
  · obtain ⟨-, rfl⟩ := replace_ok.mp hreplace
    obtain ⟨hmem, hid⟩ := lock_ok.mp hlock
    have hstored := Table.mem_update_of_mem (p := fun row => row.id = id ∧
      row.userId = actor.userId ∧ row.generation = generation)
      (f := fun row => { row with generation := generation + 1, revokedAt := some now })
      (k := ⟨fun _ => rfl⟩) hmem
    rw [if_pos ⟨hid, howner.1, hcurrent⟩] at hstored
    have hfound := lock_ok.mpr ⟨hstored, hid⟩
    exact remove_ok.mpr ⟨_, hsame.trans hfound, howner,
      .inl ⟨Option.some_ne_none now, .inl rfl, rfl⟩⟩

/-- The row of an endpoint. -/
def endpointRow (subscriptions : Table Subscription) (endpointDigest : Digest) :
    Option Subscription :=
  subscriptions.find? fun r => r.endpointDigest = endpointDigest

/-- The row of an endpoint is the one with its digest. -/
theorem endpointRow_ok {t : Table Subscription} {endpointDigest : Digest} {row : Subscription} :
    endpointRow t endpointDigest = some row ↔ row ∈ t ∧ row.endpointDigest = endpointDigest := by
  constructor
  · intro h
    exact ⟨Table.mem_of_find? h, Table.holds_of_find?
      (p := fun row : Subscription => row.endpointDigest = endpointDigest) h⟩
  · rintro ⟨hrow, rfl⟩
    refine Table.find?_eq_some hrow rfl (k := .inr row.endpointDigest) ?_ ?_
    · exact List.mem_cons_of_mem _ List.mem_cons_self
    · rintro s hs
      rw [← hs]
      exact List.mem_cons_of_mem _ List.mem_cons_self

/-- What a registration without a generation leaves: an active row with its credentials. -/
theorem finish_observes {sha256 : String → Digest} {t t' : Table Subscription} {r : Registration}
    (h : r.Sound sha256 t) (hnone : r.input.generation = none) {randomUUID : Uuid}
    {dto : PushSubscriptionDto} (hfinish : finishRegister t randomUUID r = .ok (dto, t')) :
    ∃ row, endpointRow t' (sha256 r.input.endpoint) = some row ∧ r.Owns row ∧ r.Observes row ∧
      dto = { id := row.id, generation := row.generation } := by
  cases hlock : r.hint.bind (lockSubscription t) with
  | none =>
    obtain ⟨-, hinsert, rfl⟩ := (finish_created hlock).mp hfinish
    have hrow : r.row randomUUID ∈ t' := (Table.mem_insert hinsert).mpr (.inr rfl)
    exact ⟨r.row randomUUID, endpointRow_ok.mpr ⟨hrow, h.digest⟩, ⟨rfl, rfl, rfl⟩,
      ⟨hnone, rfl, rfl, rfl, rfl, rfl, rfl⟩, rfl⟩
  | some prior =>
    obtain ⟨hmem, hdigest⟩ := locked_digest h hlock
    rw [finish_found hlock, rebind_ok] at hfinish
    obtain ⟨howns, ⟨hobserves, rfl, rfl⟩ | ⟨-, hcurrent, -⟩⟩ := hfinish
    · exact ⟨prior, endpointRow_ok.mpr ⟨hmem, hdigest.trans h.digest⟩, howns, hobserves, rfl⟩
    · rw [hnone] at hcurrent
      cases hcurrent

instance (r : Registration) (row : Subscription) : Decidable (r.Owns row) :=
  inferInstanceAs (Decidable (_ ∧ _))

/-- What a request meets that was made before: its own row. -/
theorem rebind_again {r r' : Registration} {v : Table Subscription} {row : Subscription}
    (hactor : r'.actor = r.actor) (haudience : r'.audience = r.audience)
    (hinput : r'.input = r.input) (howns : r.Owns row) (hobserves : r.Observes row) :
    r'.rebind v row =
      if r'.binding.membershipGeneration = r.binding.membershipGeneration then
        .ok ({ id := row.id, generation := row.generation }, v)
      else .error .conflict := by
  obtain ⟨hnone, hsession, hactive, hendpoint, hp256dh, hauth, hgeneration⟩ := hobserves
  have howns' : r'.Owns row := by
    rw [Registration.Owns, hactor, haudience]
    exact howns
  have hguard : ensure (row.userId = r'.actor.userId ∧ row.audience = r'.audience ∧
      row.provider = .web) ApiError.notFound = .ok () := ensure_pos howns' _
  rw [Registration.rebind, hguard, ok_bind]
  by_cases hcurrent : r'.binding.membershipGeneration = r.binding.membershipGeneration
  · have hobserves' : r'.Observes row := by
      rw [Registration.Observes, hactor, hinput]
      exact ⟨hnone, hsession, hactive, hendpoint, hp256dh, hauth,
        hgeneration.trans hcurrent.symm⟩
    rw [if_pos hcurrent, if_pos hobserves']
  · have hnot : ¬r'.Observes row := by
      rintro ⟨-, -, -, -, -, -, hother⟩
      exact hcurrent (hother.symm.trans hgeneration)
    have hunnamed : r'.input.generation ≠ some row.generation := by
      rw [hinput, hnone]
      exact (Option.some_ne_none row.generation).symm
    rw [if_neg hcurrent, if_neg hnot, ensure_neg hunnamed, error_bind]

/-- A registration without a generation made again, of a row that nothing else changed: it
succeeds and changes nothing while the account generation is the one the row has, and is
refused otherwise. -/
theorem register_again {sha256 : String → Digest} {a : Accounts} {u v : Table Subscription}
    {now : Time} {r : Registration} {row : Subscription} (howns : r.Owns row)
    (hobserves : r.Observes row) (hu : endpointRow u (sha256 r.input.endpoint) = some row)
    (hv : endpointRow v (sha256 r.input.endpoint) = some row) {b : Binding}
    (hbinding : binding a now r.actor.userId r.actor.sessionId none = some b)
    (haudience : b.audience = r.audience) (randomUUID : Uuid) :
    ∃ r', startRegister sha256 a u now r.actor r.audience r.input = .ok r' ∧
      finishRegister v randomUUID r' =
        if b.membershipGeneration = r.binding.membershipGeneration then
          .ok ({ id := row.id, generation := row.generation }, v)
        else .error .conflict := by
  refine ⟨_, start_ok.mpr ⟨b, hbinding, haudience, rfl⟩, ?_⟩
  have hhint : byEndpoint u (sha256 r.input.endpoint) = some row.id := congrArg (Option.map _) hu
  have hlock : lockSubscription v row.id = some row := lock_ok.mpr ⟨(endpointRow_ok.mp hv).1, rfl⟩
  rw [@finish_found v _ row]
  · exact rebind_again (r := r) rfl rfl rfl howns hobserves
  · show (byEndpoint u (sha256 r.input.endpoint)).bind (lockSubscription v) = some row
    rw [hhint]
    exact hlock

/-! ## Every run -/

/-- Over every run a row keeps its account and audience, and stays as it is or has a higher
generation. In every reachable state: a registration or removal that names a generation other
than the row's changes nothing; a revoked row becomes active only through a registration that
names its generation; a removal made again, while nothing else changed the row, succeeds and
changes nothing; and so does a registration without a generation, as long as the session is
still bound at the same account generation, while with another account generation it is a
conflict. -/
theorem subscription_generations (sha256 : String → Digest) :
    (∀ s t cs, (notifications sha256).Run s cs t → ∀ row ∈ s.subscriptions,
      ∃ row' ∈ t.subscriptions, row'.id = row.id ∧ row'.userId = row.userId ∧
        row'.audience = row.audience ∧ row'.endpointDigest = row.endpointDigest ∧
        (row' = row ∨ row.generation < row'.generation)) ∧
    ∀ s, (notifications sha256).Reachable s →
      (∀ r ∈ s.pending, ∀ generation, r.input.generation = some generation →
        (∀ row ∈ s.subscriptions, row.endpointDigest = sha256 r.input.endpoint →
          row.generation ≠ generation) →
        ∀ randomUUID out, finishRegister s.subscriptions randomUUID r ≠ .ok out) ∧
      (∀ now actor audience id generation rows,
        (∀ row ∈ s.subscriptions, row.id = id → row.generation ≠ generation) →
        remove s.subscriptions now actor audience id generation = .ok rows →
        rows = s.subscriptions) ∧
      (∀ c t, Step sha256 c s t → ∀ row ∈ s.subscriptions, ∀ row' ∈ t.subscriptions,
        row'.id = row.id → row.revokedAt ≠ none → row'.revokedAt = none →
        ∃ r randomUUID, c = .finish r randomUUID ∧ r.input.generation = some row.generation ∧
          row.endpointDigest = sha256 r.input.endpoint ∧ row.userId = r.actor.userId) ∧
      (∀ now actor audience id generation rows,
        remove s.subscriptions now actor audience id generation = .ok rows →
        ∀ u now', lockSubscription u id = lockSubscription rows id →
          remove u now' actor audience id generation = .ok u) ∧
      (∀ r ∈ s.pending, r.input.generation = none → ∀ randomUUID dto rows,
        finishRegister s.subscriptions randomUUID r = .ok (dto, rows) →
        ∀ u v,
          endpointRow u (sha256 r.input.endpoint) = endpointRow rows (sha256 r.input.endpoint) →
          endpointRow v (sha256 r.input.endpoint) = endpointRow rows (sha256 r.input.endpoint) →
          ∀ a now b, binding a now r.actor.userId r.actor.sessionId none = some b →
            b.audience = r.audience →
            ∀ randomUUID', ∃ r',
              startRegister sha256 a u now r.actor r.audience r.input = .ok r' ∧
              finishRegister v randomUUID' r' =
                if b.membershipGeneration = r.binding.membershipGeneration then .ok (dto, v)
                else .error .conflict) := by
  constructor
  · intro s t cs hrun row hrow
    obtain ⟨row', hrow', hfixed, hlater⟩ :=
      Version.Run.ages World.subscriptions (fun _ _ _ h => step_ages h) hrun row hrow
    simp only [subscriptionVersion, Prod.mk.injEq] at hfixed
    exact ⟨row', hrow', hfixed.1, hfixed.2.1, hfixed.2.2.1, hfixed.2.2.2, hlater⟩
  intro s hs
  have hsound := reachable_sound hs
  refine ⟨?_, ?_, ?_, ?_, ?_⟩
  · intro r hr generation hnamed hstale randomUUID out
    exact finish_stale (hsound r hr) hnamed hstale randomUUID out
  · intro now actor audience id generation rows hstale h
    exact remove_stale hstale h
  · intro c t hstep row hrow row' hrow' hid hrevoked hactive
    exact revived hsound hstep hrow hrow' hid hrevoked hactive
  · intro now actor audience id generation rows h u now' hsame
    exact remove_again h hsame
  · intro r hr hnone randomUUID dto rows hfinish u v hu hv a now b hbinding haudience randomUUID'
    obtain ⟨row, hrow, howns, hobserves, rfl⟩ := finish_observes (hsound r hr) hnone hfinish
    exact register_again howns hobserves (hu.trans hrow) (hv.trans hrow) hbinding haudience
      randomUUID'

/-! ## A device -/

def deviceSession : Session :=
  { id := 1, userId := 10, audience := "rogichat", transport := .web, clientId := none,
    revokedAt := none, expiresAt := 1000 }

/-- The tables of an account, at one of its generations. -/
def deviceAccounts (membershipGeneration : Nat) : Accounts :=
  { sessions := ⟨[deviceSession], List.pairwise_singleton _ _⟩
    users := ⟨[{ id := 10, status := .active, membershipGeneration := membershipGeneration,
                 soopStatus := some .verified, reviewerExpiresAt := none,
                 appleVerified := false }], List.pairwise_singleton _ _⟩ }

def device : Principal := { userId := 10, sessionId := 1 }

def deviceInput : PushSubscriptionInput :=
  { endpoint := "https://push/1", p256dh := "p", auth := "a" }

/-- The registration of the device at an account generation. -/
def deviceRegistration (membershipGeneration : Nat) (hint : Option Uuid) : Registration :=
  { actor := device, audience := "rogichat", input := deviceInput,
    binding := { audience := "rogichat", membershipGeneration := membershipGeneration,
                 chatAllowed := true }
    endpointDigest := deviceInput.endpoint.length, hint := hint }

def deviceRow : Subscription := (deviceRegistration 3 none).row 100

/-- Nothing is registered yet. -/
def beforeDevice : World := { accounts := deviceAccounts 3, subscriptions := .empty, pending := [] }

def deviceRows : Table Subscription := ⟨[deviceRow], List.pairwise_singleton _ _⟩

theorem device_start :
    Step String.length (.start 5 device "rogichat" deviceInput) beforeDevice
      { beforeDevice with pending := [deviceRegistration 3 none] } :=
  .start rfl

theorem device_reachable :
    (notifications String.length).Reachable
      { beforeDevice with pending := [deviceRegistration 3 none] } :=
  .step (.init (show beforeDevice.pending = [] from rfl)) device_start

theorem device_finish :
    finishRegister .empty 100 (deviceRegistration 3 none) =
      .ok ({ id := 100, generation := 1 }, deviceRows) := rfl

/-- The registration again, after its answer was lost. -/
theorem subscription_generations_lost :
    ∃ r', startRegister String.length (deviceAccounts 3) deviceRows 6 device "rogichat"
        deviceInput = .ok r' ∧
      finishRegister deviceRows 101 r' = .ok ({ id := 100, generation := 1 }, deviceRows) := by
  obtain ⟨-, -, -, -, hagain⟩ := (subscription_generations String.length).2 _ device_reachable
  obtain ⟨r', hstart, hfinish⟩ := hagain (deviceRegistration 3 none) List.mem_cons_self rfl 100 _ _
    device_finish deviceRows deviceRows rfl rfl (deviceAccounts 3) 6 _ rfl rfl 101
  exact ⟨r', hstart, hfinish⟩

/-- An account joins a room between a registration and the same registration again: nothing
else changed the row, and the second is a conflict. -/
theorem register_retry_refused :
    ¬∀ s t u cs r r' randomUUID randomUUID', (notifications String.length).Reachable s →
      Step String.length (.finish r randomUUID) s t → r.input.generation = none →
      (notifications String.length).Run t cs u →
      endpointRow u.subscriptions (String.length r.input.endpoint) =
        endpointRow t.subscriptions (String.length r.input.endpoint) →
      r' ∈ u.pending → r'.actor = r.actor → r'.audience = r.audience → r'.input = r.input →
      ∃ dto, finishRegister u.subscriptions randomUUID' r' = .ok (dto, u.subscriptions) := by
  intro hclaim
  have hfinish := @Step.finish String.length
    ({ beforeDevice with pending := [deviceRegistration 3 none] }) _ _ _ _
    List.mem_cons_self device_finish
  have hjoined : (notifications String.length).Run
      { accounts := deviceAccounts 3, subscriptions := deviceRows, pending := [] }
      [.accounts (deviceAccounts 4), .start 6 device "rogichat" deviceInput]
      { accounts := deviceAccounts 4, subscriptions := deviceRows,
        pending := [deviceRegistration 4 (some 100)] } :=
    .cons .accounts (.single (.start rfl))
  obtain ⟨dto, hsecond⟩ := hclaim _ _ _ _ _ (deviceRegistration 4 (some 100)) 100 101
    device_reachable hfinish rfl hjoined rfl List.mem_cons_self rfl rfl rfl
  cases hsecond

end Rogichat.Notifications
