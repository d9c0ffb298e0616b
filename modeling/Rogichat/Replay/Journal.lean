import Rogichat.Replay.Model

/-!
# What a transaction of the journal does

What one transaction can do to an entry is listed once (`EntryRow.After`), and every
guarantee is read off that list.

* **`exec_after`** — each entry after a command comes from one before it in one of
  the listed ways, or was created by a page that lists it.
-/

namespace Rogichat.Replay

open Lib Ledger

/-! ## Rows under their locks -/

/-- A ledger has one entry of a key. -/
theorem eq_of_at {entries : Table EntryRow} {sourceId keySha256 : Digest} {e e' : EntryRow}
    (he : e ∈ entries) (he' : e' ∈ entries) (h : At sourceId keySha256 e)
    (h' : At sourceId keySha256 e') : e = e' := by
  refine Table.eq_of_key he he' (k := (sourceId, keySha256)) ?_ ?_
  · rw [← h.1, ← h.2]
    exact List.mem_cons_self
  · rw [← h'.1, ← h'.2]
    exact List.mem_cons_self

/-- A ledger has one row. -/
theorem eq_of_sourceId {sources : Table SourceRow} {r r' : SourceRow} (hr : r ∈ sources)
    (hr' : r' ∈ sources) (h : r.sourceId = r'.sourceId) : r = r' :=
  Table.eq_of_key hr hr' (k := r.sourceId) List.mem_cons_self (h ▸ List.mem_cons_self)

theorem mem_updateEntry_of_mem {db : Db} {sourceId keySha256 : Digest} {f : EntryRow → EntryRow}
    {k : Table.Keeps f} {e : EntryRow} (he : e ∈ db.entries) :
    (if At sourceId keySha256 e then f e else e) ∈
      (db.updateEntry sourceId keySha256 f k).entries :=
  Table.mem_update_of_mem (k := k) he

theorem mem_updateSource_of_mem {db : Db} {sourceId : Digest} {f : SourceRow → SourceRow}
    {k : Table.Keeps f} {r : SourceRow} (hr : r ∈ db.sources) :
    (if r.sourceId = sourceId then f r else r) ∈ (db.updateSource sourceId f k).sources :=
  Table.mem_update_of_mem (k := k) hr

/-- An updated entry was there before. -/
theorem mem_updateEntry {db : Db} {sourceId keySha256 : Digest} {f : EntryRow → EntryRow}
    {k : Table.Keeps f} {e' : EntryRow} (h : e' ∈ (db.updateEntry sourceId keySha256 f k).entries) :
    ∃ e ∈ db.entries, e' = if At sourceId keySha256 e then f e else e :=
  (Table.mem_update (k := k)).mp h

/-- An entry is found by its ledger and key. -/
theorem entry_ok {db : Db} {sourceId keySha256 : Digest} {row : EntryRow}
    (h : DeletionReplayRepository.entry db sourceId keySha256 = .ok row) :
    row ∈ db.entries ∧ At sourceId keySha256 row := by
  rw [DeletionReplayRepository.entry, require_ok] at h
  exact ⟨Table.mem_of_find? h, Table.holds_of_find? h⟩

/-- The row of a ledger, created when it is not there. -/
theorem source_ok {db db' : Db} {source : ReplaySource} {row : SourceRow}
    (h : DeletionReplayRepository.source db source = .ok (db', row)) :
    db'.entries = db.entries ∧ row ∈ db'.sources ∧ row.sourceId = source.sourceId ∧
      row.environment = source.environment ∧ (∀ r ∈ db.sources, r ∈ db'.sources) ∧
      (row ∈ db.sources ∧ db' = db ∨ row.discoveryToken = none) := by
  simp only [DeletionReplayRepository.source, bind_ok, require_ok, ensure_ok, pure_ok,
    Prod.mk.injEq] at h
  obtain ⟨found, hfind, -, henv, rfl, rfl⟩ := h
  have hid := Table.holds_of_find? hfind
  have hmem := Table.mem_of_find? hfind
  refine ⟨rfl, hmem, hid, henv, ?_, ?_⟩
  · intro r hr
    cases hinsert : db.sources.insert
        { sourceId := source.sourceId, environment := source.environment } with
    | none => simpa [hinsert] using hr
    | some sources => simpa [hinsert] using (Table.mem_insert hinsert).mpr (.inl hr)
  · cases hinsert : db.sources.insert
        { sourceId := source.sourceId, environment := source.environment } with
    | none =>
      left
      rw [hinsert] at hmem
      exact ⟨hmem, rfl⟩
    | some sources =>
      right
      rw [hinsert, Option.getD_some] at hmem
      rcases (Table.mem_insert hinsert).mp hmem with hold | rfl
      · -- a stored row of the source would have clashed with the new one
        exact absurd ⟨source.sourceId, hid ▸ List.mem_cons_self, List.mem_cons_self⟩
          (Table.fresh_of_insert hinsert hold)
      · rfl

/-- Under its fence a discovery claim is the stored one, and nothing was created. -/
theorem discoveryFence_ok {db db' : Db} {claim : DiscoveryClaim} {now : Time} {row : SourceRow}
    (h : DeletionReplayRepository.discoveryFence db claim now = .ok (db', row)) :
    db' = db ∧ row ∈ db.sources ∧ row.sourceId = claim.sourceId ∧
      DiscoveryCurrent claim now row := by
  simp only [DeletionReplayRepository.discoveryFence, bind_ok, ensure_ok, pure_ok,
    Prod.mk.injEq] at h
  obtain ⟨⟨db₁, row₁⟩, hsource, -, hcurrent, rfl, rfl⟩ := h
  obtain ⟨-, -, hid, -, -, hrow | hnone⟩ := source_ok hsource
  · exact ⟨hrow.2, hrow.1, hid, hcurrent⟩
  · rw [DiscoveryCurrent, hnone] at hcurrent
    cases hcurrent.1

/-- A fenced entry is the one its claim holds. -/
theorem fence_ok {db : Db} {claim : ReplayClaim} {now : Time} {digest : Option Digest}
    {row : EntryRow} (h : DeletionReplayRepository.fence db claim now digest = .ok row) :
    row ∈ db.entries ∧ At claim.sourceId claim.keySha256 row ∧ ClaimCurrent claim now row ∧
      ∀ d ∈ digest, ∀ r ∈ row.receiptSha256, r = d := by
  simp only [DeletionReplayRepository.fence, bind_ok, ensure_ok, pure_ok] at h
  obtain ⟨found, hentry, -, hcurrent, -, hdigest, rfl⟩ := h
  obtain ⟨hmem, hat⟩ := entry_ok hentry
  exact ⟨hmem, hat, hcurrent, hdigest⟩

/-! ## A page, entry by entry -/

/-- What one item of a page does to an entry. -/
def EntryRow.listed (claim : DiscoveryClaim) (now : Time) (e : EntryRow)
    (item : LedgerDiscoveryItem) : EntryRow :=
  if At claim.sourceId item.keySha256 e then
    if Contradicts item e then e.conflicted now else e.relisted claim.generation now
  else e

/-- One item: the entries it finds are listed, and there may be a new one. -/
theorem registerItem_ok {claim : DiscoveryClaim} {now : Time} {db db' : Db}
    {item : LedgerDiscoveryItem} (h : registerItem claim now db item = .ok db') :
    db'.sources = db.sources ∧ (∀ e ∈ db.entries, e.listed claim now item ∈ db'.entries) ∧
      ∀ e' ∈ db'.entries, ∃ e, (e ∈ db.entries ∨ e = item.entry claim now) ∧
        e' = e.listed claim now item := by
  simp only [registerItem, bind_ok] at h
  obtain ⟨row, hentry, h⟩ := h
  obtain ⟨hrow, hat⟩ := entry_ok hentry
  have hforward : ∀ e ∈ db.entries,
      e ∈ (db.entries.insert (item.entry claim now)).getD db.entries := by
    intro e he
    cases hinsert : db.entries.insert (item.entry claim now) with
    | none => exact he
    | some entries => exact (Table.mem_insert hinsert).mpr (.inl he)
  have hbackward : ∀ e ∈ (db.entries.insert (item.entry claim now)).getD db.entries,
      e ∈ db.entries ∨ e = item.entry claim now := by
    intro e he
    cases hinsert : db.entries.insert (item.entry claim now) with
    | none => exact .inl (by simpa [hinsert] using he)
    | some entries =>
      rw [hinsert, Option.getD_some] at he
      exact (Table.mem_insert hinsert).mp he
  -- the row the item is compared with is the one row at its key
  have hlisted : ∀ e ∈ (db.entries.insert (item.entry claim now)).getD db.entries,
      e.listed claim now item =
        if At claim.sourceId item.keySha256 e then
          if Contradicts item row then e.conflicted now else e.relisted claim.generation now
        else e := by
    intro e he
    unfold EntryRow.listed
    by_cases hate : At claim.sourceId item.keySha256 e
    · rw [eq_of_at he hrow hate hat]
    · rw [if_neg hate, if_neg hate]
  by_cases hcontra : Contradicts item row
  · rw [if_pos hcontra, pure_ok] at h
    subst h
    refine ⟨rfl, ?_, ?_⟩
    · intro e he
      rw [hlisted e (hforward e he), if_pos hcontra]
      exact mem_updateEntry_of_mem (hforward e he)
    · intro e' he'
      obtain ⟨e, he, rfl⟩ := mem_updateEntry he'
      refine ⟨e, hbackward e he, ?_⟩
      rw [hlisted e he, if_pos hcontra]
  · rw [if_neg hcontra, pure_ok] at h
    subst h
    refine ⟨rfl, ?_, ?_⟩
    · intro e he
      rw [hlisted e (hforward e he), if_neg hcontra]
      exact mem_updateEntry_of_mem (hforward e he)
    · intro e' he'
      obtain ⟨e, he, rfl⟩ := mem_updateEntry he'
      refine ⟨e, hbackward e he, ?_⟩
      rw [hlisted e he, if_neg hcontra]

/-- All items of a page: an entry goes through those that name it, in order. -/
theorem registerItems_ok {claim : DiscoveryClaim} {now : Time}
    {items : List LedgerDiscoveryItem} {db db' : Db}
    (h : items.foldlM (registerItem claim now) db = .ok db') :
    db'.sources = db.sources ∧
      (∀ e ∈ db.entries, items.foldl (EntryRow.listed claim now) e ∈ db'.entries) ∧
      ∀ e' ∈ db'.entries, ∃ e rest,
        (e ∈ db.entries ∧ rest = items ∨ ∃ item ∈ items, e = item.entry claim now) ∧
        e' = rest.foldl (EntryRow.listed claim now) e := by
  induction items generalizing db with
  | nil =>
    simp only [List.foldlM_nil, pure_ok] at h
    subst h
    exact ⟨rfl, fun e he => he, fun e he => ⟨e, [], .inl ⟨he, rfl⟩, rfl⟩⟩
  | cons item items ih =>
    simp only [List.foldlM_cons, bind_ok] at h
    obtain ⟨db₁, hitem, hrest⟩ := h
    obtain ⟨hsources, hforward, hbackward⟩ := registerItem_ok hitem
    obtain ⟨hsources', hforward', hbackward'⟩ := ih hrest
    refine ⟨hsources'.trans hsources, fun e he => hforward' _ (hforward e he), ?_⟩
    intro e' he'
    obtain ⟨e₁, rest, ⟨he₁, rfl⟩ | ⟨new, hnew, rfl⟩, rfl⟩ := hbackward' e' he'
    · obtain ⟨e, he | rfl, rfl⟩ := hbackward e₁ he₁
      · exact ⟨e, item :: rest, .inl ⟨he, rfl⟩, rfl⟩
      · exact ⟨_, item :: rest, .inr ⟨item, List.mem_cons_self, rfl⟩, rfl⟩
    · exact ⟨_, rest, .inr ⟨new, List.mem_cons_of_mem _ hnew, rfl⟩, rfl⟩

/-! ## What a transaction does to an entry -/

/-- The entry is the one the claim is for. -/
def ReplayClaim.Names (claim : ReplayClaim) (e : EntryRow) : Prop :=
  At claim.sourceId claim.keySha256 e

/-- The ways a command may leave an entry. -/
inductive EntryRow.After : Command → EntryRow → EntryRow → Prop
  | same (c : Command) (e : EntryRow) : After c e e
  | listed {claim : DiscoveryClaim} {page : Page} {now later : Time} {e : EntryRow} :
      After (.registerPage claim page now later) e
        (page.items.foldl (EntryRow.listed claim now) e)
  | claimed {source : ReplaySource} {now : Lane → Time} {fresh : Time} {locked : List Digest}
      {token : Uuid} {lane : Lane} {e : EntryRow} (hdue : Due source.sourceId lane (now lane) e) :
      After (.claimEntry source now fresh locked token) e
        { e with
          claimToken := some token, claimEpoch := e.claimEpoch + 1,
          claimUntil := some (fresh + leaseMs), attemptCount := e.attemptCount + 1 }
  | pinned {claim : ReplayClaim} {digest : Digest} {now : Time} {e : EntryRow}
      (hnames : claim.Names e) (hcurrent : ClaimCurrent claim now e)
      (hreceipt : ∀ r ∈ e.receiptSha256, r = digest) :
      After (.pinReceipt claim digest now) e { e with receiptSha256 := some digest }
  | finished {claim : ReplayClaim} {digest : Digest} {status : FinishStatus} {now : Time}
      {e : EntryRow} (hnames : claim.Names e) (hcurrent : ClaimCurrent claim now e)
      (hreceipt : ∀ r ∈ e.receiptSha256, r = digest) :
      After (.finish claim digest status now) e
        { e with
          receiptSha256 := some digest
          state := if status = .observed then .observed else .retry
          phase := status.phase e.phase
          processedGeneration :=
            if status = .observed then some e.discoveredGeneration else e.processedGeneration
          nextAttemptAt := now + retryMs, claimToken := none, claimUntil := none }
  | failed {claim : ReplayClaim} {code : ReplayFailure} {now : Time} {e : EntryRow}
      (hnames : claim.Names e) (hcurrent : ClaimCurrent claim now e) :
      After (.failEntry claim code now) e
        { e with
          state := if code = .invalidReceipt ∨ code = .receiptConflict then .invalid else .retry
          nextAttemptAt := now + retryMs, firstFailureAt := some (e.firstFailureAt.getD now),
          lastFailureAt := some now, lastFailureCode := some (.replay code),
          claimToken := none, claimUntil := none }

/-- The entries after a command, each from one before it or newly listed. -/
structure Entries (c : Command) (s t : Db) : Prop where
  forward : ∀ e ∈ s.entries, ∃ e' ∈ t.entries, EntryRow.After c e e'
  backward : ∀ e' ∈ t.entries, (∃ e ∈ s.entries, EntryRow.After c e e') ∨
    ∃ claim page now later item, ∃ rest : List LedgerDiscoveryItem,
      c = .registerPage claim page now later ∧
      item ∈ page.items ∧ e' = rest.foldl (EntryRow.listed claim now) (item.entry claim now)

theorem Entries.of_same {c : Command} {s t : Db} (h : t.entries = s.entries) : Entries c s t := by
  constructor
  · intro e he
    exact ⟨e, h ▸ he, .same c e⟩
  · intro e he
    exact .inl ⟨e, h ▸ he, .same c e⟩

/-- A command that changes the one entry it has locked. -/
theorem Entries.of_update {c : Command} {s t : Db} {sourceId keySha256 : Digest} {row : EntryRow}
    {f : EntryRow → EntryRow} (hrow : row ∈ s.entries) (hat : At sourceId keySha256 row)
    (h : t.entries.rows = s.entries.rows.map fun e => if At sourceId keySha256 e then f e else e)
    (hafter : EntryRow.After c row (f row)) : Entries c s t := by
  have hchange : ∀ e ∈ s.entries,
      EntryRow.After c e (if At sourceId keySha256 e then f e else e) := by
    intro e he
    by_cases hate : At sourceId keySha256 e
    · rw [if_pos hate, eq_of_at he hrow hate hat]
      exact hafter
    · rw [if_neg hate]
      exact .same c e
  constructor
  · intro e he
    refine ⟨_, ?_, hchange e he⟩
    rw [← Table.mem_rows, h]
    exact List.mem_map_of_mem he
  · intro e' he'
    rw [← Table.mem_rows, h] at he'
    obtain ⟨e, he, rfl⟩ := List.mem_map.mp he'
    exact .inl ⟨e, he, hchange e he⟩

/-- A candidate is due in its lane. -/
theorem candidate_ok {db : Db} {sourceId : Digest} {lane : Lane} {now : Time}
    {locked : List Digest} {found : EntryRow}
    (h : candidate db sourceId lane now locked = some found) :
    found ∈ db.entries ∧ Due sourceId lane now found := by
  obtain ⟨hmem, hdue, -⟩ := Table.first?_some h
  exact ⟨hmem, hdue⟩

/-- What claiming a lane does. -/
theorem claimLane_ok {db t : Db} {source : ReplaySource} {lane : Lane} {found : EntryRow}
    {now : Lane → Time} {fresh : Time} {locked : List Digest} {token : Uuid}
    {claim : Option ReplayClaim} (hfound : found ∈ db.entries)
    (hdue : Due source.sourceId lane (now lane) found)
    (h : claimLane db source lane found fresh token = .ok (t, claim)) :
    Entries (.claimEntry source now fresh locked token) db t ∧
      ∀ c ∈ claim, c.Names found := by
  simp only [claimLane, bind_ok, require_ok, ensure_ok, pure_ok, Prod.mk.injEq] at h
  obtain ⟨entry, hentry, key, -, -, -, -, -, rfl, rfl⟩ := h
  obtain ⟨hmem, hat⟩ := entry_ok hentry
  obtain rfl := eq_of_at hmem hfound hat ⟨hdue.1, rfl⟩
  refine ⟨.of_update hmem hat rfl (.claimed hdue), ?_⟩
  rintro c ⟨⟩
  exact hat

/-- A claim is for an entry that was due when it was made. -/
theorem claimEntry_ok {db t : Db} {source : ReplaySource} {now : Lane → Time} {fresh : Time}
    {locked : List Digest} {token : Uuid} {claim : Option ReplayClaim}
    (h : DeletionReplayRepository.claimEntry db source now fresh locked token = .ok (t, claim)) :
    Entries (.claimEntry source now fresh locked token) db t ∧
      ∀ c ∈ claim, ∃ e ∈ db.entries, ∃ lane, Due source.sourceId lane (now lane) e ∧
        c.Names e := by
  simp only [DeletionReplayRepository.claimEntry, bind_ok] at h
  obtain ⟨⟨db₁, row⟩, hsource, h⟩ := h
  obtain ⟨hentries, -⟩ := source_ok hsource
  have take : ∀ lane found, candidate db₁ source.sourceId lane (now lane) locked = some found →
      claimLane db₁ source lane found fresh token = .ok (t, claim) →
      Entries (.claimEntry source now fresh locked token) db t ∧
        ∀ c ∈ claim, ∃ e ∈ db.entries, ∃ lane, Due source.sourceId lane (now lane) e ∧
          c.Names e := by
    intro lane found hcandidate hclaim
    obtain ⟨hmem, hdue⟩ := candidate_ok hcandidate
    obtain ⟨hafter, hnames⟩ := claimLane_ok hmem hdue hclaim
    refine ⟨⟨?_, ?_⟩, fun c hc => ⟨found, hentries ▸ hmem, lane, hdue, hnames c hc⟩⟩
    · rw [← hentries]
      exact hafter.forward
    · rw [← hentries]
      exact hafter.backward
  dsimp only at h
  split at h
  · rename_i found hfirst
    exact take _ found hfirst h
  · split at h
    · rename_i found hsecond
      exact take _ found hsecond h
    · rw [pure_ok, Prod.mk.injEq] at h
      obtain ⟨rfl, rfl⟩ := h
      exact ⟨.of_same hentries, fun c hc => (by cases hc)⟩

theorem map_ok {α β : Type} {f : α → β} {x : Except ReplayError α} {b : β} :
    f <$> x = .ok b ↔ ∃ a, x = .ok a ∧ f a = b := by
  cases x <;> simp [Functor.map, Except.map]

/-- A page registers its items one after another. -/
theorem registerPage_ok {db t : Db} {claim : DiscoveryClaim} {page : Page} {now later : Time}
    (h : DeletionReplayRepository.registerPage db claim page now later = .ok t) :
    ∃ db₁ row, page.items.foldlM (registerItem claim now) db = .ok db₁ ∧ row ∈ db.sources ∧
      row.sourceId = claim.sourceId ∧ DiscoveryCurrent claim now row ∧
      DiscoveryCurrent claim later row ∧ t = db₁.updateSource claim.sourceId fun r =>
        { r with
          cursor := page.cursor
          generation := if page.cursor = none then r.generation + 1 else r.generation
          discoveryToken := none, discoveryUntil := none, currentFailureCode := none } := by
  simp only [DeletionReplayRepository.registerPage, bind_ok, ensure_ok, pure_ok] at h
  obtain ⟨-, -, ⟨db₀, row₀⟩, hfence, db₁, hitems, ⟨db₂, row⟩, hfence', -, -, rfl⟩ := h
  obtain ⟨rfl, hmem, hid, hcurrent⟩ := discoveryFence_ok hfence
  obtain ⟨rfl, hmem', hid', hcurrent'⟩ := discoveryFence_ok hfence'
  have hsources := (registerItems_ok hitems).1
  obtain rfl := eq_of_sourceId hmem (hsources ▸ hmem') (hid.trans hid'.symm)
  exact ⟨db₂, row₀, hitems, hmem, hid, hcurrent, hcurrent', rfl⟩

theorem claimDiscovery_entries {db t : Db} {source : ReplaySource} {now : Time} {token : Uuid}
    {claim : Option DiscoveryClaim}
    (h : DeletionReplayRepository.claimDiscovery db source now token = .ok (t, claim)) :
    t.entries = db.entries := by
  simp only [DeletionReplayRepository.claimDiscovery, bind_ok] at h
  obtain ⟨⟨db₁, row⟩, hsource, h⟩ := h
  obtain ⟨hentries, -⟩ := source_ok hsource
  split at h
  · cases h
    exact hentries
  · simp only [bind_ok, ensure_ok, pure_ok, Prod.mk.injEq] at h
    obtain ⟨-, -, rfl, -⟩ := h
    exact hentries

theorem registerPage_entries {db t : Db} {claim : DiscoveryClaim} {page : Page}
    {now later : Time} (h : DeletionReplayRepository.registerPage db claim page now later = .ok t) :
    Entries (.registerPage claim page now later) db t := by
  obtain ⟨db₁, row, hitems, -, -, -, -, rfl⟩ := registerPage_ok h
  obtain ⟨-, hforward, hbackward⟩ := registerItems_ok hitems
  constructor
  · intro e he
    exact ⟨_, hforward e he, .listed⟩
  · intro e' he'
    obtain ⟨e, rest, ⟨he, rfl⟩ | ⟨item, hitem, rfl⟩, rfl⟩ := hbackward e' he'
    · exact .inl ⟨e, he, .listed⟩
    · exact .inr ⟨claim, page, now, later, item, rest, rfl, hitem, rfl⟩

theorem failDiscovery_entries {db t : Db} {claim : DiscoveryClaim} {code : ReplayFailure}
    {now : Time} (h : DeletionReplayRepository.failDiscovery db claim code now = .ok t) :
    t.entries = db.entries := by
  obtain ⟨⟨db₁, row⟩, hfence, ht⟩ := bind_ok.mp h
  rw [pure_ok] at ht
  obtain ⟨rfl, -⟩ := discoveryFence_ok hfence
  exact ht ▸ rfl

theorem pinReceipt_entries {db t : Db} {claim : ReplayClaim} {digest : Digest} {now : Time}
    (h : DeletionReplayRepository.pinReceipt db claim digest now = .ok t) :
    Entries (.pinReceipt claim digest now) db t := by
  simp only [DeletionReplayRepository.pinReceipt, bind_ok, pure_ok] at h
  obtain ⟨row, hfence, rfl⟩ := h
  obtain ⟨hmem, hat, hcurrent, hdigest⟩ := fence_ok hfence
  exact .of_update hmem hat rfl (.pinned hat hcurrent fun r hr => hdigest digest rfl r hr)

theorem finish_entries {db t : Db} {claim : ReplayClaim} {digest : Digest}
    {status : FinishStatus} {now : Time}
    (h : DeletionReplayRepository.finish db claim digest status now = .ok t) :
    Entries (.finish claim digest status now) db t := by
  obtain ⟨row, hfence, ht⟩ := bind_ok.mp h
  rw [pure_ok] at ht
  obtain ⟨hmem, hat, hcurrent, hdigest⟩ := fence_ok hfence
  subst ht
  refine .of_update hmem hat rfl ?_
  rw [← hcurrent.2.2.2.2.1]
  exact .finished hat hcurrent fun r hr => hdigest digest rfl r hr

theorem failEntry_entries {db t : Db} {claim : ReplayClaim} {code : ReplayFailure} {now : Time}
    (h : DeletionReplayRepository.failEntry db claim code now = .ok t) :
    Entries (.failEntry claim code now) db t := by
  obtain ⟨row, hfence, ht⟩ := bind_ok.mp h
  rw [pure_ok] at ht
  obtain ⟨hmem, hat, hcurrent, -⟩ := fence_ok hfence
  subst ht
  exact .of_update hmem hat rfl (.failed hat hcurrent)

/-- Every entry after a command is accounted for. -/
theorem exec_after {c : Command} {s t : Db} (h : exec c s = .ok t) : Entries c s t := by
  cases c with
  | claimDiscovery source now token =>
    obtain ⟨⟨db, claim⟩, hclaim, rfl⟩ := map_ok.mp h
    exact .of_same (claimDiscovery_entries hclaim)
  | registerPage claim page now later => exact registerPage_entries h
  | failDiscovery claim code now =>
    exact .of_same (failDiscovery_entries h)
  | claimEntry source now fresh locked token =>
    obtain ⟨⟨db, claim⟩, hclaim, rfl⟩ := map_ok.mp h
    exact (claimEntry_ok hclaim).1
  | pinReceipt claim digest now => exact pinReceipt_entries h
  | finish claim digest status now => exact finish_entries h
  | failEntry claim code now => exact failEntry_entries h

end Rogichat.Replay
