import Rogichat.Replay.Journal

/-!
# The journal is fenced and honest

* **`run_later`** — what an entry keeps for ever.
* **`Settled`** — an observed entry carries no claim, and unless its evidence is in
  conflict it was processed in the generation it was last discovered in.
* **`exec_sources`** — only a page registered under the current discovery claim moves
  a cursor or a generation.
* **`journal_fenced`** — the guarantees of the journal, for every reachable state.
-/

namespace Rogichat.Replay

open Lib Ledger

/-! ## What never changes -/

/-- A property of entries that listing keeps, whatever is listed. -/
theorem listed_induct {P : EntryRow → Prop} {claim : DiscoveryClaim} {now : Time}
    (hconflicted : ∀ e, P e → P (e.conflicted now))
    (hrelisted : ∀ e, P e → P (e.relisted claim.generation now))
    (items : List LedgerDiscoveryItem) {e : EntryRow} (h : P e) :
    P (items.foldl (EntryRow.listed claim now) e) := by
  induction items generalizing e with
  | nil => exact h
  | cons item items ih =>
    apply ih
    unfold EntryRow.listed
    split
    · split
      · exact hconflicted e h
      · exact hrelisted e h
    · exact h

/-- What an entry keeps for ever: its identity and evidence, a pinned receipt, a
recorded conflict; one in conflict is not claimed again. -/
structure EntryRow.Later (e e' : EntryRow) : Prop where
  sourceId : e'.sourceId = e.sourceId
  keySha256 : e'.keySha256 = e.keySha256
  objectKey : e'.objectKey = e.objectKey
  classification : e'.classification = e.classification
  receipt : ∀ r ∈ e.receiptSha256, r ∈ e'.receiptSha256
  conflict : e.evidenceConflict = true →
    e'.evidenceConflict = true ∧ e'.claimEpoch = e.claimEpoch

theorem EntryRow.Later.refl (e : EntryRow) : e.Later e where
  sourceId := rfl
  keySha256 := rfl
  objectKey := rfl
  classification := rfl
  receipt _ hr := hr
  conflict h := ⟨h, rfl⟩

theorem EntryRow.Later.trans {e e' e'' : EntryRow} (h : e.Later e') (h' : e'.Later e'') :
    e.Later e'' where
  sourceId := h'.sourceId.trans h.sourceId
  keySha256 := h'.keySha256.trans h.keySha256
  objectKey := h'.objectKey.trans h.objectKey
  classification := h'.classification.trans h.classification
  receipt r hr := h'.receipt r (h.receipt r hr)
  conflict hconflict := by
    obtain ⟨hconflict', hepoch⟩ := h.conflict hconflict
    obtain ⟨hconflict'', hepoch'⟩ := h'.conflict hconflict'
    exact ⟨hconflict'', hepoch'.trans hepoch⟩

theorem later_listed (claim : DiscoveryClaim) (now : Time) (items : List LedgerDiscoveryItem)
    (e : EntryRow) : e.Later (items.foldl (EntryRow.listed claim now) e) := by
  refine listed_induct (P := e.Later) ?_ ?_ items (.refl e)
  · intro e' h
    exact { h with conflict := fun hc => ⟨rfl, (h.conflict hc).2⟩ }
  · intro e' h
    exact { h with }

/-- A step takes an entry to a later one. -/
theorem EntryRow.After.later {c : Command} {e e' : EntryRow} (h : EntryRow.After c e e') :
    e.Later e' := by
  cases h with
  | same => exact .refl e
  | @listed claim page now => exact later_listed claim now page.items e
  | claimed hdue =>
    -- an entry in conflict is not due
    have hclean := hdue.2.2.1
    exact { EntryRow.Later.refl e with conflict := fun hc => by rw [hclean] at hc; cases hc }
  | pinned _ _ hreceipt =>
    refine { EntryRow.Later.refl e with receipt := ?_ }
    intro r hr
    exact congrArg some (hreceipt r hr).symm
  | finished _ _ hreceipt =>
    refine { EntryRow.Later.refl e with receipt := ?_ }
    intro r hr
    exact congrArg some (hreceipt r hr).symm
  | failed => exact { EntryRow.Later.refl e with }

/-- A run takes an entry to a later one. -/
theorem run_later {s t : Db} {cs : List Command} (h : system.Run s cs t) {e : EntryRow}
    (he : e ∈ s.entries) : ∃ e' ∈ t.entries, e.Later e' := by
  induction h generalizing e with
  | nil => exact ⟨e, he, .refl e⟩
  | cons hstep _ ih =>
    obtain ⟨e₁, he₁, hafter⟩ := (exec_after hstep).forward e he
    obtain ⟨e', he', hlater⟩ := ih he₁
    exact ⟨e', he', hafter.later.trans hlater⟩

/-! ## Observed entries -/

/-- An observed entry is unclaimed, and unless its evidence is in conflict it was
processed in the generation it was last discovered in. -/
def Settled (e : EntryRow) : Prop :=
  e.state = .observed → e.claimToken = none ∧
    (e.evidenceConflict = false → e.processedGeneration = some e.discoveredGeneration)

theorem settled_conflicted {e : EntryRow} (now : Time) (h : Settled e) :
    Settled (e.conflicted now) :=
  fun hobserved => ⟨(h hobserved).1, fun hc => (by cases hc)⟩

/-- Listing a settled entry again leaves it settled. -/
theorem settled_relisted {e : EntryRow} (generation : Nat) (now : Time) (h : Settled e) :
    Settled (e.relisted generation now) := by
  intro hobserved
  by_cases hnewer : e.discoveredGeneration < generation
  · by_cases hstate : e.state = .observed
    · obtain ⟨htoken, hprocessed⟩ := h hstate
      refine ⟨htoken, fun hc => ?_⟩
      -- a clean observed entry that a newer pass lists is not observed any more
      have hclean : e.evidenceConflict = false := hc
      simp [EntryRow.relisted, hnewer, hstate, hclean, htoken] at hobserved
    · simp [EntryRow.relisted, hstate] at hobserved
  · have hstate : e.state = .observed := by simpa [EntryRow.relisted, hnewer] using hobserved
    simpa [EntryRow.relisted, hnewer] using h hstate

/-- A new entry is settled. -/
theorem settled_entry (claim : DiscoveryClaim) (now : Time) (item : LedgerDiscoveryItem) :
    Settled (item.entry claim now) := by
  intro hobserved
  simp only [LedgerDiscoveryItem.entry] at hobserved
  split at hobserved <;> cases hobserved

/-- A listing leaves entries settled. -/
theorem settled_listed {claim : DiscoveryClaim} {now : Time} (items : List LedgerDiscoveryItem)
    {e : EntryRow} (h : Settled e) : Settled (items.foldl (EntryRow.listed claim now) e) :=
  listed_induct (P := Settled) (fun _ => settled_conflicted now)
    (fun _ => settled_relisted claim.generation now) items h

/-- A step leaves entries settled. -/
theorem EntryRow.After.settled {c : Command} {e e' : EntryRow} (h : EntryRow.After c e e')
    (hsettled : Settled e) : Settled e' := by
  cases h with
  | same => exact hsettled
  | listed => exact settled_listed _ hsettled
  | claimed hdue =>
    -- what is due is not observed
    intro hobserved
    have hstate : e.state = .observed := hobserved
    rcases hdue.2.2.2.1 with h | h <;> rw [h] at hstate <;> cases hstate
  | pinned => exact hsettled
  | @finished claim digest status now =>
    intro hobserved
    by_cases hstatus : status = .observed
    · exact ⟨rfl, fun _ => if_pos hstatus⟩
    · simp [hstatus] at hobserved
  | @failed claim code now =>
    intro hobserved
    dsimp only at hobserved
    split at hobserved <;> cases hobserved

/-- Every entry is settled, in every run. -/
theorem reachable_settled {s : Db} (hs : system.Reachable s) : ∀ e ∈ s.entries, Settled e := by
  refine hs.induct (P := fun s => ∀ e ∈ s.entries, Settled e) ⟨?_, ?_⟩
  · rintro _ rfl e he
    exact absurd he (Table.not_mem_empty e)
  · intro s t c _ hP hstep e' he'
    obtain ⟨e, he, hafter⟩ | ⟨claim, page, now, later, item, rest, -, -, rfl⟩ :=
      (exec_after hstep).backward e' he'
    · exact hafter.settled (hP e he)
    · exact settled_listed rest (settled_entry claim now item)

/-! ## Listed again -/

/-- An item that agrees with its entry lists it again. -/
theorem listed_of_lists {claim : DiscoveryClaim} {now : Time} {item : LedgerDiscoveryItem}
    {e : EntryRow} (h : At claim.sourceId item.keySha256 e) (hagree : ¬Contradicts item e) :
    e.listed claim now item = e.relisted claim.generation now := by
  rw [EntryRow.listed, if_pos h, if_neg hagree]

/-- An entry due again in the generation that listed it stays so through the page. -/
structure Replayed (generation : Nat) (e : EntryRow) : Prop where
  state : e.state = .retry
  phase : e.phase = .apply
  generation : e.discoveredGeneration = generation

/-- A listing leaves what was replayed in its generation replayed. -/
theorem replayed_listed {claim : DiscoveryClaim} {now : Time} (items : List LedgerDiscoveryItem)
    {e : EntryRow} (h : Replayed claim.generation e) :
    Replayed claim.generation (items.foldl (EntryRow.listed claim now) e) := by
  refine listed_induct ?_ ?_ items h
  · intro e h
    exact { h with }
  · intro e h
    have hnewer : ¬e.discoveredGeneration < claim.generation := by
      rw [h.generation]
      omega
    constructor
    · simpa [EntryRow.relisted, hnewer] using h.state
    · simpa [EntryRow.relisted, hnewer] using h.phase
    · simpa [EntryRow.relisted, hnewer] using h.generation

/-- A page whose every listing of an observed entry agrees with its evidence. -/
theorem listed_replayed {claim : DiscoveryClaim} {now : Time} {items : List LedgerDiscoveryItem}
    {e : EntryRow} (hobserved : e.state = .observed) (hclean : e.evidenceConflict = false)
    (htoken : e.claimToken = none) (hnewer : e.discoveredGeneration < claim.generation)
    (hlisted : ∃ item ∈ items, At claim.sourceId item.keySha256 e)
    (hagree : ∀ item ∈ items, At claim.sourceId item.keySha256 e → ¬Contradicts item e) :
    Replayed claim.generation (items.foldl (EntryRow.listed claim now) e) := by
  induction items with
  | nil =>
    obtain ⟨item, hitem, -⟩ := hlisted
    cases hitem
  | cons item items ih =>
    rw [List.foldl_cons]
    by_cases hlists : At claim.sourceId item.keySha256 e
    · -- the first listing does it, and the later ones leave it
      rw [listed_of_lists hlists (hagree item List.mem_cons_self hlists)]
      apply replayed_listed
      constructor <;> simp [EntryRow.relisted, hnewer, hobserved, hclean, htoken]
    · have hskip : e.listed claim now item = e := if_neg hlists
      rw [hskip]
      apply ih
      · obtain ⟨other, hother, hlistsOther⟩ := hlisted
        rcases List.mem_cons.mp hother with rfl | hother
        · exact absurd hlistsOther hlists
        · exact ⟨other, hother, hlistsOther⟩
      · intro other hother
        exact hagree other (List.mem_cons_of_mem _ hother)

/-- A listing that contradicts the evidence is recorded, whatever else the page lists. -/
theorem listed_conflict {claim : DiscoveryClaim} {now : Time} {items : List LedgerDiscoveryItem}
    {e : EntryRow} (h : ∃ item ∈ items, At claim.sourceId item.keySha256 e ∧ Contradicts item e) :
    (items.foldl (EntryRow.listed claim now) e).evidenceConflict = true := by
  obtain ⟨item, hitem, hlists, hcontra⟩ := h
  obtain ⟨before, after, rfl⟩ := List.append_of_mem hitem
  rw [List.foldl_append, List.foldl_cons]
  -- the entry keeps its key and evidence up to the item
  have hlater := later_listed claim now before e
  generalize before.foldl (EntryRow.listed claim now) e = e₁ at hlater
  have hlists₁ : At claim.sourceId item.keySha256 e₁ :=
    ⟨hlater.sourceId.trans hlists.1, hlater.keySha256.trans hlists.2⟩
  have hcontra₁ : Contradicts item e₁ := by
    rw [Contradicts, hlater.objectKey, hlater.classification]
    exact hcontra
  have hconflict : (e₁.listed claim now item).evidenceConflict = true := by
    rw [EntryRow.listed, if_pos hlists₁, if_pos hcontra₁]
    rfl
  exact ((later_listed claim now after _).conflict hconflict).1

/-! ## The discovery lease -/

/-- The page a command registers, and the readings of the clock its fence was checked at. -/
def Registers (c : Command) (r : SourceRow) : Prop :=
  ∃ claim page now later, c = .registerPage claim page now later ∧ claim.sourceId = r.sourceId ∧
    DiscoveryCurrent claim now r ∧ DiscoveryCurrent claim later r

/-- A source keeps its cursor and generation, unless a page of its current claim moved it. -/
def Discovered (c : Command) (s t : Db) : Prop :=
  ∀ r ∈ s.sources, ∃ r' ∈ t.sources, r'.sourceId = r.sourceId ∧
    (r'.cursor = r.cursor ∧ r'.generation = r.generation ∨ Registers c r)

theorem discovered_of_mem {c : Command} {s t : Db} (h : ∀ r ∈ s.sources, r ∈ t.sources) :
    Discovered c s t :=
  fun r hr => ⟨r, h r hr, rfl, .inl ⟨rfl, rfl⟩⟩

/-- An update of the locked source that leaves the cursor and the generation. -/
theorem discovered_of_update {c : Command} {s t : Db} {sourceId : Digest}
    {f : SourceRow → SourceRow} {k : Table.Keeps f} (hs : ∀ r ∈ s.sources, r ∈ t.sources)
    (hid : ∀ r, (f r).sourceId = r.sourceId) (hcursor : ∀ r, (f r).cursor = r.cursor)
    (hgeneration : ∀ r, (f r).generation = r.generation) :
    Discovered c s (t.updateSource sourceId f k) := by
  intro r hr
  refine ⟨_, mem_updateSource_of_mem (hs r hr), ?_⟩
  split
  · exact ⟨hid r, .inl ⟨hcursor r, hgeneration r⟩⟩
  · exact ⟨rfl, .inl ⟨rfl, rfl⟩⟩

theorem claimDiscovery_discovered {db t : Db} {source : ReplaySource} {now : Time} {token : Uuid}
    {claim : Option DiscoveryClaim}
    (h : DeletionReplayRepository.claimDiscovery db source now token = .ok (t, claim)) :
    Discovered (.claimDiscovery source now token) db t := by
  simp only [DeletionReplayRepository.claimDiscovery, bind_ok] at h
  obtain ⟨⟨db₁, row⟩, hsource, h⟩ := h
  obtain ⟨-, -, -, -, hmem, -⟩ := source_ok hsource
  split at h
  · cases h
    exact discovered_of_mem hmem
  · simp only [bind_ok, ensure_ok, pure_ok, Prod.mk.injEq] at h
    obtain ⟨-, -, rfl, -⟩ := h
    exact discovered_of_update hmem (fun _ => rfl) (fun _ => rfl) fun _ => rfl

theorem registerPage_discovered {db t : Db} {claim : DiscoveryClaim} {page : Page}
    {now later : Time} (h : DeletionReplayRepository.registerPage db claim page now later = .ok t) :
    Discovered (.registerPage claim page now later) db t := by
  obtain ⟨db₁, row, hitems, hrow, hid, hcurrent, hcurrent', rfl⟩ := registerPage_ok h
  have hsources := (registerItems_ok hitems).1
  intro r hr
  rw [← hsources] at hr
  refine ⟨_, mem_updateSource_of_mem hr, ?_⟩
  rw [hsources] at hr
  split
  · rename_i hr'
    obtain rfl := eq_of_sourceId hr hrow (hr'.trans hid.symm)
    exact ⟨rfl, .inr ⟨claim, page, now, later, rfl, hid.symm, hcurrent, hcurrent'⟩⟩
  · exact ⟨rfl, .inl ⟨rfl, rfl⟩⟩

theorem failDiscovery_discovered {db t : Db} {claim : DiscoveryClaim} {code : ReplayFailure}
    {now : Time} (h : DeletionReplayRepository.failDiscovery db claim code now = .ok t) :
    Discovered (.failDiscovery claim code now) db t := by
  obtain ⟨⟨db₁, row⟩, hfence, ht⟩ := bind_ok.mp h
  rw [pure_ok] at ht
  obtain ⟨rfl, -⟩ := discoveryFence_ok hfence
  subst ht
  exact discovered_of_update (fun r hr => hr) (fun _ => rfl) (fun _ => rfl) fun _ => rfl

theorem claimLane_discovered {c : Command} {db t : Db} {source : ReplaySource} {lane : Lane}
    {found : EntryRow} {fresh : Time} {token : Uuid} {claim : Option ReplayClaim}
    (h : claimLane db source lane found fresh token = .ok (t, claim)) : Discovered c db t := by
  simp only [claimLane, bind_ok, require_ok, ensure_ok, pure_ok, Prod.mk.injEq] at h
  obtain ⟨entry, -, key, -, -, -, -, -, rfl, -⟩ := h
  exact discovered_of_update (t := db.updateEntry _ _ _ _) (fun r hr => hr) (fun _ => rfl)
    (fun _ => rfl) fun _ => rfl

theorem claimEntry_discovered {db t : Db} {source : ReplaySource} {now : Lane → Time}
    {fresh : Time} {locked : List Digest} {token : Uuid} {claim : Option ReplayClaim}
    (h : DeletionReplayRepository.claimEntry db source now fresh locked token = .ok (t, claim)) :
    Discovered (.claimEntry source now fresh locked token) db t := by
  simp only [DeletionReplayRepository.claimEntry, bind_ok] at h
  obtain ⟨⟨db₁, row⟩, hsource, h⟩ := h
  obtain ⟨-, -, -, -, hmem, -⟩ := source_ok hsource
  have htake : ∀ lane found, claimLane db₁ source lane found fresh token = .ok (t, claim) →
      Discovered (.claimEntry source now fresh locked token) db t := by
    intro lane found hclaim r hr
    exact claimLane_discovered hclaim r (hmem r hr)
  dsimp only at h
  split at h
  · exact htake _ _ h
  · split at h
    · exact htake _ _ h
    · rw [pure_ok, Prod.mk.injEq] at h
      exact discovered_of_mem (h.1 ▸ hmem)

/-- What a command does to the sources. -/
theorem exec_sources {c : Command} {s t : Db} (h : exec c s = .ok t) : Discovered c s t := by
  cases c with
  | claimDiscovery source now token =>
    obtain ⟨⟨db, claim⟩, hclaim, rfl⟩ := map_ok.mp h
    exact claimDiscovery_discovered hclaim
  | registerPage claim page now later => exact registerPage_discovered h
  | failDiscovery claim code now => exact failDiscovery_discovered h
  | claimEntry source now fresh locked token =>
    obtain ⟨⟨db, claim⟩, hclaim, rfl⟩ := map_ok.mp h
    exact claimEntry_discovered hclaim
  | pinReceipt claim digest now =>
    obtain ⟨row, -, ht⟩ := bind_ok.mp h
    rw [pure_ok] at ht
    exact discovered_of_mem (ht ▸ fun r hr => hr)
  | finish claim digest status now =>
    obtain ⟨row, -, ht⟩ := bind_ok.mp h
    rw [pure_ok] at ht
    exact discovered_of_mem (ht ▸ fun r hr => hr)
  | failEntry claim code now =>
    obtain ⟨row, -, ht⟩ := bind_ok.mp h
    rw [pure_ok] at ht
    exact discovered_of_mem (ht ▸ fun r hr => hr)

/-! ## The guarantees -/

/-- The execution claim a command presents, and its reading of the clock. -/
def Command.presents (c : Command) : Option (ReplayClaim × Time) :=
  match c with
  | .pinReceipt claim _ now | .finish claim _ _ now | .failEntry claim _ now => some (claim, now)
  | _ => none

/-- A command that presents a claim changes the entry of that claim, while it is current. -/
theorem EntryRow.After.presented {c : Command} {e e' : EntryRow} (h : EntryRow.After c e e')
    {claim : ReplayClaim} {now : Time} (hc : c.presents = some (claim, now)) (hne : e' ≠ e) :
    claim.Names e ∧ ClaimCurrent claim now e := by
  cases h with
  | same => exact absurd rfl hne
  | listed => cases hc
  | claimed => cases hc
  | pinned hnames hcurrent =>
    cases hc
    exact ⟨hnames, hcurrent⟩
  | finished hnames hcurrent =>
    cases hc
    exact ⟨hnames, hcurrent⟩
  | failed hnames hcurrent =>
    cases hc
    exact ⟨hnames, hcurrent⟩

/-- The journal is fenced and honest, in every reachable state. -/
theorem journal_fenced {s : Db} (hs : system.Reachable s) :
    (∀ c t, system.step c s t → ∀ r ∈ s.sources, ∃ r' ∈ t.sources, r'.sourceId = r.sourceId ∧
      (r'.cursor = r.cursor ∧ r'.generation = r.generation ∨
        ∃ claim page now later, c = .registerPage claim page now later ∧
          claim.sourceId = r.sourceId ∧ DiscoveryCurrent claim now r ∧
          DiscoveryCurrent claim later r)) ∧
    (∀ c t, system.step c s t → ∀ claim now, c.presents = some (claim, now) →
      ∀ e ∈ s.entries, ∃ e' ∈ t.entries, e'.sourceId = e.sourceId ∧ e'.keySha256 = e.keySha256 ∧
        (e' ≠ e → claim.Names e ∧ ClaimCurrent claim now e)) ∧
    (∀ cs t, system.Run s cs t → ∀ e ∈ s.entries, ∃ e' ∈ t.entries, e.Later e') ∧
    (∀ source now fresh locked token t claim,
      DeletionReplayRepository.claimEntry s source now fresh locked token = .ok (t, some claim) →
        ∀ e ∈ s.entries, claim.Names e → e.evidenceConflict = false) ∧
    (∀ e ∈ s.entries, e.state = .observed → e.evidenceConflict = false →
      e.processedGeneration = some e.discoveredGeneration) ∧
    (∀ claim page now later t, system.step (.registerPage claim page now later) s t →
      ∀ e ∈ s.entries, e.state = .observed → e.evidenceConflict = false →
        e.discoveredGeneration < claim.generation →
        (∃ item ∈ page.items, At claim.sourceId item.keySha256 e) →
        ∃ e' ∈ t.entries, e'.sourceId = e.sourceId ∧ e'.keySha256 = e.keySha256 ∧
          if ∃ item ∈ page.items, At claim.sourceId item.keySha256 e ∧ Contradicts item e then
            e'.evidenceConflict = true
          else e'.state = .retry ∧ e'.phase = .apply) := by
  have hsettled := reachable_settled hs
  refine ⟨?_, ?_, ?_, ?_, ?_, ?_⟩
  · intro c t hstep
    exact exec_sources hstep
  · intro c t hstep claim now hc e he
    obtain ⟨e', he', hafter⟩ := (exec_after hstep).forward e he
    exact ⟨e', he', hafter.later.sourceId, hafter.later.keySha256, hafter.presented hc⟩
  · intro cs t hrun e he
    exact run_later hrun he
  · intro source now fresh locked token t claim h e he hnames
    obtain ⟨-, hclaim⟩ := claimEntry_ok h
    obtain ⟨found, hfound, lane, hdue, hnamesFound⟩ := hclaim claim rfl
    -- the key names one entry only
    obtain rfl := eq_of_at he hfound hnames hnamesFound
    exact hdue.2.2.1
  · intro e he hobserved
    exact (hsettled e he hobserved).2
  · intro claim page now later t hstep e he hobserved hclean hnewer hlisted
    obtain ⟨db₁, row, hitems, -, -, -, -, rfl⟩ := registerPage_ok hstep
    -- the page is folded over its entry item by item
    have hlater := later_listed claim now page.items e
    refine ⟨_, (registerItems_ok hitems).2.1 e he, hlater.sourceId, hlater.keySha256, ?_⟩
    split
    · rename_i hconflict
      exact listed_conflict hconflict
    · rename_i hagree
      obtain ⟨htoken, -⟩ := hsettled e he hobserved
      have hreplayed : Replayed claim.generation
          (page.items.foldl (EntryRow.listed claim now) e) := by
        refine listed_replayed hobserved hclean htoken hnewer hlisted ?_
        intro item hitem hat hcontra
        exact hagree ⟨item, hitem, hat, hcontra⟩
      exact ⟨hreplayed.state, hreplayed.phase⟩

/-! ## An object whose size changed -/

/-- Commands that go through one after another make a run. -/
theorem run_of_exec {cs : List Command} {s t : Db} (h : cs.foldlM (fun s c => exec c s) s = .ok t) :
    system.Run s cs t := by
  induction cs generalizing s with
  | nil =>
    rw [List.foldlM_nil, pure_ok] at h
    exact h ▸ .nil s
  | cons c cs ih =>
    obtain ⟨s₁, hexec, hrest⟩ := bind_ok.mp h
    exact .cons hexec (ih hrest)

def ledgerSource : ReplaySource := ⟨7, .qa⟩

def ledgerItem : LedgerDiscoveryItem := ⟨9, some "qa/intent.json", .valid⟩

/-- One pass finds the object and its receipt is applied; then the next pass begins. -/
def firstPass : List Command :=
  [.claimDiscovery ledgerSource 0 1,
    .registerPage ⟨ledgerSource, 1, 1, 1, none⟩ ⟨[ledgerItem], none⟩ 1 2,
    .claimEntry ledgerSource (fun _ => 3) 3 [] 2,
    .finish ⟨ledgerSource, 9, "qa/intent.json", 2, 1, .apply⟩ 5 .observed 4,
    .claimDiscovery ledgerSource 6 3]

/-- The claim of the second pass. -/
def secondClaim : DiscoveryClaim := ⟨ledgerSource, 3, 2, 2, none⟩

/-- The entry once it was applied. -/
def observedEntry : EntryRow :=
  { sourceId := 7, keySha256 := 9, objectKey := some "qa/intent.json", classification := .valid,
    state := .observed, receiptSha256 := some 5, discoveredGeneration := 1,
    processedGeneration := some 1, nextAttemptAt := 4 + retryMs, attemptCount := 1,
    claimEpoch := 1 }

/-- The first pass observes the entry; a second listing that agrees or contradicts goes through. -/
theorem firstPass_observed : ∃ s, system.Run ⟨.empty, .empty⟩ firstPass s ∧
    s.entries.rows = [observedEntry] ∧
    (∃ t, exec (.registerPage secondClaim ⟨[ledgerItem], none⟩ 7 8) s = .ok t) ∧
    ∃ t, exec (.registerPage secondClaim ⟨[{ ledgerItem with classification := .invalidSize }],
      none⟩ 7 8) s = .ok t ∧ t.entries.rows = [observedEntry.conflicted 7] :=
  ⟨_, run_of_exec rfl, rfl, ⟨_, rfl⟩, _, rfl, rfl⟩

/-- The second pass lists the object as it was, and it is to be replayed. -/
theorem journal_fenced_relisted : ∃ s t, system.Reachable s ∧ observedEntry ∈ s.entries ∧
    system.step (.registerPage secondClaim ⟨[ledgerItem], none⟩ 7 8) s t ∧
    ∃ e ∈ t.entries, e.sourceId = 7 ∧ e.keySha256 = 9 ∧ e.state = .retry ∧ e.phase = .apply := by
  obtain ⟨s, hrun, hrows, ⟨t, hstep⟩, -⟩ := firstPass_observed
  have hs : system.Reachable s := hrun.reachable (.init rfl)
  have hmem : observedEntry ∈ s.entries := by
    rw [← Table.mem_rows, hrows]
    exact List.mem_cons_self
  obtain ⟨-, -, -, -, -, hrelisted⟩ := journal_fenced hs
  obtain ⟨e, he, hsource, hkey, hafter⟩ := hrelisted secondClaim ⟨[ledgerItem], none⟩ 7 8 t hstep
    observedEntry hmem rfl rfl (by decide) ⟨ledgerItem, List.mem_cons_self, rfl, rfl⟩
  rw [if_neg (by decide)] at hafter
  exact ⟨s, t, hs, hmem, hstep, e, he, hsource, hkey, hafter⟩

/-- Listed with another size it stays observed: its evidence is in conflict. -/
theorem relisted_conflict :
    ¬∀ s, system.Reachable s → ∀ claim page now later t,
      system.step (.registerPage claim page now later) s t → ∀ e ∈ s.entries,
        e.state = .observed → e.evidenceConflict = false →
        e.discoveredGeneration < claim.generation →
        (∃ item ∈ page.items, At claim.sourceId item.keySha256 e) →
        ∃ e' ∈ t.entries, e'.sourceId = e.sourceId ∧ e'.keySha256 = e.keySha256 ∧
          e'.state = .retry ∧ e'.phase = .apply := by
  intro hclaim
  obtain ⟨s, hrun, hrows, -, t, hstep, hrows'⟩ := firstPass_observed
  have hmem : observedEntry ∈ s.entries := by
    rw [← Table.mem_rows, hrows]
    exact List.mem_cons_self
  obtain ⟨e, he, -, -, hstate, -⟩ := hclaim s (hrun.reachable (.init rfl)) secondClaim _ 7 8 t
    hstep observedEntry hmem rfl rfl (by decide) ⟨_, List.mem_cons_self, rfl, rfl⟩
  rw [← Table.mem_rows, hrows', List.mem_singleton] at he
  subst he
  cases hstate

end Rogichat.Replay
