import Rogichat.Restore.Gate

/-!
# What a release is given for

A `consume` that commits does so in a state whose digest is the one the run recorded and
the one that was signed. One digest is one observation, so the tables agree with those that
were recorded in every component. The last part is a run that is released after an
observation that was not ready.
-/

namespace Rogichat.Restore

open Lib Ledger

variable {c : Crypto} {s t : Sys}

/-! ## The observation that was recorded -/

/-- The last recorded measurement was logged. -/
theorem lastRecorded_mem {runId : String} {log : List Event} {d : Domain} {o : Observation}
    (h : lastRecorded runId log = some (d, o)) : Event.observed runId true d o ∈ log := by
  induction log with
  | nil => cases h
  | cons e log ih =>
    cases e with
    | mutated r => exact List.mem_cons_of_mem _ (ih h)
    | consumed r => exact List.mem_cons_of_mem _ (ih h)
    | observed r recorded d' o' =>
      cases recorded with
      | false => exact List.mem_cons_of_mem _ (ih h)
      | true =>
        rw [lastRecorded] at h
        split at h
        · rename_i hr
          cases h
          rw [hr]
          exact List.mem_cons_self
        · exact List.mem_cons_of_mem _ (ih h)

/-- A measurement names all violations. -/
theorem Measured.keys {d : Domain} {o : Observation} (h : Measured c d o) :
    o.state.violations.map Prod.fst = violationKeys := by
  rw [(observation_domain h.state).1]
  exact violations_keys d

/-- Tables of which one observation was made agree in what is observed. -/
theorem Measured.agree {d e : Domain} {o : Observation} (hd : Measured c d o)
    (he : Measured c e o) (hbound : o.mediaBound = true) : d.Agree e := by
  obtain ⟨hviolations, manifest, hmanifest, hsha, hgeneration⟩ := observation_domain hd.state
  obtain ⟨hviolations', manifest', hmanifest', hsha', hgeneration'⟩ := observation_domain he.state
  refine ⟨hviolations.symm.trans hviolations', ?_, ?_, ?_, ?_⟩
  · have hone := inventory_inj (c.ideal (hsha.symm.trans hsha'))
    rw [hmanifest, hmanifest', hone]
  · exact generations_inj (c.ideal (hgeneration.symm.trans hgeneration'))
  · exact readiness_congr (hd.apple.trans he.apple.symm)
  · refine Option.map_injective c.ideal ?_
    exact (hd.bound hbound).2.trans (he.bound hbound).2.symm

/-- What a `consume` that commits finds in the tables, the run's row and its proofs. -/
structure Released (c : Crypto) (s : Sys) (a : Attempt) (release : VerifiedProof ReleasePayload)
    (evidence : RestoreMediaEvidence) (row : CheckpointRow) (o : Observation) : Prop where
  held : row ∈ s.checkpoints ∧ row.runId = a.settings.scope.restoreRunId
  violations : ∀ v ∈ s.domain.violations, v.2 = 0
  /-- The applied receipts are the inventory of a signed boundary. -/
  receipts : s.domain.receiptManifest = .ok a.boundary.payload.inventory
  boundary : ∃ envelope, ∃ opened ≤ s.now,
    a.settings.verifier.boundary c envelope a.settings.scope ((opened / 1000 : Nat) : Int) =
      .ok a.boundary
  verified : evidence.status = .verified
  bound : bindMedia c a.settings.store s.domain evidence = true
  quarantined : (s.domain.readiness a.settings.providerConfigured).quarantined = true
  /-- The digest is that of the state the commit is in. -/
  measured : Measured c s.domain o ∧ o.media = evidence ∧ o.scope = a.settings.scope ∧
    o.boundarySha256 = a.boundary.sha256
  recorded : row.observationSha256 = some (o.digest c)
  named : release.payload.observationSha256 = o.digest c
  unexpired : (s.now : Int) < release.payload.expiresAt * 1000
  signed : ∃ envelope, ∃ opened ≤ s.now,
    a.settings.verifier.release c envelope a.settings.scope ((opened / 1000 : Nat) : Int) =
      .ok release
  sameBoundary : release.payload.boundarySha256 = a.boundary.sha256 ∧
    row.boundarySha256 = a.boundary.sha256
  sameScope : release.payload.toRestoreScope = a.settings.scope

/-- What goes through is released. -/
theorem consume_released {id : Nat} (h : Inv c s) (hstep : consume c s id = .ok t) :
    ∃ a release evidence row o, s.attempts id = some a ∧ a.verb = .consume release ∧
      Released c s a release evidence row o ∧
      ∃ d, lastRecorded row.runId s.log = some (d, o) ∧ d.Agree s.domain := by
  obtain ⟨a, release, evidence, held, row, o, ha, hverb, hlock, hphase, -, ho, hready, hrecorded,
    hnamed, hunexpired, -⟩ := consume_ok hstep
  obtain ⟨hrow, hrun, hboundary⟩ := lock_ok hlock
  obtain ⟨hmeasured, hmedia, hscope, hboundaryo, happle, hbound, hviolations⟩ := observation_ok ho
  obtain ⟨hverified, hmediaBound, hinventory, hzero, hquarantined⟩ := hready
  obtain ⟨hsigned, hopened⟩ := (h.attempts id a ha).release release hverb
  obtain ⟨-, manifest, hmanifest, hsha, -⟩ := observation_domain hmeasured.state
  obtain ⟨d, o', hlast, hdigest⟩ := (h.rows row hrow).recorded (.inl hphase)
  refine ⟨a, release, evidence, row, o, ha, hverb, ?_, d, ?_⟩
  · refine
      { held := ⟨hrow, hrun⟩
        violations := hviolations ▸ hzero
        receipts := ?_
        boundary := (h.attempts id a ha).boundary
        verified := hmedia ▸ hverified
        bound := hbound.symm.trans hmediaBound
        quarantined := happle ▸ hquarantined
        measured := ⟨hmeasured, hmedia, hscope, hboundaryo⟩
        recorded := hrecorded
        named := hnamed
        unexpired := hunexpired
        signed := hopened
        sameBoundary := ⟨hsigned, hboundary⟩
        sameScope := ?_ }
    · rw [hmanifest, inventory_inj (c.ideal (hsha.symm.trans hinventory))]
    · obtain ⟨envelope, opened, -, hrelease⟩ := hopened
      exact (release_ok hrelease).1
  · -- the recorded observation has the digest of this one, so it is this one
    obtain ⟨hmeasured', hbound'⟩ := h.log.measured _ _ _ _ (lastRecorded_mem hlast)
    have hone : o' = o := by
      refine digest_inj (c := c) hmeasured'.keys hmeasured.keys ?_
      rw [hrecorded] at hdigest
      exact (Option.some.inj hdigest).symm
    subst hone
    exact ⟨hlast, hmeasured'.agree hmeasured (hbound' rfl)⟩

/-- Of a run that is authorized, `prepare` writes nothing more. -/
theorem prepare_closed (h : Inv c s) {id : Nat} {a : Attempt} {row : CheckpointRow}
    (ha : s.attempts id = some a) (hrow : row ∈ s.checkpoints)
    (hrun : row.runId = a.settings.scope.restoreRunId) (hphase : row.phase = .releaseAuthorized) :
    begin_ c s id ≠ .ok t ∧ page c s id ≠ .ok t ∧
      ∀ result, restoreMutation c s id result ≠ .ok t := by
  have hlocked : ∀ {b : Attempt} {held : Held} {row' : CheckpointRow}, s.attempt id = .ok b →
      s.lock c b held = .ok row' → row'.phase = .releaseAuthorized := by
    intro b held row' hb hlock
    obtain rfl := Option.some.inj (ha.symm.trans (attempt_ok hb))
    obtain ⟨hrow', hrun', -⟩ := lock_ok hlock
    rw [row_eq hrow' hrow (hrun'.trans hrun.symm)]
    exact hphase
  refine ⟨?_, ?_, ?_⟩
  · intro hstep
    simp only [begin_, bind_ok, check_ok] at hstep
    obtain ⟨b, hb, -, -, held, -, -, -, ⟨s', row'⟩, hbegin, -, hnot, -⟩ := hstep
    obtain rfl := Option.some.inj (ha.symm.trans (attempt_ok hb))
    obtain ⟨hrun', ⟨rfl, hrow'⟩ | ⟨checkpoints, hins, -, -⟩⟩ := begin_ok hbegin
    · rw [row_eq hrow' hrow (hrun'.trans hrun.symm)] at hnot
      exact hnot hphase
    · -- there is a row of the run
      exact Table.fresh_of_insert hins hrow
        ⟨(0, row.runId), by simp [Row.keys], by simp [Row.keys, hrun, hrun']⟩
  · intro hstep
    simp only [page, bind_ok, check_ok] at hstep
    obtain ⟨b, hb, -, -, held, -, -, -, row', hlock, -, hnot, -⟩ := hstep
    exact hnot (hlocked hb hlock)
  · intro result hstep
    simp only [restoreMutation, bind_ok, check_ok] at hstep
    obtain ⟨b, hb, -, -, held, -, -, -, row', hlock, -, hnot, -⟩ := hstep
    rw [hlocked hb hlock] at hnot
    rcases hnot with hnot | hnot <;> cases hnot

/-! ## The result -/

/-- **A release is sound, and is given once.** In every reachable state: a step moves the
phase of a run at most one on; a run was consumed at most once, and no write of `prepare`
committed after that, nor can one commit; and a `consume` commits in a state that is as it
has to be, whose digest is the one recorded and the one signed. The last observation that
was recorded then agrees with the tables in every component. -/
theorem release_sound (s : Sys) (h : (system c).Reachable s) :
    (∀ command t, exec c command s = .ok t → Moved s t) ∧
    (∀ runId, s.log.countP (isConsumed runId) ≤ 1) ∧
    (∀ runId newer older, s.log = newer ++ .consumed runId :: older →
      Event.mutated runId ∉ newer) ∧
    (∀ id a row t, s.attempts id = some a → row ∈ s.checkpoints →
      row.runId = a.settings.scope.restoreRunId → row.phase = .releaseAuthorized →
        exec c (.begin_ id) s ≠ .ok t ∧ exec c (.page id) s ≠ .ok t ∧
          ∀ result, exec c (.restoreMutation id result) s ≠ .ok t) ∧
    ∀ id t, exec c (.consume id) s = .ok t →
      ∃ a release evidence row o, s.attempts id = some a ∧ a.verb = .consume release ∧
        Released c s a release evidence row o ∧
        ∃ d, lastRecorded row.runId s.log = some (d, o) ∧ d.Agree s.domain := by
  have hinv := inv_reachable h
  refine ⟨?_, hinv.log.single, hinv.log.quiet, ?_, ?_⟩
  · intro command t hstep
    exact (inv_step hinv hstep).2
  · intro id a row t ha hrow hrun hphase
    exact prepare_closed hinv ha hrow hrun hphase
  · intro id t hstep
    exact consume_released hinv hstep

/-! ## An observation that is not ready -/

/-- Texts are their own digests, and every signature holds. -/
def crypto : Crypto where
  sha256 := id
  hash _ := true
  verify _ _ _ := true
  ideal := Function.injective_id

def settings : Settings where
  scope :=
    { environment := .qa, sourceCommit := "0123456789012345678901234567890123456789"
      schemaSha256 := "schema", restoreRunId := "run", snapshotSha256 := "snapshot"
      targetId := "target", ledgerSourceId := "ledger" }
  authorizationEpoch := "epoch"
  authorizationKeySha256 := "key"
  verifier := ⟨"boundary", "release"⟩
  store := some "storage"
  providerConfigured := false

/-- The custody the run is held under. -/
def held : Held where
  authorizationEpoch := "epoch"
  authorizationKeySha256 := "key"
  storageScopeSha256 := "storage"
  storageFenceId := "fence"
  mysqlServerUuid := "server"
  mysqlLeaseName := "lease"
  mysqlLeaseOwner := 1
  expiresAt := 100

/-- The one deletion that the ledger holds. -/
def requestId : String := "11111111-1111-1111-8111-111111111111"

/-- The one object of the ledger. -/
def receipt : InventoryItem := ⟨"qa/" ++ requestId ++ "/intent.json", "digest"⟩

/-- A database as it was in service: a signed-in owner with a live Apple credential, and a
deletion that its snapshot has not seen applied. -/
def backup : Domain where
  sessions := [⟨1, none⟩]
  loginTransactions := [⟨.pending, 50⟩]
  appleTransactions := [{ id := 1, status := .processing, expiresAt := 50, proof := some "proof" }]
  pushSubscriptions := [⟨none, 1⟩]
  rooms := [{ id := 1, ownerMemberId := some 1, contentEpoch := 4, policyVersion := 2 }]
  members := [{ id := 1, role := .streamer, status := .active, activePeriodId := some 1
                aclEpoch := 3 }]
  periods := [⟨none⟩]
  grants := [⟨true, true, none⟩]
  testGrants := [⟨none⟩]
  passwords := [⟨none, 1⟩]
  users := [{ id := 1, status := .active, membershipGeneration := 1, reviewerExpiresAt := some 50 }]
  admins := [⟨true, true, true, true⟩]
  creators := [⟨true⟩]
  profiles := [⟨1, true, 1⟩]
  intents := [⟨requestId, .qa, "digest", none⟩]
  obligations := [⟨false⟩]
  identities := [⟨1, true, .verified, none⟩]
  credentials := [{ id := 1, status := .active, token := some "token", availableAt := 0 }]
  media := some "media"

/-- The tables once they are quarantined and the Apple identities are revoked. -/
def revoked : Domain :=
  { backup.quarantine 0 with identities := [⟨1, true, .revoked, some 0⟩] }

/-- The credential is left to the revocation worker. -/
def provided : Domain :=
  { revoked with
    credentials := [{ id := 1, status := .revokePending, token := some "token", availableAt := 0 }] }

/-- The deletion is applied. -/
def restored : Domain :=
  { provided with
    intents := [⟨requestId, .qa, "digest", some 0⟩]
    obligations := [⟨true⟩] }

/-- A session has come in. -/
def disturbed : Domain := { restored with sessions := ⟨2, none⟩ :: restored.sessions }

/-- What the boundary of the run says. -/
def boundaryPayload : BoundaryPayload :=
  { settings.scope with
    issuedAt := 0, expiresAt := 100, ledgerBoundaryId := "id", admissionFenceId := "id"
    inventory := [receipt] }

def boundaryProof (c : Crypto) : VerifiedProof BoundaryPayload :=
  ⟨boundaryPayload, c.sha256 (Json.canonical boundaryPayload.toJson), c.sha256 "boundary"⟩

def boundaryEnvelope (c : Crypto) : Envelope :=
  ⟨c.sha256 "boundary", "", .boundary boundaryPayload⟩

/-- The media of the run is what the database says. -/
def evidence (c : Crypto) : RestoreMediaEvidence :=
  ⟨.verified, some (c.sha256 "media"), none, some "storage", ⟨0, 0, 0, 0, 0⟩, []⟩

/-- The observation of tables with the one deletion. -/
def observationOf (c : Crypto) (d : Domain) : Observation where
  scope := settings.scope
  boundarySha256 := (boundaryProof c).sha256
  binding := held.toRestoreAuthorizationBinding
  state :=
    ⟨d.violations, c.sha256 (Json.canonical (inventoryJson [receipt])),
      c.sha256 (Json.canonical d.generations)⟩
  apple := d.readiness false
  media := evidence c
  mediaBound := true
  epoch := "epoch"

def nonce : String := "01234567890123456789012345678901"

/-- What the release of the run says. -/
def releasePayload (c : Crypto) : ReleasePayload :=
  { settings.scope with
    issuedAt := 0, expiresAt := 100, boundarySha256 := (boundaryProof c).sha256
    observationSha256 := (observationOf c restored).digest c, nonce := nonce }

def releaseProof (c : Crypto) : VerifiedProof ReleasePayload :=
  ⟨releasePayload c, c.sha256 (Json.canonical (releasePayload c).toJson), c.sha256 "release"⟩

def releaseEnvelope (c : Crypto) : Envelope :=
  ⟨c.sha256 "release", "", .release (releasePayload c)⟩

def runRow (c : Crypto) : CheckpointRow where
  runId := "run"
  targetId := targetIdentity c "target" "server"
  contextSha256 := contextSha256 c settings.scope held.toRestoreAuthorizationBinding
  boundarySha256 := (boundaryProof c).sha256
  boundaryIssuer := (boundaryProof c).issuer
  epoch := "epoch"

/-- The run's row when it is prepared, and when the tables of `restored` are observed. -/
def preparedRow (c : Crypto) : CheckpointRow :=
  { runRow c with phase := .quarantined, providerPhase := .complete }

/-- The checkpoint once the database was measured. -/
def observedRow (c : Crypto) : CheckpointRow :=
  { preparedRow c with
    phase := .observed
    observationSha256 := some ((observationOf c restored).digest c) }

/-- The table with the run's row. -/
def only (row : CheckpointRow) : Table CheckpointRow := ⟨[row], List.pairwise_singleton _ _⟩

def stage (checkpoints : Table CheckpointRow) (d : Domain) (attempts : Nat → Option Attempt)
    (log : List Event) : Sys where
  checkpoints := checkpoints
  domain := d
  custody := { owner := fun _ => some 1, serverUuid := "server", databaseName := "target" }
  now := 0
  attempts := attempts
  log := log

def attempt (c : Crypto) (verb : Verb) : Attempt where
  settings := settings
  verb := verb
  boundary := boundaryProof c

/-- The run's scope is well formed. -/
theorem scope_checked (hhash : ∀ s, c.hash s = true) : checkedScope c settings.scope = .ok () := by
  rw [checkedScope, check_ok]
  refine ⟨by decide +kernel, hhash _, hhash _, hhash _, by decide +kernel, by decide +kernel⟩

theorem inventory_checked (hhash : ∀ s, c.hash s = true) :
    checkInventory c .qa "" [receipt] = .ok () := by
  simp only [checkInventory, bind_ok, check_ok]
  exact ⟨(), ⟨by decide +kernel, hhash _⟩, (), by decide +kernel, rfl⟩

theorem boundary_verified (hhash : ∀ s, c.hash s = true)
    (hverify : ∀ k b s, c.verify k b s = true) :
    settings.verifier.boundary c (boundaryEnvelope c) settings.scope 0 = .ok (boundaryProof c) := by
  rw [boundaryEnvelope]
  simp only [RestoreProofVerifier.boundary, checkProof, bind_ok, check_ok]
  exact ⟨(), ⟨(), scope_checked hhash, (), rfl, (), hverify _ _ _, by decide +kernel⟩, (),
    by decide +kernel, (), inventory_checked hhash, rfl⟩

theorem release_verified (hhash : ∀ s, c.hash s = true)
    (hverify : ∀ k b s, c.verify k b s = true) :
    settings.verifier.release c (releaseEnvelope c) settings.scope 0 = .ok (releaseProof c) := by
  have hnonce : Text.fits (List.replicate 32 Text.lowerHex) nonce.toList = true := by
    decide +kernel
  have hlifetime : (0 : Int) ≤ 0 ∧ (0 : Int) < 100 ∧ (0 : Int) < 100 ∧ (100 : Int) - 0 ≤ 300 := by
    decide
  rw [releaseEnvelope]
  simp only [RestoreProofVerifier.release, checkProof, bind_ok, check_ok]
  exact ⟨(), ⟨(), scope_checked hhash, (), rfl, (), hverify _ _ _, rfl, hlifetime⟩, (),
    ⟨hhash _, hhash _, hnonce⟩, rfl⟩

variable {checkpoints : Table CheckpointRow} {row : CheckpointRow} {d : Domain}
  {attempts : Nat → Option Attempt} {log : List Event} {id : Nat} {a : Attempt}

theorem stage_attempt :
    (stage checkpoints d (Function.update attempts id (some a)) log).attempts id = some a :=
  Function.update_self ..

theorem stage_clock : (stage checkpoints d attempts log).clock = 0 := by
  simp [Sys.clock, stage]

/-- The custody is held throughout. -/
theorem stage_held (verb : Verb) :
    (stage checkpoints d attempts log).held (attempt c verb) held = .ok () := by
  rw [Sys.held, check_ok, stage_clock]
  exact ⟨by show (0 : Int) < 100; decide, rfl, rfl⟩

theorem stage_fence : (stage checkpoints d attempts log).fence "target" held = .ok () := by
  rw [Sys.fence, check_ok]
  exact ⟨rfl, rfl, rfl, by show ((0 : Nat) : Int) < 100 * 1000; decide⟩

/-- The row is the run's. -/
structure Locked (c : Crypto) (row : CheckpointRow) : Prop where
  runId : row.runId = "run"
  bound : row.targetId = (runRow c).targetId ∧ row.contextSha256 = (runRow c).contextSha256 ∧
    row.boundarySha256 = (runRow c).boundarySha256 ∧ row.boundaryIssuer = (runRow c).boundaryIssuer
  epoch : row.epoch = "epoch"

/-- The run's row can be locked. -/
theorem stage_lock (verb : Verb) (hrow : Locked c row) :
    (stage (only row) d attempts log).lock c (attempt c verb) held = .ok row := by
  simp only [Sys.lock, bind_ok, require_ok, check_ok]
  refine ⟨row, ?_, (), hrow.bound, rfl⟩
  show List.find? _ [row] = some row
  rw [List.find?_cons_of_pos]
  exact decide_eq_true hrow.runId

theorem only_update {f : CheckpointRow → CheckpointRow} {k : Table.Keeps f} :
    (stage (only row) d attempts log).updateRow row.runId f k =
      stage (only (f row)) d attempts log := by
  simp only [Sys.updateRow, stage, only, Table.update, List.map_cons, List.map_nil, if_true]

/-- An attempt may be opened at any stage. -/
theorem open_stage (hhash : ∀ s, c.hash s = true) (hverify : ∀ k b s, c.verify k b s = true)
    (hid : attempts id = none) (prepare : Bool) :
    open_ c (stage checkpoints d attempts log) id settings prepare
        (boundaryEnvelope c) =
      .ok (stage checkpoints d (Function.update attempts id
        (some (attempt c (if prepare then .prepare else .observe)))) log) := by
  simp only [open_, bind_ok, check_ok, stage_clock]
  exact ⟨(), hid, boundaryProof c, boundary_verified hhash hverify, rfl⟩

theorem openConsume_stage (hhash : ∀ s, c.hash s = true)
    (hverify : ∀ k b s, c.verify k b s = true) (hid : attempts id = none) :
    openConsume c (stage checkpoints d attempts log) id settings
        (boundaryEnvelope c) (releaseEnvelope c) =
      .ok (stage checkpoints d (Function.update attempts id
        (some (attempt c (.consume (releaseProof c))))) log) := by
  simp only [openConsume, bind_ok, check_ok, stage_clock]
  exact ⟨(), hid, boundaryProof c, boundary_verified hhash hverify, releaseProof c,
    release_verified hhash hverify, (), rfl, rfl⟩

/-- The ledger lists the deletion, and holds what the boundary says. -/
theorem receive_stage {verb : Verb} (ha : attempts id = some (attempt c verb)) :
    receive (stage checkpoints d attempts log) id [some receipt.key]
        (fun _ => some receipt.sha256) =
      .ok (stage checkpoints d (Function.update attempts id
        (some { attempt c verb with received := true })) log) := by
  simp only [receive, bind_ok, check_ok]
  refine ⟨attempt c verb, require_ok.mpr ha, (), by simp, (), rfl, (), ?_, rfl⟩
  intro item hitem
  rw [List.mem_singleton.mp hitem]

/-- The daemon holds the lease for the attempt. -/
theorem assertHeld_stage (ha : attempts id = some a) (hreceived : a.received = true)
    (hsettings : a.settings = settings) (hboundary : a.boundary = boundaryProof c) :
    assertHeld (stage checkpoints d attempts log) id held =
      .ok (stage checkpoints d
        (Function.update attempts id (some { a with custody := some held })) log) := by
  simp only [assertHeld, bind_ok, check_ok]
  refine ⟨a, require_ok.mpr ha, (), hreceived, (), ?_, rfl⟩
  rw [Sys.held, check_ok, stage_clock, hsettings, hboundary]
  exact ⟨by show (0 : Int) < 100; decide, rfl, rfl⟩

/-- A reconciliation finds the media as the boundary has them. -/
theorem measure_stage (verb : Verb) (hverb : ¬(verb matches .prepare))
    (ha : attempts id = some { attempt c verb with received := true, custody := some held }) :
    measure (stage checkpoints d attempts log) id (evidence c) held =
      .ok (stage checkpoints d (Function.update attempts id
        (some { attempt c verb with received := true, measured := some (evidence c, held) }))
          log) := by
  simp only [measure, bind_ok, check_ok]
  exact ⟨_, require_ok.mpr ha, (), ⟨hverb, rfl⟩, held, rfl, (), stage_held verb, (),
    ⟨rfl, rfl, rfl, rfl⟩, (), rfl, rfl⟩

/-- A stage is measured as its content is. -/
theorem stage_observation (verb : Verb) (hrow : Locked c row)
    (hd : d.observation c = .ok (observationOf c d).state) (hmedia : d.media = some "media") :
    (stage checkpoints d attempts log).observation c (attempt c verb) row (evidence c) held =
      .ok (observationOf c d) := by
  have hbound : bindMedia c (some "storage") d (evidence c) = true := by
    rw [bindMedia, decide_eq_true_eq, hmedia]
    exact ⟨Option.some_ne_none _, rfl, rfl, Option.some_ne_none _, rfl⟩
  simp only [Sys.observation, bind_ok]
  refine ⟨_, hd, ?_⟩
  rw [pure_ok, observationOf, Observation.mk.injEq]
  exact ⟨rfl, rfl, rfl, rfl, rfl, rfl, hbound, hrow.epoch⟩

theorem begin_stage (ha : attempts id = some
      { attempt c .prepare with received := true, custody := some held }) :
    begin_ c (stage .empty backup attempts log) id =
      .ok (stage (only { runRow c with phase := .quarantined }) (backup.quarantine 0)
        (Function.update attempts id
          (some { attempt c .prepare with received := true, begun := true }))
        (.mutated "run" :: log)) := by
  have hlocked : Locked c (runRow c) := ⟨rfl, ⟨rfl, rfl, rfl, rfl⟩, rfl⟩
  simp only [begin_, bind_ok, check_ok]
  refine ⟨_, require_ok.mpr ha, (), ⟨rfl, rfl⟩, held, rfl, (), stage_fence,
    (stage (only (runRow c)) backup attempts log, runRow c), ?_, (), RestorePhase.noConfusion, ?_⟩
  · simp only [Sys.begin_, bind_ok]
    exact ⟨runRow c, stage_lock .prepare hlocked, rfl⟩
  · rw [if_pos]
    · rfl
    · rfl

/-- A provider page that is the last of its phase. -/
theorem page_last {held : Held} {row : CheckpointRow} {result : Domain} {last : Option Uuid}
    (ha : s.attempts id = some a) (hbegun : a.begun = true) (hcustody : a.custody = some held)
    (hfence : s.fence a.settings.scope.targetId held = .ok ()) (hlock : s.lock c a held = .ok row)
    (hphase : row.phase ≠ .releaseAuthorized) (hprovider : row.providerPhase ≠ .complete)
    (hpage : s.domain.applePage row.providerPhase row.providerAfterId 100 s.now =
      ⟨result, last, false⟩) :
    page c s id =
      .ok ({ s.updateRow row.runId fun r =>
          { r with providerPhase := row.providerPhase.next, providerAfterId := none } with
          domain := result
          log := .mutated row.runId :: s.log }.setAttempt id
        { a with
          provided := decide (row.providerPhase.next = ProviderPhase.complete)
          custody := none }) := by
  simp only [page, bind_ok, check_ok]
  refine ⟨a, require_ok.mpr ha, (), hbegun, held, require_ok.mpr hcustody, (), hfence, row, hlock,
    (), hphase, ?_⟩
  rw [if_neg hprovider]
  simp only [hpage]
  rfl

theorem page_stage {phase : ProviderPhase} {more : Bool} {result : Domain} {last : Option Uuid}
    (hphase : phase ≠ .complete) (hpage : d.applePage phase none 100 0 = ⟨result, last, false⟩)
    (ha : attempts id = some { attempt c .prepare with
      received := true, begun := true, provided := more, custody := some held }) :
    page c (stage (only { runRow c with phase := .quarantined, providerPhase := phase }) d
        attempts log) id =
      .ok (stage (only { runRow c with phase := .quarantined, providerPhase := phase.next })
        result
        (Function.update attempts id (some { attempt c .prepare with
          received := true, begun := true, provided := decide (phase.next = .complete) }))
        (.mutated "run" :: log)) := by
  have hlocked : Locked c { runRow c with phase := .quarantined, providerPhase := phase } :=
    ⟨rfl, ⟨rfl, rfl, rfl, rfl⟩, rfl⟩
  rw [page_last (s := stage (only { runRow c with phase := .quarantined, providerPhase := phase })
    d attempts log) ha rfl rfl stage_fence (stage_lock .prepare hlocked) RestorePhase.noConfusion
    hphase hpage, only_update]
  rfl

/-- `prepare` applies the deletion. -/
theorem restoreMutation_stage (hrow : Locked c row) (hphase : row.phase = .quarantined)
    (ha : attempts id = some { attempt c .prepare with
      received := true, begun := true, provided := true, custody := some held })
    (result : Domain) :
    restoreMutation c (stage (only row) d attempts log) id result =
      .ok (stage (only row) result
        (Function.update attempts id (some { attempt c .prepare with
          received := true, begun := true, provided := true }))
        (.mutated row.runId :: log)) := by
  simp only [restoreMutation, bind_ok, check_ok]
  exact ⟨_, require_ok.mpr ha, (), rfl, held, rfl, (), stage_fence, row,
    stage_lock .prepare hrow, (), .inl hphase, rfl⟩

/-- The transaction of `observe`: an observation that is ready is recorded. -/
theorem observe_stage (hrow : Locked c row)
    (ha : attempts id = some { attempt c .observe with
      received := true, measured := some (evidence c, held) })
    (hphase : row.phase = .quarantined ∨ row.phase = .observed)
    (hprovider : row.providerPhase = .complete)
    (hd : d.observation c = .ok (observationOf c d).state) (hmedia : d.media = some "media") :
    observe c (stage (only row) d attempts log) id =
      .ok (if (observationOf c d).Ready c [receipt] then
          stage (only { row with
            phase := .observed
            observationSha256 := some ((observationOf c d).digest c) }) d attempts
            (.observed row.runId true d (observationOf c d) :: log)
        else
          stage (only row) d attempts
            (.observed row.runId false d (observationOf c d) :: log)) := by
  have hnew : row.phase ≠ .new := by
    rcases hphase with h | h <;> rw [h] <;> exact RestorePhase.noConfusion
  have hunauthorized : row.phase ≠ .releaseAuthorized := by
    rcases hphase with h | h <;> rw [h] <;> exact RestorePhase.noConfusion
  simp only [observe, bind_ok, check_ok, require_ok]
  refine ⟨_, require_ok.mpr ha, (), rfl, (evidence c, held), rfl, (), stage_fence, row,
    stage_lock .observe hrow, (), ⟨hnew, hprovider⟩, observationOf c d,
    stage_observation .observe hrow hd hmedia, ?_⟩
  by_cases hready : (observationOf c d).Ready c [receipt]
  · have h : (observationOf c d).Ready c (attempt c .observe).boundary.payload.inventory ∧
        row.phase ≠ .releaseAuthorized := ⟨hready, hunauthorized⟩
    simp only [if_pos hready, if_pos h, decide_eq_true h]
    exact congrArg Except.ok only_update
  · have h : ¬((observationOf c d).Ready c (attempt c .observe).boundary.payload.inventory ∧
        row.phase ≠ .releaseAuthorized) := fun h => hready h.1
    simp only [if_neg hready, if_neg h, decide_eq_false h]
    rfl

theorem restored_manifest : restored.receiptManifest = .ok [receipt] := by decide +kernel

/-- The restored database is measured as it is. -/
theorem restored_observation (c : Crypto) :
    restored.observation c = .ok (observationOf c restored).state := by
  simp only [Domain.observation, bind_ok, check_ok]
  exact ⟨(), by decide, [receipt], restored_manifest, rfl⟩

/-- The restored database is ready. -/
theorem restored_ready (c : Crypto) : (observationOf c restored).Ready c [receipt] :=
  ⟨rfl, rfl, rfl, by show ∀ v ∈ restored.violations, v.2 = 0; decide, rfl⟩

/-- The transaction of `consume`, for the tables that were signed. -/
theorem consume_stage (hrow : Locked c row)
    (ha : attempts id = some { attempt c (.consume (releaseProof c)) with
      received := true, measured := some (evidence c, held) })
    (hphase : row.phase = .observed ∧ row.providerPhase = .complete)
    (hobservation : row.observationSha256 = some ((observationOf c restored).digest c))
    (hnonce : row.releaseNonce = none) :
    consume c (stage (only row) restored attempts log) id =
      .ok (stage (only { row with
        phase := .releaseAuthorized
        releaseNonce := some nonce
        releaseSha256 := some (releaseProof c).sha256 }) restored attempts
        (.consumed row.runId :: log)) := by
  have hunused : ¬(only row).Has fun r => r.releaseNonce = some nonce := by
    rintro ⟨r, hr, hused⟩
    rw [List.mem_singleton.mp hr, hnonce] at hused
    cases hused
  refine bind_ok.mpr ⟨_, require_ok.mpr ha, bind_ok.mpr ⟨releaseProof c, pure_ok.mpr rfl, ?_⟩⟩
  simp only [bind_ok, check_ok, require_ok]
  refine ⟨(evidence c, held), rfl, (), stage_fence, row,
    stage_lock (.consume (releaseProof c)) hrow, (), hphase,
    observationOf c restored,
    stage_observation (.consume (releaseProof c)) hrow (restored_observation c) rfl, (),
    restored_ready c, (), ⟨hobservation, rfl, ?_⟩, (), hnonce, (), hunused, ?_⟩
  · show ((0 : Nat) : Int) < 100 * 1000
    decide
  · exact congrArg Except.ok only_update

theorem reachable_exec (command : Command) (h : (system c).Reachable s)
    (hstep : exec c command s = .ok t) : (system c).Reachable t :=
  .step (c := command) h hstep

/-- An attempt opens, reads the ledger and is told that the lease is held. -/
theorem stage_holds {verb : Verb}
    (h : (system c).Reachable (stage checkpoints d
      (Function.update attempts id (some (attempt c verb))) log)) :
    ∃ attempts', (∀ id', id' ≠ id → attempts' id' = attempts id') ∧
      attempts' id = some { attempt c verb with received := true, custody := some held } ∧
      (system c).Reachable (stage checkpoints d attempts' log) := by
  have hreceive := reachable_exec (.receive id [some receipt.key] fun _ => some receipt.sha256) h
    (receive_stage (Function.update_self ..))
  have hheld := reachable_exec (.assertHeld id held) hreceive
    (assertHeld_stage (c := c) (Function.update_self ..) rfl rfl rfl)
  refine ⟨_, ?_, Function.update_self .., hheld⟩
  intro id' hid'
  rw [Function.update_of_ne hid', Function.update_of_ne hid', Function.update_of_ne hid']

/-- An attempt observes. -/
theorem stage_observes (hhash : ∀ s, c.hash s = true) (hverify : ∀ k b s, c.verify k b s = true)
    (h : (system c).Reachable (stage (only row) d attempts log)) (hid : attempts id = none)
    (hrow : Locked c row) (hphase : row.phase = .quarantined ∨ row.phase = .observed)
    (hprovider : row.providerPhase = .complete)
    (hd : d.observation c = .ok (observationOf c d).state) (hmedia : d.media = some "media") :
    ∃ attempts', (∀ id', id' ≠ id → attempts' id' = attempts id') ∧
      (system c).Reachable (if (observationOf c d).Ready c [receipt] then
          stage (only { row with
            phase := .observed
            observationSha256 := some ((observationOf c d).digest c) }) d attempts'
            (.observed row.runId true d (observationOf c d) :: log)
        else
          stage (only row) d attempts'
            (.observed row.runId false d (observationOf c d) :: log)) := by
  obtain ⟨opened, hsame, hopened, hheld⟩ := stage_holds (reachable_exec
    (.open_ id settings false (boundaryEnvelope c)) h (open_stage hhash hverify hid false))
  have hmeasure := reachable_exec (.measure id (evidence c) held) hheld
    (measure_stage .observe Bool.false_ne_true hopened)
  have hobserve := reachable_exec (.observe id) hmeasure
    (observe_stage hrow (Function.update_self ..) hphase hprovider hd hmedia)
  refine ⟨_, ?_, hobserve⟩
  intro id' hid'
  rw [Function.update_of_ne hid', hsame id' hid']

theorem identities_page : (backup.quarantine 0).applePage .identities none 100 0 =
    ⟨revoked, some 1, false⟩ := rfl

theorem transactions_page : revoked.applePage .transactions none 100 0 =
    ⟨revoked, some 1, false⟩ := rfl

theorem credentials_page : revoked.applePage .credentials none 100 0 =
    ⟨provided, some 1, false⟩ := rfl

/-- A page of the attempt that prepares, with the custody check before it. -/
theorem stage_pages {phase : ProviderPhase} {more : Bool} {result : Domain} {last : Option Uuid}
    (h : (system c).Reachable
      (stage (only { runRow c with phase := .quarantined, providerPhase := phase }) d attempts log))
    (ha : attempts id = some { attempt c .prepare with
      received := true, begun := true, provided := more })
    (hphase : phase ≠ .complete) (hpage : d.applePage phase none 100 0 = ⟨result, last, false⟩) :
    ∃ attempts', (∀ id', id' ≠ id → attempts' id' = attempts id') ∧
      attempts' id = some { attempt c .prepare with
        received := true, begun := true, provided := decide (phase.next = .complete) } ∧
      (system c).Reachable
        (stage (only { runRow c with phase := .quarantined, providerPhase := phase.next }) result
          attempts' (.mutated "run" :: log)) := by
  have hheld := reachable_exec (.assertHeld id held) h (assertHeld_stage (c := c) ha rfl rfl rfl)
  have hpaged := reachable_exec (.page id) hheld
    (page_stage hphase hpage (Function.update_self ..))
  refine ⟨_, ?_, Function.update_self .., hpaged⟩
  intro id' hid'
  rw [Function.update_of_ne hid', Function.update_of_ne hid']

/-- The backup is prepared, and the attempt that did it is told that the lease is held still. -/
theorem stage_prepares (hhash : ∀ s, c.hash s = true) (hverify : ∀ k b s, c.verify k b s = true) :
    ∃ attempts' log', (∀ id', id' ≠ 0 → attempts' id' = none) ∧
      attempts' 0 = some { attempt c .prepare with
        received := true, begun := true, provided := true, custody := some held } ∧
      (system c).Reachable (stage (only (preparedRow c)) restored attempts' log') := by
  have hinit : (system c).Reachable (stage .empty backup (fun _ => none) []) :=
    .init ⟨rfl, rfl, rfl⟩
  obtain ⟨opened, hsame, hopened, hheld⟩ := stage_holds (reachable_exec
    (.open_ 0 settings true (boundaryEnvelope c)) hinit (open_stage hhash hverify rfl true))
  have hbegin := reachable_exec (.begin_ 0) hheld (begin_stage hopened)
  have hbegun : Function.update opened 0 (some { attempt c .prepare with
      received := true, begun := true, provided := false }) 0 = some { attempt c .prepare with
      received := true, begun := true, provided := false } := Function.update_self ..
  obtain ⟨one, hsame₁, hone, hreach₁⟩ := stage_pages hbegin hbegun
    ProviderPhase.noConfusion identities_page
  obtain ⟨two, hsame₂, htwo, hreach₂⟩ := stage_pages hreach₁ hone
    ProviderPhase.noConfusion transactions_page
  obtain ⟨three, hsame₃, hthree, hreach₃⟩ := stage_pages hreach₂ htwo
    ProviderPhase.noConfusion credentials_page
  have hdone : three 0 = some { attempt c .prepare with
      received := true, begun := true, provided := true } := hthree
  have hlocked : Locked c (preparedRow c) := ⟨rfl, ⟨rfl, rfl, rfl, rfl⟩, rfl⟩
  have hagain := reachable_exec (.assertHeld 0 held) hreach₃
    (assertHeld_stage (c := c) hdone rfl rfl rfl)
  have happlied := reachable_exec (.restoreMutation 0 restored) hagain
    (restoreMutation_stage hlocked rfl (Function.update_self ..) restored)
  have hlast := reachable_exec (.assertHeld 0 held) happlied
    (assertHeld_stage (c := c) (Function.update_self ..) rfl rfl rfl)
  refine ⟨_, _, ?_, Function.update_self .., hlast⟩
  intro id' hid'
  rw [Function.update_of_ne hid', Function.update_of_ne hid', Function.update_of_ne hid',
    hsame₃ id' hid', hsame₂ id' hid', hsame₁ id' hid', Function.update_of_ne hid', hsame id' hid']

/-- The disturbed database is measured as it is. -/
theorem disturbed_observation (c : Crypto) :
    disturbed.observation c = .ok (observationOf c disturbed).state := by
  simp only [Domain.observation, bind_ok, check_ok]
  exact ⟨(), by decide, [receipt], restored_manifest, rfl⟩

/-- The disturbed database is not ready. -/
theorem disturbed_not_ready (c : Crypto) : ¬(observationOf c disturbed).Ready c [receipt] := by
  rintro ⟨-, -, -, hzero, -⟩
  have h : ∀ v ∈ disturbed.violations, v.2 = 0 := hzero
  revert h
  decide

/-- A run is observed and signed; a session comes in, and an observation finds it; the
session goes again. The release then commits before a write that `prepare` has in hand. -/
theorem stage_disturbed (hhash : ∀ s, c.hash s = true) (hverify : ∀ k b s, c.verify k b s = true) :
    ∃ s a o, (system c).Reachable s ∧ s.attempts 3 = some a ∧ s.domain = restored ∧
      lastObserved a.settings.scope.restoreRunId s.log = some (disturbed, o) ∧
      ∃ t, exec c (.consume 3) s = .ok t ∧
        ∃ b row, t.attempts 0 = some b ∧ b.custody = some held ∧ row ∈ t.checkpoints ∧
          row.runId = b.settings.scope.restoreRunId ∧ row.phase = .releaseAuthorized := by
  obtain ⟨attempts, log, hnone, hheld, hprepared⟩ := stage_prepares hhash hverify
  obtain ⟨attempts', hsame, hobserved⟩ := stage_observes hhash hverify hprepared
    (hnone 1 (by decide)) ⟨rfl, ⟨rfl, rfl, rfl, rfl⟩, rfl⟩ (.inl rfl) rfl
    (restored_observation c) rfl
  rw [if_pos (restored_ready c)] at hobserved
  have hdrift : (system c).Reachable (stage (only (observedRow c)) disturbed attempts'
      (.observed "run" true restored (observationOf c restored) :: log)) :=
    reachable_exec (.drift disturbed) hobserved rfl
  obtain ⟨attempts'', hsame', hagain⟩ := stage_observes hhash hverify hdrift
    ((hsame 2 (by decide)).trans (hnone 2 (by decide))) ⟨rfl, ⟨rfl, rfl, rfl, rfl⟩, rfl⟩
    (.inr rfl) rfl (disturbed_observation c) rfl
  rw [if_neg (disturbed_not_ready c)] at hagain
  have hback : (system c).Reachable (stage (only (observedRow c)) restored attempts''
      (.observed "run" false disturbed (observationOf c disturbed) ::
        .observed "run" true restored (observationOf c restored) :: log)) :=
    reachable_exec (.drift restored) hagain rfl
  have hfree : attempts'' 3 = none :=
    (hsame' 3 (by decide)).trans ((hsame 3 (by decide)).trans (hnone 3 (by decide)))
  obtain ⟨opened, hsame₃, hopened, hasked⟩ := stage_holds (reachable_exec
    (.openConsume 3 settings (boundaryEnvelope c) (releaseEnvelope c)) hback
    (openConsume_stage hhash hverify hfree))
  have hmeasure := reachable_exec (.measure 3 (evidence c) held) hasked
    (measure_stage (.consume (releaseProof c)) Bool.false_ne_true hopened)
  refine ⟨_, { attempt c (.consume (releaseProof c)) with
    received := true, measured := some (evidence c, held) }, observationOf c disturbed, hmeasure,
    stage_attempt, rfl, rfl, _, consume_stage ⟨rfl, ⟨rfl, rfl, rfl, rfl⟩, rfl⟩
      (Function.update_self ..) ⟨rfl, rfl⟩ rfl rfl, { attempt c .prepare with
    received := true, begun := true, provided := true, custody := some held }, _, ?_, rfl,
    List.mem_singleton_self _, rfl, rfl⟩
  have hzero : (0 : Nat) ≠ 3 := by decide
  show Function.update opened 3 (some { attempt c (.consume (releaseProof c)) with
    received := true, measured := some (evidence c, held) }) 0 = _
  rw [Function.update_of_ne hzero, hsame₃ 0 hzero, hsame' 0 (by decide), hsame 0 (by decide),
    hheld]

/-- The tables that a `consume` commits in are not always those of the last observation:
one that was not ready recorded nothing. -/
theorem last_observation_stale : ¬∀ (c : Crypto) (s t : Sys) (id : Nat) (a : Attempt) (d : Domain)
    (o : Observation), (system c).Reachable s → exec c (.consume id) s = .ok t →
      s.attempts id = some a → lastObserved a.settings.scope.restoreRunId s.log = some (d, o) →
        d.Agree s.domain := by
  intro hall
  obtain ⟨s, a, o, hreach, ha, hdomain, hlast, t, ht, -⟩ :=
    stage_disturbed (c := crypto) (fun _ => rfl) (fun _ _ _ => rfl)
  have hagree := hall crypto s t 3 a disturbed o hreach ht ha hlast
  rw [hdomain] at hagree
  exact absurd hagree.violations (by decide)

/-- The release of that run is one of what was recorded, and `prepare`, which was told before
it that the lease is held, writes nothing after it. -/
theorem release_sound_disturbed : ∃ s t, (system crypto).Reachable s ∧ s.domain = restored ∧
    exec crypto (.consume 3) s = .ok t ∧
    (∃ a release evidence row o, s.attempts 3 = some a ∧ a.verb = .consume release ∧
      Released crypto s a release evidence row o ∧
      ∃ d, lastRecorded row.runId s.log = some (d, o) ∧ d.Agree s.domain) ∧
    ∃ b, t.attempts 0 = some b ∧ b.custody = some held ∧
      ∀ u result, exec crypto (.restoreMutation 0 result) t ≠ .ok u := by
  obtain ⟨s, a, o, hreach, -, hdomain, -, t, ht, b, row, hb, hcustody, hrow, hrun, hphase⟩ :=
    stage_disturbed (c := crypto) (fun _ => rfl) (fun _ _ _ => rfl)
  have hreach' : (system crypto).Reachable t := reachable_exec (.consume 3) hreach ht
  refine ⟨s, t, hreach, hdomain, ht, (release_sound s hreach).2.2.2.2 3 t ht, b, hb, hcustody, ?_⟩
  intro u result
  exact ((release_sound t hreach').2.2.2.1 0 b row u hb hrow hrun hphase).2.2 result

end Rogichat.Restore
