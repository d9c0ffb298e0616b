import Rogichat.Restore.Model

/-!
# One digest, one observation

The digest of an observation is that of its canonical text, and the text determines every
component of it: what the run recorded and the operator signed is the state that is released.
-/

namespace Rogichat.Restore

open Lib Ledger

def violationKeys : List String :=
  ["sessions", "loginTransactions", "appleTransactions", "pushBindings", "members", "periods",
    "owners", "grants", "admins", "testGrants", "passwords", "reviewers", "creators", "birthdays",
    "unappliedDeletion", "uncoveredAccounts"]

/-- Every measurement names all violations. -/
theorem violations_keys (d : Domain) : d.violations.map Prod.fst = violationKeys := rfl

/-! ## Components -/

/-- A scope is read off its JSON. -/
theorem scope_inj {s s' : RestoreScope} (h : s.toJson.sorted = s'.toJson.sorted) : s = s' := by
  have hvalues := Json.values_of_sorted
    ["environment", "sourceCommit", "schemaSha256", "restoreRunId", "snapshotSha256",
      "targetId", "ledgerSourceId"]
    [.str s.environment.text, .str s.sourceCommit, .str s.schemaSha256,
      .str s.restoreRunId, .str s.snapshotSha256, .str s.targetId, .str s.ledgerSourceId]
    [.str s'.environment.text, .str s'.sourceCommit, .str s'.schemaSha256,
      .str s'.restoreRunId, .str s'.snapshotSha256, .str s'.targetId, .str s'.ledgerSourceId]
    (by decide) rfl rfl h
  simp only [List.map_cons, List.map_nil, Json.sorted_str, List.cons.injEq, Json.str.injEq,
    and_true] at hvalues
  obtain ⟨henv, hcommit, hschema, hrun, hsnapshot, htarget, hledger⟩ := hvalues
  cases s
  cases s'
  simp only [RestoreScope.mk.injEq]
  exact ⟨LedgerEnvironment.text_inj henv, hcommit, hschema, hrun, hsnapshot, htarget, hledger⟩

/-- The violations are read off their JSON. -/
theorem violations_inj {vs ws : List (String × Nat)} (hkeys : vs.map Prod.fst = ws.map Prod.fst)
    (hnodup : (vs.map Prod.fst).Nodup)
    (h : (violationsJson vs).sorted = (violationsJson ws).sorted) : vs = ws := by
  have hzip : ∀ us : List (String × Nat), (us.map fun v => (v.1, Json.num v.2)) =
      (us.map Prod.fst).zip (us.map fun v => Json.num v.2) := by
    intro us
    rw [List.zip_map']
  rw [violationsJson, violationsJson, hzip vs, hzip ws, ← hkeys] at h
  have hlength : ws.length = vs.length := by
    have := congrArg List.length hkeys
    rw [List.length_map, List.length_map] at this
    exact this.symm
  have hvalues := Json.values_of_sorted _ _ _ hnodup (by simp) (by simp [hlength]) h
  rw [List.map_map, List.map_map] at hvalues
  have hcounts : vs.map Prod.snd = ws.map Prod.snd := by
    have hnum : ∀ us : List (String × Nat),
        us.map (Json.sorted ∘ fun v : String × Nat => Json.num v.2) =
          (us.map Prod.snd).map fun n : Nat => Json.num n := by
      intro us
      simp
    rw [hnum, hnum] at hvalues
    refine List.map_injective_iff.mpr ?_ hvalues
    intro m n hmn
    exact Int.ofNat_inj.mp (Json.num.inj hmn)
  rw [← List.zip_unzip vs, ← List.zip_unzip ws, List.unzip_eq_map, List.unzip_eq_map]
  simp only
  rw [hkeys, hcounts]

theorem readiness_inj {a a' : AppleRestoreReadiness} (h : a.toJson.sorted = a'.toJson.sorted) :
    a = a' := by
  have hvalues := Json.values_of_sorted appleKeys _ _ (by decide) rfl rfl h
  simp only [List.map_cons, List.map_nil, Json.sorted_bool, List.cons.injEq, Json.bool.injEq,
    and_true] at hvalues
  cases a
  cases a'
  simp only [AppleRestoreReadiness.mk.injEq]
  exact hvalues

theorem nullable_inj {s s' : Option String} (h : (nullable s).sorted = (nullable s').sorted) :
    s = s' := by
  cases s <;> cases s' <;> simp [nullable] at h ⊢
  exact h

/-- The counts are read off their JSON. -/
theorem counts_inj {n n' : MediaCounts} (h : n.toJson.sorted = n'.toJson.sorted) : n = n' := by
  have hvalues := Json.values_of_sorted countKeys _ _ (by decide) rfl rfl h
  simp only [List.map_cons, List.map_nil, Json.sorted_num, List.cons.injEq, Json.num.injEq,
    Int.natCast_inj, and_true] at hvalues
  cases n
  cases n'
  simp only [MediaCounts.mk.injEq]
  exact hvalues

/-- A media status is read off its text. -/
theorem mediaStatus_inj {m m' : MediaStatus} (h : m.text = m'.text) : m = m' := by
  cases m <;> cases m' <;> first | rfl | simp [MediaStatus.text] at h

theorem evidence_inj {e e' : RestoreMediaEvidence} (h : e.toJson.sorted = e'.toJson.sorted) :
    e = e' := by
  have hvalues := Json.values_of_sorted evidenceKeys _ _ (by decide) rfl rfl h
  simp only [List.map_cons, List.map_nil, Json.sorted_str, Json.sorted_arr, List.cons.injEq,
    Json.str.injEq, Json.arr.injEq, true_and, and_true] at hvalues
  obtain ⟨hstatus, hsnapshot, hmanifest, hstorage, hcounts, hreasons⟩ := hvalues
  have hreasons : e.reasons = e'.reasons := by
    rw [List.map_map, List.map_map] at hreasons
    refine List.map_injective_iff.mpr ?_ hreasons
    intro r r' hr
    simpa using hr
  cases e
  cases e'
  simp only [RestoreMediaEvidence.mk.injEq]
  exact ⟨mediaStatus_inj hstatus, nullable_inj hsnapshot, nullable_inj hmanifest,
    nullable_inj hstorage, counts_inj hcounts, hreasons⟩

/-! ## Generations -/

/-- Rows that are objects of scalars, under the same keys. -/
structure FlatRows {ρ : Type} (g : ρ → Json) : Prop where
  distinct : ∀ xs : List ρ, (Json.arr (xs.map g)).Distinct
  inj : ∀ xs ys : List ρ, (Json.arr (xs.map g)).sorted = (Json.arr (ys.map g)).sorted →
    Json.arr (xs.map g) = Json.arr (ys.map g)

/-- Rows with the same keys and scalar values can be digested. -/
theorem flatRows {ρ : Type} (ks : List String) (f : ρ → List Json) {g : ρ → Json}
    (hg : ∀ r, g r = .obj (ks.zip (f r))) (hks : ks.Nodup) (hlen : ∀ r, (f r).length = ks.length)
    (hscalar : ∀ r, ∀ v ∈ f r, v.sorted = v ∧ v.Distinct) : FlatRows g := by
  have hself : ∀ r, (f r).map Json.sorted = f r := by
    intro r
    conv => rhs; rw [← List.map_id (f r)]
    exact List.map_congr_left fun v hv => (hscalar r v hv).1
  have hone : ∀ r r', (g r).sorted = (g r').sorted → g r = g r' := by
    intro r r' hrow
    rw [hg, hg] at hrow
    have hvalues := Json.values_of_sorted _ _ _ hks (hlen r) (hlen r') hrow
    rw [hself, hself] at hvalues
    rw [hg, hg, hvalues]
  refine ⟨?_, ?_⟩
  · intro xs
    rw [Json.Distinct, Json.distinctItems_iff]
    intro v hv
    obtain ⟨r, -, rfl⟩ := List.mem_map.mp hv
    rw [hg]
    exact Json.distinct_zip hks (hlen r) fun v hv => (hscalar r v hv).2
  · intro xs ys h
    rw [Json.sorted_arr, Json.sorted_arr, Json.arr.injEq] at h
    rw [Json.arr.injEq]
    induction xs generalizing ys with
    | nil =>
      cases ys with
      | nil => rfl
      | cons y ys => cases h
    | cons x xs ih =>
      cases ys with
      | nil => cases h
      | cons y ys =>
        simp only [List.map_cons, List.cons.injEq] at h ⊢
        exact ⟨hone x y h.1, ih ys h.2⟩

theorem scalar_date (t : Option Time) : (date t).sorted = date t ∧ (date t).Distinct := by
  cases t <;> simp [date, Json.Distinct]

theorem flat_users : FlatRows userGeneration := by
  refine flatRows ["id", "status", "membership_generation"]
    (fun r => [uuid r.id, .str (userStatusText r.status), bigint r.membershipGeneration])
    (fun _ => rfl) (by decide) (fun _ => rfl) ?_
  simp [uuid, bigint, Json.Distinct]

theorem flat_rooms : FlatRows roomGeneration := by
  refine flatRows ["id", "content_epoch", "policy_version"]
    (fun r => [uuid r.id, bigint r.contentEpoch, .num r.policyVersion])
    (fun _ => rfl) (by decide) (fun _ => rfl) ?_
  simp [uuid, bigint, Json.Distinct]

theorem flat_members : FlatRows memberGeneration := by
  refine flatRows ["id", "acl_epoch"] (fun r => [uuid r.id, bigint r.aclEpoch])
    (fun _ => rfl) (by decide) (fun _ => rfl) ?_
  simp [uuid, bigint, Json.Distinct]

theorem flat_profiles : FlatRows profileGeneration := by
  refine flatRows ["user_id", "revision"] (fun r => [uuid r.userId, bigint r.revision])
    (fun _ => rfl) (by decide) (fun _ => rfl) ?_
  simp [uuid, bigint, Json.Distinct]

theorem flat_sessions : FlatRows sessionGeneration := by
  refine flatRows ["id", "revoked_at"] (fun r => [uuid r.id, date r.revokedAt])
    (fun _ => rfl) (by decide) (fun _ => rfl) ?_
  simp [uuid, scalar_date, Json.Distinct]

theorem flat_receipts : FlatRows receiptGeneration := by
  refine flatRows ["request_id", "environment", "ledger_sha256", "blocked_at"]
    (fun r => [.str r.requestId, .str r.environment.text, .str r.ledgerSha256, date r.blockedAt])
    (fun _ => rfl) (by decide) (fun _ => rfl) ?_
  simp [scalar_date, Json.Distinct]

/-- The generation manifest repeats no key. -/
theorem distinct_generations (d : Domain) : d.generations.Distinct := by
  refine Json.distinct_zip (by decide) rfl ?_
  simp only [List.mem_cons, List.not_mem_nil, or_false, forall_eq_or_imp, forall_eq]
  exact ⟨flat_users.distinct _, flat_rooms.distinct _, flat_members.distinct _,
    flat_profiles.distinct _, flat_sessions.distinct _, flat_receipts.distinct _⟩

/-- One text of the generations, the same generations. -/
theorem generations_inj {d e : Domain}
    (h : Json.canonical d.generations = Json.canonical e.generations) :
    d.generations = e.generations := by
  have hsorted := Json.sorted_of_canonical (distinct_generations d) (distinct_generations e) h
  have hvalues := Json.values_of_sorted generationKeys _ _ (by decide) rfl rfl hsorted
  simp only [List.map_cons, List.map_nil, List.cons.injEq, and_true] at hvalues
  obtain ⟨husers, hrooms, hmembers, hprofiles, hsessions, hreceipts⟩ := hvalues
  rw [Domain.generations, Domain.generations, flat_users.inj _ _ husers,
    flat_rooms.inj _ _ hrooms, flat_members.inj _ _ hmembers, flat_profiles.inj _ _ hprofiles,
    flat_sessions.inj _ _ hsessions, flat_receipts.inj _ _ hreceipts]

/-! ## What is observed of two states -/

/-- The tables agree in every component that is observed. -/
structure Domain.Agree (d e : Domain) : Prop where
  violations : d.violations = e.violations
  receipts : d.receiptManifest = e.receiptManifest
  generations : d.generations = e.generations
  readiness : ∀ configured, d.readiness configured = e.readiness configured
  media : d.media = e.media

/-- A measurement is of the database's content. -/
theorem observation_domain {c : Crypto} {d : Domain} {o : Observed}
    (h : d.observation c = .ok o) : o.violations = d.violations ∧
      ∃ manifest, d.receiptManifest = .ok manifest ∧
        o.receiptManifestSha256 = c.sha256 (Json.canonical (inventoryJson manifest)) ∧
        o.generationSha256 = c.sha256 (Json.canonical d.generations) := by
  simp only [Domain.observation, bind_ok] at h
  obtain ⟨-, -, manifest, hmanifest, ho⟩ := h
  rw [pure_ok] at ho
  subst ho
  exact ⟨rfl, manifest, hmanifest, rfl, rfl⟩

/-- The configuration of the provider is no part of the tables. -/
theorem readiness_congr {d e : Domain} {configured : Bool}
    (h : d.readiness configured = e.readiness configured) (configured' : Bool) :
    d.readiness configured' = e.readiness configured' := by
  simp only [Domain.readiness, AppleRestoreReadiness.mk.injEq] at h ⊢
  obtain ⟨hquarantined, hidentities, htransactions, hcredentials, hupstream, -⟩ := h
  exact ⟨hquarantined, hidentities, htransactions, hcredentials, hupstream, trivial⟩

/-! ## The observation -/

theorem distinct_scope (s : RestoreScope) : s.toJson.Distinct := by
  refine Json.distinct_zip (k := ["environment", "sourceCommit", "schemaSha256", "restoreRunId",
      "snapshotSha256", "targetId", "ledgerSourceId"])
    (v := [.str s.environment.text, .str s.sourceCommit, .str s.schemaSha256,
      .str s.restoreRunId, .str s.snapshotSha256, .str s.targetId, .str s.ledgerSourceId])
    (by decide) rfl ?_
  simp [Json.Distinct]

theorem distinct_violations {vs : List (String × Nat)} (h : (vs.map Prod.fst).Nodup) :
    (violationsJson vs).Distinct := by
  rw [violationsJson, Json.Distinct, Json.distinctFields_iff, List.map_map]
  refine ⟨h, ?_⟩
  intro f hf
  obtain ⟨v, -, rfl⟩ := List.mem_map.mp hf
  simp [Json.Distinct]

theorem distinct_nullable (s : Option String) : (nullable s).Distinct := by
  cases s <;> simp [nullable, Json.Distinct]

theorem distinct_evidence (e : RestoreMediaEvidence) : e.toJson.Distinct := by
  have hcounts : e.counts.toJson.Distinct :=
    Json.distinct_zip (by decide) rfl (by simp [Json.Distinct])
  have hreasons : (Json.arr (e.reasons.map Json.str)).Distinct := by
    rw [Json.Distinct, Json.distinctItems_iff]
    intro v hv
    obtain ⟨r, -, rfl⟩ := List.mem_map.mp hv
    simp [Json.Distinct]
  refine Json.distinct_zip (by decide) rfl ?_
  simp only [List.mem_cons, List.not_mem_nil, or_false, forall_eq_or_imp, forall_eq]
  exact ⟨by simp [Json.Distinct], by simp [Json.Distinct], distinct_nullable _,
    distinct_nullable _, distinct_nullable _, hcounts, hreasons⟩

theorem distinct_observation {o : Observation}
    (h : o.state.violations.map Prod.fst = violationKeys) : o.toJson.Distinct := by
  have hviolations : (violationsJson o.state.violations).Distinct :=
    distinct_violations (by rw [h]; decide)
  have hreadiness : o.apple.toJson.Distinct :=
    Json.distinct_zip (by decide) rfl (by simp [Json.Distinct])
  refine Json.distinct_zip (by decide) rfl ?_
  simp only [RestoreAuthorizationBinding.values, List.cons_append, List.nil_append, List.mem_cons,
    List.not_mem_nil, or_false, forall_eq_or_imp, forall_eq, Json.Distinct, true_and, and_true]
  exact ⟨distinct_scope o.scope, hviolations, hreadiness, distinct_evidence o.media⟩

/-- Two observations with one digest are one. -/
theorem digest_inj {c : Crypto} {o o' : Observation}
    (ho : o.state.violations.map Prod.fst = violationKeys)
    (ho' : o'.state.violations.map Prod.fst = violationKeys) (h : o.digest c = o'.digest c) :
    o = o' := by
  have hsorted := Json.sorted_of_canonical (distinct_observation ho) (distinct_observation ho')
    (c.ideal h)
  have hvalues := Json.values_of_sorted observationKeys _ _ (by decide) rfl rfl hsorted
  simp only [RestoreAuthorizationBinding.values, List.cons_append, List.nil_append, List.map_cons,
    List.map_nil, Json.sorted_str, Json.sorted_bool, List.cons.injEq, Json.str.injEq,
    Json.bool.injEq, true_and, and_true] at hvalues
  obtain ⟨hscope, hboundary, hauth, hkey, hstorage, hfence, hserver, hviolations, hmanifest,
    hgeneration, happle, hmedia, hbound, hepoch⟩ := hvalues
  have hviolations := violations_inj (ho.trans ho'.symm) (by rw [ho]; decide) hviolations
  obtain ⟨scope, boundary, ⟨⟩, ⟨⟩, apple, media, bound, epoch⟩ := o
  obtain ⟨scope', boundary', ⟨⟩, ⟨⟩, apple', media', bound', epoch'⟩ := o'
  simp only [Observation.mk.injEq, RestoreAuthorizationBinding.mk.injEq, Observed.mk.injEq]
  exact ⟨scope_inj hscope, hboundary, ⟨hauth, hkey, hstorage, hfence, hserver⟩,
    ⟨hviolations, hmanifest, hgeneration⟩, readiness_inj happle, evidence_inj hmedia, hbound,
    hepoch⟩

end Rogichat.Restore
