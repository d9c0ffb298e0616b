import Mathlib.Order.Lattice
import Mathlib.Order.BoundedOrder.Basic
import Mathlib.Tactic

/-!
# Proofs and revocations by time

A mark is proved at some times and revoked at others, and the deliveries come in any order.
The mark keeps one time of each kind: the latest revocation, its *fence*, and the proof that was
accepted last. A proof at or before the fence is refused; a revocation at or before the fence is
stale.

* **`run_fence`** — the fence is the latest revocation, whatever the order.
* **`run_valid`** — the mark is valid exactly while the proof it keeps is later than the fence.
* **`valid_newest`** — a valid mark has a proof later than every revocation.
* **`valid_iff`** — the converse holds exactly when the proof kept at the end is later than every
  revocation, if any proof is.
* **`InOrder.valid_iff`** — where accepted proofs never go back, the mark at the end depends on
  the latest proof and the latest revocation alone.
-/

namespace Lib.Watermark

universe u

variable {τ : Type u}

/-- One delivery. -/
inductive Delivery (τ : Type u)
  | revoke (at_ : τ)
  | prove (at_ : τ)
  deriving DecidableEq, Repr

/-- The mark: its fence, the proof accepted last, and whether it is valid. -/
structure Mark (τ : Type u) where
  fence : τ
  proved : Option τ
  valid : Bool
  deriving DecidableEq, Repr

variable [LinearOrder τ]

/-- The proof kept is later than a time. -/
def Mark.Later (m : Mark τ) (t : τ) : Prop := ∃ p ∈ m.proved, t < p

instance (m : Mark τ) (t : τ) : Decidable (m.Later t) := by
  unfold Mark.Later
  infer_instance

/-- What a delivery makes of the mark. -/
def Mark.deliver (m : Mark τ) : Delivery τ → Mark τ
  | .revoke t =>
    if t ≤ m.fence then m
    else { m with fence := t, valid := m.valid && decide (m.Later t) }
  | .prove t => if t ≤ m.fence then m else { m with proved := some t, valid := true }

/-- What a sequence of deliveries makes of it. -/
def Mark.run (m : Mark τ) (ds : List (Delivery τ)) : Mark τ := ds.foldl Mark.deliver m

@[simp] theorem Mark.run_snoc (m : Mark τ) (ds : List (Delivery τ)) (d : Delivery τ) :
    m.run (ds ++ [d]) = (m.run ds).deliver d := by
  simp [Mark.run]

/-- The mark is valid while its proof is later than its fence. -/
def Mark.Coherent (m : Mark τ) : Prop := m.valid = true ↔ m.Later m.fence

theorem Mark.Coherent.deliver {m : Mark τ} (h : m.Coherent) (d : Delivery τ) :
    (m.deliver d).Coherent := by
  cases d with
  | revoke t =>
    rw [Mark.deliver]
    by_cases ht : t ≤ m.fence
    · rw [if_pos ht]
      exact h
    · rw [if_neg ht]
      show (m.valid && decide (m.Later t)) = true ↔ m.Later t
      rw [Bool.and_eq_true, decide_eq_true_iff, and_iff_right_iff_imp]
      rintro ⟨p, hp, hlt⟩
      exact h.mpr ⟨p, hp, (lt_of_not_ge ht).trans hlt⟩
  | prove t =>
    rw [Mark.deliver]
    by_cases ht : t ≤ m.fence
    · rw [if_pos ht]
      exact h
    · rw [if_neg ht]
      exact ⟨fun _ => ⟨t, rfl, lt_of_not_ge ht⟩, fun _ => rfl⟩

variable [OrderBot τ]

/-- A mark nothing was delivered to. -/
def blank : Mark τ := ⟨⊥, none, false⟩

/-- The latest revocation delivered. -/
def latestRevoked : List (Delivery τ) → τ
  | [] => ⊥
  | .revoke t :: ds => max t (latestRevoked ds)
  | .prove _ :: ds => latestRevoked ds

/-- Some proof delivered is later than a time. -/
def ProvedAfter (t : τ) (ds : List (Delivery τ)) : Prop := ∃ p, .prove p ∈ ds ∧ t < p

theorem latestRevoked_append (ds es : List (Delivery τ)) :
    latestRevoked (ds ++ es) = max (latestRevoked ds) (latestRevoked es) := by
  induction ds with
  | nil => simp [latestRevoked]
  | cons d ds ih =>
    cases d with
    | revoke t => simp only [List.cons_append, latestRevoked, ih, max_assoc]
    | prove t => simp only [List.cons_append, latestRevoked, ih]

/-! ## Any order -/

theorem run_fence (ds : List (Delivery τ)) : (blank.run ds).fence = latestRevoked ds := by
  induction ds using List.reverseRecOn with
  | nil => rfl
  | append_singleton ds d ih =>
    rw [Mark.run_snoc, latestRevoked_append, ← ih]
    cases d with
    | revoke t =>
      show (if t ≤ (blank.run ds).fence then blank.run ds else _).fence = _
      by_cases ht : t ≤ (blank.run ds).fence
      · rw [if_pos ht]
        simp [latestRevoked, ht]
      · rw [if_neg ht]
        simp [latestRevoked, le_of_not_ge ht]
    | prove t =>
      show (if t ≤ (blank.run ds).fence then blank.run ds else _).fence = _
      by_cases ht : t ≤ (blank.run ds).fence
      · rw [if_pos ht]
        simp [latestRevoked]
      · rw [if_neg ht]
        simp [latestRevoked]

theorem run_valid (ds : List (Delivery τ)) :
    (blank.run ds).valid = true ↔ (blank.run ds).Later (latestRevoked ds) := by
  have hcoherent : (blank.run ds).Coherent := by
    induction ds using List.reverseRecOn with
    | nil =>
      refine ⟨fun h => Bool.noConfusion h, ?_⟩
      rintro ⟨p, hp, -⟩
      cases hp
    | append_singleton ds d ih =>
      rw [Mark.run_snoc]
      exact ih.deliver d
  rw [← run_fence]
  exact hcoherent

/-- The proof kept was delivered. -/
theorem run_proved {ds : List (Delivery τ)} {p : τ} (h : p ∈ (blank.run ds).proved) :
    .prove p ∈ ds := by
  induction ds using List.reverseRecOn with
  | nil => cases h
  | append_singleton ds d ih =>
    rw [Mark.run_snoc] at h
    cases d with
    | revoke t =>
      rw [Mark.deliver] at h
      split at h
      · exact List.mem_append_left _ (ih h)
      · exact List.mem_append_left _ (ih h)
    | prove t =>
      rw [Mark.deliver] at h
      split at h
      · exact List.mem_append_left _ (ih h)
      · obtain rfl : t = p := Option.some.inj h
        exact List.mem_append_right _ (List.mem_singleton_self _)

theorem valid_newest {ds : List (Delivery τ)} (h : (blank.run ds).valid = true) :
    ProvedAfter (latestRevoked ds) ds := by
  obtain ⟨p, hp, hlt⟩ := (run_valid ds).mp h
  exact ⟨p, run_proved hp, hlt⟩

/-- The last of the proofs that were later than every revocation delivered before them. -/
def lastAccepted (ds : List (Delivery τ)) : Option τ :=
  ds.foldl
    (fun (seen : τ × Option τ) d =>
      match d with
      | .revoke t => (max t seen.1, seen.2)
      | .prove t => (seen.1, if t ≤ seen.1 then seen.2 else some t))
    (⊥, none) |>.2

theorem run_lastAccepted (ds : List (Delivery τ)) :
    (blank.run ds).proved = lastAccepted ds := by
  unfold lastAccepted
  have hboth : ds.foldl
      (fun (seen : τ × Option τ) d =>
        match d with
        | .revoke t => (max t seen.1, seen.2)
        | .prove t => (seen.1, if t ≤ seen.1 then seen.2 else some t))
      (⊥, none) = ((blank.run ds).fence, (blank.run ds).proved) := by
    induction ds using List.reverseRecOn with
    | nil => rfl
    | append_singleton ds d ih =>
      rw [List.foldl_append, ih, Mark.run_snoc]
      cases d with
      | revoke t =>
        show (max t (blank.run ds).fence, (blank.run ds).proved) = _
        rw [Mark.deliver]
        split
        · next ht => rw [max_eq_right ht]
        · next ht => rw [max_eq_left (le_of_not_ge ht)]
      | prove t =>
        show ((blank.run ds).fence, if t ≤ (blank.run ds).fence then _ else _) = _
        rw [Mark.deliver]
        split <;> rfl
  rw [hboth]

/-- The last accepted proof is as good as any: if some proof is later than every revocation,
it is. -/
def Settles (ds : List (Delivery τ)) : Prop :=
  ProvedAfter (latestRevoked ds) ds → ∃ p ∈ lastAccepted ds, latestRevoked ds < p

theorem valid_iff (ds : List (Delivery τ)) :
    ((blank.run ds).valid = true ↔ ProvedAfter (latestRevoked ds) ds) ↔ Settles ds := by
  rw [Settles, ← run_lastAccepted, run_valid ds]
  constructor
  · exact fun h hnewest => h.mpr hnewest
  · refine fun h => ⟨?_, h⟩
    rintro ⟨p, hp, hlt⟩
    exact ⟨p, run_proved hp, hlt⟩

/-! ## Accepted proofs in order -/

/-- No accepted proof is older than the one it replaces. -/
inductive InOrder : List (Delivery τ) → Prop
  | nil : InOrder []
  | snoc {ds : List (Delivery τ)} {d : Delivery τ} : InOrder ds →
      (∀ t, d = .prove t → (blank.run ds).fence < t → ∀ p ∈ (blank.run ds).proved, p ≤ t) →
      InOrder (ds ++ [d])

/-- A proof that was later than every revocation delivered before it. -/
def Accepted (p : τ) (ds : List (Delivery τ)) : Prop :=
  ∃ before after, ds = before ++ .prove p :: after ∧ latestRevoked before < p

/-- Every accepted proof is at most the one kept. -/
theorem InOrder.kept {ds : List (Delivery τ)} (h : InOrder ds) {p : τ} (hp : Accepted p ds) :
    ∃ q ∈ (blank.run ds).proved, p ≤ q := by
  induction h with
  | nil =>
    obtain ⟨before, after, heq, -⟩ := hp
    simp at heq
  | @snoc ds d _ hback ih =>
    rw [Mark.run_snoc]
    obtain ⟨before, after, heq, hlt⟩ := hp
    induction after using List.reverseRecOn with
    | nil =>
      -- the proof is the last delivery
      obtain ⟨rfl, hlast⟩ := List.append_inj' heq rfl
      obtain rfl : d = .prove p := List.singleton_inj.mp hlast
      rw [← run_fence] at hlt
      rw [Mark.deliver, if_neg (not_le_of_gt hlt)]
      exact ⟨p, rfl, le_refl p⟩
    | append_singleton after e _ =>
      rw [← List.cons_append, ← List.append_assoc] at heq
      obtain ⟨hds, hlast⟩ := List.append_inj' heq rfl
      obtain ⟨q, hq, hle⟩ := ih ⟨before, after, hds, hlt⟩
      cases d with
      | revoke t =>
        rw [Mark.deliver]
        split
        · exact ⟨q, hq, hle⟩
        · exact ⟨q, hq, hle⟩
      | prove t =>
        rw [Mark.deliver]
        split
        · exact ⟨q, hq, hle⟩
        · next ht => exact ⟨t, rfl, hle.trans (hback t rfl (lt_of_not_ge ht) q hq)⟩

theorem InOrder.valid_iff {ds : List (Delivery τ)} (h : InOrder ds) :
    (blank.run ds).valid = true ↔ ProvedAfter (latestRevoked ds) ds := by
  refine ⟨valid_newest, ?_⟩
  rintro ⟨p, hp, hlt⟩
  rw [run_valid]
  obtain ⟨before, after, rfl⟩ := List.append_of_mem hp
  have hbefore : latestRevoked before < p := by
    rw [latestRevoked_append] at hlt
    exact (le_max_left _ _).trans_lt hlt
  obtain ⟨q, hq, hle⟩ := h.kept ⟨before, after, rfl, hbefore⟩
  exact ⟨q, hq, hlt.trans_le hle⟩

/-- A revocation older than an accepted proof leaves the validity of the mark alone. -/
theorem InOrder.late_revoke {ds : List (Delivery τ)} (h : InOrder ds) {t p : τ}
    (hp : Accepted p ds) (ht : t < p) :
    (blank.run ds).Later t ∧ ((blank.run ds).deliver (.revoke t)).valid = (blank.run ds).valid := by
  obtain ⟨q, hq, hle⟩ := h.kept hp
  have hlater : (blank.run ds).Later t := ⟨q, hq, ht.trans_le hle⟩
  refine ⟨hlater, ?_⟩
  rw [Mark.deliver]
  split
  · rfl
  · simp [hlater]

end Lib.Watermark
