import Rogichat.Lib.Table

/-!
# Rewriting the rows of a table

A journal keeps its rows and replaces them in place, by rows with the same keys.

* **`mem_putAll_map`** — rows put back one by one, each of them changed, are an update.
* **`Carried`** — every row has a successor and every row a predecessor; it is kept by the
  writes of a journal and composes along a run.
-/

namespace Lib.Table

universe u

variable {ρ : Type u} [Row ρ]

/-- Put rows one by one. -/
def putAll (t : Table ρ) (rs : List ρ) : Table ρ := rs.foldl put t

theorem clash_self (r : ρ) : Row.Clash r r := by
  obtain ⟨k, hk⟩ := List.exists_mem_of_ne_nil _ (Row.keyed r)
  exact ⟨k, hk, hk⟩

/-- Stored rows that clash are the same row. -/
theorem eq_of_clash {t : Table ρ} {r s : ρ} (hr : r ∈ t) (hs : s ∈ t) (h : Row.Clash r s) :
    r = s := by
  obtain ⟨k, hkr, hks⟩ := h
  exact eq_of_key hr hs hkr hks

theorem clash_congr {r r' s s' : ρ} (hr : Row.keys r' = Row.keys r)
    (hs : Row.keys s' = Row.keys s) : Row.Clash r' s' ↔ Row.Clash r s := by
  unfold Row.Clash
  rw [hr, hs]

theorem mem_putAll {t : Table ρ} {rs : List ρ} {s : ρ}
    (hrs : rs.Pairwise fun r r' => ¬Row.Clash r r') :
    s ∈ t.putAll rs ↔ s ∈ rs ∨ s ∈ t ∧ ∀ r ∈ rs, ¬Row.Clash s r := by
  induction rs generalizing t with
  | nil => simp [putAll]
  | cons r rs ih =>
    obtain ⟨hfirst, hrest⟩ := List.pairwise_cons.mp hrs
    have hfold : t.putAll (r :: rs) = (t.put r).putAll rs := rfl
    rw [hfold, ih hrest, mem_put]
    constructor
    · intro h
      rcases h with h | ⟨⟨hs, hr⟩ | rfl, hfree⟩
      · exact .inl (List.mem_cons_of_mem r h)
      · refine .inr ⟨hs, ?_⟩
        intro r' hr'
        rcases List.mem_cons.mp hr' with rfl | hr'
        · exact hr
        · exact hfree r' hr'
      · exact .inl List.mem_cons_self
    · intro h
      rcases h with h | ⟨hs, hfree⟩
      · rcases List.mem_cons.mp h with rfl | h
        · exact .inr ⟨.inr rfl, hfirst⟩
        · exact .inl h
      · refine .inr ⟨.inl ⟨hs, hfree r List.mem_cons_self⟩, ?_⟩
        intro r' hr'
        exact hfree r' (List.mem_cons_of_mem r hr')

/-- Rows put back one by one, each of them changed, are an update. -/
theorem mem_putAll_map {t : Table ρ} {p : ρ → Prop} [DecidablePred p] {f : ρ → ρ}
    (hf : Keeps f) {s : ρ} :
    s ∈ t.putAll ((t.select p).map f) ↔ ∃ r ∈ t, s = if p r then f r else r := by
  have hapart : ((t.select p).map f).Pairwise fun r r' => ¬Row.Clash r r' := by
    rw [List.pairwise_map]
    refine (t.unique.filter _).imp ?_
    intro r r' hclash
    rwa [clash_congr (hf.keys r) (hf.keys r')]
  rw [mem_putAll hapart]
  constructor
  · intro h
    rcases h with h | ⟨hs, hfree⟩
    · obtain ⟨r, hr, rfl⟩ := List.mem_map.mp h
      obtain ⟨hr, hp⟩ := mem_select.mp hr
      exact ⟨r, hr, (if_pos hp).symm⟩
    · refine ⟨s, hs, (if_neg ?_).symm⟩
      intro hp
      refine hfree (f s) (List.mem_map.mpr ⟨s, mem_select.mpr ⟨hs, hp⟩, rfl⟩) ?_
      rw [clash_congr rfl (hf.keys s)]
      exact clash_self s
  · intro h
    obtain ⟨r, hr, rfl⟩ := h
    by_cases hp : p r
    · rw [if_pos hp]
      exact .inl (List.mem_map.mpr ⟨r, mem_select.mpr ⟨hr, hp⟩, rfl⟩)
    · rw [if_neg hp]
      refine .inr ⟨hr, ?_⟩
      intro r' hr' hclash
      obtain ⟨q, hq, rfl⟩ := List.mem_map.mp hr'
      obtain ⟨hq, hpq⟩ := mem_select.mp hq
      rw [clash_congr rfl (hf.keys q)] at hclash
      exact hp (eq_of_clash hr hq hclash ▸ hpq)

/-! ## Rows and their successors -/

/-- Every row of `t` has a successor in `u`, and every row of `u` a predecessor in `t`. -/
structure Carried (R : ρ → ρ → Prop) (t u : Table ρ) : Prop where
  forward : ∀ r ∈ t, ∃ s ∈ u, R r s
  back : ∀ s ∈ u, ∃ r ∈ t, R r s

namespace Carried

variable {R Q : ρ → ρ → Prop} {t u v : Table ρ}

theorem refl (hR : ∀ r, R r r) (t : Table ρ) : Carried R t t :=
  ⟨fun r hr => ⟨r, hr, hR r⟩, fun r hr => ⟨r, hr, hR r⟩⟩

theorem imp (hRQ : ∀ r s, R r s → Q r s) (h : Carried R t u) : Carried Q t u := by
  constructor
  · intro r hr
    obtain ⟨s, hs, hrs⟩ := h.forward r hr
    exact ⟨s, hs, hRQ r s hrs⟩
  · intro s hs
    obtain ⟨r, hr, hrs⟩ := h.back s hs
    exact ⟨r, hr, hRQ r s hrs⟩

/-- A stored row is replaced by one with its keys. -/
theorem put (hR : ∀ r, R r r) {r s : ρ} (hr : r ∈ t) (hrs : R r s)
    (hkeys : Row.keys s = Row.keys r) : Carried R t (t.put s) := by
  have hclash : ∀ q, Row.Clash q s ↔ Row.Clash q r := fun q => clash_congr rfl hkeys
  constructor
  · intro q hq
    by_cases hqr : Row.Clash q s
    · obtain rfl := eq_of_clash hq hr ((hclash q).mp hqr)
      exact ⟨s, mem_put.mpr (.inr rfl), hrs⟩
    · exact ⟨q, mem_put.mpr (.inl ⟨hq, hqr⟩), hR q⟩
  · intro q hq
    rcases mem_put.mp hq with ⟨hq, -⟩ | rfl
    · exact ⟨q, hq, hR q⟩
    · exact ⟨r, hr, hrs⟩

theorem putAll_map {p : ρ → Prop} [DecidablePred p] {f : ρ → ρ} (hf : Keeps f)
    (hR : ∀ r, R r r) (hRf : ∀ r ∈ t, p r → R r (f r)) :
    Carried R t (t.putAll ((t.select p).map f)) := by
  have hone : ∀ r ∈ t, R r (if p r then f r else r) := by
    intro r hr
    split
    · rename_i hp
      exact hRf r hr hp
    · exact hR r
  constructor
  · intro r hr
    exact ⟨_, (mem_putAll_map hf).mpr ⟨r, hr, rfl⟩, hone r hr⟩
  · intro s hs
    obtain ⟨r, hr, rfl⟩ := (mem_putAll_map hf).mp hs
    exact ⟨r, hr, hone r hr⟩

end Carried

/-- A row that clashes with no stored one is added. -/
theorem mem_put_fresh {t : Table ρ} {r s : ρ} (hfresh : ∀ q ∈ t, ¬Row.Clash q r) :
    s ∈ t.put r ↔ s ∈ t ∨ s = r := by
  rw [mem_put]
  constructor
  · intro h
    rcases h with ⟨hs, -⟩ | rfl
    · exact .inl hs
    · exact .inr rfl
  · intro h
    rcases h with hs | rfl
    · exact .inl ⟨hs, hfresh s hs⟩
    · exact .inr rfl

end Lib.Table
