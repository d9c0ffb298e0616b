import Mathlib.Data.List.Nodup
import Rogichat.Lib.Outcome

/-!
# Lists of keyed entries

A list with at most one entry for a key, read by key (`at?`), as an insertion ordered map
keeps its values, and loops that treat every key on its own.

* **`at?_set`** — reading an entry after one was set.
* **`ext_of_sorted`** — two strictly sorted lists with the same entries are one list.
* **`Acts.foldlM_ok`**, **`Acts.foldlM_total`** — a loop each round of which concerns one
  key is, at every key, the loop over the rounds that concern it.
-/

namespace Lib.Keyed

universe u v w x

section Lists

variable {α : Type u} {κ : Type v} [DecidableEq κ] (key : α → κ)

/-- The entry of a key. -/
def at? (as : List α) (k : κ) : Option α := as.find? fun a => key a = k

/-- `Map.set`: the entry takes the place of the one with its key, or the last place. -/
def set (as : List α) (a : α) : List α :=
  if (at? key as (key a)).isSome then as.map fun b => if key b = key a then a else b
  else as ++ [a]

/-- `new Map` of the entries in their order. -/
def ofList (as : List α) : List α := as.foldl (set key) []

variable {key}

theorem at?_eq_none {as : List α} {k : κ} : at? key as k = none ↔ ∀ a ∈ as, key a ≠ k := by
  simp [at?]

theorem mem_of_at? {as : List α} {k : κ} {a : α} (h : at? key as k = some a) :
    a ∈ as ∧ key a = k :=
  ⟨List.mem_of_find?_eq_some h, by simpa using List.find?_some h⟩

/-- Where keys are not repeated, an entry is read by its key. -/
theorem at?_of_mem {as : List α} (has : (as.map key).Nodup) {a : α} (ha : a ∈ as) :
    at? key as (key a) = some a := by
  induction as with
  | nil => cases ha
  | cons b as ih =>
    rw [List.map_cons, List.nodup_cons] at has
    rcases List.mem_cons.mp ha with rfl | ha
    · simp [at?]
    · have hne : key b ≠ key a := by
        intro heq
        exact has.1 (heq ▸ List.mem_map_of_mem ha)
      have hrest := ih has.2 ha
      rw [at?, List.find?_cons_of_neg (by simpa using hne)]
      exact hrest

theorem at?_iff {as : List α} (has : (as.map key).Nodup) {k : κ} {a : α} :
    at? key as k = some a ↔ a ∈ as ∧ key a = k := by
  refine ⟨mem_of_at?, ?_⟩
  rintro ⟨ha, rfl⟩
  exact at?_of_mem has ha

/-- What is read does not depend on the order. -/
theorem at?_perm {as bs : List α} (hperm : as.Perm bs) (has : (as.map key).Nodup) (k : κ) :
    at? key as k = at? key bs k := by
  have hbs : (bs.map key).Nodup := (hperm.map key).nodup_iff.mp has
  ext a
  rw [at?_iff has, at?_iff hbs, hperm.mem_iff]

theorem keys_set (as : List α) (a : α) :
    (set key as a).map key = as.map key ∨
      key a ∉ as.map key ∧ (set key as a).map key = as.map key ++ [key a] := by
  unfold set
  by_cases h : (at? key as (key a)).isSome
  · left
    rw [if_pos h, List.map_map]
    refine List.map_congr_left ?_
    intro b _
    show key (if key b = key a then a else b) = key b
    by_cases hb : key b = key a
    · rw [if_pos hb, hb]
    · rw [if_neg hb]
  · right
    rw [if_neg h, List.map_append]
    refine ⟨?_, rfl⟩
    rw [Option.not_isSome_iff_eq_none, at?_eq_none] at h
    intro hmem
    obtain ⟨b, hb, heq⟩ := List.mem_map.mp hmem
    exact h b hb heq

theorem nodup_set {as : List α} (has : (as.map key).Nodup) (a : α) :
    ((set key as a).map key).Nodup := by
  have hkeys : (set key as a).map key = as.map key ∨
      key a ∉ as.map key ∧ (set key as a).map key = as.map key ++ [key a] := keys_set as a
  rcases hkeys with h | ⟨hfresh, h⟩
  · rw [h]
    exact has
  · rw [h, List.nodup_append]
    refine ⟨has, List.nodup_singleton _, ?_⟩
    rintro k hk k' hk' rfl
    exact hfresh (List.mem_singleton.mp hk' ▸ hk)

theorem at?_cons (b : α) (as : List α) (k : κ) :
    at? key (b :: as) k = if key b = k then some b else at? key as k := by
  by_cases h : key b = k
  · rw [if_pos h, at?, List.find?_cons_of_pos (by simpa using h)]
  · rw [if_neg h, at?, List.find?_cons_of_neg (by simpa using h)]
    rfl

/-- Replacing the entry of one key keeps the others. -/
theorem at?_replace (as : List α) {a : α} {k : κ} (hk : key a ≠ k) :
    at? key (as.map fun b => if key b = key a then a else b) k = at? key as k := by
  induction as with
  | nil => rfl
  | cons c as ih =>
    rw [List.map_cons, at?_cons, at?_cons, ih]
    by_cases hc : key c = key a
    · have hck : key c ≠ k := fun heq => hk (hc.symm.trans heq)
      rw [if_pos hc, if_neg hk, if_neg hck]
    · rw [if_neg hc]

/-- Reading after an entry was set. -/
theorem at?_set (as : List α) (a : α) (k : κ) :
    at? key (set key as a) k = if key a = k then some a else at? key as k := by
  unfold set
  by_cases h : (at? key as (key a)).isSome
  · rw [if_pos h]
    by_cases hk : key a = k
    · subst hk
      rw [if_pos rfl]
      induction as with
      | nil => cases h
      | cons b as ih =>
        rw [List.map_cons, at?_cons]
        by_cases hb : key b = key a
        · rw [if_pos hb, if_pos rfl]
        · rw [at?_cons, if_neg hb] at h
          rw [if_neg hb, if_neg hb, ih h]
    · rw [at?_replace as hk, if_neg hk]
  · rw [if_neg h]
    rw [Option.not_isSome_iff_eq_none] at h
    by_cases hk : key a = k
    · subst hk
      rw [if_pos rfl, at?, List.find?_append, show as.find? _ = none from h, Option.none_or]
      exact List.find?_cons_of_pos (by simp)
    · have hlast : [a].find? (fun b => key b = k) = none := List.find?_cons_of_neg (by simpa using hk)
      rw [if_neg hk, at?, List.find?_append, hlast, Option.or_none]
      rfl

theorem nodup_foldl_set (bs : List α) {as : List α} (has : (as.map key).Nodup) :
    ((bs.foldl (set key) as).map key).Nodup := by
  induction bs generalizing as with
  | nil => exact has
  | cons b bs ih => exact ih (nodup_set has b)

theorem nodup_ofList (as : List α) : ((ofList key as).map key).Nodup :=
  nodup_foldl_set as List.nodup_nil

/-- A map holds entries that were set. -/
theorem mem_of_mem_ofList {as : List α} {a : α} (h : a ∈ ofList key as) : a ∈ as := by
  have hfold : ∀ (as bs : List α), a ∈ as.foldl (set key) bs → a ∈ as ∨ a ∈ bs := by
    intro as
    induction as with
    | nil => exact fun bs h => .inr h
    | cons b as ih =>
      intro bs h
      rcases ih (set key bs b) h with h | h
      · exact .inl (List.mem_cons_of_mem b h)
      · unfold set at h
        split at h
        · obtain ⟨c, hc, heq⟩ := List.mem_map.mp h
          by_cases hkey : key c = key b
          · rw [if_pos hkey] at heq
            exact .inl (heq ▸ List.mem_cons_self)
          · rw [if_neg hkey] at heq
            exact .inr (heq ▸ hc)
        · rcases List.mem_append.mp h with h | h
          · exact .inr h
          · exact .inl (List.mem_singleton.mp h ▸ List.mem_cons_self)
  rcases hfold as [] h with h | h
  · exact h
  · exact absurd h List.not_mem_nil

/-- A map over keys has each key once, with its value. -/
theorem at?_ofList_map {β : Type u} (f : κ → β) (ks : List κ) (k : κ) :
    at? Prod.fst (ofList Prod.fst (ks.map fun i => (i, f i))) k =
      if k ∈ ks then some (k, f k) else none := by
  have hfold : ∀ (ks : List κ) (entries : List (κ × β)),
      at? Prod.fst ((ks.map fun i => (i, f i)).foldl (set Prod.fst) entries) k =
        if k ∈ ks then some (k, f k) else at? Prod.fst entries k := by
    intro ks
    induction ks with
    | nil => exact fun entries => rfl
    | cons i ks ih =>
      intro entries
      rw [List.map_cons, List.foldl_cons, ih, at?_set]
      by_cases hmem : k ∈ ks
      · rw [if_pos hmem, if_pos (List.mem_cons_of_mem i hmem)]
      · rw [if_neg hmem]
        by_cases heq : i = k
        · subst heq
          rw [if_pos rfl, if_pos List.mem_cons_self]
        · rw [if_neg heq, if_neg]
          exact fun h => (List.mem_cons.mp h).elim (fun h => heq h.symm) hmem
  exact hfold ks []

/-- A list that repeats no key is the map of its entries. -/
theorem ofList_of_nodup {as : List α} (has : (as.map key).Nodup) : ofList key as = as := by
  have happend : ∀ bs cs : List α, ((cs ++ bs).map key).Nodup → bs.foldl (set key) cs = cs ++ bs := by
    intro bs
    induction bs with
    | nil => simp
    | cons b bs ih =>
      intro cs hcs
      have hfresh : at? key cs (key b) = none := by
        rw [at?_eq_none]
        intro c hc heq
        rw [List.map_append, List.nodup_append] at hcs
        exact hcs.2.2 (key c) (List.mem_map_of_mem hc) (key b) (by simp) heq
      have hset : set key cs b = cs ++ [b] := by rw [set, hfresh]; rfl
      rw [List.foldl_cons, hset, ih (cs ++ [b]) (by simpa using hcs), List.append_assoc]
      rfl
  exact happend as [] has

/-- Reading a map after entries with different keys were set, one after the other. -/
theorem at?_foldl_set {β : Type u} {γ : Type w} (f : γ → κ) (g : γ → β) {cs : List γ}
    (hcs : (cs.map f).Nodup) (entries : List (κ × β)) (k : κ) :
    at? Prod.fst (cs.foldl (fun entries c => set Prod.fst entries (f c, g c)) entries) k =
      ((cs.find? fun c => f c = k).map fun c => (k, g c)).or (at? Prod.fst entries k) := by
  induction cs generalizing entries with
  | nil => rfl
  | cons c cs ih =>
    rw [List.map_cons, List.nodup_cons] at hcs
    rw [List.foldl_cons, ih hcs.2, at?_set]
    by_cases hc : f c = k
    · have hrest : cs.find? (fun c => f c = k) = none := by
        rw [List.find?_eq_none]
        intro d hd
        have hne : f d ≠ k := fun heq => hcs.1 (hc.trans heq.symm ▸ List.mem_map_of_mem hd)
        simpa using hne
      rw [hrest, if_pos hc, List.find?_cons_of_pos (by simpa using hc), hc]
      rfl
    · rw [if_neg hc, List.find?_cons_of_neg (by simpa using hc)]

/-- Lists in one strict order with the same entries are one list. -/
theorem ext_of_sorted {r : α → α → Prop} (hasymm : ∀ a b, r a b → ¬r b a) {as bs : List α}
    (has : as.Pairwise r) (hbs : bs.Pairwise r) (hask : (as.map key).Nodup)
    (hbsk : (bs.map key).Nodup) (h : ∀ k, at? key as k = at? key bs k) : as = bs := by
  have hmem : ∀ a, a ∈ as ↔ a ∈ bs := by
    intro a
    have hread := h (key a)
    constructor
    · intro ha
      rw [at?_of_mem hask ha] at hread
      exact (mem_of_at? hread.symm).1
    · intro ha
      rw [at?_of_mem hbsk ha] at hread
      exact (mem_of_at? hread).1
  have hperm : as.Perm bs := by
    rw [List.perm_ext_iff_of_nodup (List.Nodup.of_map key hask) (List.Nodup.of_map key hbsk)]
    exact hmem
  exact hperm.eq_of_pairwise (fun a b _ _ hab hba => absurd hba (hasymm a b hab)) has hbs

end Lists

/-! ## Loops that treat every key on its own -/

section Loops

variable {ε σ : Type u} {α : Type v} {κ : Type w} {τ : Type u} [DecidableEq κ]

/-- A round concerns one key: it reads and writes what the state has at that key, goes
through where that does, and keeps the invariant. -/
structure Acts (I : σ → Prop) (step : σ → α → Except ε σ) (key : α → κ) (part : σ → κ → τ)
    (one : τ → α → Except ε τ) : Prop where
  ok : ∀ {s t a}, I s → step s a = .ok t → I t ∧ one (part s (key a)) a = .ok (part t (key a)) ∧
    ∀ k, k ≠ key a → part t k = part s k
  total : ∀ {s a p}, I s → one (part s (key a)) a = .ok p → ∃ t, step s a = .ok t

variable {I : σ → Prop} {step : σ → α → Except ε σ} {key : α → κ} {part : σ → κ → τ}
  {one : τ → α → Except ε τ}

/-- At every key, a finished loop is the loop over the rounds that concern it. -/
theorem Acts.foldlM_ok (h : Acts I step key part one) {as : List α} {s t : σ} (hs : I s)
    (hfold : as.foldlM step s = .ok t) :
    I t ∧ ∀ k, (as.filter fun a => key a = k).foldlM one (part s k) = .ok (part t k) := by
  induction as generalizing s with
  | nil =>
    rw [List.foldlM_nil, pure_ok] at hfold
    subst hfold
    exact ⟨hs, fun k => rfl⟩
  | cons a as ih =>
    rw [List.foldlM_cons, bind_ok] at hfold
    obtain ⟨u, hstep, hrest⟩ := hfold
    obtain ⟨hu, hone, hothers⟩ := h.ok hs hstep
    obtain ⟨ht, hparts⟩ := ih hu hrest
    refine ⟨ht, fun k => ?_⟩
    by_cases hk : key a = k
    · subst hk
      rw [List.filter_cons_of_pos (by simp), List.foldlM_cons, hone, ok_bind]
      exact hparts _
    · rw [List.filter_cons_of_neg (by simpa using hk), ← hothers k (Ne.symm hk)]
      exact hparts k

/-- A loop goes through where it does at every key. -/
theorem Acts.foldlM_total (h : Acts I step key part one) {as : List α} {s : σ} (hs : I s)
    (hparts : ∀ k, ∃ p, (as.filter fun a => key a = k).foldlM one (part s k) = .ok p) :
    ∃ t, as.foldlM step s = .ok t := by
  induction as generalizing s with
  | nil => exact ⟨s, rfl⟩
  | cons a as ih =>
    -- the head goes through, as it is the first round of its key
    obtain ⟨p, hp⟩ := hparts (key a)
    rw [List.filter_cons_of_pos (by simp), List.foldlM_cons, bind_ok] at hp
    obtain ⟨q, hone, -⟩ := hp
    obtain ⟨u, hstep⟩ := h.total hs hone
    obtain ⟨hu, hone', hothers⟩ := h.ok hs hstep
    have hrest : ∀ k, ∃ p, (as.filter fun a => key a = k).foldlM one (part u k) = .ok p := by
      intro k
      obtain ⟨p, hp⟩ := hparts k
      by_cases hk : key a = k
      · subst hk
        rw [List.filter_cons_of_pos (by simp), List.foldlM_cons, hone', ok_bind] at hp
        exact ⟨p, hp⟩
      · rw [List.filter_cons_of_neg (by simpa using hk), ← hothers k (Ne.symm hk)] at hp
        exact ⟨p, hp⟩
    obtain ⟨t, ht⟩ := ih hu hrest
    exact ⟨t, by rw [List.foldlM_cons, hstep, ok_bind, ht]⟩

end Loops

end Lib.Keyed
