import Mathlib.Data.Prod.Lex
import Mathlib.Order.Lex
import Mathlib.Data.String.Basic
import Rogichat.Lib.Keyed

/-!
# Merging messages

`displayOrder` and `mergeMessages` of `contract.ts`. Ids and creation times have passed
`message`, so they are ASCII and compare alike by code unit and by code point; a version is
the number its digits write.

A merge treats every id on its own: `take` is what it does with the entry of one id.

* **`merge_iff`** — the result of a merge: the list in display order that has, at every id,
  what the incoming messages with that id leave of the entry.
* **`foldl_keep_comm`**, **`foldl_keep_idem`** — the same messages in another order, or twice.
-/

namespace Rogichat.Web

open Lib

variable {B : Type}

/-- A message as the timeline looks at it; `body` is everything it only shows. -/
structure ServerMessage (B : Type) where
  id : String
  version : Nat
  createdAt : String
  body : B
  deriving DecidableEq

inductive ChatError
  | immutableDisplayKey | invalidResponse | requestFailed
  deriving DecidableEq

/-! ## The code -/

/-- Messages are shown by time, and by id within a time. -/
def displayOrder (a b : ServerMessage B) : Int :=
  if a.createdAt < b.createdAt then -1
  else if b.createdAt < a.createdAt then 1
  else if a.id < b.id then -1
  else if b.id < a.id then 1
  else 0

/-- A round of the loop of `mergeMessages`. -/
def mergeOne (versions : List (ServerMessage B)) (item : ServerMessage B) :
    Except ChatError (List (ServerMessage B)) :=
  match Keyed.at? ServerMessage.id versions item.id with
  | some prior => do
    ensure (prior.createdAt = item.createdAt) .immutableDisplayKey
    if prior.version ≤ item.version then return Keyed.set ServerMessage.id versions item
    else return versions
  | none => return Keyed.set ServerMessage.id versions item

/-- The incoming messages enter the list one by one, which is then sorted. -/
def mergeMessages (current incoming : List (ServerMessage B)) :
    Except ChatError (List (ServerMessage B)) := do
  let versions ← incoming.foldlM mergeOne (Keyed.ofList ServerMessage.id current)
  return versions.mergeSort fun a b => displayOrder a b ≤ 0

/-! ## Display order -/

/-- What messages are ordered by. -/
def displayKey (m : ServerMessage B) : String ×ₗ String := toLex (m.createdAt, m.id)

theorem displayOrder_le {a b : ServerMessage B} :
    displayOrder a b ≤ 0 ↔ displayKey a ≤ displayKey b := by
  rw [displayKey, displayKey, Prod.Lex.toLex_le_toLex, displayOrder]
  rcases lt_trichotomy a.createdAt b.createdAt with h | h | h
  · simp [h]
  · rw [if_neg (by rw [h]; exact lt_irrefl _), if_neg (by rw [h]; exact lt_irrefl _)]
    rcases lt_trichotomy a.id b.id with hid | hid | hid
    · simp [h, hid, hid.le]
    · simp [h, hid]
    · simp [h, hid, hid.not_gt, hid.not_ge]
  · simp [h, h.not_gt, h.ne']

/-- The held messages: no id twice, strictly sorted by creation time and id. -/
structure Ordered (ms : List (ServerMessage B)) : Prop where
  ids : (ms.map ServerMessage.id).Nodup
  sorted : ms.Pairwise fun a b => displayKey a < displayKey b

/-- Sorting a list without repeated ids orders it. -/
theorem ordered_sort {ms : List (ServerMessage B)} (h : (ms.map ServerMessage.id).Nodup) :
    Ordered (ms.mergeSort fun a b => displayOrder a b ≤ 0) := by
  have hperm := List.mergeSort_perm ms fun a b => displayOrder a b ≤ 0
  have hids := (hperm.map ServerMessage.id).nodup_iff.mpr h
  refine ⟨hids, ?_⟩
  have hle : (ms.mergeSort fun a b => displayOrder a b ≤ 0).Pairwise
      fun a b => displayKey a ≤ displayKey b := by
    have hsorted : (ms.mergeSort fun a b => displayOrder a b ≤ 0).Pairwise
        fun a b => decide (displayOrder a b ≤ 0) = true := List.pairwise_mergeSort
      (fun a b c hab hbc => by
        simp only [decide_eq_true_eq, displayOrder_le] at hab hbc ⊢
        exact hab.trans hbc)
      (fun a b => by
        simp only [Bool.or_eq_true, decide_eq_true_eq, displayOrder_le]
        exact le_total _ _) ms
    exact hsorted.imp fun hab => displayOrder_le.mp (of_decide_eq_true hab)
  have hne := List.pairwise_map.mp hids
  refine (hle.and hne).imp ?_
  rintro a b ⟨hab, hdiffer⟩
  refine lt_of_le_of_ne hab fun heq => hdiffer ?_
  exact congrArg (fun k => (ofLex k).2) heq

/-- The held messages are known by what is held at every id. -/
theorem Ordered.ext {ms ns : List (ServerMessage B)} (hm : Ordered ms) (hn : Ordered ns)
    (h : ∀ id, Keyed.at? ServerMessage.id ms id = Keyed.at? ServerMessage.id ns id) : ms = ns :=
  Keyed.ext_of_sorted (fun _ _ hab => not_lt_of_gt hab) hm.sorted hn.sorted hm.ids hn.ids h

/-! ## One id -/

/-- What is left at an id when a message with that id is merged. -/
def keep (held : Option (ServerMessage B)) (m : ServerMessage B) : Option (ServerMessage B) :=
  match held with
  | none => some m
  | some p => some (if p.version ≤ m.version then m else p)

/-- What a merge does with the entry of one id. -/
def take (held : Option (ServerMessage B)) (m : ServerMessage B) :
    Except ChatError (Option (ServerMessage B)) := do
  ensure (∀ p ∈ held, p.createdAt = m.createdAt) .immutableDisplayKey
  return keep held m

/-- All have one creation time. -/
def Agree (held : Option (ServerMessage B)) (ms : List (ServerMessage B)) : Prop :=
  ∃ t, (∀ p ∈ held, p.createdAt = t) ∧ ∀ m ∈ ms, m.createdAt = t

theorem take_ok {held held' : Option (ServerMessage B)} {m : ServerMessage B} :
    take held m = .ok held' ↔ (∀ p ∈ held, p.createdAt = m.createdAt) ∧ held' = keep held m := by
  simp only [take, bind_ok, ensure_ok, pure_ok]
  constructor
  · rintro ⟨_, h, heq⟩
    exact ⟨h, heq.symm⟩
  · rintro ⟨h, heq⟩
    exact ⟨(), h, heq.symm⟩

theorem keep_cases (held : Option (ServerMessage B)) (m : ServerMessage B) :
    keep held m = some m ∨ ∃ p ∈ held, keep held m = some p ∧ m.version < p.version := by
  cases held with
  | none => exact .inl rfl
  | some p =>
    by_cases h : p.version ≤ m.version
    · exact .inl (by rw [keep, if_pos h])
    · exact .inr ⟨p, rfl, by rw [keep, if_neg h], not_le.mp h⟩

/-- Merging the messages of one id, in their order. -/
theorem takes_iff {held held' : Option (ServerMessage B)} {ms : List (ServerMessage B)} :
    ms.foldlM take held = .ok held' ↔ Agree held ms ∧ held' = ms.foldl keep held := by
  induction ms generalizing held with
  | nil =>
    rw [List.foldlM_nil, pure_ok, List.foldl_nil]
    refine ⟨fun h => ⟨?_, h.symm⟩, fun h => h.2.symm⟩
    cases held with
    | none => exact ⟨"", by simp, by simp⟩
    | some p => exact ⟨p.createdAt, by simp, by simp⟩
  | cons m ms ih =>
    rw [List.foldlM_cons, bind_ok, List.foldl_cons]
    constructor
    · rintro ⟨o, htake, hrest⟩
      obtain ⟨hsame, rfl⟩ := take_ok.mp htake
      obtain ⟨⟨t, hkeep, hms⟩, hheld⟩ := ih.mp hrest
      -- what is kept has the creation time of `m`
      have hm : m.createdAt = t := by
        rcases keep_cases held m with h | ⟨p, hp, h, -⟩
        · exact hkeep m h
        · exact (hsame p hp).symm.trans (hkeep p h)
      refine ⟨⟨t, fun p hp => (hsame p hp).trans hm, ?_⟩, hheld⟩
      intro x hx
      rcases List.mem_cons.mp hx with rfl | hx
      · exact hm
      · exact hms x hx
    · rintro ⟨⟨t, hheld, hms⟩, rfl⟩
      have hm := hms m List.mem_cons_self
      refine ⟨keep held m, take_ok.mpr ⟨fun p hp => (hheld p hp).trans hm.symm, rfl⟩, ?_⟩
      refine ih.mpr ⟨⟨t, ?_, fun x hx => hms x (List.mem_cons_of_mem _ hx)⟩, rfl⟩
      intro p hp
      rcases keep_cases held m with h | ⟨q, hq, h, -⟩
      · rw [h] at hp
        cases hp
        exact hm
      · rw [h] at hp
        cases hp
        exact hheld _ hq

/-- What is kept was held or came. -/
theorem keep_mem {held : Option (ServerMessage B)} {m r : ServerMessage B} (h : r ∈ keep held m) :
    r ∈ held ∨ r = m := by
  rcases keep_cases held m with hk | ⟨p, hp, hk, -⟩
  · rw [hk] at h
    cases h
    exact .inr rfl
  · rw [hk] at h
    cases h
    exact .inl hp

/-- Nothing above a bound is left of what is not above it. -/
theorem foldl_keep_le {n : Nat} {held : Option (ServerMessage B)} {ms : List (ServerMessage B)}
    (hheld : ∀ p ∈ held, p.version ≤ n) (hms : ∀ m ∈ ms, m.version ≤ n) :
    ∀ r ∈ ms.foldl keep held, r.version ≤ n := by
  induction ms generalizing held with
  | nil => exact hheld
  | cons m ms ih =>
    refine ih ?_ fun x hx => hms x (List.mem_cons_of_mem _ hx)
    intro p hp
    rcases keep_mem hp with hp | rfl
    · exact hheld p hp
    · exact hms p List.mem_cons_self

/-- What is kept is as new as what was held and as what came. -/
theorem le_keep {held : Option (ServerMessage B)} {m x : ServerMessage B}
    (hx : x ∈ held ∨ x = m) : ∃ p ∈ keep held m, x.version ≤ p.version := by
  rcases keep_cases held m with h | ⟨p, hp, h, hlt⟩
  · refine ⟨m, h, ?_⟩
    rcases hx with hx | rfl
    · rw [Option.mem_def] at hx
      subst hx
      by_contra hle
      rw [keep, if_neg hle, Option.some.injEq] at h
      exact hle (h ▸ Nat.le_refl _)
    · exact Nat.le_refl _
  · refine ⟨p, h, ?_⟩
    rcases hx with hx | rfl
    · rw [Option.mem_def.mp hx, Option.mem_some] at hp
      exact hp ▸ Nat.le_refl _
    · exact hlt.le

/-- What is left is as new as everything it was left of. -/
theorem le_foldl_keep {held : Option (ServerMessage B)} {ms : List (ServerMessage B)}
    {x : ServerMessage B} (hx : x ∈ held ∨ x ∈ ms) :
    ∃ r ∈ ms.foldl keep held, x.version ≤ r.version := by
  induction ms generalizing held x with
  | nil =>
    rcases hx with hx | hx
    · exact ⟨x, hx, Nat.le_refl _⟩
    · cases hx
  | cons m ms ih =>
    have hcase : (x ∈ held ∨ x = m) ∨ x ∈ ms := by
      rcases hx with hx | hx
      · exact .inl (.inl hx)
      · rcases List.mem_cons.mp hx with rfl | hx
        · exact .inl (.inr rfl)
        · exact .inr hx
    rcases hcase with hold | hx
    · obtain ⟨p, hp, hle⟩ := le_keep hold
      obtain ⟨r, hr, hle'⟩ := ih (.inl hp)
      exact ⟨r, hr, hle.trans hle'⟩
    · exact ih (.inr hx)

/-- What is left was there or came. -/
theorem foldl_keep_mem {held : Option (ServerMessage B)} {ms : List (ServerMessage B)}
    {r : ServerMessage B} (h : r ∈ ms.foldl keep held) : r ∈ held ∨ r ∈ ms := by
  induction ms generalizing held with
  | nil => exact .inl h
  | cons m ms ih =>
    rcases ih h with hr | hr
    · rcases keep_mem hr with hr | rfl
      · exact .inl hr
      · exact .inr List.mem_cons_self
    · exact .inr (List.mem_cons_of_mem _ hr)

/-- Whatever is held, if it is not newer than one of the messages. -/
theorem foldl_keep_eq {held held' : Option (ServerMessage B)} {ms : List (ServerMessage B)}
    {m : ServerMessage B} (hm : m ∈ ms) (hheld : ∀ p ∈ held, p.version ≤ m.version)
    (hheld' : ∀ p ∈ held', p.version ≤ m.version) : ms.foldl keep held = ms.foldl keep held' := by
  have hwins : ∀ {o : Option (ServerMessage B)} {n : ServerMessage B},
      (∀ p ∈ o, p.version ≤ n.version) → keep o n = some n := by
    intro o n ho
    rcases keep_cases o n with hk | ⟨p, hp, -, hlt⟩
    · exact hk
    · exact absurd (ho p hp) (not_le.mpr hlt)
  induction ms generalizing held held' with
  | nil => exact absurd hm List.not_mem_nil
  | cons n ms ih =>
    rw [List.foldl_cons, List.foldl_cons]
    rcases List.mem_cons.mp hm with rfl | hm
    · rw [hwins hheld, hwins hheld']
    · rcases le_total m.version n.version with hle | hle
      · rw [hwins fun p hp => (hheld p hp).trans hle, hwins fun p hp => (hheld' p hp).trans hle]
      · have hkept : ∀ {o : Option (ServerMessage B)}, (∀ p ∈ o, p.version ≤ m.version) →
            ∀ p ∈ keep o n, p.version ≤ m.version := by
          intro o ho p hp
          rcases keep_mem hp with hp | rfl
          · exact ho p hp
          · exact hle
        exact ih hm (hkept hheld) (hkept hheld')

/-- The same messages again change nothing. -/
theorem foldl_keep_idem (held : Option (ServerMessage B)) (ms : List (ServerMessage B)) :
    ms.foldl keep (ms.foldl keep held) = ms.foldl keep held := by
  -- by the last message: it wins again, or stays behind what won before it
  induction ms using List.reverseRecOn with
  | nil => rfl
  | append_singleton ms m ih =>
    rw [List.foldl_append, List.foldl_append, List.foldl_cons, List.foldl_nil, List.foldl_cons,
      List.foldl_nil]
    rcases keep_cases (ms.foldl keep held) m with h | ⟨p, hp, h, hlt⟩
    · rw [h]
      have hbefore : ∀ x ∈ ms, x.version ≤ m.version := by
        intro x hx
        have hleft : ∃ r ∈ ms.foldl keep held, x.version ≤ r.version := le_foldl_keep (.inr hx)
        obtain ⟨r, hr, hle⟩ := hleft
        rw [Option.mem_def.mp hr, keep, Option.some.injEq] at h
        by_cases hrm : r.version ≤ m.version
        · exact hle.trans hrm
        · rw [if_neg hrm] at h
          exact absurd (h ▸ Nat.le_refl _) hrm
      rcases keep_cases (ms.foldl keep (some m)) m with h' | ⟨q, hq, -, hlt⟩
      · exact h'
      · have hle := foldl_keep_le (n := m.version) (by simp) hbefore q hq
        omega
    · rw [h, ← Option.mem_def.mp hp, ih, h, Option.mem_def.mp hp]

theorem keep_comm (held : Option (ServerMessage B)) {a b : ServerMessage B}
    (hne : a.version ≠ b.version) : keep (keep held a) b = keep (keep held b) a := by
  cases held with
  | none =>
    rcases Nat.lt_or_gt_of_ne hne with h | h
    · simp [keep, h.le, h.not_ge]
    · simp [keep, h.le, h.not_ge]
  | some p =>
    by_cases hpa : p.version ≤ a.version <;> by_cases hpb : p.version ≤ b.version
    · rcases Nat.lt_or_gt_of_ne hne with h | h
      · simp [keep, hpa, hpb, h.le, h.not_ge]
      · simp [keep, hpa, hpb, h.le, h.not_ge]
    · have hba : ¬a.version ≤ b.version := by omega
      simp [keep, hpa, hpb, hba]
    · have hab : ¬b.version ≤ a.version := by omega
      simp [keep, hpa, hpb, hab]
    · simp [keep, hpa, hpb]

/-- Messages with other versions may come before or after. -/
theorem foldl_keep_comm {ps qs : List (ServerMessage B)}
    (hne : ∀ a ∈ ps, ∀ b ∈ qs, a.version ≠ b.version) (held : Option (ServerMessage B)) :
    qs.foldl keep (ps.foldl keep held) = ps.foldl keep (qs.foldl keep held) := by
  have hone : ∀ (a : ServerMessage B) (qs : List (ServerMessage B)) (held : Option (ServerMessage B)),
      (∀ b ∈ qs, a.version ≠ b.version) → qs.foldl keep (keep held a) = keep (qs.foldl keep held) a := by
    intro a qs
    induction qs with
    | nil => exact fun _ _ => rfl
    | cons b qs ih =>
      intro held hqs
      rw [List.foldl_cons, List.foldl_cons, keep_comm held (hqs b List.mem_cons_self)]
      exact ih _ fun b hb => hqs b (List.mem_cons_of_mem _ hb)
  induction ps generalizing held with
  | nil => rfl
  | cons a ps ih =>
    rw [List.foldl_cons, List.foldl_cons, ih (fun x hx => hne x (List.mem_cons_of_mem _ hx)),
      hone a qs held (hne a List.mem_cons_self)]

/-! ## Merging -/

/-- A round concerns the entry of its message's id. -/
theorem mergeOne_acts : Keyed.Acts (fun ms : List (ServerMessage B) =>
    (ms.map ServerMessage.id).Nodup) mergeOne ServerMessage.id
    (Keyed.at? ServerMessage.id) take where
  ok := by
    intro ms ns m hms hstep
    unfold mergeOne at hstep
    cases hprior : Keyed.at? ServerMessage.id ms m.id with
    | none =>
      rw [hprior, pure_ok] at hstep
      subst hstep
      refine ⟨Keyed.nodup_set hms m, ?_, fun id hne => ?_⟩
      · rw [Keyed.at?_set, if_pos rfl]
        exact take_ok.mpr ⟨by simp, rfl⟩
      · rw [Keyed.at?_set, if_neg (Ne.symm hne)]
    | some p =>
      rw [hprior] at hstep
      simp only [bind_ok, ensure_ok] at hstep
      obtain ⟨_, hsame, hstep⟩ := hstep
      have htake : take (some p) m = .ok (keep (some p) m) :=
        take_ok.mpr ⟨fun q hq => Option.mem_some.mp hq ▸ hsame, rfl⟩
      by_cases hle : p.version ≤ m.version
      · rw [if_pos hle, pure_ok] at hstep
        subst hstep
        refine ⟨Keyed.nodup_set hms m, ?_, fun id hne => ?_⟩
        · rw [Keyed.at?_set, if_pos rfl, htake, keep, if_pos hle]
        · rw [Keyed.at?_set, if_neg (Ne.symm hne)]
      · rw [if_neg hle, pure_ok] at hstep
        subst hstep
        refine ⟨hms, ?_, fun id hne => rfl⟩
        rw [hprior, htake, keep, if_neg hle]
  total := by
    intro ms m o _ hone
    obtain ⟨hsame, -⟩ := take_ok.mp hone
    unfold mergeOne
    cases hprior : Keyed.at? ServerMessage.id ms m.id with
    | none => exact ⟨_, rfl⟩
    | some p =>
      have hp : p.createdAt = m.createdAt := hsame p hprior
      show ∃ t, (ensure _ _ >>= _) = _
      rw [ensure_pos hp, ok_bind]
      by_cases hle : p.version ≤ m.version
      · exact ⟨_, if_pos hle⟩
      · exact ⟨_, if_neg hle⟩

/-- The messages of a page with one id. -/
def ofId (id : String) (ms : List (ServerMessage B)) : List (ServerMessage B) :=
  ms.filter fun m => m.id = id

/-- The entry of an id in a list, the last one where there are several. -/
def entry (current : List (ServerMessage B)) (id : String) : Option (ServerMessage B) :=
  Keyed.at? ServerMessage.id (Keyed.ofList ServerMessage.id current) id

/-- What a list holds at an id. -/
def held (ms : List (ServerMessage B)) (id : String) : Option (ServerMessage B) :=
  Keyed.at? ServerMessage.id ms id

theorem Ordered.entry {ms : List (ServerMessage B)} (h : Ordered ms) (id : String) :
    entry ms id = held ms id := by
  rw [Web.entry, Keyed.ofList_of_nodup h.ids, held]

/-- The result of a merge. -/
theorem merge_iff {current incoming ms : List (ServerMessage B)} :
    mergeMessages current incoming = .ok ms ↔ Ordered ms ∧ ∀ id,
      Agree (entry current id) (ofId id incoming) ∧
      held ms id = (ofId id incoming).foldl keep (entry current id) := by
  have hids : ((Keyed.ofList ServerMessage.id current).map ServerMessage.id).Nodup :=
    Keyed.nodup_ofList current
  have hsorted : ∀ versions : List (ServerMessage B), (versions.map ServerMessage.id).Nodup →
      ∀ id, held (versions.mergeSort fun a b => displayOrder a b ≤ 0) id = held versions id :=
    fun versions hversions id =>
      (Keyed.at?_perm (List.mergeSort_perm versions _).symm hversions id).symm
  constructor
  · intro h
    simp only [mergeMessages, bind_ok, pure_ok] at h
    obtain ⟨versions, hfold, rfl⟩ := h
    obtain ⟨hversions, hparts⟩ := mergeOne_acts.foldlM_ok hids hfold
    refine ⟨ordered_sort hversions, fun id => ?_⟩
    rw [hsorted versions hversions]
    exact takes_iff.mp (hparts id)
  · rintro ⟨hms, hparts⟩
    have htakes : ∀ id, (ofId id incoming).foldlM take (entry current id) = .ok (held ms id) :=
      fun id => takes_iff.mpr (hparts id)
    obtain ⟨versions, hfold⟩ := mergeOne_acts.foldlM_total hids fun id => ⟨_, htakes id⟩
    obtain ⟨hversions, hresult⟩ := mergeOne_acts.foldlM_ok hids hfold
    have hsame : (versions.mergeSort fun a b => displayOrder a b ≤ 0) = ms := by
      refine (ordered_sort hversions).ext hms fun id => ?_
      have hread : held versions id = held ms id :=
        Except.ok.inj ((hresult id).symm.trans (htakes id))
      exact (hsorted versions hversions id).trans hread
    simp only [mergeMessages, bind_ok, pure_ok]
    exact ⟨versions, hfold, hsame⟩

/-- A merge goes through where the creation times agree. -/
theorem merge_total {current incoming : List (ServerMessage B)}
    (h : ∀ id, Agree (entry current id) (ofId id incoming)) :
    ∃ ms, mergeMessages current incoming = .ok ms := by
  have hids : ((Keyed.ofList ServerMessage.id current).map ServerMessage.id).Nodup :=
    Keyed.nodup_ofList current
  obtain ⟨versions, hfold⟩ := mergeOne_acts.foldlM_total hids fun id =>
    ⟨_, takes_iff.mpr ⟨h id, rfl⟩⟩
  exact ⟨_, by rw [mergeMessages, hfold]; rfl⟩

theorem mergeOne_error {versions : List (ServerMessage B)} {m : ServerMessage B} {e : ChatError}
    (h : mergeOne versions m = .error e) : e = .immutableDisplayKey := by
  unfold mergeOne at h
  split at h
  · rcases bind_error.mp h with h | ⟨_, -, h⟩
    · exact (ensure_error.mp h).2.symm
    · split at h <;> cases h
  · cases h

/-- A merge fails for nothing but a creation time. -/
theorem merge_error {current incoming : List (ServerMessage B)} {e : ChatError}
    (h : mergeMessages current incoming = .error e) : e = .immutableDisplayKey := by
  have hfold : ∀ (ms versions : List (ServerMessage B)),
      ms.foldlM mergeOne versions = .error e → e = .immutableDisplayKey := by
    intro ms
    induction ms with
    | nil => exact fun _ h => (by cases h)
    | cons m ms ih =>
      intro versions h
      rw [List.foldlM_cons] at h
      rcases bind_error.mp h with h | ⟨_, -, h⟩
      · exact mergeOne_error h
      · exact ih _ h
  rcases bind_error.mp h with h | ⟨_, -, h⟩
  · exact hfold _ _ h
  · cases h

/-- What an entry of the map of a list is, is one of the list. -/
theorem mem_of_entry {current : List (ServerMessage B)} {id : String} {m : ServerMessage B}
    (h : entry current id = some m) : m ∈ current ∧ m.id = id := by
  have hset : ∀ (ms versions : List (ServerMessage B)) (x : ServerMessage B),
      x ∈ ms.foldl (Keyed.set ServerMessage.id) versions → x ∈ versions ∨ x ∈ ms := by
    intro ms
    induction ms with
    | nil => exact fun _ _ hx => .inl hx
    | cons a ms ih =>
      intro versions x hx
      rcases ih _ x hx with hx | hx
      · unfold Keyed.set at hx
        split at hx
        · obtain ⟨b, hb, rfl⟩ := List.mem_map.mp hx
          by_cases hba : b.id = a.id
          · rw [if_pos hba]
            exact .inr List.mem_cons_self
          · rw [if_neg hba]
            exact .inl hb
        · rcases List.mem_append.mp hx with hx | hx
          · exact .inl hx
          · exact .inr (List.mem_singleton.mp hx ▸ List.mem_cons_self)
      · exact .inr (List.mem_cons_of_mem _ hx)
  obtain ⟨hmem, hid⟩ := Keyed.mem_of_at? h
  rcases hset current [] m hmem with hm | hm
  · cases hm
  · exact ⟨hm, hid⟩

/-- A merge that fails met an id with two creation times. -/
theorem merge_refused {current incoming : List (ServerMessage B)} {e : ChatError}
    (h : mergeMessages current incoming = .error e) :
    e = .immutableDisplayKey ∧ ∃ a ∈ incoming, ∃ b ∈ current ++ incoming,
      b.id = a.id ∧ b.createdAt ≠ a.createdAt := by
  refine ⟨merge_error h, ?_⟩
  by_contra hnone
  have hsame : ∀ a ∈ incoming, ∀ b ∈ current ++ incoming, b.id = a.id →
      b.createdAt = a.createdAt := by
    intro a ha b hb hid
    by_contra hne
    exact hnone ⟨a, ha, b, hb, hid, hne⟩
  have hagree : ∀ id, Agree (entry current id) (ofId id incoming) := by
    intro id
    cases hincoming : ofId id incoming with
    | nil =>
      cases hentry : entry current id with
      | none => exact ⟨"", by simp, by simp⟩
      | some p => exact ⟨p.createdAt, by simp, by simp⟩
    | cons a rest =>
      have ha : a ∈ ofId id incoming := hincoming ▸ List.mem_cons_self
      obtain ⟨ha, hid⟩ := List.mem_filter.mp ha
      rw [decide_eq_true_eq] at hid
      refine ⟨a.createdAt, ?_, ?_⟩
      · intro p hp
        obtain ⟨hmem, hpid⟩ := mem_of_entry hp
        exact hsame a ha p (List.mem_append_left _ hmem) (hpid.trans hid.symm)
      · intro m hm
        rw [← hincoming] at hm
        obtain ⟨hm, hmid⟩ := List.mem_filter.mp hm
        rw [decide_eq_true_eq] at hmid
        exact hsame a ha m (List.mem_append_right _ hm) (hmid.trans hid.symm)
  obtain ⟨ms, hms⟩ := merge_total hagree
  rw [hms] at h
  cases h

/-! ## Two merges -/

theorem agree_append {o : Option (ServerMessage B)} {ps qs : List (ServerMessage B)} :
    Agree o (ps ++ qs) ↔ Agree o ps ∧ Agree (ps.foldl keep o) qs := by
  have hboth : (ps ++ qs).foldlM take o = .ok ((ps ++ qs).foldl keep o) ↔ Agree o (ps ++ qs) := by
    rw [takes_iff]
    exact and_iff_left rfl
  rw [← hboth, List.foldlM_append, bind_ok, List.foldl_append]
  constructor
  · rintro ⟨mid, hps, hqs⟩
    obtain ⟨hagree, rfl⟩ := takes_iff.mp hps
    exact ⟨hagree, (takes_iff.mp hqs).1⟩
  · rintro ⟨hps, hqs⟩
    exact ⟨_, takes_iff.mpr ⟨hps, rfl⟩, takes_iff.mpr ⟨hqs, rfl⟩⟩

theorem agree_comm {o : Option (ServerMessage B)} {ps qs : List (ServerMessage B)}
    (h : Agree o (ps ++ qs)) : Agree o (qs ++ ps) := by
  obtain ⟨t, ho, hms⟩ := h
  refine ⟨t, ho, fun m hm => hms m ?_⟩
  rw [List.mem_append] at hm ⊢
  exact hm.symm

/-- Two merges are one merge of both pages. -/
theorem merge_twice_iff {current p q ms : List (ServerMessage B)} :
    (mergeMessages current p >>= fun ns => mergeMessages ns q) = .ok ms ↔ Ordered ms ∧ ∀ id,
      Agree (entry current id) (ofId id p ++ ofId id q) ∧
      held ms id = (ofId id p ++ ofId id q).foldl keep (entry current id) := by
  rw [bind_ok]
  constructor
  · rintro ⟨ns, hp, hq⟩
    obtain ⟨hns, hfirst⟩ := merge_iff.mp hp
    obtain ⟨hms, hsecond⟩ := merge_iff.mp hq
    refine ⟨hms, fun id => ?_⟩
    obtain ⟨hagree, hheld⟩ := hfirst id
    obtain ⟨hagree', hheld'⟩ := hsecond id
    rw [hns.entry, hheld] at hagree' hheld'
    exact ⟨agree_append.mpr ⟨hagree, hagree'⟩, by rw [hheld', List.foldl_append]⟩
  · rintro ⟨hms, hparts⟩
    obtain ⟨ns, hp⟩ := merge_total fun id => (agree_append.mp (hparts id).1).1
    obtain ⟨hns, hfirst⟩ := merge_iff.mp hp
    refine ⟨ns, hp, merge_iff.mpr ⟨hms, fun id => ?_⟩⟩
    obtain ⟨hagree, hheld⟩ := hparts id
    rw [hns.entry, (hfirst id).2, hheld, List.foldl_append]
    exact ⟨(agree_append.mp hagree).2, rfl⟩

/-- Pages whose entries for one id differ in version merge in either order. -/
theorem merge_comm {current p q : List (ServerMessage B)}
    (hne : ∀ a ∈ p, ∀ b ∈ q, a.id = b.id → a.version ≠ b.version) :
    (mergeMessages current p >>= fun ns => mergeMessages ns q) =
      (mergeMessages current q >>= fun ns => mergeMessages ns p) := by
  have hswap : ∀ {p q : List (ServerMessage B)}, (∀ a ∈ p, ∀ b ∈ q, a.id = b.id →
      a.version ≠ b.version) → ∀ ms, (mergeMessages current p >>= fun ns => mergeMessages ns q) =
      .ok ms → (mergeMessages current q >>= fun ns => mergeMessages ns p) = .ok ms := by
    intro p q hne ms h
    obtain ⟨hms, hparts⟩ := merge_twice_iff.mp h
    refine merge_twice_iff.mpr ⟨hms, fun id => ?_⟩
    obtain ⟨hagree, hheld⟩ := hparts id
    refine ⟨agree_comm hagree, ?_⟩
    rw [hheld, List.foldl_append, List.foldl_append]
    refine foldl_keep_comm ?_ _
    intro a ha b hb
    obtain ⟨ha, haid⟩ := List.mem_filter.mp ha
    obtain ⟨hb, hbid⟩ := List.mem_filter.mp hb
    rw [decide_eq_true_eq] at haid hbid
    exact hne a ha b hb (haid.trans hbid.symm)
  have hother : ∀ a ∈ q, ∀ b ∈ p, a.id = b.id → a.version ≠ b.version :=
    fun a ha b hb hid => (hne b hb a ha hid.symm).symm
  have herror : ∀ {p q : List (ServerMessage B)} {e : ChatError},
      (mergeMessages current p >>= fun ns => mergeMessages ns q) = .error e →
      e = .immutableDisplayKey := by
    intro p q e h
    rcases bind_error.mp h with h | ⟨_, -, h⟩
    · exact merge_error h
    · exact merge_error h
  -- where one order fails the other does, and there is only one error
  cases hp : mergeMessages current p >>= fun ns => mergeMessages ns q with
  | ok ms => exact (hswap hne ms hp).symm
  | error e =>
    cases hq : mergeMessages current q >>= fun ns => mergeMessages ns p with
    | ok ms =>
      rw [hswap hother ms hq] at hp
      cases hp
    | error e' => rw [herror hp, herror hq]

/-- The same page again changes nothing. -/
theorem merge_again {current p ms : List (ServerMessage B)} (h : mergeMessages current p = .ok ms) :
    mergeMessages ms p = .ok ms := by
  obtain ⟨hms, hparts⟩ := merge_iff.mp h
  refine merge_iff.mpr ⟨hms, fun id => ?_⟩
  obtain ⟨⟨t, hentry, hp⟩, hheld⟩ := hparts id
  rw [hms.entry]
  refine ⟨⟨t, ?_, hp⟩, ?_⟩
  · intro r hr
    rw [hheld] at hr
    rcases foldl_keep_mem hr with hr | hr
    · exact hentry r hr
    · exact hp r hr
  · rw [hheld, foldl_keep_idem]

end Rogichat.Web
