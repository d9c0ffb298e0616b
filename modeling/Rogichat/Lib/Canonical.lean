import Mathlib.Data.List.Sort
import Rogichat.Lib.Json

/-!
# Canonical JSON texts

The text of a value with the fields of every object in the order of their keys: the text a
digest or a signature is made of. Keys are compared as Lean strings, which for ASCII keys is
the order of a JavaScript sort.

* **`sorted_of_canonical`** — one canonical text is one value, up to the order of fields.
* **`field_of_sorted`** — two such objects agree field by field.
* **`values_of_sorted`** — so do objects that list the same keys in one order.
-/

namespace Lib.Json

mutual
/-- The value with the fields of every object sorted. -/
def sorted : Json → Json
  | .null => .null
  | .bool b => .bool b
  | .num n => .num n
  | .str s => .str s
  | .arr vs => .arr (sortedItems vs)
  | .obj fs => .obj ((sortedFields fs).insertionSort fun f g => f.1 ≤ g.1)
/-- The items with their keys sorted. -/
def sortedItems : List Json → List Json
  | [] => []
  | v :: vs => v.sorted :: sortedItems vs
def sortedFields : List (String × Json) → List (String × Json)
  | [] => []
  | (k, v) :: fs => (k, v.sorted) :: sortedFields fs
end

/-- The text of the sorted value. -/
def canonical (v : Json) : String := v.sorted.stringify

@[simp] theorem sorted_null : sorted .null = .null := by rw [sorted]

@[simp] theorem sorted_bool (b : Bool) : sorted (.bool b) = .bool b := by rw [sorted]

@[simp] theorem sorted_num (n : Int) : sorted (.num n) = .num n := by rw [sorted]

@[simp] theorem sorted_str (s : String) : sorted (.str s) = .str s := by rw [sorted]

theorem sortedItems_eq (vs : List Json) : sortedItems vs = vs.map sorted := by
  induction vs with
  | nil => rw [sortedItems, List.map_nil]
  | cons v vs ih => rw [sortedItems, ih, List.map_cons]

@[simp] theorem sorted_arr (vs : List Json) : sorted (.arr vs) = .arr (vs.map sorted) := by
  rw [sorted, sortedItems_eq]

theorem sortedFields_eq (fs : List (String × Json)) :
    sortedFields fs = fs.map fun f => (f.1, f.2.sorted) := by
  induction fs with
  | nil => rw [sortedFields, List.map_nil]
  | cons f fs ih => rw [sortedFields, ih, List.map_cons]

theorem distinctItems_iff {vs : List Json} : DistinctItems vs ↔ ∀ v ∈ vs, v.Distinct := by
  induction vs with
  | nil => simp [DistinctItems]
  | cons v vs ih => simp [DistinctItems, ih]

theorem distinctFields_iff {fs : List (String × Json)} :
    DistinctFields fs ↔ ∀ f ∈ fs, f.2.Distinct := by
  induction fs with
  | nil => simp [DistinctFields]
  | cons f fs ih => simp [DistinctFields, ih]

/-- The sorted fields are the fields, sorted in themselves. -/
theorem sortedFields_perm (fs : List (String × Json)) :
    ((sortedFields fs).insertionSort fun f g => f.1 ≤ g.1).Perm
      (fs.map fun f => (f.1, f.2.sorted)) := by
  rw [← sortedFields_eq]
  exact List.perm_insertionSort _ _

theorem sortedFields_keys (fs : List (String × Json)) :
    (((sortedFields fs).insertionSort fun f g => f.1 ≤ g.1).map Prod.fst).Perm
      (fs.map Prod.fst) := by
  have hperm := (sortedFields_perm fs).map Prod.fst
  rw [List.map_map] at hperm
  exact hperm

theorem distinct_sorted : ∀ (v : Json), v.Distinct → v.sorted.Distinct
  | .null, _ => by rw [sorted_null]; trivial
  | .bool _, _ => by rw [sorted_bool]; trivial
  | .num _, _ => by rw [sorted_num]; trivial
  | .str _, _ => by rw [sorted_str]; trivial
  | .arr vs, h => by
    rw [Distinct, distinctItems_iff] at h
    rw [sorted_arr, Distinct, distinctItems_iff]
    intro w hw
    obtain ⟨v, hv, rfl⟩ := List.mem_map.mp hw
    exact distinct_sorted v (h v hv)
  | .obj fs, h => by
    rw [Distinct, distinctFields_iff] at h
    rw [sorted, Distinct, distinctFields_iff]
    refine ⟨(sortedFields_keys fs).nodup_iff.mpr h.1, ?_⟩
    intro g hg
    obtain ⟨f, hf, rfl⟩ := List.mem_map.mp ((sortedFields_perm fs).mem_iff.mp hg)
    have hsmall : sizeOf f.2 < sizeOf (Json.obj fs) := by
      have := List.sizeOf_lt_of_mem hf
      have hpair : sizeOf f.2 < sizeOf f := by
        cases f
        simp
      simp only [Json.obj.sizeOf_spec]
      omega
    exact distinct_sorted f.2 (h.2 f hf)
termination_by v => sizeOf v
decreasing_by
  · have := List.sizeOf_lt_of_mem hv
    simp only [Json.arr.sizeOf_spec]
    omega
  · exact hsmall

/-- One canonical text is one value, up to the order of fields. -/
theorem sorted_of_canonical {v w : Json} (hv : v.Distinct) (hw : w.Distinct)
    (h : canonical v = canonical w) : v.sorted = w.sorted :=
  stringify_inj (distinct_sorted v hv) (distinct_sorted w hw) h

/-- A field of an object that repeats no key. -/
theorem field?_eq_some {fs : List (String × Json)} (hfs : (fs.map Prod.fst).Nodup) {k : String}
    {v : Json} : field? fs k = some v ↔ (k, v) ∈ fs := by
  induction fs with
  | nil => simp [field?]
  | cons f fs ih =>
    rw [List.map_cons, List.nodup_cons] at hfs
    by_cases hk : f.1 = k
    · have hfirst : field? (f :: fs) k = some f.2 := by simp [field?, hk]
      rw [hfirst, List.mem_cons]
      constructor
      · intro h
        rw [← Option.some.inj h, ← hk]
        exact .inl rfl
      · rintro (h | h)
        · rw [← h]
        · exact absurd (List.mem_map_of_mem (f := Prod.fst) h) (by rw [← hk]; exact hfs.1)
    · have hrest : field? (f :: fs) k = field? fs k := by simp [field?, hk]
      rw [hrest, ih hfs.2, List.mem_cons]
      constructor
      · exact .inr
      · rintro (h | h)
        · rw [← h] at hk
          exact absurd rfl hk
        · exact h

/-- Objects that are one when sorted agree field by field. -/
theorem field_of_sorted {fs gs : List (String × Json)} (h : sorted (.obj fs) = sorted (.obj gs))
    (hfs : (fs.map Prod.fst).Nodup) (hgs : (gs.map Prod.fst).Nodup) (k : String) :
    (field? fs k).map sorted = (field? gs k).map sorted := by
  have hmem : ∀ {fs gs : List (String × Json)}, sorted (.obj fs) = sorted (.obj gs) →
      (fs.map Prod.fst).Nodup → (gs.map Prod.fst).Nodup → ∀ v, field? fs k = some v →
        (field? gs k).map sorted = some v.sorted := by
    intro fs gs h hfs hgs v hv
    rw [sorted, sorted, Json.obj.injEq] at h
    have hv := (field?_eq_some hfs).mp hv
    have hv : (k, v.sorted) ∈ gs.map fun f => (f.1, f.2.sorted) := by
      rw [← (sortedFields_perm gs).mem_iff, ← h, (sortedFields_perm fs).mem_iff]
      exact List.mem_map.mpr ⟨_, hv, rfl⟩
    obtain ⟨⟨k', w⟩, hw, heq⟩ := List.mem_map.mp hv
    obtain ⟨rfl, hsorted⟩ := Prod.mk.inj heq
    rw [(field?_eq_some hgs).mpr hw, Option.map_some, hsorted]
  cases hf : field? fs k with
  | some v => rw [hmem h hfs hgs v hf, Option.map_some]
  | none =>
    cases hg : field? gs k with
    | none => rfl
    | some w =>
      have := hmem h.symm hgs hfs w hg
      rw [hf] at this
      cases this

/-- An object that is given as its keys and its values. -/
theorem distinct_zip {k : List String} {v : List Json} (hk : k.Nodup)
    (hv : v.length = k.length) (h : ∀ x ∈ v, x.Distinct) : Distinct (.obj (k.zip v)) := by
  rw [Distinct, distinctFields_iff, List.map_fst_zip (Nat.le_of_eq hv.symm)]
  refine ⟨hk, ?_⟩
  intro f hf
  exact h f.2 (List.of_mem_zip hf).2

/-- Objects with the same keys that are one when sorted have the same values. -/
theorem values_of_sorted (ks : List String) (vs ws : List Json) (hks : ks.Nodup)
    (hvs : vs.length = ks.length) (hws : ws.length = ks.length)
    (h : sorted (.obj (ks.zip vs)) = sorted (.obj (ks.zip ws))) : vs.map sorted = ws.map sorted := by
  have hkeys : ∀ {us : List Json}, us.length = ks.length → (ks.zip us).map Prod.fst = ks :=
    fun hus => List.map_fst_zip (Nat.le_of_eq hus.symm)
  have hfield : ∀ {us : List Json} (hus : us.length = ks.length) (i : Nat) (hi : i < ks.length),
      field? (ks.zip us) ks[i] = some us[i] := by
    intro us hus i hi
    rw [field?_eq_some (by rw [hkeys hus]; exact hks)]
    have hzip : i < (ks.zip us).length := by
      rw [List.length_zip]
      omega
    have hmem := List.getElem_mem hzip
    rwa [List.getElem_zip] at hmem
  refine List.ext_getElem (by simp [hvs, hws]) ?_
  intro i hi hi'
  rw [List.length_map, hvs] at hi
  have hone := field_of_sorted h (by rw [hkeys hvs]; exact hks) (by rw [hkeys hws]; exact hks) ks[i]
  rw [hfield hvs i hi, hfield hws i hi] at hone
  rw [List.getElem_map, List.getElem_map]
  exact Option.some.inj hone

end Lib.Json
