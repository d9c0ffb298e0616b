import Mathlib
import Rogichat.Pricing.Model

/-!
# One price and many

`calculatePrice` and `calculatePricesForSongs` price a song by one function, but only the first
gives the free result the currencies of the channel. A free entry of the map is the single result
just when those currencies change nothing.

* **`normalizedConfigs_extract`** — sanitizing stored configurations once more changes nothing.
* **`createFreeResult_eq_iff`** — when the configurations do not matter to a free result.
-/

namespace Rogichat.Pricing

open Lib
open Live (trim isTrimmed)

variable {js : Runtime}

/-! ## Trimming -/

/-- A trim takes characters from the front and then from the back. -/
theorem trim_eq (text : String) :
    trim text = String.ofList ((text.toList.dropWhile isTrimmed).rdropWhile isTrimmed) := rfl

/-- Trimming twice trims once. -/
theorem trim_trim (text : String) : trim (trim text) = trim text := by
  have hfront : ((text.toList.dropWhile isTrimmed).rdropWhile isTrimmed).dropWhile isTrimmed =
      (text.toList.dropWhile isTrimmed).rdropWhile isTrimmed := by
    rw [List.dropWhile_eq_self_iff]
    intro hlength
    -- the first character is the one the front trim stopped at
    have hkept := List.rdropWhile_prefix isTrimmed (text.toList.dropWhile isTrimmed)
    have hpos : 0 < (text.toList.dropWhile isTrimmed).length := by
      have := hkept.length_le
      omega
    have hstop := List.dropWhile_get_zero_not isTrimmed text.toList hpos
    rw [hkept.getElem hlength]
    exact hstop
  rw [trim_eq (trim text), trim_eq text, String.toList_ofList, hfront, List.rdropWhile_idempotent]

/-! ## Configurations -/

/-- What sanitizing leaves: trimmed texts and amounts that are not negative. -/
structure CurrencyConfig.Clean (c : CurrencyConfig) : Prop where
  key : trim c.key = c.key
  key_ne : c.key ≠ ""
  unit : trim c.unit = c.unit
  unit_ne : c.unit ≠ ""
  amount : ∀ n, c.amount = some (some n) → 0 ≤ n

theorem trim_textField (fields : List (String × Stored)) (key legacyKey : String) :
    trim (textField fields key legacyKey) = textField fields key legacyKey := by
  unfold textField
  split
  · exact trim_trim _
  · exact trim_trim _
  · decide

/-- A normalized amount is not negative. -/
theorem normalizeAmount_nonneg {v : Stored} {n : Int} (h : normalizeAmount js v = some n) :
    0 ≤ n := by
  cases v with
  | num q =>
    obtain rfl := Option.some.inj h
    exact le_max_left _ _
  | str s =>
    change (if s = "" then none else _) = some n at h
    by_cases hs : s = ""
    · rw [if_pos hs] at h
      exact absurd h (Option.some_ne_none _).symm
    · rw [if_neg hs, Option.map_eq_some_iff] at h
      obtain ⟨q, -, rfl⟩ := h
      exact le_max_left _ _
  | _ => exact absurd h (Option.some_ne_none _).symm

/-- A configuration that is read is clean. -/
theorem currencyConfig_clean {v : Stored} {c : CurrencyConfig}
    (h : currencyConfig? js v = some c) : c.Clean := by
  cases v with
  | obj fields =>
    simp only [currencyConfig?] at h
    by_cases hempty : textField fields "key" "currencyKey" = "" ∨
        textField fields "unit" "currencyUnit" = ""
    · rw [if_pos hempty] at h
      exact absurd h (Option.some_ne_none _).symm
    · rw [if_neg hempty] at h
      obtain rfl := Option.some.inj h
      obtain ⟨hkey, hunit⟩ := not_or.mp hempty
      refine ⟨trim_textField _ _ _, hkey, trim_textField _ _ _, hunit, fun n hn => ?_⟩
      obtain ⟨v, -, hv⟩ := Option.map_eq_some_iff.mp hn
      exact normalizeAmount_nonneg hv
  | _ => exact absurd h (Option.some_ne_none _).symm

theorem normalizeAmount_stored {amount : Option Int} (h : ∀ n, amount = some n → 0 ≤ n) :
    normalizeAmount js (amountStored amount) = amount := by
  cases amount with
  | none => rfl
  | some n =>
    show some (max 0 (n : Rat).floor) = some n
    rw [Rat.floor_intCast, max_eq_right (h n rfl)]

/-- A clean configuration is read back as it is. -/
theorem currencyConfig_stored {c : CurrencyConfig} (h : c.Clean) :
    currencyConfig? js c.stored = some c := by
  have hkey : textField ([("key", .str c.key), ("unit", .str c.unit)] ++
      (c.amount.map fun amount => ("amount", amountStored amount)).toList) "key" "currencyKey" =
      c.key := h.key
  have hunit : textField ([("key", .str c.key), ("unit", .str c.unit)] ++
      (c.amount.map fun amount => ("amount", amountStored amount)).toList) "unit" "currencyUnit" =
      c.unit := h.unit
  show (if _ = "" ∨ _ = "" then none else some _) = some c
  rw [hkey, hunit, if_neg (not_or.mpr ⟨h.key_ne, h.unit_ne⟩)]
  obtain ⟨key, unit, amount⟩ := c
  cases amount with
  | none => rfl
  | some amount =>
    have hamount : normalizeAmount js (amountStored amount) = amount :=
      normalizeAmount_stored fun n hn => h.amount n (congrArg some hn)
    show some ({ key, unit, amount := some (normalizeAmount js (amountStored amount)) } :
      CurrencyConfig) = _
    rw [hamount]

/-- Sanitized configurations are clean. -/
theorem sanitize_clean {raw : List Stored} {c : CurrencyConfig}
    (h : c ∈ sanitizeCurrencyConfigs js raw) : c.Clean := by
  obtain ⟨v, -, hv⟩ := List.mem_filterMap.mp (Keyed.mem_of_mem_ofList h)
  exact currencyConfig_clean hv

/-- The configurations of a channel are clean and repeat no key. -/
theorem extract_configs (stored : Option Stored) :
    (∀ c ∈ (extractStoredPricingData js stored).currencyConfigs, c.Clean) ∧
      ((extractStoredPricingData js stored).currencyConfigs.map CurrencyConfig.key).Nodup := by
  unfold extractStoredPricingData
  split
  · dsimp only
    split
    · exact ⟨fun c hc => sanitize_clean hc, Keyed.nodup_ofList _⟩
    · exact ⟨fun c hc => absurd hc List.not_mem_nil, List.nodup_nil⟩
  · exact ⟨fun c hc => absurd hc List.not_mem_nil, List.nodup_nil⟩

/-- Sanitizing clean configurations once more changes nothing. -/
theorem normalizedConfigs_clean {configs : List CurrencyConfig} (hclean : ∀ c ∈ configs, c.Clean)
    (hnodup : (configs.map CurrencyConfig.key).Nodup) : normalizedConfigs js configs = configs := by
  have hread : (configs.map CurrencyConfig.stored).filterMap (currencyConfig? js) = configs := by
    rw [List.filterMap_map]
    calc configs.filterMap (currencyConfig? js ∘ CurrencyConfig.stored)
        = configs.filterMap some :=
          List.filterMap_congr fun c hc => currencyConfig_stored (hclean c hc)
      _ = configs := List.filterMap_some
  rw [normalizedConfigs, sanitizeCurrencyConfigs, hread, Keyed.ofList_of_nodup hnodup]

/-! ## The free result -/

/-- The configurations give the platform's own currency the platform's own unit. -/
def Standard (platform : Option StreamPlatform) (configs : List CurrencyConfig) : Prop :=
  ∃ key ∈ platform.bind PLATFORM_DEFAULT_CURRENCY_KEYS, ∃ c ∈ configs,
    c.key = key ∧ c.unit = getCurrencyUnit platform

/-- Without configurations the platform decides. -/
theorem freeResult_plain (platform : Option StreamPlatform) :
    createFreeResult js platform none none =
      { price := none, source := .free
        currencyKey := platform.bind PLATFORM_DEFAULT_CURRENCY_KEYS
        currencyUnit := getCurrencyUnit platform, formattedPrice := "" } := by
  have hnone : normalizedConfigs js [] = [] := rfl
  have hkey : resolvePricingCurrencyKey js platform [] [] =
      platform.bind PLATFORM_DEFAULT_CURRENCY_KEYS := by
    simp [resolvePricingCurrencyKey, hnone, List.reduceOption]
  have hunit : ∀ key, getUnitByCurrencyKey js key [] = "" := by
    intro key
    unfold getUnitByCurrencyKey
    cases truthy key with
    | none => rfl
    | some key => rfl
  simp [createFreeResult, hkey, getPrimaryCurrencyUnit, hunit, hnone]

section Configured

variable {platform : Option StreamPlatform} {c : CurrencyConfig} {cs : List CurrencyConfig}

/-- With configurations the platform's key is taken if it is configured, else the first one. -/
theorem resolve_configured (hnormal : normalizedConfigs js (c :: cs) = c :: cs) :
    resolvePricingCurrencyKey js platform (c :: cs) [] =
      if ∃ key ∈ platform.bind PLATFORM_DEFAULT_CURRENCY_KEYS,
          key ∈ (c :: cs).map CurrencyConfig.key then
        platform.bind PLATFORM_DEFAULT_CURRENCY_KEYS
      else some c.key := by
  simp only [resolvePricingCurrencyKey, hnormal]
  rfl

/-- The unit of a configured key. -/
theorem unit_configured (hnormal : normalizedConfigs js (c :: cs) = c :: cs)
    (hclean : ∀ d ∈ c :: cs, d.Clean) (hnodup : ((c :: cs).map CurrencyConfig.key).Nodup)
    {d : CurrencyConfig} (hd : d ∈ c :: cs) :
    getPrimaryCurrencyUnit js platform (c :: cs) (some d.key) = d.unit := by
  have hunit : getUnitByCurrencyKey js (some d.key) (c :: cs) = d.unit := by
    have htruthy : truthy (some d.key) = some d.key := by
      rw [truthy, Option.filter_some, if_pos (by simpa using (hclean d hd).key_ne)]
    simp only [getUnitByCurrencyKey, htruthy, hnormal, Keyed.at?_of_mem hnodup hd,
      Option.map_some, Option.getD_some]
  simp only [getPrimaryCurrencyUnit, hunit, ne_eq, (hclean d hd).unit_ne, not_false_eq_true,
    if_true]

end Configured

/-- A free result forgets the configurations just when they are none or standard. -/
theorem createFreeResult_eq_iff {platform : Option StreamPlatform} {configs : List CurrencyConfig}
    (hclean : ∀ c ∈ configs, c.Clean) (hnodup : (configs.map CurrencyConfig.key).Nodup) :
    createFreeResult js platform (some configs) none = createFreeResult js platform none none ↔
      configs = [] ∨ Standard platform configs := by
  have hnormal := @normalizedConfigs_clean js configs hclean hnodup
  cases configs with
  | nil => exact ⟨fun _ => .inl rfl, fun _ => rfl⟩
  | cons c cs =>
    rw [freeResult_plain, createFreeResult]
    simp only [Option.getD_some, Option.none_or, CalculatedPriceResult.mk.injEq, true_and,
      and_true, resolve_configured hnormal]
    by_cases hkey : ∃ key ∈ platform.bind PLATFORM_DEFAULT_CURRENCY_KEYS,
        key ∈ (c :: cs).map CurrencyConfig.key
    · simp only [if_pos hkey, true_and]
      obtain ⟨key, hmem, hconfigured⟩ := hkey
      obtain ⟨d, hd, rfl⟩ := List.mem_map.mp hconfigured
      rw [Option.mem_def.mp hmem, unit_configured hnormal hclean hnodup hd]
      constructor
      · intro hunit
        exact .inr ⟨d.key, hmem, d, hd, rfl, hunit⟩
      · rintro (hempty | ⟨key, hmem', e, he, rfl, hunit⟩)
        · cases hempty
        · have hsame : e.key = d.key := Option.some.inj (hmem'.symm.trans hmem)
          have hread := Keyed.at?_of_mem hnodup he
          rw [hsame, Keyed.at?_of_mem hnodup hd] at hread
          rw [Option.some.inj hread, hunit]
    · simp only [if_neg hkey]
      constructor
      · rintro ⟨heq, -⟩
        exact absurd ⟨c.key, heq.symm, by simp⟩ hkey
      · rintro (hempty | ⟨key, hmem, d, hd, rfl, -⟩)
        · cases hempty
        · exact absurd ⟨d.key, hmem, List.mem_map_of_mem hd⟩ hkey

/-! ## The map -/

/-- The preloaded songs are read as the song table is. -/
theorem songMap_at? (songs : Table SongForPricing) {ids : List Nat} {id : Nat} (hid : id ∈ ids) :
    Keyed.at? SongForPricing.id
        (Keyed.ofList SongForPricing.id (songs.select fun song => song.id ∈ ids)) id =
      songs.find? fun song => song.id = id := by
  have hrows : (songs.rows.map SongForPricing.id).Nodup := by
    rw [List.Nodup, List.pairwise_map]
    refine songs.unique.imp fun hclash heq => hclash ?_
    exact ⟨_, List.mem_cons_self, heq ▸ List.mem_cons_self⟩
  have hselect : ((songs.select fun song => song.id ∈ ids).map SongForPricing.id).Nodup :=
    hrows.sublist (List.filter_sublist.map _)
  rw [Keyed.ofList_of_nodup hselect]
  cases hfound : songs.find? fun song => song.id = id with
  | none =>
    rw [Keyed.at?_eq_none]
    intro song hsong
    exact Table.find?_eq_none.mp hfound song (Table.mem_select.mp hsong).1
  | some song =>
    have hsongid : song.id = id :=
      Table.holds_of_find? (p := fun song : SongForPricing => song.id = id) hfound
    have hmem : song ∈ songs.select fun song => song.id ∈ ids :=
      Table.mem_select.mpr ⟨Table.mem_of_find? hfound, hsongid ▸ hid⟩
    rw [← hsongid]
    exact Keyed.at?_of_mem hselect hmem

/-- What the map holds for a song. -/
def batchEntry (js : Runtime) (store : PricingStore) (channelId : Uuid) (songId : Nat) :
    CalculatedPriceResult :=
  let platform := getChannelPlatform store channelId
  match (store.channelPricingSettings channelId).filter fun settings => settings.pricingEnabled with
  | none => createFreeResult js platform none none
  | some settings =>
    match store.songs.find? fun song => song.id = songId with
    | some song => calculatePriceForSong js song settings platform
    | none => createFreeResult js platform none none

variable {store : PricingStore} {channelId : Uuid} {songIds : List Nat}

/-- The batch has the entry of each song on its own. -/
theorem batch_eq : calculatePricesForSongs js store songIds channelId =
    Keyed.ofList Prod.fst (songIds.map fun id => (id, batchEntry js store channelId id)) := by
  unfold calculatePricesForSongs batchEntry
  cases (store.channelPricingSettings channelId).filter fun settings => settings.pricingEnabled with
  | none => rfl
  | some settings =>
    dsimp only
    congr 1
    refine List.map_congr_left fun id hid => ?_
    rw [songMap_at? store.songs hid]
    cases store.songs.find? fun song => song.id = id with
    | none => rfl
    | some song => rfl

/-- The configurations of the channel. -/
def channelConfigs (js : Runtime) (store : PricingStore) (channelId : Uuid) :
    List CurrencyConfig :=
  match store.channelPricingSettings channelId with
  | none => []
  | some settings => (extractStoredPricingData js settings.difficultyPrices).currencyConfigs

/-- The song is priced, or the channel has no configurations but the platform's own. -/
def Harmless (js : Runtime) (store : PricingStore) (channelId : Uuid) (songId : Nat) : Prop :=
  (∃ settings, store.channelPricingSettings channelId = some settings ∧
    settings.pricingEnabled = true ∧ store.songs.Has fun song => song.id = songId) ∨
  channelConfigs js store channelId = [] ∨
  Standard (getChannelPlatform store channelId) (channelConfigs js store channelId)

/-- An entry of the batch is the single result exactly when the configurations are harmless. -/
theorem batchEntry_eq_iff (songId : Nat) :
    batchEntry js store channelId songId = calculatePrice js store songId channelId ↔
      Harmless js store channelId songId := by
  unfold batchEntry calculatePrice Harmless channelConfigs
  cases hsettings : store.channelPricingSettings channelId with
  | none => exact ⟨fun _ => .inr (.inl rfl), fun _ => rfl⟩
  | some settings =>
    obtain ⟨hclean, hnodup⟩ := @extract_configs js settings.difficultyPrices
    have hfree :=
      @createFreeResult_eq_iff js (getChannelPlatform store channelId) _ hclean hnodup
    by_cases henabled : settings.pricingEnabled
    · simp only [Option.filter_some, henabled, if_true]
      cases hfound : store.songs.find? fun song => song.id = songId with
      | none =>
        simp only
        rw [eq_comm, hfree]
        refine (or_iff_right ?_).symm
        rintro ⟨_, -, -, song, hsong, hid⟩
        exact Table.find?_eq_none.mp hfound song hsong hid
      | some song =>
        have hhas : store.songs.Has fun song => song.id = songId :=
          ⟨song, Table.mem_of_find? hfound,
            Table.holds_of_find? (p := fun song : SongForPricing => song.id = songId) hfound⟩
        exact ⟨fun _ => .inl ⟨settings, rfl, henabled, hhas⟩, fun _ => rfl⟩
    · simp only [Option.filter_some, henabled, Bool.false_eq_true, if_false]
      rw [eq_comm, hfree]
      refine (or_iff_right ?_).symm
      rintro ⟨settings', heq, henabled', -⟩
      obtain rfl := Option.some.inj heq
      exact henabled henabled'

/-- The map has one entry for each id, and the entries are the single results just when no free
one of them depends on the configurations. -/
theorem batch_eq_single_iff (js : Runtime) (store : PricingStore) (channelId : Uuid)
    (songIds : List Nat) :
    ((calculatePricesForSongs js store songIds channelId).map Prod.fst).Nodup ∧
      (∀ id, id ∈ (calculatePricesForSongs js store songIds channelId).map Prod.fst ↔
        id ∈ songIds) ∧
      ((∀ id ∈ songIds, Keyed.at? Prod.fst (calculatePricesForSongs js store songIds channelId) id =
          some (id, calculatePrice js store id channelId)) ↔
        ∀ id ∈ songIds, Harmless js store channelId id) := by
  rw [batch_eq]
  refine ⟨Keyed.nodup_ofList _, fun id => ?_, ?_⟩
  · have hread := Keyed.at?_ofList_map (batchEntry js store channelId) songIds id
    constructor
    · intro hmem
      by_contra hnot
      rw [if_neg hnot, Keyed.at?_eq_none] at hread
      obtain ⟨e, he, heq⟩ := List.mem_map.mp hmem
      exact hread e he heq
    · intro hid
      rw [if_pos hid] at hread
      exact List.mem_map.mpr ⟨_, (Keyed.mem_of_at? hread).1, rfl⟩
  · refine forall₂_congr fun id hid => ?_
    rw [Keyed.at?_ofList_map, if_pos hid, ← batchEntry_eq_iff id]
    simp only [Option.some.injEq, Prod.mk.injEq, true_and]

/-- A channel that renamed its balloons and does not charge. -/
def renamedBalloons : PricingStore where
  channelPricingSettings _ := some { difficultyPrices := some (.obj [("__currencyConfigs",
    .arr [.obj [("key", .str "SOOP_BALLOON"), ("unit", .str "하트")]])]) }
  rooms _ := true
  songs := .empty

/-- The song's page shows the channel's unit, the list page the platform's. -/
theorem units_differ : ¬∀ js store channelId songIds, ∀ id ∈ songIds,
    Keyed.at? Prod.fst (calculatePricesForSongs js store songIds channelId) id =
      some (id, calculatePrice js store id channelId) := by
  intro hclaim
  let js : Runtime := ⟨fun _ => none, toString⟩
  have hbatch : (Keyed.at? Prod.fst (calculatePricesForSongs js renamedBalloons [1] 7) 1).map
      (fun e => e.2.currencyUnit) = some "별풍선" := rfl
  have hsingle : (calculatePrice js renamedBalloons 1 7).currencyUnit = "하트" := by
    decide +kernel
  rw [hclaim js renamedBalloons 7 [1] 1 List.mem_cons_self, Option.map_some, hsingle] at hbatch
  exact absurd hbatch (by decide)

end Rogichat.Pricing
