import Rogichat.Lib.Keyed
import Rogichat.Lib.Table
import Rogichat.Live.Model
import Rogichat.SongLive.Model

/-!
# Song prices

`currency-unit.util.ts` and the price calculation of `song-pricing.service.ts`. The stored columns
are JSON values whose object fields stand in the order `Object.entries` gives, none of them called
`__proto__`; `Number(text)` and `String(number)` are the runtime's.
-/

namespace Rogichat.Pricing

open Lib
open Live (trim)
open SongLive (PriceSource)

/-! ## Stored values -/

/-- A value of a JSON column. -/
inductive Stored
  | null
  | bool (b : Bool)
  | num (q : Rat)
  | str (s : String)
  | arr (items : List Stored)
  | obj (fields : List (String × Stored))

/-- What the runtime makes of numbers: `Number(text)` where it is finite, and `String(number)`. -/
structure Runtime where
  number : String → Option Rat
  text : Int → String

/-- An own property. -/
def field? (fields : List (String × Stored)) (key : String) : Option Stored :=
  (Keyed.at? Prod.fst fields key).map Prod.snd

/-- An object without properties counts as none. -/
def nonEmpty {α : Type} (entries : List α) : Option (List α) :=
  if entries.isEmpty then none else some entries

/-- The keys `Object.keys` lists first, and in their order as numbers. -/
def arrayIndex? (key : String) : Option Nat :=
  key.toNat?.bind fun n => if toString n = key ∧ n < 4294967295 then some n else none

/-- `Object.keys(map)[0]`. -/
def firstKey {α : Type} (entries : List (String × α)) : Option String :=
  match (entries.filterMap fun e => arrayIndex? e.1).min? with
  | some n => some (toString n)
  | none => entries.head?.map Prod.fst

/-- A text that counts as true. -/
def truthy (text : Option String) : Option String := text.filter fun s => s ≠ ""

/-! ## Currencies -/

inductive StreamPlatform
  | soop | chzzk | cime | youtube | meloming | other
  deriving DecidableEq, Repr

/-- `CURRENCY_UNITS`. -/
def CURRENCY_UNITS : StreamPlatform → String
  | .soop => "별풍선"
  | .chzzk => "치즈"
  | .cime => "빔"
  | .youtube | .meloming | .other => ""

/-- `PLATFORM_DEFAULT_CURRENCY_KEYS`. -/
def PLATFORM_DEFAULT_CURRENCY_KEYS : StreamPlatform → Option String
  | .soop => some "SOOP_BALLOON"
  | .chzzk => some "CHZZK_CHEESE"
  | .cime => some "CIME_BEAM"
  | .youtube | .meloming | .other => none

abbrev CurrencyPriceMap := List (String × Option Int)

abbrev DifficultyPrices := List (String × Option Int)

/-- Prices by difficulty, for each currency. -/
abbrev DifficultyPricesByCurrency := List (String × Option DifficultyPrices)

structure CurrencyConfig where
  key : String
  unit : String
  amount : Option (Option Int) := none
  deriving DecidableEq, Repr

/-- An amount as a whole number that is not negative. -/
def normalizeAmount (js : Runtime) : Stored → Option Int
  | .num q => some (max 0 q.floor)
  | .str s => if s = "" then none else (js.number s).map fun q => max 0 q.floor
  | _ => none

def normalizeDifficultyPrices (js : Runtime) : Stored → Option DifficultyPrices
  | .obj fields => nonEmpty (["1", "2", "3", "4", "5"].filterMap fun level =>
      (field? fields level).map fun v => (level, normalizeAmount js v))
  | _ => none

/-- The entries under trimmed keys, as an object keeps them. -/
def trimmedEntries {α : Type} (f : Stored → α) (fields : List (String × Stored)) :
    List (String × α) :=
  Keyed.ofList Prod.fst
    (fields.filterMap fun e => if trim e.1 = "" then none else some (trim e.1, f e.2))

/-- The prices under trimmed currency keys. -/
def sanitizeCurrencyPriceMap (js : Runtime) : Stored → Option CurrencyPriceMap
  | .obj fields => nonEmpty (trimmedEntries (normalizeAmount js) fields)
  | _ => none

/-- The prices by difficulty under trimmed currency keys. -/
def sanitizeDifficultyPricesByCurrency (js : Runtime) :
    Stored → Option DifficultyPricesByCurrency
  | .obj fields => nonEmpty (trimmedEntries (normalizeDifficultyPrices js) fields)
  | _ => none

/-- The text of a property, or of the one it used to be. -/
def textField (fields : List (String × Stored)) (key legacyKey : String) : String :=
  match field? fields key, field? fields legacyKey with
  | some (.str s), _ => trim s
  | _, some (.str s) => trim s
  | _, _ => ""

/-- A configuration as it is read, under its new or its old key. -/
def currencyConfig? (js : Runtime) : Stored → Option CurrencyConfig
  | .obj fields =>
    let key := textField fields "key" "currencyKey"
    let unit := textField fields "unit" "currencyUnit"
    if key = "" ∨ unit = "" then none
    else some { key, unit, amount := (field? fields "amount").map (normalizeAmount js) }
  | _ => none

/-- The configurations that can be read. -/
def sanitizeCurrencyConfigs (js : Runtime) (currencyConfigs : List Stored) :
    List CurrencyConfig :=
  Keyed.ofList CurrencyConfig.key (currencyConfigs.filterMap (currencyConfig? js))

def amountStored : Option Int → Stored
  | some n => .num n
  | none => .null

/-- A configuration as the value it is. -/
def CurrencyConfig.stored (c : CurrencyConfig) : Stored :=
  .obj ([("key", .str c.key), ("unit", .str c.unit)] ++
    (c.amount.map fun amount => ("amount", amountStored amount)).toList)

/-- `sanitizeCurrencyConfigs` of configurations, which every reader applies once more. -/
def normalizedConfigs (js : Runtime) (currencyConfigs : List CurrencyConfig) :
    List CurrencyConfig :=
  sanitizeCurrencyConfigs js (currencyConfigs.map CurrencyConfig.stored)

def getCurrencyUnit (platform : Option StreamPlatform) : String :=
  (platform.map CURRENCY_UNITS).getD ""

def getUnitByCurrencyKey (js : Runtime) (currencyKey : Option String)
    (currencyConfigs : List CurrencyConfig) : String :=
  match truthy currencyKey with
  | none => ""
  | some key =>
    ((Keyed.at? CurrencyConfig.key (normalizedConfigs js currencyConfigs) key).map
      CurrencyConfig.unit).getD ""

/-- What is stored of the prices. -/
structure PricingData where
  difficultyPrices : Option DifficultyPrices
  difficultyPricesByCurrency : Option DifficultyPricesByCurrency
  defaultPrices : Option CurrencyPriceMap
  currencyConfigs : List CurrencyConfig

/-- What can be read of the stored prices. -/
def extractStoredPricingData (js : Runtime) : Option Stored → PricingData
  | some (.obj stored) =>
    { difficultyPrices := normalizeDifficultyPrices js (.obj stored)
      difficultyPricesByCurrency :=
        (field? stored "__difficultyPricesByCurrency").bind
          (sanitizeDifficultyPricesByCurrency js)
      defaultPrices := (field? stored "__defaultPrices").bind (sanitizeCurrencyPriceMap js)
      currencyConfigs :=
        match field? stored "__currencyConfigs" with
        | some (.arr rawCurrencyConfigs) => sanitizeCurrencyConfigs js rawCurrencyConfigs
        | _ => [] }
  | _ => ⟨none, none, none, []⟩

/-- The key the prices are looked up under. -/
def resolvePricingCurrencyKey (js : Runtime) (platform : Option StreamPlatform)
    (currencyConfigs : List CurrencyConfig) (priceMaps : List (Option CurrencyPriceMap)) :
    Option String :=
  let configuredKeys := (normalizedConfigs js currencyConfigs).map CurrencyConfig.key
  let preferred := platform.bind PLATFORM_DEFAULT_CURRENCY_KEYS
  if ∃ key ∈ preferred, key ∈ configuredKeys then preferred
  else match configuredKeys with
    | key :: _ => some key
    | [] =>
      if ∃ key ∈ preferred, ∃ map ∈ priceMaps.reduceOption, key ∈ map.map Prod.fst then preferred
      else ((priceMaps.reduceOption.filterMap firstKey).find? fun key => key ≠ "").or preferred

/-- The unit a price is shown in. -/
def getPrimaryCurrencyUnit (js : Runtime) (platform : Option StreamPlatform)
    (currencyConfigs : List CurrencyConfig) (currencyKey : Option String) : String :=
  let unit := getUnitByCurrencyKey js currencyKey currencyConfigs
  if unit ≠ "" then unit
  else match normalizedConfigs js currencyConfigs with
    | config :: _ => config.unit
    | [] => getCurrencyUnit platform

def formatPriceByCurrencyKey (js : Runtime) (price : Option Int) (currencyKey : Option String)
    (currencyConfigs : List CurrencyConfig) (platform : Option StreamPlatform) : String :=
  match price with
  | none => ""
  | some price =>
    let unit := getUnitByCurrencyKey js currencyKey currencyConfigs
    js.text price ++ if unit ≠ "" then unit else getCurrencyUnit platform

/-! ## Rows -/

structure ChannelPricingSettings where
  defaultPrice : Option Int := none
  difficultyPrices : Option Stored := none
  pricingEnabled : Bool := false

structure CategoryForPricing where
  id : Nat
  price : Option Int := none
  currencyPrices : Stored := .null

structure SongForPricing where
  id : Nat
  price : Option Int := none
  currencyPrices : Stored := .null
  difficulty : Option Int := none
  songCategories : List CategoryForPricing := []

instance : Row SongForPricing where
  Key := Nat
  decEq := inferInstance
  keys song := [song.id]
  keyed _ := List.cons_ne_nil _ _

/-- The tables a price is calculated from. -/
structure PricingStore where
  channelPricingSettings : Uuid → Option ChannelPricingSettings
  rooms : Uuid → Bool
  songs : Table SongForPricing

/-- What a song costs, and where the price is from. -/
structure CalculatedPriceResult where
  price : Option Int
  source : PriceSource
  currencyKey : Option String
  currencyUnit : String
  formattedPrice : String
  deriving DecidableEq, Repr

/-! ## The price of a song -/

/-- The price of a currency, or the old single price. -/
def getPriceByCurrencyOrLegacy (map : Option CurrencyPriceMap) (currencyKey : Option String)
    (legacyPrice : Option Int) : Option Int :=
  match (truthy currencyKey).bind fun key => map.bind fun map => Keyed.at? Prod.fst map key with
  | some (_, price) => price
  | none => legacyPrice

/-- The price of a difficulty, or the old one. -/
def getDifficultyPrice (difficulty : Option Int) (currencyKey : Option String)
    (legacyPrices : Option DifficultyPrices)
    (pricesByCurrency : Option DifficultyPricesByCurrency) : Option Int :=
  match difficulty with
  | none => none
  | some difficulty =>
    let level := toString difficulty
    let byCurrency := (truthy currencyKey).bind fun key =>
      (pricesByCurrency.bind fun prices => Keyed.at? Prod.fst prices key).bind Prod.snd
    match byCurrency.bind fun prices => Keyed.at? Prod.fst prices level with
    | some (_, price) => price
    | none => (legacyPrices.bind fun prices => Keyed.at? Prod.fst prices level).bind Prod.snd

/-- The highest price of the categories. -/
def getMaxCategoryPrice (js : Runtime) (categories : List CategoryForPricing)
    (currencyKey : Option String) : Option Int :=
  match categories.filterMap fun category => getPriceByCurrencyOrLegacy
      (sanitizeCurrencyPriceMap js category.currencyPrices) currencyKey category.price with
  | [] => none
  | price :: prices => some (prices.foldl max price)

def createResult (js : Runtime) (price : Int) (source : PriceSource) (currencyKey : Option String)
    (currencyUnit : String) (platform : Option StreamPlatform)
    (currencyConfigs : List CurrencyConfig) : CalculatedPriceResult :=
  { price := some price, source, currencyKey, currencyUnit
    formattedPrice := formatPriceByCurrencyKey js (some price) currencyKey currencyConfigs platform }

def createFreeResult (js : Runtime) (platform : Option StreamPlatform)
    (currencyConfigs : Option (List CurrencyConfig)) (currencyKey : Option String) :
    CalculatedPriceResult :=
  let resolvedKey :=
    currencyKey.or (resolvePricingCurrencyKey js platform (currencyConfigs.getD []) [])
  { price := none
    source := .free
    currencyKey := resolvedKey
    currencyUnit := getPrimaryCurrencyUnit js platform (currencyConfigs.getD []) resolvedKey
    formattedPrice := "" }

/-- The song's own price, the higher one of difficulty and category, the default, or free. -/
def calculatePriceForSong (js : Runtime) (song : SongForPricing)
    (settings : ChannelPricingSettings) (platform : Option StreamPlatform) :
    CalculatedPriceResult :=
  let pricingData := extractStoredPricingData js settings.difficultyPrices
  let categoryPriceMaps :=
    song.songCategories.map fun category => sanitizeCurrencyPriceMap js category.currencyPrices
  let currencyKey := resolvePricingCurrencyKey js platform pricingData.currencyConfigs
    (sanitizeCurrencyPriceMap js song.currencyPrices ::
      (categoryPriceMaps ++ [pricingData.defaultPrices]))
  let currencyUnit :=
    getPrimaryCurrencyUnit js platform pricingData.currencyConfigs currencyKey
  let result := fun price source =>
    createResult js price source currencyKey currencyUnit platform pricingData.currencyConfigs
  match getPriceByCurrencyOrLegacy (sanitizeCurrencyPriceMap js song.currencyPrices) currencyKey
      song.price with
  | some songPrice => result songPrice .song
  | none =>
    match getDifficultyPrice song.difficulty currencyKey pricingData.difficultyPrices
        pricingData.difficultyPricesByCurrency,
      getMaxCategoryPrice js song.songCategories currencyKey with
    | some difficultyPrice, some categoryPrice =>
      if categoryPrice ≤ difficultyPrice then result difficultyPrice .difficulty
      else result categoryPrice .category
    | some difficultyPrice, none => result difficultyPrice .difficulty
    | none, some categoryPrice => result categoryPrice .category
    | none, none =>
      match getPriceByCurrencyOrLegacy pricingData.defaultPrices currencyKey
          settings.defaultPrice with
      | some defaultPrice => result defaultPrice .default
      | none => createFreeResult js platform (some pricingData.currencyConfigs) currencyKey

/-- The platform of a channel that has a room. -/
def getChannelPlatform (store : PricingStore) (channelId : Uuid) : Option StreamPlatform :=
  if store.rooms channelId then some .soop else none

/-- `calculatePrice`. -/
def calculatePrice (js : Runtime) (store : PricingStore) (songId : Nat) (channelId : Uuid) :
    CalculatedPriceResult :=
  let platform := getChannelPlatform store channelId
  match store.channelPricingSettings channelId with
  | none => createFreeResult js platform (some []) none
  | some settings =>
    let pricingData := extractStoredPricingData js settings.difficultyPrices
    if settings.pricingEnabled then
      match store.songs.find? fun song => song.id = songId with
      | none => createFreeResult js platform (some pricingData.currencyConfigs) none
      | some song => calculatePriceForSong js song settings platform
    else createFreeResult js platform (some pricingData.currencyConfigs) none

/-- `calculatePricesForSongs`: a map, its entries in the order in which their keys came. -/
def calculatePricesForSongs (js : Runtime) (store : PricingStore) (songIds : List Nat)
    (channelId : Uuid) : List (Nat × CalculatedPriceResult) :=
  let platform := getChannelPlatform store channelId
  match (store.channelPricingSettings channelId).filter fun settings => settings.pricingEnabled with
  | none =>
    let freeResult := createFreeResult js platform none none
    Keyed.ofList Prod.fst (songIds.map fun songId => (songId, freeResult))
  | some settings =>
    let songs := store.songs.select fun song => song.id ∈ songIds
    let songMap := Keyed.ofList SongForPricing.id songs
    Keyed.ofList Prod.fst (songIds.map fun songId =>
      match Keyed.at? SongForPricing.id songMap songId with
      | some song => (songId, calculatePriceForSong js song settings platform)
      | none => (songId, createFreeResult js platform none none))

end Rogichat.Pricing
