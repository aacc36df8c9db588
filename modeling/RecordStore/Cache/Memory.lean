import RecordStore.Cache.Address
import RecordStore.Config.Basic

/-! # The cache in memory

Each bin keeps its entries in the order of their last use and drops the least recently used one when
a new entry does not fit.  Looking up and storing use an entry; removing and listing do not.  After
a shutdown the cache is empty and stays empty.  The operations on one bin leave the others alone.

An entry expires when the lifetime of its category is over.  An expired entry is not listed, and
looking it up drops it and finds nothing; until then it stays in its bin and takes up room there.
The cache has a clock, which stands still during an operation and moves on between operations
(`MemoryCache.later`).

The cache numbers what is stored in it, so that the age of an entry can be told: of two entries the
one with the greater number was stored later.  What an operation does to the entries is said by
`MemoryCache.entryAt?_lookup`, `MemoryCache.entryAt?_remove` and `MemoryCache.entryAt?_of_store` for
all of them, and by `MemoryCache.freshAt?_lookup` and its siblings for those that have not expired.
-/

namespace RecordStore

/-- What an entry is, which decides how long it lives. -/
inductive CacheCategory where
  | record
  | shortKeys
  | longKeys
  | wholeResult
deriving DecidableEq

/-- A value in the cache with the number of the store that put it there. -/
structure CacheEntry where
  value : CacheValue
  number : Nat
  /-- The time at which the entry expires, if it does. -/
  expiresAt : Option Nat
deriving DecidableEq

/-- The entry has expired by this time. -/
def CacheEntry.isExpired (e : CacheEntry) (now : Nat) : Bool := e.expiresAt.any (· ≤ now)

/-- What has not expired had not expired earlier. -/
theorem CacheEntry.isExpired_mono {e : CacheEntry} {earlier later : Nat} (h : earlier ≤ later)
    (hlater : e.isExpired later = false) : e.isExpired earlier = false := by
  unfold isExpired at hlater ⊢
  cases he : e.expiresAt with
  | none => rfl
  | some t =>
    rw [he] at hlater
    simp only [Option.any_some, decide_eq_false_iff_not] at hlater ⊢
    omega

/-- The entries of a bin, the most recently used first. -/
abbrev Bin := List (List Value × CacheEntry)

namespace Bin

variable (b : Bin)

/-- The entry under a key. -/
def find? (key : List Value) : Option CacheEntry := b.lookup key

/-- The bin without the entry of a key. -/
def erase (key : List Value) : Bin := b.filter (·.1 ≠ key)

/-- The bin with the entry under the key as its most recently used one. -/
def touch (key : List Value) (entry : CacheEntry) : Bin := (key, entry) :: b.erase key

/-- The bin after looking a key up: an entry that is found is used, an expired one is dropped. -/
def lookedUp (now : Nat) (key : List Value) : Bin :=
  match b.find? key with
  | some entry => if entry.isExpired now then b.erase key else b.touch key entry
  | none => b

/-- A new entry would not fit. -/
def isFull (capacity : Nat) : Bool := decide (capacity ≤ b.length)

/-- Storing under the key drops the least recently used entry. -/
def evicts (capacity : Nat) (key : List Value) : Bool :=
  b.isFull capacity && (b.find? key).isNone

/-- The bin after storing an entry under a key. -/
def store (capacity : Nat) (key : List Value) (entry : CacheEntry) : Bin :=
  if b.evicts capacity key then (key, entry) :: b.dropLast else b.touch key entry

/-- The keys of the entries, the most recently used first. -/
def keys : List (List Value) := b.map (·.1)

/-- The entries that have not expired by a time. -/
def fresh (now : Nat) : Bin := b.filter fun p => !p.2.isExpired now

end Bin

/-- A cache in memory.  Lifetimes are in seconds, and entries without one do not expire. -/
structure MemoryCache where
  /-- The greatest number of entries of a bin. -/
  capacity : Nat
  recordTtl : Nat
  shortTtl : Nat
  longTtl : Nat
  /-- The time in nanoseconds. -/
  now : Nat
  bins : List (String × Bin)
  /-- How many values were stored, which is the number of the last entry. -/
  stores : Nat
  hits : Nat
  misses : Nat
  evictions : Nat
  isShutDown : Bool

/-- What of a cache stays the same while entries come and go. -/
structure CacheSettings where
  capacity : Nat
  recordTtl : Nat
  shortTtl : Nat
  longTtl : Nat
  isShutDown : Bool
deriving DecidableEq

/-- The counters of a cache. -/
structure CacheStats where
  bins : Nat
  entries : Nat
  hits : Nat
  misses : Nat
  evictions : Nat
deriving DecidableEq

namespace MemoryCache

/-- The empty cache that settings describe.  A bin has room for one entry at least. -/
def ofConfig (config : CacheConfig) : MemoryCache where
  capacity := max config.maxEntriesPerBin 1
  recordTtl := config.recordTtl
  shortTtl := config.shortTtl
  longTtl := config.longTtl
  now := 0
  bins := []
  stores := 0
  hits := 0
  misses := 0
  evictions := 0
  isShutDown := false

/-- An empty cache with room for so many entries in a bin, with the usual lifetimes. -/
def new (maxEntriesPerBin : Nat) : MemoryCache := ofConfig { maxEntriesPerBin }

variable (c : MemoryCache)

/-- The settings of the cache. -/
def settings : CacheSettings where
  capacity := c.capacity
  recordTtl := c.recordTtl
  shortTtl := c.shortTtl
  longTtl := c.longTtl
  isShutDown := c.isShutDown

/-- How long entries of a category live, zero if they do not expire. -/
def ttl : CacheCategory → Nat
  | .record | .wholeResult => c.recordTtl
  | .shortKeys => c.shortTtl
  | .longKeys => c.longTtl

/-- The next entry that is stored. -/
def entryFor (value : CacheValue) (category : CacheCategory) : CacheEntry where
  value
  number := c.stores + 1
  expiresAt := if c.ttl category = 0 then none else some (c.now + 1000000000 * c.ttl category)

/-- The cache after some time, in nanoseconds. -/
def later (elapsed : Nat) : MemoryCache := { c with now := c.now + elapsed }

/-- The entries of a bin; a bin that was never stored to has none. -/
def bin (name : String) : Bin := (c.bins.lookup name).getD []

/-- The bins with the entries of one bin replaced, where there is such a bin. -/
def replaceBin (name : String) (b : Bin) : List (String × Bin) → List (String × Bin)
  | [] => []
  | (n, old) :: rest => if n = name then (n, b) :: rest else (n, old) :: replaceBin name b rest

/-- The cache with the entries of an existing bin replaced. -/
def setBin (name : String) (b : Bin) : MemoryCache := { c with bins := replaceBin name b c.bins }

/-- The cache with a bin of this name. -/
def ensureBin (name : String) : MemoryCache :=
  if (c.bins.lookup name).isSome then c else { c with bins := c.bins ++ [(name, [])] }

/-- Removes the entry under a key of a bin, if there is one. -/
def remove (name : String) (key : List Value) : MemoryCache :=
  c.setBin name ((c.bin name).erase key)

/-- The value under a key of a bin, which counts as a hit or a miss; a hit is a use of the entry.
An expired entry is dropped and is no hit. -/
def lookup (name : String) (key : List Value) : Option CacheValue × MemoryCache :=
  match (c.bin name).find? key with
  | some entry =>
    if entry.isExpired c.now then
      (none, { c.remove name key with misses := c.misses + 1, evictions := c.evictions + 1 })
    else
      (some entry.value, { c.setBin name ((c.bin name).touch key entry) with hits := c.hits + 1 })
  | none => (none, { c with misses := c.misses + 1 })

/-- Stores a value under a key of a bin. -/
def store (name : String) (key : List Value) (value : CacheValue) (category : CacheCategory) :
    MemoryCache :=
  if c.isShutDown then c
  else
    let evicted := if (c.bin name).evicts c.capacity key then 1 else 0
    let entry := c.entryFor value category
    { (c.ensureBin name).setBin name ((c.bin name).store c.capacity key entry) with
      stores := c.stores + 1
      evictions := c.evictions + evicted }

/-- The keys of a bin whose entries have not expired, the most recently used first. -/
def enumerate (name : String) : List (List Value) := ((c.bin name).fresh c.now).keys

/-- Removes the entries under several keys of a bin. -/
def removeAll (name : String) (keys : List (List Value)) : MemoryCache :=
  keys.foldl (·.remove name ·) c

/-- Drops every entry and keeps the counters. -/
def clear : MemoryCache := { c with bins := [] }

/-- Drops every entry and refuses new ones. -/
def shutdown : MemoryCache := { c.clear with isShutDown := true }

/-- The counters. -/
def stats : CacheStats where
  bins := c.bins.length
  entries := (c.bins.flatMap (·.2)).length
  hits := c.hits
  misses := c.misses
  evictions := c.evictions

/-! ### Entries by address -/

/-- The value at an address. -/
def lookupAt (a : CacheAddress) : Option CacheValue × MemoryCache := c.lookup a.bin a.key

/-- Stores a value at an address. -/
def storeAt (a : CacheAddress) (value : CacheValue) (category : CacheCategory := .record) :
    MemoryCache := c.store a.bin a.key value category

/-- Removes the entry at an address. -/
def removeAt (a : CacheAddress) : MemoryCache := c.remove a.bin a.key

/-- The entry at an address, expired or not, which is left where it is. -/
def entryAt? (a : CacheAddress) : Option CacheEntry := (c.bin a.bin).find? a.key

/-- The entry at an address, if it has not expired. -/
def freshAt? (a : CacheAddress) : Option CacheEntry :=
  (c.entryAt? a).filter fun e => !e.isExpired c.now

end MemoryCache

/-! ### The entries of a bin after an operation -/

theorem lookup_cons_ite {α β : Type} [BEq α] [LawfulBEq α] [DecidableEq α] (k l : α) (v : β)
    (rest : List (α × β)) :
    List.lookup k ((l, v) :: rest) = if k = l then some v else List.lookup k rest := by
  rw [List.lookup_cons]
  by_cases h : k = l
  · rw [beq_iff_eq.mpr h, if_pos h]
  · rw [beq_eq_false_iff_ne.mpr h, if_neg h]

namespace Bin

variable (b : Bin) (key k : List Value) (entry : CacheEntry)

theorem find?_cons : Bin.find? ((key, entry) :: b) k = if k = key then some entry else b.find? k :=
  lookup_cons_ite k key entry b

theorem find?_erase : (b.erase key).find? k = if k = key then none else b.find? k := by
  induction b with
  | nil => simp [erase, find?]
  | cons p b ih =>
    obtain ⟨l, e⟩ := p
    unfold erase at ih ⊢
    by_cases hl : l = key
    · rw [List.filter_cons_of_neg (by simpa using hl), ih, find?_cons, hl]
      split <;> rfl
    · rw [List.filter_cons_of_pos (by simpa using hl), find?_cons, find?_cons, ih]
      by_cases hk : k = key
      · rw [if_pos hk, if_pos hk, if_neg (by rw [hk]; exact fun h => hl h.symm)]
      · rw [if_neg hk, if_neg hk]

theorem find?_touch : (b.touch key entry).find? k = if k = key then some entry else b.find? k := by
  rw [touch, find?_cons, find?_erase]
  split <;> rfl

section LookedUp

variable {b key entry} {now : Nat}

theorem lookedUp_of_fresh (h : b.find? key = some entry) (hfresh : entry.isExpired now = false) :
    b.lookedUp now key = b.touch key entry := by
  unfold lookedUp
  rw [h]
  exact if_neg (by rw [hfresh]; exact Bool.false_ne_true)

theorem lookedUp_of_expired (h : b.find? key = some entry)
    (hexpired : entry.isExpired now = true) : b.lookedUp now key = b.erase key := by
  unfold lookedUp
  rw [h]
  exact if_pos hexpired

theorem lookedUp_of_none (h : b.find? key = none) : b.lookedUp now key = b := by
  unfold lookedUp
  rw [h]

end LookedUp

/-- Looking a key up drops its entry if that has expired, and no other. -/
theorem find?_lookedUp (now : Nat) : (b.lookedUp now key).find? k =
    if k = key then (b.find? k).filter fun e => !e.isExpired now else b.find? k := by
  by_cases hk : k = key
  · subst hk
    rw [if_pos rfl]
    cases h : b.find? k with
    | none =>
      rw [lookedUp_of_none h, h]
      rfl
    | some e =>
      cases he : e.isExpired now with
      | true =>
        rw [lookedUp_of_expired h he, find?_erase, if_pos rfl, Option.filter_some, he]
        rfl
      | false =>
        rw [lookedUp_of_fresh h he, find?_touch, if_pos rfl, Option.filter_some, he]
        rfl
  · rw [if_neg hk]
    unfold lookedUp
    split
    · split
      · rw [find?_erase, if_neg hk]
      · rw [find?_touch, if_neg hk]
    · rfl

/-- Dropping the last entry uncovers nothing. -/
theorem find?_of_dropLast {e : CacheEntry} (h : Bin.find? b.dropLast k = some e) :
    b.find? k = some e := by
  induction b with
  | nil => exact h
  | cons p b ih =>
    obtain ⟨l, f⟩ := p
    cases b with
    | nil => cases h
    | cons q b =>
      rw [List.dropLast_cons_cons, find?_cons] at h
      rw [find?_cons]
      split
      · next hk => rwa [if_pos hk] at h
      · next hk => exact ih (by rwa [if_neg hk] at h)

/-- What is stored is there. -/
theorem find?_store_self (capacity : Nat) :
    (b.store capacity key entry).find? key = some entry := by
  unfold store
  split
  · rw [find?_cons, if_pos rfl]
  · rw [find?_touch, if_pos rfl]

/-- An entry that is there after storing was stored or was there before. -/
theorem find?_of_store {capacity : Nat} {e : CacheEntry}
    (h : (b.store capacity key entry).find? k = some e) :
    (k = key ∧ e = entry) ∨ (k ≠ key ∧ b.find? k = some e) := by
  by_cases hk : k = key
  · subst hk
    rw [find?_store_self] at h
    exact .inl ⟨rfl, (Option.some.inj h).symm⟩
  · refine .inr ⟨hk, ?_⟩
    unfold store at h
    split at h
    · rw [find?_cons, if_neg hk] at h
      exact find?_of_dropLast b k h
    · rwa [find?_touch, if_neg hk] at h

/-- What is found is an entry of the bin. -/
theorem mem_of_find? {e : CacheEntry} (h : b.find? k = some e) : (k, e) ∈ b := by
  induction b with
  | nil => cases h
  | cons p b ih =>
    obtain ⟨l, f⟩ := p
    rw [find?_cons] at h
    split at h
    · next hk =>
      cases h
      rw [hk]
      exact List.mem_cons_self
    · exact List.mem_cons_of_mem _ (ih h)

/-- An entry that is found and has not expired is one of those. -/
theorem mem_keys_fresh {now : Nat} {e : CacheEntry} (h : b.find? k = some e)
    (he : e.isExpired now = false) : k ∈ (b.fresh now).keys := by
  induction b with
  | nil => cases h
  | cons p b ih =>
    obtain ⟨l, f⟩ := p
    rw [find?_cons] at h
    unfold fresh keys at ih ⊢
    rw [List.filter_cons]
    split at h
    · next hk =>
      cases h
      simp [he, hk]
    · split
      · exact List.mem_cons_of_mem _ (ih h)
      · exact ih h

theorem mem_keys : k ∈ b.keys ↔ (b.find? k).isSome = true := by
  induction b with
  | nil => simp [keys, find?]
  | cons p b ih =>
    obtain ⟨l, e⟩ := p
    unfold keys at ih ⊢
    rw [List.map_cons, List.mem_cons, ih, find?_cons]
    by_cases hk : k = l <;> simp [hk]

end Bin

/-! ### The entries of a cache after an operation -/

namespace MemoryCache

variable (c : MemoryCache) (name : String)

theorem lookup_replaceBin (b : Bin) (bins : List (String × Bin)) (m : String) :
    (replaceBin name b bins).lookup m =
      if m = name then (bins.lookup m).map fun _ => b else bins.lookup m := by
  induction bins with
  | nil => simp [replaceBin]
  | cons p bins ih =>
    obtain ⟨n, old⟩ := p
    unfold replaceBin
    by_cases hn : n = name
    · rw [if_pos hn, lookup_cons_ite, lookup_cons_ite, ← hn]
      split <;> rfl
    · rw [if_neg hn, lookup_cons_ite, lookup_cons_ite, ih]
      by_cases hm : m = n
      · rw [if_pos hm, if_pos hm, if_neg (by rw [hm]; exact hn)]
      · rw [if_neg hm, if_neg hm]

theorem bin_setBin (b : Bin) (m : String) :
    (c.setBin name b).bin m =
      if m = name ∧ (c.bins.lookup name).isSome then b else c.bin m := by
  unfold setBin bin
  rw [lookup_replaceBin]
  by_cases hm : m = name
  · subst hm
    cases c.bins.lookup m <;> simp
  · simp [hm]

theorem bin_of_missing (h : (c.bins.lookup name).isSome = false) : c.bin name = [] := by
  simp only [bin, Option.isSome_eq_false_iff, Option.isNone_iff_eq_none] at h ⊢
  rw [h, Option.getD_none]

theorem bin_ensureBin (m : String) : (c.ensureBin name).bin m = c.bin m := by
  unfold ensureBin
  split
  · rfl
  · next h =>
    simp only [bin, List.lookup_append]
    by_cases hm : m = name
    · subst hm
      simp_all
    · rw [lookup_cons_ite, if_neg hm, List.lookup_nil, Option.or_none]

theorem isSome_lookup_ensureBin : ((c.ensureBin name).bins.lookup name).isSome = true := by
  unfold ensureBin
  split
  · assumption
  · simp [List.lookup_append]

theorem bin_remove (key : List Value) (m : String) :
    (c.remove name key).bin m = if m = name then (c.bin m).erase key else c.bin m := by
  rw [remove, bin_setBin]
  by_cases hm : m = name
  · subst hm
    cases h : (c.bins.lookup m).isSome with
    | true => simp
    | false => simp [bin_of_missing c m h, Bin.erase]
  · simp [hm]

/-- Storing concerns one bin, and nothing after a shutdown. -/
theorem bin_store (key : List Value) (value : CacheValue) (category : CacheCategory) (m : String) :
    (c.store name key value category).bin m =
      if m = name ∧ c.isShutDown = false
      then (c.bin m).store c.capacity key (c.entryFor value category) else c.bin m := by
  unfold store
  cases h : c.isShutDown with
  | true => simp
  | false =>
    have hbin := bin_setBin (c.ensureBin name) name
      ((c.bin name).store c.capacity key (c.entryFor value category)) m
    rw [isSome_lookup_ensureBin, bin_ensureBin] at hbin
    refine Eq.trans hbin ?_
    by_cases hm : m = name
    · rw [if_pos ⟨hm, rfl⟩, if_pos ⟨hm, rfl⟩, hm]
    · rw [if_neg (fun h => hm h.1), if_neg (fun h => hm h.1)]

theorem bin_lookup (key : List Value) (m : String) : (c.lookup name key).2.bin m =
    if m = name then (c.bin m).lookedUp c.now key else c.bin m := by
  unfold lookup
  split
  · next entry h =>
    split
    · next hexpired =>
      refine (c.bin_remove name key m).trans ?_
      split
      · next hm => rw [hm, Bin.lookedUp_of_expired h hexpired]
      · rfl
    · next hfresh =>
      have hthere : (c.bins.lookup name).isSome = true := by
        cases hmissing : (c.bins.lookup name).isSome with
        | true => rfl
        | false =>
          rw [c.bin_of_missing name hmissing] at h
          cases h
      refine (c.bin_setBin name ((c.bin name).touch key entry) m).trans ?_
      by_cases hm : m = name
      · rw [if_pos ⟨hm, hthere⟩, if_pos hm, hm,
          Bin.lookedUp_of_fresh h (Bool.not_eq_true _ |>.mp hfresh)]
      · rw [if_neg (fun h => hm h.1), if_neg hm]
  · next h =>
    split
    · next hm =>
      rw [hm, Bin.lookedUp_of_none h]
      rfl
    · rfl

variable (a b : CacheAddress)

/-! ### Entries that have not expired -/

variable {c a} in
theorem freshAt?_eq_some {e : CacheEntry} :
    c.freshAt? a = some e ↔ c.entryAt? a = some e ∧ e.isExpired c.now = false := by
  unfold freshAt?
  rw [Option.filter_eq_some_iff, Bool.not_eq_true']

variable {c a} in
theorem freshAt?_eq_none :
    c.freshAt? a = none ↔ ∀ e, c.entryAt? a = some e → e.isExpired c.now = true := by
  unfold freshAt?
  rw [Option.filter_eq_none_iff]
  simp

/-- An entry lives for the lifetime of its category. -/
theorem isExpired_entryFor {value : CacheValue} {category : CacheCategory} {time : Nat}
    (h : c.ttl category = 0 ∨ time < c.now + 1000000000 * c.ttl category) :
    (c.entryFor value category).isExpired time = false := by
  unfold entryFor CacheEntry.isExpired
  split
  · rfl
  · next hne => exact decide_eq_false (Nat.not_le.mpr (h.resolve_left hne))

/-- An entry does not expire at once. -/
theorem isExpired_entryFor_now (value : CacheValue) (category : CacheCategory) :
    (c.entryFor value category).isExpired c.now = false := by
  refine c.isExpired_entryFor ((Nat.eq_zero_or_pos (c.ttl category)).imp_right fun hpos => ?_)
  exact Nat.lt_add_of_pos_right (Nat.mul_pos (by decide) hpos)

/-! ### Entries by address after an operation -/

/-- Looking up finds the entry at the address, if it has not expired. -/
theorem lookupAt_fst : (c.lookupAt a).1 = (c.freshAt? a).map (·.value) := by
  unfold lookupAt lookup freshAt? entryAt?
  split
  · next h =>
    rw [h, Option.filter_some]
    split
    · next hexpired => rw [hexpired]; rfl
    · next hfresh => rw [Bool.not_eq_true _ |>.mp hfresh]; rfl
  · next h => rw [h]; rfl

/-- Looking up drops the entry at the address if it has expired, and no other. -/
theorem entryAt?_lookup :
    (c.lookupAt a).2.entryAt? b = if b = a then c.freshAt? a else c.entryAt? b := by
  unfold freshAt? entryAt? lookupAt
  rw [bin_lookup]
  obtain ⟨m, k⟩ := b
  obtain ⟨n, key⟩ := a
  by_cases hm : m = n
  · by_cases hk : k = key <;> simp [hm, hk, Bin.find?_lookedUp]
  · simp [hm]

@[simp] theorem now_lookup : (c.lookupAt a).2.now = c.now := by
  unfold lookupAt lookup
  split
  · split <;> rfl
  · rfl

theorem settings_lookup : (c.lookupAt a).2.settings = c.settings := by
  unfold lookupAt lookup
  split
  · split <;> rfl
  · rfl

/-- Looking up changes nothing about the entries that have not expired. -/
@[simp] theorem freshAt?_lookup : (c.lookupAt a).2.freshAt? b = c.freshAt? b := by
  rw [freshAt?, entryAt?_lookup, now_lookup]
  split
  · next h =>
    rw [h, freshAt?, Option.filter_filter]
    simp
  · rfl

/-- Removing an entry leaves the others. -/
theorem entryAt?_remove : (c.removeAt a).entryAt? b = if b = a then none else c.entryAt? b := by
  unfold entryAt? removeAt
  rw [bin_remove]
  obtain ⟨m, k⟩ := b
  obtain ⟨n, key⟩ := a
  by_cases hm : m = n
  · simp [hm, Bin.find?_erase]
  · simp [hm]

@[simp] theorem now_remove : (c.removeAt a).now = c.now := rfl

theorem freshAt?_remove : (c.removeAt a).freshAt? b = if b = a then none else c.freshAt? b := by
  rw [freshAt?, entryAt?_remove, now_remove]
  split <;> rfl

variable {value : CacheValue} {category : CacheCategory}

@[simp] theorem now_store : (c.storeAt a value category).now = c.now := by
  unfold storeAt store
  split
  · rfl
  · change (c.ensureBin a.bin).now = c.now
    unfold ensureBin
    split <;> rfl

/-- Caches of the same settings have the same lifetimes. -/
theorem ttl_of_settings {c c' : MemoryCache} (h : c'.settings = c.settings) : c'.ttl = c.ttl := by
  funext category
  cases category with
  | record | wholeResult => exact congrArg CacheSettings.recordTtl h
  | shortKeys => exact congrArg CacheSettings.shortTtl h
  | longKeys => exact congrArg CacheSettings.longTtl h

theorem settings_store : (c.storeAt a value category).settings = c.settings := by
  unfold storeAt store
  split
  · rfl
  · change (c.ensureBin a.bin).settings = c.settings
    unfold ensureBin
    split <;> rfl

/-- A stored value is there under the next number. -/
theorem entryAt?_store_self (h : c.isShutDown = false) :
    (c.storeAt a value category).entryAt? a = some (c.entryFor value category) := by
  unfold entryAt? storeAt
  rw [bin_store, if_pos ⟨rfl, h⟩, Bin.find?_store_self]

theorem freshAt?_store_self (h : c.isShutDown = false) :
    (c.storeAt a value category).freshAt? a = some (c.entryFor value category) := by
  rw [freshAt?_eq_some, now_store]
  exact ⟨entryAt?_store_self c a h, c.isExpired_entryFor_now value category⟩

/-- An entry after storing is the stored one, or it was there before. -/
theorem entryAt?_of_store {e : CacheEntry}
    (h : (c.storeAt a value category).entryAt? b = some e) :
    (b = a ∧ e = c.entryFor value category ∧ c.isShutDown = false) ∨ c.entryAt? b = some e := by
  unfold entryAt? storeAt at h
  rw [bin_store] at h
  split at h
  · next hm =>
    rcases Bin.find?_of_store _ _ _ _ h with ⟨hk, he⟩ | ⟨_, hb⟩
    · refine .inl ⟨?_, he, hm.2⟩
      obtain ⟨m, k⟩ := b
      obtain ⟨n, key⟩ := a
      exact CacheAddress.mk.injEq .. |>.mpr ⟨hm.1, hk⟩
    · exact .inr hb
  · exact .inr h

/-- Storing concerns one bin. -/
theorem entryAt?_store_of_bin_ne (h : b.bin ≠ a.bin) :
    (c.storeAt a value category).entryAt? b = c.entryAt? b := by
  unfold entryAt? storeAt
  rw [bin_store, if_neg fun hm => h hm.1]

theorem freshAt?_store_of_bin_ne (h : b.bin ≠ a.bin) :
    (c.storeAt a value category).freshAt? b = c.freshAt? b := by
  rw [freshAt?, entryAt?_store_of_bin_ne c a b h, now_store]
  rfl

theorem enumerate_store_of_bin_ne {name : String} (h : name ≠ a.bin) :
    (c.storeAt a value category).enumerate name = c.enumerate name := by
  unfold enumerate
  rw [now_store]
  unfold storeAt
  rw [bin_store, if_neg fun hm => h hm.1]

/-- A bin lists the keys of its entries that have not expired. -/
theorem mem_enumerate {key : List Value} {e : CacheEntry} (h : c.freshAt? ⟨name, key⟩ = some e) :
    key ∈ c.enumerate name :=
  Bin.mem_keys_fresh _ _ (freshAt?_eq_some.mp h).1 (freshAt?_eq_some.mp h).2

/-- Removing several entries of a bin leaves the others. -/
theorem entryAt?_removeAll (keys : List (List Value)) :
    (c.removeAll name keys).entryAt? b =
      if b.bin = name ∧ b.key ∈ keys then none else c.entryAt? b := by
  induction keys generalizing c with
  | nil => simp [removeAll]
  | cons key keys ih =>
    have hstep : (c.removeAll name (key :: keys)) =
        (c.removeAt ⟨name, key⟩).removeAll name keys := rfl
    rw [hstep, ih, entryAt?_remove]
    obtain ⟨m, k⟩ := b
    by_cases hm : m = name <;> by_cases hk : k = key <;> simp [hm, hk]

@[simp] theorem entryFor_removeAll (value : CacheValue) (category : CacheCategory)
    (keys : List (List Value)) :
    (c.removeAll name keys).entryFor value category = c.entryFor value category := by
  induction keys generalizing c with
  | nil => rfl
  | cons key keys ih => exact ih (c.remove name key)

@[simp] theorem now_removeAll (keys : List (List Value)) :
    (c.removeAll name keys).now = c.now := by
  induction keys generalizing c with
  | nil => rfl
  | cons key keys ih => exact ih (c.remove name key)

theorem freshAt?_removeAll (keys : List (List Value)) :
    (c.removeAll name keys).freshAt? b =
      if b.bin = name ∧ b.key ∈ keys then none else c.freshAt? b := by
  rw [freshAt?, entryAt?_removeAll, now_removeAll]
  split <;> rfl

/-! ### The number of stores after an operation -/

@[simp] theorem stores_lookup : (c.lookupAt a).2.stores = c.stores := by
  unfold lookupAt lookup
  split
  · split <;> rfl
  · rfl

@[simp] theorem stores_remove : (c.removeAt a).stores = c.stores := rfl

theorem stores_store :
    (c.storeAt a value category).stores = if c.isShutDown then c.stores else c.stores + 1 := by
  unfold storeAt store
  split <;> rfl

end MemoryCache

end RecordStore
