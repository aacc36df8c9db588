import RecordStore.Cache.Memory

/-! # Caches without expired entries

Where no entry has expired, looking up finds every entry that is there, and listing a bin lists all
its keys.  An entry does not expire by what is done to the cache, and a stored one lives for some
time, so that only the passing of time makes entries expire. -/

namespace RecordStore

/-- An entry that is there after storing was stored or was there before. -/
theorem Bin.mem_of_store {b : Bin} {capacity : Nat} {key : List Value} {entry : CacheEntry}
    {p : List Value × CacheEntry} (h : p ∈ b.store capacity key entry) :
    p = (key, entry) ∨ p ∈ b := by
  unfold store at h
  split at h
  · exact (List.mem_cons.mp h).imp_right (List.dropLast_subset b ·)
  · exact (List.mem_cons.mp h).imp_right fun hp => (List.mem_filter.mp hp).1

theorem Bin.mem_of_lookedUp {b : Bin} {now : Nat} {key : List Value}
    {p : List Value × CacheEntry} (h : p ∈ b.lookedUp now key) : p ∈ b := by
  unfold lookedUp at h
  split at h
  · next entry hfind =>
    split at h
    · exact (List.mem_filter.mp h).1
    · rcases List.mem_cons.mp h with rfl | hp
      · exact mem_of_find? b key hfind
      · exact (List.mem_filter.mp hp).1
  · exact h

namespace MemoryCache

/-- No entry expires up to a time. -/
def FreshUntil (c : MemoryCache) (time : Nat) : Prop :=
  ∀ name, ∀ p ∈ c.bin name, p.2.isExpired time = false

/-- No entry has expired. -/
def AllFresh (c : MemoryCache) : Prop := c.FreshUntil c.now

/-- There is nothing to expire in a cache without bins. -/
theorem freshUntil_of_bins {c : MemoryCache} (h : c.bins = []) (time : Nat) :
    c.FreshUntil time := by
  intro name p hp
  unfold bin at hp
  rw [h] at hp
  cases hp

namespace FreshUntil

variable {c : MemoryCache} {time : Nat} (h : c.FreshUntil time) (a : CacheAddress)

include h

theorem mono {earlier : Nat} (hle : earlier ≤ time) : c.FreshUntil earlier :=
  fun name p hp => CacheEntry.isExpired_mono hle (h name p hp)

/-- Storing an entry that lives until then. -/
theorem storeAt {value : CacheValue} {category : CacheCategory}
    (hnew : (c.entryFor value category).isExpired time = false) :
    (c.storeAt a value category).FreshUntil time := by
  intro name p hp
  rw [MemoryCache.storeAt, bin_store] at hp
  split at hp
  · rcases Bin.mem_of_store hp with rfl | hold
    · exact hnew
    · exact h name p hold
  · exact h name p hp

theorem lookupAt : (c.lookupAt a).2.FreshUntil time := by
  intro name p hp
  rw [MemoryCache.lookupAt, bin_lookup] at hp
  split at hp
  · exact h name p (Bin.mem_of_lookedUp hp)
  · exact h name p hp

theorem removeAt : (c.removeAt a).FreshUntil time := by
  intro name p hp
  rw [MemoryCache.removeAt, bin_remove] at hp
  split at hp
  · exact h name p (List.mem_filter.mp hp).1
  · exact h name p hp

end FreshUntil

/-- What has not expired yet does not expire in some time either. -/
def FreshFor (c : MemoryCache) (elapsed : Nat) : Prop :=
  ∀ a e, c.freshAt? a = some e → e.isExpired (c.now + elapsed) = false

/-- Then the same entries are found later. -/
theorem FreshFor.freshAt?_later {c : MemoryCache} {elapsed : Nat} (h : c.FreshFor elapsed)
    (a : CacheAddress) : (c.later elapsed).freshAt? a = c.freshAt? a := by
  apply Option.ext
  intro e
  constructor
  · intro he
    obtain ⟨hentry, hlater⟩ := freshAt?_eq_some.mp he
    exact freshAt?_eq_some.mpr ⟨hentry, CacheEntry.isExpired_mono (Nat.le_add_right ..) hlater⟩
  · intro he
    exact freshAt?_eq_some.mpr ⟨(freshAt?_eq_some.mp he).1, h a e he⟩

namespace AllFresh

variable {c : MemoryCache} (h : c.AllFresh)

include h

/-- An entry is found if it is there. -/
theorem freshAt?_eq (a : CacheAddress) : c.freshAt? a = c.entryAt? a := by
  cases he : c.entryAt? a with
  | none =>
      rw [freshAt?, he]
      rfl
  | some e => exact freshAt?_eq_some.mpr ⟨he, h a.bin _ (Bin.mem_of_find? _ _ he)⟩

/-- A bin lists all its keys. -/
theorem enumerate_eq (name : String) : c.enumerate name = (c.bin name).keys := by
  unfold enumerate Bin.fresh
  rw [List.filter_eq_self.mpr fun p hp => by rw [h name p hp]; rfl]

end AllFresh

end MemoryCache

end RecordStore
