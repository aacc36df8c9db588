import RecordStore.Proofs.Cache.Eviction
import RecordStore.Proofs.Cache.Recency
import RecordStore.Proofs.Cache.Stored
import RecordStore.Proofs.Sample

/-! # What a directive leaves

Removing keys of a bin one after the other is one filter of that bin (`MemoryCache.bin_removeAll`),
and the rest of the cache stays as it was (`MemoryCache.Trimmed`).  So a directive leaves of its
rows exactly those it does not cover, in their order, and nothing else moves
(`Directive.apply_exact`).
-/

namespace RecordStore

namespace Bin

variable (b : Bin)

/-- Nothing is left without all keys. -/
theorem without_keys : b.without b.keys = [] := by
  apply List.filter_eq_nil_iff.mpr
  intro p hp
  have hkey : p.1 ∈ b.keys := List.mem_map_of_mem hp
  simpa using hkey

end Bin

namespace MemoryCache

variable (c : MemoryCache) (name : String) (r : RecordType)

/-- The second cache has the bins, the counters, the settings and the time of the first; only the
entries may differ. -/
structure Trimmed (c c' : MemoryCache) : Prop where
  names : c'.bins.map (·.1) = c.bins.map (·.1)
  settings : c'.settings = c.settings
  now : c'.now = c.now
  stores : c'.stores = c.stores
  hits : c'.hits = c.hits
  misses : c'.misses = c.misses
  evictions : c'.evictions = c.evictions

namespace Trimmed

variable {c c₁ c₂ : MemoryCache}

theorem refl : c.Trimmed c := ⟨rfl, rfl, rfl, rfl, rfl, rfl, rfl⟩

theorem trans (h : c.Trimmed c₁) (h' : c₁.Trimmed c₂) : c.Trimmed c₂ where
  names := h'.names.trans h.names
  settings := h'.settings.trans h.settings
  now := h'.now.trans h.now
  stores := h'.stores.trans h.stores
  hits := h'.hits.trans h.hits
  misses := h'.misses.trans h.misses
  evictions := h'.evictions.trans h.evictions

end Trimmed

theorem names_replaceBin (b : Bin) (bins : List (String × Bin)) :
    (replaceBin name b bins).map (·.1) = bins.map (·.1) := by
  induction bins with
  | nil => rfl
  | cons p bins ih =>
      obtain ⟨n, old⟩ := p
      unfold replaceBin
      by_cases hn : n = name
      · rw [if_pos hn]
        rfl
      · rw [if_neg hn, List.map_cons, List.map_cons, ih]

theorem remove_trimmed (key : List Value) : c.Trimmed (c.remove name key) where
  names := names_replaceBin name _ c.bins
  settings := rfl
  now := rfl
  stores := rfl
  hits := rfl
  misses := rfl
  evictions := rfl

theorem removeAll_trimmed (keys : List (List Value)) : c.Trimmed (c.removeAll name keys) := by
  induction keys generalizing c with
  | nil => exact .refl
  | cons key keys ih => exact (c.remove_trimmed name key).trans (ih (c.remove name key))

/-- Removing the rows of a record type leaves its key lists alone. -/
theorem enumerate_removeAll_rows (keys : List (List Value)) :
    (c.removeAll r.rowBin keys).enumerate r.keyListBin = c.enumerate r.keyListBin := by
  unfold enumerate
  rw [bin_removeAll, if_neg r.rowBin_ne_keyListBin.symm, now_removeAll]

theorem bin_evict (keys : List (List Value)) (m : String) :
    (c.evict r keys).2.bin m =
      if m = r.keyListBin then (c.bin m).without (c.enumerate m)
      else if m = r.rowBin then (c.bin m).without keys else c.bin m := by
  change (((c.removeAll r.rowBin keys).evictKeyLists r).2).bin m = _
  unfold evictKeyLists
  rw [enumerate_removeAll_rows, bin_removeAll, bin_removeAll]
  by_cases hm : m = r.keyListBin
  · rw [if_pos hm, if_pos hm, if_neg (by rw [hm]; exact r.rowBin_ne_keyListBin.symm), hm]
  · rw [if_neg hm, if_neg hm]

theorem evict_trimmed (keys : List (List Value)) : c.Trimmed (c.evict r keys).2 := by
  have hrows : c.Trimmed (c.removeAll r.rowBin keys) := c.removeAll_trimmed r.rowBin keys
  exact hrows.trans (removeAll_trimmed _ r.keyListBin _)

end MemoryCache

namespace Directive

variable (d : Directive) (c : MemoryCache)

instance (r : RecordType) (key : List Value) : Decidable (d.covers r key) :=
  match d with
  | rows target => inferInstanceAs (Decidable (_ ∧ key ∈ target.tuples))
  | allRecords _ => inferInstanceAs (Decidable (_ ∧ True))

/-- The keys that applying the directive removes from the rows of its record type. -/
def rowKeys : List (List Value) :=
  match d with
  | rows target => target.tuples
  | allRecords r => c.enumerate r.rowBin

theorem apply_eq : d.apply c = c.evict d.record (d.rowKeys c) := by
  cases d with
  | rows target => rfl
  | allRecords r => rfl

/-- Of the entries that are listed the removed ones are those that are covered. -/
theorem mem_rowKeys {key : List Value} (hkey : key ∈ c.enumerate d.record.rowBin) :
    key ∈ d.rowKeys c ↔ d.covers d.record key := by
  have hself : d.record.sameAs d.record = true := beq_self_eq_true _
  cases d with
  | rows target => exact ⟨fun hmem => ⟨hself, hmem⟩, fun hcovers => hcovers.2⟩
  | allRecords r => exact ⟨fun _ => ⟨hself, trivial⟩, fun _ => hkey⟩

/-- A directive leaves the rows that it does not cover as they were, one after the other, no key
list of its record type, and everything else in the cache; no entry may have expired. -/
theorem apply_exact (h : c.AllFresh) :
    (d.apply c).2.bin d.record.rowBin =
        (c.bin d.record.rowBin).filter (fun entry => ¬ d.covers d.record entry.1) ∧
      (d.apply c).2.bin d.record.keyListBin = [] ∧
      (∀ name, name ≠ d.record.rowBin → name ≠ d.record.keyListBin →
        (d.apply c).2.bin name = c.bin name) ∧
      c.Trimmed (d.apply c).2 := by
  rw [apply_eq]
  refine ⟨?_, ?_, ?_, c.evict_trimmed d.record _⟩
  · rw [MemoryCache.bin_evict, if_neg d.record.rowBin_ne_keyListBin, if_pos rfl]
    apply List.filter_congr
    intro entry hentry
    have hkey : entry.1 ∈ c.enumerate d.record.rowBin := by
      rw [h.enumerate_eq]
      exact List.mem_map_of_mem hentry
    simp only [List.contains_eq_mem, d.mem_rowKeys c hkey, decide_not]
  · rw [MemoryCache.bin_evict, if_pos rfl, h.enumerate_eq]
    exact Bin.without_keys _
  · intro name hrow hlist
    rw [MemoryCache.bin_evict, if_neg hlist, if_neg hrow]

end Directive

namespace Sample

/-- Two items and a key list in a cache. -/
def listedItems : MemoryCache :=
  (((MemoryCache.new 8).storeAt (.ofRow schema.type [.integer 1])
    (.row [.integer 1, .text "one"])).storeAt (.ofRow schema.type [.integer 2])
    (.row [.integer 2, .text "two"])).storeAt ⟨schema.type.keyListBin, [.text "all"]⟩
    (.keys [[.integer 1], [.integer 2]]) .shortKeys

/-- The first item may change. -/
def firstItem : Directive := .rows (.key schema.type (itemKey 1))

/-- Without the first item the second one is left, and no key list. -/
theorem listedItems_without_first :
    listedItems.AllFresh ∧
      (firstItem.apply listedItems).2.bin schema.type.rowBin =
        [([.integer 2], ⟨.row [.integer 2, .text "two"], 2, some 300000000000⟩)] ∧
      (firstItem.apply listedItems).2.bin schema.type.keyListBin = [] ∧
      listedItems.Trimmed (firstItem.apply listedItems).2 := by
  have hfresh : listedItems.AllFresh :=
    (((MemoryCache.freshUntil_of_bins rfl 0).storeAt _ rfl).storeAt _ rfl).storeAt _ rfl
  obtain ⟨hrows, hlists, -, htrimmed⟩ := firstItem.apply_exact listedItems hfresh
  exact ⟨hfresh, hrows.trans (by decide), hlists, htrimmed⟩

end Sample

end RecordStore
