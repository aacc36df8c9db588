import RecordStore.Proofs.Cache.Covered
import RecordStore.Proofs.Cache.History
import RecordStore.Proofs.Key.Sets
import RecordStore.Proofs.Writing.Evicted

/-! # What a directive counts

A directive counts the keys of its rows and the key lists that it removes, whether or not there are
entries under the keys.  In a bin where every key has one entry, the count and the entries that are
left add up to the entries before and the keys without an entry (`Directive.count_add_entries`).  So
the count is the number of evicted entries exactly when all rows of the directive are cached, and
this is what a write adds to its statistics (`Directive.evictions_counted`). -/

namespace RecordStore

namespace Bin

variable {b : Bin} {keys : List (List Value)}

/-- What is left of a bin and the keys that were there make up the bin. -/
theorem length_without (hb : b.keys.Nodup) (hkeys : keys.Nodup) :
    (keys.filter (· ∈ b.keys)).length + (b.without keys).length = List.length b := by
  have hcommon : (keys.filter (· ∈ b.keys)).Perm (b.keys.filter (· ∈ keys)) := by
    apply (List.perm_ext_iff_of_nodup (hkeys.filter _) (hb.filter _)).mpr
    intro key
    simp [and_comm]
  have hremoved : (b.keys.filter (· ∈ keys)).length = (b.filter (·.1 ∈ keys)).length := by
    unfold Bin.keys
    rw [List.filter_map, List.length_map]
    rfl
  have hsplit := List.length_eq_length_filter_add (l := b) (fun p => decide (p.1 ∈ keys))
  have hkept : b.without keys = b.filter fun p => !decide (p.1 ∈ keys) := by
    unfold Bin.without
    simp only [List.contains_eq_mem]
  rw [hcommon.length_eq, hremoved, hkept]
  exact hsplit.symm

theorem keys_fresh_sublist (b : Bin) (now : Nat) : (b.fresh now).keys.Sublist b.keys :=
  List.filter_sublist.map _

end Bin

namespace MemoryCache

variable (c : MemoryCache) (name : String) (r : RecordType)

/-- Replacing a bin changes the number of entries by the difference of its lengths. -/
theorem length_replaceBin (b : Bin) (bins : List (String × Bin))
    (h : (bins.lookup name).isSome = true) :
    ((replaceBin name b bins).flatMap (·.2)).length + ((bins.lookup name).getD []).length =
      (bins.flatMap (·.2)).length + List.length b := by
  induction bins with
  | nil => cases h
  | cons p bins ih =>
      obtain ⟨n, old⟩ := p
      rw [lookup_cons_ite] at h ⊢
      unfold replaceBin
      by_cases hn : n = name
      · rw [if_pos hn, if_pos hn.symm]
        simp only [List.flatMap_cons, List.length_append, Option.getD_some]
        omega
      · rw [if_neg (Ne.symm hn)] at h
        rw [if_neg hn, if_neg (Ne.symm hn)]
        have hrest := ih h
        simp only [List.flatMap_cons, List.length_append]
        omega

/-- A bin that is not there is not replaced. -/
theorem replaceBin_of_missing (b : Bin) (bins : List (String × Bin))
    (h : (bins.lookup name).isSome = false) : replaceBin name b bins = bins := by
  induction bins with
  | nil => rfl
  | cons p bins ih =>
      obtain ⟨n, old⟩ := p
      rw [lookup_cons_ite] at h
      by_cases hn : name = n
      · rw [if_pos hn] at h
        cases h
      · rw [if_neg hn] at h
        unfold replaceBin
        rw [if_neg (Ne.symm hn), ih h]

/-- Removing a key takes as many entries from the cache as from its bin. -/
theorem entries_remove (key : List Value) :
    (c.remove name key).stats.entries + (c.bin name).length =
      c.stats.entries + ((c.remove name key).bin name).length := by
  rw [bin_remove, if_pos rfl]
  cases h : (c.bins.lookup name).isSome with
  | true => exact length_replaceBin name ((c.bin name).erase key) c.bins h
  | false =>
      have hbin : c.bin name = [] := c.bin_of_missing name h
      have hbins : (c.remove name key).bins = c.bins := replaceBin_of_missing name _ c.bins h
      have hentries : (c.remove name key).stats.entries = c.stats.entries := by
        unfold stats
        rw [hbins]
      rw [hentries, hbin]
      rfl

theorem entries_removeAll (keys : List (List Value)) :
    (c.removeAll name keys).stats.entries + (c.bin name).length =
      c.stats.entries + ((c.removeAll name keys).bin name).length := by
  induction keys generalizing c with
  | nil => rfl
  | cons key keys ih =>
      have hfirst := c.entries_remove name key
      have hrest := ih (c.remove name key)
      change ((c.remove name key).removeAll name keys).stats.entries + _ =
        _ + (((c.remove name key).removeAll name keys).bin name).length
      omega

/-- Removing the key lists counts the entries that it removes, where each key has one entry. -/
theorem entries_evictKeyLists (h : (c.bin r.keyListBin).keys.Nodup) :
    (c.evictKeyLists r).1 + (c.evictKeyLists r).2.stats.entries = c.stats.entries := by
  have hremoved := c.entries_removeAll r.keyListBin (c.enumerate r.keyListBin)
  rw [bin_removeAll, if_pos rfl] at hremoved
  have hlisted := Bin.keys_fresh_sublist (c.bin r.keyListBin) c.now
  have hleft := Bin.length_without h (hlisted.nodup h)
  rw [List.filter_eq_self.mpr fun key hkey => decide_eq_true (hlisted.subset hkey)] at hleft
  change (c.enumerate r.keyListBin).length +
    (c.removeAll r.keyListBin (c.enumerate r.keyListBin)).stats.entries = _
  unfold enumerate at hremoved ⊢
  omega

end MemoryCache

namespace Directive

variable (d : Directive) (c : MemoryCache)

theorem rowKeys_nodup (h : c.InOrder) : (d.rowKeys c).Nodup := by
  cases d with
  | rows target =>
      cases target with
      | key r k => exact List.nodup_singleton k.values
      | keys r s =>
          exact s.nodup_tuples
  | allRecords r => exact (Bin.keys_fresh_sublist _ _).nodup (h.bins r.rowBin).nodup

/-- The keys that the directive counts although the cache has no row for them. -/
def uncached : List (List Value) :=
  (d.rowKeys c).filter fun key => !(c.bin d.record.rowBin).keys.contains key

/-- The count and the entries that are left are the entries before and the keys that had none. -/
theorem count_add_entries (h : c.InOrder) :
    (d.apply c).1 + (d.apply c).2.stats.entries = c.stats.entries + (d.uncached c).length := by
  have hlistBin : (c.removeAll d.record.rowBin (d.rowKeys c)).bin d.record.keyListBin =
      c.bin d.record.keyListBin := by
    rw [MemoryCache.bin_removeAll, if_neg d.record.rowBin_ne_keyListBin.symm]
  have hlists := (c.removeAll d.record.rowBin (d.rowKeys c)).entries_evictKeyLists d.record
    (by rw [hlistBin]; exact (h.bins _).nodup)
  have hrows := c.entries_removeAll d.record.rowBin (d.rowKeys c)
  rw [MemoryCache.bin_removeAll, if_pos rfl] at hrows
  have hleft := Bin.length_without (h.bins d.record.rowBin).nodup (d.rowKeys_nodup c h)
  have hsplit := List.length_eq_length_filter_add (l := d.rowKeys c)
    (fun key => decide (key ∈ (c.bin d.record.rowBin).keys))
  have huncached : d.uncached c =
      (d.rowKeys c).filter fun key => !decide (key ∈ (c.bin d.record.rowBin).keys) := by
    unfold uncached
    simp only [List.contains_eq_mem]
  rw [huncached, apply_eq]
  change (d.rowKeys c).length +
      ((c.removeAll d.record.rowBin (d.rowKeys c)).evictKeyLists d.record).1 +
      ((c.removeAll d.record.rowBin (d.rowKeys c)).evictKeyLists d.record).2.stats.entries = _
  omega

/-- A directive adds no entries. -/
theorem entries_apply_le (h : c.InOrder) : (d.apply c).2.stats.entries ≤ c.stats.entries := by
  have hcount := d.count_add_entries c h
  have huncached : (d.uncached c).length ≤ (d.rowKeys c).length := List.length_filter_le ..
  have hkeys : (d.rowKeys c).length ≤ (d.apply c).1 := by
    rw [apply_eq]
    exact Nat.le_add_right _ _
  omega

theorem uncached_eq_nil : d.uncached c = [] ↔ d.rowKeys c ⊆ (c.bin d.record.rowBin).keys := by
  unfold uncached
  rw [List.filter_eq_nil_iff]
  constructor
  · intro hall key hkey
    have hcached := hall key hkey
    simpa using hcached
  · intro hsub key hkey
    have hcached := hsub hkey
    simpa using hcached

end Directive

/-- Evicting from a cache adds the count to the statistics. -/
theorem Writing.invalidations_evict {σ : Type} (f : MemoryCache → Nat × MemoryCache)
    {st : WriteState σ} {c : MemoryCache} (h : st.cache = some c) :
    (finalState (Writing.evict f st)).stats.invalidations =
      st.stats.invalidations + (f c).1 := by
  obtain ⟨connection, cache, stats⟩ := st
  obtain rfl : cache = some c := h
  rfl

namespace Modifier

variable {σ α : Type} [Record α]

/-- What a write under a directive adds to its statistics is what the directive counts. -/
theorem invalidations_of_executed {m : Modifier} {conn : Connection σ} {st : WriteState σ}
    {record : α} {d : Directive} {c : MemoryCache} (hguard : m.guard? record = some d)
    (hcache : st.cache = some c) {s : CompiledStatement} {n : Nat}
    (hexecuted : Exchange.execute s (.ok n) ∈ m.exchanges conn st record) :
    (finalState (m.perform conn (st, record))).1.stats.invalidations =
        st.stats.invalidations + (d.apply c).1 ∧
      (finalState (m.perform conn (st, record))).1.cache = some (d.apply c).2 := by
  obtain ⟨compiled, affected, db, hprepare, hexecute⟩ := exists_of_executed hexecuted
  rw [finalState_of_executed st hguard hprepare hexecute]
  have hsent : (sent st record affected db).1.cache = some c := hcache
  constructor
  · exact Writing.invalidations_evict d.apply hsent
  · rw [Writing.cache_evict, hsent]
    rfl

end Modifier

/-- After any calls of a cache, what a directive counts and the entries that it leaves add up to the
entries before and the keys of the directive without an entry.  So it counts the entries that it
evicts if and only if there is an entry under each of its keys.  A write under the directive whose
statement succeeds adds this count to its statistics, and the cache is the one that is left. -/
theorem Directive.evictions_counted (d : Directive) (config : CacheConfig)
    (calls : List CacheCall) :
    let c := (MemoryCache.ofConfig config).run calls
    (d.apply c).1 + (d.apply c).2.stats.entries = c.stats.entries + (d.uncached c).length ∧
      ((d.apply c).1 = c.stats.entries - (d.apply c).2.stats.entries ↔
        d.rowKeys c ⊆ (c.bin d.record.rowBin).keys) ∧
      ∀ {σ α : Type} [Record α] (m : Modifier) (conn : Connection σ) (st : WriteState σ)
        (record : α) (s : CompiledStatement) (n : Nat), m.guard? record = some d →
        st.cache = some c → Exchange.execute s (.ok n) ∈ m.exchanges conn st record →
        (finalState (m.perform conn (st, record))).1.stats.invalidations =
            st.stats.invalidations + (d.apply c).1 ∧
          (finalState (m.perform conn (st, record))).1.cache = some (d.apply c).2 := by
  intro c
  have horder : c.InOrder := (MemoryCache.InOrder.ofConfig config).run calls
  have hcount := d.count_add_entries c horder
  have hle : (d.apply c).2.stats.entries ≤ c.stats.entries := d.entries_apply_le c horder
  refine ⟨hcount, ?_, ?_⟩
  · rw [← Directive.uncached_eq_nil, ← List.length_eq_zero_iff]
    omega
  · intro σ α _ m conn st record s n hguard hcache hexecuted
    exact Modifier.invalidations_of_executed hguard hcache hexecuted

namespace Sample

/-- The calls after which the first item and the keys of all items are cached. -/
def itemCalls : List CacheCall :=
  [.store (.ofRow schema.type [.integer 1]) (.row [.integer 1, .text "one"]) .record,
    .store ⟨"Item#keys", [.text "all"]⟩ (.keys [[.integer 1]]) .shortKeys]

/-- The update of the cached item evicts two entries and counts two. -/
theorem item_update_counted :
    (finalState (Modifier.updateRecord.perform (database [])
        (⟨(), some cachedItems, {}⟩, item 1 "two"))).1.stats.invalidations = 2 ∧
      cachedItems.stats.entries = 2 ∧
      ((Directive.rows (.key _ (itemKey 1))).apply cachedItems).2.stats.entries = 0 := by
  have hprepare : Modifier.updateRecord.prepare (database []).dialect (item 1 "two") = .ok
      ⟨"UPDATE \"items\" SET \"item_name\" = ? WHERE \"item_id\" = ?",
        [.field "name" (.text "two"), .value (.integer 1)]⟩ := rfl
  have hexecute (s : CompiledStatement) : (database []).execute s () = (.ok 1, ()) := rfl
  have hcalls : (MemoryCache.ofConfig { maxEntriesPerBin := 8 }).run itemCalls = cachedItems := rfl
  obtain ⟨-, hexact, hwrites⟩ :=
    Directive.evictions_counted (.rows (.key _ (itemKey 1))) { maxEntriesPerBin := 8 } itemCalls
  rw [hcalls] at hexact hwrites
  have hsub : (Directive.rows (.key _ (itemKey 1))).rowKeys cachedItems ⊆
      (cachedItems.bin schema.type.rowBin).keys := by decide +kernel
  have hbefore : cachedItems.stats.entries = 2 := by decide +kernel
  have hafter : ((Directive.rows (.key _ (itemKey 1))).apply cachedItems).2.stats.entries = 0 := by
    decide +kernel
  have hcount := hexact.mpr hsub
  have hwritten := (hwrites .updateRecord (database []) ⟨(), some cachedItems, {}⟩ (item 1 "two")
    _ _ rfl rfl (Modifier.mem_exchanges_of_executed hprepare (hexecute _))).1
  rw [hcount, hbefore, hafter] at hwritten
  exact ⟨hwritten, hbefore, hafter⟩

/-- For an item that is not cached a directive counts two evictions, its key and the key list, while
only the key list leaves the cache. -/
theorem uncachedItem_counted :
    ((Directive.rows (.key _ (itemKey 2))).apply cachedItems).1 = 2 ∧
      cachedItems.stats.entries -
        ((Directive.rows (.key _ (itemKey 2))).apply cachedItems).2.stats.entries = 1 := by
  decide +kernel

end Sample

end RecordStore
