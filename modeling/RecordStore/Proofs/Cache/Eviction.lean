import RecordStore.Invalidation
import RecordStore.Proofs.Cache.Expiry
import RecordStore.Proofs.Cache.Steps

/-! # What a directive evicts

Applying a directive removes the rows it covers (`Directive.freshAt?_apply_row`) and the key lists
of its record type (`Directive.freshAt?_apply_keyList`).  It only removes (`Directive.apply_steps`).

What is to be removed is looked up in the listing of a bin, which leaves expired entries out: those
are left where they are.  Rows that the directive names by their keys are removed in any case
(`Target.entryAt?_apply`). -/

namespace RecordStore

namespace Bin

variable (b : Bin) (key : List Value) (keys : List (List Value))

/-- The bin without the entries of some keys. -/
def without : Bin := b.filter fun p => !keys.contains p.1

@[simp] theorem without_nil : b.without [] = b := by simp [without]

theorem without_cons : b.without (key :: keys) = (b.erase key).without keys := by
  unfold without erase
  rw [List.filter_filter]
  apply List.filter_congr
  intro p _
  by_cases hkey : p.1 = key <;> simp [hkey]

/-- Without its listed keys a bin lists none. -/
theorem fresh_without_fresh (now : Nat) : (b.without (b.fresh now).keys).fresh now = [] := by
  unfold without fresh
  rw [List.filter_filter, List.filter_eq_nil_iff]
  intro p hp
  by_cases hfresh : p.2.isExpired now = false
  · have hkey : p.1 ∈ keys (b.fresh now) :=
      List.mem_map_of_mem (List.mem_filter.mpr ⟨hp, by rw [hfresh]; rfl⟩)
    simpa [fresh] using fun _ => hkey
  · simp [hfresh]

end Bin

namespace MemoryCache

variable (c : MemoryCache) (name : String) (r : RecordType) (a : CacheAddress)

/-- Removing several keys of a bin filters it and leaves the other bins alone. -/
theorem bin_removeAll (keys : List (List Value)) (m : String) :
    (c.removeAll name keys).bin m = if m = name then (c.bin m).without keys else c.bin m := by
  induction keys generalizing c with
  | nil => simp [removeAll]
  | cons key keys ih =>
      have hstep : c.removeAll name (key :: keys) = (c.remove name key).removeAll name keys := rfl
      rw [hstep, ih, bin_remove]
      by_cases hm : m = name
      · rw [if_pos hm, if_pos hm, if_pos hm, Bin.without_cons]
      · rw [if_neg hm, if_neg hm, if_neg hm]


/-- An entry whose key is not listed is not there or has expired. -/
theorem freshAt?_of_not_mem {name} (h : a.bin = name) (hkey : a.key ∉ c.enumerate name) :
    c.freshAt? a = none := by
  cases he : c.freshAt? a with
  | none => rfl
  | some e =>
      subst h
      exact absurd (c.mem_enumerate a.bin he) hkey

/-- Removing all listed keys of a bin leaves nothing to be found there. -/
theorem freshAt?_removeAll_enumerate :
    (c.removeAll name (c.enumerate name)).freshAt? a =
      if a.bin = name then none else c.freshAt? a := by
  rw [freshAt?_removeAll]
  by_cases hbin : a.bin = name
  · rw [if_pos hbin]
    by_cases hkey : a.key ∈ c.enumerate name
    · rw [if_pos ⟨hbin, hkey⟩]
    · rw [if_neg fun h => hkey h.2]
      exact c.freshAt?_of_not_mem a hbin hkey
  · rw [if_neg hbin, if_neg fun h => hbin h.1]

theorem enumerate_removeAll_enumerate :
    (c.removeAll name (c.enumerate name)).enumerate name = [] := by
  unfold enumerate
  rw [bin_removeAll, if_pos rfl, now_removeAll, Bin.fresh_without_fresh]
  rfl

theorem enumerate_evictKeyLists : (c.evictKeyLists r).2.enumerate r.keyListBin = [] :=
  c.enumerate_removeAll_enumerate r.keyListBin

theorem freshAt?_evictKeyLists :
    (c.evictKeyLists r).2.freshAt? a = if a.bin = r.keyListBin then none else c.freshAt? a :=
  c.freshAt?_removeAll_enumerate r.keyListBin a

theorem freshAt?_evict (keys : List (List Value)) :
    (c.evict r keys).2.freshAt? a =
      if a.bin = r.keyListBin ∨ (a.bin = r.rowBin ∧ a.key ∈ keys) then none else c.freshAt? a := by
  change (((c.removeAll r.rowBin keys).evictKeyLists r).2).freshAt? a = _
  rw [freshAt?_evictKeyLists, freshAt?_removeAll]
  by_cases hlist : a.bin = r.keyListBin
  · rw [if_pos hlist, if_pos (.inl hlist)]
  · rw [if_neg hlist]
    by_cases hrow : a.bin = r.rowBin ∧ a.key ∈ keys
    · rw [if_pos hrow, if_pos (.inr hrow)]
    · rw [if_neg hrow, if_neg fun h => h.elim hlist hrow]

theorem entryAt?_evictKeyLists_of_bin_ne (h : a.bin ≠ r.keyListBin) :
    (c.evictKeyLists r).2.entryAt? a = c.entryAt? a := by
  unfold evictKeyLists
  rw [entryAt?_removeAll, if_neg fun hmem => h hmem.1]

/-- What is evicted is evicted from the two bins of the record type. -/
theorem entryAt?_evict_of_bin_ne (keys : List (List Value)) (hlist : a.bin ≠ r.keyListBin)
    (hrow : a.bin ≠ r.rowBin) : (c.evict r keys).2.entryAt? a = c.entryAt? a := by
  change (((c.removeAll r.rowBin keys).evictKeyLists r).2).entryAt? a = _
  rw [entryAt?_evictKeyLists_of_bin_ne _ _ _ hlist, entryAt?_removeAll, if_neg fun h => hrow h.1]

/-- The rows that are evicted by their keys are gone, even if they had expired, and no others. -/
theorem entryAt?_evict_row (keys : List (List Value)) (key : List Value) :
    (c.evict r keys).2.entryAt? (.ofRow r key) =
      if key ∈ keys then none else c.entryAt? (.ofRow r key) := by
  change (((c.removeAll r.rowBin keys).evictKeyLists r).2).entryAt? _ = _
  rw [entryAt?_evictKeyLists_of_bin_ne _ _ _ r.rowBin_ne_keyListBin, entryAt?_removeAll]
  by_cases hkey : key ∈ keys
  · rw [if_pos hkey]
    exact if_pos ⟨rfl, hkey⟩
  · rw [if_neg hkey]
    exact if_neg fun h => hkey h.2

theorem evictKeyLists_steps {Stored : Storable} : CacheSteps Stored c (c.evictKeyLists r).2 :=
  CacheSteps.removeAll c _ _

theorem evict_steps {Stored : Storable} (keys : List (List Value)) :
    CacheSteps Stored c (c.evict r keys).2 :=
  (CacheSteps.removeAll c r.rowBin keys).trans (evictKeyLists_steps _ r)

end MemoryCache

/-- Of the rows of the record type, those with the keys are evicted and the others stay. -/
theorem Target.entryAt?_apply {target : Target} {r : RecordType}
    (h : target.record.sameAs r = true) (key : List Value) (c : MemoryCache) :
    ((Directive.rows target).apply c).2.entryAt? (.ofRow r key) =
      if key ∈ target.tuples then none else c.entryAt? (.ofRow r key) := by
  have haddress : CacheAddress.ofRow r key = .ofRow target.record key :=
    congrArg (CacheAddress.mk · key) (beq_iff_eq.mp h).symm
  rw [haddress]
  exact c.entryAt?_evict_row target.record target.tuples key

namespace Directive

/-- The directive says that the row of this key may change. -/
def covers (d : Directive) (r : RecordType) (key : List Value) : Prop :=
  d.record.sameAs r = true ∧
    match d with
    | rows target => key ∈ target.tuples
    | allRecords _ => True

variable (d : Directive) (c : MemoryCache)

theorem apply_steps {Stored : Storable} : CacheSteps Stored c (d.apply c).2 := by
  cases d with
  | rows target => exact MemoryCache.evict_steps c target.record target.tuples
  | allRecords r => exact MemoryCache.evict_steps c r _

/-- No time passes while a directive is applied. -/
theorem now_apply : (d.apply c).2.now = c.now := by
  have hevict (r : RecordType) (keys : List (List Value)) : (c.evict r keys).2.now = c.now :=
    (MemoryCache.now_removeAll _ _ _).trans (c.now_removeAll _ _)
  cases d with
  | rows target => exact hevict _ _
  | allRecords r => exact hevict _ _

/-- Applying a directive concerns the two bins of its record type. -/
theorem entryAt?_apply_of_bin_ne {a : CacheAddress} (hlist : a.bin ≠ d.record.keyListBin)
    (hrow : a.bin ≠ d.record.rowBin) : (d.apply c).2.entryAt? a = c.entryAt? a := by
  cases d with
  | rows target => exact c.entryAt?_evict_of_bin_ne _ a _ hlist hrow
  | allRecords r => exact c.entryAt?_evict_of_bin_ne _ a _ hlist hrow

/-- No key list of the record type is listed any more. -/
theorem enumerate_apply_keyList {r : RecordType} (h : d.record.sameAs r = true) :
    (d.apply c).2.enumerate r.keyListBin = [] := by
  have hbin : r.keyListBin = d.record.keyListBin :=
    congrArg (· ++ "#keys") (beq_iff_eq.mp h).symm
  rw [hbin]
  cases d with
  | rows target => exact MemoryCache.enumerate_evictKeyLists (c.removeAll _ _) target.record
  | allRecords s => exact MemoryCache.enumerate_evictKeyLists (c.removeAll _ _) s

/-- No key list of the record type is left. -/
theorem freshAt?_apply_keyList {r : RecordType} (h : d.record.sameAs r = true) (key : List Value) :
    (d.apply c).2.freshAt? ⟨r.keyListBin, key⟩ = none := by
  have hbin : r.keyListBin = d.record.keyListBin :=
    congrArg (· ++ "#keys") (beq_iff_eq.mp h).symm
  cases d with
  | rows target =>
      exact (MemoryCache.freshAt?_evict c target.record _ _).trans (if_pos (.inl hbin))
  | allRecords s => exact (MemoryCache.freshAt?_evict c s _ _).trans (if_pos (.inl hbin))

/-- No row that the directive covers is left. -/
theorem freshAt?_apply_row {r : RecordType} {key : List Value} (h : d.covers r key) :
    (d.apply c).2.freshAt? (.ofRow r key) = none := by
  have hbin : r.rowBin = d.record.rowBin := (beq_iff_eq.mp h.1).symm
  cases d with
  | rows target =>
      exact (MemoryCache.freshAt?_evict c target.record _ _).trans (if_pos (.inr ⟨hbin, h.2⟩))
  | allRecords s =>
      change (c.evict s (c.enumerate s.rowBin)).2.freshAt? (.ofRow r key) = none
      rw [MemoryCache.freshAt?_evict]
      split
      · rfl
      · next hkept =>
          refine MemoryCache.freshAt?_of_not_mem c _ hbin fun hkey => ?_
          exact hkept (.inr ⟨hbin, hkey⟩)

end Directive

end RecordStore
