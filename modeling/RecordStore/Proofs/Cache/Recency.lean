import Mathlib.Data.List.Infix
import Mathlib.Data.List.Nodup
import Mathlib.Data.List.Perm.Subperm
import RecordStore.Cache.Memory
import RecordStore.Distinct

/-! # The order of a bin

A bin lists its entries by their last use.  `Bin.Keeps` says of some keys that their entries are
among the first ones, together with no others than those of some used keys.  Using an entry puts its
key among the kept ones (`Bin.Keeps.touch`), removing the entry of another key changes nothing
(`Bin.Keeps.erase`), and storing drops none of them as long as the used keys fit into the bin
(`Bin.Keeps.store`): the entry that is dropped is the last one, which is not among the first.

A bin is in order when each key has one entry and not too many are there (`Bin.Ordered`).  Then
storing drops one entry or none (`Bin.Ordered.length_dropped`). -/

namespace RecordStore

/-- A list without repetitions is not longer than the distinct members of a list with its members.
-/
theorem length_le_distinct {α : Type} [DecidableEq α] {xs ys : List α} (h : xs.Nodup)
    (hsub : xs ⊆ ys) : xs.length ≤ (distinct ys).length :=
  (List.Nodup.subperm h fun _ hx => mem_distinct.mpr (hsub hx)).length_le

/-- There are no more distinct members than members of any list with all of them. -/
theorem length_distinct_le {α : Type} [DecidableEq α] {xs ys : List α} (hsub : xs ⊆ ys) :
    (distinct xs).length ≤ ys.length :=
  (List.Nodup.subperm (nodup_distinct xs) fun _ hx => hsub (mem_distinct.mp hx)).length_le

namespace Bin

variable {b : Bin} {kept used : List (List Value)} {capacity : Nat}

/-! ### The keys of a bin after an operation -/

@[simp] theorem keys_cons (key : List Value) (entry : CacheEntry) :
    Bin.keys ((key, entry) :: b) = key :: b.keys := rfl

@[simp] theorem keys_append (b' : Bin) : Bin.keys (b ++ b') = b.keys ++ b'.keys := List.map_append

theorem keys_erase (key : List Value) : (b.erase key).keys = b.keys.filter (· ≠ key) := by
  unfold keys erase
  rw [List.filter_map]
  rfl

theorem keys_touch (key : List Value) (entry : CacheEntry) :
    (b.touch key entry).keys = key :: b.keys.filter (· ≠ key) := by
  rw [touch, keys_cons, keys_erase]

theorem nodup_touch {key : List Value} {entry : CacheEntry} (h : b.keys.Nodup) :
    (b.touch key entry).keys.Nodup := by
  rw [keys_touch]
  exact List.nodup_cons.mpr ⟨by simp, h.filter _⟩

theorem length_keys : b.keys.length = List.length b := List.length_map _

theorem keys_dropLast : Bin.keys b.dropLast = b.keys.dropLast := List.map_dropLast

theorem not_mem_keys {key : List Value} : key ∉ b.keys ↔ b.find? key = none := by
  rw [mem_keys, Option.not_isSome_iff_eq_none]

/-- Storing drops an entry if the bin is full and has none under the key. -/
theorem evicts_eq_true {key : List Value} :
    b.evicts capacity key = true ↔ capacity ≤ b.length ∧ key ∉ b.keys := by
  unfold evicts isFull
  rw [Bool.and_eq_true, decide_eq_true_eq, Option.isNone_iff_eq_none, not_mem_keys]

/-! ### Entries that are kept -/

/-- The first entries, which are under distinct keys of those used, have all the keys that are kept.
-/
def Keeps (b : Bin) (kept used : List (List Value)) : Prop :=
  ∃ front rest : Bin, b = front ++ rest ∧ front.keys.Nodup ∧ front.keys ⊆ used ∧ kept ⊆ front.keys

namespace Keeps

theorem none : b.Keeps [] used := ⟨[], b, rfl, .nil, List.nil_subset _, List.nil_subset _⟩

theorem mono {kept' used' : List (List Value)} (h : b.Keeps kept used) (hkept : kept' ⊆ kept)
    (hused : used ⊆ used') : b.Keeps kept' used' := by
  obtain ⟨front, rest, hb, hnodup, hfront, hsub⟩ := h
  exact ⟨front, rest, hb, hnodup, List.Subset.trans hfront hused, List.Subset.trans hkept hsub⟩

/-- There is an entry under a key that is kept. -/
theorem isSome_find? (h : b.Keeps kept used) {key : List Value} (hkey : key ∈ kept) :
    (b.find? key).isSome = true := by
  obtain ⟨front, rest, rfl, -, -, hsub⟩ := h
  rw [← mem_keys, keys_append]
  exact List.mem_append_left _ (hsub hkey)

/-- The entry that is used comes first. -/
theorem touch (h : b.Keeps kept used) (key : List Value) (entry : CacheEntry) :
    (b.touch key entry).Keeps (key :: kept) (key :: used) := by
  obtain ⟨front, rest, rfl, hnodup, hfront, hsub⟩ := h
  refine ⟨front.touch key entry, rest.erase key, ?_, ?_, ?_, ?_⟩
  · unfold Bin.touch Bin.erase
    rw [List.filter_append, List.cons_append]
  · exact nodup_touch hnodup
  · rw [keys_touch]
    intro k hk
    rcases List.mem_cons.mp hk with rfl | hk
    · exact List.mem_cons_self
    · exact List.mem_cons_of_mem _ (hfront (List.mem_filter.mp hk).1)
  · rw [keys_touch]
    intro k hk
    by_cases hkey : k = key
    · rw [hkey]
      exact List.mem_cons_self
    · have hmem : k ∈ kept := (List.mem_cons.mp hk).resolve_left hkey
      exact List.mem_cons_of_mem _ (List.mem_filter.mpr ⟨hsub hmem, by simpa using hkey⟩)

/-- Removing an entry that is not kept. -/
theorem erase (h : b.Keeps kept used) {key : List Value} (hkey : key ∉ kept) :
    (b.erase key).Keeps kept used := by
  obtain ⟨front, rest, rfl, hnodup, hfront, hsub⟩ := h
  refine ⟨front.erase key, rest.erase key, List.filter_append .., ?_, ?_, ?_⟩
  · rw [keys_erase]
    exact hnodup.filter _
  · rw [keys_erase]
    exact List.Subset.trans (List.filter_subset_self _) hfront
  · rw [keys_erase]
    intro k hk
    have hne : k ≠ key := fun heq => hkey (heq ▸ hk)
    exact List.mem_filter.mpr ⟨hsub hk, by simpa using hne⟩

/-- A key that is used whenever it is found is kept with the others then.  Its entry may have
expired if it is not kept. -/
theorem lookedUp (h : b.Keeps kept used) {now : Nat} {key : List Value}
    (hkey : (b.find? key).isSome = true → key ∈ used)
    (hexpired : ∀ entry, b.find? key = some entry → entry.isExpired now = true → key ∉ kept) :
    (b.lookedUp now key).Keeps kept used := by
  cases hfind : b.find? key with
  | none =>
      rw [lookedUp_of_none hfind]
      exact h
  | some entry =>
      cases hnow : entry.isExpired now with
      | true =>
          rw [lookedUp_of_expired hfind hnow]
          exact h.erase (hexpired entry hfind hnow)
      | false =>
          rw [lookedUp_of_fresh hfind hnow]
          have hused : key ∈ used := hkey (by rw [hfind]; rfl)
          exact (h.touch key entry).mono (List.subset_cons_self key kept)
            (List.cons_subset.mpr ⟨hused, List.Subset.refl used⟩)

/-- What is stored comes first, and no entry that is kept is dropped while the keys fit. -/
theorem store (h : b.Keeps kept used) {key : List Value} (entry : CacheEntry)
    (hroom : (distinct (key :: used)).length ≤ capacity) :
    (b.store capacity key entry).Keeps (key :: kept) (key :: used) := by
  unfold Bin.store
  split
  · next hevicts =>
    obtain ⟨hfull, hnew⟩ := evicts_eq_true.mp hevicts
    obtain ⟨front, rest, rfl, hnodup, hfront, hsub⟩ := h
    rw [keys_append, List.mem_append, not_or] at hnew
    have hnodup' : (key :: front.keys).Nodup := List.nodup_cons.mpr ⟨hnew.1, hnodup⟩
    -- The stored key and the first ones fit, so the last entry is one of the rest.
    have hlength : front.length < (front ++ rest).length := by
      have hle := length_le_distinct hnodup' (List.cons_subset_cons key hfront)
      rw [List.length_cons, length_keys] at hle
      omega
    have hrest : rest ≠ [] := by
      rintro rfl
      simp at hlength
    refine ⟨(key, entry) :: front, rest.dropLast, ?_, hnodup', List.cons_subset_cons key hfront,
      List.cons_subset_cons key hsub⟩
    rw [List.dropLast_append_of_ne_nil hrest, List.cons_append]
  · exact h.touch key entry

end Keeps

/-! ### Bins in order -/

/-- There is one entry for each key, and there are not too many. -/
structure Ordered (capacity : Nat) (b : Bin) : Prop where
  nodup : b.keys.Nodup
  length_le : b.length ≤ capacity

/-- The keys whose entries are gone after storing under a key. -/
def dropped (b : Bin) (capacity : Nat) (key : List Value) (entry : CacheEntry) :
    List (List Value) :=
  b.keys.filter fun k => ((b.store capacity key entry).find? k).isNone

namespace Ordered

theorem nil : Ordered capacity [] := ⟨.nil, Nat.zero_le _⟩

theorem erase (h : Ordered capacity b) (key : List Value) : Ordered capacity (b.erase key) where
  nodup := by
    rw [keys_erase]
    exact h.nodup.filter _
  length_le := Nat.le_trans (List.length_filter_le ..) h.length_le

/-- Using an entry leaves the number of entries as it was. -/
theorem touch_of_mem (h : Ordered capacity b) {key : List Value} (hkey : key ∈ b.keys)
    (entry : CacheEntry) : Ordered capacity (b.touch key entry) := by
  have hnodup : (b.touch key entry).keys.Nodup := nodup_touch h.nodup
  refine ⟨hnodup, ?_⟩
  have hsub : (b.touch key entry).keys ⊆ b.keys := by
    rw [keys_touch]
    exact List.cons_subset.mpr ⟨hkey, List.filter_subset_self _⟩
  have hle := (List.Nodup.subperm hnodup hsub).length_le
  rw [length_keys, length_keys] at hle
  exact Nat.le_trans hle h.length_le

theorem lookedUp (h : Ordered capacity b) (now : Nat) (key : List Value) :
    Ordered capacity (b.lookedUp now key) := by
  unfold Bin.lookedUp
  split
  · next entry hfind =>
    split
    · exact h.erase key
    · exact h.touch_of_mem (mem_keys b key |>.mpr (by rw [hfind]; rfl)) entry
  · exact h

theorem store (h : Ordered capacity b) (hcapacity : 0 < capacity) (key : List Value)
    (entry : CacheEntry) : Ordered capacity (b.store capacity key entry) := by
  unfold Bin.store
  split
  · next hevicts =>
    obtain ⟨-, hnew⟩ := evicts_eq_true.mp hevicts
    refine ⟨?_, ?_⟩
    · rw [keys_cons, keys_dropLast]
      exact List.nodup_cons.mpr ⟨fun hmem => hnew (List.mem_of_mem_dropLast hmem),
        h.nodup.sublist (List.dropLast_sublist _)⟩
    · have hle := h.length_le
      rw [List.length_cons, List.length_dropLast]
      omega
  · next hevicts =>
    by_cases hkey : key ∈ b.keys
    · exact h.touch_of_mem hkey entry
    · have hroom : ¬ capacity ≤ b.length := fun hfull => hevicts (evicts_eq_true.mpr ⟨hfull, hkey⟩)
      refine ⟨nodup_touch h.nodup, ?_⟩
      have hle : (b.erase key).length ≤ b.length := List.length_filter_le ..
      rw [Bin.touch, List.length_cons]
      omega

/-- Storing drops one entry or none. -/
theorem length_dropped (h : Ordered capacity b) (hcapacity : 0 < capacity) (key : List Value)
    (entry : CacheEntry) :
    (b.dropped capacity key entry).length = if b.evicts capacity key then 1 else 0 := by
  have hdropped (b' : Bin) (hb' : b.store capacity key entry = b') :
      b.dropped capacity key entry = b.keys.filter (· ∉ b'.keys) := by
    unfold dropped
    rw [hb']
    refine List.filter_congr fun k _ => ?_
    rw [Bool.eq_iff_iff, Option.isNone_iff_eq_none, decide_eq_true_eq, not_mem_keys]
  rw [hdropped _ rfl]
  unfold Bin.store
  split
  · next hevicts =>
    obtain ⟨hfull, hnew⟩ := evicts_eq_true.mp hevicts
    have hne : b.keys ≠ [] := by
      intro hnil
      have hlength : b.keys.length = b.length := length_keys
      rw [hnil, List.length_nil] at hlength
      omega
    -- All keys but the last one are left.
    obtain ⟨first, last, hkeys⟩ := List.eq_nil_or_concat b.keys |>.resolve_left hne
    have hnodup := h.nodup
    rw [List.concat_eq_append] at hkeys
    rw [hkeys] at hnodup hnew
    rw [keys_cons, keys_dropLast, hkeys, List.dropLast_concat, List.filter_append]
    have hfirst : first.filter (· ∉ key :: first) = [] :=
      List.filter_eq_nil_iff.mpr fun k hk => by simp [hk]
    have hlast : last ∉ key :: first := by
      intro hmem
      rcases List.mem_cons.mp hmem with rfl | hmem
      · exact hnew (by simp)
      · exact List.disjoint_of_nodup_append hnodup hmem (by simp)
    rw [hfirst, List.filter_cons_of_pos (by simpa using hlast)]
    rfl
  · rw [keys_touch, List.length_eq_zero_iff, List.filter_eq_nil_iff]
    intro k hk
    by_cases hkey : k = key <;> simp [hkey, hk]

end Ordered

end Bin

end RecordStore
