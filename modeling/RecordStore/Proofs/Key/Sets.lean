import Mathlib.Data.Finset.Card
import Mathlib.Data.List.Nodup
import RecordStore.Key.Set
import RecordStore.Proofs.Computation

/-! # Sets of keys

In whichever of its forms, a set represents the list without repetitions of the keys that it lists
(`KeySet.represents_keys`), and the set of the keys of a list represents their first occurrences
(`KeySet.represents_ofKeys`): what is asked of the set is answered as for that list.  Tuples of
values make the set of the keys with these values (`KeySet.ofValues_eq_ok`), and the chunks of a set
part it (`KeySet.isParted_chunks`).  `KeySet.ofKeys_once` puts this together for hash sets that list
their members in any order. -/

namespace RecordStore

/-! ### Lists without repetitions -/

section

variable {α β : Type} [DecidableEq α] [DecidableEq β]

theorem distinctFrom_of_nodup {seen xs : List α} (hnodup : xs.Nodup)
    (hnew : ∀ x ∈ xs, x ∉ seen) : distinctFrom seen xs = xs := by
  induction xs generalizing seen with
  | nil => rfl
  | cons x xs ih =>
      obtain ⟨hx, hxs⟩ := List.nodup_cons.mp hnodup
      rw [distinctFrom, if_neg (hnew x List.mem_cons_self), ih hxs]
      intro y hy hmem
      rcases List.mem_cons.mp hmem with rfl | hseen
      · exact hx hy
      · exact hnew y (List.mem_cons_of_mem x hy) hseen

/-- A list without repetitions is its own list of distinct members. -/
theorem distinct_of_nodup {xs : List α} (h : xs.Nodup) : distinct xs = xs :=
  distinctFrom_of_nodup h fun _ _ => List.not_mem_nil

theorem distinctFrom_map {f : α → β} (hf : Function.Injective f) (seen xs : List α) :
    distinctFrom (seen.map f) (xs.map f) = (distinctFrom seen xs).map f := by
  induction xs generalizing seen with
  | nil => rfl
  | cons x xs ih =>
      rw [List.map_cons, distinctFrom, distinctFrom]
      simp only [List.mem_map_of_injective hf]
      split
      · exact ih seen
      · rw [List.map_cons, ← ih, List.map_cons]

/-- What is told apart stays apart. -/
theorem distinct_map {f : α → β} (hf : Function.Injective f) (xs : List α) :
    distinct (xs.map f) = (distinct xs).map f := distinctFrom_map hf [] xs

theorem distinctFrom_in_order (seen xs : List α) :
    (distinctFrom seen xs).Pairwise fun a b => xs.idxOf a < xs.idxOf b := by
  induction xs generalizing seen with
  | nil => exact .nil
  | cons x xs ih =>
      -- None of these members is `x`, so each stands one place further back behind `x`.
      have hshift {seen : List α} (hx : x ∈ seen) : (distinctFrom seen xs).Pairwise
          fun a b => (x :: xs).idxOf a < (x :: xs).idxOf b := by
        refine (ih seen).imp_of_mem fun {a b} ha hb hlt => ?_
        have hne {c : α} (hc : c ∈ distinctFrom seen xs) : x ≠ c := fun h =>
          (mem_distinctFrom.mp hc).2 (h ▸ hx)
        rw [List.idxOf_cons_ne _ (hne ha), List.idxOf_cons_ne _ (hne hb)]
        exact Nat.succ_lt_succ hlt
      unfold distinctFrom
      split
      · next hseen => exact hshift hseen
      · refine List.pairwise_cons.mpr ⟨fun b hb => ?_, hshift List.mem_cons_self⟩
        have hne : x ≠ b := fun h => (mem_distinctFrom.mp hb).2 (h ▸ List.mem_cons_self)
        rw [List.idxOf_cons_self, List.idxOf_cons_ne _ hne]
        exact Nat.succ_pos _

/-- The distinct members stand in the order of their first occurrences. -/
theorem distinct_in_order (xs : List α) :
    (distinct xs).Pairwise fun a b => xs.idxOf a < xs.idxOf b := distinctFrom_in_order [] xs

end

/-- Without repetitions a member is in one of the lists. -/
theorem countP_mem_of_nodup {α : Type} [BEq α] [LawfulBEq α] {lists : List (List α)}
    (h : lists.flatten.Nodup) (a : α) :
    lists.countP (fun list => decide (a ∈ list)) = if a ∈ lists.flatten then 1 else 0 := by
  induction lists with
  | nil => rfl
  | cons list lists ih =>
      rw [List.flatten_cons] at h
      have hdisjoint := List.disjoint_of_nodup_append h
      rw [List.countP_cons, ih (h.sublist (List.sublist_append_right ..)), List.flatten_cons]
      by_cases ha : a ∈ list
      · have hnot : a ∉ lists.flatten := fun hmem => hdisjoint ha hmem
        rw [if_neg hnot, if_pos (decide_eq_true ha), if_pos (List.mem_append_left _ ha)]
      · simp only [List.mem_append, ha, false_or, decide_false, Bool.false_eq_true, if_false,
          Nat.add_zero]

theorem RecordType.requireKey_eq_ok {r : RecordType} :
    r.requireKey = .ok () ↔ r.hasKey = true := by
  unfold requireKey
  split <;> simp_all

/-! ### Keys from values -/

section

variable {r : RecordType} {keys : List (Key r)} {tuples : List (List Value)}

theorem RecordType.hasKey_of_width (h : 0 < r.primaryKey.length) : r.hasKey = true := by
  unfold hasKey
  rw [Bool.not_eq_true', List.isEmpty_eq_false_iff]
  exact List.length_pos_iff.mp h

theorem RecordType.width_of_hasKey (h : r.hasKey = true) : 0 < r.primaryKey.length := by
  unfold hasKey at h
  rw [Bool.not_eq_true', List.isEmpty_eq_false_iff] at h
  exact List.length_pos_iff.mpr h

theorem Key.ofValues_values (k : Key r) : Key.ofValues r k.values = .ok k := by
  unfold ofValues
  rw [dif_pos k.hasKey, dif_pos k.width]

theorem Key.values_injective : Function.Injective (Key.values (r := r)) := by
  rintro ⟨values, hasKey, width⟩ ⟨_, _, _⟩ rfl
  rfl

/-- The values of keys are read as these keys. -/
theorem filterMap_ofValues (keys : List (Key r)) : (keys.map (·.values)).filterMap
    (fun values => (Key.ofValues r values).toOption) = keys := by
  induction keys with
  | nil => rfl
  | cons key keys ih =>
      rw [List.map_cons, List.filterMap_cons, key.ofValues_values, ih]
      rfl

/-- Tuples with one value for each key field are the values of keys. -/
theorem exists_keys (hkey : r.hasKey = true)
    (hwidth : ∀ tuple ∈ tuples, tuple.length = r.primaryKey.length) :
    ∃ keys : List (Key r), keys.map (·.values) = tuples :=
  ⟨tuples.pmap (fun tuple h => ⟨tuple, hkey, h⟩) hwidth, by
    rw [List.map_pmap, List.pmap_eq_map, List.map_id']⟩

/-- Reading tuples as keys gives the keys with these values. -/
theorem mapM_ofValues : tuples.mapM (Key.ofValues r) = .ok keys ↔ keys.map (·.values) = tuples := by
  constructor
  · intro h
    induction tuples generalizing keys with
    | nil =>
        cases h
        rfl
    | cons tuple tuples ih =>
        obtain ⟨key, rest, hkey, hrest, rfl⟩ := except_mapM_cons_eq_ok.mp h
        rw [List.map_cons, ih hrest]
        unfold Key.ofValues at hkey
        split at hkey
        · split at hkey
          · cases hkey
            rfl
          · cases hkey
        · cases hkey
  · rintro rfl
    induction keys with
    | nil => rfl
    | cons key keys ih =>
        exact except_mapM_cons_eq_ok.mpr ⟨key, keys, key.ofValues_values, ih, rfl⟩

end

namespace KeySet

variable {r : RecordType} {s : KeySet r} {keys : List (Key r)} {tuples : List (List Value)}
  {order : HashOrder}

/-! ### What sets represent -/

/-- The set keeps these keys: none, the value of each in their order, or the tuple of each in any
order. -/
inductive Represents (keys : List (Key r)) : KeySet r → Prop
  | empty (h : keys = []) : Represents keys .empty
  | single {width values filled nodup} (h : values.map ([·]) = keys.map (·.values)) :
      Represents keys (.single width values filled nodup)
  | multi {width tuples filled nodup widths} (h : tuples.Perm (keys.map (·.values))) :
      Represents keys (.multi width tuples filled nodup widths)

namespace Represents

theorem tuples_perm (h : s.Represents keys) : s.tuples.Perm (keys.map (·.values)) := by
  cases h with
  | empty h =>
      subst h
      exact .refl _
  | single h => exact .of_eq h
  | multi h => exact h

theorem keys_perm (h : s.Represents keys) : s.keys.Perm keys := by
  have hkeys := h.tuples_perm.filterMap fun values => (Key.ofValues r values).toOption
  rwa [filterMap_ofValues] at hkeys

/-- Values of one field are kept in their order. -/
theorem keys_eq (h : s.Represents keys) (hwidth : r.primaryKey.length = 1) : s.keys = keys := by
  cases h with
  | empty h => exact h.symm
  | @single width values filled nodup h =>
      change (values.map ([·])).filterMap _ = keys
      rw [h, filterMap_ofValues]
  | @multi width => omega

theorem size_eq (h : s.Represents keys) : s.size = keys.length := by
  cases h with
  | empty h =>
      subst h
      rfl
  | @single width values filled nodup h =>
      change values.length = keys.length
      simpa using congrArg List.length h
  | @multi width tuples filled nodup widths h =>
      change tuples.length = keys.length
      simpa using h.length_eq

theorem contains_iff (h : s.Represents keys) {k : Key r} : s.contains k = true ↔ k ∈ keys := by
  rw [← List.mem_map_of_injective Key.values_injective]
  cases h with
  | empty h =>
      subst h
      exact iff_of_false Bool.false_ne_true List.not_mem_nil
  | @single width values _ _ h =>
      obtain ⟨v, hv⟩ := List.length_eq_one_iff.mp (k.width.trans width)
      rw [← h, hv, List.mem_map_of_injective List.singleton_injective]
      unfold contains
      rw [hv]
      exact List.contains_iff_mem
  | multi h =>
      rw [← h.mem_iff]
      exact List.contains_iff_mem

end Represents

theorem widths_tuples (s : KeySet r) : ∀ tuple ∈ s.tuples, tuple.length = r.primaryKey.length := by
  cases s with
  | empty => nofun
  | single width values _ _ =>
      intro tuple h
      obtain ⟨v, -, rfl⟩ := List.mem_map.mp h
      exact width.symm
  | multi _ _ _ _ widths => exact widths

theorem nodup_tuples (s : KeySet r) : s.tuples.Nodup := by
  cases s with
  | empty => exact .nil
  | single _ _ _ nodup => exact nodup.map List.singleton_injective
  | multi _ _ _ nodup _ => exact nodup

/-- Every member is a key. -/
theorem map_values_keys (s : KeySet r) : s.keys.map (·.values) = s.tuples := by
  obtain ⟨keys, hkeys⟩ : ∃ keys : List (Key r), keys.map (·.values) = s.tuples := by
    cases s with
    | empty => exact ⟨[], rfl⟩
    | single width values filled nodup =>
        exact exists_keys (RecordType.hasKey_of_width (by omega)) (widths_tuples _)
    | multi width tuples filled nodup widths =>
        exact exists_keys (RecordType.hasKey_of_width (by omega)) widths
  unfold KeySet.keys
  rw [← hkeys, filterMap_ofValues]

theorem nodup_keys (s : KeySet r) : s.keys.Nodup :=
  List.Nodup.of_map _ (by rw [map_values_keys]; exact s.nodup_tuples)

/-- A set represents the keys that it lists. -/
theorem represents_keys (s : KeySet r) : s.Represents s.keys := by
  have hkeys := s.map_values_keys
  cases s with
  | empty => exact .empty rfl
  | single => exact .single hkeys.symm
  | multi => exact .multi (.of_eq hkeys.symm)

theorem size_eq (s : KeySet r) : s.size = s.tuples.length := by
  rw [s.represents_keys.size_eq, ← s.map_values_keys, List.length_map]

theorem contains_iff {k : Key r} : s.contains k = true ↔ k ∈ s.keys :=
  s.represents_keys.contains_iff

/-- Sets that list the same members in the same order are the same. -/
theorem eq_of_tuples {s' : KeySet r} (h : s.tuples = s'.tuples) : s = s' := by
  cases s with
  | empty =>
      cases s' with
      | empty => rfl
      | single _ _ filled _ => exact absurd (List.map_eq_nil_iff.mp h.symm) filled
      | multi _ _ filled _ _ => exact absurd h.symm filled
  | single width values filled _ =>
      cases s' with
      | empty => exact absurd (List.map_eq_nil_iff.mp h) filled
      | single _ values' _ _ =>
          obtain rfl : values = values' := List.map_injective_iff.mpr List.singleton_injective h
          rfl
      | multi width' => omega
  | multi width tuples filled _ _ =>
      cases s' with
      | empty => exact absurd h filled
      | single width' => omega
      | multi _ tuples' _ _ _ =>
          obtain rfl : tuples = tuples' := h
          rfl

/-- Keys of one field are kept by their values, each once. -/
theorem map_firstValues (hwidth : ¬ 1 < r.primaryKey.length) (keys : List (Key r)) :
    (firstValues keys).map ([·]) = (distinct keys).map (·.values) := by
  have hvalues : (keys.filterMap (·.values.head?)).map ([·]) = keys.map (·.values) := by
    induction keys with
    | nil => rfl
    | cons key keys ih =>
        have hpos := RecordType.width_of_hasKey key.hasKey
        obtain ⟨v, hv⟩ := List.length_eq_one_iff.mp (show key.values.length = 1 by
          rw [key.width]
          omega)
        rw [List.filterMap_cons, List.map_cons, hv, ← ih]
        rfl
  unfold firstValues
  rw [← distinct_map List.singleton_injective, hvalues, distinct_map Key.values_injective]

/-- The set of the keys of a list represents their first occurrences. -/
theorem represents_ofKeys (keys : List (Key r)) (order : HashOrder) :
    (ofKeys keys order).Represents (distinct keys) := by
  unfold ofKeys
  split
  · have hperm : (hashed order keys).Perm ((distinct keys).map (·.values)) := by
      rw [← distinct_map Key.values_injective]
      exact order.perm _
    split
    · next hempty =>
        rw [hempty] at hperm
        exact .empty (List.map_eq_nil_iff.mp hperm.nil_eq.symm)
    · exact .multi hperm
  · next hwidth =>
      have hvalues := map_firstValues hwidth keys
      split
      · next hempty =>
          rw [hempty] at hvalues
          exact .empty (List.map_eq_nil_iff.mp hvalues.symm)
      · exact .single hvalues

/-- The set of keys without repetitions represents them. -/
theorem represents_of_nodup (h : keys.Nodup) (order : HashOrder) :
    (ofKeys keys order).Represents keys := by
  have hkeys := represents_ofKeys keys order
  rwa [distinct_of_nodup h] at hkeys

/-- Hash sets that list their members as they were first mentioned are made in this order. -/
theorem tuples_ofKeys (keys : List (Key r)) :
    (ofKeys keys).tuples = (distinct keys).map (·.values) := by
  unfold ofKeys
  split
  · have hperm : hashed .firstMention keys = (distinct keys).map (·.values) :=
      distinct_map Key.values_injective keys
    split
    · next hempty => exact hempty.symm.trans hperm
    · exact hperm
  · next hwidth =>
      have hvalues := map_firstValues hwidth keys
      split
      · next hempty =>
          rw [hempty] at hvalues
          exact hvalues
      · exact hvalues

/-- The set of the keys that a set lists is the set. -/
theorem ofKeys_keys (s : KeySet r) : ofKeys s.keys = s := by
  refine eq_of_tuples ?_
  rw [tuples_ofKeys, distinct_of_nodup s.nodup_keys, map_values_keys]

theorem mem_tuples_ofKeys {tuple : List Value} :
    tuple ∈ (ofKeys keys order).tuples ↔ ∃ key ∈ keys, key.values = tuple := by
  rw [(represents_ofKeys keys order).tuples_perm.mem_iff]
  simp only [List.mem_map, mem_distinct]

/-! ### Sets from tuples -/

/-- The set of tuples is the set of the keys with these values. -/
theorem ofValues_eq_ok : ofValues r tuples order = .ok s ↔
    r.hasKey = true ∧ ∃ keys, keys.map (·.values) = tuples ∧ ofKeys keys order = s := by
  constructor
  · intro h
    obtain ⟨_, hrequired, h⟩ := except_bind_eq_ok.mp h
    obtain ⟨keys, hkeys, h⟩ := except_bind_eq_ok.mp h
    exact ⟨RecordType.requireKey_eq_ok.mp hrequired, keys, mapM_ofValues.mp hkeys, Except.ok.inj h⟩
  · rintro ⟨hkey, keys, hkeys, rfl⟩
    refine except_bind_eq_ok.mpr ⟨(), RecordType.requireKey_eq_ok.mpr hkey, ?_⟩
    exact except_bind_eq_ok.mpr ⟨keys, mapM_ofValues.mpr hkeys, rfl⟩

/-- Tuples with one value for each key field are a set of keys. -/
theorem exists_ofValues (hkey : r.hasKey = true)
    (hwidth : ∀ tuple ∈ tuples, tuple.length = r.primaryKey.length) (order : HashOrder) :
    ∃ s, ofValues r tuples order = .ok s ∧ ∀ tuple, tuple ∈ s.tuples ↔ tuple ∈ tuples := by
  obtain ⟨keys, hkeys⟩ := exists_keys hkey hwidth
  refine ⟨ofKeys keys order, ofValues_eq_ok.mpr ⟨hkey, keys, hkeys, rfl⟩, fun tuple => ?_⟩
  rw [mem_tuples_ofKeys, ← hkeys, List.mem_map]

/-- The set of tuples without repetitions has these tuples. -/
theorem perm_of_ofValues (hnodup : tuples.Nodup) (h : ofValues r tuples order = .ok s) :
    s.tuples.Perm tuples := by
  obtain ⟨-, keys, hkeys, rfl⟩ := ofValues_eq_ok.mp h
  have hdistinct : distinct keys = keys :=
    distinct_of_nodup (List.Nodup.of_map _ (by rwa [hkeys]))
  have hperm := (represents_ofKeys keys order).tuples_perm
  rwa [hdistinct, hkeys] at hperm

/-! ### Chunks -/

/-- The set of some of the keys that a set lists represents them. -/
theorem represents_piece {size : Nat} {piece : List (Key r)}
    (h : piece ∈ RecordStore.chunks size s.keys) (order : HashOrder) :
    (ofKeys piece order).Represents piece := by
  refine represents_of_nodup (s.nodup_keys.sublist ?_) order
  rw [← flatten_chunks size s.keys]
  exact List.sublist_flatten_of_mem h

/-- Cutting a set into chunks loses no key and adds none. -/
theorem mem_flatMap_chunks (s : KeySet r) (size : Nat) (order : HashOrder) (tuple : List Value) :
    tuple ∈ (s.chunks size order).flatMap KeySet.tuples ↔ tuple ∈ s.tuples := by
  have hpiece (piece : List (Key r)) (h : piece ∈ RecordStore.chunks size s.keys) :
      tuple ∈ (ofKeys piece order).tuples ↔ tuple ∈ piece.map (·.values) :=
    (represents_piece h order).tuples_perm.mem_iff
  unfold chunks
  rw [List.flatMap_map, List.mem_flatMap, ← s.map_values_keys, ← flatten_chunks size s.keys,
    List.map_flatten, List.mem_flatten, flatten_chunks]
  simp only [List.mem_map, exists_exists_and_eq_and]
  exact exists_congr fun piece => and_congr_right fun h => (hpiece piece h).trans List.mem_map

/-- There are as many chunks as are needed. -/
theorem length_chunks (s : KeySet r) {size : Nat} (order : HashOrder) (hsize : 0 < size) :
    (s.chunks size order).length = (s.tuples.length + size - 1) / size := by
  unfold chunks
  rw [List.length_map, RecordStore.length_chunks hsize, ← s.map_values_keys, List.length_map]

/-- Every member is in one of the chunks. -/
theorem countP_chunks (s : KeySet r) (size : Nat) (order : HashOrder) (tuple : List Value) :
    (s.chunks size order).countP (fun part => decide (tuple ∈ part.tuples)) =
      if tuple ∈ s.tuples then 1 else 0 := by
  have hpiece : ∀ piece ∈ RecordStore.chunks size s.keys,
      decide (tuple ∈ (ofKeys piece order).tuples) = true ↔
        decide (tuple ∈ piece.map (·.values)) = true := by
    intro piece h
    rw [decide_eq_true_iff, decide_eq_true_iff, (represents_piece h order).tuples_perm.mem_iff]
  have hflat := flatten_chunks size s.tuples
  have hnodup : (RecordStore.chunks size s.tuples).flatten.Nodup := by
    rw [hflat]
    exact s.nodup_tuples
  have honce := countP_mem_of_nodup hnodup tuple
  rw [hflat, ← s.map_values_keys, chunks_map, List.countP_map] at honce
  unfold chunks
  rw [List.countP_map, ← s.map_values_keys, ← honce]
  exact List.countP_congr hpiece

/-- The sets are parts of a set, all but the last of the same size and none without keys. -/
structure IsParted (s : KeySet r) (size : Nat) (parts : List (KeySet r)) : Prop where
  filled : ∀ part ∈ parts, 0 < part.size
  bounded : ∀ part ∈ parts, part.size ≤ size
  full : ∀ part ∈ parts.dropLast, part.size = size
  disjoint : parts.Pairwise fun part part' =>
    ∀ k, part.contains k = true → part'.contains k = false
  covering : ∀ k, s.contains k = true ↔ ∃ part ∈ parts, part.contains k = true

/-- The chunks of a set are its parts; a size of zero counts as one. -/
theorem isParted_chunks (s : KeySet r) (size : Nat) (order : HashOrder) :
    s.IsParted (max size 1) (s.chunks size order) := by
  have hsize : 0 < max size 1 := Nat.lt_of_lt_of_le Nat.one_pos (Nat.le_max_right size 1)
  have hlengths {piece : List (Key r)} (h : piece ∈ RecordStore.chunks size s.keys) :
      0 < piece.length ∧ piece.length ≤ max size 1 := by
    rw [← chunks_max_one] at h
    exact length_of_mem_chunks hsize h
  unfold chunks
  refine ⟨?filled, ?bounded, ?full, ?disjoint, ?covering⟩
  case filled =>
    refine List.forall_mem_map.mpr fun piece h => ?_
    rw [(represents_piece h order).size_eq]
    exact (hlengths h).1
  case bounded =>
    refine List.forall_mem_map.mpr fun piece h => ?_
    rw [(represents_piece h order).size_eq]
    exact (hlengths h).2
  case full =>
    rw [← List.map_dropLast]
    refine List.forall_mem_map.mpr fun piece h => ?_
    rw [(represents_piece (List.mem_of_mem_dropLast h) order).size_eq]
    exact length_of_mem_dropLast_chunks h
  case disjoint =>
    have hnodup : (RecordStore.chunks size s.keys).flatten.Nodup := by
      rw [flatten_chunks]
      exact s.nodup_keys
    have hdisjoint := (List.nodup_flatten.mp hnodup).2
    refine List.pairwise_map.mpr (hdisjoint.imp_of_mem fun {a b} ha hb hab k hk => ?_)
    refine Bool.eq_false_iff.mpr fun hk' => ?_
    exact hab ((represents_piece ha order).contains_iff.mp hk)
      ((represents_piece hb order).contains_iff.mp hk')
  case covering =>
    intro k
    rw [contains_iff, ← flatten_chunks size s.keys, List.mem_flatten, flatten_chunks]
    simp only [List.mem_map, exists_exists_and_eq_and]
    exact exists_congr fun piece => and_congr_right fun h =>
      (represents_piece h order).contains_iff.symm

/-! ### The set of a list -/

/-- The set has each key of the list once and no others. -/
structure IsSetOf (s : KeySet r) (keys : List (Key r)) : Prop where
  size_eq_card : s.size = keys.toFinset.card
  count_eq : ∀ k, s.keys.count k = if k ∈ keys then 1 else 0
  contains_iff_mem : ∀ k, s.contains k = true ↔ k ∈ keys

theorem isSetOf_of_mem_iff (h : ∀ k, k ∈ s.keys ↔ k ∈ keys) : s.IsSetOf keys where
  size_eq_card := by
    have hkeys : s.keys.toFinset = keys.toFinset := by
      ext k
      rw [List.mem_toFinset, List.mem_toFinset, h]
    rw [← hkeys, List.toFinset_card_of_nodup s.nodup_keys, s.represents_keys.size_eq]
  count_eq k := by
    rw [s.nodup_keys.count]
    simp only [h]
  contains_iff_mem k := contains_iff.trans (h k)

theorem mem_keys_ofKeys {k : Key r} : k ∈ (ofKeys keys order).keys ↔ k ∈ keys :=
  (represents_ofKeys keys order).keys_perm.mem_iff.trans mem_distinct

/-- Whatever the order in which hash sets list their members, the set of the keys of a list
represents the list without repetitions: it has each key once, and keys of one field in the order of
their first occurrences.  Its chunks part it, and both the keys and the values that it lists make a
set of the same keys again, the very same if nothing is listed in another order. -/
theorem ofKeys_once (keys : List (Key r)) (order : HashOrder) :
    (ofKeys keys order).Represents (distinct keys) ∧ (ofKeys keys order).IsSetOf keys ∧
    (r.primaryKey.length = 1 →
      (ofKeys keys order).keys.Pairwise fun k k' => keys.idxOf k < keys.idxOf k') ∧
    (∀ size order', (ofKeys keys order).IsParted (max size 1)
      ((ofKeys keys order).chunks size order')) ∧
    (∀ order', (ofKeys (ofKeys keys order).keys order').IsSetOf keys ∧
      (r.hasKey = true → ofValues r (ofKeys keys order).tuples order' =
        .ok (ofKeys (ofKeys keys order).keys order'))) ∧
    ofKeys (ofKeys keys order).keys = ofKeys keys order := by
  have hrepresents := represents_ofKeys keys order
  refine ⟨hrepresents, isSetOf_of_mem_iff fun k => mem_keys_ofKeys, fun hwidth => ?_,
    fun size order' => isParted_chunks _ size order', fun order' => ⟨?_, fun hkey => ?_⟩,
    ofKeys_keys _⟩
  · rw [hrepresents.keys_eq hwidth]
    exact distinct_in_order keys
  · exact isSetOf_of_mem_iff fun k => mem_keys_ofKeys.trans mem_keys_ofKeys
  · exact ofValues_eq_ok.mpr ⟨hkey, _, map_values_keys _, rfl⟩

end KeySet

namespace Sample

/-- Seats in rows of a hall, with a key of two fields. -/
def seats : RecordType where
  name := "Seat"
  table := some "seats"
  fields := [.stored "row" "row", .stored "place" "place"]
  primaryKey := ["row", "place"]

/-- The seat at a place of a row. -/
def seat (row : String) (place : Int64) : Key seats := ⟨[.text row, .integer place], rfl, rfl⟩

/-- Hash sets that list what came last first. -/
def lastFirst : HashOrder := ⟨List.reverse, List.reverse_perm⟩

/-- Seats, one of them twice. -/
def wantedSeats : List (Key seats) := [seat "A" 1, seat "B" 1, seat "A" 1, seat "A" 2]

/-- Of the three seats, listed from the last to the first, two are a chunk. -/
theorem threeSeats_once :
    (KeySet.ofKeys wantedSeats lastFirst).keys = [seat "A" 2, seat "B" 1, seat "A" 1] ∧
    (KeySet.ofKeys wantedSeats lastFirst).IsSetOf wantedSeats ∧
    (KeySet.ofKeys wantedSeats lastFirst).IsParted 2
      ((KeySet.ofKeys wantedSeats lastFirst).chunks 2 lastFirst) ∧
    ((KeySet.ofKeys wantedSeats lastFirst).chunks 2 lastFirst).map KeySet.keys =
      [[seat "B" 1, seat "A" 2], [seat "A" 1]] ∧
    KeySet.ofValues seats (KeySet.ofKeys wantedSeats lastFirst).tuples =
      .ok (KeySet.ofKeys wantedSeats lastFirst) := by
  obtain ⟨-, hset, -, hparted, hagain, hsame⟩ := KeySet.ofKeys_once wantedSeats lastFirst
  refine ⟨by decide, hset, hparted 2 lastFirst, by decide, ?_⟩
  rw [(hagain .firstMention).2 rfl, hsame]

end Sample

end RecordStore
