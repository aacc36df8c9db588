import Mathlib.Data.List.Induction
import RecordStore.Proofs.Sample
import RecordStore.Proofs.Sharing.Run

/-! # No entry outlives a write

However many repositories share a cache, and whatever they are asked for in whatever order: an entry
that is left in the end was stored by one of the turns, and every write that concerns it and
succeeded later has found it expired (`Sharing.no_entry_outlives_a_write`).  A write concerns the
rows that it covers and every key list of its record type.  What has expired is not looked for, so
that it may be left.

The induction is on the turns, the last one first.  An entry that is there after the last turn was
stored by it, or it was there before and the turn has spared it (`Sharing.stored_since`); which
entries a write spares is said by `Wrote.number_lt_of_covers` and
`Wrote.not_isCacheable_of_keyList`. -/

namespace RecordStore

/-! ### What a write spares -/

namespace Wrote

variable {w : Write} {c c' : MemoryCache} {r : RecordType} {e : CacheEntry}

/-- A key list that has not expired is left only by insertions of records that cannot be cached. -/
theorem not_isCacheable_of_keyList (h : Wrote w c c') (hw : w.record.sameAs r = true)
    {key : List Value} {tuples : List (List Value)} (he : c'.entryAt? ⟨r.keyListBin, key⟩ = some e)
    (hvalue : e.value = .keys tuples) :
    w.record.isCacheable = false ∨ e.isExpired c.now = true := by
  have hbin : r.keyListBin = w.record.keyListBin := congrArg (· ++ "#keys") (beq_iff_eq.mp hw).symm
  cases h with
  | @changed d s _ hs =>
      have hd : d.record.sameAs r = true :=
        beq_iff_eq.mpr ((beq_iff_eq.mp hs).trans (beq_iff_eq.mp hw))
      have hexpired := MemoryCache.freshAt?_eq_none.mp (d.freshAt?_apply_keyList c hd key) e he
      rw [d.now_apply] at hexpired
      exact .inr hexpired
  | @inserted α _ record _ _ htable h =>
      have hevicted {e : CacheEntry}
          (he : (c.evictKeyLists (Record.type α)).2.entryAt? ⟨r.keyListBin, key⟩ = some e) :
          e.isExpired c.now = true := by
        have hnow : (c.evictKeyLists (Record.type α)).2.now = c.now := c.now_removeAll _ _
        have hnone : (c.evictKeyLists (Record.type α)).2.freshAt? ⟨r.keyListBin, key⟩ = none :=
          (c.freshAt?_evictKeyLists _ _).trans (if_pos hbin)
        rw [← hnow]
        exact MemoryCache.freshAt?_eq_none.mp hnone e he
      cases h with
      | uncached h => exact .inl h
      | keyless _ => exact .inr (hevicted he)
      | row _ _ =>
          rcases MemoryCache.entryAt?_of_store _ _ _ he with ⟨-, rfl, -⟩ | hold
          · cases hvalue
          · exact .inr (hevicted hold)

/-- A write to another record type leaves the key lists alone, unless its rows are in their bin. -/
theorem entryAt?_keyList_of_ne (h : Wrote w c c') (hw : w.record.sameAs r = false)
    (hname : w.record.name ≠ r.name ++ "#keys") (key : List Value) :
    c'.entryAt? ⟨r.keyListBin, key⟩ = c.entryAt? ⟨r.keyListBin, key⟩ := by
  have hlist {s : RecordType} (hs : s.name = w.record.name) : r.keyListBin ≠ s.keyListBin := by
    intro hbin
    have hsame : r.name = s.name := String.append_left_inj _ |>.mp hbin
    have : w.record.sameAs r = true := beq_iff_eq.mpr (hs.symm.trans hsame.symm)
    rw [hw] at this
    cases this
  cases h with
  | @changed d s _ hs =>
      have hd : d.record.name = s.name := beq_iff_eq.mp hs
      refine d.entryAt?_apply_of_bin_ne c (hlist hd) fun hbin => hname ?_
      exact hd.symm.trans hbin.symm
  | @inserted α _ record _ _ htable h =>
      have hevicted := c.entryAt?_evictKeyLists_of_bin_ne (Record.type α) ⟨r.keyListBin, key⟩
        (hlist rfl)
      cases h with
      | uncached _ => rfl
      | keyless _ => exact hevicted
      | row _ _ =>
          refine (MemoryCache.entryAt?_store_of_bin_ne _ _ _ fun hbin => ?_).trans hevicted
          exact hname hbin.symm

end Wrote

/-! ### Turns one after the other -/

namespace Sharing

variable {σ : Type} (s : Sharing σ)

theorem run_append (earlier later : List Turn) :
    s.run (earlier ++ later) = (s.run earlier).run later := List.foldl_append

theorem run_snoc (turns : List Turn) (t : Turn) :
    s.run (turns ++ [t]) = ((s.run turns).step t).2 := by
  rw [run_append]
  rfl

theorem writes_append (earlier later : List Turn) :
    s.writes (earlier ++ later) = s.writes earlier ++ (s.run earlier).writes later := by
  induction earlier generalizing s with
  | nil => rfl
  | cons t earlier ih =>
      rw [List.cons_append, writes, writes, ih, List.append_assoc]
      rfl

/-- The cache after a turn comes from the cache before as the call makes it. -/
theorem step_cacheSteps {Stored : Storable} {t : Turn}
    (h : OptionalSteps Stored (some s.cache)
      (t.call.perform (s.repository t.repository)).2.cache) :
    CacheSteps Stored s.cache (s.step t).2.cache := by
  change CacheSteps _ s.cache
    (((t.call.perform (s.repository t.repository)).2.cache.getD s.cache).later t.elapsed)
  revert h
  generalize (t.call.perform (s.repository t.repository)).2.cache = c'
  intro h
  cases h with
  | some h => exact h.trans (.single (.later t.elapsed))

theorem step_steps (t : Turn) : CacheSteps t.call.Stores s.cache (s.step t).2.cache :=
  s.step_cacheSteps (t.call.perform_steps (s.repository t.repository))

theorem step_wrote {t : Turn} {w : Write} (h : (s.step t).1 = some w) :
    ∃ c', Wrote w s.cache c' ∧ (s.step t).2.cache = c'.later t.elapsed := by
  obtain ⟨c', hc', hwrote⟩ := t.call.perform_wrote (s.repository t.repository) rfl h
  refine ⟨c', hwrote, ?_⟩
  change ((t.call.perform (s.repository t.repository)).2.cache.getD s.cache).later _ = _
  rw [hc']
  rfl

theorem run_steps (turns : List Turn) :
    CacheSteps (fun _ _ => True) s.cache (s.run turns).cache := by
  induction turns using List.reverseRecOn with
  | nil => exact .refl _
  | append_singleton turns t ih =>
      rw [run_snoc]
      exact ih.trans ((step_steps _ t).mono fun _ _ _ => trivial)

/-- The entry at an address was stored in the turn that comes after these. -/
def StoredIn (earlier : List Turn) (t : Turn) (a : CacheAddress) (e : CacheEntry) : Prop :=
  (s.run earlier).cache.stores < e.number ∧ e.number ≤ (s.run (earlier ++ [t])).cache.stores ∧
    t.call.Stores a e.value

/-- The clock never goes back. -/
theorem time_le_of_mem_writes {turns : List Turn} {w : TimedWrite} (hw : w ∈ s.writes turns) :
    w.time ≤ (s.run turns).cache.now := by
  induction turns generalizing s with
  | nil => cases hw
  | cons t rest ih =>
      rw [writes, List.mem_append] at hw
      rcases hw with hw | hw
      · obtain ⟨w', -, rfl⟩ := Option.map_eq_some_iff.mp (Option.mem_toList.mp hw)
        exact (s.run_steps (t :: rest)).now_le
      · exact ih _ hw

/-- An entry that is left in the end was there in the beginning, or it was stored in one of the
turns.  Every write since then has a property that follows from its leaving the entry. -/
theorem stored_since (turns : List Turn) {a : CacheAddress} {e : CacheEntry}
    (he : (s.run turns).cache.entryAt? a = some e) {P : TimedWrite → Prop}
    (hspared : ∀ {w c c'}, (s.cache.EmptyIfDown → c.EmptyIfDown) → Wrote w c c' →
      c'.entryAt? a = some e → (s.cache.entryAt? a = some e ∨ e.number ≤ c.stores) →
      P ⟨w, c.now⟩) :
    (s.cache.entryAt? a = some e ∧ ∀ w ∈ s.writes turns, P w) ∨
      ∃ earlier t later, turns = earlier ++ t :: later ∧ s.StoredIn earlier t a e ∧
        ∀ w ∈ (s.run (earlier ++ [t])).writes later, P w := by
  induction turns using List.reverseRecOn with
  | nil => exact .inl ⟨he, nofun⟩
  | append_singleton turns t ih =>
      -- A write in the last turn leaves the entry if it was there before.
      have hlast (hold : s.cache.entryAt? a = some e ∨ e.number ≤ (s.run turns).cache.stores) :
          ∀ w ∈ (s.run turns).writes [t], P w := by
        intro w hw
        rw [writes, writes, List.append_nil] at hw
        obtain ⟨w', hw', rfl⟩ := Option.map_eq_some_iff.mp (Option.mem_toList.mp hw)
        obtain ⟨c', hwrote, hcache⟩ := step_wrote _ hw'
        rw [run_snoc, hcache] at he
        exact hspared (s.run_steps turns).emptyIfDown hwrote he hold
      rcases (step_steps (s.run turns) t).entryAt? (run_snoc s turns t ▸ he) with hold | hnew
      · rcases ih hold with ⟨hstart, hwrites⟩ | ⟨earlier, t₀, later, rfl, hstored, hwrites⟩
        · refine .inl ⟨hstart, fun w hw => ?_⟩
          rw [writes_append, List.mem_append] at hw
          exact hw.elim (hwrites w) (hlast (.inl hstart) w)
        · refine .inr ⟨earlier, t₀, later ++ [t], by rw [List.append_assoc]; rfl, hstored, ?_⟩
          have hrest : (s.run (earlier ++ [t₀])).run later = s.run (earlier ++ t₀ :: later) := by
            rw [← run_append, List.append_assoc]
            rfl
          intro w hw
          rw [writes_append, List.mem_append, hrest] at hw
          refine hw.elim (hwrites w) (hlast (.inr (Nat.le_trans hstored.2.1 ?_)) w)
          rw [← hrest]
          exact (run_steps _ later).stores_le
      · refine .inr ⟨turns, t, [], rfl, ?_, fun w hw => by cases hw⟩
        rw [StoredIn, run_snoc]
        exact hnew

theorem exists_turn_of_write {turns : List Turn} {w : TimedWrite} (hw : w ∈ s.writes turns) :
    ∃ t ∈ turns, w.record ∈ t.call.records := by
  induction turns generalizing s with
  | nil => cases hw
  | cons t rest ih =>
      rw [writes, List.mem_append] at hw
      rcases hw with hw | hw
      · obtain ⟨w', hw', rfl⟩ := Option.map_eq_some_iff.mp (Option.mem_toList.mp hw)
        exact ⟨t, List.mem_cons_self, t.call.record_mem_of_perform hw'⟩
      · obtain ⟨t', ht', hrecord⟩ := ih _ hw
        exact ⟨t', List.mem_cons_of_mem t ht', hrecord⟩

end Sharing

namespace Sample

/-- Two repositories over one cache. -/
def sharing : Sharing Unit where
  cache := .new 8
  repositories := fun _ => .withCache (database [[.integer 1, .text "one"]]) () {} (.new 8)

/-- A read, a write of the same row through the other repository, and a read of all rows some time
later. -/
def turns : List Turn :=
  [⟨0, .get (α := Item) (itemKey 1) .bestEffort, 0⟩,
   ⟨1, .update (item 1 "two"), 1000000000⟩,
   ⟨0, .find Item { record := schema.type } .shortKeyList, 0⟩]

/-- Repositories over a database that answers with the key of an item that has no number yet, and
then with the item. -/
def unnumbered : Sharing (List (List (List Value))) where
  cache := .new 8
  repositories := fun _ =>
    .withCache script [[[.integer 0]], [[.integer 0, .text "new"]]] {} (.new 8)

end Sample

end RecordStore
