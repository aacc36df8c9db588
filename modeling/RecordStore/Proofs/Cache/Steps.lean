import Mathlib.Logic.Relation
import RecordStore.Cache.Memory

/-! # What a step can do to a cache

Reading and writing change the cache in three ways only: they look something up, remove an entry, or
store a value at an address.  Between them time passes.  `CacheSteps Stored c c'` says that such
steps lead from `c` to `c'` and that whatever they store is one of the values `Stored` describes.
What follows for the entries is said once (`CacheSteps.entryAt?`): an entry of `c'` was in `c`, or
it is younger than all of `c` and holds a value that may be stored there. -/

namespace RecordStore

/-- The values that may be stored at an address. -/
abbrev Storable := CacheAddress → CacheValue → Prop

/-- One change of a cache. -/
inductive CacheStep (Stored : Storable) (c : MemoryCache) : MemoryCache → Prop
  | lookup (a : CacheAddress) : CacheStep Stored c (c.lookupAt a).2
  | remove (a : CacheAddress) : CacheStep Stored c (c.removeAt a)
  | store {a : CacheAddress} {value : CacheValue} {category : CacheCategory} (h : Stored a value) :
      CacheStep Stored c (c.storeAt a value category)
  | later (elapsed : Nat) : CacheStep Stored c (c.later elapsed)

/-- Changes of a cache, one after the other. -/
def CacheSteps (Stored : Storable) : MemoryCache → MemoryCache → Prop :=
  Relation.ReflTransGen (CacheStep Stored)

/-- The entry is one of the cache, or was stored between two states of it. -/
def MemoryCache.HasOrStores (Stored : Storable) (c c' : MemoryCache) (a : CacheAddress)
    (e : CacheEntry) : Prop :=
  c.entryAt? a = some e ∨ (c.stores < e.number ∧ e.number ≤ c'.stores ∧ Stored a e.value)

theorem CacheStep.stores_le {Stored : Storable} {c c' : MemoryCache} (h : CacheStep Stored c c') :
    c.stores ≤ c'.stores := by
  cases h with
  | lookup a => exact Nat.le_of_eq (MemoryCache.stores_lookup c a).symm
  | remove a => exact Nat.le_of_eq (MemoryCache.stores_remove c a).symm
  | store _ =>
      rw [MemoryCache.stores_store]
      split <;> omega
  | later elapsed => exact Nat.le_refl _

theorem CacheStep.settings_eq {Stored : Storable} {c c' : MemoryCache}
    (h : CacheStep Stored c c') : c'.settings = c.settings := by
  cases h with
  | lookup a => exact c.settings_lookup a
  | remove a => rfl
  | store _ => exact c.settings_store _
  | later elapsed => rfl

theorem CacheStep.now_le {Stored : Storable} {c c' : MemoryCache} (h : CacheStep Stored c c') :
    c.now ≤ c'.now := by
  cases h with
  | lookup a => exact Nat.le_of_eq (c.now_lookup a).symm
  | remove a => exact Nat.le_refl _
  | store _ => exact Nat.le_of_eq (c.now_store _).symm
  | later elapsed => exact Nat.le_add_right ..

theorem CacheStep.entryAt? {Stored : Storable} {c c' : MemoryCache} (h : CacheStep Stored c c')
    {a : CacheAddress} {e : CacheEntry} (he : c'.entryAt? a = some e) :
    c.HasOrStores Stored c' a e := by
  cases h with
  | lookup b =>
      rw [MemoryCache.entryAt?_lookup] at he
      split at he
      · next hab =>
        rw [hab]
        exact .inl (MemoryCache.freshAt?_eq_some.mp he).1
      · exact .inl he
  | remove b =>
      rw [MemoryCache.entryAt?_remove] at he
      split at he
      · cases he
      · exact .inl he
  | store h =>
      rcases MemoryCache.entryAt?_of_store _ _ _ he with ⟨rfl, rfl, hopen⟩ | he
      · rw [MemoryCache.HasOrStores, MemoryCache.stores_store, hopen]
        exact .inr ⟨Nat.lt_succ_self _, Nat.le_refl _, h⟩
      · exact .inl he
  | later elapsed => exact .inl he

namespace CacheSteps

variable {Stored : Storable} {c c' c'' : MemoryCache}

theorem refl (c : MemoryCache) : CacheSteps Stored c c := Relation.ReflTransGen.refl

theorem single (h : CacheStep Stored c c') : CacheSteps Stored c c' :=
  Relation.ReflTransGen.single h

theorem trans (h : CacheSteps Stored c c') (h' : CacheSteps Stored c' c'') :
    CacheSteps Stored c c'' := Relation.ReflTransGen.trans h h'

/-- What may be stored may be described more generously. -/
theorem mono {Stored' : Storable} (hS : ∀ a v, Stored a v → Stored' a v)
    (h : CacheSteps Stored c c') : CacheSteps Stored' c c' := by
  induction h with
  | refl => exact refl c
  | tail _ hstep ih =>
      refine ih.trans (single ?_)
      cases hstep with
      | lookup a => exact .lookup a
      | remove a => exact .remove a
      | store hv => exact .store (hS _ _ hv)
      | later elapsed => exact .later elapsed

theorem removeAll (c : MemoryCache) (name : String) (keys : List (List Value)) :
    CacheSteps Stored c (c.removeAll name keys) := by
  induction keys generalizing c with
  | nil => exact refl c
  | cons key keys ih => exact (single (.remove ⟨name, key⟩)).trans (ih _)

theorem stores_le (h : CacheSteps Stored c c') : c.stores ≤ c'.stores := by
  induction h with
  | refl => exact Nat.le_refl _
  | tail _ h ih => exact Nat.le_trans ih h.stores_le

/-- The clock never goes back. -/
theorem now_le (h : CacheSteps Stored c c') : c.now ≤ c'.now := by
  induction h with
  | refl => exact Nat.le_refl _
  | tail _ h ih => exact Nat.le_trans ih h.now_le

theorem settings_eq (h : CacheSteps Stored c c') : c'.settings = c.settings := by
  induction h with
  | refl => rfl
  | tail _ hstep ih => exact hstep.settings_eq.trans ih

/-- No change shuts the cache down. -/
theorem isShutDown_eq (h : CacheSteps Stored c c') : c'.isShutDown = c.isShutDown :=
  congrArg CacheSettings.isShutDown h.settings_eq

/-- No change gives the bins more or less room. -/
theorem capacity_eq (h : CacheSteps Stored c c') : c'.capacity = c.capacity :=
  congrArg CacheSettings.capacity h.settings_eq

/-- Nothing is stored in a cache that is shut down. -/
theorem stores_eq_of_isShutDown (h : CacheSteps Stored c c') (hdown : c.isShutDown = true) :
    c'.stores = c.stores := by
  induction h with
  | refl => rfl
  | @tail d d' hsteps hstep ih =>
      have hd : d.isShutDown = true := (isShutDown_eq hsteps).trans hdown
      refine Eq.trans ?_ ih
      cases hstep with
      | lookup a => exact MemoryCache.stores_lookup d a
      | remove a => rfl
      | store _ => exact (MemoryCache.stores_store d _).trans (if_pos hd)
      | later elapsed => rfl

/-- An entry after changes was there before them or was stored by one of them. -/
theorem entryAt? (h : CacheSteps Stored c c') {a : CacheAddress} {e : CacheEntry}
    (he : c'.entryAt? a = some e) : c.HasOrStores Stored c' a e := by
  induction h with
  | refl => exact .inl he
  | @tail d d' hsteps hstep ih =>
      have hle := hstep.stores_le
      have hle' := stores_le hsteps
      rcases hstep.entryAt? he with hd | ⟨hnew, hold, hS⟩
      · rcases ih hd with hc | ⟨hnew, hold, hS⟩
        · exact .inl hc
        · exact .inr ⟨hnew, Nat.le_trans hold hle, hS⟩
      · exact .inr ⟨Nat.lt_of_le_of_lt hle' hnew, hold, hS⟩

end CacheSteps

/-- An entry that has not expired after changes was there before them and had not expired either, or
was stored by one of them. -/
theorem CacheSteps.freshAt? {Stored : Storable} {c c' : MemoryCache} (h : CacheSteps Stored c c')
    {a : CacheAddress} {e : CacheEntry} (he : c'.freshAt? a = some e) :
    c.freshAt? a = some e ∨ (c.stores < e.number ∧ e.number ≤ c'.stores ∧ Stored a e.value) := by
  obtain ⟨hentry, hfresh⟩ := MemoryCache.freshAt?_eq_some.mp he
  refine (h.entryAt? hentry).imp_left fun hold => MemoryCache.freshAt?_eq_some.mpr ⟨hold, ?_⟩
  exact CacheEntry.isExpired_mono h.now_le hfresh

/-- There is nothing in a cache without bins. -/
theorem MemoryCache.entryAt?_of_bins {c : MemoryCache} (h : c.bins = []) (a : CacheAddress) :
    c.entryAt? a = none := by
  unfold entryAt? bin
  rw [h]
  rfl

/-- A cache that is shut down holds nothing. -/
def MemoryCache.EmptyIfDown (c : MemoryCache) : Prop :=
  c.isShutDown = true → ∀ a, c.entryAt? a = none

theorem CacheSteps.emptyIfDown {Stored : Storable} {c c' : MemoryCache} (h : CacheSteps Stored c c')
    (hc : c.EmptyIfDown) : c'.EmptyIfDown := by
  intro hdown a
  rw [h.isShutDown_eq] at hdown
  cases he : c'.entryAt? a with
  | none => rfl
  | some e =>
      rcases h.entryAt? he with hold | ⟨hnew, hle, -⟩
      · rw [hc hdown a] at hold
        cases hold
      · rw [h.stores_eq_of_isShutDown hdown] at hle
        exact absurd hnew (Nat.not_lt.mpr hle)

/-! ### Caches that may be missing -/

/-- Changes of a cache, if there is one. -/
def OptionalSteps (Stored : Storable) : Option MemoryCache → Option MemoryCache → Prop :=
  Option.Rel (CacheSteps Stored)

namespace OptionalSteps

variable {Stored : Storable} {c c' c'' : Option MemoryCache}

theorem refl (c : Option MemoryCache) : OptionalSteps Stored c c := by
  cases c with
  | none => exact .none
  | some c => exact .some (CacheSteps.refl c)

theorem trans (h : OptionalSteps Stored c c') (h' : OptionalSteps Stored c' c'') :
    OptionalSteps Stored c c'' := by
  cases h with
  | none => exact h'
  | some h =>
      cases h' with
      | some h' => exact .some (h.trans h')

theorem map {f : MemoryCache → MemoryCache} (h : ∀ c, CacheSteps Stored c (f c))
    (c : Option MemoryCache) : OptionalSteps Stored c (c.map f) := by
  cases c with
  | none => exact .none
  | some c => exact .some (h c)

theorem mono {Stored' : Storable} (hS : ∀ a v, Stored a v → Stored' a v)
    (h : OptionalSteps Stored c c') : OptionalSteps Stored' c c' := by
  cases h with
  | none => exact .none
  | some h => exact .some (h.mono hS)

end OptionalSteps

end RecordStore
