import Mathlib.Algebra.GroupWithZero.Nat
import Mathlib.Data.List.Induction
import RecordStore.Proofs.Cache.Expiry
import RecordStore.Proofs.Cache.Recency
import RecordStore.Proofs.Cache.Steps

/-! # Calls of a cache, one after the other

After any calls a cache has, under a key, nothing but the value that was stored last
(`MemoryCache.lastStored_of_entry`).  As long as nothing expires (`MemoryCache.NothingExpires`) it
still has it while fewer other keys of the bin were used since than a bin has room for
(`MemoryCache.keeps_of_lastStored`).  No bin outgrows its capacity, the bins do not disturb each
other, and the counters say how often something was looked up and how many entries were dropped to
make room (`MemoryCache.least_recently_used`).

All inductions are on the calls, the last one first. -/

namespace RecordStore

/-- A call of a cache, or the time until the next one. -/
inductive CacheCall where
  | store (a : CacheAddress) (value : CacheValue) (category : CacheCategory)
  | lookup (a : CacheAddress)
  | remove (a : CacheAddress)
  | enumerate (name : String)
  | clear
  | shutdown
  | wait (elapsed : Nat)
deriving DecidableEq

namespace CacheCall

/-- The bin that the call is about. -/
def bin? : CacheCall → Option String
  | store a _ _ | lookup a | remove a => some a.bin
  | enumerate name => some name
  | clear | shutdown | wait _ => none

/-- The time that passes, in nanoseconds. -/
def elapsed : CacheCall → Nat
  | wait elapsed => elapsed
  | _ => 0

/-- Something is looked up. -/
def isLookup : CacheCall → Bool
  | lookup _ => true
  | _ => false

/-- What was stored at the address before is gone after the call, if only by being overwritten. -/
def Ends (a : CacheAddress) : CacheCall → Prop
  | store b _ _ | remove b => b = a
  | clear | shutdown => True
  | lookup _ | enumerate _ | wait _ => False

end CacheCall

/-- The value is the last one that was stored at the address; it was not removed, nothing was
cleared since, and nothing was ever shut down. -/
def LastStored (calls : List CacheCall) (a : CacheAddress) (value : CacheValue) : Prop :=
  .shutdown ∉ calls ∧ ∃ earlier later category,
    calls = earlier ++ .store a value category :: later ∧ ∀ call ∈ later, ¬ call.Ends a

namespace LastStored

variable {calls : List CacheCall} {call : CacheCall} {a : CacheAddress} {value : CacheValue}

/-- What is stored last is the value of the last call, or the last call leaves it. -/
theorem snoc_iff : LastStored (calls ++ [call]) a value ↔
    ((∃ category, call = .store a value category) ∧ .shutdown ∉ calls) ∨
      (¬ call.Ends a ∧ LastStored calls a value) := by
  constructor
  · rintro ⟨hdown, earlier, later, category, hcalls, hlater⟩
    rw [List.mem_append, not_or] at hdown
    rcases List.eq_nil_or_concat later with rfl | ⟨later, last, rfl⟩
    · obtain ⟨rfl, hcall⟩ := List.append_inj' hcalls rfl
      exact .inl ⟨⟨category, List.singleton_inj.mp hcall⟩, hdown.1⟩
    · rw [List.concat_eq_append, ← List.cons_append, ← List.append_assoc] at hcalls
      obtain ⟨rfl, hcall⟩ := List.append_inj' hcalls rfl
      obtain rfl := List.singleton_inj.mp hcall
      refine .inr ⟨hlater call (by simp), hdown.1, earlier, later, category, rfl,
        fun call' hcall' => ?_⟩
      exact hlater call' (by simp [hcall'])
  · rintro (⟨⟨category, rfl⟩, hdown⟩ | ⟨hends, hdown, earlier, later, category, rfl, hlater⟩)
    · exact ⟨by simpa using hdown, calls, [], category, rfl, by simp⟩
    · refine ⟨?_, earlier, later ++ [call], category, by simp, ?_⟩
      · rw [List.mem_append, not_or]
        refine ⟨hdown, fun hmem => hends ?_⟩
        rw [← List.mem_singleton.mp hmem]
        trivial
      · intro call' hcall'
        rcases List.mem_append.mp hcall' with hmem | hmem
        · exact hlater call' hmem
        · rwa [List.mem_singleton.mp hmem]

/-- There is one value at most that was stored last. -/
theorem unique {value' : CacheValue} (h : LastStored calls a value)
    (h' : LastStored calls a value') : value = value' := by
  induction calls using List.reverseRecOn with
  | nil =>
      obtain ⟨-, earlier, later, category, hcalls, -⟩ := h
      simp at hcalls
  | append_singleton calls call ih =>
      rcases snoc_iff.mp h with ⟨⟨category, rfl⟩, -⟩ | ⟨hends, hcalls⟩ <;>
        rcases snoc_iff.mp h' with ⟨⟨category', hcall⟩, -⟩ | ⟨hends', hcalls'⟩
      · cases hcall
        rfl
      · exact absurd rfl hends'
      · rw [hcall] at hends
        exact absurd rfl hends
      · exact ih hcalls hcalls'

end LastStored

namespace MemoryCache

variable (c : MemoryCache) (call : CacheCall) (calls : List CacheCall) (a : CacheAddress)

/-- The cache after a call. -/
def after : CacheCall → MemoryCache
  | .store a value category => c.storeAt a value category
  | .lookup a => (c.lookupAt a).2
  | .remove a => c.removeAt a
  | .enumerate _ => c
  | .clear => c.clear
  | .shutdown => c.shutdown
  | .wait elapsed => c.later elapsed

/-- The cache after some calls. -/
def run : MemoryCache := calls.foldl after c

/-- No entry expires in the course of some calls. -/
def NothingExpires : Prop := ∀ earlier, earlier <+: calls → (c.run earlier).AllFresh

/-- The address whose entry a call uses: one that is stored to, or looked up and found. -/
def used? : CacheCall → Option CacheAddress
  | .store a _ _ => some a
  | .lookup a => if (c.freshAt? a).isSome then some a else none
  | _ => none

/-- The other keys of the bin that were used since the address was, after one more call. -/
def rivalsAfter (rivals : List (List Value)) : List (List Value) :=
  match c.used? call with
  | none => rivals
  | some b => if b = a then [] else if b.bin = a.bin then b.key :: rivals else rivals

/-- The other keys of the bin that were used in some calls since the address was. -/
def rivalsFrom (rivals : List (List Value)) (c : MemoryCache) : List CacheCall → List (List Value)
  | [] => rivals
  | call :: rest => rivalsFrom (c.rivalsAfter call a rivals) (c.after call) rest

/-- The other keys of its bin that were used in some calls since the address was, the last use
first; a key that was used twice is listed twice. -/
def rivals : List (List Value) := rivalsFrom a [] c calls

/-- The entries that a call drops: those of its bin that are there before something is stored and
not after. -/
def droppedBy : CacheCall → List CacheAddress
  | .store a value category =>
    ((c.bin a.bin).keys.map (⟨a.bin, ·⟩)).filter fun d =>
      ((c.storeAt a value category).entryAt? d).isNone
  | _ => []

/-- The entries that some calls drop. -/
def dropped (c : MemoryCache) : List CacheCall → List CacheAddress
  | [] => []
  | call :: rest => c.droppedBy call ++ (c.after call).dropped rest

theorem run_snoc : c.run (calls ++ [call]) = (c.run calls).after call := List.foldl_concat ..

theorem rivals_snoc : c.rivals (calls ++ [call]) a =
    (c.run calls).rivalsAfter call a (c.rivals calls a) := by
  have hfrom (seen : List (List Value)) : rivalsFrom a seen c (calls ++ [call]) =
      (c.run calls).rivalsAfter call a (rivalsFrom a seen c calls) := by
    induction calls generalizing c seen with
    | nil => rfl
    | cons call' calls ih => exact ih (c.after call') _
  exact hfrom []

theorem dropped_snoc : c.dropped (calls ++ [call]) =
    c.dropped calls ++ (c.run calls).droppedBy call := by
  induction calls generalizing c with
  | nil => simp [dropped, run]
  | cons call' calls ih =>
      rw [List.cons_append, dropped, dropped, ih, List.append_assoc]
      rfl

/-! ### The rivals after a call -/

section Rivals

variable {rivals : List (List Value)} {b : CacheAddress} {call}

theorem rivalsAfter_unused (h : c.used? call = none) : c.rivalsAfter call a rivals = rivals := by
  unfold rivalsAfter
  rw [h]

theorem rivalsAfter_self (h : c.used? call = some a) : c.rivalsAfter call a rivals = [] := by
  unfold rivalsAfter
  rw [h]
  exact if_pos rfl

theorem rivalsAfter_rival (h : c.used? call = some b) (hba : b ≠ a) (hbin : b.bin = a.bin) :
    c.rivalsAfter call a rivals = b.key :: rivals := by
  unfold rivalsAfter
  rw [h]
  exact (if_neg hba).trans (if_pos hbin)

theorem rivalsAfter_elsewhere (h : c.used? call = some b) (hbin : b.bin ≠ a.bin) :
    c.rivalsAfter call a rivals = rivals := by
  unfold rivalsAfter
  rw [h]
  exact (if_neg fun hba => hbin (congrArg CacheAddress.bin hba)).trans (if_neg hbin)

end Rivals

/-! ### One call -/

theorem bin_lookupAt (m : String) : (c.lookupAt a).2.bin m =
    if m = a.bin then (c.bin m).lookedUp c.now a.key else c.bin m := c.bin_lookup a.bin a.key m

theorem bin_removeAt (m : String) : (c.removeAt a).bin m =
    if m = a.bin then (c.bin m).erase a.key else c.bin m := c.bin_remove a.bin a.key m

theorem bin_storeAt (value : CacheValue) (category : CacheCategory) (m : String) :
    (c.storeAt a value category).bin m =
      if m = a.bin ∧ c.isShutDown = false
      then (c.bin m).store c.capacity a.key (c.entryFor value category) else c.bin m :=
  c.bin_store a.bin a.key value category m

theorem bin_of_bins (h : c.bins = []) (m : String) : c.bin m = [] := by
  unfold bin
  rw [h]
  rfl

theorem capacity_after : (c.after call).capacity = c.capacity := by
  cases call with
  | store a value category => exact congrArg CacheSettings.capacity (c.settings_store a)
  | lookup a => exact congrArg CacheSettings.capacity (c.settings_lookup a)
  | remove a | enumerate name | clear | shutdown | wait elapsed => rfl

theorem isShutDown_after :
    (c.after call).isShutDown = (c.isShutDown || decide (call = .shutdown)) := by
  cases call with
  | store a value category =>
      simp only [reduceCtorEq, decide_false, Bool.or_false]
      exact congrArg CacheSettings.isShutDown (c.settings_store a)
  | lookup a =>
      simp only [reduceCtorEq, decide_false, Bool.or_false]
      exact congrArg CacheSettings.isShutDown (c.settings_lookup a)
  | remove a | enumerate name | clear | shutdown | wait elapsed =>
      simp [after, removeAt, remove, setBin, clear, MemoryCache.shutdown, later]

/-- A call about one bin leaves the others alone. -/
theorem bin_after_of_ne {name other : String} (hbin : call.bin? = some name) (h : other ≠ name) :
    (c.after call).bin other = c.bin other := by
  cases call with
  | store a value category =>
      cases hbin
      exact (c.bin_storeAt a value category other).trans (if_neg fun hm => h hm.1)
  | lookup a =>
      cases hbin
      exact (c.bin_lookupAt a other).trans (if_neg h)
  | remove a =>
      cases hbin
      exact (c.bin_removeAt a other).trans (if_neg h)
  | enumerate name => rfl
  | clear | shutdown | wait elapsed => cases hbin

/-! ### What every call preserves -/

/-- Every bin is in order and has room for an entry, and a cache that is shut down is empty. -/
structure InOrder : Prop where
  room : 0 < c.capacity
  bins : ∀ name, (c.bin name).Ordered c.capacity
  empty : c.isShutDown = true → c.bins = []

variable {c call calls a}

namespace InOrder

theorem ofConfig (config : CacheConfig) : (MemoryCache.ofConfig config).InOrder where
  room := Nat.lt_of_lt_of_le Nat.one_pos (Nat.le_max_right config.maxEntriesPerBin 1)
  bins := fun _ => .nil
  empty := fun _ => rfl

theorem after (h : c.InOrder) (call : CacheCall) : (c.after call).InOrder where
  room := by
    rw [capacity_after]
    exact h.room
  bins := fun name => by
    rw [capacity_after]
    cases call with
    | store a value category =>
        rw [MemoryCache.after, bin_storeAt]
        split
        · exact (h.bins name).store h.room a.key _
        · exact h.bins name
    | lookup a =>
        rw [MemoryCache.after, bin_lookupAt]
        split
        · exact (h.bins name).lookedUp c.now a.key
        · exact h.bins name
    | remove a =>
        rw [MemoryCache.after, bin_removeAt]
        split
        · exact (h.bins name).erase a.key
        · exact h.bins name
    | enumerate name' => exact h.bins name
    | clear | shutdown => exact .nil
    | wait elapsed => exact h.bins name
  empty := fun hdown => by
    cases call with
    | store a value category =>
        simp only [isShutDown_after, reduceCtorEq, decide_false, Bool.or_false] at hdown
        rw [MemoryCache.after, storeAt, store, if_pos hdown]
        exact h.empty hdown
    | lookup a =>
        simp only [isShutDown_after, reduceCtorEq, decide_false, Bool.or_false] at hdown
        have hmiss : (c.bin a.bin).find? a.key = none := by
          rw [bin_of_bins c (h.empty hdown)]
          rfl
        rw [MemoryCache.after, lookupAt, lookup, hmiss]
        exact h.empty hdown
    | remove a =>
        change replaceBin a.bin _ c.bins = []
        rw [h.empty hdown]
        rfl
    | enumerate name => exact h.empty hdown
    | clear | shutdown => rfl
    | wait elapsed => exact h.empty hdown

theorem run (h : c.InOrder) (calls : List CacheCall) : (c.run calls).InOrder := by
  induction calls using List.reverseRecOn with
  | nil => exact h
  | append_singleton calls call ih =>
      rw [run_snoc]
      exact ih.after call

/-- A call counts the entries that it drops, if none has expired. -/
theorem evictions_after (h : c.InOrder) (hfresh : c.AllFresh) (call : CacheCall) :
    (c.after call).evictions = c.evictions + (c.droppedBy call).length := by
  cases call with
  | store a value category =>
      cases hdown : c.isShutDown with
      | true =>
          rw [MemoryCache.after, storeAt, MemoryCache.store, if_pos hdown, droppedBy,
            bin_of_bins c (h.empty hdown)]
          rfl
      | false =>
          have hdropped : (c.droppedBy (.store a value category)).length =
              ((c.bin a.bin).dropped c.capacity a.key (c.entryFor value category)).length := by
            rw [droppedBy, List.filter_map, List.length_map]
            unfold Bin.dropped entryAt?
            simp only [Function.comp_def, bin_storeAt, hdown, and_self, if_true]
          rw [hdropped, (h.bins a.bin).length_dropped h.room, MemoryCache.after, storeAt,
            MemoryCache.store, hdown]
          rfl
  | lookup a =>
      rw [MemoryCache.after, lookupAt, lookup]
      split
      · next entry hentry =>
        rw [if_neg (by rw [hfresh a.bin _ (Bin.mem_of_find? _ _ hentry)]; exact Bool.false_ne_true)]
        rfl
      · rfl
  | remove a | enumerate name | clear | shutdown | wait elapsed => rfl

end InOrder

/-- A call counts its lookup. -/
theorem lookups_after : (c.after call).hits + (c.after call).misses =
    c.hits + c.misses + if call.isLookup then 1 else 0 := by
  cases call with
  | store a value category =>
      rw [after, storeAt, store]
      split
      · rfl
      · change (c.ensureBin a.bin).hits + (c.ensureBin a.bin).misses = _
        unfold ensureBin
        split <;> rfl
  | lookup a =>
      rw [after, lookupAt, lookup]
      split
      · split
        · rfl
        · exact Nat.add_right_comm c.hits 1 c.misses
      · rfl
  | remove a | enumerate name | clear | shutdown | wait elapsed => rfl

theorem capacity_run : (c.run calls).capacity = c.capacity := by
  induction calls using List.reverseRecOn with
  | nil => rfl
  | append_singleton calls call ih => rw [run_snoc, capacity_after, ih]

theorem isShutDown_run :
    (c.run calls).isShutDown = true ↔ c.isShutDown = true ∨ .shutdown ∈ calls := by
  induction calls using List.reverseRecOn with
  | nil => simp [run]
  | append_singleton calls call ih =>
      rw [run_snoc, isShutDown_after, Bool.or_eq_true, ih, decide_eq_true_eq, List.mem_append,
        List.mem_singleton, or_assoc, eq_comm (a := call)]

theorem lookups_run : (c.run calls).hits + (c.run calls).misses =
    c.hits + c.misses + calls.countP CacheCall.isLookup := by
  induction calls using List.reverseRecOn with
  | nil => rfl
  | append_singleton calls call ih =>
      rw [run_snoc, lookups_after, ih, List.countP_append, List.countP_singleton, Nat.add_assoc]

/-! ### The clock -/

theorem now_after : (c.after call).now = c.now + call.elapsed := by
  cases call with
  | store a value category => exact c.now_store a
  | lookup a => exact c.now_lookup a
  | remove a | enumerate name | clear | shutdown | wait elapsed => rfl

theorem now_run : (c.run calls).now = c.now + (calls.map CacheCall.elapsed).sum := by
  induction calls using List.reverseRecOn with
  | nil => rfl
  | append_singleton calls call ih =>
      rw [run_snoc, now_after, ih, List.map_append, List.sum_append, List.map_singleton,
        List.sum_singleton, Nat.add_assoc]

theorem ttl_after : (c.after call).ttl = c.ttl := by
  cases call with
  | store a value category => exact ttl_of_settings (c.settings_store a)
  | lookup a => exact ttl_of_settings (c.settings_lookup a)
  | remove a | enumerate name | clear | shutdown | wait elapsed => rfl

theorem ttl_run : (c.run calls).ttl = c.ttl := by
  induction calls using List.reverseRecOn with
  | nil => rfl
  | append_singleton calls call ih => rw [run_snoc, ttl_after, ih]

/-- A call stores nothing that expires before the lifetimes are over. -/
theorem FreshUntil.after {time : Nat} (h : c.FreshUntil time)
    (hlong : ∀ category, c.ttl category = 0 ∨ time < c.now + 1000000000 * c.ttl category)
    (call : CacheCall) : (c.after call).FreshUntil time := by
  cases call with
  | store a value category => exact h.storeAt a (c.isExpired_entryFor (hlong category))
  | lookup a => exact h.lookupAt a
  | remove a => exact h.removeAt a
  | enumerate name => exact h
  | clear | shutdown => exact freshUntil_of_bins rfl time
  | wait elapsed => exact h

theorem FreshUntil.run {time : Nat} (h : c.FreshUntil time)
    (hlong : ∀ category, c.ttl category = 0 ∨ time < c.now + 1000000000 * c.ttl category)
    (calls : List CacheCall) : (c.run calls).FreshUntil time := by
  induction calls using List.reverseRecOn with
  | nil => exact h
  | append_singleton calls call ih =>
      rw [run_snoc]
      refine ih.after (fun category => ?_) call
      rw [ttl_run, now_run]
      exact (hlong category).imp_right fun hlt =>
        Nat.lt_of_lt_of_le hlt (Nat.add_le_add_right (Nat.le_add_right ..) _)

/-- Nothing expires in a cache that starts empty where not more time passes than an entry lives. -/
theorem nothingExpires_of_elapsed (hempty : c.bins = [])
    (hshort : ∀ category, c.ttl category = 0 ∨
      (calls.map CacheCall.elapsed).sum < 1000000000 * c.ttl category) :
    c.NothingExpires calls := by
  rintro earlier ⟨later, rfl⟩
  have hfresh : (c.run earlier).FreshUntil
      (c.now + ((earlier ++ later).map CacheCall.elapsed).sum) := by
    refine (freshUntil_of_bins hempty _).run (fun category => ?_) earlier
    exact (hshort category).imp_right (Nat.add_lt_add_left · _)
  refine hfresh.mono ?_
  rw [now_run, List.map_append, List.sum_append]
  omega

theorem NothingExpires.init (h : c.NothingExpires (calls ++ [call])) : c.NothingExpires calls :=
  fun earlier hearlier => h earlier (hearlier.trans (List.prefix_append ..))

theorem NothingExpires.allFresh (h : c.NothingExpires calls) : (c.run calls).AllFresh :=
  h calls (List.prefix_refl calls)

theorem InOrder.evictions_run (h : c.InOrder) (hfresh : c.NothingExpires calls) :
    (c.run calls).evictions = c.evictions + (c.dropped calls).length := by
  induction calls using List.reverseRecOn with
  | nil => rfl
  | append_singleton calls call ih =>
      rw [run_snoc, (h.run calls).evictions_after hfresh.init.allFresh, ih hfresh.init,
        dropped_snoc, List.length_append, Nat.add_assoc]

/-! ### What is found after some calls -/

section Found

variable {config : CacheConfig}

/-- There is nothing but what was stored last. -/
theorem lastStored_of_entry {e : CacheEntry}
    (he : ((ofConfig config).run calls).entryAt? a = some e) : LastStored calls a e.value := by
  induction calls using List.reverseRecOn generalizing e with
  | nil => cases he
  | append_singleton calls call ih =>
      have horder := (InOrder.ofConfig config).run calls
      rw [run_snoc] at he
      rw [LastStored.snoc_iff]
      cases call with
      | store b value category =>
          by_cases hab : b = a
          · subst hab
            cases hdown : ((ofConfig config).run calls).isShutDown with
            | true =>
                rw [entryAt?_of_bins ((horder.after _).empty ?_)] at he
                · cases he
                · rw [isShutDown_after, hdown, Bool.true_or]
            | false =>
                rw [after, entryAt?_store_self _ _ hdown] at he
                cases he
                refine .inl ⟨⟨category, rfl⟩, fun hmem => ?_⟩
                rw [isShutDown_run.mpr (.inr hmem)] at hdown
                cases hdown
          · rcases entryAt?_of_store _ _ _ he with ⟨hba, -⟩ | hold
            · exact absurd hba.symm hab
            · exact .inr ⟨fun hba => hab hba, ih hold⟩
      | lookup b =>
          rw [after, entryAt?_lookup] at he
          split at he
          · next hab =>
            rw [← hab] at he
            exact .inr ⟨id, ih (freshAt?_eq_some.mp he).1⟩
          · exact .inr ⟨id, ih he⟩
      | remove b =>
          rw [after, entryAt?_remove] at he
          split at he
          · cases he
          · next hab => exact .inr ⟨fun hba => hab hba.symm, ih he⟩
      | enumerate name => exact .inr ⟨id, ih he⟩
      | wait elapsed => exact .inr ⟨id, ih he⟩
      | clear | shutdown => cases he

/-- Where one more rival has room beside the others, it and the key and the others fit. -/
theorem length_distinct_rivals {rivals : List (List Value)} {rival : List Value} {n : Nat}
    (key : List Value) (hroom : (distinct (rival :: rivals)).length < n) :
    (distinct rivals).length < n ∧ (distinct (rival :: key :: rivals)).length ≤ n := by
  have hsub : rivals ⊆ distinct (rival :: rivals) := fun _ h => mem_distinct.mpr (.tail _ h)
  have hsub' : rival :: key :: rivals ⊆ key :: distinct (rival :: rivals) := by
    intro k hk
    rw [List.mem_cons, mem_distinct]
    simp only [List.mem_cons] at hk ⊢
    tauto
  have hle := length_distinct_le hsub
  have hle' := length_distinct_le hsub'
  rw [List.length_cons] at hle'
  exact ⟨by omega, by omega⟩

/-- Looking up keeps an entry as long as its bin has room for its rivals. -/
theorem keeps_after_lookup {rivals : List (List Value)} (hfresh : c.AllFresh) (b : CacheAddress)
    (hkeeps : (distinct rivals).length < c.capacity →
      (c.bin a.bin).Keeps [a.key] (a.key :: rivals))
    (hroom : (distinct (c.rivalsAfter (.lookup b) a rivals)).length < c.capacity) :
    ((c.after (.lookup b)).bin a.bin).Keeps [a.key]
      (a.key :: c.rivalsAfter (.lookup b) a rivals) := by
  rw [after, bin_lookupAt]
  cases hfound : c.entryAt? b with
  | none =>
      have hunused : c.used? (.lookup b) = none := by simp [used?, hfresh.freshAt?_eq, hfound]
      rw [c.rivalsAfter_unused a hunused] at hroom ⊢
      split
      · next hbin =>
        rw [hbin, Bin.lookedUp_of_none hfound, ← hbin]
        exact hkeeps hroom
      · exact hkeeps hroom
  | some entry =>
      have hused : c.used? (.lookup b) = some b := by simp [used?, hfresh.freshAt?_eq, hfound]
      by_cases hab : b = a
      · subst hab
        rw [if_pos rfl, Bin.lookedUp_of_fresh hfound (hfresh _ _ (Bin.mem_of_find? _ _ hfound))]
        exact (Bin.Keeps.none.touch b.key entry).mono (List.Subset.refl _)
          (List.cons_subset_cons _ (List.nil_subset _))
      · by_cases hbin : b.bin = a.bin
        · rw [c.rivalsAfter_rival a hused hab hbin] at hroom ⊢
          have hkept := hkeeps (length_distinct_rivals a.key hroom).1
          rw [if_pos hbin.symm]
          have hmore := hkept.mono (List.Subset.refl _) (List.subset_cons_self b.key _)
          refine (hmore.lookedUp (fun _ => List.mem_cons_self) fun e he hexpired => ?_).mono
            (List.Subset.refl _) (List.Perm.swap ..).subset
          rw [hfresh _ _ (Bin.mem_of_find? _ _ he)] at hexpired
          cases hexpired
        · rw [c.rivalsAfter_elsewhere a hused hbin] at hroom ⊢
          rw [if_neg fun h => hbin h.symm]
          exact hkeeps hroom

/-- A call that leaves what was stored at an address keeps its entry among the first of its bin,
as long as its rivals fit and nothing has expired. -/
theorem keeps_after {rivals : List (List Value)} (hopen : c.isShutDown = false)
    (hfresh : c.AllFresh) (hends : ¬ call.Ends a)
    (hkeeps : (distinct rivals).length < c.capacity →
      (c.bin a.bin).Keeps [a.key] (a.key :: rivals))
    (hroom : (distinct (c.rivalsAfter call a rivals)).length < c.capacity) :
    ((c.after call).bin a.bin).Keeps [a.key] (a.key :: c.rivalsAfter call a rivals) := by
  cases call with
  | store b value category =>
      have hab : b ≠ a := hends
      by_cases hbin : b.bin = a.bin
      · rw [c.rivalsAfter_rival a rfl hab hbin] at hroom ⊢
        obtain ⟨hroom', hfits⟩ := length_distinct_rivals a.key hroom
        rw [after, bin_storeAt, if_pos ⟨hbin.symm, hopen⟩]
        exact ((hkeeps hroom').store _ hfits).mono (List.subset_cons_self ..)
          (List.Perm.swap ..).subset
      · rw [c.rivalsAfter_elsewhere a rfl hbin] at hroom ⊢
        rw [after, bin_storeAt, if_neg fun h => hbin h.1.symm]
        exact hkeeps hroom
  | lookup b => exact keeps_after_lookup hfresh b hkeeps hroom
  | remove b =>
      rw [after, bin_removeAt]
      split
      · next hbin =>
        refine (hkeeps hroom).erase fun hkey => hends ?_
        have heq : b.key = a.key := List.mem_singleton.mp hkey
        exact CacheAddress.mk.injEq .. |>.mpr ⟨hbin.symm, heq⟩
      · exact hkeeps hroom
  | enumerate name => exact hkeeps hroom
  | wait elapsed => exact hkeeps hroom
  | clear | shutdown => exact absurd trivial hends

/-- The entry is among the first of its bin, with those of its rivals, as long as these fit and
nothing expires. -/
theorem keeps_of_lastStored {value : CacheValue} (h : LastStored calls a value)
    (hfresh : (ofConfig config).NothingExpires calls)
    (hroom : (distinct ((ofConfig config).rivals calls a)).length < (ofConfig config).capacity) :
    (((ofConfig config).run calls).bin a.bin).Keeps [a.key]
      (a.key :: (ofConfig config).rivals calls a) := by
  induction calls using List.reverseRecOn with
  | nil =>
      obtain ⟨-, earlier, later, category, hcalls, -⟩ := h
      simp at hcalls
  | append_singleton calls call ih =>
      have hopen : ((ofConfig config).run calls).isShutDown = false := by
        rw [Bool.eq_false_iff]
        intro hdown
        have hmem := (isShutDown_run.mp hdown).resolve_left Bool.false_ne_true
        exact h.1 (List.mem_append_left _ hmem)
      rw [rivals_snoc] at hroom ⊢
      rw [run_snoc]
      have hcapacity : ((ofConfig config).run calls).capacity = (ofConfig config).capacity :=
        capacity_run
      rw [← hcapacity] at hroom ih
      rcases LastStored.snoc_iff.mp h with ⟨⟨category, rfl⟩, -⟩ | ⟨hends, hcalls⟩
      · rw [rivalsAfter_self _ a rfl, after, bin_storeAt, if_pos ⟨rfl, hopen⟩]
        exact Bin.Keeps.none.store _ ((InOrder.ofConfig config).run calls).room
      · exact keeps_after hopen hfresh.init.allFresh hends (ih hcalls hfresh.init) hroom

/-- A cache keeps what was used last.  Under an address it finds nothing but what was stored there
last, and it finds that while fewer other keys of the bin were used since than a bin has room for
and nothing expires; no bin outgrows its capacity, a call about one bin leaves the others alone, and
nothing is left after a shutdown.  The counters count the lookups and, where nothing expires, the
entries that were dropped. -/
theorem least_recently_used (config : CacheConfig) (calls : List CacheCall) :
    (∀ a value, (((ofConfig config).run calls).lookupAt a).1 = some value →
      LastStored calls a value) ∧
    (∀ a value, (ofConfig config).NothingExpires calls → LastStored calls a value →
      (distinct ((ofConfig config).rivals calls a)).length < max config.maxEntriesPerBin 1 →
      (((ofConfig config).run calls).lookupAt a).1 = some value) ∧
    (∀ name, (((ofConfig config).run calls).bin name).length ≤ max config.maxEntriesPerBin 1) ∧
    (∀ call name other, CacheCall.bin? call = some name → other ≠ name →
      (((ofConfig config).run calls).after call).bin other =
        ((ofConfig config).run calls).bin other) ∧
    (.shutdown ∈ calls → ((ofConfig config).run calls).bins = []) ∧
    ((ofConfig config).run calls).hits + ((ofConfig config).run calls).misses =
      calls.countP CacheCall.isLookup ∧
    ((ofConfig config).NothingExpires calls →
      ((ofConfig config).run calls).evictions = ((ofConfig config).dropped calls).length) := by
  have horder := (InOrder.ofConfig config).run calls
  have hlast (a : CacheAddress) (value : CacheValue)
      (hfound : (((ofConfig config).run calls).lookupAt a).1 = some value) :
      LastStored calls a value := by
    rw [lookupAt_fst] at hfound
    obtain ⟨entry, hentry, rfl⟩ := Option.map_eq_some_iff.mp hfound
    exact lastStored_of_entry (freshAt?_eq_some.mp hentry).1
  refine ⟨hlast, ?_, ?_, ?_, ?_, ?_, ?_⟩
  · intro a value hfresh hstored hroom
    have hkept := (keeps_of_lastStored hstored hfresh hroom).isSome_find? List.mem_cons_self
    obtain ⟨entry, hentry⟩ := Option.isSome_iff_exists.mp hkept
    have hfound : (((ofConfig config).run calls).lookupAt a).1 = some entry.value := by
      rw [lookupAt_fst, hfresh.allFresh.freshAt?_eq, entryAt?, hentry]
      rfl
    rw [hfound, hstored.unique (hlast a _ hfound)]
  · intro name
    have hle := (horder.bins name).length_le
    rwa [capacity_run] at hle
  · intro call name other hbin hother
    exact bin_after_of_ne _ _ hbin hother
  · intro hdown
    exact horder.empty (isShutDown_run.mpr (.inr hdown))
  · rw [lookups_run]
    exact Nat.zero_add _
  · intro hfresh
    rw [(InOrder.ofConfig config).evictions_run hfresh]
    exact Nat.zero_add _

end Found

/-- Three rows are stored, and the first is looked up before the third. -/
def threeRows : List CacheCall :=
  [.store ⟨"Item", [.integer 1]⟩ (.row [.integer 1]) .record,
    .store ⟨"Item", [.integer 2]⟩ (.row [.integer 2]) .record,
    .lookup ⟨"Item", [.integer 1]⟩,
    .wait 1000000000,
    .store ⟨"Item", [.integer 3]⟩ (.row [.integer 3]) .record]

theorem lastStored_threeRows : LastStored threeRows ⟨"Item", [.integer 1]⟩ (.row [.integer 1]) := by
  refine ⟨by decide, [], threeRows.tail, .record, rfl, ?_⟩
  simp [threeRows, CacheCall.Ends]

/-- With room for two of them the row that was looked up is kept, and the other one is dropped. -/
theorem looked_up_row_kept :
    (((ofConfig { maxEntriesPerBin := 2 }).run threeRows).lookupAt ⟨"Item", [.integer 1]⟩).1 =
        some (.row [.integer 1]) ∧
      (ofConfig { maxEntriesPerBin := 2 }).dropped threeRows = [⟨"Item", [.integer 2]⟩] ∧
      ((ofConfig { maxEntriesPerBin := 2 }).run threeRows).evictions = 1 := by
  have hfresh : (ofConfig { maxEntriesPerBin := 2 }).NothingExpires threeRows :=
    nothingExpires_of_elapsed rfl fun category => by cases category <;> decide
  have hall := least_recently_used { maxEntriesPerBin := 2 } threeRows
  have hdropped : (ofConfig { maxEntriesPerBin := 2 }).dropped threeRows =
      [⟨"Item", [.integer 2]⟩] := by decide
  refine ⟨hall.2.1 _ _ hfresh lastStored_threeRows (by decide), hdropped, ?_⟩
  rw [hall.2.2.2.2.2.2 hfresh, hdropped]
  rfl

end MemoryCache

end RecordStore
