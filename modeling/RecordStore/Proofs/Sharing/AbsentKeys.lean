import RecordStore.Proofs.Reading.Answered
import RecordStore.Proofs.Sharing.Freshness

/-! # Rows under absent keys

No row has an absent key, and looking up and inserting a record store nothing under one.  Finding
records by their keys does not look at the keys of the records that the database answers, so that a
row under an absent key may be in the cache after all.  Such a row was stored by finding, and its
record was in an answer to a query for the records of a set of keys
(`Sharing.absent_row_answered`).

The proof refines what a call stores by what was asked during the call (`Call.Loads`). -/

namespace RecordStore

namespace Call

variable {σ : Type}

/-- What a call stores over a repository, by what is asked during the call. -/
def Loads (repo : Repository σ) : Call → Storable
  | @get α _ _ _ | findOne α _ | @insert α _ _ => StoresIdentified α
  | find α s strategy => Reading.AnswerStores repo.connection.dialect α s
      (repo.asked (Repository.find α s strategy))
  | _ => fun _ _ => False

/-- The value is the row of a record that the call, finding records, was answered for a set of
keys. -/
def StoresAnswered (repo : Repository σ) : Call → Storable
  | find α s strategy => StoresRowOf (Reading.Answered repo.connection.dialect
      (repo.asked (Repository.find α s strategy)) : α → Prop)
  | _ => fun _ _ => False

theorem perform_loads (call : Call) (repo : Repository σ) :
    OptionalSteps (call.Loads repo) repo.cache (call.perform repo).2.cache := by
  cases call with
  | get key strategy =>
      exact repo.read_steps ((Reading.lookup_within _ _ _).mono fun _ _ => .mono fun _ => And.right)
  | findOne α condition =>
      exact repo.read_steps ((Reading.lookup_within _ _ _).mono fun _ _ => .mono fun _ => And.right)
  | find α s strategy => exact repo.find_steps α s strategy
  | @insert α _ record =>
      have hinsert := repo.insert_cache record
      rw [perform]
      cases hrun : Repository.insert record repo with
      | ok n p =>
          rw [hrun] at hinsert
          obtain ⟨-, hcache⟩ := hinsert
          exact (Inserted.optionalSteps hcache).mono fun _ _ => .mono fun _ => And.right
      | error e p =>
          rw [hrun] at hinsert
          exact hinsert.mono fun _ _ => False.elim
  | count α s => exact perform_steps (count α s) repo
  | update record => exact perform_steps (update record) repo
  | updateWhere assignments target => exact perform_steps (updateWhere assignments target) repo
  | updateMatching r assignments condition guard =>
      exact perform_steps (updateMatching r assignments condition guard) repo
  | delete key => exact perform_steps (delete key) repo
  | deleteWhere target => exact perform_steps (deleteWhere target) repo
  | setCachingEnabled enabled => exact perform_steps (setCachingEnabled enabled) repo

/-- Only what was answered for a set of keys is stored under an absent key: the other records that
are stored have a key that a row can have, and a list of keys is stored under a digest. -/
theorem Loads.answered_of_absent {call : Call} {repo : Repository σ} {a : CacheAddress}
    {value : CacheValue} (h : call.Loads repo a value) (habsent : isAbsentKey a.key = true) :
    call.StoresAnswered repo a value := by
  cases call with
  | find α s strategy =>
      rcases h with hrow | ⟨statement, tuples, -, -, -, rfl, -⟩
      · exact hrow
      · have hpresent : isAbsentKey [.text (Digest.ofStatement statement)] = false := rfl
        have hkey : isAbsentKey [.text (Digest.ofStatement statement)] = true := habsent
        rw [hpresent] at hkey
        cases hkey
  | get _ _ | findOne _ _ | insert _ =>
      rw [StoresRowOf.isAbsentKey_eq h] at habsent
      cases habsent
  | count _ _ | update _ | updateWhere _ _ | updateMatching _ _ _ _ | delete _ | deleteWhere _
  | setCachingEnabled _ => cases h

end Call

namespace Sharing

variable {σ : Type} (s : Sharing σ)

/-- An entry that is left in the end was stored in one of the turns, by what was asked in it. -/
theorem stored_loads (hempty : ∀ a, s.cache.entryAt? a = none) (turns : List Turn)
    {a : CacheAddress} {e : CacheEntry} (he : (s.run turns).cache.entryAt? a = some e) :
    ∃ earlier t later, turns = earlier ++ t :: later ∧ s.StoredIn earlier t a e ∧
      t.call.Loads ((s.run earlier).repository t.repository) a e.value := by
  obtain ⟨earlier, t, later, rfl, hstored, -⟩ :=
    (s.stored_since (P := fun _ => True) turns he fun _ _ _ _ => trivial).resolve_left fun h => by
      rw [hempty] at h
      cases h.1
  refine ⟨earlier, t, later, rfl, hstored, ?_⟩
  have hrun : (s.run (earlier ++ [t])).run later = s.run (earlier ++ t :: later) := by
    rw [← run_append, List.append_assoc]
    rfl
  -- The entry was there right after the turn: what is stored later has a greater number.
  have hthere : ((s.run earlier).step t).2.cache.entryAt? a = some e := by
    have hsteps := run_steps (s.run (earlier ++ [t])) later
    rw [hrun] at hsteps
    rcases hsteps.entryAt? he with hold | ⟨hnew, -, -⟩
    · rwa [run_snoc] at hold
    · exact absurd hstored.2.1 (Nat.not_le.mpr hnew)
  have hturn := (s.run earlier).step_cacheSteps
    (t.call.perform_loads ((s.run earlier).repository t.repository))
  rcases hturn.entryAt? hthere with hold | ⟨-, -, hloads⟩
  · -- It was not there before: what was stored earlier has a smaller number.
    rcases (s.run_steps earlier).entryAt? hold with hstart | ⟨-, hle, -⟩
    · rw [hempty] at hstart
      cases hstart
    · exact absurd hstored.1 (Nat.not_lt.mpr hle)
  · exact hloads

/-- In every state that calls lead to from an empty cache, a row under an absent key was stored in a
turn that finds the records of a query, and its record was in an answer of the database to a query
for the records of a set of keys. -/
theorem absent_row_answered (hempty : s.cache.bins = []) (turns : List Turn) {r : RecordType}
    {key : List Value} {e : CacheEntry}
    (he : (s.run turns).cache.entryAt? (.ofRow r key) = some e)
    (habsent : isAbsentKey key = true) :
    ∃ earlier t later, turns = earlier ++ t :: later ∧ s.StoredIn earlier t (.ofRow r key) e ∧
      t.call.StoresAnswered ((s.run earlier).repository t.repository) (.ofRow r key) e.value := by
  obtain ⟨earlier, t, later, rfl, hstored, hloads⟩ :=
    s.stored_loads (MemoryCache.entryAt?_of_bins hempty) turns he
  exact ⟨earlier, t, later, rfl, hstored, hloads.answered_of_absent habsent⟩

end Sharing

namespace Sample

/-- All items are found by their keys. -/
def findItems : List Turn := [⟨0, .find Item { record := schema.type } .keyThenFetch, 0⟩]

/-- The entry under the absent key. -/
theorem entryAt?_unnumbered :
    (unnumbered.run findItems).cache.entryAt? (.ofRow schema.type [.integer 0]) =
      some ⟨.row [.integer 0, .text "new"], 1, some 300000000000⟩ := by decide +kernel

/-- The row under the absent key was answered. -/
theorem unnumbered_answered : ∃ earlier t later, findItems = earlier ++ t :: later ∧
    unnumbered.StoredIn earlier t (.ofRow schema.type [.integer 0])
      ⟨.row [.integer 0, .text "new"], 1, some 300000000000⟩ ∧
    t.call.StoresAnswered ((unnumbered.run earlier).repository t.repository)
      (.ofRow schema.type [.integer 0]) (.row [.integer 0, .text "new"]) :=
  unnumbered.absent_row_answered rfl findItems entryAt?_unnumbered rfl

/-- From an empty cache, finding all items leads to a row under an absent key. -/
theorem unnumbered_cached : unnumbered.cache.bins = [] ∧
    isAbsentKey [.integer 0] = true ∧
    (unnumbered.run findItems).cache.entryAt? (.ofRow schema.type [.integer 0]) =
      some ⟨.row [.integer 0, .text "new"], 1, some 300000000000⟩ :=
  ⟨rfl, rfl, entryAt?_unnumbered⟩

end Sample

end RecordStore
