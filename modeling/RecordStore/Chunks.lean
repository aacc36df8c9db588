/-! # Cutting lists

`chunks size xs` cuts a list into pieces of `size` elements, the last one possibly shorter; a size
of zero counts as one.  The pieces put together are the list (`flatten_chunks`), and there are as
many of them as are needed (`length_chunks`). -/

namespace RecordStore

/-- At most `fuel` pieces off the front of a list. -/
def chunksUpTo {α : Type} (size : Nat) : Nat → List α → List (List α)
  | 0, _ => []
  | _ + 1, [] => []
  | fuel + 1, x :: xs => (x :: xs).take size :: chunksUpTo size fuel ((x :: xs).drop size)

/-- The list in pieces of the same size. -/
def chunks {α : Type} (size : Nat) (xs : List α) : List (List α) :=
  chunksUpTo (max size 1) xs.length xs

theorem chunks_max_one {α : Type} (size : Nat) (xs : List α) :
    chunks (max size 1) xs = chunks size xs := by
  unfold chunks
  rw [Nat.max_assoc, Nat.max_self]

theorem flatten_chunksUpTo {α : Type} {size : Nat} (hsize : 0 < size) (fuel : Nat) (xs : List α)
    (h : xs.length ≤ fuel) : (chunksUpTo size fuel xs).flatten = xs := by
  induction fuel generalizing xs with
  | zero => simp_all [chunksUpTo]
  | succ fuel ih =>
    cases xs with
    | nil => simp [chunksUpTo]
    | cons x xs =>
      have h : ((x :: xs).drop size).length ≤ fuel := by
        simp only [List.length_drop, List.length_cons] at *
        omega
      rw [chunksUpTo, List.flatten_cons, ih _ h, List.take_append_drop]

/-- Nothing is lost, added or moved. -/
theorem flatten_chunks {α : Type} (size : Nat) (xs : List α) : (chunks size xs).flatten = xs :=
  flatten_chunksUpTo (by omega) _ _ (Nat.le_refl _)

/-- A short list is one piece. -/
theorem chunks_of_short {α : Type} {size : Nat} {xs : List α} (hne : xs ≠ [])
    (h : xs.length ≤ size) : chunks size xs = [xs] := by
  obtain ⟨x, xs, rfl⟩ := List.exists_cons_of_ne_nil hne
  have hsize : (x :: xs).length ≤ max size 1 := Nat.le_trans h (Nat.le_max_left size 1)
  unfold chunks
  rw [List.length_cons, chunksUpTo, List.take_of_length_le hsize, List.drop_of_length_le hsize]
  cases xs <;> rfl

/-- As many chunks as are needed. -/
theorem length_chunks {α : Type} {size : Nat} (hsize : 0 < size) (xs : List α) :
    (chunks size xs).length = (xs.length + size - 1) / size := by
  have hupTo (fuel : Nat) (xs : List α) (h : xs.length ≤ fuel) :
      (chunksUpTo size fuel xs).length = (xs.length + size - 1) / size := by
    induction fuel generalizing xs with
    | zero =>
        obtain rfl := List.length_eq_zero_iff.mp (Nat.le_zero.mp h)
        exact (Nat.div_eq_of_lt (by rw [List.length_nil]; omega)).symm
    | succ fuel ih =>
        cases xs with
        | nil => exact (Nat.div_eq_of_lt (by rw [List.length_nil]; omega)).symm
        | cons x xs =>
            have hrest : ((x :: xs).drop size).length ≤ fuel := by
              rw [List.length_drop, List.length_cons] at *
              omega
            rw [chunksUpTo, List.length_cons, ih _ hrest, List.length_drop, List.length_cons]
            have hstep : xs.length + 1 + size - 1 = xs.length + size := by omega
            rw [hstep, Nat.add_div_right _ hsize]
            by_cases hshort : xs.length + 1 ≤ size
            · rw [Nat.sub_eq_zero_of_le hshort, Nat.div_eq_of_lt (by omega),
                Nat.div_eq_of_lt (by omega)]
            · have hrest : xs.length + 1 - size + size - 1 = xs.length := by omega
              rw [hrest]
  unfold chunks
  rw [Nat.max_eq_left hsize]
  exact hupTo _ _ (Nat.le_refl _)

theorem length_of_mem_chunks {α : Type} {size : Nat} (hsize : 0 < size) {xs chunk : List α}
    (h : chunk ∈ chunks size xs) : 0 < chunk.length ∧ chunk.length ≤ size := by
  unfold chunks at h
  rw [Nat.max_eq_left hsize] at h
  generalize xs.length = fuel at h
  induction fuel generalizing xs with
  | zero => cases h
  | succ fuel ih =>
      cases xs with
      | nil => cases h
      | cons x xs =>
          rw [chunksUpTo] at h
          rcases List.mem_cons.mp h with rfl | hrest
          · rw [List.length_take, List.length_cons]
            omega
          · exact ih hrest

/-- All pieces but the last have the same size. -/
theorem length_of_mem_dropLast_chunks {α : Type} {size : Nat} {xs chunk : List α}
    (h : chunk ∈ (chunks size xs).dropLast) : chunk.length = max size 1 := by
  unfold chunks at h
  generalize max size 1 = size at h ⊢
  generalize xs.length = fuel at h
  induction fuel generalizing xs with
  | zero => cases h
  | succ fuel ih =>
      cases xs with
      | nil => cases h
      | cons x xs =>
          rw [chunksUpTo] at h
          cases hrest : chunksUpTo size fuel ((x :: xs).drop size) with
          | nil => rw [hrest] at h; cases h
          | cons piece pieces =>
              rw [hrest, List.dropLast_cons_cons] at h
              rcases List.mem_cons.mp h with rfl | hpieces
              · -- Something is left after this piece, or there would be no further one.
                have hlong : size < (x :: xs).length := Nat.lt_of_not_le fun hshort => by
                  rw [List.drop_of_length_le hshort] at hrest
                  cases fuel <;> cases hrest
                exact List.length_take_of_le (Nat.le_of_lt hlong)
              · exact ih (hrest ▸ hpieces)

theorem chunks_map {α β : Type} (f : α → β) (size : Nat) (xs : List α) :
    chunks size (xs.map f) = (chunks size xs).map (List.map f) := by
  unfold chunks
  rw [List.length_map]
  generalize xs.length = fuel
  induction fuel generalizing xs with
  | zero => rfl
  | succ fuel ih =>
      cases xs with
      | nil => rfl
      | cons x xs =>
          rw [List.map_cons, chunksUpTo, chunksUpTo, ← List.map_cons, ← List.map_drop, ih,
            ← List.map_take, List.map_cons]

end RecordStore
