/-! # First occurrences

`distinct xs` keeps the first occurrence of every element of a list, in order: the result has the
same members and no duplicates. -/

namespace RecordStore

variable {α : Type} [DecidableEq α]

/-- The first occurrences of the elements that are not among those seen. -/
def distinctFrom (seen : List α) : List α → List α
  | [] => []
  | x :: xs => if x ∈ seen then distinctFrom seen xs else x :: distinctFrom (x :: seen) xs

/-- The list without repetitions. -/
def distinct (xs : List α) : List α := distinctFrom [] xs

theorem mem_distinctFrom {seen xs : List α} {a : α} :
    a ∈ distinctFrom seen xs ↔ a ∈ xs ∧ a ∉ seen := by
  induction xs generalizing seen with
  | nil => simp [distinctFrom]
  | cons x xs ih =>
    by_cases hx : x ∈ seen <;> by_cases ha : a = x
    · subst ha; simp [distinctFrom, ih, hx]
    · simp [distinctFrom, ih, hx, ha]
    · simp [distinctFrom, hx, ha]
    · simp [distinctFrom, ih, hx, ha]

theorem nodup_distinctFrom (seen xs : List α) : (distinctFrom seen xs).Nodup := by
  induction xs generalizing seen with
  | nil => simp [distinctFrom]
  | cons x xs ih =>
    unfold distinctFrom
    split
    · exact ih seen
    · exact List.nodup_cons.2 ⟨by simp [mem_distinctFrom], ih _⟩

/-- The members stay the same. -/
@[simp] theorem mem_distinct {xs : List α} {a : α} : a ∈ distinct xs ↔ a ∈ xs := by
  simp [distinct, mem_distinctFrom]

/-- Nothing is left twice. -/
theorem nodup_distinct (xs : List α) : (distinct xs).Nodup := nodup_distinctFrom [] xs

end RecordStore
