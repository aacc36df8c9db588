import RecordStore.StoreError

/-! # Computations that may fail

Every step of resolving, reading and writing is a function of a state that returns a value or fails,
and leaves a state in both cases.  Two kinds of facts are proved about such a step:

* what it returns when it succeeds, taken apart bind by bind (`bind_eq_ok`);
* what it does to the state however it ends: `Within R x` says that `x` leaves a state that `R`
  relates to the state before.  For a reflexive and transitive `R` this is kept by the ways of
  putting steps together (`Within.bind`, `Within.foldlM`), so that it has to be shown for single
  steps only. -/

namespace RecordStore

universe u

variable {ε σ α β : Type u}

/-! ### Values of successful steps -/

theorem bind_eq_ok {x : EStateM ε σ α} {f : α → EStateM ε σ β} {s s' : σ} {b : β} :
    (x >>= f) s = .ok b s' ↔ ∃ a t, x s = .ok a t ∧ f a t = .ok b s' := by
  change EStateM.bind x f s = _ ↔ _
  unfold EStateM.bind
  cases hx : x s with
  | ok a t =>
      constructor
      · exact fun h => ⟨a, t, rfl, h⟩
      · rintro ⟨a', t', h, hf⟩
        cases h
        exact hf
  | error e t => simp

theorem bind_of_ok {x : EStateM ε σ α} {f : α → EStateM ε σ β} {s t : σ} {a : α}
    (h : x s = .ok a t) : (x >>= f) s = f a t := by
  change EStateM.bind x f s = _
  rw [EStateM.bind, h]

theorem bind_of_error {x : EStateM ε σ α} {f : α → EStateM ε σ β} {s t : σ} {e : ε}
    (h : x s = .error e t) : (x >>= f) s = .error e t := by
  change EStateM.bind x f s = _
  rw [EStateM.bind, h]

theorem pure_eq_ok {a b : α} {s s' : σ} :
    (pure a : EStateM ε σ α) s = .ok b s' ↔ a = b ∧ s = s' := by
  change EStateM.Result.ok a s = _ ↔ _
  simp

theorem throw_ne_ok {e : ε} {b : α} {s s' : σ} : (throw e : EStateM ε σ α) s ≠ .ok b s' := by
  intro h
  cases h

theorem ofExcept_ok (a : α) (s : σ) : (ofExcept (.ok a) : EStateM ε σ α) s = .ok a s := rfl

theorem ofExcept_error (e : ε) (s : σ) : (ofExcept (.error e) : EStateM ε σ α) s = .error e s := rfl

theorem ofExcept_eq_ok {x : Except ε α} {a : α} {s s' : σ} :
    (ofExcept x : EStateM ε σ α) s = .ok a s' ↔ x = .ok a ∧ s = s' := by
  cases x with
  | ok b => rw [ofExcept_ok]; simp
  | error e => rw [ofExcept_error]; simp

/-- Steps over a list succeed if the first one does and then the others. -/
theorem mapM_cons_eq_ok {f : β → EStateM ε σ α} {a : β} {as : List β} {bs : List α} {s s' : σ} :
    List.mapM f (a :: as) s = .ok bs s' ↔
      ∃ b rest t, f a s = .ok b t ∧ List.mapM f as t = .ok rest s' ∧ bs = b :: rest := by
  rw [List.mapM_cons, bind_eq_ok]
  constructor
  · rintro ⟨b, t, hb, h⟩
    obtain ⟨rest, t', hrest, h⟩ := bind_eq_ok.mp h
    obtain ⟨rfl, rfl⟩ := pure_eq_ok.mp h
    exact ⟨b, rest, t, hb, hrest, rfl⟩
  · rintro ⟨b, rest, t, hb, hrest, rfl⟩
    exact ⟨b, t, hb, bind_eq_ok.mpr ⟨rest, s', hrest, pure_eq_ok.mpr ⟨rfl, rfl⟩⟩⟩

/-- Where all steps over a list succeed, each of them does in some state. -/
theorem exists_of_mapM_eq_ok {f : β → EStateM ε σ α} {as : List β} {bs : List α} {s s' : σ}
    (h : as.mapM f s = .ok bs s') {a : β} (ha : a ∈ as) : ∃ b t t', f a t = .ok b t' := by
  induction as generalizing bs s with
  | nil => cases ha
  | cons a' as ih =>
      obtain ⟨b, rest, t, hb, hrest, -⟩ := mapM_cons_eq_ok.mp h
      rcases List.mem_cons.mp ha with rfl | ha
      · exact ⟨b, s, t, hb⟩
      · exact ih hrest ha

/-- Steps over a list fail with the error of one of them. -/
theorem exists_of_mapM_eq_error {f : β → EStateM ε σ α} {as : List β} {e : ε} {s s' : σ}
    (h : as.mapM f s = .error e s') : ∃ a ∈ as, ∃ t t', f a t = .error e t' := by
  induction as generalizing s with
  | nil => cases h
  | cons a as ih =>
      rw [List.mapM_cons] at h
      cases ha : f a s with
      | error e' t =>
          rw [bind_of_error ha] at h
          cases h
          exact ⟨a, List.mem_cons_self, s, s', ha⟩
      | ok b t =>
          rw [bind_of_ok ha] at h
          cases has : as.mapM f t with
          | error e' t' =>
              rw [bind_of_error has] at h
              cases h
              obtain ⟨a', ha', hfails⟩ := ih has
              exact ⟨a', List.mem_cons_of_mem a ha', hfails⟩
          | ok bs t' =>
              rw [bind_of_ok has] at h
              cases h

/-- The value of a step that succeeded. -/
def returned : EStateM.Result ε σ α → Option α
  | .ok a _ => some a
  | .error _ _ => none

theorem exists_of_returned {r : EStateM.Result ε σ α} {a : α} (h : returned r = some a) :
    ∃ s, r = .ok a s := by
  cases r with
  | ok b s =>
      cases h
      exact ⟨s, rfl⟩
  | error e s => cases h

/-! ### Values without a state -/

theorem except_bind_eq_ok {x : Except ε α} {f : α → Except ε β} {b : β} :
    (x >>= f) = .ok b ↔ ∃ a, x = .ok a ∧ f a = .ok b := by
  cases x <;> simp [bind, Except.bind]

theorem except_map_eq_ok {x : Except ε α} {f : α → β} {b : β} :
    x.map f = .ok b ↔ ∃ a, x = .ok a ∧ f a = b := by
  cases x <;> simp [Except.map]

theorem except_mapM_cons_eq_ok {f : β → Except ε α} {a : β} {as : List β} {bs : List α} :
    List.mapM f (a :: as) = .ok bs ↔
      ∃ b rest, f a = .ok b ∧ List.mapM f as = .ok rest ∧ bs = b :: rest := by
  rw [List.mapM_cons, except_bind_eq_ok]
  constructor
  · rintro ⟨b, hb, h⟩
    obtain ⟨rest, hrest, h⟩ := except_bind_eq_ok.mp h
    cases h
    exact ⟨b, rest, hb, hrest, rfl⟩
  · rintro ⟨b, rest, hb, hrest, rfl⟩
    exact ⟨b, hb, except_bind_eq_ok.mpr ⟨rest, hrest, rfl⟩⟩

theorem except_mapM_length {f : β → Except ε α} {as : List β} {bs : List α}
    (h : as.mapM f = .ok bs) : bs.length = as.length := by
  induction as generalizing bs with
  | nil =>
      cases h
      rfl
  | cons a as ih =>
      obtain ⟨b, rest, -, hrest, rfl⟩ := except_mapM_cons_eq_ok.mp h
      rw [List.length_cons, List.length_cons, ih hrest]

/-- Every result of a mapping comes from an element. -/
theorem exists_of_mem_except_mapM {f : β → Except ε α} {as : List β} {bs : List α}
    (h : as.mapM f = .ok bs) {b : α} (hb : b ∈ bs) : ∃ a ∈ as, f a = .ok b := by
  induction as generalizing bs with
  | nil =>
      cases h
      cases hb
  | cons a as ih =>
      obtain ⟨b', rest, hb', hrest, rfl⟩ := except_mapM_cons_eq_ok.mp h
      rcases List.mem_cons.mp hb with rfl | hb
      · exact ⟨a, List.mem_cons_self, hb'⟩
      · obtain ⟨a', ha', h'⟩ := ih hrest hb
        exact ⟨a', List.mem_cons_of_mem a ha', h'⟩

theorem mapM_lift {α β : Type} {f : β → Except StatementError α} {bs : List β} {as : List α}
    (h : bs.mapM f = .ok as) : (bs.mapM fun b => StoreError.lift (f b)) = .ok as := by
  induction bs generalizing as with
  | nil =>
      cases h
      rfl
  | cons b bs ih =>
      obtain ⟨a, rest, ha, hrest, rfl⟩ := except_mapM_cons_eq_ok.mp h
      exact except_mapM_cons_eq_ok.mpr ⟨a, rest, by rw [ha]; rfl, ih hrest, rfl⟩

theorem lift_eq_ok {α : Type} {x : Except StatementError α} {a : α} :
    StoreError.lift x = .ok a ↔ x = .ok a := by
  cases x <;> simp [StoreError.lift]

/-! ### States that steps leave -/

/-- The state after a step, which may have failed. -/
def finalState : EStateM.Result ε σ α → σ
  | .ok _ s => s
  | .error _ s => s

theorem finalState_bind_pure (x : EStateM ε σ α) (b : β) (s : σ) :
    finalState ((x >>= fun _ => pure b) s) = finalState (x s) := by
  cases hx : x s with
  | ok a t =>
      rw [bind_of_ok hx]
      rfl
  | error e t =>
      rw [bind_of_error hx]
      rfl

/-- The state after a step is related to the state before. -/
def Within (R : σ → σ → Prop) (x : EStateM ε σ α) : Prop := ∀ s, R s (finalState (x s))

namespace Within

variable {R : σ → σ → Prop}

/-- The second step may rely on the value that the first one has returned. -/
theorem bind_value (trans : ∀ s t u, R s t → R t u → R s u) {x : EStateM ε σ α}
    {f : α → EStateM ε σ β} (hx : Within R x)
    (hf : ∀ s a t, x s = .ok a t → Within R (f a)) : Within R (x >>= f) := by
  intro s
  have h := hx s
  cases hs : x s with
  | ok a t =>
      rw [bind_of_ok hs]
      rw [hs] at h
      exact trans _ _ _ h (hf s a t hs t)
  | error e t =>
      rw [bind_of_error hs]
      rwa [hs] at h

theorem bind (trans : ∀ s t u, R s t → R t u → R s u) {x : EStateM ε σ α}
    {f : α → EStateM ε σ β} (hx : Within R x) (hf : ∀ a, Within R (f a)) : Within R (x >>= f) :=
  bind_value trans hx fun _ a _ _ => hf a

section

variable (refl : ∀ s, R s s)
include refl

theorem pure (a : α) : Within R (pure a : EStateM ε σ α) := refl

theorem ofExcept (x : Except ε α) : Within R (ofExcept x : EStateM ε σ α) := by
  intro s
  cases x <;> exact refl s

/-- What was computed beforehand either fails at once or hands on its value. -/
theorem ofExcept_bind (x : Except ε α) {f : α → EStateM ε σ β}
    (h : ∀ a, x = .ok a → Within R (f a)) :
    Within R (MonadExcept.ofExcept x >>= f : EStateM ε σ β) := by
  intro s
  cases x with
  | ok a => exact h a rfl s
  | error e => exact refl s

theorem foldlM (trans : ∀ s t u, R s t → R t u → R s u) {f : β → α → EStateM ε σ β}
    (hf : ∀ b a, Within R (f b a)) (as : List α) (b : β) : Within R (as.foldlM f b) := by
  induction as generalizing b with
  | nil => exact Within.pure refl b
  | cons a as ih => exact Within.bind trans (hf b a) ih

end

end Within

end RecordStore
