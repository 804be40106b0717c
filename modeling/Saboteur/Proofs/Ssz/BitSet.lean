import Saboteur.Ssz.BitList

/-!
# Bit lists as sets

A bit list stands for the set of its positions, and two lists of different lengths may stand for the
same set. The tests and operations on lists agree with the ones on sets: `subset` is inclusion,
`disjoint` is having no common position, and the positions of a union of disjoint lists are counted
by adding up.
-/

namespace Saboteur.BitList

variable {max : Nat}

/-! ## Places of plain lists -/

/-- A list stays within another when each of its set places is set there. -/
theorem bitsWithin_iff (xs ys : List Bool) :
    bitsWithin xs ys = true ↔
      ∀ i : Nat, xs[i]?.getD false = true → ys[i]?.getD false = true := by
  induction xs generalizing ys with
  | nil => simp [bitsWithin]
  | cons x xs ih =>
    cases ys with
    | nil =>
      constructor
      · intro h i hi
        have hall : ∀ b ∈ x :: xs, b = false := by simpa [bitsWithin] using h
        rcases Option.eq_none_or_eq_some (x :: xs)[i]? with hn | ⟨b, hb⟩
        · simp [hn] at hi
        · rw [hb, hall b (List.mem_of_getElem? hb)] at hi
          exact absurd hi (by simp)
      · intro h
        have hall : ∀ b ∈ x :: xs, b = false := by
          intro b hb
          obtain ⟨i, hi⟩ := List.getElem?_of_mem hb
          have hi' := h i
          rw [hi] at hi'
          simpa using hi'
        simpa [bitsWithin] using hall
    | cons y ys =>
      rw [bitsWithin, Bool.and_eq_true, ih]
      constructor
      · rintro ⟨hxy, hrest⟩ i hi
        cases i with
        | zero => simp_all
        | succ i => exact hrest i hi
      · intro h
        refine ⟨?_, fun i hi => h (i + 1) hi⟩
        have h0 := h 0
        cases x <;> simp_all

/-- Two lists are apart when no set place of one is set in the other. -/
theorem all_zip_iff (xs ys : List Bool) :
    ((xs.zip ys).all fun p => !(p.1 && p.2)) = true ↔
      ∀ i : Nat, xs[i]?.getD false = true → ys[i]?.getD false = false := by
  induction xs generalizing ys with
  | nil => simp
  | cons x xs ih =>
    cases ys with
    | nil => simp
    | cons y ys =>
      rw [List.zip_cons_cons, List.all_cons, Bool.and_eq_true, ih]
      constructor
      · rintro ⟨hxy, hrest⟩ i hi
        cases i with
        | zero => simp_all
        | succ i => exact hrest i hi
      · intro h
        refine ⟨?_, fun i hi => h (i + 1) hi⟩
        have h0 := h 0
        cases x <;> simp_all

/-- Places that are set in one list only are counted once. -/
theorem count_orBits (xs ys : List Bool)
    (h : ((xs.zip ys).all fun p => !(p.1 && p.2)) = true) :
    (orBits xs ys).count true = xs.count true + ys.count true := by
  induction xs generalizing ys with
  | nil => simp [orBits]
  | cons x xs ih =>
    cases ys with
    | nil => simp [orBits]
    | cons y ys =>
      rw [List.zip_cons_cons, List.all_cons, Bool.and_eq_true] at h
      have hrest := ih ys h.2
      have hxy := h.1
      cases x <;> cases y <;> simp_all [orBits] <;> omega

theorem bitsWithin_nil_iff (xs : List Bool) : bitsWithin xs [] = true ↔ xs.count true = 0 := by
  cases xs with
  | nil => simp [bitsWithin]
  | cons x xs => simp [bitsWithin, List.count_eq_zero]

/-- A list within another has no more set places, and with as many it is the other way round
too. -/
theorem count_le_of_bitsWithin {xs ys : List Bool} (h : bitsWithin xs ys = true) :
    xs.count true ≤ ys.count true ∧
      (ys.count true ≤ xs.count true → bitsWithin ys xs = true) := by
  induction xs generalizing ys with
  | nil =>
    rw [List.count_nil]
    exact ⟨Nat.zero_le _, fun hcount => (bitsWithin_nil_iff ys).2 (Nat.le_zero.1 hcount)⟩
  | cons x xs ih =>
    cases ys with
    | nil =>
      rw [(bitsWithin_nil_iff _).1 h]
      exact ⟨Nat.zero_le _, fun _ => rfl⟩
    | cons y ys =>
      rw [bitsWithin, Bool.and_eq_true] at h
      obtain ⟨hxy, hrest⟩ := h
      obtain ⟨hle, hback⟩ := ih hrest
      rw [bitsWithin, Bool.and_eq_true]
      cases x <;> cases y
      case false.false => simpa using ⟨hle, hback⟩
      case false.true =>
        -- a place that is set in the second list only makes that one larger
        simp only [List.count_cons_self, List.count_cons_of_ne (show false ≠ true by decide)]
        omega
      case true.false => cases hxy
      case true.true => simpa using ⟨hle, hback⟩

/-! ## Sets of positions -/

theorem subset_iff (a b : BitList max) :
    a.subset b = true ↔ ∀ i, a.get i = true → b.get i = true :=
  bitsWithin_iff _ _

theorem disjoint_iff (a b : BitList max) :
    a.disjoint b = true ↔ ∀ i, a.get i = true → b.get i = false :=
  all_zip_iff _ _

/-- **Disjoint lists have as many positions together as they have one by one.** -/
theorem count_union {a b : BitList max} (h : a.disjoint b = true) :
    (a.union b).count = a.count + b.count :=
  count_orBits _ _ h

/-- **A set within another that is no larger is the same set.** -/
theorem subset_of_count_le {a b : BitList max} (h : a.subset b = true) (hcount : b.count ≤ a.count) :
    b.subset a = true :=
  (count_le_of_bitsWithin h).2 hcount

end Saboteur.BitList
