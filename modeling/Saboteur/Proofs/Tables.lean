import Mathlib.Data.List.Nodup
import Saboteur.Table

/-!
# Tables by their keys

Changing the value of a key changes that of no other key, also where the values are tables again.

Setting a key never gives it a second entry, so the keys of a table that was built up from the empty
one are distinct. Where they are, dropping entries cannot uncover an older value of a key.
-/

namespace Saboteur.Table

variable {κ ν : Type}

/-- No key has two entries. -/
def Distinct (t : Table κ ν) : Prop := t.keys.Nodup

theorem distinct_empty : (empty : Table κ ν).Distinct := List.nodup_nil

theorem Distinct.filter {t : Table κ ν} (h : t.Distinct) (p : κ → ν → Bool) :
    (t.filter p).Distinct := by
  refine List.Nodup.sublist ?_ h
  exact List.filter_sublist.map Prod.fst

theorem Distinct.nodup_entries {t : Table κ ν} (h : t.Distinct) : t.entries.Nodup :=
  List.Nodup.of_map Prod.fst h

@[simp] theorem keys_mapValues (t : Table κ ν) (f : ν → ν) : (t.mapValues f).keys = t.keys := by
  rw [keys, entries_mapValues, List.map_map]
  rfl

theorem mapValues_mapValues (t : Table κ ν) (f g : ν → ν) :
    (t.mapValues f).mapValues g = t.mapValues (g ∘ f) := by
  unfold mapValues
  rw [List.map_map]
  rfl

theorem Distinct.mapValues {t : Table κ ν} (h : t.Distinct) (f : ν → ν) :
    (t.mapValues f).Distinct := by
  rw [Distinct, keys_mapValues]
  exact h

variable [DecidableEq κ]

instance (t : Table κ ν) : Decidable t.Distinct := inferInstanceAs (Decidable t.keys.Nodup)

theorem get?_set_self (t : Table κ ν) (k : κ) (v : ν) : (t.set k v).get? k = some v := by
  rw [get?_set, if_pos rfl]

theorem get?_alter (t : Table κ ν) (k k' : κ) (d : ν) (f : ν → ν) :
    (t.alter k d f).get? k' = if k = k' then some (f ((t.get? k).getD d)) else t.get? k' :=
  get?_set t k k' _

/-- **In a table of tables, a pair of keys that was given a value has it, and every other pair keeps
its own.** -/
theorem get?_getD_alter_set {ι : Type} [DecidableEq ι] (t : Table κ (Table ι ν)) (k k' : κ)
    (i i' : ι) (v : ν) :
    (((t.alter k empty (·.set i v)).get? k').getD empty).get? i' =
      if k = k' ∧ i = i' then some v else ((t.get? k').getD empty).get? i' := by
  rw [get?_alter]
  by_cases hk : k = k'
  · subst hk
    simp
  · simp [hk]

theorem mem_keys_put {k k' : κ} {v : ν} {es : List (κ × ν)} :
    k' ∈ (put k v es).map Prod.fst ↔ k' = k ∨ k' ∈ es.map Prod.fst := by
  induction es with
  | nil => simp [put]
  | cons e rest ih =>
    unfold put
    split
    · rename_i hk
      simp [hk]
    · simp only [List.map_cons, List.mem_cons, ih]
      exact or_left_comm

theorem mem_put {k : κ} {v : ν} {es : List (κ × ν)} {e : κ × ν} (h : e ∈ put k v es) :
    e = (k, v) ∨ e ∈ es := by
  induction es with
  | nil => exact .inl (List.mem_singleton.1 h)
  | cons e' rest ih =>
    unfold put at h
    split at h
    · rcases List.mem_cons.1 h with heq | hmem
      · exact .inl heq
      · exact .inr (List.mem_cons_of_mem _ hmem)
    · rcases List.mem_cons.1 h with heq | hmem
      · exact .inr (heq ▸ List.mem_cons_self)
      · rcases ih hmem with heq | hmem
        · exact .inl heq
        · exact .inr (List.mem_cons_of_mem _ hmem)

theorem nodup_keys_put (k : κ) (v : ν) {es : List (κ × ν)} (h : (es.map Prod.fst).Nodup) :
    ((put k v es).map Prod.fst).Nodup := by
  induction es with
  | nil => exact List.pairwise_singleton _ _
  | cons e rest ih =>
    obtain ⟨hhead, hrest⟩ := List.nodup_cons.1 h
    unfold put
    split
    · rename_i hk
      rw [hk] at hhead
      exact List.nodup_cons.2 ⟨hhead, hrest⟩
    · rename_i hk
      refine List.nodup_cons.2 ⟨fun hmem => ?_, ih hrest⟩
      rcases mem_keys_put.1 hmem with heq | hmem
      · exact hk heq
      · exact hhead hmem

theorem Distinct.set {t : Table κ ν} (h : t.Distinct) (k : κ) (v : ν) : (t.set k v).Distinct :=
  nodup_keys_put k v h

theorem keys_put_of_mem {k : κ} (v : ν) {es : List (κ × ν)} (h : k ∈ es.map Prod.fst) :
    (put k v es).map Prod.fst = es.map Prod.fst := by
  induction es with
  | nil => exact absurd h List.not_mem_nil
  | cons e rest ih =>
    unfold put
    split
    · rename_i hk
      rw [List.map_cons, List.map_cons, hk]
    · rename_i hk
      rcases List.mem_cons.1 h with heq | hmem
      · exact absurd heq.symm hk
      · rw [List.map_cons, List.map_cons, ih hmem]

/-- A known key keeps its place. -/
theorem keys_set_of_mem {t : Table κ ν} {k : κ} (h : k ∈ t.keys) (v : ν) :
    (t.set k v).keys = t.keys := keys_put_of_mem v h

theorem find?_eq_none_of_not_mem {k : κ} {es : List (κ × ν)} (h : k ∉ es.map Prod.fst) :
    find? k es = none := by
  induction es with
  | nil => rfl
  | cons e rest ih =>
    rw [List.map_cons, List.mem_cons, not_or] at h
    rw [find?, if_neg (Ne.symm h.1), ih h.2]

/-- **The keys are those that have a value.** -/
theorem mem_keys_iff {k : κ} {t : Table κ ν} : k ∈ t.keys ↔ (t.get? k).isSome := by
  obtain ⟨entries⟩ := t
  rw [keys, get?]
  induction entries with
  | nil => simp [find?]
  | cons e rest ih =>
    rw [List.map_cons, List.mem_cons, find?, ih]
    by_cases hk : e.1 = k
    · simp [hk]
    · simp [hk, Ne.symm hk]

theorem find?_filter (p : κ → ν → Bool) (k : κ) {es : List (κ × ν)}
    (h : (es.map Prod.fst).Nodup) :
    find? k (es.filter fun e => p e.1 e.2) = (find? k es).filter (p k) := by
  induction es with
  | nil => rfl
  | cons e rest ih =>
    obtain ⟨a, v⟩ := e
    obtain ⟨hhead, hrest⟩ := List.nodup_cons.1 h
    by_cases hk : a = k
    · subst hk
      -- what comes behind the entry of the key has other keys
      have hnone : find? a rest = none := find?_eq_none_of_not_mem hhead
      have hkept := ih hrest
      rw [hnone] at hkept
      by_cases hp : p a v = true
      · simp [find?, hp, Option.filter]
      · simp [find?, hp, hkept, Option.filter]
    · by_cases hp : p a v = true
      · simp [find?, hp, hk, ih hrest]
      · simp [find?, hp, hk, ih hrest]

/-- **A key keeps its value if the value satisfies the condition, and otherwise has none.** -/
theorem get?_filter {t : Table κ ν} (h : t.Distinct) (p : κ → ν → Bool) (k : κ) :
    (t.filter p).get? k = (t.get? k).filter (p k) := find?_filter p k h

/-- Where the condition is one on keys alone, a key keeps its value or has none. -/
theorem get?_filter_key (t : Table κ ν) (p : κ → Bool) (k : κ) :
    (t.filter fun k' _ => p k').get? k = if p k then t.get? k else none := by
  obtain ⟨entries⟩ := t
  unfold filter get?
  induction entries with
  | nil => simp [find?]
  | cons e rest ih =>
    obtain ⟨a, v⟩ := e
    by_cases hk : a = k
    · subst hk
      by_cases hp : p a = true
      · simp [find?, hp]
      · simpa [find?, hp] using ih
    · by_cases hp : p a = true
      · simpa [find?, hp, hk] using ih
      · simpa [find?, hp, hk] using ih

/-- **The entries are the keys with their values.** -/
theorem mem_entries_iff {t : Table κ ν} (h : t.Distinct) {k : κ} {v : ν} :
    (k, v) ∈ t.entries ↔ t.get? k = some v := by
  obtain ⟨entries⟩ := t
  unfold get?
  induction entries with
  | nil => simp [find?]
  | cons e rest ih =>
    obtain ⟨a, w⟩ := e
    obtain ⟨hhead, hrest⟩ := List.nodup_cons.1 h
    by_cases hk : a = k
    · subst hk
      -- no entry behind the first one has its key
      have hnone : (a, v) ∉ rest := fun hmem => hhead (List.mem_map.2 ⟨(a, v), hmem, rfl⟩)
      simp [find?, hnone, eq_comm]
    · simp [find?, hk, Ne.symm hk, ih hrest]

/-- **Tables with the same keys in the same order are equal if each key has the same value.** -/
theorem eq_of_get?_eq {t u : Table κ ν} (h : t.Distinct) (hkeys : t.keys = u.keys)
    (hget : ∀ k, t.get? k = u.get? k) : t = u := by
  obtain ⟨es⟩ := t
  obtain ⟨fs⟩ := u
  congr 1
  change (es.map Prod.fst).Nodup at h
  change es.map Prod.fst = fs.map Prod.fst at hkeys
  change ∀ k, find? k es = find? k fs at hget
  induction es generalizing fs with
  | nil => exact (List.map_eq_nil_iff.1 hkeys.symm).symm
  | cons e rest ih =>
    cases fs with
    | nil => cases hkeys
    | cons f others =>
      obtain ⟨k, v⟩ := e
      obtain ⟨k', v'⟩ := f
      obtain ⟨rfl, hrest⟩ := List.cons.inj hkeys
      obtain ⟨hhead, htail⟩ := List.nodup_cons.1 h
      have hv : some v = some v' := by simpa [find?] using hget k
      rw [Option.some.inj hv, ih others htail hrest]
      intro i
      by_cases hi : k = i
      · -- behind the first entry neither list has its key
        subst hi
        have hhead' : k ∉ others.map Prod.fst := hrest ▸ hhead
        rw [find?_eq_none_of_not_mem hhead, find?_eq_none_of_not_mem hhead']
      · simpa [find?, hi] using hget i

theorem Distinct.alter {t : Table κ ν} (h : t.Distinct) (k : κ) (d : ν) (f : ν → ν) :
    (t.alter k d f).Distinct := h.set k _

theorem Distinct.erase {t : Table κ ν} (h : t.Distinct) (k : κ) :
    (t.erase k).Distinct := h.filter fun k' _ => !decide (k' = k)

/-- **A table that lists for each key what has that key lists everything once.** -/
theorem perm_flatten_values {ι α : Type} {t : Table κ (List α)} (h : t.Distinct) {items : List ι}
    {key : ι → κ} {f : ι → α}
    (hlists : ∀ k, (t.get? k).getD [] = (items.filter fun i => key i = k).map f) :
    t.values.flatten.Perm (items.map f) := by
  obtain ⟨entries⟩ := t
  induction entries generalizing items with
  | nil =>
    have hnone : items = [] := by
      refine List.eq_nil_iff_forall_not_mem.2 fun i hi => ?_
      have hempty := List.map_eq_nil_iff.1 (hlists (key i)).symm
      exact List.not_mem_nil (hempty ▸ List.mem_filter.2 ⟨hi, decide_eq_true rfl⟩)
    rw [hnone]
    exact .refl _
  | cons e rest ih =>
    obtain ⟨k, v⟩ := e
    obtain ⟨hhead, hrest⟩ := List.nodup_cons.1 h
    have hfirst : v = (items.filter fun i => key i = k).map f := by
      simpa [get?, find?] using hlists k
    have hothers : ∀ k', ((⟨rest⟩ : Table κ (List α)).get? k').getD [] =
        ((items.filter fun i => !decide (key i = k)).filter fun i => key i = k').map f := by
      intro k'
      rw [List.filter_filter]
      by_cases hk : k = k'
      · subst hk
        have hnone : find? k rest = none := find?_eq_none_of_not_mem hhead
        simp [get?, hnone]
      · have hsame := hlists k'
        rw [get?, find?, if_neg hk] at hsame
        rw [get?, hsame]
        congr 1
        refine List.filter_congr fun i _ => ?_
        by_cases hi : key i = k'
        · simp [hi, Ne.symm hk]
        · simp [hi]
    have hsplit : ((items.filter fun i => key i = k) ++
        items.filter fun i => !decide (key i = k)).Perm items :=
      List.filter_append_perm (fun i => decide (key i = k)) items
    change (v ++ (⟨rest⟩ : Table κ (List α)).values.flatten).Perm _
    refine ((ih hrest hothers).append_left v).trans ?_
    rw [hfirst, ← List.map_append]
    exact hsplit.map f

end Saboteur.Table
