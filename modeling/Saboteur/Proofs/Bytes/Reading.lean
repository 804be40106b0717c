import Saboteur.Bytes.Octets

/-!
# Reading bytes

What is known once a reader has succeeded, and numbers that are read back from their bytes.
-/

namespace Saboteur

/-! ## Successful results -/

theorem map_eq_ok_iff {ε α β : Type} {x : Except ε α} {f : α → β} {b : β} :
    x.map f = .ok b ↔ ∃ a, x = .ok a ∧ f a = b := by
  cases x <;> simp [Except.map]

theorem toOption_eq_some_iff {ε α : Type} {x : Except ε α} {a : α} :
    x.toOption = some a ↔ x = .ok a := by
  cases x <;> simp [Except.toOption]

/-- A conversion that can be undone changes nothing about success. -/
theorem map_eq_ok_iff_of_inverse {ε α β : Type} {x : Except ε α} {f : α → β} {g : β → α}
    (hgf : ∀ a, g (f a) = a) (hfg : ∀ b, f (g b) = b) {b : β} :
    x.map f = .ok b ↔ x = .ok (g b) := by
  rw [map_eq_ok_iff]
  constructor
  · rintro ⟨a, rfl, rfl⟩
    rw [hgf]
  · rintro rfl
    exact ⟨g b, rfl, hfg b⟩

@[simp] theorem fmap_eq_ok_iff {ε α β : Type} {x : Except ε α} {f : α → β} {b : β} :
    f <$> x = .ok b ↔ ∃ a, x = .ok a ∧ f a = b :=
  map_eq_ok_iff

@[simp] theorem bind_eq_ok_iff {ε α β : Type} {x : Except ε α} {f : α → Except ε β} {b : β} :
    (x >>= f) = .ok b ↔ ∃ a, x = .ok a ∧ f a = .ok b := by
  cases x <;> simp [bind, Except.bind]

theorem mapError_eq_ok_iff {ε ε' α : Type} {x : Except ε α} {f : ε → ε'} {a : α} :
    x.mapError f = .ok a ↔ x = .ok a := by
  cases x with
  | error e =>
    show Except.error (f e) = .ok a ↔ Except.error e = .ok a
    simp
  | ok b =>
    show Except.ok b = .ok a ↔ _
    rw [Except.ok.injEq, Except.ok.injEq]

/-! ## Lists of results -/

/-- What is read one by one is read from one each. -/
theorem exists_of_mem_mapM {α β : Type} {f : α → Option β} {as : List α} {bs : List β}
    (h : as.mapM f = some bs) {b : β} (hb : b ∈ bs) : ∃ a ∈ as, f a = some b := by
  induction as generalizing bs with
  | nil =>
    rw [List.mapM_nil] at h
    cases h
    exact absurd hb List.not_mem_nil
  | cons a as ih =>
    rw [List.mapM_cons] at h
    obtain ⟨b', hb', h⟩ := Option.bind_eq_some_iff.1 h
    obtain ⟨bs', hbs', h⟩ := Option.bind_eq_some_iff.1 h
    cases h
    rcases List.mem_cons.1 hb with rfl | hmem
    · exact ⟨a, List.mem_cons_self, hb'⟩
    · obtain ⟨a', ha', hf⟩ := ih hbs' hmem
      exact ⟨a', List.mem_cons_of_mem _ ha', hf⟩

theorem length_of_mapM_eq_some {α β : Type} {f : α → Option β} {as : List α} {bs : List β}
    (h : as.mapM f = some bs) : bs.length = as.length := by
  induction as generalizing bs with
  | nil =>
    rw [List.mapM_nil] at h
    cases h
    rfl
  | cons a as ih =>
    rw [List.mapM_cons] at h
    obtain ⟨b, -, h⟩ := Option.bind_eq_some_iff.1 h
    obtain ⟨bs', hbs', h⟩ := Option.bind_eq_some_iff.1 h
    cases h
    rw [List.length_cons, List.length_cons, ih hbs']

/-- What is replaced by itself one by one stays. -/
theorem flatMap_eq_self {α : Type} {f : α → List α} {as : List α} (h : ∀ a ∈ as, f a = [a]) :
    as.flatMap f = as := by
  induction as with
  | nil => rfl
  | cons a as ih =>
    obtain ⟨ha, has⟩ := List.forall_mem_cons.1 h
    rw [List.flatMap_cons, ha, ih has, List.singleton_append]

/-- What is read as itself is read as itself one by one. -/
theorem mapM_eq_some_of_forall {α : Type} {f : α → Option α} {as : List α}
    (h : ∀ a ∈ as, f a = some a) : as.mapM f = some as := by
  induction as with
  | nil => rfl
  | cons a as ih =>
    obtain ⟨ha, has⟩ := List.forall_mem_cons.1 h
    rw [List.mapM_cons, ha, ih has]
    rfl

/-! ## Numbers in bytes -/

theorem ofLittleEndian_lt (bytes : List UInt8) :
    ofLittleEndian bytes < Nat.pow 256 bytes.length := by
  induction bytes with
  | nil => exact Nat.one_pos
  | cons b rest ih =>
    have hb := b.toNat_lt
    have hpow : Nat.pow 256 (rest.length + 1) = Nat.pow 256 rest.length * 256 := rfl
    rw [List.length_cons, hpow, ofLittleEndian]
    omega

theorem littleEndian_ofLittleEndian (bytes : List UInt8) :
    littleEndian bytes.length (ofLittleEndian bytes) = bytes := by
  induction bytes with
  | nil => rfl
  | cons b rest ih =>
    have hb := b.toNat_lt
    have hlow : (b.toNat + 256 * ofLittleEndian rest) % 256 = b.toNat := by omega
    have hhigh : (b.toNat + 256 * ofLittleEndian rest) / 256 = ofLittleEndian rest := by omega
    rw [ofLittleEndian, List.length_cons, littleEndian, hlow, hhigh, ih, UInt8.ofNat_toNat]

theorem littleEndian_concat (n v : Nat) :
    littleEndian (n + 1) v = littleEndian n v ++ [UInt8.ofNat (v / Nat.pow 256 n % 256)] := by
  induction n generalizing v with
  | zero =>
    have hone : v / Nat.pow 256 0 = v := Nat.div_one v
    rw [hone]
    rfl
  | succ n ih =>
    have hpow : Nat.pow 256 (n + 1) = 256 * Nat.pow 256 n := Nat.mul_comm _ _
    rw [littleEndian, ih, littleEndian, List.cons_append, Nat.div_div_eq_div_mul, hpow]

/-- The first byte of a number holds its highest part. -/
theorem bigEndian_succ (n v : Nat) :
    bigEndian (n + 1) v = UInt8.ofNat (v / Nat.pow 256 n % 256) :: bigEndian n v := by
  rw [bigEndian, littleEndian_concat, List.reverse_concat, bigEndian]

theorem ofBigEndian_eq (bytes : List UInt8) : ofBigEndian bytes = ofLittleEndian bytes.reverse := by
  rw [ofBigEndian, List.foldl_eq_foldr_reverse]
  induction bytes.reverse with
  | nil => rfl
  | cons b rest ih => rw [List.foldr_cons, ih, ofLittleEndian, Nat.mul_comm, Nat.add_comm]

theorem ofBigEndian_bigEndian {n v : Nat} (h : v < Nat.pow 256 n) :
    ofBigEndian (bigEndian n v) = v := by
  rw [ofBigEndian_eq, bigEndian, List.reverse_reverse, ofLittleEndian_littleEndian n v h]

end Saboteur
