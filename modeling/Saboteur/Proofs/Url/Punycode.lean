import Mathlib.Data.List.TakeWhile
import Mathlib.Tactic.Ring
import Saboteur.Url.Punycode

/-!
# Punycode is read as it was written

While a text is written, the reader of what is written so far is always at the place that the writer
counts its distance from: the characters that it has placed are those below the code point in
search, and of that code point those that the writer has gone past. So each distance leads the
reader to the place of the next character, and in the end it has the text.
-/

namespace Saboteur.Punycode

/-! ## Distances -/

theorem threshold_le (position bias : Nat) : threshold position bias ≤ 26 := by
  unfold threshold
  omega

/-- A character that digits are written with. -/
def IsSymbol (c : Char) : Prop := ∃ d < 36, c = symbol d

theorem isSymbol_of_mem_digitsOf {position bias q : Nat} {c : Char}
    (h : c ∈ digitsOf position bias q) : IsSymbol c := by
  induction q using Nat.strongRecOn generalizing position with
  | ind q ih =>
    rw [digitsOf] at h
    have hle := threshold_le position bias
    have hpos := one_le_threshold position bias
    split at h
    · exact ⟨q, by omega, List.mem_singleton.1 h⟩
    · have hmod := Nat.mod_lt (q - threshold position bias)
        (show 0 < 36 - threshold position bias by omega)
      rcases List.mem_cons.1 h with rfl | hrest
      · exact ⟨_, by omega, rfl⟩
      · refine ih _ ?_ hrest
        exact Nat.lt_of_le_of_lt (Nat.div_le_self _ _) (by omega)

/-- **A distance is read as it was written**, whatever follows it. -/
theorem foldlM_take_digitsOf {r : Reader} {q : Nat} (h : r.delta + q * r.weight ≤ limit)
    (rest : List Char) :
    (digitsOf r.position r.bias q ++ rest).foldlM Reader.take r =
      (r.place (r.delta + q * r.weight)).bind fun r => rest.foldlM Reader.take r := by
  induction q using Nat.strongRecOn generalizing r with
  | ind q ih =>
    rw [digitsOf]
    have hle := threshold_le r.position r.bias
    have hpos := one_le_threshold r.position r.bias
    split
    · rename_i hlast
      simp only [List.cons_append, List.nil_append, List.foldlM_cons, Reader.take,
        value?_symbol (show q < 36 by omega), Option.bind_eq_bind, Option.bind_some,
        if_neg (Nat.not_lt.2 h), if_neg (Nat.not_le.2 hlast)]
    · rename_i hmore
      generalize ht : threshold r.position r.bias = t at *
      have hmod := Nat.mod_lt (q - t) (show 0 < 36 - t by omega)
      have hsplit := Nat.mod_add_div (q - t) (36 - t)
      have hdiv : (q - t) / (36 - t) < q := Nat.lt_of_le_of_lt (Nat.div_le_self _ _) (by omega)
      -- What the digit leaves is read with a weight that grew by as much as it was divided.
      have hrest : r.delta + (t + (q - t) % (36 - t)) * r.weight +
          (q - t) / (36 - t) * (r.weight * (36 - t)) = r.delta + q * r.weight := by
        have hq : t + (q - t) % (36 - t) + (36 - t) * ((q - t) / (36 - t)) = q := by omega
        calc _ = r.delta + (t + (q - t) % (36 - t) + (36 - t) * ((q - t) / (36 - t))) * r.weight := by
              ring
          _ = _ := by rw [hq]
      have hdigit : ¬ limit < r.delta + (t + (q - t) % (36 - t)) * r.weight := by omega
      simp only [List.cons_append, List.foldlM_cons, Reader.take,
        value?_symbol (show t + (q - t) % (36 - t) < 36 by omega), Option.bind_eq_bind,
        Option.bind_some, if_neg hdigit, ht, if_pos (Nat.le_add_right t _), pure]
      rw [ih _ hdiv (by exact hrest ▸ h), hrest]
      rfl

/-! ## Places -/

theorem insertIdx_length_append {α : Type} (before after : List α) (a : α) :
    (before ++ after).insertIdx before.length a = before ++ a :: after := by
  induction before with
  | nil => rfl
  | cons b rest ih =>
    rw [List.length_cons, List.cons_append, List.insertIdx_succ_cons, ih, List.cons_append]

/-- The distance to a character among those that are placed leads there. -/
theorem place_eq_some {r : Reader} {delta : Nat} {before after : List Char} {c : Char}
    (hout : r.out = before ++ after) (hpoint : r.point ≤ c.toNat)
    (hplace : r.index + delta = (c.toNat - r.point) * (r.out.length + 1) + before.length) :
    r.place delta = some
      { out := before ++ c :: after
        point := c.toNat
        index := before.length + 1
        bias := adapt delta (r.out.length + 1) (r.index = 0)
        delta := 0, weight := 1, position := 36 } := by
  have hlt : before.length < r.out.length + 1 := by
    rw [hout, List.length_append]
    omega
  have hdiv : (r.index + delta) / (r.out.length + 1) = c.toNat - r.point := by
    rw [hplace, Nat.mul_comm, Nat.mul_add_div (by omega), Nat.div_eq_of_lt hlt, Nat.add_zero]
  have hmod : (r.index + delta) % (r.out.length + 1) = before.length := by
    rw [hplace, Nat.mul_comm, Nat.mul_add_mod, Nat.mod_eq_of_lt hlt]
  have hcode : r.point + (r.index + delta) / (r.out.length + 1) = c.toNat := by
    rw [hdiv]
    omega
  have hchar : ∀ n (h : n.isValidChar), n = c.toNat → Char.ofNatAux n h = c := by
    rintro n h rfl
    have hofNat := Char.ofNat_toNat c
    rwa [Char.ofNat, dif_pos h] at hofNat
  unfold Reader.place
  dsimp only
  rw [dif_pos (by rw [hcode]; exact c.valid), hchar _ _ hcode, hmod, hcode, hout,
    insertIdx_length_append]

/-! ## Writer and reader in step -/

/-- The characters of a text that are placed when the code point `n` is searched for and the
characters before `rest` are gone past. -/
def placedSoFar (n : Nat) (gone rest : List Char) : List Char :=
  (gone.filter fun c => c.toNat ≤ n) ++ rest.filter fun c => c.toNat < n

/-- The reader has read what is written, and is at the place that the writer counts from. -/
structure InStep (text gone rest : List Char) (n : Nat) (w : Writer) (r : Reader) : Prop where
  /-- What is written behind the characters of ASCII are digits, and the reader has read them. -/
  read : ∃ digits, w.out = (Writer.start text).out ++ digits ∧ (∀ c ∈ digits, IsSymbol c) ∧
    digits.foldlM Reader.take (Reader.start (basicPart text)) = some r
  out : r.out = placedSoFar n gone rest
  point_le : r.point ≤ n
  place : r.index + w.delta =
    (n - r.point) * (r.out.length + 1) + (gone.filter fun c => c.toNat ≤ n).length
  settled : r.delta = 0 ∧ r.weight = 1 ∧ r.position = 36
  bias : r.bias = w.bias
  placed : w.placed = r.out.length
  first : r.index = 0 ↔ w.placed = w.basic
  basic_le : w.basic ≤ w.placed

variable {text gone rest : List Char} {n : Nat} {w w' : Writer} {r : Reader}

/-- The distance to a character of the code point in search leads the reader to its place. -/
theorem InStep.write {c : Char} (h : InStep text gone (c :: rest) c.toNat w r)
    (hlimit : w.delta ≤ limit) :
    ∃ r', InStep text (gone ++ [c]) rest c.toNat
      { w with
        out := w.out ++ digitsOf 36 w.bias w.delta
        delta := 0
        bias := adapt w.delta (w.placed + 1) (w.placed = w.basic)
        placed := w.placed + 1 } r' := by
  obtain ⟨digits, hwritten, hsymbols, hread⟩ := h.read
  obtain ⟨hdelta, hweight, hposition⟩ := h.settled
  have hout : r.out = (gone.filter fun x => x.toNat ≤ c.toNat) ++
      rest.filter fun x => x.toNat < c.toNat := by
    rw [h.out]
    simp [placedSoFar]
  have hplaced := place_eq_some hout h.point_le h.place
  have hdigits := foldlM_take_digitsOf (r := r) (q := w.delta)
    (by rw [hdelta, hweight]; omega) []
  rw [hdelta, hweight, hposition, h.bias, Nat.mul_one, Nat.zero_add, hplaced, List.append_nil]
    at hdigits
  have hcount : w.placed + 1 = r.out.length + 1 := congrArg (· + 1) h.placed
  have hfirst : decide (w.placed = w.basic) = decide (r.index = 0) := by
    rw [decide_eq_decide]
    exact h.first.symm
  exact ⟨_, {
    read := by
      refine ⟨digits ++ digitsOf 36 w.bias w.delta, ?_, ?_, ?_⟩
      · rw [hwritten, List.append_assoc]
      · exact fun x hx => (List.mem_append.1 hx).elim (hsymbols x) isSymbol_of_mem_digitsOf
      · rw [List.foldlM_append, hread]
        exact hdigits
    out := by simp [placedSoFar, List.filter_append]
    point_le := Nat.le_refl _
    place := by simp [List.filter_append]
    settled := ⟨rfl, rfl, rfl⟩
    bias := by
      rw [hcount, hfirst]
    placed := by
      simp only [List.length_append, List.length_cons, h.placed, hout]
      omega
    first := by
      have := h.basic_le
      simp only
      omega
    basic_le := Nat.le_succ_of_le h.basic_le }⟩

/-- **Past one character the reader can follow the writer.** -/
theorem InStep.pass {c : Char} (h : InStep text gone (c :: rest) n w r)
    (hpass : w.pass n c = some w') : ∃ r', InStep text (gone ++ [c]) rest n w' r' := by
  unfold Writer.pass at hpass
  split at hpass
  · -- A character below the code point was placed before; one place more is gone past.
    rename_i hlt
    cases hpass
    refine ⟨r, h.read, ?_, h.point_le, ?_, h.settled, h.bias, h.placed, h.first, h.basic_le⟩
    · rw [h.out]
      simp [placedSoFar, hlt, Nat.le_of_lt hlt]
    · have hplace := h.place
      simp only [List.filter_append, List.length_append, List.filter_cons, List.filter_nil,
        Nat.le_of_lt hlt, decide_true, if_true, List.length_singleton]
      omega
  · split at hpass
    · rename_i hlt heq
      split at hpass
      · cases hpass
      rename_i hlimit
      cases hpass
      subst heq
      exact h.write (Nat.le_of_not_lt hlimit)
    · -- A character above the code point is placed later.
      rename_i hlt hne
      have hle : ¬ c.toNat ≤ n := by omega
      cases hpass
      refine ⟨r, h.read, ?_, h.point_le, ?_, h.settled, h.bias, h.placed, h.first, h.basic_le⟩
      · rw [h.out]
        simp [placedSoFar, hlt, hle]
      · have hplace := h.place
        simpa [List.filter_append, hle] using hplace

/-- Past many characters the reader can follow the writer. -/
theorem InStep.foldlM_pass (h : InStep text gone rest n w r)
    (hpass : rest.foldlM (Writer.pass n) w = some w') :
    ∃ r', InStep text (gone ++ rest) [] n w' r' := by
  induction rest generalizing gone w r with
  | nil =>
    cases hpass
    exact ⟨r, by rwa [List.append_nil]⟩
  | cons c rest ih =>
    rw [List.foldlM_cons] at hpass
    obtain ⟨w₁, hfirst, hrest⟩ := Option.bind_eq_some_iff.1 hpass
    obtain ⟨r₁, h₁⟩ := h.pass hfirst
    obtain ⟨r', h'⟩ := ih h₁ hrest
    rw [List.append_assoc] at h'
    exact ⟨r', h'⟩

/-- Nothing changes for the reader when the writer goes on to a later code point, if the text has
none in between. -/
theorem InStep.later {m : Nat} (h : InStep text [] text m w r) (hle : m ≤ n)
    (hnone : ∀ c ∈ text, c.toNat < n → c.toNat < m) :
    InStep text [] text n { w with delta := w.delta + (n - m) * (w.placed + 1) } r := by
  refine { h with out := ?_, point_le := h.point_le.trans hle, place := ?_ }
  · rw [h.out, placedSoFar, placedSoFar]
    refine congrArg (_ ++ ·) (List.filter_congr fun c hc => ?_)
    rw [decide_eq_decide]
    exact ⟨fun hlt => Nat.lt_of_lt_of_le hlt hle, hnone c hc⟩
  · have hplace := h.place
    have hpoint := h.point_le
    have hsum : n - r.point = (m - r.point) + (n - m) := by omega
    simp only [List.filter_nil, List.length_nil, Nat.add_zero, h.placed] at hplace ⊢
    rw [← Nat.add_assoc, hplace, hsum, Nat.add_mul]

/-- All characters of a code point. -/
theorem InStep.codePoint {m n' : Nat} (h : InStep text [] text m w r) (hle : m ≤ n)
    (hnone : ∀ c ∈ text, c.toNat < n → c.toNat < m)
    (hplace : Writer.place text (w, m) n = some (w', n')) :
    n' = n + 1 ∧ ∃ r', InStep text [] text (n + 1) w' r' := by
  obtain ⟨w₁, hpass, hresult⟩ := Option.bind_eq_some_iff.1 hplace
  cases hresult
  obtain ⟨r₁, h₁⟩ := (h.later hle hnone).foldlM_pass hpass
  refine ⟨rfl, r₁, { h₁ with out := ?_, point_le := Nat.le_succ_of_le h₁.point_le, place := ?_ }⟩
  · rw [h₁.out]
    simp only [placedSoFar, List.filter_nil, List.append_nil, List.nil_append,
      Nat.lt_add_one_iff]
  · have hdone := h₁.place
    have hall : r₁.out.length = (text.filter fun c => c.toNat ≤ n).length := by
      rw [h₁.out]
      simp [placedSoFar]
    simp only [List.nil_append, ← hall, List.filter_nil, List.length_nil, Nat.add_zero] at hdone ⊢
    rw [← Nat.add_assoc, hdone, Nat.add_assoc, Nat.sub_add_comm h₁.point_le, Nat.add_mul, Nat.one_mul]

/-! ## All code points -/

/-- Without repetitions what is in order is strictly so. -/
theorem pairwise_lt_eraseDups {ns : List Nat} (h : ns.Pairwise (· ≤ ·)) :
    ns.eraseDups.Pairwise (· < ·) := by
  induction hlength : ns.length using Nat.strongRecOn generalizing ns with
  | ind k ih =>
    cases ns with
    | nil => exact List.Pairwise.nil
    | cons n rest =>
      rw [List.eraseDups_cons]
      obtain ⟨hfirst, hrest⟩ := List.pairwise_cons.1 h
      refine List.pairwise_cons.2 ⟨fun m hm => ?_, ih _ ?_ (hrest.filter _) rfl⟩
      · rw [List.mem_eraseDups, List.mem_filter, Bool.not_eq_true', beq_eq_false_iff_ne] at hm
        exact Nat.lt_of_le_of_ne (hfirst m hm.1) hm.2.symm
      · rw [← hlength]
        exact Nat.lt_succ_of_le (List.length_filter_le _ _)

theorem mem_points_iff {m : Nat} : m ∈ points text ↔ 0x80 ≤ m ∧ ∃ c ∈ text, c.toNat = m := by
  rw [points, List.mem_eraseDups, List.mem_mergeSort, List.mem_filter, List.mem_map,
    decide_eq_true_eq, and_comm]

theorem pairwise_points (text : List Char) : (points text).Pairwise (· < ·) := by
  refine pairwise_lt_eraseDups ((List.pairwise_mergeSort ?_ ?_ _).imp of_decide_eq_true)
  · simp only [decide_eq_true_eq]
    exact fun _ _ _ => Nat.le_trans
  · simp only [Bool.or_eq_true, decide_eq_true_eq]
    exact Nat.le_total

/-- **Over all code points the reader can follow the writer, and has the text then.** -/
theorem InStep.foldlM_place {ns : List Nat} {m n' : Nat} (h : InStep text [] text m w r)
    (hsorted : ns.Pairwise (· < ·)) (hle : ∀ n ∈ ns, m ≤ n)
    (hmem : ∀ c ∈ text, m ≤ c.toNat → c.toNat ∈ ns)
    (hplace : ns.foldlM (Writer.place text) (w, m) = some (w', n')) :
    ∃ r' m', InStep text [] text m' w' r' ∧ r'.out = text := by
  induction ns generalizing m w r with
  | nil =>
    cases hplace
    have hbelow : ∀ c ∈ text, decide (c.toNat < n') = true := fun c hc =>
      decide_eq_true (Nat.lt_of_not_le fun hge => absurd (hmem c hc hge) List.not_mem_nil)
    refine ⟨r, n', h, ?_⟩
    rw [h.out, placedSoFar, List.filter_nil, List.nil_append, List.filter_eq_self.2 hbelow]
  | cons n rest ih =>
    rw [List.foldlM_cons] at hplace
    obtain ⟨⟨w₁, m₁⟩, hfirst, hrest⟩ := Option.bind_eq_some_iff.1 hplace
    obtain ⟨hlater, hsorted⟩ := List.pairwise_cons.1 hsorted
    have hnone : ∀ c ∈ text, c.toNat < n → c.toNat < m := fun c hc hlt => by
      refine Nat.lt_of_not_le fun hge => ?_
      rcases List.mem_cons.1 (hmem c hc hge) with heq | hin
      · exact absurd hlt (heq ▸ Nat.lt_irrefl _)
      · exact absurd (hlater _ hin) (Nat.lt_asymm hlt)
    obtain ⟨rfl, r₁, h₁⟩ := h.codePoint (hle n List.mem_cons_self) hnone hfirst
    refine ih h₁ hsorted (fun k hk => hlater k hk) (fun c hc hge => ?_) hrest
    rcases List.mem_cons.1 (hmem c hc (by have := hle n List.mem_cons_self; omega)) with heq | hin
    · omega
    · exact hin

theorem inStep_start (text : List Char) :
    InStep text [] text 0x80 (Writer.start text) (Reader.start (basicPart text)) where
  read := ⟨[], (List.append_nil _).symm, List.forall_mem_nil _, rfl⟩
  out := rfl
  point_le := Nat.le_refl _
  place := by simp [Reader.start, Writer.start]
  settled := ⟨rfl, rfl, rfl⟩
  bias := rfl
  placed := rfl
  first := ⟨fun _ => rfl, fun _ => rfl⟩
  basic_le := Nat.le_refl _

/-! ## Both directions -/

theorem IsSymbol.ne_hyphen {c : Char} (h : IsSymbol c) : c ≠ '-' := by
  have hall : ∀ e ∈ List.range 36, symbol e ≠ '-' := by decide
  obtain ⟨d, hd, rfl⟩ := h
  exact hall d (List.mem_range.2 hd)

/-- The hyphen before the digits is the last one, so the digits are found. -/
theorem decode?_eq_of_digits {digits : List Char} (hsymbols : ∀ c ∈ digits, IsSymbol c) :
    decode? ((Writer.start text).out ++ digits) =
      (digits.foldlM Reader.take (Reader.start (basicPart text))).bind fun r =>
        if r.position = 36 then some r.out else none := by
  have hdigits : ∀ c ∈ digits.reverse, decide (c ≠ '-') = true := fun c hc =>
    decide_eq_true (hsymbols c (List.mem_reverse.1 hc)).ne_hyphen
  unfold decode?
  by_cases hbasic : basicPart text = []
  · have hout : (Writer.start text).out = [] := by simp [Writer.start, hbasic]
    rw [hout, List.nil_append, List.takeWhile_eq_self_iff.2 hdigits, List.reverse_reverse, hbasic]
    simp only [Nat.sub_self, Nat.zero_sub, List.take_zero]
    rfl
  · have hout : (Writer.start text).out = basicPart text ++ ['-'] := by
      simp [Writer.start, hbasic]
    have hlast : (((Writer.start text).out ++ digits).reverse.takeWhile (· ≠ '-')) =
        digits.reverse := by
      rw [hout, List.reverse_append, List.reverse_append, List.takeWhile_append_of_pos hdigits]
      simp
    have htake : ((Writer.start text).out ++ digits).take
        (((Writer.start text).out ++ digits).length - digits.length - 1) = basicPart text := by
      rw [hout, List.append_assoc]
      refine List.take_left' ?_
      simp only [List.length_append, List.length_singleton]
      omega
    simp only [hlast, List.reverse_reverse, htake]
    rfl

/-- Where the writer gets to, the reader has the text. -/
theorem exists_inStep_of_encode? {s : List Char} (h : encode? text = some s) :
    ∃ n w r, InStep text [] text n w r ∧ w.out = s ∧ r.out = text := by
  obtain ⟨⟨w, n⟩, hplace, hout⟩ := Option.bind_eq_some_iff.1 h
  cases hout
  obtain ⟨r, m, hstep, htext⟩ := (inStep_start text).foldlM_place (pairwise_points text)
    (fun n hn => (mem_points_iff.1 hn).1)
    (fun c hc hge => mem_points_iff.2 ⟨hge, c, hc, rfl⟩) hplace
  exact ⟨m, w, r, hstep, rfl, htext⟩

/-- **What is written is read as the text.** -/
theorem decode?_of_encode? {s : List Char} (h : encode? text = some s) : decode? s = some text := by
  obtain ⟨n, w, r, hstep, rfl, htext⟩ := exists_inStep_of_encode? h
  obtain ⟨digits, hwritten, hsymbols, hread⟩ := hstep.read
  rw [hwritten, decode?_eq_of_digits hsymbols, hread, Option.bind_some,
    if_pos hstep.settled.2.2, htext]

/-- A text is written with its characters of ASCII, with hyphens and with digits. -/
theorem mem_of_mem_encode? {s : List Char} (h : encode? text = some s) {c : Char} (hc : c ∈ s) :
    c ∈ basicPart text ∨ c = '-' ∨ IsSymbol c := by
  obtain ⟨n, w, r, hstep, rfl, -⟩ := exists_inStep_of_encode? h
  obtain ⟨digits, hwritten, hsymbols, -⟩ := hstep.read
  rw [hwritten, List.mem_append] at hc
  rcases hc with hc | hc
  · unfold Writer.start at hc
    simp only at hc
    split at hc
    · exact absurd hc List.not_mem_nil
    · rw [List.mem_append, List.mem_singleton] at hc
      exact hc.imp_right .inl
  · exact .inr (.inr (hsymbols c hc))

end Saboteur.Punycode
