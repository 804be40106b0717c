import Saboteur.Bytes.Base64
import Saboteur.Proofs.Bytes.Reading
import Saboteur.Proofs.Text.Ascii

/-!
# One text for each byte string

Base64 reads a byte string from its own text and from no other. Bytes are values of six bits first,
and symbols stand for values one to one, so what is left is the end of the text: the padding fills
the last group, and the bits of the last value that no byte uses are zero.
-/

namespace Saboteur.Base64

/-! ## Symbols -/

theorem value?_eq_some_iff {b : UInt8} {v : Nat} : value? b = some v ↔ v < 64 ∧ b = symbol v := by
  have hall : ∀ n ∈ List.range 256,
      (value? (UInt8.ofNat n)).all (fun w => w < 64 && symbol w == UInt8.ofNat n) = true := by
    decide +kernel
  constructor
  · intro h
    have hb := hall b.toNat (List.mem_range.2 b.toNat_lt)
    rw [UInt8.ofNat_toNat, h, Option.all_some, Bool.and_eq_true, decide_eq_true_eq,
      beq_iff_eq] at hb
    exact ⟨hb.1, hb.2.symm⟩
  · rintro ⟨hv, rfl⟩
    exact value?_symbol hv

theorem symbol_ne_pad {v : Nat} (h : v < 64) : symbol v ≠ pad := by
  have hall : ∀ w ∈ List.range 64, symbol w ≠ pad := by decide
  exact hall v (List.mem_range.2 h)

theorem readSymbols_eq_ok_iff {position : Nat} {body : List UInt8} {values : List Nat} :
    readSymbols position body = .ok values ↔
      body = values.map symbol ∧ ∀ v ∈ values, v < 64 := by
  induction body generalizing position values with
  | nil =>
    constructor
    · intro h
      cases h
      exact ⟨rfl, by simp⟩
    · rintro ⟨h, -⟩
      rw [List.map_eq_nil_iff.1 h.symm]
      rfl
  | cons b rest ih =>
    unfold readSymbols
    constructor
    · intro h
      split at h
      case h_1 => cases h
      case h_2 v hv =>
        obtain ⟨hlt, rfl⟩ := value?_eq_some_iff.1 hv
        obtain ⟨vs, hvs, rfl⟩ := map_eq_ok_iff.1 h
        obtain ⟨rfl, hall⟩ := ih.1 hvs
        exact ⟨rfl, List.forall_mem_cons.2 ⟨hlt, hall⟩⟩
    · rintro ⟨h, hall⟩
      cases values with
      | nil => cases h
      | cons v vs =>
        obtain ⟨rfl, hrest⟩ := List.cons.inj h
        obtain ⟨hlt, hvs⟩ := List.forall_mem_cons.1 hall
        simp only [value?_symbol hlt, ih.2 ⟨hrest, hvs⟩]
        rfl

/-! ## Values -/

/-- The values of six bits that bytes consist of. The last one is filled up with zero bits. -/
def sextets : List UInt8 → List Nat
  | [] => []
  | [a] =>
    let n := a.toNat * 16
    [n / 64, n % 64]
  | [a, b] =>
    let n := (a.toNat * 256 + b.toNat) * 4
    [n / 4096, n / 64 % 64, n % 64]
  | a :: b :: c :: rest =>
    let n := (a.toNat * 256 + b.toNat) * 256 + c.toNat
    n / 262144 :: n / 4096 % 64 :: n / 64 % 64 :: n % 64 :: sextets rest

/-- What fills the last group behind `count` symbols. -/
def padding (count : Nat) : List UInt8 := List.replicate ((4 - count % 4) % 4) pad

theorem length_sextets (bytes : List UInt8) :
    (sextets bytes).length = (bytes.length * 4 + 2) / 3 := by
  fun_induction sextets bytes with
  | case1 => simp
  | case2 => simp
  | case3 => simp
  | case4 a b c rest n ih =>
    simp only [List.length_cons, ih]
    omega

theorem sextets_lt (bytes : List UInt8) : ∀ v ∈ sextets bytes, v < 64 := by
  fun_induction sextets bytes with
  | case1 => simp
  | case2 a n =>
    have ha := a.toNat_lt
    simp only [List.mem_cons, List.not_mem_nil, or_false, forall_eq_or_imp, forall_eq]
    omega
  | case3 a b n =>
    have ha := a.toNat_lt
    have hb := b.toNat_lt
    simp only [List.mem_cons, List.not_mem_nil, or_false, forall_eq_or_imp, forall_eq]
    omega
  | case4 a b c rest n ih =>
    have ha := a.toNat_lt
    have hb := b.toNat_lt
    have hc := c.toNat_lt
    simp only [List.mem_cons, forall_eq_or_imp]
    exact ⟨by omega, by omega, by omega, by omega, ih⟩

theorem encodeBytes_eq (bytes : List UInt8) :
    encodeBytes bytes = (sextets bytes).map symbol ++ padding (sextets bytes).length := by
  fun_induction sextets bytes with
  | case1 => rfl
  | case2 => rfl
  | case3 => rfl
  | case4 a b c rest n ih =>
    have hgroup : padding ((sextets rest).length + 4) = padding (sextets rest).length := by
      rw [padding, padding, Nat.add_mod_right]
    simp only [encodeBytes, List.map_cons, List.cons_append, List.length_cons, ih]
    rw [← hgroup]

/-! ## From values to bytes and back -/

theorem decodeValues_sextets (bytes : List UInt8) : decodeValues (sextets bytes) = bytes := by
  fun_induction sextets bytes with
  | case1 => rfl
  | case2 a n =>
    have ha := a.toNat_lt
    have hvalue : (n / 64 * 64 + n % 64) / 16 = a.toNat := by omega
    rw [decodeValues, hvalue, UInt8.ofNat_toNat]
  | case3 a b n =>
    have ha := a.toNat_lt
    have hb := b.toNat_lt
    have hhigh : ((n / 4096 * 64 + n / 64 % 64) * 64 + n % 64) / 1024 = a.toNat := by omega
    have hlow : ((n / 4096 * 64 + n / 64 % 64) * 64 + n % 64) / 4 % 256 = b.toNat := by omega
    rw [decodeValues, hhigh, hlow, UInt8.ofNat_toNat, UInt8.ofNat_toNat]
  | case4 a b c rest n ih =>
    have ha := a.toNat_lt
    have hb := b.toNat_lt
    have hc := c.toNat_lt
    have hwhole : ((n / 262144 * 64 + n / 4096 % 64) * 64 + n / 64 % 64) * 64 + n % 64 = n := by
      omega
    have hfirst : n / 65536 = a.toNat := by omega
    have hsecond : n / 256 % 256 = b.toNat := by omega
    have hthird : n % 256 = c.toNat := by omega
    rw [decodeValues, hwhole, hfirst, hsecond, hthird, ih, UInt8.ofNat_toNat, UInt8.ofNat_toNat,
      UInt8.ofNat_toNat]

/-- A group of four leaves the spare bits of the end alone. -/
theorem spareBitsClear_cons {a b c d : Nat} {rest : List Nat} :
    spareBitsClear (a :: b :: c :: d :: rest) = spareBitsClear rest := by
  have hspare : spareBits (rest.length + 4) = spareBits rest.length := by
    rw [spareBits, spareBits, Nat.add_mod_right]
  unfold spareBitsClear
  simp only [List.length_cons, hspare]
  cases rest with
  | nil => simp [spareBits, Nat.mod_one]
  | cons e rest => simp only [List.getLast?_cons_cons]

theorem spareBitsClear_sextets (bytes : List UInt8) : spareBitsClear (sextets bytes) = true := by
  fun_induction sextets bytes with
  | case1 => rfl
  | case2 a n =>
    have hzero : n % 64 % 16 = 0 := by omega
    simp [spareBitsClear, spareBits, hzero]
  | case3 a b n =>
    have hzero : n % 64 % 4 = 0 := by omega
    simp [spareBitsClear, spareBits, hzero]
  | case4 a b c rest n ih => rw [spareBitsClear_cons, ih]

/-- Values that fill whole bytes, up to spare bits that are zero, are those of their bytes. -/
theorem sextets_decodeValues {values : List Nat} (hlt : ∀ v ∈ values, v < 64)
    (hlength : values.length % 4 ≠ 1) (hspare : spareBitsClear values = true) :
    sextets (decodeValues values) = values := by
  fun_induction decodeValues values with
  | case1 a b c d rest n ih =>
    simp only [List.mem_cons, forall_eq_or_imp] at hlt
    obtain ⟨ha, hb, hc, hd, hrest⟩ := hlt
    rw [spareBitsClear_cons] at hspare
    have hih := ih hrest (by simp only [List.length_cons] at hlength; omega) hspare
    have hn : (n / 65536 * 256 + n / 256 % 256) * 256 + n % 256 = n := by omega
    have hhigh : n / 65536 < 256 := by omega
    have hmiddle : n / 256 % 256 < 256 := by omega
    have hlow : n % 256 < 256 := by omega
    simp only [sextets, UInt8.toNat_ofNat_of_lt' hhigh, UInt8.toNat_ofNat_of_lt' hmiddle,
      UInt8.toNat_ofNat_of_lt' hlow, hn, hih, List.cons.injEq, and_true]
    exact ⟨by omega, by omega, by omega, by omega⟩
  | case2 a b c n =>
    simp only [List.mem_cons, List.not_mem_nil, or_false, forall_eq_or_imp, forall_eq] at hlt
    obtain ⟨ha, hb, hc⟩ := hlt
    have hzero : c % 4 = 0 := by simpa [spareBitsClear, spareBits] using hspare
    have hhigh : n / 1024 < 256 := by omega
    have hlow : n / 4 % 256 < 256 := by omega
    simp only [sextets, UInt8.toNat_ofNat_of_lt' hhigh, UInt8.toNat_ofNat_of_lt' hlow,
      List.cons.injEq, and_true]
    exact ⟨by omega, by omega, by omega⟩
  | case3 a b =>
    simp only [List.mem_cons, List.not_mem_nil, or_false, forall_eq_or_imp, forall_eq] at hlt
    obtain ⟨ha, hb⟩ := hlt
    have hzero : b % 16 = 0 := by simpa [spareBitsClear, spareBits] using hspare
    have hhigh : (a * 64 + b) / 16 < 256 := by omega
    simp only [sextets, UInt8.toNat_ofNat_of_lt' hhigh, List.cons.injEq, and_true]
    exact ⟨by omega, by omega⟩
  | case4 values hfour hthree htwo =>
    -- one value alone is the length that is excluded
    match values with
    | [] => rfl
    | [a] => exact absurd rfl hlength
    | [a, b] => exact absurd rfl (htwo a b)
    | [a, b, c] => exact absurd rfl (hthree a b c)
    | a :: b :: c :: d :: rest => exact absurd rfl (hfour a b c d rest)

/-! ## The end of the text -/

/-- Padding that is accepted fills the last group exactly. -/
theorem eq_padding {count : Nat} {rest : List UInt8} (h : padsLastGroup count rest = true)
    (hlength : (count + rest.length) % 4 = 0) : rest = padding count ∧ count % 4 ≠ 1 := by
  unfold padsLastGroup at h
  rcases Bool.or_eq_true_iff.1 h with h | h
  · rw [List.isEmpty_iff.1 h] at hlength ⊢
    rw [List.length_nil, Nat.add_zero] at hlength
    refine ⟨?_, by omega⟩
    rw [padding, hlength]
    rfl
  · simp only [Bool.and_eq_true, decide_eq_true_eq] at h
    obtain ⟨⟨hall, hlow⟩, hhigh⟩ := h
    refine ⟨List.eq_replicate_iff.2 ⟨by omega, fun b hb => ?_⟩, by omega⟩
    exact beq_iff_eq.1 (List.all_eq_true.1 hall b hb)

theorem padsLastGroup_padding {count : Nat} (h : count % 4 ≠ 1) :
    padsLastGroup count (padding count) = true := by
  unfold padsLastGroup padding
  by_cases hzero : count % 4 = 0
  · rw [hzero]
    rfl
  · simp only [List.all_replicate, List.length_replicate, Bool.or_eq_true, Bool.and_eq_true,
      decide_eq_true_eq]
    right
    refine ⟨⟨?_, by omega⟩, by omega⟩
    split <;> rfl

/-- Symbols are told from padding. -/
theorem takeWhile_dropWhile_symbols {values : List Nat} (h : ∀ v ∈ values, v < 64)
    (count : Nat) :
    (values.map symbol ++ padding count).takeWhile (· ≠ pad) = values.map symbol ∧
      (values.map symbol ++ padding count).dropWhile (· ≠ pad) = padding count := by
  have hsymbols : ∀ b ∈ values.map symbol, decide (b ≠ pad) = true := by
    intro b hb
    obtain ⟨v, hv, rfl⟩ := List.mem_map.1 hb
    exact decide_eq_true (symbol_ne_pad (h v hv))
  rw [List.takeWhile_append_of_pos hsymbols, List.dropWhile_append_of_pos hsymbols]
  unfold padding
  cases (4 - count % 4) % 4 with
  | zero => exact ⟨List.append_nil _, rfl⟩
  | succ n => exact ⟨List.append_nil _, rfl⟩

/-- **A byte string is read from its own symbols and padding, and from nothing else.** -/
theorem decodeBytes_eq_ok_iff {text bytes : List UInt8} :
    decodeBytes text = .ok bytes ↔ text = encodeBytes bytes := by
  constructor
  · intro h
    unfold decodeBytes at h
    split at h
    case isTrue =>
      split at h
      case h_1 => split at h <;> cases h
      case h_2 => cases h
    case isFalse =>
      dsimp only at h
      split at h
      case h_1 => cases h
      case h_2 values hvalues =>
        obtain ⟨hbody, hlt⟩ := readSymbols_eq_ok_iff.1 hvalues
        have hsplit : text.takeWhile (· ≠ pad) ++ text.dropWhile (· ≠ pad) = text :=
          List.takeWhile_append_dropWhile
        rw [hbody, List.length_map] at h
        rw [hbody] at hsplit
        split at h
        case isTrue => cases h
        case isFalse hpads =>
          split at h
          case isTrue => cases h
          case isFalse hwhole =>
            split at h
            case isTrue => cases h
            case isFalse hspare =>
              cases h
              rw [Bool.not_eq_true, Bool.not_eq_false'] at hpads hspare
              have hlength := congrArg List.length hsplit
              rw [List.length_append, List.length_map] at hlength
              obtain ⟨hrest, hcount⟩ := eq_padding hpads (by omega)
              rw [encodeBytes_eq, sextets_decodeValues hlt hcount hspare, ← hrest, hsplit]
  · rintro rfl
    have hlt := sextets_lt bytes
    have hcount : (sextets bytes).length % 4 ≠ 1 := by
      rw [length_sextets]
      omega
    have hlength : (encodeBytes bytes).length % 4 = 0 := by
      rw [encodeBytes_eq, List.length_append, List.length_map, padding, List.length_replicate]
      omega
    obtain ⟨htake, hdrop⟩ := takeWhile_dropWhile_symbols hlt (sextets bytes).length
    rw [← encodeBytes_eq] at htake hdrop
    unfold decodeBytes
    rw [if_neg (by omega)]
    simp only [htake, hdrop, readSymbols_eq_ok_iff.2 ⟨rfl, hlt⟩, List.length_map,
      padsLastGroup_padding hcount, hlength, spareBitsClear_sextets, decodeValues_sextets]
    rfl

/-! ## Texts -/

/-- Symbols and padding are visible characters of one byte. -/
theorem mem_encodeBytes {bytes : List UInt8} {b : UInt8} (h : b ∈ encodeBytes bytes) :
    b.toNat < 128 ∧ Text.isBlank (Char.ofNat b.toNat) = false := by
  have hall : ∀ v ∈ List.range 64, (symbol v).toNat < 128 ∧
      Text.isBlank (Char.ofNat (symbol v).toNat) = false := by decide
  rw [encodeBytes_eq] at h
  rcases List.mem_append.1 h with h | h
  · obtain ⟨v, hv, rfl⟩ := List.mem_map.1 h
    exact hall v (List.mem_range.2 (sextets_lt bytes v hv))
  · rw [List.eq_of_mem_replicate h]
    decide

theorem bytes_encode (bytes : List UInt8) : (encode bytes).toUTF8.toList = encodeBytes bytes :=
  Text.bytes_ofList_map fun _ hb => (mem_encodeBytes hb).1

/-- **A byte string is read from its own text and from no other.** -/
theorem decode_eq_ok_iff {s : String} {bytes : List UInt8} :
    decode s = .ok bytes ↔ s = encode bytes := by
  rw [decode, decodeBytes_eq_ok_iff, ← bytes_encode]
  exact ⟨Text.eq_of_bytes_eq, fun h => by rw [h]⟩

theorem trim_encode (bytes : List UInt8) : Text.trim (encode bytes) = encode bytes := by
  refine Text.trim_eq_self fun c hc => ?_
  rw [encode, String.toList_ofList] at hc
  obtain ⟨b, hb, rfl⟩ := List.mem_map.1 hc
  exact (mem_encodeBytes hb).2

/-- Only the empty byte string has the empty text. -/
theorem encode_ne_empty {bytes : List UInt8} (h : bytes ≠ []) : encode bytes ≠ "" := by
  intro hempty
  have hread : decode "" = .ok bytes := decode_eq_ok_iff.2 hempty.symm
  have hnil : decode "" = .ok [] := decode_eq_ok_iff.2 rfl
  exact h (Except.ok.inj (hread.symm.trans hnil))

end Saboteur.Base64
