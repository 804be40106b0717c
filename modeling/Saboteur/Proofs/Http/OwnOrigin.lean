import Mathlib.Data.List.TakeWhile
import Saboteur.Http.Origin
import Saboteur.Proofs.Net.Display
import Saboteur.Proofs.Text.Ascii

/-!
# The origin of the service

What follows the scheme in the origin of the service is an authority, for every address and port: in
what is written for an address of the old version there is no colon besides the one before the port,
and one of the new stands in brackets.
-/

namespace Saboteur.Http

/-! ## Authorities -/

namespace Authority

variable {colons : Nat} {opened closed percent atSign : Bool}

/-- Letters, digits and points are passed over. -/
theorem take_of_glyph {c : Char} (hc : c.isAlphanum = true ∨ c = '.') :
    Scan.take ⟨colons, opened, closed, percent, atSign⟩ c =
      .ok ⟨colons, opened, closed, percent, false⟩ := by
  have hplain : isPlain c = true := by
    rcases hc with hc | rfl
    · rw [isPlain, hc, Bool.true_or]
    · decide
  have hne : ∀ d : Char, d.isAlphanum = false ∧ d ≠ '.' → c ≠ d := by
    rintro d ⟨hd, hpoint⟩ rfl
    exact hc.elim (fun h => Bool.noConfusion (hd.symm.trans h)) hpoint
  rw [Scan.take, if_neg (hne ':' (by decide)), if_neg (hne '[' (by decide)),
    if_neg (hne ']' (by decide)), if_neg (hne '@' (by decide)), if_neg (hne '%' (by decide)),
    if_pos hplain, decide_eq_false (hne '@' (by decide))]

theorem take_colon (h : colons < 8) :
    Scan.take ⟨colons, opened, closed, percent, atSign⟩ ':' =
      .ok ⟨colons + 1, opened, closed, percent, false⟩ := by
  rw [Scan.take, if_pos rfl, if_neg (Nat.not_le.2 h)]
  rfl

/-- Of the letters, digits, points and colons of an address only the colons are counted. -/
theorem foldlM_take_of_glyph {cs : List Char}
    (h : ∀ c ∈ cs, c.isAlphanum = true ∨ c = '.' ∨ c = ':') (hcolons : colons + cs.count ':' ≤ 8) :
    cs.foldlM Scan.take ⟨colons, opened, closed, percent, false⟩ =
      .ok ⟨colons + cs.count ':', opened, closed, percent, false⟩ := by
  induction cs generalizing colons with
  | nil => rfl
  | cons c cs ih =>
    obtain ⟨hc, hcs⟩ := List.forall_mem_cons.1 h
    rw [List.foldlM_cons]
    by_cases hcolon : c = ':'
    · subst hcolon
      rw [List.count_cons_self] at hcolons ⊢
      rw [take_colon (by omega)]
      exact (ih hcs (by omega)).trans (by rw [Nat.add_assoc, Nat.add_comm 1])
    · rw [List.count_cons_of_ne hcolon] at hcolons ⊢
      rw [take_of_glyph (hc.imp_right fun hc => hc.resolve_right hcolon)]
      exact ih hcs hcolons

/-- What an address is written with is passed over, with its colons counted. -/
theorem foldlM_take_of_written {cs : List Char} {k n : Nat} (h : Written cs k n)
    (hcolons : colons + k ≤ 8) :
    cs.foldlM Scan.take ⟨colons, opened, closed, percent, false⟩ =
      .ok ⟨colons + cs.count ':', opened, closed, percent, false⟩ :=
  foldlM_take_of_glyph h.glyph ((Nat.add_le_add_left h.count_le _).trans hcolons)

theorem isEnd_of_glyph {c : Char} (h : c.isAlphanum = true ∨ c = '.' ∨ c = ':') :
    isEnd c = false := by
  rcases h with h | rfl | rfl
  · rw [Text.isAlphanum_iff] at h
    simp only [isEnd, Bool.or_eq_false_iff, decide_eq_false_iff_not]
    refine ⟨⟨?_, ?_⟩, ?_⟩ <;> rintro rfl <;> revert h <;> decide
  · decide
  · decide

/-- An authority is accepted whose scan ends in balance. -/
theorem verify_eq_ok {text : String} {s : Scan} (hne : text.toList ≠ [])
    (hend : ∀ c ∈ text.toList, isEnd c = false)
    (hscan : text.toList.foldlM Scan.take .start = .ok s)
    (hs : s.opened = s.closed ∧ s.colons ≤ 1 ∧ s.atSign = false ∧ s.percent = false) :
    verify text = .ok () := by
  obtain ⟨hbrackets, hcolons, hat, hpercent⟩ := hs
  have hwhole : (text.toList.takeWhile fun c => !isEnd c) = text.toList := by
    rw [List.takeWhile_eq_self_iff]
    intro c hc
    rw [hend c hc]
    rfl
  have hany : text.toList.any isEnd = false := by
    rw [List.any_eq_false]
    intro c hc
    rw [hend c hc]
    exact Bool.false_ne_true
  have hshape : ¬ (s.opened ≠ s.closed ∨ 1 < s.colons ∨ s.atSign = true ∨ s.percent = true) := by
    simp [hbrackets, hcolons, hat, hpercent]
  unfold verify
  simp only [hne, hwhole, hscan, hany, if_false]
  show (if _ then _ else _) = _
  rw [if_neg hshape]
  rfl

variable {host portText : List Char} {m n : Nat}

/-- A host without colons and a port. -/
theorem verify_of_written {cs : List Char} (h : Written cs 1 n) (hne : cs ≠ []) :
    verify (String.ofList cs) = .ok () := by
  have hscan : cs.foldlM Scan.take .start = .ok ⟨0 + cs.count ':', false, false, false, false⟩ :=
    foldlM_take_of_written h (by decide)
  refine verify_eq_ok (by rwa [String.toList_ofList]) ?_ (by rwa [String.toList_ofList]) ?_
  · rw [String.toList_ofList]
    exact fun c hc => isEnd_of_glyph (h.glyph c hc)
  · exact ⟨rfl, (Nat.zero_add _).le.trans h.count_le, rfl, rfl⟩

/-- A host in brackets and a port. -/
theorem verify_of_brackets (hhost : Written host 8 m) (hport : Written portText 1 n) :
    verify (String.ofList ('[' :: (host ++ ']' :: portText))) = .ok () := by
  have hscan : ('[' :: (host ++ ']' :: portText)).foldlM Scan.take .start =
      .ok ⟨0 + portText.count ':', true, true, false, false⟩ := by
    rw [List.foldlM_cons]
    show (host ++ ']' :: portText).foldlM Scan.take ⟨0, true, false, false, false⟩ = _
    rw [List.foldlM_append, foldlM_take_of_written hhost (by decide)]
    -- the closing bracket makes the colons of the host forgotten
    exact foldlM_take_of_written hport (by decide)
  refine verify_eq_ok ?_ ?_ (by rwa [String.toList_ofList]) ?_
  · rw [String.toList_ofList]
    exact List.cons_ne_nil _ _
  · rw [String.toList_ofList]
    intro c hc
    rcases List.mem_cons.1 hc with rfl | hc
    · rfl
    rcases List.mem_append.1 hc with hc | hc
    · exact isEnd_of_glyph (hhost.glyph c hc)
    rcases List.mem_cons.1 hc with rfl | hc
    · rfl
    · exact isEnd_of_glyph (hport.glyph c hc)
  · exact ⟨rfl, (Nat.zero_add _).le.trans hport.count_le, rfl, rfl⟩

end Authority

/-! ## The address and the port -/

/-- What follows the scheme in the origin of the service. -/
def ownAuthority (address : IpAddress) (port : UInt16) : List Char :=
  (match address with
    | .v4 b => (IpAddress.dotted b.toList).toList
    | .v6 _ => '[' :: (address.display.toList ++ [']'])) ++ ':' :: Nat.toDigits 10 port.toNat

variable (address : IpAddress) (port : UInt16)

theorem ownOrigin_toList :
    (ownOrigin address port.toNat).toList = "http://".toList ++ ownAuthority address port := by
  cases address with
  | v4 b => simp [ownOrigin, ownAuthority, IpAddress.display]
  | v6 b => simp [ownOrigin, ownAuthority]

theorem written_port : Written (':' :: Nat.toDigits 10 port.toNat) 1 6 := by
  have hdigits : Written (Nat.toDigits 10 port.toNat) 0 5 :=
    written_toDigits (by decide) (by decide) (by decide) (port.toNat_lt.trans (by decide))
  exact Written.colon.append hdigits

/-- The own authority passes, in brackets where the host has colons. -/
theorem verify_ownAuthority :
    Authority.verify (String.ofList (ownAuthority address port)) = .ok () := by
  have hport := written_port port
  cases address with
  | v4 b =>
    exact Authority.verify_of_written ((IpAddress.written_dotted b.toList).append hport)
      (List.append_ne_nil_of_right_ne_nil _ (List.cons_ne_nil _ _))
  | v6 b =>
    rw [ownAuthority, List.cons_append, List.append_assoc, List.singleton_append]
    exact Authority.verify_of_brackets (IpAddress.written_display_v6 b) hport

theorem utf8ByteSize_le (cs : List Char) : (String.ofList cs).utf8ByteSize ≤ 4 * cs.length := by
  induction cs with
  | nil => rfl
  | cons c cs ih =>
    rw [String.ofList_cons, String.utf8ByteSize_append, String.utf8ByteSize_singleton,
      List.length_cons]
    have := c.utf8Size_le_four
    omega

/-- The own origin is never too long. -/
theorem utf8ByteSize_ownOrigin_le :
    (ownOrigin address port.toNat).utf8ByteSize ≤ maxAddressLength := by
  have hlength : (ownAuthority address port).length ≤ 50 := by
    have hport := (written_port port).length_le
    unfold ownAuthority
    rw [List.length_append]
    cases address with
    | v4 b =>
      have hhost := (IpAddress.written_dotted b.toList).length_le
      rw [b.length_toList] at hhost
      dsimp only
      omega
    | v6 b =>
      have hhost := (IpAddress.written_display_v6 b).length_le
      dsimp only
      rw [List.length_cons, List.length_append, List.length_singleton]
      omega
  have hbytes := utf8ByteSize_le (ownOrigin address port.toNat).toList
  rw [String.ofList_toList, ownOrigin_toList, List.length_append] at hbytes
  have hmark : "http://".toList.length = 7 := by decide
  rw [maxAddressLength]
  omega

end Saboteur.Http
