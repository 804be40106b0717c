import Saboteur.Proofs.Http.OwnOrigin
import Saboteur.Proofs.Text.Pieces

/-!
# Which lists of origins can be served

All pieces of a list are checked before any is used, so a list with a piece that fails the check is
refused. But the check admits more than what names an origin. A list that passes is unusable for its
first piece that is a star, has a scheme of other characters, or is too long. The service's own
origin is never the cause: it names an origin for every address and port.
-/

namespace Saboteur.Http

/-! ## Cutting a piece -/

/-- How a piece is cut at the first mark between a scheme and an authority. -/
structure Cut (piece : String) (scheme rest : List Char) : Prop where
  whole : piece.toList = scheme ++ "://".toList ++ rest
  first : ¬ "://".toList <:+: scheme

/-- A text is cut at the first `://` that it has. -/
theorem cutScheme?_eq_some_iff {cs a b : List Char} :
    cutScheme? cs = some (a, b) ↔ cs = a ++ "://".toList ++ b ∧ ¬ "://".toList <:+: a := by
  have hmark : "://".toList = [':', '/', '/'] := rfl
  rw [hmark]
  induction cs using cutScheme?.induct generalizing a with
  | case1 rest =>
    rw [cutScheme?]
    constructor
    · rintro h
      cases h
      exact ⟨rfl, by simp⟩
    · rintro ⟨h, hfirst⟩
      -- the mark does not overlap itself, so a longer scheme would hold it whole
      match a with
      | [] => simpa using h
      | [x] => simp at h
      | [x, y] => simp at h
      | x :: y :: z :: a =>
        simp only [List.cons_append, List.cons.injEq] at h
        obtain ⟨rfl, rfl, rfl, -⟩ := h
        exact absurd (List.prefix_append [':', '/', '/'] a).isInfix hfirst
  | case2 c rest hnot ih =>
    rw [cutScheme?]
    · constructor
      · intro h
        obtain ⟨⟨a', b'⟩, hcut, heq⟩ := Option.map_eq_some_iff.1 h
        cases heq
        obtain ⟨rfl, hfirst⟩ := ih.1 hcut
        refine ⟨rfl, fun h => ?_⟩
        -- the mark would stand at the front of the text or behind its first character
        rcases List.infix_cons_iff.1 h with ⟨t, ht⟩ | h
        · simp only [List.cons_append, List.nil_append, List.cons.injEq] at ht
          obtain ⟨rfl, rfl⟩ := ht
          exact hnot _ rfl rfl
        · exact hfirst h
      · rintro ⟨h, hfirst⟩
        cases a with
        | nil =>
          simp only [List.nil_append, List.cons_append, List.cons.injEq] at h
          obtain ⟨rfl, rfl⟩ := h
          exact absurd rfl (hnot _ rfl)
        | cons x a =>
          simp only [List.cons_append, List.cons.injEq] at h
          obtain ⟨rfl, rfl⟩ := h
          rw [ih.2 ⟨by simp, fun h => hfirst (List.infix_cons_iff.2 (.inr h))⟩]
          rfl
    · exact hnot
  | case3 => simp [cutScheme?]

theorem cut_iff {piece : String} {scheme rest : List Char} :
    Cut piece scheme rest ↔ cutScheme? piece.toList = some (scheme, rest) := by
  rw [cutScheme?_eq_some_iff]
  exact ⟨fun h => ⟨h.whole, h.first⟩, fun h => ⟨h.1, h.2⟩⟩

/-- There is one way to cut a text. -/
theorem Cut.unique {piece : String} {scheme rest scheme' rest' : List Char}
    (h : Cut piece scheme rest) (h' : Cut piece scheme' rest') :
    scheme = scheme' ∧ rest = rest' := by
  have heq := (cut_iff.1 h).symm.trans (cut_iff.1 h')
  simpa using heq

/-! ## Pieces -/

/-- A piece that passes the check: a star, or a scheme with an authority. -/
def Admitted (piece : String) : Prop :=
  piece = "*" ∨ ∃ scheme rest, Cut piece scheme rest ∧ scheme ≠ [] ∧
    Authority.verify (String.ofList rest) = .ok ()

/-- What keeps a piece that passes the check from naming an origin. -/
inductive Defect (piece : String) : Prop
  | star : piece = "*" → Defect piece
  | schemeCharacter {scheme rest : List Char} {c : Char} :
    Cut piece scheme rest → c ∈ scheme → isSchemeChar c = false → Defect piece
  | schemeLength {scheme rest : List Char} :
    Cut piece scheme rest → maxSchemeLength < scheme.length → Defect piece
  | pieceLength : maxAddressLength < piece.utf8ByteSize → Defect piece

variable {piece : String}

/-- Behind the cut the check looks for an authority, and for something before it. -/
theorem verifyOrigin_eq_ok_iff_of_cut {scheme rest : List Char} (h : Cut piece scheme rest)
    (hstar : piece ≠ "*") :
    verifyOrigin piece = .ok () ↔
      scheme ≠ [] ∧ Authority.verify (String.ofList rest) = .ok () := by
  rw [verifyOrigin, if_neg hstar, cut_iff.1 h]
  dsimp only
  cases Authority.verify (String.ofList rest) with
  | error e => exact iff_of_false nofun nofun
  | ok _ =>
    show (if scheme = [] then _ else _) = _ ↔ _
    by_cases hscheme : scheme = []
    · rw [if_pos hscheme]
      exact iff_of_false nofun fun h => h.1 hscheme
    · rw [if_neg hscheme]
      exact iff_of_true rfl ⟨hscheme, rfl⟩

/-- The check lets through what is admitted, and nothing else. -/
theorem verifyOrigin_eq_ok_iff : verifyOrigin piece = .ok () ↔ Admitted piece := by
  by_cases hstar : piece = "*"
  · rw [verifyOrigin, if_pos hstar]
    exact iff_of_true rfl (.inl hstar)
  · rw [Admitted, or_iff_right hstar]
    constructor
    · intro h
      cases hcut : cutScheme? piece.toList with
      | none =>
        rw [verifyOrigin, if_neg hstar, hcut] at h
        cases h
      | some cut =>
        have hcut := cut_iff.2 hcut
        exact ⟨cut.1, cut.2, hcut, (verifyOrigin_eq_ok_iff_of_cut hcut hstar).1 h⟩
    · rintro ⟨scheme, rest, hcut, h⟩
      exact (verifyOrigin_eq_ok_iff_of_cut hcut hstar).2 h

/-- The defects other than a star, for the one way in which the piece can be cut. -/
theorem originText?_eq_none_iff_of_cut {scheme rest : List Char} (h : Cut piece scheme rest) :
    originText? piece = none ↔ (∃ c ∈ scheme, isSchemeChar c = false) ∨
      maxSchemeLength < scheme.length ∨ maxAddressLength < piece.utf8ByteSize := by
  rw [originText?, cut_iff.1 h]
  dsimp only
  rw [ite_eq_right_iff, imp_iff_not (Option.some_ne_none _), not_and_or, not_and_or, Nat.not_le,
    Nat.not_le]
  refine or_congr_left ?_
  simp

/-- Of what is admitted, only what has a defect cannot be used. -/
theorem originText?_eq_none_iff (h : Admitted piece) : originText? piece = none ↔ Defect piece := by
  rcases h with rfl | ⟨scheme, rest, hcut, -, -⟩
  · exact iff_of_true (by decide) (.star rfl)
  · rw [originText?_eq_none_iff_of_cut hcut]
    constructor
    · rintro (⟨c, hc, hchar⟩ | hlong | hlong)
      · exact .schemeCharacter hcut hc hchar
      · exact .schemeLength hcut hlong
      · exact .pieceLength hlong
    · intro h
      cases h with
      | star hstar =>
        subst hstar
        exact absurd (cut_iff.1 hcut) (by simp [cutScheme?])
      | schemeCharacter hcut' hc hchar =>
        obtain ⟨rfl, -⟩ := hcut.unique hcut'
        exact .inl ⟨_, hc, hchar⟩
      | schemeLength hcut' hlong =>
        obtain ⟨rfl, -⟩ := hcut.unique hcut'
        exact .inr (.inl hlong)
      | pieceLength hlong => exact .inr (.inr hlong)

/-! ## Lists -/

/-- The pieces of a list of origins. -/
structure Lists (list : String) (pieces : List String) : Prop where
  nonempty : pieces ≠ []
  free : ∀ p ∈ pieces, ',' ∉ p.toList
  joined : ",".intercalate pieces = list

theorem lists_iff {list : String} {pieces : List String} :
    Lists list pieces ↔ pieces = (Text.splitList ',' list.toList).map String.ofList := by
  have hjoin : ",".intercalate pieces = list ↔
      list.toList = [','].intercalate (pieces.map String.toList) := by
    rw [← String.toList_inj, String.toList_intercalate]
    exact eq_comm
  have hmap : pieces = (Text.splitList ',' list.toList).map String.ofList ↔
      Text.splitList ',' list.toList = pieces.map String.toList := by
    constructor
    · rintro h
      rw [h, List.map_map]
      simp [Function.comp_def]
    · intro h
      rw [h, List.map_map]
      simp [Function.comp_def]
  rw [hmap, Text.splitList_eq_iff]
  constructor
  · intro h
    refine ⟨by simpa using h.nonempty, ?_, hjoin.1 h.joined⟩
    exact List.forall_mem_map.2 h.free
  · rintro ⟨hne, hfree, h⟩
    exact ⟨by simpa using hne, fun p hp => hfree _ (List.mem_map_of_mem hp), hjoin.2 h⟩

/-- The check of all pieces, as the loop that it is. -/
def checkPieces (pieces : List String) : Except CorsError Unit :=
  forIn pieces ⟨⟩ fun piece _ => do
    (verifyOrigin piece).mapError .refused
    return .yield ⟨⟩

/-- Pieces are checked in turn, up to the first that is refused. -/
theorem checkPieces_cons (piece : String) (pieces : List String) :
    checkPieces (piece :: pieces) =
      ((verifyOrigin piece).mapError .refused >>= fun _ => checkPieces pieces) := by
  unfold checkPieces
  rw [List.forIn_cons]
  cases verifyOrigin piece <;> rfl

theorem checkPieces_of_admitted {pieces : List String} (h : ∀ p ∈ pieces, Admitted p) :
    checkPieces pieces = .ok () := by
  induction pieces with
  | nil => rfl
  | cons p pieces ih =>
    obtain ⟨hp, hpieces⟩ := List.forall_mem_cons.1 h
    rw [checkPieces_cons, verifyOrigin_eq_ok_iff.2 hp]
    exact ih hpieces

/-- Where not every piece is admitted, the first of the others is refused. -/
theorem checkPieces_of_not_admitted {pieces : List String} (h : ¬ ∀ p ∈ pieces, Admitted p) :
    ∃ e, checkPieces pieces = .error (.refused e) := by
  induction pieces with
  | nil => exact absurd (by simp) h
  | cons p pieces ih =>
    rw [checkPieces_cons]
    cases hp : verifyOrigin p with
    | error e => exact ⟨e, rfl⟩
    | ok _ =>
      exact ih fun hpieces => h (List.forall_mem_cons.2 ⟨verifyOrigin_eq_ok_iff.1 hp, hpieces⟩)

/-- What is made of the pieces of a list. -/
def servePieces (pieces : List String) : Except CorsError (List String) := do
  checkPieces pieces
  pieces.mapM originOf

theorem servedOrigins_some {list : String} {pieces : List String} (h : Lists list pieces)
    (address : IpAddress) (port : Nat) :
    servedOrigins (some list) address port = servePieces pieces := by
  rw [lists_iff.1 h]
  rfl

/-- Without a list the service serves its own origin. -/
theorem servedOrigins_none (address : IpAddress) (port : Nat) :
    servedOrigins none address port = servePieces [ownOrigin address port] := rfl

/-- The first piece that cannot be used breaks the reading off. -/
theorem mapM_originOf_eq_error_iff {pieces : List String} :
    pieces.mapM originOf = .error (.unusable piece) ↔
      ∃ before after, pieces = before ++ piece :: after ∧
        (∀ p ∈ before, originText? p ≠ none) ∧ originText? piece = none := by
  induction pieces with
  | nil => exact iff_of_false nofun (by simp)
  | cons p pieces ih =>
    rw [List.mapM_cons, originOf]
    cases hp : originText? p with
    | none =>
      constructor
      · intro h
        cases h
        exact ⟨[], pieces, rfl, by simp, hp⟩
      · rintro ⟨before, after, heq, hbefore, -⟩
        cases before with
        | nil => cases heq; rfl
        | cons q before =>
          cases heq
          exact absurd hp (hbefore p List.mem_cons_self)
    | some text =>
      have hrest : (do
          let t ← Except.ok text
          let ts ← pieces.mapM originOf
          pure (t :: ts)) = .error (.unusable piece) ↔
          pieces.mapM originOf = .error (.unusable piece) := by
        cases pieces.mapM originOf <;> simp [bind, Except.bind, pure, Except.pure]
      rw [hrest, ih]
      constructor
      · rintro ⟨before, after, rfl, hbefore, hpiece⟩
        refine ⟨p :: before, after, rfl, List.forall_mem_cons.2 ⟨?_, hbefore⟩, hpiece⟩
        rw [hp]
        exact Option.some_ne_none text
      · rintro ⟨before, after, heq, hbefore, hpiece⟩
        cases before with
        | nil =>
          cases heq
          rw [hp] at hpiece
          cases hpiece
        | cons q before =>
          cases heq
          exact ⟨before, after, rfl, (List.forall_mem_cons.1 hbefore).2, hpiece⟩

/-- What cannot be used breaks a start off only if every piece passes the check. -/
theorem servePieces_eq_unusable_iff {pieces : List String} :
    servePieces pieces = .error (.unusable piece) ↔
      ∃ before after, pieces = before ++ piece :: after ∧ (∀ p ∈ pieces, Admitted p) ∧
        (∀ p ∈ before, ¬ Defect p) ∧ Defect piece := by
  unfold servePieces
  by_cases h : ∀ p ∈ pieces, Admitted p
  · rw [checkPieces_of_admitted h]
    show pieces.mapM originOf = _ ↔ _
    rw [mapM_originOf_eq_error_iff]
    refine exists_congr fun before => exists_congr fun after => and_congr_right ?_
    rintro rfl
    have hbefore : (∀ p ∈ before, originText? p ≠ none) ↔ ∀ p ∈ before, ¬ Defect p :=
      forall₂_congr fun p hp => not_congr (originText?_eq_none_iff (h p (List.mem_append_left _ hp)))
    rw [hbefore, originText?_eq_none_iff (h piece (by simp))]
    exact (and_iff_right h).symm
  · -- a piece that is refused hides every defect
    obtain ⟨e, he⟩ := checkPieces_of_not_admitted h
    rw [he]
    exact iff_of_false nofun fun ⟨_, _, _, hadmitted, _⟩ => h hadmitted

/-! ## The origin of the service -/

variable (address : IpAddress) (port : UInt16)

/-- The own origin is an authority behind `http://`. -/
theorem cut_ownOrigin :
    Cut (ownOrigin address port.toNat) "http".toList (ownAuthority address port) where
  whole := ownOrigin_toList address port
  first := by decide

/-- The own origin is used as it is written. -/
theorem originText?_ownOrigin :
    originText? (ownOrigin address port.toNat) = some (ownOrigin address port.toNat) := by
  rw [originText?, cut_iff.1 (cut_ownOrigin address port)]
  dsimp only
  have hsent : sentScheme "http".toList = "http".toList := by decide
  rw [if_pos ⟨by decide, by decide, utf8ByteSize_ownOrigin_le address port⟩, hsent,
    ← (cut_ownOrigin address port).whole, String.ofList_toList]

/-- The own origin passes the check that is meant for others. -/
theorem admitted_ownOrigin : Admitted (ownOrigin address port.toNat) :=
  .inr ⟨_, _, cut_ownOrigin address port, by decide, verify_ownAuthority address port⟩

/-- A start without a list is never broken off by an origin. -/
theorem servedOrigins_none_eq_ok :
    servedOrigins none address port.toNat = .ok [ownOrigin address port.toNat] := by
  rw [servedOrigins_none, servePieces, checkPieces_of_admitted (by simp [admitted_ownOrigin])]
  show [ownOrigin address port.toNat].mapM originOf = _
  rw [List.mapM_cons, originOf, originText?_ownOrigin]
  rfl

/-- **A list of origins cannot be served exactly if all its pieces pass the check and one of them
names no origin: the first that does is the one to blame. The service's own origin can always be
served.** -/
theorem servedOrigins_eq_unusable_iff (allowed : Option String) (address : IpAddress)
    (port : UInt16) (piece : String) :
    (servedOrigins allowed address port.toNat = .error (.unusable piece) ↔
      ∃ list before after, allowed = some list ∧ Lists list (before ++ piece :: after) ∧
        (∀ p ∈ before ++ piece :: after, Admitted p) ∧ (∀ p ∈ before, ¬ Defect p) ∧
        Defect piece) ∧
    servedOrigins none address port.toNat = .ok [ownOrigin address port.toNat] := by
  refine ⟨?_, servedOrigins_none_eq_ok address port⟩
  cases allowed with
  | none =>
    rw [servedOrigins_none_eq_ok]
    exact iff_of_false nofun nofun
  | some list =>
    have hlist : Lists list ((Text.splitList ',' list.toList).map String.ofList) := lists_iff.2 rfl
    rw [servedOrigins_some hlist, servePieces_eq_unusable_iff]
    constructor
    · rintro ⟨before, after, heq, hadmitted, hbefore, hpiece⟩
      rw [heq] at hlist hadmitted
      exact ⟨list, before, after, rfl, hlist, hadmitted, hbefore, hpiece⟩
    · rintro ⟨_, before, after, heq, hlist', hadmitted, hbefore, hpiece⟩
      cases heq
      rw [← lists_iff.1 hlist']
      exact ⟨before, after, rfl, hadmitted, hbefore, hpiece⟩

/-- The list that allows every origin passes the check, but the service cannot start with it. -/
theorem servedOrigins_star :
    verifyOrigin "*" = .ok () ∧
      servedOrigins (some "*") .localhost 10000 = .error (.unusable "*") :=
  ⟨rfl, rfl⟩

end Saboteur.Http
