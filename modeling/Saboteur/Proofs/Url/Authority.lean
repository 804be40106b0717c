import Saboteur.Proofs.Url.Host
import Saboteur.Proofs.Url.Scanning

/-!
# Authorities are read as they were written

Names and passwords are encoded, so the last `@` of an authority is the one behind them, and the
first colon before it is the one between them. A port that goes without saying is not kept.
-/

namespace Saboteur.Url

/-- An authority as it is kept. -/
structure IsAuthority [Idna] (scheme : String) (a : Authority) : Prop where
  username : Plain userinfoSet a.username.toList
  password : Plain userinfoSet a.password.toList
  host : IsHost (isSpecial scheme) a.host
  port : ∀ p ∈ a.port, p < 65536 ∧ defaultPort? scheme ≠ some p
  /-- A well-known scheme has a host, and so has who is named, and what has a port. -/
  noHost : a.host = .domain "" →
    isSpecial scheme = false ∧ a.username = "" ∧ a.password = "" ∧ a.port = none

variable {scheme : String} {a : Authority} {s rest : List Char}

/-! ## Names and passwords -/

/-- The name and the password without the mark behind them. -/
def Authority.credentials (a : Authority) : List Char :=
  a.username.toList ++ if a.password = "" then [] else ':' :: a.password.toList

theorem toList_userinfo (a : Authority) : a.userinfo.toList =
    if a.username = "" ∧ a.password = "" then [] else a.credentials ++ ['@'] := by
  unfold Authority.userinfo Authority.credentials
  by_cases hboth : a.username = "" ∧ a.password = ""
  · simp only [if_pos hboth]
    rfl
  · simp only [if_neg hboth, String.toList_append]
    congr 2
    split
    · rfl
    · rw [String.toList_append]
      rfl

/-- No mark of an address stands in what is encoded for a name or a password. -/
theorem not_mem_of_plain_userinfoSet (h : Plain userinfoSet s) {c : Char}
    (hc : c ∈ " /\\?#@:".toList) : c ∉ s := by
  have hall : " /\\?#@:".toList.all userinfoSet = true := by decide
  intro hmem
  have hnot := h c hmem
  rw [List.all_eq_true.1 hall c hc] at hnot
  cases hnot

/-- **Names and passwords are read as they were written.** -/
theorem userinfoOf_credentials (husername : Plain userinfoSet a.username.toList)
    (hpassword : Plain userinfoSet a.password.toList) :
    userinfoOf a.credentials = (a.username, a.password) := by
  have hcolon : ∀ c ∈ a.username.toList, decide (c ≠ ':') = true := fun c hc =>
    decide_eq_true fun heq => not_mem_of_plain_userinfoSet husername (c := ':') (by decide) (heq ▸ hc)
  unfold Authority.credentials
  split
  · rename_i hempty
    obtain ⟨htake, hdrop⟩ := takeWhile_dropWhile_append hcolon (begins_nil _)
    rw [userinfoOf, htake, hdrop, encodePart_of_plain husername, String.ofList_toList, hempty]
    rfl
  · obtain ⟨htake, hdrop⟩ := takeWhile_dropWhile_append (t := ':' :: a.password.toList) hcolon
      (begins_cons.2 (by simp))
    rw [userinfoOf, htake, hdrop, encodePart_of_plain husername, List.drop_one, List.tail_cons,
      encodePart_of_plain hpassword, String.ofList_toList, String.ofList_toList]

/-! ## Reading -/

/-- The text of an authority behind its two slashes. -/
def Authority.body (a : Authority) : List Char :=
  a.userinfo.toList ++ (a.host.render.toList ++ a.portText.toList)

theorem toList_render_authority (a : Authority) : a.render.toList = '/' :: '/' :: a.body := by
  rw [Authority.render, String.toList_append, String.toList_append, String.toList_append,
    List.append_assoc, List.append_assoc]
  rfl

theorem toList_portText (a : Authority) : a.portText.toList = match a.port with
    | some p => ':' :: Nat.toDigits 10 p
    | none => [] := by
  unfold Authority.portText
  cases a.port with
  | none => rfl
  | some p =>
    simp only [String.toList_append, Nat.toList_repr]
    rfl

theorem begins_portText (a : Authority) : Begins (· = ':') a.portText.toList := by
  rw [toList_portText]
  split
  · exact begins_cons.2 rfl
  · exact begins_nil _

theorem isHostChar_of_mem_portText {c : Char} (h : c ∈ a.portText.toList) : IsHostChar c := by
  rw [toList_portText] at h
  split at h
  · rcases List.mem_cons.1 h with rfl | h
    · decide
    · exact (isHostChar_of_glyph (.inl (isAlphanum_of_mem_toDigits (by decide) (by decide) h))).1
  · exact absurd h List.not_mem_nil

theorem isVisible_of_isHostChar {c : Char} (h : IsHostChar c) : IsVisible c := by
  obtain ⟨hcontrol, hmark⟩ := h
  rw [isControl, Bool.or_eq_false_iff, decide_eq_false_iff_not, decide_eq_false_iff_not] at hcontrol
  have hne : c.toNat ≠ 0x20 := fun heq =>
    hmark ((Char.toNat_inj.1 heq : c = ' ') ▸ (by decide))
  exact ⟨by omega, by omega⟩

theorem endsAuthority_eq_false {special : Bool} {c : Char} (h : c ∉ "/\\?#".toList) :
    endsAuthority special c = false := by
  rw [Bool.eq_false_iff]
  intro hends
  simp only [endsAuthority, Bool.or_eq_true, Bool.and_eq_true, decide_eq_true_eq] at hends
  refine h ?_
  rcases hends with ((rfl | rfl) | rfl) | ⟨-, rfl⟩ <;> decide

namespace IsAuthority

variable [Idna]

theorem isHostChar (h : IsAuthority scheme a) {c : Char}
    (hc : c ∈ a.host.render.toList ++ a.portText.toList) : IsHostChar c :=
  (List.mem_append.1 hc).elim (h.host.char c) isHostChar_of_mem_portText

/-- What an authority is written with. -/
theorem mem_body (h : IsAuthority scheme a) {c : Char} (hc : c ∈ a.body) :
    IsHostChar c ∨ c = '@' := by
  have hplain : ∀ s : List Char, Plain userinfoSet s → c ∈ s → IsHostChar c := fun s hs hmem =>
    ⟨hs.isControl_eq_false isEncodeSet_userinfoSet hmem, fun hmark =>
      not_mem_of_plain_userinfoSet hs (List.mem_append_left [':'] hmark) hmem⟩
  rw [Authority.body, List.mem_append] at hc
  rcases hc with hc | hc
  · rw [toList_userinfo] at hc
    split at hc
    · exact absurd hc List.not_mem_nil
    rw [List.mem_append, List.mem_singleton, Authority.credentials, List.mem_append] at hc
    rcases hc with (hc | hc) | rfl
    · exact .inl (hplain _ h.username hc)
    · split at hc
      · exact absurd hc List.not_mem_nil
      · rcases List.mem_cons.1 hc with rfl | hc
        · exact .inl (by decide)
        · exact .inl (hplain _ h.password hc)
    · exact .inr rfl
  · exact .inl (h.isHostChar hc)

theorem isVisible_of_mem_body (h : IsAuthority scheme a) {c : Char} (hc : c ∈ a.body) :
    IsVisible c := by
  rcases h.mem_body hc with hhost | rfl
  · exact isVisible_of_isHostChar hhost
  · decide

/-- Nothing that an authority is written with ends it. -/
theorem endsAuthority_of_mem_body (h : IsAuthority scheme a) (special : Bool) {c : Char}
    (hc : c ∈ a.body) : endsAuthority special c = false := by
  refine endsAuthority_eq_false fun hmem => ?_
  rcases h.mem_body hc with hhost | rfl
  · exact hhost.2 (List.mem_append_left ['@'] (List.mem_cons_of_mem ' ' hmem))
  · exact absurd hmem (by decide)

/-- With a well-known scheme there is something to read. -/
theorem body_ne_nil (h : IsAuthority scheme a) (hspecial : isSpecial scheme = true) :
    a.body ≠ [] := by
  intro hnil
  have hhost := (List.append_eq_nil_iff.1 (List.append_eq_nil_iff.1 hnil).2).1
  have hnone := (h.noHost (eq_domain_of_render_eq_nil hhost)).1
  rw [hspecial] at hnone
  cases hnone

/-- The last `@` of an authority is the one behind the names. -/
theorem cutNames_body (h : IsAuthority scheme a) :
    ∃ names, cutNames a.body = (names, a.host.render.toList ++ a.portText.toList) ∧
      userinfoOf (names.getD []) = (a.username, a.password) ∧ names ≠ some [] := by
  have hat : '@' ∉ a.host.render.toList ++ a.portText.toList := fun hmem =>
    (h.isHostChar hmem).2 (by decide)
  rw [Authority.body, toList_userinfo, cutNames]
  by_cases hboth : a.username = "" ∧ a.password = ""
  · refine ⟨none, ?_, ?_, Option.some_ne_none [] ∘ Eq.symm⟩
    · rw [if_pos hboth, List.nil_append, cutAtLast?_of_not_mem hat]
    · rw [hboth.1, hboth.2]
      rfl
  · refine ⟨some a.credentials, ?_, userinfoOf_credentials h.username h.password, fun hnil => ?_⟩
    · rw [if_neg hboth, List.append_assoc, List.singleton_append, cutAtLast?_append hat]
    · obtain ⟨husername, hpassword⟩ := List.append_eq_nil_iff.1 (Option.some.inj hnil)
      refine hboth ⟨String.toList_eq_nil_iff.1 husername, ?_⟩
      by_contra hne
      rw [if_neg hne] at hpassword
      cases hpassword

theorem readPortText_portText (h : IsAuthority scheme a)
    (hrest : Begins (fun c => c = '/' ∨ c = '?' ∨ c = '#') rest) :
    readPortText scheme a.portText.toList rest = .ok (a.port, rest) := by
  rw [toList_portText]
  cases hport : a.port with
  | none => rfl
  | some p =>
    obtain ⟨hlt, hdefault⟩ := h.port p hport
    have hvalue : Nat.ofDigitChars 10 (Nat.toDigits 10 p) 0 = p := Nat.ofDigitChars_ten_toDigits
    have hdigits : ∀ c ∈ Nat.toDigits 10 p, c.isDigit = true := fun c hc =>
      Nat.isDigit_of_mem_toDigits (by decide) (by decide) hc
    have hread := readPort_append 0 false hdigits (.inr Nat.toDigits_ne_nil) (by rwa [hvalue]) hrest
    rw [hvalue] at hread
    show (readPort 0 false (Nat.toDigits 10 p ++ rest)).map _ = _
    rw [hread]
    simp [Except.map, hdefault]

theorem readHostport_render (h : IsAuthority scheme a)
    (hrest : Begins (fun c => c = '/' ∨ c = '?' ∨ c = '#') rest) :
    readHostport scheme (a.host.render.toList ++ a.portText.toList) rest =
      .ok (a.host, a.port, rest) := by
  have hfound : ¬ (a.host.render.toList = [] ∧
      (isSpecial scheme = true ∨ a.portText.toList ≠ [])) := by
    rintro ⟨hempty, hneeded⟩
    obtain ⟨hspecial, -, -, hport⟩ := h.noHost (eq_domain_of_render_eq_nil hempty)
    rcases hneeded with hneeded | hneeded
    · rw [hspecial] at hneeded
      cases hneeded
    · rw [toList_portText, hport] at hneeded
      exact hneeded rfl
  rw [readHostport, h.host.cut _ (begins_portText a)]
  simp only [if_neg hfound, h.host.read, h.readPortText_portText hrest]
  rfl

/-- **An authority is read as it was written.** -/
theorem readAuthority_body (h : IsAuthority scheme a)
    (hrest : Begins (fun c => c = '/' ∨ c = '?' ∨ c = '#') rest) :
    readAuthority scheme (a.body ++ rest) = .ok (a, rest) := by
  obtain ⟨htake, hdrop⟩ := takeWhile_dropWhile_append
    (p := fun c => !endsAuthority (isSpecial scheme) c) (t := rest)
    (fun c hc => by rw [h.endsAuthority_of_mem_body _ hc]; rfl)
    (hrest.imp fun c hc => by rcases hc with rfl | rfl | rfl <;> rfl)
  obtain ⟨names, hcut, hnames, hne⟩ := h.cutNames_body
  have hnamed : ¬ (a.host = .domain "" ∧ (a.username ≠ "" ∨ a.password ≠ "")) := by
    rintro ⟨hhost, hnamed⟩
    obtain ⟨-, husername, hpassword, -⟩ := h.noHost hhost
    exact hnamed.elim (· husername) (· hpassword)
  rw [readAuthority, htake, hdrop, hcut]
  simp only [hnames, if_neg fun hbad : names = some [] ∧ _ => hne hbad.1,
    h.readHostport_render hrest]
  exact if_neg hnamed

end IsAuthority

/-! ## Authorities that were read -/

/-- A port is kept if it fits and does not go without saying. -/
theorem lt_of_readPortText {portText rest' : List Char} {port : Option Nat}
    (h : readPortText scheme portText rest = .ok (port, rest')) :
    (∀ p ∈ port, p < 65536 ∧ defaultPort? scheme ≠ some p) ∧ (portText = [] → port = none) := by
  unfold readPortText at h
  split at h
  · rename_i digits
    cases hread : readPort 0 false (digits ++ rest) with
    | error e =>
      rw [hread] at h
      cases h
    | ok r =>
      obtain ⟨value, after⟩ := r
      rw [hread] at h
      cases h
      refine ⟨fun p hp => ?_, fun hnil => absurd hnil (List.cons_ne_nil _ _)⟩
      obtain ⟨hvalue, hdefault⟩ := Option.filter_eq_some_iff.1 hp
      cases hvalue
      exact ⟨lt_of_readPort (by decide) hread, of_decide_eq_true hdefault⟩
  · cases h
    exact ⟨fun p hp => absurd hp (Option.not_mem_none p), fun _ => rfl⟩

theorem isHost_of_readHostport [Idna] [LawfulIdna] {hostport rest' : List Char} {host : Host}
    {port : Option Nat} (h : readHostport scheme hostport rest = .ok (host, port, rest')) :
    IsHost (isSpecial scheme) host ∧ (∀ p ∈ port, p < 65536 ∧ defaultPort? scheme ≠ some p) ∧
      (host = .domain "" → isSpecial scheme = false ∧ port = none) := by
  unfold readHostport at h
  split at h
  rename_i hostText portText _
  simp only at h
  split at h
  · cases h
  rename_i hfound
  obtain ⟨host', hhost, h⟩ := bind_eq_ok_iff.1 h
  obtain ⟨⟨port', after⟩, hport, h⟩ := bind_eq_ok_iff.1 h
  cases h
  obtain ⟨hread, hempty⟩ := isHost_of_read hhost
  obtain ⟨hlt, hnone⟩ := lt_of_readPortText hport
  refine ⟨hread, hlt, fun heq => ?_⟩
  obtain ⟨hspecial, htext⟩ := hempty heq
  refine ⟨hspecial, hnone ?_⟩
  by_contra hne
  exact hfound ⟨htext, .inr hne⟩

/-- **What is read is an authority.** -/
theorem isAuthority_of_readAuthority [Idna] [LawfulIdna]
    (h : readAuthority scheme s = .ok (a, rest)) :
    IsAuthority scheme a := by
  unfold readAuthority at h
  simp only at h
  split at h
  · cases h
  obtain ⟨⟨host, port, after⟩, hhostport, h⟩ := bind_eq_ok_iff.1 h
  simp only at h
  split at h
  · cases h
  rename_i hnamed
  cases h
  obtain ⟨hhost, hport, hempty⟩ := isHost_of_readHostport hhostport
  refine ⟨plain_encodePart isEncodeSet_userinfoSet _, plain_encodePart isEncodeSet_userinfoSet _,
    hhost, hport, fun heq => ?_⟩
  obtain ⟨hspecial, hnone⟩ := hempty heq
  have hnobody := not_and.1 hnamed heq
  rw [not_or, not_not, not_not] at hnobody
  exact ⟨hspecial, hnobody.1, hnobody.2, hnone⟩

end Saboteur.Url
