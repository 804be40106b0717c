import Saboteur.Json.Fields
import Saboteur.Proofs.Json.Lexing

/-!
# Documents that are written and read

The text of a document is read as that document. The text is first cut into the tokens that it was
written with, and these are put together again by the machine that keeps open arrays and objects on
a stack.

Numbers have to be integers of 64 bits here, since others are written as the doubles that they stand
for, and texts have to consist of characters.
-/

namespace Saboteur.Json

/-! ## Tokens of documents -/

/-- A text that consists of characters. -/
def IsText (l : Literal) : Prop := ∃ s, l = .text s

mutual

/-- All numbers are integers of 64 bits, and all texts consist of characters. -/
def Plain : Json → Prop
  | .number n => n.isExact = true
  | .string l => IsText l
  | .array items => PlainItems items
  | .object members => PlainMembers members
  | _ => True

/-- All items are plain. -/
def PlainItems : List Json → Prop
  | [] => True
  | j :: rest => Plain j ∧ PlainItems rest

/-- All keys and values are plain. -/
def PlainMembers : List (Literal × Json) → Prop
  | [] => True
  | (k, j) :: rest => IsText k ∧ Plain j ∧ PlainMembers rest

end

theorem plain_text (s : String) : Plain (text s) := ⟨s, rfl⟩

theorem plain_array {items : List Json} (h : ∀ j ∈ items, Plain j) : Plain (.array items) := by
  change PlainItems items
  induction items with
  | nil => trivial
  | cons j rest ih =>
    obtain ⟨hfirst, hrest⟩ := List.forall_mem_cons.1 h
    exact ⟨hfirst, ih hrest⟩

theorem plain_obj {members : List (String × Json)} (h : ∀ m ∈ members, Plain m.2) :
    Plain (obj members) := by
  change PlainMembers _
  induction members with
  | nil => trivial
  | cons m rest ih =>
    obtain ⟨hfirst, hrest⟩ := List.forall_mem_cons.1 h
    exact ⟨⟨m.1, rfl⟩, hfirst, ih hrest⟩

mutual

/-- The tokens that a document is written with. -/
def written : Json → List Token
  | .null => [.null]
  | .bool b => [.bool b]
  | .number n => [.number n]
  | .string l => [.string l]
  | .array items => .openArray :: ([.comma].intercalate (writtenItems items) ++ [.closeArray])
  | .object members =>
    .openObject :: ([.comma].intercalate (writtenMembers members) ++ [.closeObject])

/-- The tokens of items. -/
def writtenItems : List Json → List (List Token)
  | [] => []
  | j :: rest => written j :: writtenItems rest

/-- The tokens of members. -/
def writtenMembers : List (Literal × Json) → List (List Token)
  | [] => []
  | (k, j) :: rest => (.string k :: .colon :: written j) :: writtenMembers rest

end

/-! ## From text to tokens -/

/-- A text is cut into tokens, if what follows it cannot be part of a number. -/
def Lexes (cs : List Char) (ts : List Token) : Prop :=
  ∀ rest, EndsNumber rest → tokens (cs ++ rest) = (tokens rest).map (ts ++ ·)

/-- A text is cut into tokens, whatever follows it. -/
def LexesAlways (cs : List Char) (ts : List Token) : Prop :=
  ∀ rest, tokens (cs ++ rest) = (tokens rest).map (ts ++ ·)

theorem LexesAlways.lexes {cs : List Char} {ts : List Token} (h : LexesAlways cs ts) :
    Lexes cs ts :=
  fun rest _ => h rest

theorem LexesAlways.append {cs cs' : List Char} {ts ts' : List Token} (h : LexesAlways cs ts)
    (h' : Lexes cs' ts') : Lexes (cs ++ cs') (ts ++ ts') := by
  intro rest hrest
  rw [List.append_assoc, h, h' rest hrest, Option.map_map]
  simp only [Function.comp_def, List.append_assoc]

/-- A text that may end in a number comes before one that cannot be part of it. -/
theorem Lexes.append {c : Char} {cs cs' : List Char} {ts ts' : List Token} (h : Lexes cs ts)
    (h' : LexesAlways (c :: cs') ts') (hc : c = ',' ∨ c = ']' ∨ c = '\x7d') :
    LexesAlways (cs ++ c :: cs') (ts ++ ts') := by
  intro rest
  have hends : EndsNumber (c :: cs' ++ rest) := endsNumber_cons hc (cs' ++ rest)
  rw [List.append_assoc, h _ hends, h', Option.map_map]
  simp only [Function.comp_def, List.append_assoc]

theorem LexesAlways.append_always {cs cs' : List Char} {ts ts' : List Token}
    (h : LexesAlways cs ts) (h' : LexesAlways cs' ts') : LexesAlways (cs ++ cs') (ts ++ ts') := by
  intro rest
  rw [List.append_assoc, h, h', Option.map_map]
  simp only [Function.comp_def, List.append_assoc]

/-- No token begins with a blank. -/
theorem isSpace_of_readToken {c : Char} {s : List Char} {result : Token × List Char}
    (h : readToken (c :: s) = some result) : isSpace c = false := by
  rw [Bool.eq_false_iff]
  intro hspace
  simp only [isSpace, Bool.or_eq_true, decide_eq_true_eq] at hspace
  obtain ((rfl | rfl) | rfl) | rfl := hspace <;> cases h

theorem tokens_of_readToken {cs rest : List Char} {t : Token} (hne : cs ≠ [])
    (h : readToken (cs ++ rest) = some (t, rest)) :
    tokens (cs ++ rest) = (tokens rest).map (t :: ·) := by
  obtain ⟨c, cs, rfl⟩ := List.exists_cons_of_ne_nil hne
  rw [List.cons_append] at h ⊢
  have hshorter : rest.length < (c :: (cs ++ rest)).length := by
    rw [List.length_cons, List.length_append]
    omega
  rw [tokens]
  simp only [isSpace_of_readToken h, h, hshorter, if_true, Bool.false_eq_true, if_false]

/-- A text that is read as one token wherever it stands. -/
theorem lexesAlways_of_readToken {cs : List Char} {t : Token} (hne : cs ≠ [])
    (h : ∀ rest, readToken (cs ++ rest) = some (t, rest)) : LexesAlways cs [t] :=
  fun rest => tokens_of_readToken hne (h rest)

theorem lexesAlways_renderText (s : String) :
    LexesAlways (renderText s).toList [.string (.text s)] := by
  refine lexesAlways_of_readToken ?_ (readToken_renderText s)
  simp [renderText]

theorem lexes_render_numeral {n : Numeral} (h : n.isExact = true) :
    Lexes n.render.toList [.number n] := by
  intro rest hrest
  refine tokens_of_readToken ?_ (readToken_render_numeral h hrest)
  rw [Numeral.render, if_pos h, String.toList_append, Nat.toList_repr]
  exact List.append_ne_nil_of_right_ne_nil _ Nat.toDigits_ne_nil

/-- **Pieces between commas are cut one by one.** -/
theorem lexes_intercalate {pieces : List (List Char)} {tss : List (List Token)}
    (h : List.Forall₂ Lexes pieces tss) :
    Lexes ([','].intercalate pieces) ([.comma].intercalate tss) := by
  have hcomma : LexesAlways [','] [.comma] := lexesAlways_of_readToken (by simp) fun _ => rfl
  induction h with
  | nil =>
    intro rest _
    simp
  | @cons piece ts pieces tss hfirst hrest ih =>
    cases hrest with
    | nil => simpa using hfirst
    | cons _ _ =>
      rw [List.intercalate_cons_cons, List.intercalate_cons_cons]
      exact (hfirst.append hcomma (.inl rfl)).append ih

theorem lexesAlways_enclosed {open' close : Char} {cs : List Char} {t t' : Token}
    {ts : List Token} (hopen : LexesAlways [open'] [t]) (h : Lexes cs ts)
    (hclose : LexesAlways [close] [t']) (hc : close = ',' ∨ close = ']' ∨ close = '\x7d') :
    LexesAlways (open' :: (cs ++ [close])) (t :: (ts ++ [t'])) :=
  hopen.append_always (h.append hclose hc)

mutual

/-- **The text of a document is cut into the tokens that it is written with.** -/
theorem lexes_render : ∀ {j : Json}, Plain j → Lexes (render j).toList (written j)
  | .null, _ => (lexesAlways_of_readToken (by simp [render]) fun _ => rfl).lexes
  | .bool true, _ => (lexesAlways_of_readToken (by simp [render]) fun _ => rfl).lexes
  | .bool false, _ => (lexesAlways_of_readToken (by simp [render]) fun _ => rfl).lexes
  | .number _, h => lexes_render_numeral h
  | .string _, ⟨s, hs⟩ => by
    subst hs
    exact (lexesAlways_renderText s).lexes
  | .array items, h => by
    have hitems := lexes_intercalate (forall₂_lexes_items h)
    have hopen : LexesAlways ['['] [.openArray] := lexesAlways_of_readToken (by simp) fun _ => rfl
    have hclose : LexesAlways [']'] [.closeArray] := lexesAlways_of_readToken (by simp) fun _ => rfl
    have htext : (render (.array items)).toList =
        '[' :: ([','].intercalate ((renderItems items).map String.toList) ++ [']']) := by
      simp [render, String.toList_intercalate]
    rw [htext]
    exact (lexesAlways_enclosed hopen hitems hclose (.inr (.inl rfl))).lexes
  | .object members, h => by
    have hmembers := lexes_intercalate (forall₂_lexes_members h)
    have hopen : LexesAlways ['\x7b'] [.openObject] :=
      lexesAlways_of_readToken (by simp) fun _ => rfl
    have hclose : LexesAlways ['\x7d'] [.closeObject] :=
      lexesAlways_of_readToken (by simp) fun _ => rfl
    have htext : (render (.object members)).toList =
        '\x7b' :: ([','].intercalate ((renderMembers members).map String.toList) ++ ['\x7d']) := by
      simp [render, String.toList_intercalate]
    rw [htext]
    exact (lexesAlways_enclosed hopen hmembers hclose (.inr (.inr rfl))).lexes

theorem forall₂_lexes_items : ∀ {items : List Json}, PlainItems items →
    List.Forall₂ Lexes ((renderItems items).map String.toList) (writtenItems items)
  | [], _ => .nil
  | _ :: _, ⟨hfirst, hrest⟩ => .cons (lexes_render hfirst) (forall₂_lexes_items hrest)

theorem forall₂_lexes_members : ∀ {members : List (Literal × Json)}, PlainMembers members →
    List.Forall₂ Lexes ((renderMembers members).map String.toList) (writtenMembers members)
  | [], _ => .nil
  | (_, j) :: _, ⟨⟨k, hk⟩, hfirst, hrest⟩ => by
    subst hk
    refine .cons ?_ (forall₂_lexes_members hrest)
    have hcolon : LexesAlways [':'] [.colon] := lexesAlways_of_readToken (by simp) fun _ => rfl
    have htext : (renderLiteral (.text k) ++ ":" ++ render j).toList =
        (renderText k).toList ++ ([':'] ++ (render j).toList) := by
      simp [renderLiteral]
    rw [htext]
    exact (lexesAlways_renderText k).append (hcolon.append (lexes_render hfirst))

end

/-! ## From tokens to documents -/

/-- A value does not begin with a closing bracket. -/
theorem written_eq_cons (j : Json) : ∃ t ts, written j = t :: ts ∧ ∀ stack,
    State.step (.firstItem stack) t = State.step (.value (.array [] :: stack)) t := by
  cases j <;> exact ⟨_, _, rfl, fun _ => rfl⟩

theorem exists_intercalate_eq_cons {α : Type} (sep : List α) (t : α) (ts : List α)
    (tss : List (List α)) : ∃ us, sep.intercalate ((t :: ts) :: tss) = t :: us := by
  cases tss with
  | nil => exact ⟨ts, List.intercalate_singleton⟩
  | cons us uss => exact ⟨_, by rw [List.intercalate_cons_cons]; rfl⟩

mutual

/-- **The tokens of a document are put together where a value may come.** -/
theorem foldlM_written (stack : List Open) :
    ∀ j : Json, (written j).foldlM State.step (.value stack) = State.place j stack
  | .null | .bool _ | .number _ | .string _ => bind_pure _
  | .array [] => bind_pure (State.place (.array []) stack)
  | .array (j :: rest) => by
    have hitems := foldlM_items [] stack (List.cons_ne_nil j rest)
    obtain ⟨t, ts, hj, hfirst⟩ := written_eq_cons j
    obtain ⟨us, hus⟩ := exists_intercalate_eq_cons [Token.comma] t ts (writtenItems rest)
    rw [writtenItems, hj, hus, List.cons_append, List.foldlM_cons, ← hfirst] at hitems
    rw [written, writtenItems, hj, hus]
    exact hitems
  | .object [] => bind_pure (State.place (.object []) stack)
  | .object ((k, j) :: rest) => by
    have hmembers := foldlM_members [] stack (List.cons_ne_nil (k, j) rest)
    obtain ⟨us, hus⟩ := exists_intercalate_eq_cons [Token.comma] (.string k) (.colon :: written j)
      (writtenMembers rest)
    rw [writtenMembers, hus] at hmembers
    rw [written, writtenMembers, hus]
    exact hmembers

/-- The items of an array, of which some are already read. -/
theorem foldlM_items (read : List Json) (stack : List Open) : ∀ {items : List Json}, items ≠ [] →
    ([Token.comma].intercalate (writtenItems items) ++ [Token.closeArray]).foldlM State.step
      (.value (.array read :: stack)) = State.place (.array (read.reverse ++ items)) stack
  | [], h => absurd rfl h
  | [j], _ => by
    rw [writtenItems, writtenItems, List.intercalate_singleton, List.foldlM_append,
      foldlM_written (.array read :: stack) j, ← List.reverse_cons]
    exact bind_pure (State.place (.array (j :: read).reverse) stack)
  | j :: k :: rest, _ => by
    have hrest := foldlM_items (j :: read) stack (List.cons_ne_nil k rest)
    rw [List.reverse_cons, List.append_assoc, List.singleton_append] at hrest
    rw [writtenItems, writtenItems, List.intercalate_cons_cons, List.append_assoc,
      List.append_assoc, List.foldlM_append, foldlM_written (.array read :: stack) j]
    exact hrest

/-- The members of an object, of which some are already read. -/
theorem foldlM_members (read : List (Literal × Json)) (stack : List Open) :
    ∀ {members : List (Literal × Json)}, members ≠ [] →
    ([Token.comma].intercalate (writtenMembers members) ++ [Token.closeObject]).foldlM State.step
      (.key read stack) = State.place (.object (read.reverse ++ members)) stack
  | [], h => absurd rfl h
  | [(k, j)], _ => by
    have hmember : (Token.string k :: .colon :: written j).foldlM State.step (.key read stack) =
        some (.separator (.object ((k, j) :: read)) stack) :=
      foldlM_written (.member read k :: stack) j
    rw [writtenMembers, writtenMembers, List.intercalate_singleton, List.foldlM_append, hmember,
      ← List.reverse_cons]
    exact bind_pure (State.place (.object ((k, j) :: read).reverse) stack)
  | (k, j) :: m :: rest, _ => by
    have hmember : (Token.string k :: .colon :: written j).foldlM State.step (.key read stack) =
        some (.separator (.object ((k, j) :: read)) stack) :=
      foldlM_written (.member read k :: stack) j
    have hrest := foldlM_members ((k, j) :: read) stack (List.cons_ne_nil m rest)
    rw [List.reverse_cons, List.append_assoc, List.singleton_append] at hrest
    rw [writtenMembers, writtenMembers, List.intercalate_cons_cons, List.append_assoc,
      List.append_assoc, List.foldlM_append, hmember]
    exact hrest

end

/-- **A plain document is read back from its text.** -/
theorem parse?_render {j : Json} (h : Plain j) : parse? (render j) = some j := by
  have htokens : tokens (render j).toList = some (written j) := by
    have hlexes := lexes_render h [] endsNumber_nil
    rwa [List.append_nil, tokens, Option.map_some, List.append_nil] at hlexes
  rw [parse?, htokens]
  change ofTokens? (written j) = some j
  rw [ofTokens?, foldlM_written [] j]
  rfl

/-- What can be read from a document can be read from its text. -/
theorem parse_render {α : Type} [ReadJson α] {j : Json} (h : Plain j) :
    parse α (render j) = read j := by
  rw [parse, parse?_render h]

end Saboteur.Json
