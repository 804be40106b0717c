import Saboteur.Node.Client
import Saboteur.Proofs.Bytes.Reading

/-!
# What refusals say

A reply has a status, and the body of a refusal may be a message with a code of its own. Where there
is such a message its code is taken for the status, so a block counts as missing if the code that the
refusal speaks with is 404, whatever its status. The two agree for all replies but those whose
message has another code than the status.
-/

namespace Saboteur.Delivery

/-- The code that a refusal speaks with: the one in its message, or else its status. -/
def spokenCode (status : Nat) (body : String) : Nat :=
  match Json.parse ErrorMessage body with
  | .ok m => m.code
  | .error _ => status

/-- **A refusal has the status that it speaks with.** -/
theorem status?_refusal_eq_some_iff {status code : Nat} (hcode : NodeError.isStatus code = true)
    (body : String) :
    (refusal status body).status? = some code ↔ spokenCode status body = code := by
  unfold refusal spokenCode
  cases Json.parse ErrorMessage body with
  | ok m =>
    simp only [NodeError.status?]
    by_cases hstatus : NodeError.isStatus m.code = true
    · rw [if_pos hstatus, Option.some.injEq]
    · rw [if_neg hstatus]
      refine iff_of_false nofun fun heq => hstatus ?_
      rw [heq]
      exact hcode
  | error e => simp only [NodeError.status?, Option.some.injEq]

variable {α : Type} [ReadJson α] {status : Nat} {body : String}

theorem documentIfFound_of_ok : documentIfFound α (.reply 200 body) = (documentOf α body).map some :=
  rfl

theorem documentIfFound_of_refusal (h : status ≠ 200) :
    documentIfFound α (.reply status body) =
      if spokenCode status body = 404 then .ok none else .error (refusal status body) := by
  have hspoken := @status?_refusal_eq_some_iff status 404 rfl body
  simp only [documentIfFound, answer, if_neg h, hspoken]

theorem documentIfFound_eq_some_iff {a : α} :
    documentIfFound α (.reply status body) = .ok (some a) ↔
      status = 200 ∧ Json.parse α body = .ok a := by
  by_cases h : status = 200
  · subst h
    rw [documentIfFound_of_ok, map_eq_ok_iff, documentOf, and_iff_right rfl]
    simp only [Option.some.injEq, exists_eq_right, mapError_eq_ok_iff]
  · rw [documentIfFound_of_refusal h]
    refine iff_of_false ?_ fun hfound => h hfound.1
    split <;> nofun

theorem documentIfFound_eq_none_iff :
    documentIfFound α (.reply status body) = .ok none ↔
      status ≠ 200 ∧ spokenCode status body = 404 := by
  by_cases h : status = 200
  · subst h
    rw [documentIfFound_of_ok, map_eq_ok_iff]
    refine iff_of_false ?_ fun hmissing => hmissing.1 rfl
    rintro ⟨a, -, hnone⟩
    cases hnone
  · rw [documentIfFound_of_refusal h, and_iff_right h]
    split
    · rename_i hspoken
      exact iff_of_true rfl hspoken
    · rename_i hspoken
      exact iff_of_false nofun hspoken

theorem answer_eq_error_iff {e : NodeError} :
    (reply status body).answer = .error e ↔ status ≠ 200 ∧ refusal status body = e := by
  rw [answer]
  split
  · rename_i h
    exact iff_of_false nofun fun hrefused => hrefused.1 h
  · rename_i h
    rw [and_iff_right h, Except.error.injEq]

/-- **A block is missing if the refusal speaks with 404.** A root comes from a reply of status 200
that holds one, and every reply that gives neither is a failure. So a block is missing exactly for
the status 404 unless the refusal speaks with another code and one of the two is 404, and a refusal
carries the status of its reply unless it speaks with another one. -/
theorem blockRoot_missing_iff_spokenCode (c : NodeClient) (id : BlockId) (status : Nat)
    (body : String) (hstatus : NodeError.isStatus status = true) :
    let answer := (c.blockRoot id).decode (.reply status body)
    (∀ root, answer = .ok (some root) ↔
      status = 200 ∧ Json.parse (Enclosed RootData) body = .ok root) ∧
    (answer = .ok none ↔ status ≠ 200 ∧ spokenCode status body = 404) ∧
    ((∃ e, answer = .error e) ↔
      if status = 200 then ∀ root, Json.parse (Enclosed RootData) body ≠ .ok root
      else spokenCode status body ≠ 404) ∧
    ((answer = .ok none ↔ status = 404) ↔
      status = 200 ∨ (spokenCode status body = 404 ↔ status = 404)) ∧
    ((∀ e, (reply status body).answer = .error e → e.status? = some status) ↔
      status = 200 ∨ spokenCode status body = status) := by
  have hsome : ∀ root, (c.blockRoot id).decode (.reply status body) = .ok (some root) ↔
      status = 200 ∧ Json.parse (Enclosed RootData) body = .ok root := fun root =>
    documentIfFound_eq_some_iff
  have hnone : (c.blockRoot id).decode (.reply status body) = .ok none ↔
      status ≠ 200 ∧ spokenCode status body = 404 := documentIfFound_eq_none_iff
  refine ⟨hsome, hnone, ?_, ?_, ?_⟩
  · -- a failure is what is neither of the two
    have hfailed : (∃ e, (c.blockRoot id).decode (.reply status body) = .error e) ↔
        ¬ (c.blockRoot id).decode (.reply status body) = .ok none ∧
          ∀ root, ¬ (c.blockRoot id).decode (.reply status body) = .ok (some root) := by
      rcases (c.blockRoot id).decode (.reply status body) with e | (- | root) <;> simp
    rw [hfailed, hnone]
    simp only [hsome]
    by_cases h : status = 200 <;> simp [h]
  · rw [hnone]
    by_cases h : status = 200 <;> simp [h]
  · rw [← status?_refusal_eq_some_iff hstatus, Decidable.or_iff_not_imp_left]
    simp only [answer_eq_error_iff, and_imp]
    exact ⟨fun h hne => h _ hne rfl, fun h e hne he => he ▸ h hne⟩

/-- A node on the same host. -/
def localNode : NodeClient where
  address := ⟨⟨"http", some ⟨"", "", .domain "localhost", some 5052⟩, .segments [""], none, none⟩,
    "http://localhost:5052/"⟩
  patience := 5000

/-- The body of a refusal with a code. -/
def messageBody (code : Nat) : String := "\x7b\"code\":" ++ Nat.repr code ++ ",\"message\":\"\"\x7d"

theorem blockRoot_missing_iff_spokenCode_localNode :
    NodeError.isStatus 404 = true ∧ spokenCode 404 (messageBody 500) = 500 ∧
      ¬ (localNode.blockRoot .head).decode (.reply 404 (messageBody 500)) = .ok none := by
  have hlaw := (blockRoot_missing_iff_spokenCode localNode .head 404 (messageBody 500) rfl).2.1
  have hspoken : spokenCode 404 (messageBody 500) = 500 := by decide +kernel
  refine ⟨rfl, hspoken, fun hmissing => ?_⟩
  rw [hlaw, hspoken] at hmissing
  exact absurd hmissing.2 (by decide)

/-- **A missing block is a failure if the message says so, and a failure is a missing block.** -/
theorem missing_block_by_message :
    (localNode.blockRoot .head).decode (.reply 404 (messageBody 500)) =
        .error (.serverMessage ⟨500, "", []⟩) ∧
      (NodeError.serverMessage ⟨500, "", []⟩).status? = some 500 ∧
      (localNode.blockRoot .head).decode (.reply 500 (messageBody 404)) = .ok none := by
  have hrefused : documentIfFound (Enclosed RootData) (.reply 404 (messageBody 500)) =
      .error (refusal 404 (messageBody 500)) :=
    (documentIfFound_of_refusal (by decide)).trans (if_neg (by decide +kernel))
  have hmessage : refusal 404 (messageBody 500) = .serverMessage ⟨500, "", []⟩ := by
    decide +kernel
  have hmissing : documentIfFound (Enclosed RootData) (.reply 500 (messageBody 404)) = .ok none :=
    documentIfFound_eq_none_iff.2 ⟨by decide, by decide +kernel⟩
  exact ⟨hmessage ▸ hrefused, rfl, hmissing⟩

end Saboteur.Delivery
