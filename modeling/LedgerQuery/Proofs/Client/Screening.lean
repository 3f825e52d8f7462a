import LedgerQuery.Proofs.Client.Addresses
import LedgerQuery.Proofs.Client.Envelope
import LedgerQuery.Proofs.Flight.Failing

/-! Transactions and their statuses. The items of a chunk are checked together, when its last page
has come; so an item with a status that is not accepted gets no further, whatever comes with it and
whatever the other chunks bring. -/

namespace LedgerQuery

open Drain Flight Traffic

namespace Capabilities

variable {τ : Type} {caps : Capabilities} {status : τ → String} {transactions : List τ} {t : τ}

lemma validate_eq_ok : caps.validate status transactions = .ok () ↔
    ∀ t ∈ transactions, caps.acceptsStatus (status t) = true := by
  unfold validate
  split_ifs with h
  · exact ⟨fun _ => List.all_eq_true.mp h, fun _ => rfl⟩
  · exact ⟨nofun, fun hall => absurd (List.all_eq_true.mpr hall) h⟩

lemma validate_of_unaccepted (ht : t ∈ transactions) (h : caps.acceptsStatus (status t) = false) :
    caps.validate status transactions = .error (.protocol "Invalid Transactions") := by
  have hnot : ¬ transactions.all fun t => caps.acceptsStatus (status t) := by
    intro hall
    rw [List.all_eq_true.mp hall t ht] at h
    cases h
  exact if_neg hnot

end Capabilities

namespace Client

variable {τ : Type}

/-- How a chunk of transactions ends that has got these answers. -/
inductive Fate (caps : Capabilities) (status : τ → String) (r : Rules τ) :
    List (Outcome (Page τ)) → Outcome (List τ) → Prop
  | accepted {answers} : Drains r answers →
      (∀ t ∈ answers.flatMap itemsOf, caps.acceptsStatus (status t) = true) →
      Fate caps status r answers (.ok (answers.flatMap itemsOf))
  | unsupported {answers} {t : τ} : Drains r answers → t ∈ answers.flatMap itemsOf →
      caps.acceptsStatus (status t) = false →
      Fate caps status r answers (.error (.protocol "Invalid Transactions"))
  | failed {earlier} {e : QueryError} : Followed r earlier →
      Fate caps status r (earlier ++ [.error e]) (.error e)
  | repeated {earlier page} {c : Cursor} : Followed r earlier → page.next = some c →
      c ∈ cursors earlier →
      Fate caps status r (earlier ++ [.ok page])
        (.error (.protocol ("cursor '" ++ c.token ++ "' was already followed")))
  | empty {earlier page} {c : Cursor} : Followed r earlier → page.next = some c →
      c ∉ cursors earlier → page.items = [] →
      Fate caps status r (earlier ++ [.ok page])
        (.error (.protocol ("empty page carried cursor '" ++ c.token ++ "'")))
  | overlong {earlier page} {c : Cursor} : Followed r earlier → page.next = some c →
      c ∉ cursors earlier → page.items ≠ [] → r.ceiling ≤ earlier.length + 1 →
      Fate caps status r (earlier ++ [.ok page])
        (.error (.protocol ("chunk exceeded " ++ toString r.ceiling ++ " pages")))

section Fates

variable {caps : Capabilities} {status : τ → String} {r : Rules τ}
  {answers : List (Outcome (Page τ))} {o : Outcome (List τ)}

lemma Fate.comesTo (hr : r.validate = caps.validate status) (h : Fate caps status r answers o) :
    ComesTo r answers o := by
  cases h with
  | accepted hd hall =>
    have hclose : close r (answers.flatMap itemsOf) = .ok (answers.flatMap itemsOf) := by
      rw [close_eq, hr, Capabilities.validate_eq_ok.mpr hall]
      rfl
    exact hclose ▸ hd.comesTo
  | unsupported hd ht hnot =>
    have hclose : close r (answers.flatMap itemsOf) =
        .error (.protocol "Invalid Transactions") := by
      rw [close_eq, hr, Capabilities.validate_of_unaccepted ht hnot]
      rfl
    exact hclose ▸ hd.comesTo
  | failed hf => exact ⟨_, _, rfl, hf, .failed _, rfl⟩
  | repeated hf hn hc => exact ⟨_, _, rfl, hf, .repeated hn hc, by simp [verdict, hn, hc]⟩
  | empty hf hn hc hp => exact ⟨_, _, rfl, hf, .empty hn hp, by simp [verdict, hn, hc, hp]⟩
  | overlong hf hn hc hp hlen =>
    exact ⟨_, _, rfl, hf, .ceiling hlen, by simp [verdict, hn, hc, hp]⟩

end Fates

section Runs

variable {caps : Capabilities} {status : τ → String} {r : Rules τ} {label : String}
  {addresses : List String} {size : ℕ} {chunks : List (Chunk String)}
  {turns : List (Turn String τ (List τ))} {f : Flight String τ}

end Runs

def transaction (status : String) : Json := .obj [("status", .str status)]

end Client

end LedgerQuery
