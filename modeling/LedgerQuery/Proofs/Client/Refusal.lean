import LedgerQuery.Proofs.Client.Addresses
import LedgerQuery.Proofs.Simulation.Submission

/-! Questions about addresses that are refused. A session in which such questions are asked is the
session in which they are not. -/

namespace LedgerQuery

open Simulation

variable {τ : Type}

namespace AddressQuestion

def inquiry (c : Client) (a : AddressQuestion τ) : Inquiry τ := .resource a.name (a.fixed c) a.take

def submit (c : Client) (a : AddressQuestion τ) (addresses : List String) :
    Doing (Client.Outside τ) String τ (List τ) ℕ :=
  submitBulk a.name addresses c.settings.chunkSize ⟨c.settings.maxPagesPerChunk, a.validate c⟩
    fun o => { o with inquiries := o.inquiries ++ [a.inquiry c] }

lemma chunked_eq (c : Client) (name : String) (request : Request) (take : Json → Except String τ)
    (addresses : List String) (validate : List τ → Outcome Unit) :
    c.chunked name request take addresses validate =
      (Launch.chunked name addresses c.settings.chunkSize
        ⟨c.settings.maxPagesPerChunk, validate⟩).map
        fun l => ⟨.resource name request.params take, l⟩ := by
  simp only [Client.chunked]
  cases Launch.chunked name addresses c.settings.chunkSize _ <;> rfl

lemma ask_eq (c : Client) (a : AddressQuestion τ) (addresses : List String) :
    a.ask c addresses =
      (Launch.chunked a.name addresses c.settings.chunkSize
        ⟨c.settings.maxPagesPerChunk, a.validate c⟩).map fun l => ⟨a.inquiry c, l⟩ := by
  obtain ⟨request, hparams, hask⟩ := Client.ask_eq_chunked c a addresses
  rw [hask, chunked_eq, hparams]
  rfl

def asked (s : Client.Session τ) : Outcome (Client.Question τ) → Outcome ℕ × Client.Session τ
  | .error e => (.error e, s)
  | .ok q => (.ok s.roster.queries.length, s.ask q)

lemma submit_run (c : Client) (a : AddressQuestion τ) (addresses : List String)
    (s : Client.Session τ) : (a.submit c addresses).run.run s = asked s (a.ask c addresses) := by
  rw [submit, submitBulk_run, ask_eq]
  cases Launch.chunked a.name addresses c.settings.chunkSize _ <;> rfl

lemma submit_allOrNothing (c : Client) (a : AddressQuestion τ) (addresses : List String)
    (s : Client.Session τ) :
    AllOrNothing addresses c.settings.chunkSize s ((a.submit c addresses).run.run s) :=
  submitBulk_allOrNothing _ _ _ _ _ s

end AddressQuestion

namespace Client

inductive Command (τ : Type)
  | submit (a : AddressQuestion τ) (addresses : List String)
  | ask (q : Question τ)
  | run (most : Option ℕ)
  | advance (span : Span)
  | cancel
  | respond (more : List Response)

namespace Command

def perform (c : Client) (s : Session τ) : Command τ → Session τ
  | submit a addresses => ((a.submit c addresses).run.run s).2
  | ask q => s.ask q
  | run most => (s.run most).2
  | advance span => (s.advance span).2
  | cancel => s.cancel
  | respond more => s.respond more

def refused (c : Client) : Command τ → Bool
  | submit _ addresses => addresses.isEmpty || c.settings.chunkSize == 0
  | _ => false

lemma perform_refused {c : Client} {command : Command τ} (h : command.refused c) (s : Session τ) :
    command.perform c s = s := by
  cases command with
  | submit a addresses =>
    have hrefused : addresses = [] ∨ c.settings.chunkSize = 0 := by simpa [refused] using h
    have hdone := a.submit_allOrNothing c addresses s
    simp only [perform]
    generalize (a.submit c addresses).run.run s = done at hdone ⊢
    cases hdone with
    | refused _ => rfl
    | submitted hk hs _ => exact absurd hrefused (not_or.mpr ⟨hk, hs⟩)
  | _ => cases h

lemma foldl_perform (c : Client) (commands : List (Command τ)) (s : Session τ) :
    commands.foldl (perform c) s =
      (commands.filter fun command => !command.refused c).foldl (perform c) s := by
  induction commands generalizing s with
  | nil => rfl
  | cons command commands ih =>
    rw [List.foldl_cons, ih]
    by_cases h : command.refused c
    · rw [perform_refused h, List.filter_cons_of_neg (by simpa using h)]
    · rw [List.filter_cons_of_pos (by simpa using h), List.foldl_cons]

end Command

theorem bulk_all_or_nothing :
    (∀ {σ κ τ ν : Type} (label : String) (keys : List κ) (size : ℕ) (rules : Drain.Rules τ)
      (fetch : σ → σ) (s : Simulation σ κ τ ν),
      let done := (submitBulk label keys size rules fetch).run.run s
      done = s.started fetch (Launch.chunked label keys size rules) ∧
        AllOrNothing keys size s done) ∧
    (∀ {σ κ τ ν : Type} (keys : List κ) (size maxPages : ℕ) (fetch : σ → σ)
      (s : Simulation σ κ τ ν),
      let done := (bulkQuery keys size maxPages fetch).run.run s
      done = s.started fetch (Launch.chunked Launch.bulkLabel keys size { maxPages }) ∧
        AllOrNothing keys size s done) ∧
    (∀ {τ : Type} (c : Client) (a : AddressQuestion τ) (addresses : List String) (s : Session τ),
      let done := (a.submit c addresses).run.run s
      done = AddressQuestion.asked s (a.ask c addresses) ∧
        AllOrNothing addresses c.settings.chunkSize s done) ∧
    ∀ {τ : Type} (c : Client) (commands : List (Command τ)) (s : Session τ),
      commands.foldl (Command.perform c) s =
        (commands.filter fun command => !command.refused c).foldl (Command.perform c) s := by
  refine ⟨?_, ?_, ?_, fun c commands s => Command.foldl_perform c commands s⟩
  · intro σ κ τ ν label keys size rules fetch s
    exact ⟨submitBulk_run label keys size rules fetch s,
      submitBulk_allOrNothing label keys size rules fetch s⟩
  · intro σ κ τ ν keys size maxPages fetch s
    exact ⟨submitBulk_run Launch.bulkLabel keys size { maxPages } fetch s,
      submitBulk_allOrNothing Launch.bulkLabel keys size { maxPages } fetch s⟩
  · intro τ c a addresses s
    exact ⟨a.submit_run c addresses s, a.submit_allOrNothing c addresses s⟩

end Client

end LedgerQuery
