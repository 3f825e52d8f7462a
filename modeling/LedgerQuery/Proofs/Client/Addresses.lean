import LedgerQuery.Proofs.Client.Conversation
import LedgerQuery.Proofs.Client.Session
import LedgerQuery.Proofs.Flight.Bulk
import LedgerQuery.Proofs.Traffic.Projection

/-! The addresses of a question on the wire. Whatever the service answers, whenever calls are
cancelled and whatever else the client asks, each chunk of the addresses is sent once, with its own
parameters and no others, and every further request is the one that the page before refers to. -/

namespace LedgerQuery

open Flight Traffic

namespace Request

@[simp] lemma params_param (r : Request) (key value : String) :
    (r.param key value).params = r.params ++ [(key, value)] := rfl

@[simp] lemma params_param? (r : Request) (key : String) (value : Option String) :
    (r.param? key value).params = r.params ++ value.toList.map (key, ·) := by
  cases value with
  | none => simp [param?]
  | some value => rfl

end Request

variable {τ : Type}

inductive AddressQuestion (τ : Type) where
  | transfers (blockchain : String) (beginHeight endHeight maxPageSize : Option ℕ)
      (take : Json → Except String τ)
  | transactions (blockchain : String) (options : TransactionOptions)
      (take : Json → Except String τ) (status : τ → String)

namespace AddressQuestion

def name : AddressQuestion τ → String
  | transfers .. => "transfers"
  | transactions .. => "transactions"

def take : AddressQuestion τ → Json → Except String τ
  | transfers _ _ _ _ take => take
  | transactions _ _ take _ => take

def validate (c : Client) : AddressQuestion τ → List τ → Outcome Unit
  | transfers .. => fun _ => .ok ()
  | transactions _ _ _ status => c.capabilities.validate status

def ask (c : Client) (addresses : List String) :
    AddressQuestion τ → Outcome (Client.Question τ)
  | transfers blockchain beginHeight endHeight maxPageSize take =>
    c.transfers blockchain addresses beginHeight endHeight maxPageSize take
  | transactions blockchain options take status =>
    c.transactions blockchain addresses options take status

def heights (beginHeight endHeight : Option ℕ) : List (String × String) :=
  beginHeight.toList.map (fun h => ("start_height", toString h)) ++
    endHeight.toList.map (fun h => ("end_height", toString h))

def fixed (c : Client) : AddressQuestion τ → List (String × String)
  | transfers blockchain beginHeight endHeight maxPageSize _ =>
    [("blockchain_id", blockchain)] ++ heights beginHeight endHeight ++
      [("merge_currencies", "true"),
        ("max_page_size", toString (maxPageSize.getD c.settings.maxPageSize))]
  | transactions blockchain o _ _ =>
    [("blockchain_id", blockchain), ("include_proof", toString o.proof),
        ("include_raw", toString o.raw), ("include_transfers", toString o.transfers),
        ("is_sweep", toString o.sweep), ("include_calls", "false"), ("merge_currencies", "true")] ++
      heights o.beginHeight o.endHeight ++ [("max_page_size", toString (o.maxPageSize.getD
        ((if o.transfers then 1 else 3) * c.settings.maxPageSize % 2 ^ 64)))]

end AddressQuestion

namespace Inquiry

variable {q : Inquiry τ} {call : Call String τ}

def Makes : Inquiry τ → Call String τ → Prop
  | resource .., call => call.chunk?.isSome = true
  | account .., call => call.chunk? = none

lemma failure_cancelled (h : q.Makes call) :
    Answer.failure (.transport .cancelled) call = q.answer call (.error .cancelled) := by
  cases q with
  | resource name params take =>
    cases call with
    | page chunk progress => rfl
    | _ => cases h
  | account blockchain publicKey take =>
    cases call with
    | page chunk progress => cases h
    | _ => rfl

end Inquiry

namespace Client

lemma admitted_result {questions : List (Question τ)} {n : ℕ} {question : Question τ}
    {call : Call String τ} {answer : Answer τ (List τ)} (hq : questions[n]? = some question)
    (hm : question.inquiry.Makes call) (h : admitted (admits questions) n call answer) :
    ∃ result, answer = question.inquiry.answer call result := by
  rcases h with ⟨other, result, ho, rfl⟩ | rfl
  · obtain rfl : question = other := Option.some.inj (hq.symm.trans ho)
    exact ⟨result, rfl⟩
  · exact ⟨.error .cancelled, Inquiry.failure_cancelled hm⟩

/-- A page size whose triple fits into a word is the one that is meant. -/
lemma transactionPageSize_of_fits {c : Client} (h : 3 * c.settings.maxPageSize < 2 ^ 64)
    (o : TransactionOptions) : c.transactionPageSize o =
      o.maxPageSize.getD ((if o.transfers then 1 else 3) * c.settings.maxPageSize) := by
  have hfits : (if o.transfers then 1 else 3) * c.settings.maxPageSize < 2 ^ 64 := by
    split_ifs <;> omega
  exact congrArg o.maxPageSize.getD (Nat.mod_eq_of_lt hfits)

lemma ask_eq_chunked (c : Client) (a : AddressQuestion τ) (addresses : List String) :
    ∃ request, request.params = a.fixed c ∧
      a.ask c addresses = c.chunked a.name request a.take addresses (a.validate c) := by
  cases a with
  | transfers blockchain beginHeight endHeight maxPageSize take =>
    refine ⟨_, ?_, rfl⟩
    cases beginHeight <;> cases endHeight <;> rfl
  | transactions blockchain o take status =>
    refine ⟨_, ?_, rfl⟩
    obtain ⟨_ | beginHeight, _ | endHeight⟩ := o <;> rfl

lemma chunked_eq_ok {c : Client} {name : String} {request : Request}
    {take : Json → Except String τ} {addresses : List String} {validate : List τ → Outcome Unit}
    {chunks : List (Chunk String)}
    (h : Chunk.partition addresses c.settings.chunkSize = .ok chunks) :
    c.chunked name request take addresses validate =
      .ok ⟨.resource name request.params take,
        launching name c.settings.chunkSize ⟨c.settings.maxPagesPerChunk, validate⟩ chunks⟩ := by
  have hl : Launch.chunked name addresses c.settings.chunkSize
      ⟨c.settings.maxPagesPerChunk, validate⟩ = .ok (launching name c.settings.chunkSize
        ⟨c.settings.maxPagesPerChunk, validate⟩ chunks) :=
    Flight.chunked_eq_ok.mpr ⟨chunks, h, rfl⟩
  simp only [chunked, hl]
  rfl

lemma admitted_answersPages {questions : List (Question τ)} {n : ℕ} {question : Question τ}
    {name : String} {params : List (String × String)} {take : Json → Except String τ}
    (hq : questions[n]? = some question) (hi : question.inquiry = .resource name params take) :
    AnswersPages (admitted (admits questions) n) := by
  intro chunk progress answer h
  obtain ⟨result, rfl⟩ := admitted_result hq (by rw [hi]; rfl) h
  rw [hi]
  exact ⟨_, rfl⟩

end Client

end LedgerQuery
