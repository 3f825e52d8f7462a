import LedgerQuery.Client.Envelope
import LedgerQuery.Client.Request
import LedgerQuery.Number.Word
import LedgerQuery.Query.Launch
import LedgerQuery.Settings.Basic

/-!
The questions a client can ask the service: transfers, transactions, currencies, and the creation of
an account. A question fixes the requests of its query and how their responses are understood; the
caller says how an item is taken from a value. The items of all questions of a client are of one
type, which has all that any of them may ask for.
-/

namespace LedgerQuery

/-- What a query asks: the items of a resource, chunk by chunk and page by page, or an account that
is created first and then looked for. -/
inductive Inquiry (τ : Type) where
  | resource (name : String) (params : List (String × String)) (take : Json → Except String τ)
  | account (blockchain publicKey : String) (take : Json → Except String τ)

namespace Inquiry

variable {τ : Type}

def accounts : String := "accounts"

def firstPage (name : String) (params : List (String × String)) (chunk : Chunk String) : Request :=
  chunk.keys.foldl (fun r address => r.param "address" address) { Request.get name with params }

def page (name : String) (params : List (String × String)) (chunk : Chunk String)
    (cursor : Option Cursor) : Request :=
  match cursor with
  | some cursor => .follow cursor
  | none => firstPage name params chunk

def creation (blockchain publicKey : String) : Request :=
  .post accounts (.ofMembers [("blockchain_id", .str blockchain), ("pub_key", .str publicKey)])

def search (blockchain publicKey : String) : Request :=
  ((Request.get accounts).param "blockchain_id" blockchain).param "pub_key" publicKey

def request : Inquiry τ → Call String τ → Request
  | resource name params _, .page chunk progress => page name params chunk progress.cursor
  | resource name _ _, _ => .get name
  | account blockchain publicKey _, .create => creation blockchain publicKey
  | account blockchain publicKey _, _ => search blockchain publicKey

def found : Outcome (Page τ) → Outcome (Option (List τ))
  | .ok page => .ok (if page.items.isEmpty then none else some page.items)
  | .error e => .error e

def pageOf (name : String) (take : Json → Except String τ) :
    Except TransportError (List UInt8) → Outcome (Page τ)
  | .ok bytes => Envelope.readPageBy bytes name take
  | .error e => .error (.transport e)

def answer (q : Inquiry τ) (call : Call String τ)
    (result : Except TransportError (List UInt8)) : Answer τ (List τ) :=
  match q, call with
  | resource name _ take, _ => .page (pageOf name take result)
  | account _ _ _, .create =>
    .probe (match result with
      | .ok _ => .ok none
      | .error e => .error (.ofSubmission e))
  | account _ _ take, _ => .probe (found (pageOf accounts take result))

end Inquiry

structure TransactionOptions where
  beginHeight : Option Nat := none
  endHeight : Option Nat := none
  raw : Bool := false
  proof : Bool := false
  transfers : Bool := false
  sweep : Bool := false
  maxPageSize : Option Nat := none
deriving DecidableEq, Repr, Inhabited

structure Client where
  settings : Settings := {}
  capabilities : Capabilities := {}
deriving DecidableEq, Repr, Inhabited

namespace Client

variable {τ : Type}

structure Question (τ : Type) where
  inquiry : Inquiry τ
  launch : Launch String τ

def truth (b : Bool) : String := toString b

def number (n : Option Nat) : Option String := n.map toString

def chunked (c : Client) (name : String) (request : Request) (take : Json → Except String τ)
    (addresses : List String) (validate : List τ → Outcome Unit) : Outcome (Question τ) := do
  let rules : Drain.Rules τ := ⟨c.settings.maxPagesPerChunk, validate⟩
  let launch ← Launch.chunked name addresses c.settings.chunkSize rules
  .ok ⟨.resource name request.params take, launch⟩

def transfers (c : Client) (blockchain : String) (addresses : List String)
    (beginHeight endHeight maxPageSize : Option Nat) (take : Json → Except String τ) :
    Outcome (Question τ) :=
  let request := Request.get "transfers"
    |>.param "blockchain_id" blockchain
    |>.param? "start_height" (number beginHeight)
    |>.param? "end_height" (number endHeight)
    |>.param "merge_currencies" (truth true)
    |>.param "max_page_size" (toString (maxPageSize.getD c.settings.maxPageSize))
  c.chunked "transfers" request take addresses fun _ => .ok ()

/-- The greatest page size for transactions: without their transfers they are short, and three
times as many fit on a page. The product is a word; its upper bits are lost, unless the program is
one that stops at an overflow. -/
def transactionPageSize (c : Client) (o : TransactionOptions) : Nat :=
  o.maxPageSize.getD (Word.wrap ((if o.transfers then 1 else 3) * c.settings.maxPageSize))

def transactions (c : Client) (blockchain : String) (addresses : List String)
    (o : TransactionOptions) (take : Json → Except String τ) (status : τ → String) :
    Outcome (Question τ) :=
  let request := Request.get "transactions"
    |>.param "blockchain_id" blockchain
    |>.param "include_proof" (truth o.proof)
    |>.param "include_raw" (truth o.raw)
    |>.param "include_transfers" (truth o.transfers)
    |>.param "is_sweep" (truth o.sweep)
    |>.param "include_calls" (truth false)
    |>.param "merge_currencies" (truth true)
    |>.param? "start_height" (number o.beginHeight)
    |>.param? "end_height" (number o.endHeight)
    |>.param "max_page_size" (toString (c.transactionPageSize o))
  c.chunked "transactions" request take addresses (c.capabilities.validate status)

def currencies (c : Client) (blockchain : Option String) (mainnet : Option Bool)
    (take : Json → Except String τ) : Question τ :=
  let request := Request.get "currencies"
    |>.param? "blockchain_id" blockchain
    |>.param? "testnet" (mainnet.map fun m => truth !m)
    |>.param "verified" (truth true)
  ⟨.resource "currencies" request.params take,
    .paged "currencies" { maxPages := c.settings.maxPagesPerChunk }⟩

def account (c : Client) (blockchain publicKey : String) (take : Json → Except String τ) :
    Question τ :=
  ⟨.account blockchain publicKey take,
    .createAndAwait Inquiry.accounts c.settings.retry.policy c.settings.retry.initialDelay⟩

end Client

end LedgerQuery
