import LedgerQuery.Number.Binary64

/-!
Counters of everything that queries do. They have 64 bits and wrap around.
-/

namespace LedgerQuery

inductive Count where
  | queryStarted
  | queryFinished (ok : Bool)
  | chunkFinished (ok : Bool)
  | page
  | lateSignal
  | retryAttempt
  | retryExhausted
deriving DecidableEq, Repr

structure Counters where
  started : UInt64 := 0
  succeeded : UInt64 := 0
  failed : UInt64 := 0
  chunksCompleted : UInt64 := 0
  chunksFailed : UInt64 := 0
  pages : UInt64 := 0
  lateSignals : UInt64 := 0
  attempts : UInt64 := 0
  exhausted : UInt64 := 0
deriving DecidableEq, Repr, Inhabited

namespace Counters

def record (m : Counters) : Count → Counters
  | .queryStarted => { m with started := m.started + 1 }
  | .queryFinished true => { m with succeeded := m.succeeded + 1 }
  | .queryFinished false => { m with failed := m.failed + 1 }
  | .chunkFinished true => { m with chunksCompleted := m.chunksCompleted + 1 }
  | .chunkFinished false => { m with chunksFailed := m.chunksFailed + 1 }
  | .page => { m with pages := m.pages + 1 }
  | .lateSignal => { m with lateSignals := m.lateSignals + 1 }
  | .retryAttempt => { m with attempts := m.attempts + 1 }
  | .retryExhausted => { m with exhausted := m.exhausted + 1 }

def recordAll (m : Counters) (counts : List Count) : Counters := counts.foldl record m

def successRate (m : Counters) : Binary64 :=
  let finished := m.succeeded + m.failed
  if finished = 0 then .zero
  else ((Binary64.ofNat m.succeeded.toNat).div (.ofNat finished.toNat)).mul (.ofNat 100)

def line (depth : Nat) (name value : String) : String :=
  String.ofList (List.replicate (2 * depth) ' ') ++ "\"" ++ name ++ "\": " ++ value

def block (depth : Nat) (lines : List String) : String :=
  "\x7b\n" ++ String.intercalate ",\n" lines ++ "\n" ++
    String.ofList (List.replicate (2 * depth) ' ') ++ "\x7d"

def report (m : Counters) (timestamp uptime rate : String) : String :=
  let number (name : String) (n : UInt64) : String := line 2 name (toString n.toNat)
  block 0 [
    line 1 "timestamp" timestamp,
    line 1 "uptime_ms" uptime,
    line 1 "queries" (block 1 [number "started" m.started, number "succeeded" m.succeeded,
      number "failed" m.failed, line 2 "success_rate" rate]),
    line 1 "chunks" (block 1 [number "completed" m.chunksCompleted,
      number "failed" m.chunksFailed, number "pages_fetched" m.pages,
      number "late_signals_dropped" m.lateSignals]),
    line 1 "retries" (block 1 [number "attempts" m.attempts, number "exhausted" m.exhausted])]

end Counters

end LedgerQuery
