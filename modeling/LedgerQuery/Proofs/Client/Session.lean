import LedgerQuery.Client.Session
import LedgerQuery.Proofs.Simulation.Schedule

/-! The sessions of a client. What a session does on virtual time and over its wire is traffic of
the queries behind its questions. -/

namespace LedgerQuery

namespace Client

variable {τ : Type}

def admits (questions : List (Question τ)) (n : ℕ) (call : Call String τ)
    (answer : Answer τ (List τ)) : Prop :=
  ∃ question result, questions[n]? = some question ∧
    answer = question.inquiry.answer call result

def Asked (questions : List (Question τ)) (o : Outside τ) : Prop :=
  o.inquiries = questions.map (·.inquiry)

inductive Held (wire : Wire) : List (Question τ) → Session τ → Prop
  | start : Held wire [] (.start wire)
  | ask {questions s} (q : Question τ) : Held wire questions s →
      Held wire (questions ++ [q]) (s.ask q)
  | run {questions s} (most : Option ℕ) : Held wire questions s →
      Held wire questions (s.run most).2
  | advance {questions s} (span : Span) : Held wire questions s →
      Held wire questions (s.advance span).2
  | cancel {questions s} : Held wire questions s → Held wire questions s.cancel
  | respond {questions s} (more : List Response) : Held wire questions s →
      Held wire questions (s.respond more)

lemma admits_append {questions : List (Question τ)} (more : List (Question τ)) {n : ℕ}
    {call : Call String τ} {answer : Answer τ (List τ)}
    (h : admits questions n call answer) : admits (questions ++ more) n call answer := by
  obtain ⟨question, result, hq, ha⟩ := h
  have hlt : n < questions.length := (List.getElem?_eq_some_iff.mp hq).1
  exact ⟨question, result, by rw [List.getElem?_append_left hlt, hq], ha⟩

lemma outside_serves (questions : List (Question τ)) :
    Serves Outside.service (Asked questions) (admits questions) := by
  refine ⟨fun {o} ho now n call => ?_, fun {o} ho now n call answer ha => ?_⟩
  · cases hr : o.request n call with
    | none => simpa [Outside.service, Outside.ask, hr] using ho
    | some asked => simpa [Outside.service, Outside.ask, hr, Asked] using ho
  · cases hq : questions[n]? with
    | none =>
      have hr : o.request n call = none := by
        rw [Outside.request, ho, List.getElem?_map, hq]
        rfl
      simp [Outside.service, Outside.ask, hr] at ha
    | some question =>
      have hr : o.request n call = some (question.inquiry, question.inquiry.request call) := by
        rw [Outside.request, ho, List.getElem?_map, hq]
        rfl
      simp only [Outside.service, Outside.ask, hr] at ha
      obtain ⟨result, -, rfl⟩ := Option.map_eq_some_iff.mp ha
      exact ⟨question, result, hq, rfl⟩

theorem held_traffic {wire : Wire} {questions : List (Question τ)} {s : Session τ}
    (h : Held wire questions s) :
    Simulation.Orderly (Asked questions) (admits questions) s ∧
      ∃ moves : List (Move String τ (List τ)),
        Traffic.launches moves = questions.map (·.launch) ∧
        Traffic.Run (admits questions) {} moves s.traffic := by
  induction h with
  | start => exact ⟨⟨rfl, rfl, List.nodup_nil, nofun, nofun⟩, [], rfl, .nil⟩
  | @ask questions s q _ ih =>
    obtain ⟨ho, moves, hmoves, hrun⟩ := ih
    have hadmits (n : ℕ) (call : Call String τ) (answer : Answer τ (List τ))
        (h : admits questions n call answer) : admits (questions ++ [q]) n call answer :=
      admits_append [q] h
    have hservice : Asked (questions ++ [q])
        { s.service with inquiries := s.service.inquiries ++ [q.inquiry] } := by
      rw [Asked, ho.service, List.map_append]
      rfl
    obtain ⟨hasked, ht⟩ := Simulation.launch_follows (ho.serve hservice hadmits) q.launch
    refine ⟨hasked, moves ++ [.launched q.launch], ?_, ?_⟩
    · rw [Traffic.launches_append, hmoves, List.map_append]
      rfl
    · exact ht ▸ (hrun.mono hadmits).launch q.launch
  | @run questions s most _ ih =>
    obtain ⟨ho, moves, hmoves, hrun⟩ := ih
    obtain ⟨hran, more, hmore, hrun'⟩ := Simulation.run_follows (outside_serves questions) ho most
    refine ⟨hran, moves ++ more, ?_, hrun.trans hrun'⟩
    rw [Traffic.launches_append, hmoves, hmore, List.append_nil]
  | @advance questions s span _ ih =>
    obtain ⟨ho, moves, hmoves, hrun⟩ := ih
    obtain ⟨hran, more, hmore, hrun'⟩ :=
      Simulation.advance_follows (outside_serves questions) ho span
    refine ⟨hran, moves ++ more, ?_, hrun.trans hrun'⟩
    rw [Traffic.launches_append, hmoves, hmore, List.append_nil]
  | cancel _ ih =>
    obtain ⟨ho, moves, hmoves, hrun⟩ := ih
    obtain ⟨hcancelled, ht⟩ := Simulation.cancelAll_follows ho
    refine ⟨hcancelled, moves ++ [.cancelled], ?_, ht ▸ hrun.cancel⟩
    rw [Traffic.launches_append, hmoves]
    exact List.append_nil _
  | respond more _ ih =>
    obtain ⟨ho, moves, hmoves, hrun⟩ := ih
    exact ⟨ho.serve ho.service fun _ _ _ h => h, moves, hmoves, hrun⟩

end Client

end LedgerQuery
