import Flowchart.Proofs.History

/-!
# What a run depends on

Polls, answers to nothing and all that a reset has discarded leave no trace in a session. What is
left of the calls once they are taken out leads a new session to the same state by the same
outcomes.
-/

namespace Flowchart

namespace Moment

/-- The answer that the step takes: an answer to nothing is passed over. -/
def heard (moment : Moment) : Option String :=
  if moment.session.registers.status = .waiting then moment.answer else none

end Moment

namespace Session

/-- The calls that counted since the last reset, without the answers that were passed over. -/
def essential (session : Session) (calls : List Call) : List Call :=
  (session.countedSteps calls).map fun moment => .step moment.heard

theorem step_of_not_waiting {session : Session} (hnot : session.registers.status ≠ .waiting)
    (answer : Option String) : session.step answer = session.step none := by
  cases hphase : session.phase with
  | notStarted => rw [step_of_notStarted hphase, step_of_notStarted hphase]
  | running id => rw [step_of_running hphase, step_of_running hphase]
  | waiting id question => exact absurd (by rw [registers, hphase]; rfl) hnot
  | completed place =>
      have hfinished : session.phase.isFinished := by rw [hphase]; rfl
      rw [step_of_finished hfinished, step_of_finished hfinished]
  | failed place failure =>
      have hfinished : session.phase.isFinished := by rw [hphase]; rfl
      rw [step_of_finished hfinished, step_of_finished hfinished]

/-- An answer that is passed over makes no difference. -/
theorem step_heard (session : Session) (answer : Option String) :
    session.step (Moment.heard ⟨session, answer⟩) = session.step answer := by
  unfold Moment.heard
  by_cases hwaiting : session.registers.status = .waiting
  · rw [if_pos hwaiting]
  · rw [if_neg hwaiting, step_of_not_waiting hwaiting answer]

end Session

/-- The counted steps of a run, taken by a new session with the answers that they heard, meet the
same sessions again. -/
theorem Run.replay {graph : Graph} {limit : Nat} {moments : List Moment} {session : Session}
    (h : Run graph limit moments session) :
    (Session.new graph limit).afterAll (moments.map fun moment => .step moment.heard) = session
      ∧ (Session.new graph limit).history (moments.map fun moment => .step moment.heard)
        = moments.map fun moment => ⟨moment.session, moment.heard⟩ := by
  induction h with
  | new => exact ⟨rfl, rfl⟩
  | step hrun answer hcounted ih =>
      obtain ⟨hsession, hhistory⟩ := ih
      rw [List.map_append, List.map_append, List.map_singleton, List.map_singleton,
        Session.afterAll_concat, Session.history_step, hsession, hhistory, Session.after,
        Session.step_heard]
      exact ⟨rfl, rfl⟩

/-- **A run depends on what counts alone.** Whatever calls a session takes, a new session that takes
the essential ones among them comes to the same state, in its registers as well, and has the
outcomes that the counted calls had. -/
theorem essential_suffices (graph : Graph) (limit : Nat) (calls : List Call) :
    let session := Session.new graph limit
    session.afterAll (session.essential calls) = session.afterAll calls
      ∧ (session.history (session.essential calls)).map Moment.outcome
        = (session.countedSteps calls).map Moment.outcome
      ∧ ∃ registers, Registers.callAll graph limit calls .initial = .ok ((), registers)
        ∧ Registers.callAll graph limit (session.essential calls) .initial = .ok ((), registers) := by
  intro session
  have hnew := Session.valid_new graph limit
  obtain ⟨hsession, hhistory⟩ := (run_countedSteps graph limit calls).replay
  have hregisters := hnew.callAll_registers (session.essential calls)
  rw [Session.essential, hsession] at hregisters
  refine ⟨hsession, ?_, _, hnew.callAll_registers calls, hregisters⟩
  rw [Session.essential, hhistory, List.map_map]
  refine List.map_congr_left fun moment _ => ?_
  exact congrArg Turn.outcome (Session.step_heard moment.session moment.answer)

/-- Of a stray answer, a poll and all that came before the reset nothing is left. -/
example :
    let graph : Graph :=
      ⟨[⟨0, .start, "", ""⟩, ⟨1, .io, "ask", "input(n)"⟩], [⟨0, 1, none⟩],
        ⟨0, .start, "", ""⟩, by decide, by decide, by decide⟩
    (Session.new graph 9).essential
        [.step none, .reset, .step none, .step (some "stray"), .step none, .step (some "7")]
      = [.step none, .step none, .step (some "7")] := by
  decide +kernel

end Flowchart
