import Flowchart.Proofs.SessionInvariant

/-!
# What outcomes say

An outcome tells what its call did to the session: that nothing changed, where the run goes on, what
it waits for, or how it ended. A driver that only looks at outcomes therefore knows the state.
-/

namespace Flowchart

def Outcome.Describes (graph : Graph) (after : Registers) : Outcome → Prop
  | started _ next | advanced _ next | branched _ _ _ _ next _ | resumed _ _ next =>
    after.current = next ∧ after.status = if next.isNone then .completed else .running
  | suspended node prompt =>
    after.status = .waiting ∧ after.current = some node
      ∧ after.pending.map Directive.prompt = some prompt
  | finished id =>
    after.status = .completed ∧ after.current = some id
      ∧ ∃ node, graph.node? id = some node ∧ node.kind = .finish
  | failed failure => after.status = .failed ∧ after.error = some failure
  | idle => True

/-- An outcome and the registers before and after its call agree. -/
structure Outcome.Agrees (graph : Graph) (answer : Option String) (before : Registers)
    (outcome : Outcome) (after : Registers) : Prop where
  idle_iff_unchanged : outcome = .idle ↔ after = before
  idle_iff : outcome = .idle ↔ before.status = .completed ∨ before.status = .failed
    ∨ before.status = .waiting ∧ answer = none
  counted : outcome ≠ .idle → after.steps = before.steps + 1
  describes : outcome.Describes graph after

namespace Session

variable {session : Session} {answer : Option String} {turn : Turn}

theorem responds_iff : session.Responds answer ↔ ¬ (session.registers.status = .completed
    ∨ session.registers.status = .failed ∨ session.registers.status = .waiting ∧ answer = none) := by
  have hiff : session.Responds answer ↔ session.phase.isFinished = false
      ∧ (session.phase.question?.isSome → answer.isSome) :=
    ⟨fun h => ⟨h.active, h.answered⟩, fun h => ⟨h.1, h.2⟩⟩
  rw [hiff, registers]
  cases session.phase <;>
    simp [Phase.status, Phase.isFinished, Phase.question?, Option.isSome_iff_ne_none]

/-- What an act says of the registers is so. -/
theorem Acts.describes (h : session.Acts turn) :
    turn.outcome ≠ .idle ∧ turn.session.steps = session.steps
      ∧ turn.outcome.Describes session.graph turn.session.registers := by
  cases h with
  | left hnext htarget =>
      rename_i outcome lines environment next
      refine ⟨?_, rfl, ?_⟩
      · rintro hidle
        change outcome = .idle at hidle
        simp [hidle, Outcome.next?] at hnext
      · rw [Registers.registers_following]
        change outcome.Describes _ _
        cases outcome <;> cases hnext <;> exact ⟨rfl, rfl⟩
  | asked hnode hkind hquestion => exact ⟨by simp [Session.turn], rfl, rfl, rfl, rfl⟩
  | ended hnode hkind => exact ⟨by simp [Session.turn], rfl, rfl, rfl, _, hnode, hkind⟩
  | broken _ _ => exact ⟨by simp [fail, Session.turn], rfl, rfl, rfl⟩

/-- The outcome of a counted call agrees with the registers, given what it says of those after it. -/
theorem agrees_of_counted {outcome : Outcome} {after : Registers}
    (hresponds : session.Responds answer) (hne : outcome ≠ .idle)
    (hsteps : after.steps = session.steps + 1) (hdescribes : outcome.Describes session.graph after) :
    outcome.Agrees session.graph answer session.registers after := by
  have hchanged : after ≠ session.registers := by
    rintro rfl
    change session.steps = session.steps + 1 at hsteps
    omega
  exact
    { idle_iff_unchanged := by simp [hne, hchanged]
      idle_iff := by simpa [hne] using responds_iff.mp hresponds
      counted := fun _ => hsteps
      describes := hdescribes }

/-- The outcome of a step agrees with the registers before and after it. -/
theorem Valid.agrees (h : session.Valid) (answer : Option String) :
    (session.step answer).outcome.Agrees session.graph answer session.registers
      (session.step answer).session.registers := by
  have hmoves := h.moves_step answer
  generalize session.step answer = turn at *
  cases hmoves with
  | idle hidle =>
      have hstatus := not_not.mp fun hnot => hidle (responds_iff.mpr hnot)
      exact
        { idle_iff_unchanged := by simp [Session.idle]
          idle_iff := by simpa [Session.idle] using hstatus
          counted := fun hne => absurd rfl hne
          describes := trivial }
  | exceeded hresponds _ =>
      exact agrees_of_counted hresponds (by simp [fail, Session.turn]) rfl ⟨rfl, rfl⟩
  | started hphase _ =>
      obtain ⟨hne, hsteps, hdescribes⟩ := session.count.acts_start.describes
      exact agrees_of_counted (responds_notStarted hphase) hne hsteps hdescribes
  | acted _ hresponds _ hacts =>
      obtain ⟨hne, hsteps, hdescribes⟩ := hacts.describes
      exact agrees_of_counted hresponds hne hsteps hdescribes

end Session

/-- **Outcomes.** Whatever calls a session has taken, the next step meets no defect on its registers,
and its outcome agrees with the registers before and after it. -/
theorem step_agrees (graph : Graph) (limit : Nat) (calls : List Call) (answer : Option String) :
    let session := (Session.new graph limit).afterAll calls
    let turn := session.step answer
    Registers.step graph limit answer session.registers = .ok (turn.outcome, turn.session.registers)
      ∧ turn.outcome.Agrees graph answer session.registers turn.session.registers := by
  obtain ⟨hvalid, hgraph, hlimit⟩ := (Session.valid_new graph limit).afterAll calls
  have hstep := Registers.step_registers answer fun _ hphase => hvalid.isTarget hphase
  have hagrees := hvalid.agrees answer
  rw [hgraph, hlimit] at hstep
  rw [hgraph] at hagrees
  exact ⟨hstep, hagrees⟩

end Flowchart
