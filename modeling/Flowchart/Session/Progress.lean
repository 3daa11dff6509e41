import Flowchart.Session

/-!
Progress: whatever a session does it does by one turn, which keeps its graph, its limit and its
count, and a call that does something is counted, so that every run ends.
-/

namespace Flowchart.Session

/-- A turn of a session changes its phase, its environment and its log alone. -/
def IsTurn (session : Session) (turn : Turn) : Prop :=
  ∃ outcome lines environment phase, turn = session.turn outcome lines environment phase

theorem isTurn_start (session : Session) : session.IsTurn session.start := ⟨_, _, _, _, rfl⟩

theorem isTurn_accept (session : Session) (node : NodeId) (question : Directive) (answer : String) :
    session.IsTurn (session.accept node question answer) := ⟨_, _, _, _, rfl⟩

theorem isTurn_runBody (session : Session) (node : Node) :
    session.IsTurn (session.runBody node) := by
  unfold runBody
  split
  · exact ⟨_, _, _, _, rfl⟩
  · dsimp only
    split <;> exact ⟨_, _, _, _, rfl⟩

theorem isTurn_branch (session : Session) (node : Node) : session.IsTurn (session.branch node) := by
  unfold branch
  split
  · exact ⟨_, _, _, _, rfl⟩
  · dsimp only
    split <;> exact ⟨_, _, _, _, rfl⟩

theorem isTurn_execute (session : Session) (id : NodeId) : session.IsTurn (session.execute id) := by
  unfold execute
  split
  · exact ⟨_, _, _, _, rfl⟩
  · split
    · exact ⟨_, _, _, _, rfl⟩
    · exact ⟨_, _, _, _, rfl⟩
    · exact ⟨_, _, _, _, rfl⟩
    · exact isTurn_runBody session _
    · exact isTurn_branch session _
    · split
      · exact ⟨_, _, _, _, rfl⟩
      · exact isTurn_runBody session _

/-- A counted turn leaves fewer calls. -/
theorem remaining_counted_lt {session : Session} {act : Session → Turn}
    (hfinished : session.phase.isFinished = false) (hact : ∀ s : Session, s.IsTurn (act s)) :
    (session.counted act).session.remaining < session.remaining := by
  have hpos : session.remaining = session.limit + 1 - session.steps + 1 := by
    simp [remaining, hfinished]
  rw [hpos]
  unfold counted
  dsimp only
  split
  · simp [fail, turn, remaining, Phase.isFinished]
  · rename_i hle
    obtain ⟨outcome, lines, environment, phase, heq⟩ :=
      hact { session with steps := session.steps + 1 }
    rw [heq]
    by_cases hover : phase.isFinished = true
    · simp [remaining, turn, hover]
    · simp only [remaining, turn, hover, Bool.false_eq_true, if_false]
      omega

/-- A call leaves fewer calls unless the run is over or a question stays without an answer. -/
theorem remaining_step_lt {session : Session} {answer : Option String}
    (hfinished : session.phase.isFinished = false)
    (hanswer : session.phase.question?.isSome → answer.isSome) :
    (session.step answer).session.remaining < session.remaining := by
  unfold step
  split
  · rename_i heq; simp [heq, Phase.isFinished] at hfinished
  · rename_i heq; simp [heq, Phase.isFinished] at hfinished
  · rename_i heq; simp [heq, Phase.question?] at hanswer
  · exact remaining_counted_lt hfinished isTurn_start
  · exact remaining_counted_lt hfinished fun s => isTurn_execute s _
  · exact remaining_counted_lt hfinished fun s => isTurn_accept s _ _ _

end Flowchart.Session
