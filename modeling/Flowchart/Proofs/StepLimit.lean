import Flowchart.Proofs.History

/-!
# What the limit does

No act of a session reads the limit: it is only compared with the count before each act. Two
sessions that take the same calls under different limits therefore do the same until the smaller
limit is used up, and from then on the session under it only fails.
-/

namespace Flowchart

namespace Session

def withLimit (session : Session) (limit : Nat) : Session := { session with limit }

end Session

def Turn.withLimit (turn : Turn) (limit : Nat) : Turn :=
  { turn with session := turn.session.withLimit limit }

namespace Session

/-! ### Acts do not read the limit -/

section WithLimit

variable (session : Session) (limit : Nat)

theorem runBody_withLimit (node : Node) :
    (session.withLimit limit).runBody node = (session.runBody node).withLimit limit := by
  unfold runBody
  by_cases hblank : Text.isAllBlank node.body
  · rw [if_pos hblank, if_pos hblank]
    rfl
  · rw [if_neg hblank, if_neg hblank]
    dsimp only [withLimit]
    split <;> rfl

theorem branch_withLimit (node : Node) :
    (session.withLimit limit).branch node = (session.branch node).withLimit limit := by
  unfold branch
  by_cases hblank : Text.isAllBlank node.body
  · rw [if_pos hblank, if_pos hblank]
    rfl
  · rw [if_neg hblank, if_neg hblank]
    dsimp only [withLimit]
    split <;> rfl

/-- Executing a node does not look at the limit. -/
theorem execute_withLimit (id : NodeId) :
    (session.withLimit limit).execute id = (session.execute id).withLimit limit := by
  have hgraph : (session.withLimit limit).graph = session.graph := rfl
  unfold execute
  rw [hgraph]
  cases session.graph.node? id with
  | none => rfl
  | some node =>
      dsimp only
      cases node.kind with
      | start => rfl
      | finish => rfl
      | connector => rfl
      | process => exact session.runBody_withLimit limit node
      | decision => exact session.branch_withLimit limit node
      | io =>
          cases Directive.read? node.body with
          | some question => rfl
          | none => exact session.runBody_withLimit limit node

variable {session limit}

/-- A counted act does the same under two limits that both allow it. -/
theorem counted_withLimit {act : Session → Turn}
    (hact : ∀ s, act (s.withLimit limit) = (act s).withLimit limit)
    (hown : session.steps < session.limit) (hother : session.steps < limit) :
    (session.withLimit limit).counted act = (session.counted act).withLimit limit := by
  have hexceeded : ¬ (session.withLimit limit).limit < (session.withLimit limit).steps + 1 := by
    change ¬ limit < session.steps + 1
    omega
  rw [counted_eq, counted_eq, if_neg hexceeded, if_neg (by omega)]
  exact hact session.count

/-- A step that keeps both limits does the same under either. -/
theorem step_withLimit {answer : Option String}
    (hkept : session.Responds answer → session.steps < session.limit ∧ session.steps < limit) :
    (session.withLimit limit).step answer = (session.step answer).withLimit limit := by
  by_cases hresponds : session.Responds answer
  · obtain ⟨hown, hother⟩ := hkept hresponds
    have hphases : (session.withLimit limit).phase = session.phase := rfl
    cases hphase : session.phase with
    | notStarted =>
        rw [step_of_notStarted hphase, step_of_notStarted (hphases.trans hphase)]
        exact counted_withLimit (fun _ => rfl) hown hother
    | running id =>
        rw [step_of_running hphase, step_of_running (hphases.trans hphase)]
        exact counted_withLimit (fun s => s.execute_withLimit limit id) hown hother
    | waiting id question =>
        cases answer with
        | none => exact absurd hresponds (not_responds_unanswered hphase)
        | some answer =>
            rw [step_of_answered hphase, step_of_answered (hphases.trans hphase)]
            exact counted_withLimit (fun _ => rfl) hown hother
    | completed place => exact absurd hresponds (not_responds_finished (by rw [hphase]; rfl))
    | failed place failure => exact absurd hresponds (not_responds_finished (by rw [hphase]; rfl))
  · have hother : ¬ (session.withLimit limit).Responds answer := fun h =>
      hresponds ⟨h.active, h.answered⟩
    rw [step_of_not_responds hresponds, step_of_not_responds hother]
    rfl

end WithLimit

/-! ### Where the limit is met -/

variable {session : Session}

/-- An active session has kept the limit. -/
theorem Valid.steps_le (h : session.Valid) (hactive : session.phase.isFinished = false) :
    session.steps ≤ session.limit := by
  cases hnode : session.phase.node? with
  | some id => exact (h.begun hnode hactive).limited
  | none =>
      rw [Valid, notStarted_of_node?_eq_none hnode hactive] at h
      rw [h.1]
      exact Nat.zero_le _

/-- No node comes to the failure of the limit. -/
theorem Executes.outcome_ne_stepLimit {id : NodeId} {turn : Turn} (h : session.Executes id turn)
    (bound : Nat) : turn.outcome ≠ .failed (.stepLimit bound) := by
  cases h <;> simp [fail, Session.turn, advance, follow]

/-- Only the comparison with the limit fails for it. -/
theorem exceeded_of_outcome {answer : Option String} {bound : Nat}
    (h : (session.step answer).outcome = .failed (.stepLimit bound)) :
    bound = session.limit ∧ session.Responds answer ∧ session.limit ≤ session.steps := by
  have hreacts := session.reacts_step answer
  generalize session.step answer = turn at *
  cases hreacts with
  | idle hidle => simp [idle] at h
  | exceeded hresponds hlimit =>
      have hbound : bound = session.limit := by simpa [fail, Session.turn, eq_comm] using h
      exact ⟨hbound, hresponds, hlimit⟩
  | started hphase hlimit => simp [start, Session.turn] at h
  | executed hphase hlimit hexecutes => exact absurd h (hexecutes.outcome_ne_stepLimit bound)
  | accepted hphase hlimit => simp [accept, Session.turn] at h

theorem waiting_of_not_responds {answer : Option String}
    (hactive : session.phase.isFinished = false) (hnot : ¬ session.Responds answer) :
    session.registers.status = .waiting ∧ answer = none := by
  cases hphase : session.phase with
  | notStarted => exact absurd (responds_notStarted hphase) hnot
  | running id => exact absurd (responds_running hphase) hnot
  | waiting id question =>
      cases answer with
      | none => exact ⟨by rw [registers, hphase]; rfl, rfl⟩
      | some answer => exact absurd (responds_answered hphase answer) hnot
  | completed place => simp [hphase, Phase.isFinished] at hactive
  | failed place failure => simp [hphase, Phase.isFinished] at hactive

/-- A call that finds the limit used up fails, and changes neither the node nor the environment nor
the log. -/
theorem step_of_exceeded {answer : Option String} (hresponds : session.Responds answer)
    (hlimit : session.limit ≤ session.steps) :
    session.step answer = session.count.fail (.stepLimit session.limit) [] session.environment := by
  have hreacts := session.reacts_step answer
  generalize session.step answer = turn at *
  cases hreacts with
  | idle hidle => exact absurd hresponds hidle
  | exceeded _ _ => rfl
  | started _ hkept => exact absurd hkept (Nat.not_lt.mpr hlimit)
  | executed _ hkept _ => exact absurd hkept (Nat.not_lt.mpr hlimit)
  | accepted _ hkept => exact absurd hkept (Nat.not_lt.mpr hlimit)

theorem registers_exceeded (session : Session) :
    (session.count.fail (.stepLimit session.limit) [] session.environment).session.registers
      = { session.registers with
          status := .failed
          pending := none
          steps := session.steps + 1
          error := some (.stepLimit session.limit) } := by
  rw [fail, Session.turn, List.append_nil]
  rfl

end Session

/-! ### Two limits -/

/-- As long as the counted steps do not outnumber the smaller limit, the larger one makes no
difference. -/
theorem afterAll_withLimit {limit larger : Nat} (hlarger : limit ≤ larger) (graph : Graph)
    (calls : List Call)
    (hcounted : ((Session.new graph limit).countedSteps calls).length ≤ limit) :
    (Session.new graph larger).afterAll calls
        = ((Session.new graph limit).afterAll calls).withLimit larger
      ∧ ((Session.new graph larger).history calls).map Moment.outcome
        = ((Session.new graph limit).history calls).map Moment.outcome := by
  induction calls using List.reverseRecOn with
  | nil => exact ⟨rfl, rfl⟩
  | append_singleton calls call ih =>
      cases call with
      | reset =>
          rw [afterAll_reset, afterAll_reset, Session.history_reset, Session.history_reset]
          exact ⟨rfl, rfl⟩
      | step answer =>
          have hrun := run_countedSteps graph limit calls
          obtain ⟨hvalid, -, hlimit⟩ := hrun.valid
          have hsteps := hrun.steps_eq
          -- The step is idle, and the counted steps are as they were, or it is one more of them.
          have hbefore : ((Session.new graph limit).countedSteps calls).length ≤ limit
              ∧ (((Session.new graph limit).afterAll calls).Responds answer →
                ((Session.new graph limit).countedSteps calls).length < limit) := by
            by_cases hidle : (((Session.new graph limit).afterAll calls).step answer).outcome = .idle
            · rw [Session.countedSteps_of_idle hidle] at hcounted
              have hnot := (hvalid.outcome_eq_idle_iff answer).mp hidle
              exact ⟨hcounted, fun hresponds => absurd hresponds hnot⟩
            · rw [Session.countedSteps_of_counted hidle, List.length_append,
                List.length_singleton] at hcounted
              exact ⟨by omega, fun _ => hcounted⟩
          obtain ⟨hsame, houtcomes⟩ := ih hbefore.1
          have hstep := @Session.step_withLimit _ larger answer fun hresponds => by
            have hfree := hbefore.2 hresponds
            rw [hsteps, hlimit]
            exact ⟨hfree, by omega⟩
          rw [Session.afterAll_concat, Session.afterAll_concat, Session.history_step,
            Session.history_step, List.map_append, List.map_append, houtcomes, hsame,
            List.map_singleton, List.map_singleton, Moment.outcome, Moment.outcome,
            Session.after, Session.after, hstep]
          exact ⟨rfl, rfl⟩

/-- **The limit only truncates.** Calls under a limit do what they do under a larger one until as
many steps are counted as the limit allows. Of a session that is not over by then the next counted
step fails, whatever it was about to do, and no other step fails for the limit. So a run is over
after one counted step more than the limit, and its count stays within what a counter must hold.
The calls are any, so this holds after each of the calls of a run and not only after the last. -/
theorem limit_truncates {limit larger maximum : Nat} (hlarger : limit ≤ larger)
    (hmaximum : larger < maximum) (graph : Graph) (calls : List Call) :
    let session := (Session.new graph limit).afterAll calls
    let other := (Session.new graph larger).afterAll calls
    let counted := ((Session.new graph limit).countedSteps calls).length
    (counted ≤ limit → other.registers = session.registers
      ∧ ((Session.new graph larger).history calls).map Moment.outcome
        = ((Session.new graph limit).history calls).map Moment.outcome)
    ∧ (counted = limit → session.phase.isFinished = false → ∀ answer,
      (session.step answer).outcome = .idle ∧ session.registers.status = .waiting ∧ answer = none
      ∨ (session.step answer).outcome = .failed (.stepLimit limit)
        ∧ (session.step answer).session.registers = { session.registers with
            status := .failed
            pending := none
            steps := limit + 1
            error := some (.stepLimit limit) })
    ∧ (∀ answer bound, (session.step answer).outcome = .failed (.stepLimit bound) →
      bound = limit ∧ counted = limit ∧ session.phase.isFinished = false)
    ∧ (limit < counted → session.phase.isFinished = true)
    ∧ session.registers.steps = counted
    ∧ session.registers.steps ≤ maximum ∧ other.registers.steps ≤ maximum := by
  intro session other counted
  have hrun := run_countedSteps graph limit calls
  have hvalid : session.Valid := hrun.valid.1
  have hlimit : session.limit = limit := hrun.valid.2.2
  have hsteps : session.steps = counted := hrun.steps_eq
  have hsame := afterAll_withLimit hlarger graph calls
  have hcount : session.steps ≤ limit + 1 := hlimit ▸ hvalid.registers.steps_le
  have hcountOther : other.steps ≤ larger + 1 := by
    obtain ⟨hother, -, hlimitOther⟩ := (run_countedSteps graph larger calls).valid
    exact hlimitOther ▸ hother.registers.steps_le
  refine ⟨fun hcounted => ?_, fun hcounted hactive answer => ?_, fun answer bound hfailed => ?_,
    fun hover => ?_, hsteps, Nat.le_trans hcount (by omega),
    Nat.le_trans hcountOther hmaximum⟩
  · obtain ⟨hstate, houtcomes⟩ := hsame hcounted
    have hregisters : other.registers = (session.withLimit larger).registers :=
      congrArg Session.registers hstate
    exact ⟨hregisters, houtcomes⟩
  · by_cases hresponds : session.Responds answer
    · have hused : session.limit ≤ session.steps :=
        Nat.le_of_eq (by rw [hsteps, hcounted, hlimit])
      rw [Session.step_of_exceeded hresponds hused, Session.registers_exceeded, hsteps, hcounted,
        hlimit]
      exact .inr ⟨rfl, rfl⟩
    · have hidle := (hvalid.outcome_eq_idle_iff answer).mpr hresponds
      exact .inl ⟨hidle, Session.waiting_of_not_responds hactive hresponds⟩
  · obtain ⟨hbound, hresponds, hused⟩ := Session.exceeded_of_outcome hfailed
    have hkept := hvalid.steps_le hresponds.active
    have hcounted : session.steps = session.limit := Nat.le_antisymm hkept hused
    exact ⟨hbound.trans hlimit, by rw [← hsteps, hcounted, hlimit], hresponds.active⟩
  · by_contra hactive
    have hkept := hvalid.steps_le (by simpa using hactive)
    rw [hsteps, hlimit] at hkept
    exact absurd hover (Nat.not_lt.mpr hkept)

/-- A question that no one has answered when the limit is used up stays without an answer. -/
theorem limit_truncates_question :
    let graph : Graph :=
      ⟨[⟨0, .start, "", ""⟩, ⟨1, .io, "ask", "input(n)"⟩], [⟨0, 1, none⟩, ⟨1, 1, none⟩],
        ⟨0, .start, "", ""⟩, by decide, by decide, by decide⟩
    let session := (Session.new graph 2).afterAll [.step none, .step (some "stray"), .step none]
    session.phase = .waiting 1 ⟨"INPUT:", "n"⟩
      ∧ (session.step (some "7")).outcome = .failed (.stepLimit 2)
      ∧ (session.step (some "7")).session.environment = .empty := by
  intro graph session
  have htruncates := @limit_truncates 2 3 (2 ^ 64 - 1) (by decide) (by decide) graph
    [.step none, .step (some "stray"), .step none]
  have hfailed := (htruncates.2.1 (by decide +kernel) (by decide +kernel) (some "7")).resolve_left
    fun hidle => Option.some_ne_none _ hidle.2.2
  exact ⟨by decide +kernel, hfailed.1, congrArg Registers.environment hfailed.2⟩

end Flowchart
