import Flowchart.Proofs.Registers

/-!
# What is true of every session

Whatever calls a session takes, its phase, its log and its count fit together. The invariant says
for each phase what the rest of the session is like; a new session has it, and each move keeps it.
-/

namespace Flowchart

namespace Session

structure Begun (session : Session) : Prop where
  counted : 0 < session.steps
  limited : session.steps ≤ session.limit
  opened : session.log.head? = some startMarker

/-- What the rest of a session is like in a phase. -/
def Fits (session : Session) : Phase → Prop
  | .notStarted => session.steps = 0 ∧ session.environment = .empty ∧ session.log = []
  | .running id => session.Begun ∧ session.graph.IsTarget id
  | .waiting id question =>
    session.Begun ∧ session.log.getLast? = some question.prompt
      ∧ ∃ node, session.graph.node? id = some node ∧ node.kind = .io
        ∧ Directive.read? node.body = some question
  | .completed place =>
    session.Begun ∧ ∀ id ∈ place, ∃ node, session.graph.node? id = some node ∧ node.kind = .finish
  | .failed _ failure =>
    (session.Begun ∧ failure ≠ .missingEntry ∧ ∀ limit, failure ≠ .stepLimit limit)
      ∨ (session.steps = session.limit + 1 ∧ failure = .stepLimit session.limit
        ∧ (session.limit = 0 ∧ session.log = [] ∨ session.log.head? = some startMarker))

def Valid (session : Session) : Prop := session.Fits session.phase

variable {session : Session}

/-- A new session is valid. -/
theorem valid_new (graph : Graph) (limit : Nat) : (Session.new graph limit).Valid :=
  ⟨rfl, rfl, rfl⟩

theorem Valid.isTarget (h : session.Valid) {id : NodeId} (hphase : session.phase = .running id) :
    session.graph.IsTarget id := by
  rw [Valid, hphase] at h
  exact h.2

/-- Every step of a valid session is one of its moves. -/
theorem Valid.moves_step (h : session.Valid) (answer : Option String) :
    session.Moves answer (session.step answer) :=
  Session.moves_step answer fun _ hphase => h.isTarget hphase

/-- A session that is at a node and not over has begun its run. -/
theorem Valid.begun (h : session.Valid) {id : NodeId} (hnode : session.phase.node? = some id)
    (hactive : session.phase.isFinished = false) : session.Begun := by
  unfold Valid at h
  cases hphase : session.phase with
  | notStarted => simp [hphase, Phase.node?] at hnode
  | running id =>
      rw [hphase] at h
      exact h.1
  | waiting id question =>
      rw [hphase] at h
      exact h.1
  | completed place => simp [hphase, Phase.isFinished] at hactive
  | failed place failure => simp [hphase, Phase.isFinished] at hactive

theorem notStarted_of_node?_eq_none (hnode : session.phase.node? = none)
    (hactive : session.phase.isFinished = false) : session.phase = .notStarted := by
  cases hphase : session.phase <;> simp [hphase, Phase.node?, Phase.isFinished] at hnode hactive ⊢

/-! ### One turn -/

theorem Begun.turn (h : session.Begun) (hlimit : session.steps < session.limit) (outcome : Outcome)
    (lines : List String) (environment : Environment) (phase : Phase) :
    (session.count.turn outcome lines environment phase).session.Begun := by
  refine ⟨Nat.succ_pos _, hlimit, ?_⟩
  have hopened := h.opened
  obtain ⟨rest, hlog⟩ := List.head?_eq_some_iff.mp hopened
  simp [Session.turn, count, hlog]

theorem fits_following {place : Option NodeId} (h : session.Begun)
    (htarget : ∀ id ∈ place, session.graph.IsTarget id) : session.Fits (.following place) := by
  cases place with
  | none => exact ⟨h, by simp⟩
  | some id => exact ⟨h, htarget id rfl⟩

/-- Acts keep a session valid. -/
theorem Acts.valid {turn : Turn} (hacts : session.count.Acts turn) (h : session.Begun)
    (hlimit : session.steps < session.limit) : turn.session.Valid := by
  cases hacts with
  | left hnext htarget => exact fits_following (h.turn hlimit _ _ _ _) htarget
  | asked hnode hkind hquestion =>
      exact ⟨h.turn hlimit _ _ _ _, by simp [Session.turn], _, hnode, hkind, hquestion⟩
  | ended hnode hkind =>
      refine ⟨h.turn hlimit _ _ _ _, fun id hid => ?_⟩
      cases hid
      exact ⟨_, hnode, hkind⟩
  | broken hentry hstepLimit => exact .inl ⟨h.turn hlimit _ _ _ _, hentry, hstepLimit⟩

theorem valid_exceeded (h : session.Valid) (hactive : session.phase.isFinished = false)
    (hlimit : session.limit ≤ session.steps) :
    (session.count.fail (.stepLimit session.limit) [] session.environment).session.Valid := by
  refine .inr ?_
  cases hnode : session.phase.node? with
  | none =>
      rw [Valid, notStarted_of_node?_eq_none hnode hactive] at h
      obtain ⟨hsteps, -, hlog⟩ := h
      have hzero : session.limit = 0 := by omega
      refine ⟨?_, rfl, .inl ⟨hzero, by simp [fail, turn, count, hlog]⟩⟩
      simp [fail, turn, count, hsteps, hzero]
  | some id =>
      have hbegun := h.begun hnode hactive
      have hsteps : session.steps = session.limit := Nat.le_antisymm hbegun.limited hlimit
      refine ⟨by simp [fail, turn, count, hsteps], rfl, .inr ?_⟩
      simpa [fail, turn, count] using hbegun.opened

theorem valid_started (h : session.Valid) (hphase : session.phase = .notStarted)
    (hlimit : session.steps < session.limit) : session.count.start.session.Valid := by
  rw [Valid, hphase] at h
  obtain ⟨-, -, hlog⟩ := h
  have hbegun : session.count.start.session.Begun :=
    ⟨Nat.succ_pos _, hlimit, by simp [start, turn, count, hlog]⟩
  exact fits_following hbegun fun _ hnext => Graph.isTarget_of_successor? hnext

/-- **Every move keeps a session valid.** -/
theorem Valid.step (h : session.Valid) (answer : Option String) :
    (session.step answer).session.Valid := by
  have hmoves := h.moves_step answer
  generalize session.step answer = turn at *
  cases hmoves with
  | idle _ => exact h
  | exceeded hresponds hlimit => exact valid_exceeded h hresponds.active hlimit
  | started hphase hlimit => exact valid_started h hphase hlimit
  | acted hnode hresponds hlimit hacts =>
      exact hacts.valid (h.begun hnode hresponds.active) hlimit

/-! ### Whole runs -/

theorem Acts.same_program {turn : Turn} (h : session.Acts turn) :
    turn.session.graph = session.graph ∧ turn.session.limit = session.limit := by
  cases h <;> exact ⟨rfl, rfl⟩

theorem Valid.same_program_step (h : session.Valid) (answer : Option String) :
    (session.step answer).session.graph = session.graph
      ∧ (session.step answer).session.limit = session.limit := by
  have hmoves := h.moves_step answer
  generalize session.step answer = turn at *
  cases hmoves with
  | acted _ _ _ hacts => exact hacts.same_program
  | _ => exact ⟨rfl, rfl⟩

/-- Every call keeps a session valid, with its graph and its limit. -/
theorem Valid.after (h : session.Valid) (call : Call) :
    (session.after call).Valid ∧ (session.after call).graph = session.graph
      ∧ (session.after call).limit = session.limit := by
  cases call with
  | step answer => exact ⟨h.step answer, h.same_program_step answer⟩
  | reset => exact ⟨valid_new _ _, rfl, rfl⟩

theorem Valid.afterAll (h : session.Valid) (calls : List Call) :
    (session.afterAll calls).Valid ∧ (session.afterAll calls).graph = session.graph
      ∧ (session.afterAll calls).limit = session.limit := by
  induction calls generalizing session with
  | nil => exact ⟨h, rfl, rfl⟩
  | cons call rest ih =>
      obtain ⟨hvalid, hgraph, hlimit⟩ := h.after call
      obtain ⟨hall, hsameGraph, hsameLimit⟩ := ih hvalid
      exact ⟨hall, hsameGraph.trans hgraph, hsameLimit.trans hlimit⟩

/-- Calls set the registers as the machine does. -/
theorem Valid.call_registers (h : session.Valid) (call : Call) :
    Registers.call session.graph session.limit call session.registers
      = .ok ((), (session.after call).registers) := by
  cases call with
  | step answer =>
      have hstep := Registers.step_registers answer fun _ hphase => h.isTarget hphase
      have hcall : Registers.call session.graph session.limit (.step answer) session.registers
          = Registers.step session.graph session.limit answer session.registers >>= fun done =>
            .ok ((), done.2) := rfl
      rw [hcall, hstep]
      rfl
  | reset => exact Registers.reset_registers session

theorem Valid.callAll_registers (h : session.Valid) (calls : List Call) :
    Registers.callAll session.graph session.limit calls session.registers
      = .ok ((), (session.afterAll calls).registers) := by
  induction calls generalizing session with
  | nil => rfl
  | cons call rest ih =>
      obtain ⟨hvalid, hgraph, hlimit⟩ := h.after call
      have hrest := ih hvalid
      rw [hgraph, hlimit] at hrest
      have hcons : Registers.callAll session.graph session.limit (call :: rest) session.registers
          = Registers.call session.graph session.limit call session.registers >>= fun done =>
            Registers.callAll session.graph session.limit rest done.2 := rfl
      rw [hcons, h.call_registers call]
      exact hrest

end Session

/-! ### What the registers hold -/

/-- The registers of a session of this graph with this limit fit together. -/
structure Registers.Valid (graph : Graph) (limit : Nat) (registers : Registers) : Prop where
  pending_iff : registers.pending.isSome ↔ registers.status = .waiting
  error_iff : registers.error.isSome ↔ registers.status = .failed
  error_ne_missingEntry : registers.error ≠ some .missingEntry
  notStarted_iff : registers.status = .notStarted ↔ registers.steps = 0
  of_notStarted : registers.status = .notStarted →
    registers.current = none ∧ registers.environment = .empty ∧ registers.log = []
  of_running : registers.status = .running →
    ∃ edge ∈ graph.edges, registers.current = some edge.target ∧ edge.target ≠ graph.entry.id
  of_waiting : registers.status = .waiting →
    ∃ id node, registers.current = some id ∧ graph.node? id = some node ∧ node.kind = .io
      ∧ registers.pending = Directive.read? node.body
      ∧ registers.log.getLast? = registers.pending.map Directive.prompt
  of_completed : registers.status = .completed →
    registers.current = none
      ∨ ∃ id node, registers.current = some id ∧ graph.node? id = some node ∧ node.kind = .finish
  log_head : registers.log ≠ [] → registers.log.head? = some startMarker
  log_empty : registers.log = [] → registers.status = .notStarted ∨ limit = 0
  steps_le : registers.steps ≤ limit + 1
  steps_eq_iff : registers.steps = limit + 1 ↔ ∃ bound, registers.error = some (.stepLimit bound)

/-- The clauses about the count and the log, where the run has begun and not passed the limit. -/
theorem Session.Begun.clauses {session : Session} (h : session.Begun) :
    session.steps ≠ 0 ∧ session.steps ≠ session.limit + 1 ∧ session.steps ≤ session.limit + 1
      ∧ session.log ≠ [] := by
  obtain ⟨hcounted, hlimited, hopened⟩ := h
  refine ⟨by omega, by omega, by omega, fun hlog => ?_⟩
  simp [hlog] at hopened

/-- The registers of a valid session fit together. -/
theorem Session.Valid.registers {session : Session} (h : session.Valid) :
    session.registers.Valid session.graph session.limit := by
  unfold Session.Valid at h
  cases hphase : session.phase with
  | notStarted =>
      rw [hphase] at h
      obtain ⟨hsteps, henvironment, hlog⟩ := h
      constructor
      all_goals simp [Session.registers, hphase, Phase.status, Phase.node?, Phase.question?,
        Phase.failure?, hsteps, henvironment, hlog]
  | running id =>
      rw [hphase] at h
      obtain ⟨hbegun, edge, hedge, rfl⟩ := h
      obtain ⟨hsteps, hlimit, hle, hlog⟩ := hbegun.clauses
      constructor
      case of_running =>
        have hcurrent : session.registers.current = some edge.target := by
          rw [Session.registers, hphase, Phase.node?]
        exact fun _ => ⟨edge, hedge, hcurrent, session.graph.entry_untargeted edge hedge⟩
      all_goals simp [Session.registers, hphase, Phase.status, Phase.question?, Phase.failure?,
        hsteps, hlimit, hle, hlog, hbegun.opened]
  | waiting id question =>
      rw [hphase] at h
      obtain ⟨hbegun, hlast, node, hnode, hkind, hquestion⟩ := h
      obtain ⟨hsteps, hlimit, hle, hlog⟩ := hbegun.clauses
      constructor
      case of_waiting =>
        have hcurrent : session.registers.current = some id := by
          rw [Session.registers, hphase, Phase.node?]
        have hpending : session.registers.pending = some question := by
          rw [Session.registers, hphase, Phase.question?]
        rw [hpending]
        exact fun _ => ⟨id, node, hcurrent, hnode, hkind, hquestion.symm, hlast⟩
      all_goals simp [Session.registers, hphase, Phase.status, Phase.question?, Phase.failure?,
        hsteps, hlimit, hle, hlog, hbegun.opened]
  | completed place =>
      rw [hphase] at h
      obtain ⟨hbegun, hplace⟩ := h
      obtain ⟨hsteps, hlimit, hle, hlog⟩ := hbegun.clauses
      constructor
      case of_completed =>
        have hcurrent : session.registers.current = place := by
          rw [Session.registers, hphase, Phase.node?]
        rw [hcurrent]
        cases place with
        | none => exact fun _ => .inl rfl
        | some id =>
            obtain ⟨node, hnode, hkind⟩ := hplace id rfl
            exact fun _ => .inr ⟨id, node, rfl, hnode, hkind⟩
      all_goals simp [Session.registers, hphase, Phase.status, Phase.question?, Phase.failure?,
        hsteps, hlimit, hle, hlog, hbegun.opened]
  | failed place failure =>
      rw [hphase] at h
      rcases h with ⟨hbegun, hentry, hstepLimit⟩ | ⟨hsteps, rfl, hlog⟩
      · obtain ⟨hsteps, hlimit, hle, hlog⟩ := hbegun.clauses
        constructor
        all_goals simp [Session.registers, hphase, Phase.status, Phase.question?, Phase.failure?,
          hsteps, hlimit, hle, hlog, hbegun.opened, hentry, hstepLimit]
      · constructor
        case log_head =>
          intro hne
          rcases hlog with ⟨-, hempty⟩ | hopened
          · exact absurd hempty hne
          · exact hopened
        case log_empty =>
          intro hempty
          rcases hlog with ⟨hlimit, -⟩ | hopened
          · exact .inr hlimit
          · change session.log = [] at hempty
            simp [hempty] at hopened
        all_goals simp [Session.registers, hphase, Phase.status, Phase.question?, Phase.failure?,
          hsteps]

/-- **Representation invariant.** Whatever calls a session takes, its registers meet no defect, are
those of the session, and fit together. -/
theorem registers_valid (graph : Graph) (limit : Nat) (calls : List Call) :
    ∃ registers, Registers.callAll graph limit calls .initial = .ok ((), registers)
      ∧ registers = ((Session.new graph limit).afterAll calls).registers
      ∧ registers.Valid graph limit := by
  have hnew := Session.valid_new graph limit
  obtain ⟨hvalid, hgraph, hlimit⟩ := hnew.afterAll calls
  have hregisters := hvalid.registers
  rw [hgraph, hlimit] at hregisters
  exact ⟨_, hnew.callAll_registers calls, rfl, hregisters⟩

end Flowchart
