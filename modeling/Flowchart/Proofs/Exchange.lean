import Flowchart.Proofs.History
import Mathlib.Data.List.Chain

/-!
# Questions and answers

A question is asked by one counted step and answered by the next, however many polls lie between
them. Nothing else takes an answer, and nothing but the limit keeps a question from its answer.
-/

namespace Flowchart

/-- A step that asks a question of a node and takes no answer itself. -/
structure Moment.Asks (moment : Moment) (node : NodeId) (question : Directive) : Prop where
  outcome_eq : moment.outcome = .suspended node question.prompt
  phase_eq : moment.next.phase = .waiting node question
  log_eq : moment.next.log = moment.session.log ++ [question.prompt]
  environment_eq : moment.next.environment = moment.session.environment

structure Moment.Answers (graph : Graph) (node : NodeId) (question : Directive) (answer : String)
    (asking answering : Moment) : Prop where
  outcome_eq : answering.outcome
    = .resumed question.variableName (.ofInput answer) (graph.successor? node)
  log_eq : answering.next.log = asking.session.log ++ [question.prompt, "> " ++ answer]
  get?_variable :
    answering.next.environment.get? question.variableName = some (.ofInput answer)
  get?_other : ∀ name ≠ question.variableName,
    answering.next.environment.get? name = asking.next.environment.get? name
  phase_eq : answering.next.phase = .following (graph.successor? node)

/-- A step that would have answered a question, had the limit not been used up. -/
structure Moment.CutsShort (limit : Nat) (asking answering : Moment) : Prop where
  outcome_eq : answering.outcome = .failed (.stepLimit limit)
  log_eq : answering.next.log = asking.next.log
  environment_eq : answering.next.environment = asking.next.environment
  question_eq : answering.next.phase.question? = none

/-- How two counted steps in a row go together: the later one finds the session as the earlier one
left it, a question is followed by its answer or by the limit, and an answer follows its question. -/
structure Moment.Exchange (graph : Graph) (limit : Nat) (earlier later : Moment) : Prop where
  session_eq : later.session = earlier.next
  of_question : ∀ node prompt, earlier.outcome = .suspended node prompt →
    ∃ question answer, question.prompt = prompt ∧ earlier.Asks node question
      ∧ later.answer = some answer
      ∧ (Answers graph node question answer earlier later ∨ CutsShort limit earlier later)
  of_answer : ∀ name value next, later.outcome = .resumed name value next →
    ∃ node prompt, earlier.outcome = .suspended node prompt
  not_failed : ∀ failure, earlier.outcome ≠ .failed failure

namespace Session

variable {session : Session} {answer : Option String}

/-! ### One step -/

theorem Executes.asks {id node : NodeId} {turn : Turn} {prompt : String}
    (h : session.Executes id turn) (houtcome : turn.outcome = .suspended node prompt) :
    ∃ question, question.prompt = prompt
      ∧ turn = session.turn (.suspended node question.prompt) [question.prompt] session.environment
        (.waiting node question) := by
  cases h with
  | asked hnode hkind hquestion =>
      rename_i question
      cases houtcome
      exact ⟨question, rfl, rfl⟩
  | _ => cases houtcome

/-- A step that is suspended asks the question of its node. -/
theorem asks_of_suspended {node : NodeId} {prompt : String}
    (h : (session.step answer).outcome = .suspended node prompt) :
    ∃ question, question.prompt = prompt ∧ Moment.Asks ⟨session, answer⟩ node question := by
  have hreacts := session.reacts_step answer
  cases hturn : session.step answer with | mk outcome lines next =>
  rw [hturn] at h hreacts
  cases hreacts with
  | executed hphase hlimit hexecutes =>
      obtain ⟨question, hprompt, heq⟩ := hexecutes.asks h
      refine ⟨question, hprompt, ?_, ?_, ?_, ?_⟩
      all_goals
        simp only [Moment.outcome, Moment.next, hturn, heq]
        rfl
  | _ => cases h

/-- A step that takes an answer binds it, unless the limit is used up. -/
theorem answers_or_exceeds {id : NodeId} {question : Directive}
    (hphase : session.phase = .waiting id question) (hcounted : session.Responds answer) :
    ∃ given, answer = some given
      ∧ (session.step answer = session.count.accept id question given
        ∨ session.step answer
          = session.count.fail (.stepLimit session.limit) [] session.environment) := by
  cases answer with
  | none => exact absurd hcounted (not_responds_unanswered hphase)
  | some given =>
      refine ⟨given, rfl, ?_⟩
      rw [step_of_answered hphase, counted_eq]
      by_cases hlimit : session.limit < session.steps + 1
      · exact .inr (if_pos hlimit)
      · exact .inl (if_neg hlimit)

/-- A step that resumes was waiting for the answer it takes. -/
theorem waiting_of_resumed {name : String} {value : Value} {next : Option NodeId}
    (h : (session.step answer).outcome = .resumed name value next) :
    session.registers.status = .waiting := by
  have hreacts := session.reacts_step answer
  generalize session.step answer = turn at *
  cases hreacts with
  | accepted hphase hlimit =>
      rw [registers, hphase]
      rfl
  | executed hphase hlimit hexecutes => cases hexecutes <;> cases h
  | _ => cases h

/-- Only the question that a session asks leaves it waiting. -/
theorem suspended_of_waiting {outcome : Outcome} {graph : Graph} {after : Registers}
    (hdescribes : outcome.Describes graph after) (hcounted : outcome ≠ .idle)
    (hwaiting : after.status = .waiting) : ∃ node prompt, outcome = .suspended node prompt := by
  have hleft : ∀ next : Option NodeId,
      after.status ≠ if next.isNone then Status.completed else .running := by
    intro next
    rw [hwaiting]
    cases next <;> simp
  cases outcome with
  | suspended node prompt => exact ⟨node, prompt, rfl⟩
  | started entry next => exact absurd hdescribes.2 (hleft next)
  | advanced node next => exact absurd hdescribes.2 (hleft next)
  | branched node outcome taken fallback next reason => exact absurd hdescribes.2 (hleft next)
  | resumed name value next => exact absurd hdescribes.2 (hleft next)
  | finished node => cases hwaiting.symm.trans hdescribes.1
  | failed failure => cases hwaiting.symm.trans hdescribes.1
  | idle => exact absurd rfl hcounted

end Session

/-! ### Two steps in a row -/

section Exchange

variable {earlier later : Moment}

theorem Moment.Asks.answers {node : NodeId} {question : Directive} {answer : String}
    (hasks : earlier.Asks node question) (hgraph : earlier.next.graph = earlier.session.graph)
    (haccepted : earlier.next.step (some answer) = earlier.next.count.accept node question answer) :
    Moment.Answers earlier.session.graph node question answer earlier
      ⟨earlier.next, some answer⟩ := by
  have hnext : (⟨earlier.next, some answer⟩ : Moment).next
      = (earlier.next.count.accept node question answer).session :=
    congrArg Turn.session haccepted
  constructor
  · rw [Moment.outcome, haccepted, ← hgraph]
    rfl
  · rw [hnext]
    change earlier.next.log ++ ["> " ++ answer] = _
    rw [hasks.log_eq, List.append_assoc]
    rfl
  · rw [hnext]
    exact (Environment.get?_set _ _ _ _).trans (if_pos rfl)
  · intro name hne
    rw [hnext]
    exact (Environment.get?_set _ _ _ _).trans (if_neg hne)
  · rw [hnext, ← hgraph]
    rfl

theorem Moment.cutsShort_of_exceeded {answer : Option String}
    (hlimit : earlier.next.limit = earlier.session.limit)
    (hexceeded : earlier.next.step answer
      = earlier.next.count.fail (.stepLimit earlier.next.limit) [] earlier.next.environment) :
    Moment.CutsShort earlier.session.limit earlier ⟨earlier.next, answer⟩ := by
  have hnext : (⟨earlier.next, answer⟩ : Moment).next
      = (earlier.next.count.fail (.stepLimit earlier.next.limit) [] earlier.next.environment).session :=
    congrArg Turn.session hexceeded
  constructor
  · rw [Moment.outcome, hexceeded, hlimit]
    rfl
  · rw [hnext]
    exact List.append_nil _
  · rw [hnext]
    rfl
  · rw [hnext]
    rfl

/-- A counted step right after a question takes the answer to it, unless the limit is used up. -/
theorem Moment.Asks.answered {node : NodeId} {question : Directive}
    (hvalid : earlier.session.Valid) (hasks : earlier.Asks node question)
    (hlinked : later.session = earlier.next) (hcounted : later.outcome ≠ .idle) :
    ∃ answer, later.answer = some answer
      ∧ (Moment.Answers earlier.session.graph node question answer earlier later
        ∨ Moment.CutsShort earlier.session.limit earlier later) := by
  obtain ⟨session, given⟩ := later
  subst hlinked
  obtain ⟨hgraph, hlimit⟩ := hvalid.same_program_step earlier.answer
  have hresponds := not_not.mp
    (mt ((hvalid.step earlier.answer).outcome_eq_idle_iff given).mpr hcounted)
  obtain ⟨answer, rfl, haccepted | hexceeded⟩ :=
    Session.answers_or_exceeds hasks.phase_eq hresponds
  · exact ⟨answer, rfl, .inl (hasks.answers hgraph haccepted)⟩
  · exact ⟨answer, rfl, .inr (Moment.cutsShort_of_exceeded hlimit hexceeded)⟩

/-- Two steps in a row go together as questions and answers do. -/
theorem Session.Valid.exchange (hvalid : earlier.session.Valid)
    (hlinked : later.session = earlier.next) (hcounted : earlier.outcome ≠ .idle)
    (hcountedLater : later.outcome ≠ .idle) :
    Moment.Exchange earlier.session.graph earlier.session.limit earlier later := by
  have hdescribes := (hvalid.agrees earlier.answer).describes
  have hregisters : later.session.registers = earlier.next.registers :=
    congrArg Session.registers hlinked
  refine ⟨hlinked, ?_, ?_, ?_⟩
  · intro node prompt hsuspended
    obtain ⟨question, hprompt, hasks⟩ := Session.asks_of_suspended hsuspended
    obtain ⟨answer, hanswer, hends⟩ := hasks.answered hvalid hlinked hcountedLater
    exact ⟨question, answer, hprompt, hasks, hanswer, hends⟩
  · intro name value next hresumed
    have hwaiting := Session.waiting_of_resumed hresumed
    rw [hregisters] at hwaiting
    exact Session.suspended_of_waiting hdescribes hcounted hwaiting
  · intro failure hfailed
    have hstatus : later.session.registers.status = .failed := by
      rw [Moment.outcome] at hfailed
      rw [hfailed] at hdescribes
      rw [hregisters]
      exact hdescribes.1
    have hlater : later.session.Valid := hlinked ▸ hvalid.step earlier.answer
    exact hcountedLater ((hlater.agrees later.answer).idle_iff.mpr (.inr (.inl hstatus)))

end Exchange

/-! ### Whole runs -/

/-- Any two steps in a row of a run go together as questions and answers do. -/
theorem Run.isChain_exchange {graph : Graph} {limit : Nat} {moments : List Moment}
    {session : Session} (h : Run graph limit moments session) :
    moments.IsChain (Moment.Exchange graph limit) := by
  induction h with
  | new => exact List.isChain_nil
  | step hrun answer hcounted ih =>
      rw [List.isChain_append]
      refine ⟨ih, List.isChain_singleton _, fun earlier hearlier later hlater => ?_⟩
      obtain ⟨hnext, hvalid, rfl, rfl, hcountedEarlier⟩ := hrun.of_mem_getLast? hearlier
      cases hlater
      exact hvalid.exchange hnext.symm hcountedEarlier hcounted

/-- **Questions and answers.** Among the counted steps of a session each question is followed by its
answer, unless the limit is used up, and each answer follows its question. An answer given to a
session that waits for one is always taken. -/
theorem questions_alternate_with_answers (graph : Graph) (limit : Nat) (calls : List Call) :
    let moments := (Session.new graph limit).countedSteps calls
    let session := (Session.new graph limit).afterAll calls
    moments.IsChain (Moment.Exchange graph limit)
      ∧ (∀ moment ∈ moments.head?, ∀ name value next, moment.outcome ≠ .resumed name value next)
      ∧ (session.registers.status = .waiting → ∀ answer,
        (session.step (some answer)).outcome ≠ .idle) := by
  intro moments session
  have hrun := run_countedSteps graph limit calls
  refine ⟨hrun.isChain_exchange, fun moment hmoment name value next hresumed => ?_,
    fun hwaiting answer hidle => ?_⟩
  · have hwaiting := Session.waiting_of_resumed hresumed
    rw [hrun.of_mem_head? hmoment] at hwaiting
    cases hwaiting
  · have hstatus := (hrun.valid.1.agrees (some answer)).idle_iff.mp hidle
    change session.registers.status = .completed ∨ session.registers.status = .failed ∨ _ at hstatus
    simp [hwaiting] at hstatus

end Flowchart
