import Flowchart.CommandLine.Report
import Flowchart.Proofs.SessionInvariant

/-!
# What the command line says of failures

The command line complains about a failure when a step comes to it. The call that answers a question
is made without a look at its outcome, and such a call can fail in one way: it may be the one that
the limit forbids. So a run that ends with exit code 1 has said why, unless an answer was given when
the limit was used up.
-/

namespace Flowchart

namespace Session

variable {session : Session} {answer : Option String} {turn : Turn}

/-! ### One call of a session -/

def complaints (session : Session) : List String :=
  session.phase.failure?.toList.map Failure.message

theorem complaints_of_active (hactive : session.phase.isFinished = false) :
    session.complaints = [] := by
  rw [complaints]
  cases hphase : session.phase with
  | failed place failure => simp [hphase, Phase.isFinished] at hactive
  | _ => rfl

/-- What is remarked on the outcome of an act is the failure it comes to. -/
theorem Acts.complaints_remark (h : session.Acts turn) :
    (CommandLine.Dialogue.remark turn.outcome).complaints = turn.session.complaints := by
  cases h with
  | @left outcome lines environment next hnext _ =>
      have hnothing : (CommandLine.Dialogue.remark outcome).complaints = [] := by
        cases outcome <;> first | rfl | cases hnext
      change _ = (Phase.following next).failure?.toList.map _
      rw [Phase.failure?_following]
      exact hnothing
  | asked => rfl
  | ended => rfl
  | broken => rfl

/-- What is remarked on the outcome of a step is the failure it comes to. -/
theorem Valid.complaints_remark (h : session.Valid) (hresponds : session.Responds answer) :
    (CommandLine.Dialogue.remark (session.step answer).outcome).complaints
      = (session.step answer).session.complaints := by
  have hmoves := h.moves_step answer
  generalize session.step answer = turn at *
  cases hmoves with
  | idle hidle => exact absurd hresponds hidle
  | exceeded => rfl
  | started => exact session.count.acts_start.complaints_remark
  | acted _ _ _ hacts => exact hacts.complaints_remark

/-- An answer is taken unless the limit is used up. -/
theorem failure?_of_answered {id : NodeId} {question : Directive}
    (hphase : session.phase = .waiting id question) (answer : String) :
    (session.step (some answer)).session.phase.failure?
      = if session.limit ≤ session.steps then some (.stepLimit session.limit) else none := by
  rw [step_of_answered hphase, counted_eq]
  by_cases hlimit : session.limit ≤ session.steps
  · rw [if_pos (by omega), if_pos hlimit]
    rfl
  · rw [if_neg (by omega), if_neg hlimit]
    exact Phase.failure?_following _

end Session

namespace CommandLine

/-! ### One call of a conversation -/

namespace Dialogue

/-- A conversation gets from one place to another: at each it is heard what is asked for, and the
next call is made. -/
inductive Reaches : Dialogue → Input → Dialogue → Input → Prop
  | here {dialogue input} : Reaches dialogue input dialogue input
  | call {dialogue input line left final rest} (hactive : dialogue.isOver = false)
      (hheard : hear? dialogue.prompt? input = some (line, left))
      (hrest : Reaches (dialogue.next line).1 left final rest) :
      Reaches dialogue input final rest

variable {dialogue : Dialogue} {line : String} {input left : Input}

/-- A line that is heard leaves the input with the same complaint at its end. -/
theorem complaint_of_heard {prompt? : Option String} (h : hear? prompt? input = some (line, left)) :
    left.complaint = input.complaint := by
  obtain ⟨lines, fault⟩ := input
  cases prompt? with
  | none =>
      cases h
      rfl
  | some prompt =>
      cases lines <;> cases h
      rfl

theorem exists_question (h : dialogue.isAsked) :
    ∃ id question, dialogue.session.phase = .waiting id question := by
  rw [isAsked] at h
  cases hphase : dialogue.session.phase with
  | waiting id question => exact ⟨id, question, rfl⟩
  | _ => simp [hphase, Phase.question?] at h

theorem session_next (dialogue : Dialogue) (line : String) :
    (dialogue.next line).1.session
      = (dialogue.session.step (dialogue.argument line)).session := by
  rw [next]
  split <;> rfl

theorem responds (hactive : dialogue.isOver = false) (line : String) :
    dialogue.session.Responds (dialogue.argument line) := by
  refine ⟨hactive, fun hasked => ?_⟩
  rw [argument, if_pos (show dialogue.isAsked = true from hasked)]
  rfl

def IsTooLate (dialogue : Dialogue) : Prop :=
  dialogue.isAsked ∧ dialogue.session.limit ≤ dialogue.session.steps

theorem failure?_next_of_isAsked (h : dialogue.isAsked) (line : String) :
    (dialogue.next line).1.session.phase.failure?
      = if dialogue.session.limit ≤ dialogue.session.steps
        then some (.stepLimit dialogue.session.limit) else none := by
  obtain ⟨id, question, hphase⟩ := exists_question h
  rw [session_next, argument, if_pos h]
  exact Session.failure?_of_answered hphase _

theorem complaints_next_of_isAsked (h : dialogue.isAsked) (line : String) :
    (dialogue.next line).2.complaints = [] := by
  rw [next, if_pos h]

/-- What is complained of after a call in time is the failure it comes to. -/
theorem complaints_next (hvalid : dialogue.session.Valid) (hactive : dialogue.isOver = false)
    (hlate : ¬ dialogue.IsTooLate) (line : String) :
    (dialogue.next line).2.complaints = (dialogue.next line).1.session.complaints := by
  by_cases hasked : dialogue.isAsked
  · rw [complaints_next_of_isAsked hasked, Session.complaints, failure?_next_of_isAsked hasked,
      if_neg fun hlimit => hlate ⟨hasked, hlimit⟩]
    rfl
  · rw [session_next, ← hvalid.complaints_remark (responds hactive line), next, if_neg hasked]
    rfl

/-! ### Conversations -/

/-- A conversation comes to a question that is answered when the limit is used up. -/
def AnswersTooLate (dialogue : Dialogue) (input : Input) : Prop :=
  ∃ final rest, dialogue.Reaches input final rest ∧ final.IsTooLate
    ∧ (hear? final.prompt? rest).isSome

theorem converse_of_over (h : dialogue.isOver) (input : Input) :
    dialogue.converse input = (.nothing, some dialogue.session) := by
  rw [converse, dif_pos h]

theorem converse_of_unheard (hactive : dialogue.isOver = false)
    (hheard : hear? dialogue.prompt? input = none) :
    dialogue.converse input = (⟨dialogue.prompt?.getD "", [input.complaint]⟩, none) := by
  rw [converse, dif_neg (by simp [hactive])]
  simp only [hheard]

theorem converse_of_heard (hactive : dialogue.isOver = false)
    (hheard : hear? dialogue.prompt? input = some (line, left)) :
    dialogue.converse input
      = ((Said.mk (dialogue.prompt?.getD "") []).followedBy
          ((dialogue.next line).2.followedBy ((dialogue.next line).1.converse left).1),
        ((dialogue.next line).1.converse left).2) := by
  rw [converse, dif_neg (by simp [hactive])]
  simp only [hheard]

theorem not_answersTooLate_of_over (h : dialogue.isOver) (input : Input) :
    ¬ dialogue.AnswersTooLate input := by
  rintro ⟨final, rest, hreaches, hlate, -⟩
  cases hreaches with
  | here =>
      obtain ⟨id, question, hphase⟩ := exists_question hlate.1
      simp [isOver, hphase, Phase.isFinished] at h
  | call hactive => simp [hactive] at h

theorem not_answersTooLate_of_unheard (hheard : hear? dialogue.prompt? input = none) :
    ¬ dialogue.AnswersTooLate input := by
  rintro ⟨final, rest, hreaches, -, hsome⟩
  cases hreaches with
  | here => simp [hheard] at hsome
  | call _ hother => simp [hheard] at hother

/-- A conversation answers too late with its next call or with one after it. -/
theorem answersTooLate_iff (hactive : dialogue.isOver = false)
    (hheard : hear? dialogue.prompt? input = some (line, left)) :
    dialogue.AnswersTooLate input
      ↔ dialogue.IsTooLate ∨ (dialogue.next line).1.AnswersTooLate left := by
  constructor
  · rintro ⟨final, rest, hreaches, hlate, hsome⟩
    cases hreaches with
    | here => exact .inl hlate
    | call _ hother hrest =>
        rw [hheard] at hother
        cases hother
        exact .inr ⟨final, rest, hrest, hlate, hsome⟩
  · rintro (hlate | ⟨final, rest, hreaches, hlate, hsome⟩)
    · exact ⟨dialogue, input, .here, hlate, by rw [hheard]; rfl⟩
    · exact ⟨final, rest, .call hactive hheard hreaches, hlate, hsome⟩

inductive Tells (dialogue : Dialogue) (input : Input) : Said × Option Session → Prop
  | closed {said} (hlate : ¬ dialogue.AnswersTooLate input)
      (hcomplaints : said.complaints = [input.complaint]) : Tells dialogue input (said, none)
  | told {said session} (hlate : ¬ dialogue.AnswersTooLate input)
      (hfinished : session.phase.isFinished) (hcomplaints : said.complaints = session.complaints) :
      Tells dialogue input (said, some session)
  | silent {said session} (hlate : dialogue.AnswersTooLate input)
      (hfailure : session.phase.failure? = some (.stepLimit dialogue.session.limit))
      (hcomplaints : said.complaints = []) : Tells dialogue input (said, some session)

section Calls

variable (hactive : dialogue.isOver = false)
  (hheard : hear? dialogue.prompt? input = some (line, left))

include hactive hheard

/-- An answer is the call that the limit forbids: nothing is said of it, and the run is over. -/
theorem tells_of_isTooLate (hlate : dialogue.IsTooLate) :
    dialogue.Tells input (dialogue.converse input) := by
  have hfailure := failure?_next_of_isAsked hlate.1 line
  rw [if_pos hlate.2] at hfailure
  obtain ⟨place, hphase⟩ := Phase.eq_failed_of_failure? hfailure
  have hover : (dialogue.next line).1.isOver := by rw [isOver, hphase]; rfl
  rw [converse_of_heard hactive hheard, converse_of_over hover]
  refine .silent ((answersTooLate_iff hactive hheard).mpr (.inl hlate)) hfailure ?_
  exact (List.append_nil _).trans (complaints_next_of_isAsked hlate.1 line)

/-- A call in time ends the run: what is said of it is what is to be said of the run. -/
theorem tells_of_over (hvalid : dialogue.session.Valid) (hlate : ¬ dialogue.IsTooLate)
    (hover : (dialogue.next line).1.isOver) :
    dialogue.Tells input (dialogue.converse input) := by
  have hnever : ¬ dialogue.AnswersTooLate input := by
    rw [answersTooLate_iff hactive hheard]
    exact not_or.mpr ⟨hlate, not_answersTooLate_of_over hover left⟩
  rw [converse_of_heard hactive hheard, converse_of_over hover]
  exact .told hnever hover
    ((List.append_nil _).trans (complaints_next hvalid hactive hlate line))

/-- A call in time does not end the run: nothing is complained about before what follows. -/
theorem Tells.of_next (hvalid : dialogue.session.Valid) (hlate : ¬ dialogue.IsTooLate)
    (hover : (dialogue.next line).1.isOver = false)
    (htells : (dialogue.next line).1.Tells left ((dialogue.next line).1.converse left)) :
    dialogue.Tells input (dialogue.converse input) := by
  have hiff : dialogue.AnswersTooLate input ↔ (dialogue.next line).1.AnswersTooLate left :=
    (answersTooLate_iff hactive hheard).trans (or_iff_right hlate)
  have hlimit : (dialogue.next line).1.session.limit = dialogue.session.limit := by
    rw [session_next]
    exact (hvalid.same_program_step _).2
  have hsaid := complaints_next hvalid hactive hlate line
  rw [Session.complaints_of_active hover] at hsaid
  have hwhole (rest : Said) : ((Said.mk (dialogue.prompt?.getD "") []).followedBy
      ((dialogue.next line).2.followedBy rest)).complaints = rest.complaints :=
    congrArg (· ++ rest.complaints) hsaid
  rw [converse_of_heard hactive hheard]
  generalize (dialogue.next line).1.converse left = result at htells ⊢
  cases htells with
  | closed hafter hcomplaints =>
      rw [complaint_of_heard hheard] at hcomplaints
      exact .closed (mt hiff.mp hafter) ((hwhole _).trans hcomplaints)
  | told hafter hfinished hcomplaints =>
      exact .told (mt hiff.mp hafter) hfinished ((hwhole _).trans hcomplaints)
  | silent hafter hfailure hcomplaints =>
      rw [hlimit] at hfailure
      exact .silent (hiff.mpr hafter) hfailure ((hwhole _).trans hcomplaints)

end Calls

/-- Every conversation tells its failure, unless it answers too late. -/
theorem tells_converse (hvalid : dialogue.session.Valid) (hactive : dialogue.isOver = false)
    (input : Input) : dialogue.Tells input (dialogue.converse input) := by
  induction dialogue, input using converse.induct with
  | case1 dialogue input hover => simp [hactive] at hover
  | case2 dialogue input _ hheard =>
      rw [converse_of_unheard hactive hheard]
      exact .closed (not_answersTooLate_of_unheard hheard) rfl
  | case3 dialogue input _ line left hheard _ _ _ ih =>
      by_cases hlate : dialogue.IsTooLate
      · exact tells_of_isTooLate hactive hheard hlate
      cases hover : (dialogue.next line).1.isOver with
      | true => exact tells_of_over hactive hheard hvalid hlate hover
      | false =>
          have hnext : (dialogue.next line).1.session.Valid := by
            rw [session_next]
            exact hvalid.step _
          exact .of_next hactive hheard hvalid hlate hover (ih hnext hover)

end Dialogue

/-! ### Reports -/

variable {options : Options} {input : Input}

def errorLine (reason : String) : String := "\nError: " ++ reason ++ "\n"

theorem errorOutput_of_nil {said : Said} (h : said.complaints = []) : said.errorOutput = "" := by
  rw [Said.errorOutput, h]
  rfl

theorem errorOutput_of_singleton {said : Said} {reason : String} (h : said.complaints = [reason]) :
    said.errorOutput = errorLine reason := by
  rw [Said.errorOutput, h, List.map_singleton]
  simp [errorLine]

def EndsWith (options : Options) (input : Input) (session : Session) : Prop :=
  ∃ dialogue, opening options = .ok dialogue ∧ (dialogue.converse input).2 = some session

/-- A question of the conversation that options ask for is answered when the limit is used up. -/
def AnswersTooLate (options : Options) (input : Input) : Prop :=
  ∃ dialogue, opening options = .ok dialogue ∧ dialogue.AnswersTooLate input

inductive FailsFor (options : Options) (input : Input) : String → Prop
  | opening {complaint} (hopening : opening options = .error complaint) :
      FailsFor options input complaint
  | closed {dialogue} (hopening : CommandLine.opening options = .ok dialogue)
      (hended : (dialogue.converse input).2 = none) (hfault : input.fault = none) :
      FailsFor options input closedMessage
  | unreadable {dialogue fault} (hopening : CommandLine.opening options = .ok dialogue)
      (hended : (dialogue.converse input).2 = none) (hfault : input.fault = some fault) :
      FailsFor options input (unreadableMessage fault)
  | failed {session failure} (hended : EndsWith options input session)
      (hfailure : session.phase.failure? = some failure) : FailsFor options input failure.message

/-- A run fails for the complaint that no line can be read. -/
theorem failsFor_complaint {dialogue : Dialogue} (hopening : opening options = .ok dialogue)
    (hended : (dialogue.converse input).2 = none) : FailsFor options input input.complaint := by
  rw [Input.complaint]
  cases hfault : input.fault with
  | none => exact .closed hopening hended hfault
  | some fault => exact .unreadable hopening hended hfault

theorem tells_opening {dialogue : Dialogue} (h : opening options = .ok dialogue)
    (input : Input) :
    dialogue.Tells input (dialogue.converse input)
      ∧ dialogue.session.limit = options.maxSteps := by
  rw [opening] at h
  split at h
  · cases h
  · split at h
    · cases h
    · cases h
      exact ⟨Dialogue.tells_converse (Session.valid_new _ _) rfl input, rfl⟩

theorem answersTooLate_iff_of_opening {dialogue : Dialogue} (h : opening options = .ok dialogue) :
    AnswersTooLate options input ↔ dialogue.AnswersTooLate input := by
  simp [AnswersTooLate, h]

theorem report_of_list (hlist : options.list) (input : Input) :
    report options input = ⟨⟨listing, []⟩, 0⟩ := if_pos hlist

theorem report_of_error (hlist : options.list = false) {complaint : String}
    (hopening : opening options = .error complaint) (input : Input) :
    report options input = ⟨⟨"", [complaint]⟩, failureCode⟩ := by
  rw [report, if_neg (by simp [hlist]), hopening]

theorem report_of_closed (hlist : options.list = false) {dialogue : Dialogue} {said : Said}
    (hopening : opening options = .ok dialogue)
    (hconverse : dialogue.converse input = (said, none)) :
    report options input = ⟨(Said.mk (announcement options) []).followedBy said, failureCode⟩ := by
  rw [report, if_neg (by simp [hlist]), hopening]
  simp only [hconverse]

theorem report_of_ended (hlist : options.list = false) {dialogue : Dialogue} {said : Said}
    {session : Session} (hopening : opening options = .ok dialogue)
    (hconverse : dialogue.converse input = (said, some session)) :
    (report options input).said.complaints = said.complaints
      ∧ (report options input).exitCode
        = if session.phase.failure?.isSome then failureCode else 0 := by
  rw [report, if_neg (by simp [hlist]), hopening]
  simp only [hconverse]
  exact ⟨List.append_nil _, rfl⟩

/-- How a command line ends: with its exit code, what is on the error output, and why. -/
inductive Accounts (options : Options) (input : Input) (report : Report) : Prop
  | listed (hlist : options.list) (hcode : report.exitCode = 0)
      (herror : report.said.errorOutput = "")
  | completed {session} (hlist : options.list = false) (hlate : ¬ AnswersTooLate options input)
      (hended : EndsWith options input session)
      (hstatus : session.phase.status = .completed) (hcode : report.exitCode = 0)
      (herror : report.said.errorOutput = "")
  | told {reason} (hlist : options.list = false) (hlate : ¬ AnswersTooLate options input)
      (hreason : FailsFor options input reason)
      (hcode : report.exitCode = failureCode) (herror : report.said.errorOutput = errorLine reason)
  | silent {session} (hlist : options.list = false) (hlate : AnswersTooLate options input)
      (hended : EndsWith options input session)
      (hfailure : session.phase.failure? = some (.stepLimit options.maxSteps))
      (hcode : report.exitCode = failureCode) (herror : report.said.errorOutput = "")

/-- Every run accounts for its exit code in one of four ways. -/
theorem accounts_report (options : Options) (input : Input) :
    Accounts options input (report options input) := by
  cases hlist : options.list with
  | true =>
      rw [report_of_list hlist]
      exact .listed hlist rfl rfl
  | false =>
      cases hopening : opening options with
      | error complaint =>
          rw [report_of_error hlist hopening]
          refine .told hlist ?_ (.opening hopening) rfl (errorOutput_of_singleton rfl)
          simp [AnswersTooLate, hopening]
      | ok dialogue =>
          have hiff := @answersTooLate_iff_of_opening _ input _ hopening
          obtain ⟨htells, hlimit⟩ := tells_opening hopening input
          generalize hconverse : dialogue.converse input = result at htells
          have hended : (dialogue.converse input).2 = result.2 := by rw [hconverse]
          cases htells with
          | closed hlate hcomplaints =>
              rw [report_of_closed hlist hopening hconverse]
              exact .told hlist (mt hiff.mp hlate) (failsFor_complaint hopening hended) rfl
                (errorOutput_of_singleton hcomplaints)
          | @told said session hlate hfinished hcomplaints =>
              obtain ⟨hsaid, hcode⟩ := report_of_ended hlist hopening hconverse
              rw [hcomplaints, Session.complaints] at hsaid
              cases hphase : session.phase with
              | completed place =>
                  rw [hphase] at hsaid hcode
                  exact .completed hlist (mt hiff.mp hlate) ⟨dialogue, hopening, hended⟩
                    (by rw [hphase]; rfl) hcode (errorOutput_of_nil hsaid)
              | failed place failure =>
                  rw [hphase] at hsaid hcode
                  exact .told hlist (mt hiff.mp hlate)
                    (.failed ⟨dialogue, hopening, hended⟩ (by rw [hphase]; rfl)) hcode
                    (errorOutput_of_singleton hsaid)
              | _ => simp [hphase, Phase.isFinished] at hfinished
          | @silent said session hlate hfailure hcomplaints =>
              obtain ⟨hsaid, hcode⟩ := report_of_ended hlist hopening hconverse
              rw [hfailure] at hcode
              rw [hlimit] at hfailure
              exact .silent hlist (hiff.mpr hlate) ⟨dialogue, hopening, hended⟩ hfailure hcode
                (errorOutput_of_nil (hsaid.trans hcomplaints))

/-- **Failures of the command line.** Whatever its options are and whatever the user types, be it
text or not, a command line exits with code 0 or 1. With code 0 it has not complained, and but for a
listing the session is completed. With code 1 it has complained once, by the reason for which it
failed, which is the failure of the session if that has ended; the only exceptions are conversations
in which a question is answered when the limit is used up. Such a conversation ends with the failure
for the limit, and nothing is said of it on the error output. -/
theorem failures_are_told_unless_answered_too_late (options : Options) (input : Input) :
    let result := report options input
    (result.exitCode = 0 ∨ result.exitCode = failureCode)
    ∧ (result.exitCode = 0 → result.said.errorOutput = ""
      ∧ (options.list = false → ∃ session, EndsWith options input session
        ∧ session.phase.status = .completed))
    ∧ (result.exitCode = failureCode → ¬ AnswersTooLate options input →
      ∃ reason, FailsFor options input reason ∧ result.said.errorOutput = errorLine reason)
    ∧ (options.list = false → AnswersTooLate options input →
      result.exitCode = failureCode ∧ result.said.errorOutput = ""
        ∧ ∃ session, EndsWith options input session
          ∧ session.phase.failure? = some (.stepLimit options.maxSteps)) := by
  intro result
  have hdiffer : failureCode ≠ 0 := by decide
  cases accounts_report options input with
  | listed hlist hcode herror =>
      refine ⟨.inl hcode, fun _ => ⟨herror, ?_⟩, fun hfailed => ?_, ?_⟩
      · simp [hlist]
      · exact absurd (hfailed.symm.trans hcode) hdiffer
      · simp [hlist]
  | completed _ hlate hended hstatus hcode herror =>
      refine ⟨.inl hcode, fun _ => ⟨herror, fun _ => ⟨_, hended, hstatus⟩⟩, fun hfailed => ?_,
        fun _ hanswered => absurd hanswered hlate⟩
      exact absurd (hfailed.symm.trans hcode) hdiffer
  | told _ hlate hreason hcode herror =>
      exact ⟨.inr hcode, fun hzero => absurd (hcode.symm.trans hzero) hdiffer,
        fun _ _ => ⟨_, hreason, herror⟩, fun _ hanswered => absurd hanswered hlate⟩
  | silent _ hlate hended hfailure hcode herror =>
      exact ⟨.inr hcode, fun hzero => absurd (hcode.symm.trans hzero) hdiffer,
        fun _ hnot => absurd hlate hnot, fun _ _ => ⟨hcode, herror, _, hended, hfailure⟩⟩

/-- Of two limits that cut a run off, one strikes at a step and is told, and the other strikes at an
answer and is not. A byte that is no text is told as well. -/
theorem failures_are_told_unless_answered_too_late_greeting :
    let early : Options := ⟨"greeting", 1, true, 0, ["Ann"], false, false⟩
    let late : Options := ⟨"greeting", 2, true, 0, ["Ann"], false, false⟩
    let manual : Options := ⟨"greeting", 2, false, 0, [], false, false⟩
    let closed : Input := typedLines ""
    let garbled : Input := .ofBytes [0xff]
    (∃ reason, FailsFor early closed reason
        ∧ (report early closed).said.errorOutput = errorLine reason)
      ∧ (report early closed).said.errorOutput
        = errorLine "MAX STEPS EXCEEDED (1); infinite loop?"
      ∧ AnswersTooLate late closed ∧ (report late closed).said.errorOutput = ""
      ∧ (∃ session, EndsWith late closed session
        ∧ session.phase.failure? = some (.stepLimit 2))
      ∧ (report manual garbled).said.errorOutput
        = errorLine "Failed to read stdin: stream did not contain valid UTF-8" := by
  intro early late manual closed garbled
  have htold : (report early closed).said.errorOutput
      = errorLine "MAX STEPS EXCEEDED (1); infinite loop?" := by decide +kernel
  have hsilent : (report late closed).said.errorOutput = "" := by decide +kernel
  have hearly : ¬ AnswersTooLate early closed := by
    intro hlate
    have hnothing := (failures_are_told_unless_answered_too_late early closed).2.2.2 rfl hlate
    exact absurd (htold.symm.trans hnothing.2.1) (by decide +kernel)
  have hlate : AnswersTooLate late closed := by
    by_contra hnot
    obtain ⟨reason, -, herror⟩ :=
      (failures_are_told_unless_answered_too_late late closed).2.2.1 (by decide +kernel) hnot
    have hempty := hsilent.symm.trans herror
    simp [errorLine] at hempty
  have hends := (failures_are_told_unless_answered_too_late late closed).2.2.2 rfl hlate
  have hreason := (failures_are_told_unless_answered_too_late early closed).2.2.1
    (by decide +kernel) hearly
  exact ⟨hreason, htold, hlate, hsilent, hends.2.2, by decide +kernel⟩

/-- A run that fails for the limit when its question is answered exits with code 1 and leaves the
error output empty. -/
theorem answer_beyond_limit_is_not_told :
    let options : Options := ⟨"greeting", 2, true, 0, ["Ann"], false, false⟩
    ∃ session, EndsWith options (typedLines "") session
      ∧ session.phase.failure? = some (.stepLimit 2)
      ∧ (report options (typedLines "")).exitCode = failureCode
      ∧ (report options (typedLines "")).said.errorOutput = "" := by
  intro options
  have hfailure : ((opening options).toOption.bind fun dialogue =>
      (dialogue.converse (typedLines "")).2.bind fun session => session.phase.failure?)
        = some (.stepLimit 2) := by decide +kernel
  obtain ⟨dialogue, hdialogue, hfailure⟩ := Option.bind_eq_some_iff.mp hfailure
  obtain ⟨session, hended, hfailure⟩ := Option.bind_eq_some_iff.mp hfailure
  have hopening : opening options = .ok dialogue := by
    cases hopening : opening options with
    | error complaint =>
        rw [hopening] at hdialogue
        cases hdialogue
    | ok other =>
        rw [hopening] at hdialogue
        cases hdialogue
        rfl
  exact ⟨session, ⟨dialogue, hopening, hended⟩, hfailure, by decide +kernel, by decide +kernel⟩

end CommandLine

end Flowchart
