import Flowchart.Proofs.Outcomes
import Mathlib.Data.List.Induction

/-!
# The history of a session

A moment is one step: the session that takes it and the answer that it carries. The history of a
session are its steps since the last reset. Those of them that did something are counted; they lead
from the new session to the one that is reached, and the others change nothing.
-/

namespace Flowchart

structure Moment where
  session : Session
  answer : Option String

namespace Moment

def outcome (moment : Moment) : Outcome := (moment.session.step moment.answer).outcome

def next (moment : Moment) : Session := (moment.session.step moment.answer).session

end Moment

namespace Session

/-- The steps since the last reset; the `earlier` ones come before the calls. -/
def historyFrom (earlier : List Moment) (session : Session) : List Call → List Moment
  | [] => earlier
  | .step answer :: rest =>
    historyFrom (earlier ++ [⟨session, answer⟩]) (session.step answer).session rest
  | .reset :: rest => historyFrom [] session.reset rest

def history (session : Session) (calls : List Call) : List Moment := session.historyFrom [] calls

/-- The steps since the last reset that did something. -/
def countedSteps (session : Session) (calls : List Call) : List Moment :=
  (session.history calls).filter (·.outcome ≠ .idle)

section Concat

variable (session : Session) (calls : List Call)

theorem afterAll_concat (call : Call) :
    session.afterAll (calls ++ [call]) = (session.afterAll calls).after call := by
  simp [afterAll]

theorem historyFrom_step (earlier : List Moment) (answer : Option String) :
    session.historyFrom earlier (calls ++ [.step answer])
      = session.historyFrom earlier calls ++ [⟨session.afterAll calls, answer⟩] := by
  induction calls generalizing earlier session with
  | nil => rfl
  | cons call rest ih => cases call <;> exact ih _ _

theorem historyFrom_reset (earlier : List Moment) :
    session.historyFrom earlier (calls ++ [.reset]) = [] := by
  induction calls generalizing earlier session with
  | nil => rfl
  | cons call rest ih => cases call <;> exact ih _ _

/-- One more step is one more moment of the history. -/
theorem history_step (answer : Option String) :
    session.history (calls ++ [.step answer])
      = session.history calls ++ [⟨session.afterAll calls, answer⟩] :=
  session.historyFrom_step calls [] answer

theorem history_reset : session.history (calls ++ [.reset]) = [] :=
  session.historyFrom_reset calls []

theorem countedSteps_reset : session.countedSteps (calls ++ [.reset]) = [] := by
  rw [countedSteps, history_reset, List.filter_nil]

variable {session calls} {answer : Option String}

theorem countedSteps_of_idle (hidle : ((session.afterAll calls).step answer).outcome = .idle) :
    session.countedSteps (calls ++ [.step answer]) = session.countedSteps calls := by
  rw [countedSteps, history_step, List.filter_append,
    List.filter_cons_of_neg (by simp [Moment.outcome, hidle]), List.filter_nil,
    List.append_nil, countedSteps]

theorem countedSteps_of_counted (hcounted : ((session.afterAll calls).step answer).outcome ≠ .idle) :
    session.countedSteps (calls ++ [.step answer])
      = session.countedSteps calls ++ [⟨session.afterAll calls, answer⟩] := by
  rw [countedSteps, history_step, List.filter_append,
    List.filter_cons_of_pos (by simp [Moment.outcome, hcounted]), List.filter_nil,
    countedSteps]

end Concat

/-! ### Runs of counted steps -/

/-- A step comes to nothing exactly if it is no response. -/
theorem Valid.outcome_eq_idle_iff {session : Session} (h : session.Valid) (answer : Option String) :
    (session.step answer).outcome = .idle ↔ ¬ session.Responds answer := by
  rw [(h.agrees answer).idle_iff, responds_iff, not_not]

theorem Valid.step_of_idle {session : Session} (h : session.Valid) {answer : Option String}
    (hidle : (session.step answer).outcome = .idle) : session.step answer = session.idle :=
  step_of_not_responds ((h.outcome_eq_idle_iff answer).mp hidle)

end Session

/-- After a reset a session is as new. -/
theorem afterAll_reset (graph : Graph) (limit : Nat) (calls : List Call) :
    (Session.new graph limit).afterAll (calls ++ [.reset]) = Session.new graph limit := by
  obtain ⟨-, hgraph, hlimit⟩ := (Session.valid_new graph limit).afterAll calls
  rw [Session.afterAll_concat, Session.after, Session.reset, hgraph, hlimit]
  rfl

/-- Counted steps that lead from a new session to a session. -/
inductive Run (graph : Graph) (limit : Nat) : List Moment → Session → Prop
  | new : Run graph limit [] (Session.new graph limit)
  | step {moments session} (h : Run graph limit moments session) (answer : Option String)
      (hcounted : (session.step answer).outcome ≠ .idle) :
      Run graph limit (moments ++ [⟨session, answer⟩]) (session.step answer).session

namespace Run

variable {graph : Graph} {limit : Nat} {moments : List Moment} {session : Session}

/-- Whatever a run leads to is valid, on the same graph with the same limit. -/
theorem valid (h : Run graph limit moments session) :
    session.Valid ∧ session.graph = graph ∧ session.limit = limit := by
  induction h with
  | new => exact ⟨Session.valid_new graph limit, rfl, rfl⟩
  | step _ answer _ ih =>
      obtain ⟨hvalid, hgraph, hlimit⟩ := ih
      obtain ⟨hsameGraph, hsameLimit⟩ := hvalid.same_program_step answer
      exact ⟨hvalid.step answer, hsameGraph.trans hgraph, hsameLimit.trans hlimit⟩

/-- The count of a session is the number of its counted steps. -/
theorem steps_eq (h : Run graph limit moments session) : session.steps = moments.length := by
  induction h with
  | new => rfl
  | step hrun answer hcounted ih =>
      have hsteps := (hrun.valid.1.agrees answer).counted hcounted
      rw [List.length_append, List.length_singleton, ← ih]
      exact hsteps

theorem of_mem_getLast? (h : Run graph limit moments session) {last : Moment}
    (hlast : last ∈ moments.getLast?) :
    last.next = session ∧ last.session.Valid ∧ last.session.graph = graph
      ∧ last.session.limit = limit ∧ last.outcome ≠ .idle := by
  cases h with
  | new => cases hlast
  | step hrun answer hcounted =>
      rw [List.getLast?_concat] at hlast
      cases hlast
      obtain ⟨hvalid, hgraph, hlimit⟩ := hrun.valid
      exact ⟨rfl, hvalid, hgraph, hlimit, hcounted⟩

theorem of_mem_head? (h : Run graph limit moments session) {first : Moment}
    (hfirst : first ∈ moments.head?) : first.session = Session.new graph limit := by
  induction h with
  | new => cases hfirst
  | step hrun answer hcounted ih =>
      cases hrun with
      | new =>
          cases hfirst
          rfl
      | step hrun' answer' hcounted' =>
          refine ih ?_
          rwa [List.head?_append_of_ne_nil _ (by simp)] at hfirst

end Run

/-- The counted steps of a session lead to where all its calls lead. -/
theorem run_countedSteps (graph : Graph) (limit : Nat) (calls : List Call) :
    Run graph limit ((Session.new graph limit).countedSteps calls)
      ((Session.new graph limit).afterAll calls) := by
  induction calls using List.reverseRecOn with
  | nil => exact .new
  | append_singleton calls call ih =>
      cases call with
      | reset =>
          rw [afterAll_reset, Session.countedSteps_reset]
          exact .new
      | step answer =>
          rw [Session.afterAll_concat]
          by_cases hidle : (((Session.new graph limit).afterAll calls).step answer).outcome = .idle
          · rw [Session.countedSteps_of_idle hidle, Session.after, ih.valid.1.step_of_idle hidle]
            exact ih
          · rw [Session.countedSteps_of_counted hidle]
            exact .step ih answer hidle

end Flowchart
