import WordMachine.Proofs.Operations

/-!
# Sessions at a level of the log

The owner of a machine carries out operations one after the other, and sees of each what it comes
to, the machine after it, and the events that the level of the log lets through. The level selects
events and does nothing else: a session at any level is the session at the last level, with some of
the events left out.
-/

namespace WordMachine

/-! ### Runs -/

namespace Machine

/-- The threshold of a run makes no difference to what it does. -/
theorem run_threshold (m : Machine) (t t' : Option Level) (n : Nat) :
    (m.run t n).result = (m.run t' n).result ∧ (m.run t n).machine = (m.run t' n).machine :=
  (m.runRule_run t n).unique (m.runRule_run t' n)

/-- The threshold selects from events that are the same for every threshold. -/
lemma exists_events_runFrom (m : Machine) (start n : Nat) :
    ∃ es, ∀ t log, (runFrom t start n log m).events.toList = log.toList ++ Event.visible t es := by
  induction n generalizing m with
  | zero =>
    cases h : m.halted with
    | true =>
      refine ⟨[], fun t log => ?_⟩
      cases t <;> simp [runFrom, finish, h, Event.visible]
    | false =>
      refine ⟨[.budgetSpent (m.cycles - start) m.core.pc], fun t log => ?_⟩
      simp only [runFrom, finish, h, Bool.false_eq_true, if_false]
      exact Array.toList_appendList
  | succ n ih =>
    rcases hr : m.step.result with fault | ⟨_ | _⟩
    · refine ⟨m.step.events, fun t log => ?_⟩
      simp only [runFrom, hr]
      exact Array.toList_appendList
    · obtain ⟨es, hes⟩ := ih m.step.machine
      refine ⟨m.step.events ++ es, fun t log => ?_⟩
      simp only [runFrom, hr]
      rw [hes, Array.toList_appendList, Event.visible_append, List.append_assoc]
    · refine ⟨m.step.events, fun t log => ?_⟩
      simp only [runFrom, hr]
      exact Array.toList_appendList

/-- The log of a run is what its threshold lets through of the whole log. -/
theorem events_run_eq_visible (m : Machine) (t : Option Level) (n : Nat) :
    (m.run t n).events.toList = Event.visible t (m.run (some .trace) n).events.toList := by
  obtain ⟨es, hes⟩ := m.exists_events_runFrom m.cycles n
  rw [run, run, hes, hes, Event.visible_trace]
  rfl

/-- The threshold makes no difference to what is seen of a machine that is watched. -/
theorem watchFrom_threshold {α : Type} (look : Machine → α) (t t' : Option Level) (n : Nat)
    (seen : Array (Except Fault Step × α)) (log log' : Array Event) (m : Machine) :
    (watchFrom look t n seen log m).seen = (watchFrom look t' n seen log' m).seen ∧
      (watchFrom look t n seen log m).machine = (watchFrom look t' n seen log' m).machine := by
  induction n generalizing seen log log' m with
  | zero => exact ⟨rfl, rfl⟩
  | succ n ih =>
    rcases hr : m.step.result with fault | ⟨_ | _⟩
    · simp only [watchFrom, hr, and_self]
    · simp only [watchFrom, hr]
      exact ih _ _ _ _
    · simp only [watchFrom, hr, and_self]

end Machine

/-! ### Sessions -/

/-- What an operation comes to. -/
inductive Answer
  /-- The machine was changed from outside. -/
  | changed
  | step (result : Except Fault Step)
  | run (result : Except Fault Outcome)

/-- What the owner of a machine sees of an operation. -/
structure OperationReport where
  answer : Answer
  machine : Machine
  log : List Event

namespace OperationReport

/-- All but the log. -/
def unlogged (r : OperationReport) : Answer × Machine := (r.answer, r.machine)

/-- The report with those events that a level lets through. -/
def selected (t : Option Level) (r : OperationReport) : OperationReport :=
  { r with log := Event.visible t r.log }

end OperationReport

namespace Machine

/-- Carry out an operation at a level of the log. The level stands in for the threshold of a run. -/
def report (t : Option Level) (m : Machine) (op : Operation) : OperationReport :=
  match op with
  | .step    => ⟨.step m.step.result, m.step.machine, Event.visible t m.step.events⟩
  | .run _ n => ⟨.run (m.run t n).result, (m.run t n).machine, (m.run t n).events.toList⟩
  | .edit _ | .queueInput _ | .attachSource _ | .attachSink _ => ⟨.changed, m.operate op, []⟩

/-- Carry out operations one after the other, at a level of the log. -/
def session (t : Option Level) (m : Machine) : List Operation → List OperationReport
  | []        => []
  | op :: ops => m.report t op :: (m.report t op).machine.session t ops

section Equations

variable (t : Option Level) (m : Machine) (op : Operation) (ops : List Operation)

@[simp] lemma session_nil : m.session t [] = [] := rfl

@[simp] lemma session_cons :
    m.session t (op :: ops) = m.report t op :: (m.report t op).machine.session t ops := rfl

end Equations

/-- A level selects from the report at the last level. -/
lemma report_eq_selected (t : Option Level) (m : Machine) (op : Operation) :
    m.report t op = (m.report (some .trace) op).selected t := by
  cases op with
  | step => simp only [report, OperationReport.selected, Event.visible_trace]
  | run _ n =>
    obtain ⟨hresult, hmachine⟩ := m.run_threshold t (some .trace) n
    simp only [report, OperationReport.selected, hresult, hmachine, ← events_run_eq_visible]
  | edit | queueInput | attachSource | attachSink => cases t <;> rfl

/-- An operation of a session leaves behind the machine that it leaves anywhere. -/
lemma machine_report (t : Option Level) (m : Machine) (op : Operation) :
    (m.report t op).machine = m.operate op := by
  cases op with
  | run t' n => exact (m.run_threshold t t' n).2
  | _ => rfl

/-- A level selects from the session at the last level. -/
theorem session_eq_map (t : Option Level) (m : Machine) (ops : List Operation) :
    m.session t ops = (m.session (some .trace) ops).map (OperationReport.selected t) := by
  induction ops generalizing m with
  | nil => rfl
  | cons op ops ih =>
    rw [session_cons, session_cons, List.map_cons, machine_report, machine_report, ih,
      ← report_eq_selected]

/-- All but the log is the same at each level. -/
theorem unlogged_session (t t' : Option Level) (m : Machine) (ops : List Operation) :
    (m.session t ops).map OperationReport.unlogged =
      (m.session t' ops).map OperationReport.unlogged := by
  rw [session_eq_map t, session_eq_map t', List.map_map, List.map_map]
  rfl

end Machine

end WordMachine
