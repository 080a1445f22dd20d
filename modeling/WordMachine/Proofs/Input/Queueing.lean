import WordMachine.Proofs.Running

/-!
# Queueing commutes with running

Characters that are queued wait behind all the others, and an `in` takes the first one. So it makes
no difference whether a text is queued before some steps or after them, unless one of these steps is
an `in` that finds the queue empty: it would read from the source instead. A text that is queued in
portions, each of them in time, might as well have been queued as a whole.
-/

namespace WordMachine

/-! ### One step -/

namespace Console

variable {con : Console}

lemma put_queue (con : Console) (cs : List Char) (c : Char) :
    (con.queue cs).put c = ((con.put c).1, (con.put c).2.queue cs) := by
  obtain ⟨output, pending, source, sink⟩ := con
  cases sink with
  | none => rfl
  | some sink =>
    simp only [put, queue]
    rcases sink.send (String.utf8EncodeChar c) with ⟨_ | _, _⟩ <;> rfl

lemma peek_queue (h : con.pending ≠ []) (cs : List Char) :
    (con.queue cs).peek.result = con.peek.result ∧
      (con.queue cs).peek.console = con.peek.console.queue cs := by
  obtain ⟨c, rest, hp⟩ := List.exists_cons_of_ne_nil h
  have hp' : (con.queue cs).pending = c :: (rest ++ cs) := by
    simp [queue, hp]
  rw [peek_cons hp, peek_cons hp']
  exact ⟨rfl, rfl⟩

lemma advance_queue (h : con.pending ≠ []) (cs : List Char) :
    (con.queue cs).advance = con.advance.queue cs := by
  simp [queue, advance, List.tail_append_of_ne_nil h]

end Console

namespace Machine

variable {m : Machine} {n : Nat}

/-- The machine is about to carry out an `in`, and nothing waits to be read. -/
def Starved (m : Machine) : Prop := m.Reads ∧ m.console.pending = []

@[simp] lemma queueInput_nil (m : Machine) : m.queueInput [] = m := by
  simp [queueInput, modifyConsole, Console.queue]

@[simp] lemma queueInput_queueInput (m : Machine) (cs ds : List Char) :
    (m.queueInput cs).queueInput ds = m.queueInput (cs ++ ds) := by
  simp [queueInput, modifyConsole, Console.queue]

/-- Queueing commutes with a step. -/
theorem step_queueInput (h : ¬ m.Starved) (cs : List Char) :
    (m.queueInput cs).step.result = m.step.result ∧
      (m.queueInput cs).step.machine = m.step.machine.queueInput cs := by
  have hpending (hreads : m.Reads) : m.console.pending ≠ [] := fun hp => h ⟨hreads, hp⟩
  apply step_modifyConsole
  · intro _ c
    exact m.console.put_queue cs c
  · intro hreads
    exact Console.peek_queue (hpending hreads) cs
  · intro hreads
    obtain ⟨c, rest, hp⟩ := List.exists_cons_of_ne_nil (hpending hreads)
    rw [Console.peek_cons hp]
    exact Console.advance_queue (hpending hreads) cs

/-! ### Runs -/

/-- Queueing commutes with any number of steps. -/
theorem after_queueInput (h : ∀ k < n, ¬ (m.after k).Starved) (cs : List Char) :
    (m.queueInput cs).results n = m.results n ∧
      (m.queueInput cs).after n = (m.after n).queueInput cs := by
  induction n generalizing m with
  | zero => exact ⟨rfl, rfl⟩
  | succ n ih =>
    have hfirst : ¬ m.Starved := h 0 n.succ_pos
    obtain ⟨hresult, hmachine⟩ := step_queueInput hfirst cs
    obtain ⟨hresults, hafter⟩ := ih fun k hk => h (k + 1) (Nat.succ_lt_succ hk)
    rw [results_succ, results_succ, after_succ, after_succ, hresult, hmachine]
    exact ⟨congrArg _ hresults, hafter⟩

lemma finish_queueInput (m : Machine) (t : Option Level) (start : Nat) (log log' : Array Event)
    (cs : List Char) :
    ((m.queueInput cs).finish t start log').result = (m.finish t start log).result ∧
      ((m.queueInput cs).finish t start log').machine =
        (m.finish t start log).machine.queueInput cs := by
  have hhalted : (m.queueInput cs).halted = m.halted := rfl
  simp only [finish, hhalted]
  cases m.halted <;> exact ⟨rfl, rfl⟩

lemma runFrom_queueInput (h : ∀ k < m.stepsMade n, ¬ (m.after k).Starved) (t : Option Level)
    (start : Nat) (log log' : Array Event) (cs : List Char) :
    (runFrom t start n log' (m.queueInput cs)).result = (runFrom t start n log m).result ∧
      (runFrom t start n log' (m.queueInput cs)).machine =
        (runFrom t start n log m).machine.queueInput cs := by
  induction n generalizing m log log' with
  | zero => exact m.finish_queueInput t start log log' cs
  | succ n ih =>
    have hfirst : ¬ m.Starved := h 0 (m.stepsMade_pos n)
    obtain ⟨hresult, hmachine⟩ := step_queueInput hfirst cs
    rcases hr : m.step.result with fault | ⟨_ | _⟩
    · simp only [runFrom, hresult, hmachine, hr, and_self]
    · simp only [runFrom, hresult, hmachine, hr]
      apply ih
      intro k hk
      apply h (k + 1)
      rw [stepsMade, hr]
      exact Nat.succ_lt_succ hk
    · simp only [runFrom, hresult, hmachine, hr, and_true]
      rfl

/-- Queueing commutes with a run. -/
theorem run_queueInput (h : ∀ k < m.stepsMade n, ¬ (m.after k).Starved) (t : Option Level)
    (cs : List Char) :
    ((m.queueInput cs).run t n).result = (m.run t n).result ∧
      ((m.queueInput cs).run t n).machine = (m.run t n).machine.queueInput cs :=
  runFrom_queueInput h t m.cycles #[] #[] cs

end Machine

/-! ### Portions -/

/-- A text to be queued, and the number of steps to be made before more is queued. -/
structure Portion where
  text : List Char
  steps : Nat

/-- The number of steps that go with some portions. -/
def Portion.totalSteps : List Portion → Nat
  | []      => 0
  | p :: ps => p.steps + totalSteps ps

namespace Machine

variable {m : Machine} {ps : List Portion}

/-- The machine after some portions, each queued just before its steps. -/
def afterPortions (m : Machine) : List Portion → Machine
  | []      => m
  | p :: ps => ((m.queueInput p.text).after p.steps).afterPortions ps

/-- The results of all the steps that go with some portions. -/
def portionResults (m : Machine) : List Portion → List (Except Fault Step)
  | []      => []
  | p :: ps =>
    (m.queueInput p.text).results p.steps ++ ((m.queueInput p.text).after p.steps).portionResults ps

/-- Every portion comes in time. -/
def InTime (m : Machine) : List Portion → Prop
  | []      => True
  | p :: ps =>
    (∀ k < p.steps, ¬ ((m.queueInput p.text).after k).Starved) ∧
      ((m.queueInput p.text).after p.steps).InTime ps

/-- Portions that come in time are as good as the whole text at once. -/
theorem afterPortions_eq (h : m.InTime ps) :
    m.portionResults ps =
        (m.queueInput (ps.flatMap Portion.text)).results (Portion.totalSteps ps) ∧
      m.afterPortions ps =
        (m.queueInput (ps.flatMap Portion.text)).after (Portion.totalSteps ps) := by
  induction ps generalizing m with
  | nil => simp [portionResults, afterPortions, Portion.totalSteps]
  | cons p ps ih =>
    obtain ⟨hp, hps⟩ := h
    obtain ⟨hresults, hafter⟩ := ih hps
    -- the later portions are queued before the steps of the first one
    obtain ⟨hresults', hafter'⟩ := after_queueInput hp (ps.flatMap Portion.text)
    rw [queueInput_queueInput] at hresults' hafter'
    rw [List.flatMap_cons, Portion.totalSteps]
    constructor
    · rw [portionResults, results_add, hresults', hafter', hresults]
    · rw [afterPortions, after_add, hafter', hafter]

/-- Whether a text is queued before some steps or after them makes no difference, neither to what
comes of each step nor to the machine in the end, as long as no `in` finds the queue empty. So it is
for a run, and for a text that is queued in portions. -/
theorem queueing_commutes (m : Machine) :
    (∀ n, (∀ k < n, ¬ (m.after k).Starved) → ∀ cs,
      (m.queueInput cs).results n = m.results n ∧
        (m.queueInput cs).after n = (m.after n).queueInput cs) ∧
    (∀ t n, (∀ k < m.stepsMade n, ¬ (m.after k).Starved) → ∀ cs,
      ((m.queueInput cs).run t n).result = (m.run t n).result ∧
        ((m.queueInput cs).run t n).machine = (m.run t n).machine.queueInput cs) ∧
    ∀ ps, m.InTime ps →
      m.portionResults ps =
          (m.queueInput (ps.flatMap Portion.text)).results (Portion.totalSteps ps) ∧
        m.afterPortions ps =
          (m.queueInput (ps.flatMap Portion.text)).after (Portion.totalSteps ps) := by
  refine ⟨?_, ?_, ?_⟩
  · intro n h cs
    exact after_queueInput h cs
  · intro t n h cs
    exact run_queueInput h t cs
  · intro ps h
    exact afterPortions_eq h

/-- A character that the machine refuses stays in front of what is queued behind it. -/
theorem queueing_commutes_reader :
    let m := reader.queueInput ['語']
    (m.results 2 = [.error (.exception (.invalidCharacter 35486)),
        .error (.exception (.invalidCharacter 35486))] ∧
      (m.queueInput ['h']).results 2 = m.results 2 ∧
      (m.queueInput ['h']).after 2 = (m.after 2).queueInput ['h']) ∧
    ((m.queueInput ['h']).run none 5).machine = (m.run none 5).machine.queueInput ['h'] ∧
    reader.afterPortions [⟨['h', 'i'], 1⟩, ⟨['o'], 1⟩] =
      (reader.queueInput ['h', 'i', 'o']).after 2 := by
  intro m
  obtain ⟨hsteps, hrun, -⟩ := queueing_commutes m
  have hresult : m.step.result = .error (.exception (.invalidCharacter 35486)) := rfl
  have hmachine : m.step.machine = m := rfl
  have hafter (k : Nat) : m.after k = m := by
    induction k with
    | zero => rfl
    | succ k ih => rw [after_succ, hmachine, ih]
  have hfed (k : Nat) : ¬ (m.after k).Starved := by
    rw [hafter]
    rintro ⟨-, hp⟩
    cases hp
  obtain ⟨-, -, hportions⟩ := queueing_commutes reader
  have htime : reader.InTime [⟨['h', 'i'], 1⟩, ⟨['o'], 1⟩] := by
    simp only [InTime, and_true]
    constructor
    · rintro k hk ⟨-, hp⟩
      obtain rfl := Nat.lt_one_iff.mp hk
      cases hp
    · rintro k hk ⟨-, hp⟩
      obtain rfl := Nat.lt_one_iff.mp hk
      cases hp
  refine ⟨⟨?_, hsteps 2 (fun k _ => hfed k) ['h']⟩, ?_, ?_⟩
  · simp only [results_succ, results_zero, hmachine, hresult]
  · exact (hrun none 5 (fun k _ => hfed k) ['h']).2
  · exact (hportions _ htime).2

end Machine

end WordMachine
