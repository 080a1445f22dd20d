import WordMachine.Machine.Host
import WordMachine.Proofs.Failure
import WordMachine.Proofs.Steps

/-!
# Input is conserved

What `in` instructions have stored, what waits in the queue, and what is still to come from the
source make up one text, and no step changes it: characters are neither lost nor doubled, and they
keep their order. The messages of failing reads are conserved in the same way, since each of them is
the result of exactly one step.
-/

namespace WordMachine

/-- The word in a place. -/
def Core.look (c : Core) : Location → Word
  | .cell a => c.memory.cell a
  | .reg r  => c.registers.get r

@[simp] lemma Core.look_goto (c : Core) (l : Location) (w : Word) :
    (c.goto w).look l = c.look l := by
  cases l <;> rfl

@[simp] lemma Core.look_write_self (c : Core) (l : Location) (w : Word) :
    (c.write l w).look l = w := by
  cases l with
  | cell a => exact c.memory.cell_set_self a w
  | reg r  => exact c.registers.get_set_self r w

/-! ### Looking at a character -/

/-- The text that is still to be read: what waits in the queue, and what the source will deliver. -/
def Console.stream (con : Console) : List Char := con.pending ++ con.source.unread

lemma Console.stream_of_put {con con' : Console} {c : Char} {x : Except String Unit}
    (h : con.put c = (x, con')) : con'.stream = con.stream := by
  rw [stream, pending_of_put h, source_of_put h, stream]

namespace PeekRule

variable {con con' : Console} {r : Except Fault Char} {c : Char} {fault : Fault}

lemma stream_eq (h : PeekRule con r con') : con'.stream = con.stream := by
  cases h with
  | waiting | exhausted => rfl
  | refilled h hs ht hn =>
    rw [Console.stream, Console.stream, h, Source.unread_of_next? hs,
      Source.Segment.delivered_of_ok ht, hn]
    rfl
  | failed h hs ht =>
    rw [Console.stream, Console.stream, h, Source.unread_of_next? hs,
      Source.Segment.delivered_of_error ht]
    rfl

/-- The character that is looked at is the first one of the text that is still to be read. -/
lemma stream_eq_cons (h : PeekRule con (.ok c) con') : con.stream = c :: con'.advance.stream := by
  rw [← h.stream_eq]
  cases h with
  | waiting h =>
    rw [Console.advance, Console.stream, Console.stream, h]
    rfl
  | refilled => rfl

lemma failures_eq (h : PeekRule con (.ok c) con') : con'.source.failures = con.source.failures := by
  cases h with
  | waiting => rfl
  | refilled h hs ht =>
    rw [Source.failures_of_next? hs, Source.Segment.failure?_of_ok ht]
    rfl

/-- A look that fails finds the source at its end, or it loses one segment. -/
lemma error_cases (h : PeekRule con (.error fault) con') :
    con.pending = [] ∧
      (fault = .endOfInput ∧ con'.source = con.source ∨
        ∃ segment message, fault = .io message ∧ segment.read = .error message ∧
          con.source.next? = some (segment, con'.source)) := by
  cases h with
  | exhausted h => exact ⟨h, .inl ⟨rfl, rfl⟩⟩
  | failed h hs ht => exact ⟨h, .inr ⟨_, _, rfl, ht, hs⟩⟩

end PeekRule

/-! ### Steps -/

namespace Machine

/-- The character that a step stores, if the step is an `in` that succeeds. -/
def stored (m : Machine) (result : Except Fault Step) (m' : Machine) : List Char :=
  match m.core.fetch, result with
  | .ok (.read dst), .ok .continued =>
    match dst.locate with
    | .ok l    => (m'.core.look l).char?.toList
    | .error _ => []
  | _, _ => []

/-- The message of a step that fails to read from the source. -/
def misread (m : Machine) (result : Except Fault Step) (_ : Machine) : List String :=
  match m.core.fetch, m.console.pending, result with
  | .ok (.read _), [], .error (.io message) => [message]
  | _, _, _ => []

/-- The next step is an `in` that finds the queue empty, and whose read fails. -/
def Unreadable (m : Machine) (message : String) : Prop :=
  m.Reads ∧ m.console.pending = [] ∧
    ∃ segment, m.console.source.segments.head? = some segment ∧ segment.read = .error message

variable {m m' : Machine} {r : Except Fault Step} {next : Word} {action : Action}

lemma fetch_ne_read (hp : m.core.plan = .ok (next, action)) (h : ∀ l, action ≠ .read l)
    (dst : Target) : m.core.fetch ≠ .ok (.read dst) := by
  intro hread
  obtain ⟨i, hf, ha, -⟩ := Core.plan_eq_ok_iff.mp hp
  cases hf.symm.trans hread
  obtain ⟨l, hl⟩ : ∃ l, action = .read l := by
    cases ActRule.of_act ha
    exact ⟨_, rfl⟩
  exact h l hl

lemma stored_of_ne (h : r ≠ .ok .continued) : m.stored r m' = [] := by
  unfold stored
  split
  · contradiction
  · rfl

lemma stored_of_plan (hp : m.core.plan = .ok (next, action)) (h : ∀ l, action ≠ .read l) :
    m.stored r m' = [] := by
  unfold stored
  split
  · next dst hread => exact absurd hread (fetch_ne_read hp h dst)
  · rfl

lemma stored_of_read {l : Location} (hp : m.core.plan = .ok (next, .read l)) :
    m.stored (.ok .continued) m' = (m'.core.look l).char?.toList := by
  obtain ⟨i, hf, ha, -⟩ := Core.plan_eq_ok_iff.mp hp
  obtain ⟨dst, rfl, hl⟩ := Core.act_eq_read_iff.mp ha
  simp only [stored, hf, hl]

lemma misread_of_ne (h : ∀ message, r ≠ .error (.io message)) : m.misread r m' = [] := by
  unfold misread
  split
  · next message _ _ => exact absurd rfl (h message)
  · rfl

lemma misread_of_plan (hp : m.core.plan = .ok (next, action)) (h : ∀ l, action ≠ .read l) :
    m.misread r m' = [] := by
  unfold misread
  split
  · next dst _ hread _ => exact absurd hread (fetch_ne_read hp h dst)
  · rfl

lemma misread_of_read {l : Location} {message : String} (hp : m.core.plan = .ok (next, .read l))
    (h : m.console.pending = []) : m.misread (.error (.io message)) m' = [message] := by
  obtain ⟨i, hf, ha, -⟩ := Core.plan_eq_ok_iff.mp hp
  obtain ⟨dst, rfl, -⟩ := Core.act_eq_read_iff.mp ha
  simp only [misread, hf, h]

end Machine

namespace StepRule

open Machine

variable {m m' : Machine} {r : Except Fault Step}

/-- What a step stores is the front of the text that is still to be read. -/
theorem stored_append (h : StepRule m r m') :
    m.stored r m' ++ m'.console.stream = m.console.stream := by
  cases h with
  | stopped | refused | halt =>
    rw [stored_of_ne (by nofun)]
    rfl
  | update h hp =>
    rw [stored_of_plan hp (by nofun)]
    rfl
  | printed h hp hc | unprinted h hp hc =>
    rw [stored_of_plan hp (by nofun)]
    exact Console.stream_of_put hc
  | @read next l c w h hp hc hw =>
    have hlook : (m.core.apply next (.store l w)).look l = w := by
      rw [Core.apply, Core.look_goto, Core.look_write_self]
    rw [stored_of_read hp, hlook, Word.char?_of_ofChar? hw]
    exact (Console.peekRule_of_result hc).stream_eq_cons.symm
  | unread | rejected =>
    rw [stored_of_ne (by nofun)]
    exact m.console.peekRule.stream_eq

/-- The message of a step that fails to read is the first one of those still to come. -/
theorem misread_append (h : StepRule m r m') :
    m.misread r m' ++ m'.console.source.failures = m.console.source.failures := by
  cases h with
  | stopped | refused | halt | update =>
    rw [misread_of_ne (by nofun)]
    rfl
  | printed h hp hc | unprinted h hp hc =>
    rw [misread_of_plan hp (by nofun), Console.source_of_put hc]
    rfl
  | read h hp hc | rejected h hp hc =>
    rw [misread_of_ne (by nofun)]
    exact (Console.peekRule_of_result hc).failures_eq
  | unread h hp hc =>
    obtain ⟨hempty, ⟨rfl, hs⟩ | ⟨segment, message, rfl, ht, hs⟩⟩ :=
      (Console.peekRule_of_result hc).error_cases
    · rw [misread_of_ne (by nofun), hs]
      rfl
    · rw [misread_of_read hp hempty, Source.failures_of_next? hs,
        Source.Segment.failure?_of_error ht]
      rfl

/-- Only a step whose read fails gives a message. -/
theorem unreadable_of_mem (h : StepRule m r m') {message : String}
    (hm : message ∈ m.misread r m') : m.Unreadable message := by
  unfold misread at hm
  split at hm
  · next dst _ hread hempty =>
    obtain rfl := List.mem_singleton.mp hm
    cases h with
    | unprinted h hp => exact absurd hread (fetch_ne_read hp (by nofun) dst)
    | unread h hp hc =>
      obtain ⟨-, ⟨hfault, -⟩ | ⟨segment, _, hfault, ht, hs⟩⟩ :=
        (Console.peekRule_of_result hc).error_cases
      · cases hfault
      · cases hfault
        refine ⟨⟨h, dst, hread⟩, hempty, segment, ?_, ht⟩
        rw [Source.segments_of_next? hs, List.head?_cons]
  · cases hm

end StepRule

namespace Machine

variable {m : Machine} {message : String}

lemma Unreadable.of_peekRule (hm : m.Unreadable message) {r : Except Fault Char} {con : Console}
    (h : PeekRule m.console r con) :
    r = .error (.io message) ∧ con.pending = [] ∧
      con.source.segments = m.console.source.segments.tail := by
  obtain ⟨-, hempty, segment, hhead, ht⟩ := hm
  cases h with
  | waiting hp =>
    rw [hempty] at hp
    cases hp
  | exhausted hp hs =>
    rw [Source.segments, hs] at hhead
    cases hhead
  | refilled hp hs hr =>
    rw [Source.segments_of_next? hs] at hhead
    cases hhead
    cases ht.symm.trans hr
  | failed hp hs hr =>
    rw [Source.segments_of_next? hs] at hhead ⊢
    cases hhead
    cases ht.symm.trans hr
    exact ⟨rfl, hp, rfl⟩

/-- A step whose read fails says so. It loses one segment, and leaves the queue empty. -/
theorem Unreadable.step (h : m.Unreadable message) :
    m.step.result = .error (.io message) ∧ m.step.machine.console.pending = [] ∧
      m.step.machine.console.source.segments = m.console.source.segments.tail := by
  obtain ⟨hr, hpending, hsegments⟩ := h.of_peekRule m.console.peekRule
  obtain ⟨⟨hrun, dst, hread⟩, -⟩ := h
  obtain ⟨next, l, hp⟩ := Core.exists_plan_of_fetch hread
  obtain ⟨hresult, hmachine⟩ := step_of_plan hrun hp
  simp only [hresult, hmachine, perform, read, hr]
  exact ⟨trivial, hpending, hsegments⟩

theorem mem_misread_iff :
    message ∈ m.misread m.step.result m.step.machine ↔ m.Unreadable message := by
  constructor
  · exact m.stepRule.unreadable_of_mem
  · intro h
    obtain ⟨hr, -⟩ := h.step
    obtain ⟨⟨-, dst, hread⟩, hempty, -⟩ := h
    obtain ⟨next, l, hp⟩ := Core.exists_plan_of_fetch hread
    rw [hr, misread_of_read hp hempty]
    exact List.mem_cons_self

end Machine

/-! ### Runs -/

namespace Machine

theorem gather_stored_append (m : Machine) (n : Nat) :
    m.gather stored n ++ (m.after n).console.stream = m.console.stream :=
  gather_append (·.console.stream) (fun m => m.stepRule.stored_append) m n

theorem gather_misread_append (m : Machine) (n : Nat) :
    m.gather misread n ++ (m.after n).console.source.failures = m.console.source.failures :=
  gather_append (·.console.source.failures) (fun m => m.stepRule.misread_append) m n

/-- Whatever a number of steps comes to, the characters stored by them are the front of the text that
was still to be read. Each read that fails is the result of one step, which leaves the queue empty.
Characters that are queued in between are read after those that wait, and before all others. -/
theorem input_conserved (m : Machine) (n : Nat) :
    m.gather stored n ++ (m.after n).console.pending ++ (m.after n).console.source.unread =
      m.console.pending ++ m.console.source.unread ∧
    m.gather misread n ++ (m.after n).console.source.failures = m.console.source.failures ∧
    (∀ message, message ∈ (m.after n).misread (m.after n).step.result (m.after n).step.machine ↔
      (m.after n).Unreadable message) ∧
    (∀ message, (m.after n).Unreadable message →
      (m.after n).step.result = .error (.io message) ∧ (m.after (n + 1)).console.pending = [] ∧
        (m.after (n + 1)).console.source.segments = (m.after n).console.source.segments.tail) ∧
    ∀ cs k, ((m.after n).queueInput cs).gather stored k ++
      (((m.after n).queueInput cs).after k).console.pending ++
      (((m.after n).queueInput cs).after k).console.source.unread =
      (m.after n).console.pending ++ cs ++ (m.after n).console.source.unread := by
  refine ⟨?_, ?_, ?_, ?_, ?_⟩
  · rw [List.append_assoc]
    exact gather_stored_append m n
  · exact gather_misread_append m n
  · exact fun message => mem_misread_iff
  · intro message h
    rw [after_succ']
    exact h.step
  · intro cs k
    rw [List.append_assoc]
    exact gather_stored_append _ k

theorem input_conserved_unlucky :
    unlucky.Unreadable "disk" ∧ unlucky.step.result = .error (.io "disk") ∧
      (unlucky.after 1).console.pending = [] := by
  obtain ⟨-, -, hmem, hcost, -⟩ := input_conserved unlucky 0
  have h : unlucky.Unreadable "disk" := (hmem "disk").mp List.mem_cons_self
  exact ⟨h, (hcost "disk" h).1, (hcost "disk" h).2.1⟩

end Machine

end WordMachine
