import WordMachine.Proofs.Encoding
import WordMachine.Proofs.Guarded.Machine
import WordMachine.Proofs.Running

/-!
# The guards are needless

Steps and runs of the guarded machine come to the same as those of the machine, for every core and
every console, as long as cycles can be counted. An instruction in memory has addresses of cells for
its targets, it ends where the memory ends at the latest, and an address stays one that was found to
be one. So a guard finds what the checks before it have found already, and there is no incident.
-/

namespace WordMachine

namespace Guarded

/-! ### Carrying out -/

section Exec

variable {α β : Type} {m m' : Machine}

lemma exec_bind_of_ok {x : Guarded α} {f : α → Guarded β} {a : α} (h : exec x m = .ok a m') :
    exec (x >>= f) m = exec (f a) m' := by
  simp only [exec] at h ⊢
  simp only [EStateM.run_bind, h]

lemma exec_bind_of_error {x : Guarded α} {f : α → Guarded β} {e : Stop}
    (h : exec x m = .error e m') : exec (x >>= f) m = .error e m' := by
  simp only [exec] at h ⊢
  simp only [EStateM.run_bind, h]

/-- A result and the machine after it, if there was no incident. -/
def settle : Except Fault α × Machine → EStateM.Result Stop Machine α
  | (.ok a, m)        => .ok a m
  | (.error fault, m) => .error (.fault fault) m

lemma exec_get_bind (f : Machine → Guarded α) : exec (get >>= f) m = exec (f m) m := by
  have hget : exec get m = .ok m m := rfl
  rw [exec_bind_of_ok hget]

lemma exec_bind_congr {x y : Guarded α} {f : α → Guarded β} (h : exec x m = exec y m) :
    exec (x >>= f) m = exec (y >>= f) m := by
  simp only [exec] at h ⊢
  simp only [EStateM.run_bind, h]

/-- Checks that are made one after the other are one check. -/
lemma exec_check_bind {x : Except Exception α} {f : α → Guarded β} {g : α → Except Exception β}
    (h : ∀ a, x = .ok a → exec (f a) m = exec (check (g a)) m) :
    exec (check x >>= f) m = exec (check (x >>= g)) m := by
  cases x with
  | error e => rfl
  | ok a    => exact h a rfl

/-- A plan comes to what the rest of a computation does, after a check that both start with. -/
lemma exec_check_bind_plan {x : Except Exception α} {f : α → Guarded Step}
    {k : α → Except Exception (Word × Action)}
    (h : ∀ a, x = .ok a → exec (f a) m = settle (outcome m (k a))) :
    exec (check x >>= f) m = settle (outcome m (x >>= k)) := by
  cases x with
  | error e => rfl
  | ok a    => exact h a rfl

end Exec

/-! ### Guards that pass -/

section Guards

variable {m : Machine} {w : Word} {a : Address}

lemma exec_add {i : Incident} {n : Nat} (hw : w.toNat < memorySize) (hn : n < memorySize) :
    exec (add i w n) m = .ok (w + UInt16.ofNat n) m := by
  have hsum : w.toNat + n < UInt16.size := by
    simp only [memorySize, UInt16.size] at hw hn ⊢
    omega
  rw [add, if_pos hsum, UInt16.ofNat_add, UInt16.ofNat_toNat]
  rfl

lemma exec_write {dst : Target} {l : Location} (hl : dst.locate = .ok l) (w : Word) :
    exec (write dst w) m = .ok ⟨⟩ (m.modifyCore fun c => c.write l w) := by
  rw [write, hl]
  rfl

/-- A word that was found to be an address is one. -/
lemma address_of_addressOf (ha : Core.addressOf w = .ok a) : w.address = .ok a := by
  rw [Core.addressOf] at ha
  cases h : w.address with
  | error e =>
    rw [h] at ha
    cases ha
  | ok b =>
    rw [h] at ha
    cases ha
    rfl

lemma exec_load (ha : Core.addressOf w = .ok a) :
    exec (load w) m = .ok (m.core.memory.cell a) m := by
  have hget : m.core.memory.get w = .ok (m.core.memory.cell a) := by
    rw [Memory.get, address_of_addressOf ha]
    rfl
  rw [load, exec_get_bind, hget]
  rfl

lemma locate_memory (ha : Core.addressOf w = .ok a) : (Target.memory w).locate = .ok (.cell a) := by
  rw [Target.locate, address_of_addressOf ha]
  rfl

lemma exec_rejump (ha : Core.addressOf w = .ok a) :
    exec (rejump w) m = .ok ⟨⟩ (m.modifyCore fun c => c.goto (Word.ofAddress a)) := by
  rw [rejump, ha]
  rfl

lemma exec_push (h : m.core.stack.isFull = false) :
    exec (push w) m = .ok ⟨⟩ (m.modifyCore fun c => c.push w) := by
  rw [push, exec_get_bind, h]
  rfl

lemma exec_push_of_isFull (h : m.core.stack.isFull = true) :
    exec (push w) m = .error (.fault (.exception .stackOverflow)) m := by
  rw [push, exec_get_bind, h]
  rfl

/-- No result needs more than thirty-two bits. -/
lemma exec_combine {op : BinaryOp} {x y : Word} (hw : op.eval? x y = some w) :
    exec (combine op x y) m = .ok w m := by
  rw [BinaryOp.eval?_eq_map_unreduced?, Option.map_eq_some_iff] at hw
  obtain ⟨n, hn, rfl⟩ := hw
  obtain ⟨u, -, rfl⟩ := Option.map_eq_some_iff.mp ((op.map_toNat_wide? x y).trans hn)
  rw [combine, hn]
  show exec (if u.toNat < UInt32.size then pure (Word.wrap u.toNat) else _) m = _
  rw [if_pos u.toNat_lt_size]
  rfl

lemma exec_combine_error {op : BinaryOp} {x y : Word} (hw : op.eval? x y = none) :
    exec (combine op x y) m = .error (.fault (.exception .divisionByZero)) m := by
  rw [BinaryOp.eval?_eq_map_unreduced?, Option.map_eq_none_iff] at hw
  rw [combine, hw]
  rfl

/-- Every value is the code of a character. -/
lemma exec_character {c : Char} (h : w.char? = some c) : exec (character w) m = .ok c m := by
  by_cases hlt : w.toNat < memorySize
  · rw [Word.char?, dif_pos hlt] at h
    cases h
    rw [character, if_pos hlt, character?, dif_pos (Word.isValidChar_of_lt hlt)]
    rfl
  · rw [(Word.char?_eq_none_iff w).mpr (Nat.not_lt.mp hlt)] at h
    cases h

lemma exec_character_error (h : w.char? = none) :
    exec (character w) m = .error (.fault (.exception (.invalidCharacter w.toNat))) m := by
  rw [character, if_neg (Nat.not_lt.mpr ((Word.char?_eq_none_iff w).mp h))]
  rfl

lemma exec_emit {c : Char} {r : Except String Unit} {con : Console}
    (h : m.console.put c = (r, con)) :
    exec (emit c) m = settle (r.mapError Fault.io, m.modifyConsole fun _ => con) := by
  rw [emit, exec_get_bind]
  simp only [h]
  rcases r with _ | ⟨⟩ <;> rfl

lemma exec_peek :
    exec peek m =
      settle (m.console.peek.result, m.modifyConsole fun con => con.peek.console) := by
  rw [peek, exec_get_bind]
  cases hpeek : m.console.peek with
  | mk r con notes =>
    simp only [Machine.modifyConsole, hpeek]
    cases r <;> rfl

end Guards

/-! ### Rows -/

section Rows

variable {m : Machine} {next w : Word} {limit : Nat}

lemma exec_value_bind {α : Type} (v : Value) (f : Word → Guarded α) :
    exec (value v >>= f) m = exec (f (m.core.value v)) m := by
  have h : exec (value v) m = .ok (m.core.value v) m := rfl
  rw [exec_bind_of_ok h]

lemma exec_top_bind {α : Type} (f : Word → Guarded α) :
    exec (top >>= f) m = exec (check m.core.top >>= f) m := rfl

lemma exec_conclude (h : m.cycles < limit) (s : Step) :
    exec (conclude limit s) m =
      .ok s ⟨m.core, m.console, m.cycles + 1, if s = .halted then true else m.halted⟩ := by
  have hcount : exec (count limit) m = .ok ⟨⟩ ⟨m.core, m.console, m.cycles + 1, m.halted⟩ := by
    rw [count, exec_get_bind, if_pos h]
    rfl
  rw [conclude, exec_bind_of_ok hcount]
  cases s <;> rfl

lemma exec_proceed_conclude (h : m.cycles < limit) :
    exec (proceed next >>= conclude limit) m =
      .ok .continued ⟨m.core.goto next, m.console, m.cycles + 1, m.halted⟩ :=
  exec_conclude (m := m.modifyCore fun c => c.goto next) h .continued

lemma exec_jump_conclude (h : m.cycles < limit) :
    exec (jump w >>= fun _ => conclude limit .continued) m =
      settle (outcome m (do
        let action ← Core.actJump w
        .ok (next, action))) := by
  simp only [jump, Core.actJump, bind_assoc]
  refine exec_check_bind_plan fun a _ => ?_
  exact exec_conclude (m := m.modifyCore fun c => c.goto (Word.ofAddress a)) h .continued

lemma exec_write_conclude (h : m.cycles < limit) (l : Location) (w : Word) :
    exec (write l.target w >>= fun _ => proceed next >>= conclude limit) m =
      settle (outcome m (do
        let action ← Core.actStore l.target w
        .ok (next, action))) := by
  rw [exec_bind_of_ok (exec_write l.locate_target w), Core.actStore, l.locate_target]
  exact exec_proceed_conclude (m := m.modifyCore fun c => c.write l w) h

/-- A row of the table does what the instruction amounts to, with no incident. -/
lemma exec_row (i : Instruction) (hi : i.Proper) (h : m.cycles < limit) :
    exec (row next i >>= conclude limit) m =
      settle (outcome m (do
        let action ← m.core.act i
        .ok (next, action))) := by
  cases i with
  | halt => exact exec_conclude h .halted
  | set dst v =>
    exact exec_proceed_conclude (m := m.modifyCore fun c => c.write (.reg dst) (m.core.value v)) h
  | push v =>
    simp only [row, bind_assoc, exec_value_bind, Core.act]
    cases hfull : m.core.stack.isFull with
    | true =>
      rw [exec_bind_of_error (exec_push_of_isFull hfull)]
      rfl
    | false =>
      rw [exec_bind_of_ok (exec_push hfull)]
      exact exec_proceed_conclude (m := m.modifyCore fun c => c.push (m.core.value v)) h
  | pop dst =>
    obtain ⟨l, rfl⟩ := Target.exists_eq_target hi
    simp only [row, bind_assoc, exec_top_bind, Core.act]
    refine exec_check_bind_plan fun w _ => ?_
    rw [exec_bind_of_ok (exec_write l.locate_target w), l.locate_target]
    exact exec_proceed_conclude (m := m.modifyCore fun c => (c.write l w).pop) h
  | binary op dst x y =>
    obtain ⟨l, rfl⟩ := Target.exists_eq_target fun w hw =>
      hi w (List.mem_append_left _ (List.mem_append_left _ hw))
    simp only [row, bind_assoc, exec_value_bind, Core.act]
    cases hw : op.eval? (m.core.value x) (m.core.value y) with
    | none =>
      rw [exec_bind_of_error (exec_combine_error hw)]
      rfl
    | some w =>
      rw [exec_bind_of_ok (exec_combine hw)]
      exact exec_write_conclude h l w
  | jmp v =>
    simp only [row, bind_assoc, exec_value_bind, Core.act, pure_bind]
    exact exec_jump_conclude h
  | jt x v =>
    simp only [row, bind_assoc, exec_value_bind, Core.act]
    by_cases hx : m.core.value x ≠ 0
    · simp only [if_pos hx, bind_assoc, exec_value_bind, pure_bind]
      exact exec_jump_conclude h
    · simp only [if_neg hx]
      exact exec_proceed_conclude h
  | jf x v =>
    simp only [row, bind_assoc, exec_value_bind, Core.act]
    by_cases hx : m.core.value x = 0
    · simp only [if_pos hx, bind_assoc, exec_value_bind, pure_bind]
      exact exec_jump_conclude h
    · simp only [if_neg hx]
      exact exec_proceed_conclude h
  | not dst x =>
    obtain ⟨l, rfl⟩ := Target.exists_eq_target fun w hw => hi w (List.mem_append_left _ hw)
    simp only [row, bind_assoc, exec_value_bind, Core.act]
    exact exec_write_conclude h l _
  | rmem dst v =>
    obtain ⟨l, rfl⟩ := Target.exists_eq_target fun w hw => hi w (List.mem_append_left _ hw)
    simp only [row, address, bind_assoc, pure_bind, exec_value_bind, Core.act]
    refine exec_check_bind_plan fun a ha => ?_
    rw [exec_bind_of_ok (exec_load ha)]
    exact exec_write_conclude h l _
  | wmem v x =>
    simp only [row, address, bind_assoc, pure_bind, exec_value_bind, Core.act]
    refine exec_check_bind_plan fun a ha => ?_
    rw [exec_value_bind, exec_bind_of_ok (exec_write (locate_memory ha) _)]
    exact exec_proceed_conclude
      (m := m.modifyCore fun c => c.write (.cell a) (m.core.value x)) h
  | call v =>
    simp only [row, address, bind_assoc, pure_bind, exec_value_bind, Core.act]
    refine exec_check_bind_plan fun a ha => ?_
    cases hfull : m.core.stack.isFull with
    | true =>
      rw [exec_bind_of_error (exec_push_of_isFull hfull)]
      rfl
    | false =>
      rw [exec_bind_of_ok (exec_push hfull), exec_bind_of_ok (exec_rejump ha)]
      exact exec_conclude
        (m := m.modifyCore fun c => (c.push next).goto (Word.ofAddress a)) h .continued
  | ret =>
    simp only [row, address, bind_assoc, pure_bind, exec_top_bind, Core.act]
    refine exec_check_bind_plan fun w _ => ?_
    refine exec_check_bind_plan fun a ha => ?_
    show exec (rejump w >>= fun _ => conclude limit .continued) (m.modifyCore Core.pop) = _
    rw [exec_bind_of_ok (exec_rejump ha)]
    exact exec_conclude (m := m.modifyCore fun c => c.pop.goto (Word.ofAddress a)) h .continued
  | out v =>
    simp only [row, bind_assoc, exec_value_bind, Core.act]
    cases hc : (m.core.value v).char? with
    | none =>
      rw [exec_bind_of_error (exec_character_error hc)]
      rfl
    | some c =>
      rw [exec_bind_of_ok (exec_character hc)]
      rcases hput : m.console.put c with ⟨message | ⟨⟩, con⟩
      · rw [exec_bind_of_error (exec_emit hput)]
        simp only [outcome, ok_bind, Machine.perform, Machine.print, hput, settle,
          Machine.modifyConsole]
      · rw [exec_bind_of_ok (exec_emit hput),
          exec_proceed_conclude (m := m.modifyConsole fun _ => con) h]
        simp only [outcome, ok_bind, Machine.perform, Machine.print, hput, settle,
          Machine.modifyConsole]
  | read dst =>
    obtain ⟨l, rfl⟩ := Target.exists_eq_target hi
    simp only [row, bind_assoc, Core.act, l.locate_target]
    have hpeek := exec_peek (m := m)
    cases hc : m.console.peek.result with
    | error fault =>
      rw [hc] at hpeek
      rw [exec_bind_of_error hpeek]
      simp only [outcome, ok_bind, Machine.perform, Machine.read, hc, settle,
        Machine.modifyConsole]
    | ok c =>
      rw [hc] at hpeek
      rw [exec_bind_of_ok hpeek, received]
      cases hw : Word.ofChar? c with
      | none =>
        simp only [outcome, ok_bind, Machine.perform, Machine.read, hc, hw, settle]
        rfl
      | some w =>
        simp only [pure_bind]
        rw [exec_bind_of_ok (exec_write l.locate_target w)]
        simp only [outcome, ok_bind, Machine.perform, Machine.read, hc, hw, settle]
        exact exec_proceed_conclude (m := ⟨m.core.write l w, m.console.peek.console.advance,
          m.cycles, m.halted⟩) h
  | noop => exact exec_proceed_conclude h

end Rows

/-! ### Cycles -/

section Cycles

variable {m : Machine} {limit : Nat}

lemma exec_operand {op : Opcode} {k : Nat} (hpc : m.core.pc.toNat < memorySize)
    (hk : k < memorySize) :
    exec (operand op k) m =
      exec (check (if k ≤ op.arity then m.core.fetchWord (m.core.pc + UInt16.ofNat k) else .ok 0))
        m := by
  rw [operand]
  by_cases harity : k ≤ op.arity
  · rw [if_pos harity, if_pos harity, exec_get_bind, exec_bind_of_ok (exec_add hpc hk)]
  · rw [if_neg harity, if_neg harity]
    rfl

/-- What is read is what the machine reads, and no sum of addresses goes too far. -/
lemma exec_fetch : exec fetch m = exec (check m.core.fetch) m := by
  rw [fetch, exec_get_bind, Core.fetch]
  refine exec_check_bind fun w hw => ?_
  have hpc := Core.lt_of_fetchWord hw
  refine exec_check_bind fun op _ => ?_
  rw [exec_bind_congr (exec_operand hpc (by decide))]
  refine exec_check_bind fun x _ => ?_
  rw [exec_bind_congr (exec_operand hpc (by decide))]
  refine exec_check_bind fun y _ => ?_
  rw [exec_bind_congr (exec_operand hpc (by decide))]
  exact exec_check_bind fun z _ => rfl

lemma exec_step (h : m.cycles < limit) :
    exec (step limit) m = settle (m.step.result, m.step.machine) := by
  rw [step, exec_get_bind]
  cases hh : m.halted with
  | true =>
    rw [Machine.step_of_halted hh]
    rfl
  | false =>
    rw [Machine.step_eq_outcome hh, if_neg Bool.false_ne_true, exec_bind_congr exec_fetch]
    refine exec_check_bind_plan fun i hi => ?_
    have hwidth := Core.pc_add_width_le hi
    have hpos : 0 < i.width := Nat.succ_pos _
    have hpc : m.core.pc.toNat < memorySize := by omega
    have hsmall : i.width < memorySize := by
      have := i.opcode.arity_le
      simp only [Instruction.width, Opcode.width, memorySize]
      omega
    rw [execute, bind_assoc, exec_get_bind, bind_assoc, exec_bind_of_ok (exec_add hpc hsmall)]
    exact exec_row i (Core.proper_of_fetch hi) h

lemma exec_elapsed {start : Nat} (h : start ≤ m.cycles) :
    exec (elapsed start) m = .ok (m.cycles - start) m := by
  rw [elapsed, exec_get_bind, if_pos h]
  rfl

end Cycles

end Guarded

namespace Machine

variable {m : Machine} {n limit : Nat}

/-- There are enough counts for a run if there is one for each step of its budget. -/
lemma cycles_after_lt (h : m.cycles + n ≤ limit) :
    ∀ k < m.stepsMade n, (m.after k).cycles < limit := by
  intro k hk
  have hafter := m.cycles_after_le k
  have hmade := m.stepsMade_le n
  omega

end Machine

namespace Guarded

/-! ### Runs -/

lemma exec_runFrom {m : Machine} {limit start n : Nat} (t : Option Level) (log : Array Event)
    (hstart : start ≤ m.cycles) (h : ∀ k < m.stepsMade n, (m.after k).cycles < limit) :
    exec (runFrom limit start n) m =
      settle ((Machine.runFrom t start n log m).result,
        (Machine.runFrom t start n log m).machine) := by
  -- the machine changes along the induction, but the count that the run started at does not
  induction n generalizing m log with
  | zero =>
    rw [runFrom, exec_get_bind, Machine.runFrom, Machine.finish]
    cases m.halted with
    | true =>
      rw [if_pos rfl, exec_bind_of_ok (exec_elapsed hstart)]
      rfl
    | false =>
      rw [if_neg Bool.false_ne_true, exec_bind_of_ok (exec_elapsed hstart)]
      rfl
  | succ n ih =>
    have hcycles : m.cycles < limit := h 0 (m.stepsMade_pos n)
    have hstep := exec_step hcycles
    have hstart' := Nat.le_trans hstart m.stepRule.cycles_le.1
    rw [runFrom]
    rcases hr : m.step.result with fault | ⟨_ | _⟩
    · rw [hr] at hstep
      rw [exec_bind_of_error hstep]
      simp only [Machine.runFrom, hr, settle]
    · rw [hr] at hstep
      rw [exec_bind_of_ok hstep]
      simp only [Machine.runFrom, hr]
      refine ih _ hstart' fun k hk => h (k + 1) ?_
      simp only [Machine.stepsMade, hr]
      exact Nat.succ_lt_succ hk
    · rw [hr] at hstep
      rw [exec_bind_of_ok hstep]
      simp only [Machine.runFrom, hr]
      rw [exec_bind_of_ok (exec_elapsed hstart')]
      rfl

lemma settle_ne_incident {α : Type} (r : Except Fault α × Machine) (i : Incident) (m : Machine) :
    settle r ≠ .error (.incident i) m := by
  obtain ⟨_ | _, _⟩ := r <;> simp [settle]

/-- As long as cycles can be counted, the machine does without guards: steps and runs of the guarded
machine come to the same as its own, and none of them ends in an incident. -/
theorem guards_needless (limit : Nat) (m : Machine) :
    (m.cycles < limit →
      exec (step limit) m = settle (m.step.result, m.step.machine) ∧
        ∀ i m', exec (step limit) m ≠ .error (.incident i) m') ∧
    ∀ n, (∀ k < m.stepsMade n, (m.after k).cycles < limit) →
      (∀ t, exec (run limit n) m = settle ((m.run t n).result, (m.run t n).machine)) ∧
        ∀ i m', exec (run limit n) m ≠ .error (.incident i) m' := by
  constructor
  · intro h
    have hstep := exec_step h
    refine ⟨hstep, fun i m' => ?_⟩
    rw [hstep]
    exact settle_ne_incident _ i m'
  · intro n h
    have hrun (t : Option Level) :
        exec (run limit n) m = settle ((m.run t n).result, (m.run t n).machine) := by
      rw [run, exec_get_bind]
      exact exec_runFrom t #[] (Nat.le_refl _) h
    refine ⟨hrun, fun i m' => ?_⟩
    rw [hrun none]
    exact settle_ne_incident _ i m'

/-- An instruction that was not read from memory can come to an incident. -/
example : exec (row 3 (.not (.memory 32768) (.imm 0))) {} = .error (.incident .target) {} := rfl

lemma fetch_brink : Machine.brink.core.fetch = .ok .noop := by
  have hword : Machine.brink.core.fetchWord Machine.brink.core.pc = .ok 21 := by
    rw [Core.fetchWord, Memory.get_of_lt _ (by decide)]
    exact congrArg Except.ok (Memory.zero.cell_set_self 32767 21)
  rw [Core.fetch, hword]
  rfl

/-- The last cycle that can be counted, with an instruction at the end of the memory. -/
theorem guards_needless_brink :
    let m := Machine.brink
    m.cycles < 1 ∧ exec (step 1) m = .ok .continued (m.update 32768 .pass) ∧
      exec (run 1 1) m = settle ((m.run none 1).result, (m.run none 1).machine) := by
  intro m
  obtain ⟨hstep, hrun⟩ := guards_needless 1 m
  have hcycles : m.cycles < 1 := Nat.one_pos
  have hresult : m.step.result = .ok .continued :=
    Machine.result_step_of_fetch rfl fetch_brink
  have hmachine : m.step.machine = m.update 32768 .pass :=
    Machine.machine_step_of_fetch rfl fetch_brink
  obtain ⟨hguarded, -⟩ := hstep hcycles
  rw [hresult, hmachine] at hguarded
  exact ⟨hcycles, hguarded, (hrun 1 (Machine.cycles_after_lt (Nat.le_refl 1))).1 none⟩

end Guarded

end WordMachine
