import Mathlib.Data.List.GetD
import WordMachine.Proofs.Encoding
import WordMachine.Proofs.Input.Stream
import WordMachine.Proofs.Operations
import WordMachine.Proofs.Update

/-!
# Carrying out a program

What is needed to follow a machine through a given program. An instruction is fetched if its words
stand in memory where the machine is. `Reaches` says that a machine comes to another one by carrying
out a number of instructions, with the characters that it takes from its input and those that it
writes on the way. It is built up from single instructions, and from it the end of a run is known.
-/

namespace WordMachine

open Input (normalise utf8)

/-! ### Registers -/

lemma zero_lt_registerCount : 0 < registerCount := by decide

lemma one_lt_registerCount : 1 < registerCount := by decide

/-- The first register. -/
def Reg.r0 : Reg := ⟨⟨0, zero_lt_registerCount⟩⟩

/-- The second register. -/
def Reg.r1 : Reg := ⟨⟨1, one_lt_registerCount⟩⟩

/-! ### Instructions in memory -/

/-- The words of some instructions, one after the other. -/
def assemble (is : List Instruction) : List Word := is.flatMap Instruction.encode

instance (i : Instruction) : Decidable i.Proper :=
  List.decidableBAll (fun w : Word => w.toNat < registerBase) i.literals

namespace Core

variable {c : Core} {i : Instruction} {front back : List Word}

lemma fetchWord_ofList {program : List Word} (hm : c.memory = .ofList program) {w : Word}
    (hw : w.toNat < memorySize) : c.fetchWord w = .ok (program.getD w.toNat 0) := by
  rw [fetchWord, hm, Memory.get_of_lt _ hw, Memory.cell_ofList]
  rfl

/-- The words of an instruction are those that are looked at. -/
lemma take_getD (ws : List Word) (h : ws.length ≤ 3) :
    [ws.getD 0 0, ws.getD 1 0, ws.getD 2 0].take ws.length = ws := by
  match ws, h with
  | [], _ | [_], _ | [_, _], _ | [_, _, _], _ => rfl
  | _ :: _ :: _ :: _ :: _, h =>
    simp only [List.length_cons] at h
    omega

/-- An instruction whose words stand where the machine is, is fetched. -/
lemma fetch_of_encode (hm : c.memory = .ofList (front ++ i.encode ++ back))
    (hpc : c.pc.toNat = front.length) (hfits : front.length + i.width ≤ memorySize)
    (hproper : i.Proper) : c.fetch = .ok i := by
  have hwidth : i.width = i.opcode.arity + 1 := rfl
  have hpc' : c.pc.toNat < memorySize := by omega
  have harity := i.opcode.arity_le
  have hword {k : Nat} (hk : k ≤ i.opcode.arity) :
      c.fetchWord (c.pc + UInt16.ofNat k) = .ok (i.encode.getD k 0) := by
    have haddress := Word.toNat_add_ofNat hpc' (show k < memorySize by omega)
    rw [fetchWord_ofList hm (by omega), haddress, hpc, List.append_assoc,
      List.getD_append_right _ _ _ _ (by omega), Nat.add_sub_cancel_left,
      List.getD_append _ _ _ _ (by rw [i.length_encode]; omega)]
  have hfirst : c.fetchWord c.pc = .ok i.opcode.tag := by
    have h := hword (Nat.zero_le _)
    rwa [show UInt16.ofNat 0 = 0 from rfl, UInt16.add_zero] at h
  have hoperand (k : Nat) :
      (if k + 1 ≤ i.opcode.arity then c.fetchWord (c.pc + UInt16.ofNat (k + 1)) else .ok 0) =
        .ok (i.operandWords.getD k 0) := by
    split
    · next hk => rw [hword hk]; rfl
    · next hk =>
      rw [List.getD_eq_default]
      rw [i.length_operandWords]
      omega
  simp only [fetch, hfirst, ok_bind, Opcode.decode_tag, hoperand 0, hoperand 1, hoperand 2]
  apply Instruction.decode_of_operandWords hproper
  rw [Opcode.operands, ← i.length_operandWords, take_getD]
  rw [i.length_operandWords]
  exact harity

/-- Where the words of the first instructions end, the next one is fetched. -/
lemma fetch_of_assemble {is : List Instruction} (data : List Word) {k : Nat}
    (hm : c.memory = .ofList (assemble is ++ data)) (hi : is[k]? = some i)
    (hpc : c.pc.toNat = (assemble (is.take k)).length)
    (hfits : (assemble is).length ≤ memorySize) (hproper : ∀ i ∈ is, i.Proper) :
    c.fetch = .ok i := by
  obtain ⟨hk, rfl⟩ := List.getElem?_eq_some_iff.mp hi
  have hcut : assemble is =
      assemble (is.take k) ++ is[k].encode ++ assemble (is.drop (k + 1)) := by
    rw [assemble, assemble, assemble, List.append_assoc, ← List.flatMap_cons,
      ← List.flatMap_append, List.getElem_cons_drop, List.take_append_drop]
  rw [hcut] at hm hfits
  rw [List.append_assoc] at hm
  refine fetch_of_encode hm hpc ?_ (hproper _ (List.getElem_mem hk))
  rw [List.length_append, List.length_append, Instruction.length_encode] at hfits
  exact Nat.le_of_add_right_le hfits

end Core

/-! ### From one machine to another -/

namespace Machine

/-- The machine carries out `k` instructions and is then the other one. On the way it takes some
characters from its input and writes some. -/
structure Reaches (m : Machine) (k : Nat) (taken written : List Char) (m' : Machine) : Prop where
  executes : ∀ j < k, m.Executes j
  after : m.after k = m'
  input : ∀ x, m.console.Remains (taken ++ x) → m'.console.Remains x
  output : m'.console.output = m.console.output ++ .ofList written

/-- The machine has this core, it has not halted, and what it writes is taken. -/
structure Ready (m : Machine) (c : Core) : Prop where
  core : m.core = c
  running : m.halted = false
  sink : m.console.Reliable

namespace Reaches

variable {m m' m'' : Machine} {j k : Nat} {taken taken' written written' : List Char}

lemma refl (m : Machine) : m.Reaches 0 [] [] m where
  executes j hj := absurd hj j.not_lt_zero
  after := rfl
  input _ h := h
  output := String.append_empty.symm

lemma trans (h : m.Reaches j taken written m') (h' : m'.Reaches k taken' written' m'') :
    m.Reaches (j + k) (taken ++ taken') (written ++ written') m'' where
  executes := executes_append h.executes (h.after.symm ▸ h'.executes)
  after := by rw [after_add, h.after, h'.after]
  input x hx := h'.input x (h.input _ (by rwa [List.append_assoc] at hx))
  output := by rw [h'.output, h.output, String.append_assoc, String.ofList_append]

lemma cycles (h : m.Reaches k taken written m') : m'.cycles = m.cycles + k := by
  rw [← h.after, cycles_after h.executes]

/-- One step that carries out an instruction. -/
lemma of_step (hrun : m.halted = false) {s : Step} (hr : m.step.result = .ok s)
    (hinput : ∀ x, m.console.Remains (taken ++ x) → m.step.machine.console.Remains x)
    (houtput : m.step.machine.console.output = m.console.output ++ .ofList written) :
    m.Reaches 1 taken written m.step.machine where
  executes := by
    rintro _ ⟨⟩
    · exact ⟨hrun, s, hr⟩
    · contradiction
  after := rfl
  input := hinput
  output := houtput

end Reaches

/-! ### Single instructions -/

namespace Ready

variable {m : Machine} {c : Core} {i : Instruction}

lemma decodes (h : m.Ready c) (hf : c.fetch = .ok i) : m.Decodes i := by
  rw [← h.core] at hf
  exact ⟨h.running, hf⟩

lemma plan (h : m.Ready c) (hf : c.fetch = .ok i) {action : Action} (ha : c.act i = .ok action) :
    m.core.plan = .ok (c.pc + UInt16.ofNat i.width, action) := by
  rw [← h.core] at ha ⊢
  exact (h.decodes hf).plan_of_act ha

/-- An instruction that changes the core leaves the console alone. -/
lemma update (h : m.Ready c) (hf : c.fetch = .ok i) {u : Update} (ha : c.act i = .ok (.update u)) :
    ∃ m', m.Reaches 1 [] [] m' ∧ m'.Ready (c.apply (c.pc + UInt16.ofNat i.width) u) := by
  obtain ⟨hr, hm⟩ := step_of_plan h.running (h.plan hf ha)
  refine ⟨m.step.machine, .of_step h.running hr ?_ ?_, ?_⟩
  · intro x hx
    rw [hm]
    exact hx
  · rw [hm]
    exact String.append_empty.symm
  · rw [hm, ← h.core]
    exact ⟨rfl, h.running, h.sink⟩

/-- A character that is written leaves the input alone. -/
lemma print (h : m.Ready c) {v : Value} (hf : c.fetch = .ok (.out v)) {ch : Char}
    (hch : (c.value v).char? = some ch) :
    ∃ m', m.Reaches 1 [] [ch] m' ∧ m'.Ready (c.goto (c.pc + 2)) := by
  have hplan := h.plan hf (Core.act_eq_print_iff.mpr ⟨v, rfl, hch⟩)
  obtain ⟨con, hput, hreliable⟩ := h.sink.put ch
  obtain ⟨hr, hm⟩ := step_of_plan h.running hplan
  simp only [perform, Machine.print, hput] at hr hm
  refine ⟨m.step.machine, .of_step h.running hr ?_ ?_, ?_⟩
  · intro x hx
    rw [hm]
    exact hx.of_put hput
  · rw [hm, ← String.singleton_eq_ofList, ← String.push_eq_append]
    exact Console.output_of_put_ok hput
  · rw [hm, ← h.core]
    exact ⟨rfl, h.running, hreliable⟩

/-- What the view of the machine is. -/
lemma shows (h : m.Ready c) {x : List Char} (hx : m.console.Remains x) :
    m.Shows ⟨c, x, false⟩ :=
  ⟨h.core.symm, h.running.symm, hx, h.sink⟩

/-- A character that is taken from the input. -/
lemma read (h : m.Ready c) {dst : Target} (hf : c.fetch = .ok (.read dst)) {l : Location}
    (hl : dst.locate = .ok l) {ch : Char} {x : List Char} (hx : m.console.Remains (ch :: x))
    {w : Word} (hw : Word.ofChar? ch = some w) :
    ∃ m', m.Reaches 1 [ch] [] m' ∧ m'.Ready (c.apply (c.pc + 2) (.store l w)) := by
  have hplan := h.plan hf (Core.act_eq_read_iff.mpr ⟨dst, rfl, hl⟩)
  rw [h.core] at hplan
  have hview (x : List Char) : View.step ⟨c, ch :: x, false⟩ =
      ⟨.ok .continued, ⟨c.apply (c.pc + 2) (.store l w), x, false⟩, 1, ""⟩ := by
    simp only [View.step, hplan, hw]
    rfl
  have hfollows (x : List Char) (hx : m.console.Remains (ch :: x)) :=
    hview x ▸ m.stepRule.follows (h.shows hx)
  obtain ⟨hr, hshows, -, houtput⟩ := hfollows x hx
  refine ⟨m.step.machine, .of_step h.running hr ?_ houtput, ?_⟩
  · exact fun x hx => (hfollows x hx).shows.stream
  · exact ⟨hshows.core.symm, hshows.halted.symm, hshows.sink⟩

/-- Without a character to take, nothing is done. -/
lemma unread (h : m.Ready c) {dst : Target} (hf : c.fetch = .ok (.read dst)) {l : Location}
    (hl : dst.locate = .ok l) (hx : m.console.Remains []) : m.step.result = .error .endOfInput := by
  have hplan := h.plan hf (Core.act_eq_read_iff.mpr ⟨dst, rfl, hl⟩)
  rw [h.core] at hplan
  have hview : View.step ⟨c, [], false⟩ = ⟨.error .endOfInput, ⟨c, [], false⟩, 0, ""⟩ := by
    simp only [View.step, hplan]
    rfl
  exact (hview ▸ m.stepRule.follows (h.shows hx)).result

/-- A character that has no word is not taken. -/
lemma rejected (h : m.Ready c) {dst : Target} (hf : c.fetch = .ok (.read dst)) {l : Location}
    (hl : dst.locate = .ok l) {ch : Char} {x : List Char} (hx : m.console.Remains (ch :: x))
    (hw : Word.ofChar? ch = none) :
    m.step.result = .error (.exception (.invalidCharacter ch.toNat)) ∧
      m.step.machine.console.Remains (ch :: x) := by
  have hplan := h.plan hf (Core.act_eq_read_iff.mpr ⟨dst, rfl, hl⟩)
  rw [h.core] at hplan
  have hview : View.step ⟨c, ch :: x, false⟩ =
      ⟨.error (.exception (.invalidCharacter ch.toNat)), ⟨c, ch :: x, false⟩, 0, ""⟩ := by
    simp only [View.step, hplan, hw]
    rfl
  have hfollows := hview ▸ m.stepRule.follows (h.shows hx)
  exact ⟨hfollows.result, hfollows.shows.stream⟩

/-- An instruction that the core objects to is not carried out. -/
lemma refused (h : m.Ready c) (hf : c.fetch = .ok i) {e : Exception} (ha : c.act i = .error e) :
    m.step.result = .error (.exception e) := by
  rw [← h.core] at ha
  exact (step_of_plan_error h.running ((h.decodes hf).plan_of_act_error ha)).1

/-- At `halt` the machine stops. -/
lemma halt (h : m.Ready c) (hf : c.fetch = .ok .halt) :
    ∃ m', m.Reaches 1 [] [] m' ∧ m'.halted = true ∧ m'.core = c := by
  obtain ⟨hr, hm⟩ := step_of_plan h.running (h.plan hf rfl)
  refine ⟨m.step.machine, .of_step h.running hr ?_ ?_, ?_, ?_⟩
  · intro x hx
    rw [hm]
    exact hx
  · rw [hm]
    exact String.append_empty.symm
  · rw [hm]
    rfl
  · rw [hm]
    exact h.core

end Ready

/-! ### Runs -/

namespace Reaches

variable {m m' : Machine} {k n : Nat} {taken written : List Char} {t : Option Level}

/-- Where a machine comes to a halt, a run ends. -/
lemma run_of_halted (h : m.Reaches k taken written m') (hh : m'.halted = true) (hn : k ≤ n) :
    (m.run t n).result = .ok (.halted k) ∧ (m.run t n).machine = m' := by
  rw [← h.after] at hh
  obtain ⟨hr, hm⟩ := runRule_iff.mp (.halted hn h.executes hh)
  exact ⟨hr, hm.trans h.after⟩

/-- Where a step fails, a run ends, and all is as it was before, except for the console. -/
lemma run_of_error (h : m.Reaches k taken written m') {fault : Fault}
    (hf : m'.step.result = .error fault) (hn : k < n) :
    (m.run t n).result = .error fault ∧ (m.run t n).machine = m'.step.machine ∧
      m'.Kept (m.run t n).machine := by
  have hrule := m'.stepRule
  rw [hf] at hrule
  rw [← h.after] at hf
  obtain ⟨hr, hm⟩ := runRule_iff.mp (.failed hn h.executes hf)
  rw [after_succ', h.after] at hm
  exact ⟨hr, hm, hm.symm ▸ hrule.kept⟩

end Reaches

/-! ### New machines -/

/-- The machine is new, with a program in its memory. Its console may have been connected to
something, which takes all that is written. -/
structure Fresh (m : Machine) (program : List Word) : Prop where
  loaded : ∃ m₀, load program = .ok m₀ ∧ m.core = m₀.core ∧ m₀.KeptOutside m
  sink : m.console.Reliable

namespace Fresh

variable {m : Machine} {program : List Word}

lemma of_load (h : load program = .ok m) : m.Fresh program := by
  refine ⟨⟨m, h, rfl, rfl, rfl, rfl⟩, ?_⟩
  obtain ⟨-, rfl⟩ := load_eq_ok_iff.mp h
  nofun

/-- To connect the console to something does not make the machine any older. -/
lemma modifyConsole (h : m.Fresh program) {f : Console → Console}
    (houtput : (f m.console).output = m.console.output) (hsink : (f m.console).Reliable) :
    (m.modifyConsole f).Fresh program := by
  obtain ⟨⟨m₀, hload, hcore, hkept⟩, -⟩ := h
  exact ⟨⟨m₀, hload, hcore, houtput.trans hkept.output, hkept.cycles, hkept.halted⟩, hsink⟩

lemma queueInput (h : m.Fresh program) (cs : List Char) : (m.queueInput cs).Fresh program :=
  h.modifyConsole rfl h.sink

lemma attachSource (h : m.Fresh program) (source : Source) :
    (m.attachSource source).Fresh program :=
  h.modifyConsole rfl h.sink

lemma attachSink (h : m.Fresh program) {policy : Sink.Policy}
    (hp : Sink.Reliable { policy := policy }) : (m.attachSink policy).Fresh program := by
  apply h.modifyConsole rfl
  rintro _ ⟨⟩
  exact hp

/-- A stream may be divided between the queue and the source. -/
lemma remains_of_load (h : load program = .ok m) (cs text : List Char) :
    ((m.queueInput cs).attachSource (.ofBytes (utf8 text))).console.Remains
      (cs ++ normalise text) := by
  obtain ⟨-, rfl⟩ := load_eq_ok_iff.mp h
  exact ⟨text, rfl, rfl⟩

lemma ready (h : m.Fresh program) : m.Ready { memory := .ofList program } := by
  obtain ⟨⟨m₀, hload, hcore, -, -, hhalted⟩, hsink⟩ := h
  obtain ⟨-, rfl⟩ := load_eq_ok_iff.mp hload
  exact ⟨hcore, hhalted, hsink⟩

lemma cycles (h : m.Fresh program) : m.cycles = 0 := by
  obtain ⟨⟨m₀, hload, -, -, hcycles, -⟩, -⟩ := h
  obtain ⟨-, rfl⟩ := load_eq_ok_iff.mp hload
  exact hcycles

lemma output (h : m.Fresh program) : m.console.output = "" := by
  obtain ⟨⟨m₀, hload, -, houtput, -, -⟩, -⟩ := h
  obtain ⟨-, rfl⟩ := load_eq_ok_iff.mp hload
  exact houtput

/-- All output of a machine that was new is what it has written since. -/
lemma output_of_reaches (h : m.Fresh program) {m' : Machine} {k : Nat} {taken written : List Char}
    (hr : m.Reaches k taken written m') : m'.console.output = .ofList written := by
  rw [hr.output, h.output, String.empty_append]

lemma cycles_of_reaches (h : m.Fresh program) {m' : Machine} {k : Nat} {taken written : List Char}
    (hr : m.Reaches k taken written m') : m'.cycles = k := by
  rw [hr.cycles, h.cycles, Nat.zero_add]

end Fresh

end Machine

end WordMachine
