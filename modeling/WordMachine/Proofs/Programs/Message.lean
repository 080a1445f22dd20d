import WordMachine.Proofs.Programs.Execution

/-!
# A program that writes a message

The message is a list of words that starts at a fixed address and is ended by a zero. One register
points to the next word. Each round loads this word, writes the character whose code it is, and
moves the pointer on, in five instructions. The memory and the stack are left alone.
-/

namespace WordMachine

open Machine

/-- The program, filled up with zeros to where its message starts. -/
def messageWriter : List Word :=
  [1, 32768, 100, 15, 32769, 32768, 8, 32769, 17, 19, 32769, 9, 32768, 32768, 1, 6, 3, 0] ++
    List.replicate 82 0

/-- The program with its message, as it stands in memory. -/
def message (ws : List Word) : List Word := messageWriter ++ (ws ++ [0])

namespace Message

def pointer : Reg := .r0

def letter : Reg := .r1

def instructions : List Instruction :=
  [.set pointer (.imm 100),
    .rmem (.reg letter) (.reg pointer),
    .jf (.reg letter) (.imm 17),
    .out (.reg letter),
    .binary .add (.reg pointer) (.reg pointer) (.imm 1),
    .jmp (.imm 3),
    .halt]

/-- The core while the program is carried out. -/
def core (ws : List Word) (rs : Registers) (pc : Word) : Core :=
  { registers := rs, memory := .ofList (message ws), pc := pc }

variable {ws us vs : List Word} {rs : Registers} {pc w : Word} {k n : Nat} {i : Instruction}
  {c : Char} {m : Machine}

@[simp] lemma length_messageWriter : messageWriter.length = 100 := rfl

lemma length_message (ws : List Word) : (message ws).length = 100 + ws.length + 1 := by
  rw [message, List.length_append, List.length_append, length_messageWriter, Nat.add_assoc]
  rfl

lemma fetch_core (hi : instructions[k]? = some i)
    (hpc : pc.toNat = (assemble (instructions.take k)).length) :
    (core ws rs pc).fetch = .ok i := by
  refine Core.fetch_of_assemble (List.replicate 82 0 ++ (ws ++ [0])) ?_ hi hpc ?_ (by decide)
  · rw [← List.append_assoc]
    rfl
  · decide

/-- Behind the first words of the message there is the next one, or the zero. -/
lemma cell_message (us vs : List Word) (a : Address) (ha : a.val = 100 + us.length) :
    (Memory.ofList (message (us ++ vs))).cell a = vs.headD 0 := by
  rw [Memory.cell_ofList, ha, message, List.append_assoc, ← length_messageWriter,
    List.getD_append_right _ _ _ _ (Nat.le_add_right _ _), Nat.add_sub_cancel_left,
    List.getD_append_right _ _ _ _ (Nat.le_refl _), Nat.sub_self]
  cases vs <;> rfl

/-! ### One round -/

/-- The machine is at the start of a round, with the first words of the message written and the
others to come. -/
structure Before (m : Machine) (ws us vs : List Word) (rs : Registers) : Prop where
  split : ws = us ++ vs
  fits : ws.length ≤ 32667
  ready : m.Ready (core ws rs 3)
  address : (rs.get pointer).toNat = 100 + us.length

namespace Before

lemma length_le (h : Before m ws us vs rs) : us.length + vs.length ≤ 32667 := by
  rw [← List.length_append, ← h.split]
  exact h.fits

/-- The next word is loaded. -/
lemma reaches_load (h : Before m ws us vs rs) :
    ∃ m', m.Reaches 1 [] [] m' ∧ m'.Ready (core ws (rs.set letter (vs.headD 0)) 6) := by
  have hlt : (rs.get pointer).toNat < memorySize := by
    have hlength := h.length_le
    rw [h.address, memorySize]
    omega
  have hload : (core ws rs 3).act (.rmem (.reg letter) (.reg pointer)) =
      .ok (.update (.store (.reg letter) (vs.headD 0))) := by
    rw [Core.act, show (core ws rs 3).value (.reg pointer) = rs.get pointer from rfl,
      Core.addressOf, Word.address_of_lt hlt, MemoryError.raise_ok, ok_bind, h.split]
    exact congrArg (Core.actStore (.reg letter)) (cell_message us vs _ h.address)
  exact h.ready.update (fetch_core (k := 1) rfl rfl) hload

/-- A word that is not zero is about to be written. -/
lemma reaches_letter (h : Before m ws us (w :: vs) rs) (hw : w ≠ 0) :
    ∃ m', m.Reaches 2 [] [] m' ∧ m'.Ready (core ws (rs.set letter w) 9) := by
  obtain ⟨m₁, hload, h₁⟩ := h.reaches_load
  have hletter : (rs.set letter w).get letter ≠ 0 := by rwa [Registers.get_set_self]
  obtain ⟨m₂, hpass, h₂⟩ := h₁.update (fetch_core (k := 2) rfl rfl) (if_neg hletter)
  exact ⟨m₂, hload.trans hpass, h₂⟩

/-- At the zero the machine halts. -/
lemma reaches_end (h : Before m ws us [] rs) :
    ∃ m' rs', m.Reaches 3 [] [] m' ∧ m'.halted = true ∧ m'.core = core ws rs' 17 := by
  obtain ⟨m₁, hload, h₁⟩ := h.reaches_load
  obtain ⟨m₂, hjump, h₂⟩ := h₁.update (fetch_core (k := 2) rfl rfl)
    (if_pos (rs.get_set_self letter 0))
  replace h₂ : m₂.Ready (core ws (rs.set letter 0) 17) := h₂
  obtain ⟨m₃, hhalt, hhalted, hcore⟩ := h₂.halt (fetch_core (k := 6) rfl rfl)
  exact ⟨m₃, _, (hload.trans hjump).trans hhalt, hhalted, hcore⟩

/-- One round: a letter is written, and the pointer is moved on. -/
lemma reaches_round (h : Before m ws us (w :: vs) rs) (hw : w ≠ 0) (hc : w.char? = some c) :
    ∃ m' rs', m.Reaches 5 [] [c] m' ∧ Before m' ws (us ++ [w]) vs rs' := by
  obtain ⟨m₁, hletter, h₁⟩ := h.reaches_letter hw
  have hvalue : (rs.set letter w).get letter = w := rs.get_set_self letter w
  obtain ⟨m₂, hprint, h₂⟩ := h₁.print (fetch_core (k := 3) rfl rfl) (hvalue.symm ▸ hc)
  replace h₂ : m₂.Ready (core ws (rs.set letter w) 11) := h₂
  let next := Word.wrap (((rs.set letter w).get pointer).toNat + 1)
  obtain ⟨m₃, hadd, h₃⟩ := h₂.update (fetch_core (k := 4) rfl rfl) rfl
  replace h₃ : m₃.Ready (core ws ((rs.set letter w).set pointer next) 15) := h₃
  obtain ⟨m₄, hjump, h₄⟩ := h₃.update (fetch_core (k := 5) rfl rfl) rfl
  refine ⟨m₄, (rs.set letter w).set pointer next,
    ((hletter.trans hprint).trans hadd).trans hjump, ?_, h.fits, h₄, ?_⟩
  · rw [h.split, List.append_assoc]
    rfl
  · -- the sum is below the modulus, so nothing is reduced
    have hlength := h.length_le
    rw [List.length_cons] at hlength
    rw [Registers.get_set_self, Word.toNat_wrap, rs.get_set_of_ne w (by decide), h.address,
      List.length_append, List.length_singleton, modulus]
    omega

end Before

/-- A word that is the code of no character is not written. -/
lemma refused_letter (h : m.Ready (core ws (rs.set letter w) 9)) (hw : 0x8000 ≤ w.toNat) :
    m.step.result = .error (.exception (.invalidCharacter w.toNat)) := by
  have hvalue : (core ws (rs.set letter w) 9).value (.reg letter) = w := rs.get_set_self letter w
  apply h.refused (fetch_core (k := 3) rfl rfl)
  rw [Core.act, hvalue, (Word.char?_eq_none_iff w).mpr hw]

/-! ### All rounds -/

/-- The character that a word is the code of. -/
def character (w : Word) : Char := Char.ofNat w.toNat

lemma char?_eq_character (h : w.toNat < 0x8000) : w.char? = some (character w) := by
  rw [Word.char?, dif_pos h, character, Char.ofNat, dif_pos (Word.isValidChar_of_lt h)]

/-- The letters of a message are written one after the other. -/
theorem Before.reaches_letters {ls : List Word} (h : Before m ws us (ls ++ vs) rs)
    (hls : ∀ w ∈ ls, w ≠ 0) (hsmall : ∀ w ∈ ls, w.toNat < 0x8000) :
    ∃ m' rs', m.Reaches (5 * ls.length) [] (ls.map character) m' ∧
      Before m' ws (us ++ ls) vs rs' := by
  -- the first letter goes over to the words that are written
  induction ls generalizing us m rs with
  | nil => exact ⟨m, rs, .refl m, (List.append_nil us).symm ▸ h⟩
  | cons w ls ih =>
    obtain ⟨hw, hls⟩ := List.forall_mem_cons.mp hls
    obtain ⟨hc, hsmall⟩ := List.forall_mem_cons.mp hsmall
    obtain ⟨m₁, rs₁, hround, h₁⟩ := h.reaches_round hw (char?_eq_character hc)
    obtain ⟨m₂, rs₂, hothers, h₂⟩ := ih h₁ hls hsmall
    have hsteps : 5 * (w :: ls).length = 5 + 5 * ls.length := by
      rw [List.length_cons, Nat.mul_succ, Nat.add_comm]
    rw [List.append_assoc] at h₂
    rw [hsteps]
    exact ⟨m₂, rs₂, hround.trans hothers, h₂⟩

/-- In the first step the pointer is put at the start of the message. -/
lemma reaches_start (h : m.Ready (core ws .zero 0)) (hfits : ws.length ≤ 32667) :
    ∃ m' rs, m.Reaches 1 [] [] m' ∧ Before m' ws [] ws rs := by
  obtain ⟨m₁, hset, h₁⟩ := h.update (fetch_core (k := 0) rfl rfl) rfl
  refine ⟨m₁, Registers.zero.set pointer 100, hset, rfl, hfits, h₁, ?_⟩
  rw [Registers.get_set_self]
  rfl

end Message

/-- The program writes its message, if all words of it are codes of characters that are written, and
leaves memory and stack as they were. Otherwise the run fails at the first word that is not, and
what stands before it was written. -/
theorem message_law (ws : List Word) (hws : ∀ w ∈ ws, w ≠ 0) (hfits : ws.length ≤ 32667) :
    (∃ m, load (message ws) = .ok m) ∧
    ∀ (m : Machine), m.Fresh (message ws) → ∀ (t : Option Level) (n : Nat),
      ((∀ w ∈ ws, w.toNat < 0x8000) → 5 * ws.length + 4 ≤ n →
        (m.run t n).result = .ok (.halted (5 * ws.length + 4)) ∧
        (m.run t n).machine.console.output = .ofList (ws.map fun w => Char.ofNat w.toNat) ∧
        (m.run t n).machine.core.memory = m.core.memory ∧
        (m.run t n).machine.core.stack = .empty) ∧
      (∀ us w vs, ws = us ++ w :: vs → (∀ u ∈ us, u.toNat < 0x8000) → 0x8000 ≤ w.toNat →
        5 * us.length + 4 ≤ n →
        (m.run t n).result = .error (.exception (.invalidCharacter w.toNat)) ∧
        (m.run t n).machine.cycles = 5 * us.length + 3 ∧
        (m.run t n).machine.core.pc = 9 ∧
        (m.run t n).machine.console.output = .ofList (us.map fun w => Char.ofNat w.toNat)) := by
  constructor
  · refine ⟨_, load_eq_ok_iff.mpr ⟨?_, rfl⟩⟩
    rw [Message.length_message, memorySize]
    omega
  · intro m hm t n
    have hready : m.Ready (Message.core ws .zero 0) := hm.ready
    obtain ⟨m₁, rs₁, hstart, h₁⟩ := Message.reaches_start hready hfits
    constructor
    · intro hsmall hn
      have hall : Message.Before m₁ ws [] (ws ++ []) rs₁ := by rwa [List.append_nil]
      obtain ⟨m₂, rs₂, hletters, h₂⟩ := hall.reaches_letters hws hsmall
      obtain ⟨m₃, rs₃, hend, hhalted, hcore⟩ := h₂.reaches_end
      have hreaches := (hstart.trans hletters).trans hend
      have hsteps : 1 + 5 * ws.length + 3 = 5 * ws.length + 4 := by omega
      rw [hsteps] at hreaches
      obtain ⟨hresult, hmachine⟩ := hreaches.run_of_halted hhalted hn
      rw [hmachine]
      refine ⟨hresult, ?_, ?_, ?_⟩
      · rw [hm.output_of_reaches hreaches, List.append_nil]
        rfl
      · rw [hcore, hready.core]
        rfl
      · rw [hcore]
        rfl
    · rintro us w vs rfl hsmall hw hn
      obtain ⟨hus, hws⟩ := List.forall_mem_append.mp hws
      obtain ⟨m₂, rs₂, hletters, h₂⟩ := h₁.reaches_letters hus hsmall
      obtain ⟨m₃, hletter, h₃⟩ := h₂.reaches_letter (hws w List.mem_cons_self)
      have hreaches := (hstart.trans hletters).trans hletter
      have hsteps : 1 + 5 * us.length + 2 = 5 * us.length + 3 := by omega
      rw [hsteps] at hreaches
      obtain ⟨hresult, hmachine, hkept⟩ := hreaches.run_of_error (Message.refused_letter h₃ hw) hn
      refine ⟨hresult, ?_, ?_, ?_⟩
      · rw [hkept.cycles, hm.cycles_of_reaches hreaches]
      · rw [hkept.core, h₃.core]
        rfl
      · rw [hkept.output, hm.output_of_reaches hreaches, List.append_nil]
        rfl

/-- A message of two letters, and one with a word in it that is the code of no character that is
written. -/
theorem message_law_letters :
    ∃ m m', load (message [72, 105]) = .ok m ∧ load (message [72, 40000, 105]) = .ok m' ∧
      (m.run none 99).result = .ok (.halted 14) ∧
      (m.run none 99).machine.console.output = .ofList ['H', 'i'] ∧
      (m'.run none 99).result = .error (.exception (.invalidCharacter 40000)) ∧
      (m'.run none 99).machine.cycles = 8 ∧
      (m'.run none 99).machine.console.output = .ofList ['H'] := by
  obtain ⟨⟨m, hload⟩, hlaw⟩ := message_law [72, 105] (by simp) (by decide)
  obtain ⟨⟨m', hload'⟩, hlaw'⟩ := message_law [72, 40000, 105] (by simp) (by decide)
  obtain ⟨hwritten, -⟩ := hlaw m (.of_load hload) none 99
  obtain ⟨-, hrefused⟩ := hlaw' m' (.of_load hload') none 99
  obtain ⟨hresult, houtput, -, -⟩ := hwritten (by simp) (by decide)
  obtain ⟨hresult', hcycles, -, houtput'⟩ :=
    hrefused [72] 40000 [105] rfl (by simp) (by decide) (by decide)
  exact ⟨m, m', hload, hload', hresult, houtput, hresult', hcycles, houtput'⟩

end WordMachine
