import WordMachine.Proofs.Programs.Execution

/-!
# A program that echoes its input

The program writes what it reads, up to and including the first full stop. Each round takes one
character and writes it, in four instructions, and leaves the memory and the stack alone.
-/

namespace WordMachine

open Machine

/-- The program, as it stands in memory. -/
def echo : List Word := [20, 32768, 19, 32768, 4, 32769, 32768, 46, 8, 32769, 0, 0]

namespace Echo

def character : Reg := .r0

def isStop : Reg := .r1

def instructions : List Instruction :=
  [.read (.reg character),
    .out (.reg character),
    .binary .eq (.reg isStop) (.reg character) (.imm 46),
    .jf (.reg isStop) (.imm 0),
    .halt]

lemma assemble_instructions : assemble instructions = echo := rfl

/-- The core while the program is carried out. -/
def core (rs : Registers) (pc : Word) : Core :=
  { registers := rs, memory := .ofList echo, pc := pc }

variable {rs : Registers} {pc w : Word} {k : Nat} {i : Instruction} {m : Machine} {c : Char}
  {u x : List Char}

lemma fetch_core (hi : instructions[k]? = some i)
    (hpc : pc.toNat = (assemble (instructions.take k)).length) : (core rs pc).fetch = .ok i := by
  refine Core.fetch_of_assemble [] ?_ hi hpc (by decide) (by decide)
  rw [assemble_instructions, List.append_nil]
  rfl

/-! ### One round -/

/-- A character that is written and does not end the program. -/
def Passes (c : Char) : Prop := c ≠ '.' ∧ c.toNat < 0x8000

lemma exists_word (h : c.toNat < 0x8000) : ∃ w, Word.ofChar? c = some w :=
  ⟨_, if_pos h⟩

lemma Passes.exists_word (h : Passes c) : ∃ w, Word.ofChar? c = some w ∧ w ≠ 46 := by
  obtain ⟨w, hw⟩ := Echo.exists_word h.2
  refine ⟨w, hw, ?_⟩
  rintro rfl
  exact h.1 (Option.some.inj (Word.char?_of_ofChar? hw)).symm

/-- The first three instructions take a character, write it, and compare it with the full stop. -/
lemma reaches_character (h : m.Ready (core rs 0)) (hx : m.console.Remains (c :: x))
    (hw : Word.ofChar? c = some w) :
    ∃ m' rs', m.Reaches 3 [c] [c] m' ∧ m'.Ready (core rs' 8) ∧
      rs'.get isStop = if w = 46 then 1 else 0 := by
  have hvalue : (rs.set character w).get character = w := rs.get_set_self character w
  obtain ⟨m₁, hread, h₁⟩ := h.read (fetch_core (k := 0) rfl rfl) rfl hx hw
  replace h₁ : m₁.Ready (core (rs.set character w) 2) := h₁
  obtain ⟨m₂, hprint, h₂⟩ := h₁.print (fetch_core (k := 1) rfl rfl)
    (hvalue.symm ▸ Word.char?_of_ofChar? hw)
  replace h₂ : m₂.Ready (core (rs.set character w) 4) := h₂
  have hcompare : (core (rs.set character w) 4).act
      (.binary .eq (.reg isStop) (.reg character) (.imm 46)) =
        .ok (.update (.store (.reg isStop) (if w = 46 then 1 else 0))) := by
    rw [Core.act, show (core (rs.set character w) 4).value (.reg character) = w from hvalue]
    rfl
  obtain ⟨m₃, hstore, h₃⟩ := h₂.update (fetch_core (k := 2) rfl rfl) hcompare
  exact ⟨m₃, _, (hread.trans hprint).trans hstore, h₃, Registers.get_set_self _ _ _⟩

/-- After a character that passes, the machine goes back to the start. -/
lemma reaches_round (h : m.Ready (core rs 0)) (hx : m.console.Remains (c :: x)) (hc : Passes c) :
    ∃ m' rs', m.Reaches 4 [c] [c] m' ∧ m'.Ready (core rs' 0) := by
  obtain ⟨w, hw, hne⟩ := hc.exists_word
  obtain ⟨m₁, rs', hcharacter, h₁, hstop⟩ := reaches_character h hx hw
  rw [if_neg hne] at hstop
  obtain ⟨m₂, hjump, h₂⟩ := h₁.update (fetch_core (k := 3) rfl rfl) (if_pos hstop)
  exact ⟨m₂, rs', hcharacter.trans hjump, h₂⟩

/-- After a full stop it goes on, and halts. -/
lemma reaches_stop (h : m.Ready (core rs 0)) (hx : m.console.Remains ('.' :: x)) :
    ∃ m', m.Reaches 5 ['.'] ['.'] m' ∧ m'.halted = true := by
  obtain ⟨m₁, rs', hcharacter, h₁, hstop⟩ := reaches_character h hx rfl
  have hnonzero : rs'.get isStop ≠ 0 := by
    rw [hstop]
    decide
  obtain ⟨m₂, hpass, h₂⟩ := h₁.update (fetch_core (k := 3) rfl rfl) (if_neg hnonzero)
  replace h₂ : m₂.Ready (core rs' 11) := h₂
  obtain ⟨m₃, hhalt, hhalted, -⟩ := h₂.halt (fetch_core (k := 4) rfl rfl)
  exact ⟨m₃, (hcharacter.trans hpass).trans hhalt, hhalted⟩

/-! ### All rounds -/

/-- Characters that pass are written one after the other. -/
theorem reaches_passing (hu : ∀ c ∈ u, Passes c) (h : m.Ready (core rs 0))
    (hx : m.console.Remains (u ++ x)) :
    ∃ m' rs', m.Reaches (4 * u.length) u u m' ∧ m'.Ready (core rs' 0) := by
  -- the first round is taken off, so machine and registers change along the induction
  induction u generalizing m rs with
  | nil => exact ⟨m, rs, .refl m, h⟩
  | cons c u ih =>
    obtain ⟨hc, hu⟩ := List.forall_mem_cons.mp hu
    obtain ⟨m₁, rs₁, hround, h₁⟩ := reaches_round h hx hc
    obtain ⟨m₂, rs₂, hothers, h₂⟩ := ih hu h₁ (hround.input (u ++ x) hx)
    refine ⟨m₂, rs₂, ?_, h₂⟩
    have hsteps : 4 * (c :: u).length = 4 + 4 * u.length := by
      rw [List.length_cons, Nat.mul_succ, Nat.add_comm]
    rw [hsteps]
    exact hround.trans hothers

end Echo

/-- The program echoes its input, however the stream of characters is divided between the queue and
the source. Up to a full stop, all is written, and the rest of the input is left. If the stream ends
before, or if a character comes that has no word, the run fails in the next step, and all before it
was written. -/
theorem echo_law {m : Machine} {x : List Char} (hm : m.Fresh echo) (hx : m.console.Remains x)
    (t : Option Level) (n : Nat) :
    (∀ u w, x = u ++ '.' :: w → (∀ c ∈ u, c ≠ '.' ∧ c.toNat < 0x8000) → 4 * (u.length + 1) + 1 ≤ n →
      (m.run t n).result = .ok (.halted (4 * (u.length + 1) + 1)) ∧
      (m.run t n).machine.console.output = .ofList (u ++ ['.']) ∧
      (m.run t n).machine.console.Remains w) ∧
    ((∀ c ∈ x, c ≠ '.' ∧ c.toNat < 0x8000) → 4 * x.length < n →
      (m.run t n).result = .error .endOfInput ∧
      (m.run t n).machine.cycles = 4 * x.length ∧
      (m.run t n).machine.console.output = .ofList x) ∧
    (∀ u c w, x = u ++ c :: w → (∀ c ∈ u, c ≠ '.' ∧ c.toNat < 0x8000) → 0x8000 ≤ c.toNat →
      4 * u.length < n →
      (m.run t n).result = .error (.exception (.invalidCharacter c.toNat)) ∧
      (m.run t n).machine.cycles = 4 * u.length ∧
      (m.run t n).machine.console.output = .ofList u ∧
      (m.run t n).machine.console.Remains (c :: w)) := by
  have hready : m.Ready (Echo.core .zero 0) := hm.ready
  refine ⟨?_, ?_, ?_⟩
  · rintro u w rfl hu hn
    obtain ⟨m₁, rs, hpassing, h₁⟩ := Echo.reaches_passing hu hready hx
    obtain ⟨m₂, hstop, hhalted⟩ := Echo.reaches_stop h₁ (hpassing.input _ hx)
    have hall := hpassing.trans hstop
    obtain ⟨hresult, hmachine⟩ := hall.run_of_halted hhalted hn
    rw [hmachine]
    refine ⟨hresult, hm.output_of_reaches hall, hall.input w ?_⟩
    rwa [List.append_assoc]
  · intro hpass hn
    have hx' : m.console.Remains (x ++ []) := by rwa [List.append_nil]
    obtain ⟨m₁, rs, hpassing, h₁⟩ := Echo.reaches_passing hpass hready hx'
    have hunread := h₁.unread (Echo.fetch_core (k := 0) rfl rfl) rfl (hpassing.input [] hx')
    obtain ⟨hresult, -, hkept⟩ := hpassing.run_of_error hunread hn
    refine ⟨hresult, ?_, ?_⟩
    · rw [hkept.cycles, hm.cycles_of_reaches hpassing]
    · rw [hkept.output, hm.output_of_reaches hpassing]
  · rintro u c w rfl hu hc hn
    obtain ⟨m₁, rs, hpassing, h₁⟩ := Echo.reaches_passing hu hready hx
    obtain ⟨hrejected, hleft⟩ := h₁.rejected (Echo.fetch_core (k := 0) rfl rfl) rfl
      (hpassing.input _ hx) ((Word.ofChar?_eq_none_iff c).mpr hc)
    obtain ⟨hresult, hmachine, hkept⟩ := hpassing.run_of_error hrejected hn
    refine ⟨hresult, ?_, ?_, ?_⟩
    · rw [hkept.cycles, hm.cycles_of_reaches hpassing]
    · rw [hkept.output, hm.output_of_reaches hpassing]
    · rw [hmachine]
      exact hleft

/-- A stream with a full stop, of which a part waits in the queue, one without, and one with a
character that has no word. -/
theorem echo_law_letters :
    ∃ m m', load echo = .ok m ∧
      m' = ((m.queueInput ['a', 'b']).attachSource
        (.ofBytes (Input.utf8 ['c', '\r', '\n', '.', 'd']))).attachSink .unlimited ∧
      (m'.run none 99).result = .ok (.halted 21) ∧
      (m'.run none 99).machine.console.output = .ofList ['a', 'b', 'c', '\n', '.'] ∧
      (m'.run none 99).machine.console.Remains ['d', '\n'] ∧
      ((m.queueInput ['a', 'b']).run none 99).result = .error .endOfInput ∧
      ((m.queueInput ['a', '쀀']).run none 99).result =
        .error (.exception (.invalidCharacter 0xC000)) ∧
      ((m.queueInput ['a', '쀀']).run none 99).machine.console.Remains ['쀀'] := by
  have hload : load echo = .ok { core := { memory := .ofList echo } } :=
    load_eq_ok_iff.mpr ⟨by decide, rfl⟩
  have hfresh := Fresh.of_load hload
  have hdivided := Fresh.remains_of_load hload ['a', 'b'] ['c', '\r', '\n', '.', 'd']
  have hqueue := Fresh.remains_of_load hload ['a', 'b'] []
  have hqueue' := Fresh.remains_of_load hload ['a', '쀀'] []
  have hm := ((hfresh.queueInput ['a', 'b']).attachSource
    (.ofBytes (Input.utf8 ['c', '\r', '\n', '.', 'd']))).attachSink Sink.reliable_unlimited
  obtain ⟨hstop, -, -⟩ := echo_law hm hdivided none 99
  obtain ⟨hresult, houtput, hleft⟩ :=
    hstop ['a', 'b', 'c', '\n'] ['d', '\n'] rfl (by simp) (by decide)
  refine ⟨_, _, hload, rfl, hresult, houtput, hleft, ?_, ?_⟩
  · obtain ⟨-, hend, -⟩ := echo_law (hfresh.queueInput ['a', 'b']) hqueue none 99
    exact (hend (by simp) (by decide)).1
  · obtain ⟨-, -, hwide⟩ := echo_law (hfresh.queueInput ['a', '쀀']) hqueue' none 99
    obtain ⟨hresult, -, -, hleft⟩ := hwide ['a'] '쀀' [] rfl (by simp) (by decide) (by decide)
    exact ⟨hresult, hleft⟩

end WordMachine
