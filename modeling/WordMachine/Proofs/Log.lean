import Mathlib.Data.List.Forall2
import WordMachine.Proofs.Running
import WordMachine.Proofs.Text.Listing

/-!
# What the log of a run tells

A log at the last level is a record of the run. Its events are known by what they show, which is a
level, a message and fields: no note can be taken for the announcement of an instruction, for a halt
or for the end of a budget. A run is made of steps that go on, after which it comes to an end, and
`RunEnd` lists the ends that there are, with the events that belong to each. What is true of the log
is then read off the steps that go on and the end.
-/

namespace WordMachine

/-! ### Telling events apart -/

/-- How a message about a step or about a run begins. -/
def initials : List Char := ['E', 'C', 'S']

lemma initial_append {s : String} {c : Char} (h : s.toList.head? = some c) (t : String) :
    (s ++ t).toList.head? = some c := by
  rw [String.toList_append, List.head?_append, h]
  rfl

/-- A note begins in another way. -/
lemma Note.exists_initial (note : Note) :
    ∃ c, note.text.toList.head? = some c ∧ c ∉ initials := by
  cases note with
  | assigned r w =>
    have hsign : r.text.toList.head? = some '%' := by
      rw [r.toList_text]
      rfl
    exact ⟨'%', initial_append (initial_append hsign _) _, by decide⟩
  | pushed w     => exact ⟨'p', initial_append (initial_append rfl _) _, by decide⟩
  | popped w     => exact ⟨'p', initial_append rfl _, by decide⟩
  | inverted a w =>
    exact ⟨'!', initial_append (initial_append (initial_append rfl _) _) _, by decide⟩
  | loaded a w | stored a w =>
    exact ⟨'[', initial_append (initial_append (initial_append rfl _) _) _, by decide⟩
  | jumping a    => exact ⟨'J', initial_append rfl _, by decide⟩
  | returning a  => exact ⟨'R', initial_append rfl _, by decide⟩
  | received c   => exact ⟨'i', initial_append rfl _, by decide⟩
  | refilled cs  =>
    have hR : "Refilling input queue".toList.head? = some 'R' := by simp
    exact ⟨'R', hR, by decide⟩
  | exhausted    =>
    have hI : "Input source exhausted".toList.head? = some 'I' := by simp
    exact ⟨'I', hI, by decide⟩
  | computed op a b w =>
    obtain ⟨c, hc⟩ : ∃ c, a.text.toList.head? = some c := by
      rw [Word.text, Nat.toString_eq_ofList_toDigits, String.toList_ofList]
      exact Option.ne_none_iff_exists'.mp (List.head?_eq_none_iff.not.mpr Nat.toDigits_ne_nil)
    have hdigit : c.isDigit = true := isDigit_of_mem_toString (List.mem_of_head? hc)
    refine ⟨c, ?_, ?_⟩
    · iterate 8 apply initial_append
      exact hc
    · intro hletter
      have hletters : initials.all (fun c => !c.isDigit) = true := rfl
      have hno := List.all_eq_true.mp hletters c hletter
      rw [hdigit] at hno
      cases hno

namespace Event

/-- The message says that an instruction is about to be carried out. -/
def isAnnouncement (e : Event) : Bool := "Executing instruction".toList.isPrefixOf e.message.toList

/-- The event is the announcement of the next instruction of a machine, with its address. -/
def Announces (e : Event) (m : Machine) : Prop :=
  ∃ i, m.core.fetch = .ok i ∧ e.message = "Executing instruction \"" ++ i.text ++ "\"" ∧
    e.fields = [("pc", .shown m.core.pc.text), ("opcode", .shown i.opcode.name)]

/-- The event belongs to an instruction that is being carried out. -/
def isInner : Event → Bool
  | executing _ _ | during _ _ => true
  | _ => false

variable {pc : Word} {i : Instruction} {note : Note} {e : Event}

lemma message_executing :
    (executing pc i).message = "Executing instruction \"" ++ i.text ++ "\"" := rfl

lemma isAnnouncement_executing : (executing pc i).isAnnouncement = true := by
  have hopening : "Executing instruction".toList <+: "Executing instruction \"".toList := by simp
  rw [isAnnouncement, message_executing, List.isPrefixOf_iff_prefix, String.toList_append,
    String.toList_append, List.append_assoc]
  exact hopening.trans (List.prefix_append _ _)

/-- What begins in another way is no announcement. -/
lemma not_isAnnouncement_of_initial (h : e.message.toList.head? ≠ some 'E') :
    ¬ e.isAnnouncement = true := by
  intro he
  rw [isAnnouncement, List.isPrefixOf_iff_prefix] at he
  obtain ⟨rest, hrest⟩ := he
  apply h
  rw [← hrest, List.head?_append]
  rfl

lemma not_isAnnouncement_during : ¬ (during i note).isAnnouncement = true := by
  obtain ⟨c, hnote, hc⟩ := note.exists_initial
  apply not_isAnnouncement_of_initial
  intro hE
  obtain rfl := Option.some.inj (hnote.symm.trans hE)
  exact hc List.mem_cons_self

/-- Of all events, the announcements are those of instructions that are about to be carried out. -/
lemma not_isAnnouncement_of_outer (h : e.isInner = false) : ¬ e.isAnnouncement = true := by
  apply not_isAnnouncement_of_initial
  cases e with
  | executing | during => cases h
  | undecodable fault =>
    show "".toList.head? ≠ some 'E'
    simp
  | halted pc cycles =>
    show "Computer halted".toList.head? ≠ some 'E'
    simp
  | budgetSpent steps pc =>
    show "Step budget exhausted".toList.head? ≠ some 'E'
    simp

/-- No event of an instruction is an error. -/
lemma level_ne_error_of_isInner (h : e.isInner = true) : e.level ≠ .error := by
  cases e with
  | executing => nofun
  | during i note => cases note <;> nofun
  | _ => cases h

/-- No event of an instruction is about a whole step or a whole run. -/
lemma message_ne_of_isInner {s : String} {c : Char} (hs : s.toList.head? = some c)
    (hc : c ∈ initials) (hE : c ≠ 'E') (h : e.isInner = true) : e.message ≠ s := by
  rintro rfl
  cases e with
  | executing pc i =>
    have hE' : "Executing instruction \"".toList.head? = some 'E' := by simp
    have hmessage := initial_append (initial_append hE' i.text) "\""
    exact hE (Option.some.inj (hs.symm.trans hmessage))
  | during i note =>
    obtain ⟨d, hnote, hd⟩ := note.exists_initial
    obtain rfl := Option.some.inj (hs.symm.trans hnote)
    exact hd hc
  | _ => cases h

lemma message_ne_halted_of_isInner (h : e.isInner = true) : e.message ≠ "Computer halted" :=
  message_ne_of_isInner (c := 'C') rfl (by decide) (by decide) h

lemma message_ne_spent_of_isInner (h : e.isInner = true) : e.message ≠ "Step budget exhausted" :=
  message_ne_of_isInner (c := 'S') rfl (by decide) (by decide) h

end Event

/-! ### Events of steps -/

namespace Machine

/-- The events of carrying out an instruction, up to where it is seen whether the machine halts. -/
def account (m : Machine) (i : Instruction) : List Event :=
  .executing m.core.pc i :: (m.execute i).notes.map (.during i)

/-- The events of a number of steps. -/
def trace (m : Machine) (k : Nat) : List Event := m.gather (fun m _ _ => m.step.events) k

/-- The first steps go on with the next one. -/
def Continues (m : Machine) (k : Nat) : Prop :=
  ∀ j < k, (m.after j).step.result = .ok .continued

variable {m : Machine} {i : Instruction} {k n : Nat}

lemma events_step_of_fetch (h : m.halted = false) (hf : m.core.fetch = .ok i) :
    m.step.events = m.account i ++ m.step.machine.haltEvents m.step.result := by
  simp only [step, h, hf, account]
  rfl

lemma isInner_of_mem_account {e : Event} (h : e ∈ m.account i) : e.isInner = true := by
  obtain rfl | h := List.mem_cons.mp h
  · rfl
  · obtain ⟨note, -, rfl⟩ := List.mem_map.mp h
    rfl

/-- An instruction is announced once. -/
lemma filter_account : (m.account i).filter Event.isAnnouncement = [.executing m.core.pc i] := by
  rw [account, List.filter_cons_of_pos Event.isAnnouncement_executing]
  apply congrArg (List.cons _)
  rw [List.filter_eq_nil_iff]
  intro e he
  obtain ⟨note, -, rfl⟩ := List.mem_map.mp he
  exact Event.not_isAnnouncement_during

/-- Only `halt` stops a machine. -/
lemma halted_result_iff (h : m.halted = false) :
    m.step.result = .ok .halted ↔ m.core.fetch = .ok .halt := by
  constructor
  · intro hr
    have hrule := m.stepRule
    rw [hr] at hrule
    generalize m.step.machine = m' at hrule
    cases hrule with
    | stopped hm =>
      rw [hm] at h
      cases h
    | halt _ hp =>
      obtain ⟨i, hf, ha, -⟩ := Core.plan_eq_ok_iff.mp hp
      cases ActRule.of_act ha with
      | halt => exact hf
  · intro hf
    rw [result_step_of_fetch h hf]
    rfl

lemma halted_of_continued (h : m.step.result = .ok .continued) : m.halted = false := by
  cases hm : m.halted with
  | false => rfl
  | true =>
    rw [step_of_halted hm] at h
    cases h

/-- A step that goes on has carried out an instruction, other than `halt`. -/
lemma exists_of_continued (h : m.step.result = .ok .continued) :
    ∃ i, m.core.fetch = .ok i ∧ i ≠ .halt ∧ m.step.events = m.account i := by
  have hm := halted_of_continued h
  cases hf : m.core.fetch with
  | error e =>
    rw [step_of_fetch_error hm hf] at h
    cases h
  | ok i =>
    refine ⟨i, rfl, ?_, ?_⟩
    · rintro rfl
      cases h.symm.trans ((halted_result_iff hm).mpr hf)
    · rw [events_step_of_fetch hm hf, h]
      exact List.append_nil _

namespace Continues

lemma executes (h : m.Continues k) : ∀ j < k, m.Executes j :=
  fun j hj => ⟨halted_of_continued (h j hj), .continued, h j hj⟩

lemma fetch_ne_halt (h : m.Continues k) : ∀ j < k, (m.after j).core.fetch ≠ .ok .halt := by
  intro j hj hf
  obtain ⟨i, hi, hne, -⟩ := exists_of_continued (h j hj)
  exact hne (Except.ok.inj (hi.symm.trans hf))

lemma of_succ (h : m.Continues (k + 1)) : m.Continues k :=
  fun j hj => h j (Nat.lt_succ_of_lt hj)

lemma cons (hr : m.step.result = .ok .continued) (h : m.step.machine.Continues k) :
    m.Continues (k + 1) := by
  intro j hj
  cases j with
  | zero => exact hr
  | succ j => exact h j (Nat.lt_of_succ_lt_succ hj)

end Continues

lemma trace_succ (m : Machine) (k : Nat) :
    m.trace (k + 1) = m.trace k ++ (m.after k).step.events := by
  rw [trace, gather_add, gather_succ, gather_zero, List.append_nil, trace]

lemma isInner_of_mem_trace (h : m.Continues k) {e : Event} (he : e ∈ m.trace k) :
    e.isInner = true := by
  induction k with
  | zero => cases he
  | succ k ih =>
    obtain ⟨i, -, -, hevents⟩ := exists_of_continued (h k (Nat.lt_succ_self k))
    rw [trace_succ, hevents] at he
    obtain he | he := List.mem_append.mp he
    · exact ih h.of_succ he
    · exact isInner_of_mem_account he

/-- The announcements of a log are those of the first instructions, in the order in which they were
carried out. -/
def Announced (m : Machine) (k : Nat) (log : List Event) : Prop :=
  List.Forall₂ (fun e j => e.Announces (m.after j)) (log.filter Event.isAnnouncement) (List.range k)

namespace Announced

variable {log outer : List Event}

lemma append_account (h : m.Announced k log) (hf : (m.after k).core.fetch = .ok i) :
    m.Announced (k + 1) (log ++ (m.after k).account i) := by
  have hnext : (Event.executing (m.after k).core.pc i).Announces (m.after k) := ⟨i, hf, rfl, rfl⟩
  rw [Announced, List.filter_append, filter_account, List.range_succ]
  exact List.rel_append h (.cons hnext .nil)

lemma append_outer (h : m.Announced k log) (houter : ∀ e ∈ outer, e.isInner = false) :
    m.Announced k (log ++ outer) := by
  have hnil : outer.filter Event.isAnnouncement = [] :=
    List.filter_eq_nil_iff.mpr fun e he => Event.not_isAnnouncement_of_outer (houter e he)
  rw [Announced, List.filter_append, hnil, List.append_nil]
  exact h

/-- Each step that goes on is announced once. -/
lemma trace (h : m.Continues k) : m.Announced k (m.trace k) := by
  induction k with
  | zero => exact .nil
  | succ k ih =>
    obtain ⟨i, hf, -, hevents⟩ := exists_of_continued (h k (Nat.lt_succ_self k))
    rw [trace_succ, hevents]
    exact (ih h.of_succ).append_account hf

end Announced

/-! ### The end of a run -/

/-- How a run that started at a count of cycles can end, once all steps are made that go on with the
next one: its result, the machine after it, and the last events of its log. -/
inductive RunEnd (start : Nat) (m : Machine) : Except Fault Outcome → Machine → List Event → Prop
  | undecoded {e : Exception} (hf : m.core.fetch = .error e) :
      RunEnd start m (.error (.exception e)) m [.undecodable (.exception e)]
  | failed {i : Instruction} {fault : Fault} (hf : m.core.fetch = .ok i)
      (hr : m.step.result = .error fault) :
      RunEnd start m (.error fault) m.step.machine (m.account i)
  | halted (h : m.halted = false) (hf : m.core.fetch = .ok .halt) :
      RunEnd start m (.ok (.halted (m.cycles + 1 - start)))
        ⟨m.core, m.console, m.cycles + 1, true⟩
        (m.account .halt ++ [.halted m.core.pc (m.cycles + 1)])
  | stopped : RunEnd start m (.ok (.halted (m.cycles - start))) m []
  | spent :
      RunEnd start m (.ok (.budgetSpent (m.cycles - start))) m
        [.budgetSpent (m.cycles - start) m.core.pc]

lemma runEnd_of_error {fault : Fault} (start : Nat) (hr : m.step.result = .error fault) :
    RunEnd start m (.error fault) m.step.machine m.step.events := by
  cases h : m.halted with
  | true =>
    rw [step_of_halted h] at hr
    cases hr
  | false =>
    cases hf : m.core.fetch with
    | error e =>
      rw [step_of_fetch_error h hf] at hr ⊢
      cases hr
      exact .undecoded hf
    | ok i =>
      rw [events_step_of_fetch h hf, hr]
      exact (List.append_nil (m.account i)).symm ▸ .failed hf hr

lemma runEnd_of_halted (start : Nat) (hr : m.step.result = .ok .halted) :
    RunEnd start m (.ok (.halted (m.step.machine.cycles - start))) m.step.machine
      m.step.events := by
  cases h : m.halted with
  | true =>
    rw [step_of_halted h]
    exact .stopped
  | false =>
    have hf := (halted_result_iff h).mp hr
    rw [events_step_of_fetch h hf, hr, machine_step_of_fetch h hf]
    exact .halted h hf

/-- A run makes steps that go on, and comes to an end. -/
theorem exists_runEnd (m : Machine) (start n : Nat) (log : Array Event) :
    ∃ k last, m.Continues k ∧
      (runFrom (some .trace) start n log m).events.toList = log.toList ++ (m.trace k ++ last) ∧
      RunEnd start (m.after k) (runFrom (some .trace) start n log m).result
        (runFrom (some .trace) start n log m).machine last := by
  have hnone (m : Machine) : m.Continues 0 := fun j hj => absurd hj j.not_lt_zero
  induction n generalizing m log with
  | zero =>
    simp only [runFrom, finish, Event.visible_trace]
    split
    · exact ⟨0, [], hnone m, (List.append_nil _).symm, .stopped⟩
    · exact ⟨0, _, hnone m, Array.toList_appendList, .spent⟩
  | succ n ih =>
    rcases hr : m.step.result with fault | ⟨_ | _⟩
    · simp only [runFrom, hr, Event.visible_trace]
      exact ⟨0, _, hnone m, Array.toList_appendList, runEnd_of_error start hr⟩
    · simp only [runFrom, hr, Event.visible_trace]
      obtain ⟨k, last, hk, hevents, hend⟩ := ih m.step.machine (log ++ m.step.events)
      refine ⟨k + 1, last, .cons hr hk, ?_, hend⟩
      rw [hevents, Array.toList_appendList, List.append_assoc, trace, trace, gather_succ,
        List.append_assoc]
    · simp only [runFrom, hr, Event.visible_trace]
      exact ⟨0, _, hnone m, Array.toList_appendList, runEnd_of_halted start hr⟩

/-! ### The whole log -/

/-- Number of instructions that a run began to carry out, if it carried out so many: there is one
more if the run failed while an instruction was being carried out. -/
def begun (m : Machine) (r : RunReport) (k : Nat) : Nat :=
  match r.result, (m.after k).core.fetch with
  | .error _, .ok _ => k + 1
  | _, _            => k

/-- What a log tells about the end of a run that carried out the instructions of the first steps. -/
structure Concludes (m : Machine) (r : RunReport) (k : Nat) (log : List Event) : Prop where
  /-- The only error is that there was no instruction where the machine stands. -/
  errors :
    (log.filter fun e => e.level = .error).map Event.fields =
      match r.result, (m.after k).core.fetch with
      | .error fault, .error _ => [[("error", .shown fault.text)]]
      | _, _                   => []
  halt : ∀ j < k, (m.after j).core.fetch = .ok .halt →
    (log.filter fun e => e.message = "Computer halted").map Event.fields =
      [[("pc", .shown (m.after j).core.pc.text), ("cycles", .shown (toString r.machine.cycles))]]
  noHalt : (∀ j < k, (m.after j).core.fetch ≠ .ok .halt) →
    (log.filter fun e => e.message = "Computer halted") = []
  budget :
    (log.filter fun e => e.message = "Step budget exhausted").map Event.fields =
      match r.result with
      | .ok (.budgetSpent steps) =>
        [[("steps", .shown (toString steps)), ("pc", .shown r.machine.core.pc.text)]]
      | _ => []

section Ends

variable {r : RunReport} {inner outer : List Event}

lemma filter_append_of_inner (hinner : ∀ e ∈ inner, e.isInner = true) {p : Event → Prop}
    [DecidablePred p] (hp : ∀ e, e.isInner = true → ¬ p e) (outer : List Event) :
    (inner ++ outer).filter p = outer.filter p := by
  have hnil : inner.filter p = [] := by
    rw [List.filter_eq_nil_iff]
    intro e he
    rw [decide_eq_true_iff]
    exact hp e (hinner e he)
  rw [List.filter_append, hnil, List.nil_append]

/-- The events of instructions tell nothing about the end. -/
lemma Concludes.inner_append (h : m.Concludes r k outer) (hinner : ∀ e ∈ inner, e.isInner = true) :
    m.Concludes r k (inner ++ outer) := by
  have herrors := filter_append_of_inner hinner (fun e => e.level_ne_error_of_isInner) outer
  have hhalts := filter_append_of_inner hinner (fun e => e.message_ne_halted_of_isInner) outer
  have hbudgets := filter_append_of_inner hinner (fun e => e.message_ne_spent_of_isInner) outer
  constructor
  · rw [herrors]
    exact h.errors
  · rw [hhalts]
    exact h.halt
  · rw [hhalts]
    exact h.noHalt
  · rw [hbudgets]
    exact h.budget

lemma begun_of_ok {o : Outcome} (h : r.result = .ok o) : m.begun r k = k := by
  simp only [begun, h]

/-- Where `halt` was not among the instructions, nothing is told of a halt. -/
lemma Continues.elim_halt (h : m.Continues k) {P : Nat → Prop} :
    ∀ j < k, (m.after j).core.fetch = .ok .halt → P j :=
  fun j hj hf => absurd hf (h.fetch_ne_halt j hj)

/-- Whatever the end of a run is, the log tells it. -/
theorem RunEnd.exists_records {last : List Event} (h : m.Continues k)
    (hlog : r.events.toList = m.trace k ++ last)
    (hend : RunEnd m.cycles (m.after k) r.result r.machine last) :
    ∃ k, (∀ j < k, m.Executes j) ∧ r.machine.cycles = m.cycles + k ∧
      m.Announced (m.begun r k) r.events.toList ∧ m.Concludes r k r.events.toList := by
  have hcycles := cycles_after h.executes
  have hannounced := Announced.trace h
  have htrace := fun e => isInner_of_mem_trace (e := e) h
  obtain ⟨result, m', events⟩ := r
  simp only at hlog hend ⊢
  rw [hlog]
  cases hend with
  | undecoded hf =>
    refine ⟨k, h.executes, hcycles, ?_, .inner_append ?_ htrace⟩
    · simp only [begun, hf]
      exact hannounced.append_outer (List.forall_mem_singleton.mpr rfl)
    · constructor
      · simp only [hf]
        rfl
      · exact h.elim_halt
      · exact fun _ => rfl
      · rfl
  | failed hf hr =>
    have hrule := (m.after k).stepRule
    rw [hr] at hrule
    refine ⟨k, h.executes, hrule.kept.cycles.trans hcycles, ?_, ?_⟩
    · simp only [begun, hf]
      exact hannounced.append_account hf
    · rw [← List.append_nil (_ ++ _)]
      refine .inner_append ?_ ?_
      · constructor
        · simp only [hf]
          rfl
        · exact h.elim_halt
        · exact fun _ => rfl
        · rfl
      · exact List.forall_mem_append.mpr ⟨htrace, fun e => isInner_of_mem_account⟩
  | halted hrun hf =>
    -- the halt is one more instruction that was carried out
    have hlast : m.Executes k := ⟨hrun, .halted, (halted_result_iff hrun).mpr hf⟩
    refine ⟨k + 1, ?_, congrArg Nat.succ hcycles, ?_, ?_⟩
    · exact Nat.forall_lt_succ_right.mpr ⟨h.executes, hlast⟩
    · rw [begun_of_ok rfl, ← List.append_assoc]
      exact (hannounced.append_account hf).append_outer (List.forall_mem_singleton.mpr rfl)
    · rw [← List.append_assoc]
      refine .inner_append ?_ ?_
      · constructor
        · rfl
        · exact Nat.forall_lt_succ_right.mpr ⟨h.elim_halt, fun _ => rfl⟩
        · exact fun hne => absurd hf (hne k (Nat.lt_succ_self k))
        · rfl
      · exact List.forall_mem_append.mpr ⟨htrace, fun e => isInner_of_mem_account⟩
  | stopped =>
    refine ⟨k, h.executes, hcycles, ?_, .inner_append ?_ htrace⟩
    · rw [begun_of_ok rfl, List.append_nil]
      exact hannounced
    · exact ⟨rfl, h.elim_halt, fun _ => rfl, rfl⟩
  | spent =>
    refine ⟨k, h.executes, hcycles, ?_, .inner_append ?_ htrace⟩
    · rw [begun_of_ok rfl]
      exact hannounced.append_outer (List.forall_mem_singleton.mpr rfl)
    · exact ⟨rfl, h.elim_halt, fun _ => rfl, rfl⟩

end Ends

/-- A run that counted so many cycles made so many steps that carry out an instruction, and if it
failed, then in the next step. -/
lemma result_of_cycles {t : Option Level} (hcycles : (m.run t n).machine.cycles = m.cycles + k) :
    (∀ o, (m.run t n).result = .ok o → o.steps = k ∧ (m.run t n).machine = m.after k) ∧
      ∀ fault, (m.run t n).result = .error fault →
        (m.after k).step.result = .error fault ∧
          (m.run t n).machine = (m.after k).step.machine := by
  constructor
  · intro o h
    obtain ⟨-, -, hmachine, hsteps, -⟩ := outcome_of_run h
    obtain rfl : o.steps = k := Nat.add_left_cancel (hsteps.symm.trans hcycles)
    exact ⟨rfl, hmachine⟩
  · intro fault h
    obtain ⟨j, -, hexecutes, hfails, hmachine, hkept⟩ := exists_of_run_error h
    have hj : (m.run t n).machine.cycles = m.cycles + j :=
      hkept.cycles.trans (cycles_after hexecutes)
    obtain rfl : j = k := Nat.add_left_cancel (hj.symm.trans hcycles)
    exact ⟨hfails, hmachine⟩

/-- The log of a run at the last level is a record of it. Each instruction that was carried out is
announced once, in order, with its address and its line, and so is one that failed while it was
being carried out. Then the log tells how the run came to its end. Where the machine had halted
before, there is no log. -/
theorem log_faithful (m : Machine) (n : Nat) :
    let r := m.run (some .trace) n
    let log := r.events.toList
    (m.halted = true → log = []) ∧
    ∃ k, (∀ j < k, m.Executes j) ∧
      (∀ o, r.result = .ok o → o.steps = k ∧ r.machine = m.after k) ∧
      (∀ fault, r.result = .error fault →
        (m.after k).step.result = .error fault ∧ r.machine = (m.after k).step.machine) ∧
      m.Announced (m.begun r k) log ∧ m.Concludes r k log := by
  intro r log
  constructor
  · intro h
    cases n with
    | zero => simp [log, r, run, runFrom, finish, h]
    | succ n => simp [log, r, run, runFrom, step_of_halted h, Event.visible_trace]
  · obtain ⟨k₀, last, hk, hlog, hend⟩ := exists_runEnd m m.cycles n #[]
    obtain ⟨k, hexecutes, hcycles, hannounced, hconcludes⟩ := hend.exists_records hk hlog
    obtain ⟨hok, herror⟩ := result_of_cycles hcycles
    exact ⟨k, hexecutes, hok, herror, hannounced, hconcludes⟩

/-- The log of a machine that writes a letter and halts, that of one which has no letter to read,
and that of a machine which has halted. -/
theorem log_faithful_printer :
    (∃ e₁ e₂, (printer.run (some .trace) 9).events.toList.filter Event.isAnnouncement = [e₁, e₂] ∧
      e₁.Announces printer ∧ e₂.Announces (printer.after 1)) ∧
    ((printer.run (some .trace) 9).events.toList.filter
      fun e => e.message = "Computer halted").map Event.fields =
        [[("pc", .shown "2"), ("cycles", .shown "2")]] ∧
    (∃ e, (reader.run (some .trace) 9).events.toList.filter Event.isAnnouncement = [e] ∧
      e.Announces reader) ∧
    ((printer.after 2).run (some .trace) 9).events.toList = [] := by
  obtain ⟨-, k, -, hok, -, hannounced, hconcludes⟩ := log_faithful printer 9
  obtain ⟨-, k', hexecutes, -, -, hannounced', -⟩ := log_faithful reader 9
  obtain ⟨hstopped, -⟩ := log_faithful (printer.after 2) 9
  have hresult : (printer.run (some .trace) 9).result = .ok (.halted 2) := rfl
  obtain ⟨rfl, -⟩ := hok _ hresult
  obtain rfl : k' = 0 := by
    apply Nat.eq_zero_of_not_pos
    intro hpos
    obtain ⟨-, s, hs⟩ := hexecutes 0 hpos
    cases show Except.error Fault.endOfInput = Except.ok s from hs
  refine ⟨?_, hconcludes.halt 1 (by decide) rfl, ?_, hstopped rfl⟩
  · rw [begun_of_ok hresult, Announced] at hannounced
    generalize List.filter _ _ = es at hannounced ⊢
    obtain - | ⟨h₁, - | ⟨h₂, - | -⟩⟩ := hannounced
    exact ⟨_, _, rfl, h₁, h₂⟩
  · have hbegun : reader.begun (reader.run (some .trace) 9) 0 = 1 := rfl
    rw [hbegun, Announced] at hannounced'
    generalize List.filter _ _ = es at hannounced' ⊢
    obtain - | ⟨h, - | -⟩ := hannounced'
    exact ⟨_, rfl, h⟩

end Machine

end WordMachine
