import Chip8.Machine.Execute
import Chip8.Proofs.Memory.Policies

/-!
# Refused instructions

An instruction that is refused has changed nothing. For most operations there is nothing to show:
they are never refused, or only before their first effect. The ones that store a block write byte
after byte, and are saved by the check they make first. The fault does not say yet where it
happened; that is filled in when the step ends. An access to the memory is refused under one policy
only.

For a whole step this leaves the key wait as the only thing that a refused instruction changes,
and the same refusal meets whoever tries again.
-/

namespace Chip8

/-- The cause is one that the machine itself has, and none that a host states in its own words. -/
def Fault.OfMachine (f : Fault) : Prop := ∀ text, f.cause ≠ .stated text

/-- Where it happened is not said, and no word but the given one. -/
def Fault.OpenFor (f : Fault) (word : Int) : Prop :=
  f.address = none ∧ (f.word = none ∨ f.word = some word)

theorem Fault.openFor_of (cause : Cause) (word : Int) : (Fault.of cause).OpenFor word :=
  ⟨rfl, Or.inl rfl⟩

theorem Fault.OpenFor.attach {f : Fault} {word : Int} (h : f.OpenFor word) (address : Int) :
    f.attach address (some word) = ⟨f.cause, some address, some word⟩ := by
  rcases f with ⟨cause, a, w⟩
  rcases h with ⟨rfl, rfl | rfl⟩
  · rfl
  · rfl

namespace Machine

/-! ## Instructions -/

/-- An access to memory that the policy does not allow. -/
def RefusesAccess (m : Machine) (f : Fault) : Prop :=
  m.memory.policy = .fault ∧ ∃ target, f = .of (.memoryAccess target)

/-- The faults that an instruction can be refused with. -/
inductive RefusedWith (m : Machine) (i : Instruction) : Fault → Prop
  | unknown (h : i.op = .sys ∨ i.op = .unknown) :
      RefusedWith m i ⟨.unknownOpcode, none, some i.word.toNat⟩
  | overflow (h : i.op = .call) : RefusedWith m i (.of (.stackOverflow m.stack.length))
  | underflow (h : i.op = .ret) : RefusedWith m i (.of .stackUnderflow)
  | access {f : Fault} (h : i.op = .digits ∨ i.op = .store ∨ i.op = .load ∨ i.op = .draw)
      (refuses : m.RefusesAccess f) : RefusedWith m i f

/-- A fault that the machine may refuse an instruction with. -/
structure Refuses (m : Machine) (f : Fault) (word : Int) : Prop where
  own : f.OfMachine
  openFor : f.OpenFor word
  memory : f.OfMemory → m.memory.policy = .fault

section

variable {m m' : Machine} {f : Fault} {word : Int}

theorem done_ne_error : m.done ≠ (m', .error f) := by
  intro h
  cases h

theorem refused_error {g : Fault} (h : m.refused g = (m', .error f)) : m' = m ∧ g = f := by
  cases h
  exact ⟨rfl, rfl⟩

theorem refusesAccess_of_check {address count : Int}
    (h : m.memory.policy.check address count = .error f) : m.RefusesAccess f := by
  refine ⟨Policy.eq_fault_of_check h, ?_⟩
  rcases Policy.check_error h with first | last
  · exact ⟨_, first⟩
  · exact ⟨_, last⟩

theorem storeBlock_error {bytes : List UInt8} (h : m.storeBlock bytes = (m', .error f)) :
    m' = m ∧ m.RefusesAccess f := by
  unfold storeBlock at h
  cases hc : m.memory.policy.check m.index.toNat bytes.length with
  | error g =>
      rw [hc] at h
      obtain ⟨same, rfl⟩ := refused_error h
      exact ⟨same, refusesAccess_of_check hc⟩
  | ok =>
      have written := Memory.writeBytes_of_check hc
      rw [hc, written] at h
      cases h

theorem andThen_error {r : Outcome} {next : Machine → Machine}
    (h : r.andThen next = (m', .error f)) : r = (m', .error f) := by
  rcases r with ⟨m, _ | _⟩
  · exact h
  · exact absurd h done_ne_error

theorem storeRegisters_error {count : Nat} (h : m.storeRegisters count = (m', .error f)) :
    m' = m ∧ m.RefusesAccess f :=
  storeBlock_error (andThen_error h)

/-- A block is refused by the check; once it is checked it can be read. -/
theorem loadBlock_error {count : Nat} (h : m.loadBlock count = .error f) : m.RefusesAccess f := by
  unfold loadBlock at h
  cases hc : m.memory.policy.check m.index.toNat count with
  | error g =>
      rw [hc] at h
      cases h
      exact refusesAccess_of_check hc
  | ok =>
      rw [hc] at h
      exact absurd (h.symm.trans (Memory.readBytes_of_check hc)) (by intro e; cases e)

theorem loadRegisters_error {count : Nat} (h : m.loadRegisters count = (m', .error f)) :
    m' = m ∧ m.RefusesAccess f := by
  unfold loadRegisters at h
  cases hl : m.loadBlock count with
  | error g =>
      rw [hl] at h
      obtain ⟨same, rfl⟩ := refused_error h
      exact ⟨same, loadBlock_error hl⟩
  | ok bytes =>
      rw [hl] at h
      exact absurd h done_ne_error

theorem drawSprite_error {i : Instruction} (h : m.drawSprite i = (m', .error f)) :
    m' = m ∧ m.RefusesAccess f := by
  unfold drawSprite at h
  cases hl : m.loadBlock i.n with
  | error g =>
      rw [hl] at h
      obtain ⟨same, rfl⟩ := refused_error h
      exact ⟨same, loadBlock_error hl⟩
  | ok sprite =>
      rw [hl] at h
      exact absurd h done_ne_error

theorem call_error {address : UInt16} (h : m.call address = (m', .error f)) :
    m' = m ∧ .of (.stackOverflow m.stack.length) = f := by
  unfold call at h
  split at h
  · exact refused_error h
  · exact absurd h done_ne_error

theorem ret_error (h : m.ret = (m', .error f)) : m' = m ∧ .of .stackUnderflow = f := by
  unfold ret at h
  split at h
  · exact refused_error h
  · exact absurd h done_ne_error

/-- **A refused instruction has changed nothing**, and it is refused for a reason of its own. -/
theorem effect_refused {i : Instruction} (h : m.effect i = (m', .error f)) :
    m' = m ∧ m.RefusedWith i f := by
  cases hop : i.op <;> simp only [effect, hop] at h
  case ret =>
    obtain ⟨same, rfl⟩ := ret_error h
    exact ⟨same, .underflow hop⟩
  case call =>
    obtain ⟨same, rfl⟩ := call_error h
    exact ⟨same, .overflow hop⟩
  case digits => exact (storeBlock_error h).imp_right (.access (Or.inl hop))
  case store => exact (storeRegisters_error h).imp_right (.access (Or.inr (Or.inl hop)))
  case load => exact (loadRegisters_error h).imp_right (.access (Or.inr (Or.inr (Or.inl hop))))
  case draw => exact (drawSprite_error h).imp_right (.access (Or.inr (Or.inr (Or.inr hop))))
  case sys =>
    obtain ⟨same, rfl⟩ := refused_error h
    exact ⟨same, .unknown (Or.inl hop)⟩
  case unknown =>
    obtain ⟨same, rfl⟩ := refused_error h
    exact ⟨same, .unknown (Or.inr hop)⟩
  -- the other operations are never refused
  all_goals exact absurd h done_ne_error

theorem RefusedWith.refuses {i : Instruction} (h : m.RefusedWith i f) :
    m.Refuses f i.word.toNat := by
  cases h with
  | unknown => exact ⟨fun _ => nofun, ⟨rfl, Or.inr rfl⟩, fun ⟨_, other⟩ => nomatch other⟩
  | overflow => exact ⟨fun _ => nofun, Fault.openFor_of _ _, fun ⟨_, other⟩ => nomatch other⟩
  | underflow => exact ⟨fun _ => nofun, Fault.openFor_of _ _, fun ⟨_, other⟩ => nomatch other⟩
  | access _ refuses =>
      obtain ⟨policy, target, rfl⟩ := refuses
      exact ⟨fun _ => nofun, Fault.openFor_of _ _, fun _ => policy⟩

/-- Only words without a meaning are refused as unknown. -/
theorem RefusedWith.unknown_iff {i : Instruction} (h : m.RefusedWith i f) :
    f.cause = .unknownOpcode ↔ i.op = .sys ∨ i.op = .unknown := by
  cases h with
  | unknown op => exact iff_of_true rfl op
  | overflow op => exact iff_of_false nofun (by rw [op]; decide)
  | underflow op => exact iff_of_false nofun (by rw [op]; decide)
  | access op refuses =>
      obtain ⟨-, target, rfl⟩ := refuses
      refine iff_of_false nofun ?_
      rcases op with op | op | op | op <;> rw [op] <;> decide

theorem effect_error {i : Instruction} (h : m.effect i = (m', .error f)) :
    m' = m ∧ m.Refuses f i.word.toNat :=
  (effect_refused h).imp_right RefusedWith.refuses

theorem fetch_error (h : m.fetch = .error f) : ∃ cause, f = .of cause := by
  rcases Memory.readWord_error h with rfl | rfl
  · exact ⟨_, rfl⟩
  · exact ⟨_, rfl⟩

end

/-! ## Steps -/

/-- What a step that fails leaves behind, and the fault it ends in: either the fetch was refused,
or an instruction that was fetched. -/
theorem step_error_cases {m m' : Machine} {f : Fault} (h : m.step = (m', .error f)) :
    (∃ g cause, m.fetch = .error g ∧ m' = m ∧ f = ⟨cause, some m.pc.toNat, none⟩) ∨
      ∃ w g, m.fetch = .ok w ∧
        m.begun.effect (decode w) = (m.begun, .error g) ∧
        m' = { m with waitingForKey := false } ∧
        f = ⟨g.cause, some m.pc.toNat, some w.toNat⟩ := by
  cases hf : m.fetch with
  | error g =>
      rw [step_of_fetch_error hf] at h
      obtain ⟨cause, rfl⟩ := fetch_error hf
      cases h
      exact Or.inl ⟨_, cause, rfl, rfl, rfl⟩
  | ok w =>
      rcases he : m.begun.effect (decode w) with ⟨r, g | ⟨⟩⟩
      · obtain ⟨rfl, hg⟩ := effect_error he
        rw [decode_word] at hg
        rw [step_of_effect_error hf he, hg.openFor.attach] at h
        cases h
        exact Or.inr ⟨w, g, rfl, he, rfl, rfl⟩
      · rw [step_of_effect_ok hf he] at h
        cases h

/-- A step that fails changes nothing but the key wait. -/
theorem step_error_unchanged {m m' : Machine} {f : Fault} (h : m.step = (m', .error f)) :
    m' = { m with waitingForKey := m'.waitingForKey } := by
  rcases step_error_cases h with ⟨g, _, -, rfl, -⟩ | ⟨w, g, -, -, rfl, -⟩
  · rfl
  · rfl

/-- The fault of a step names the program counter, and the word there if it could be fetched. -/
theorem step_error_place {m m' : Machine} {f : Fault} (h : m.step = (m', .error f)) :
    f.address = some (m.pc.toNat : Int) ∧
      f.word = m.fetch.toOption.map fun w => (w.toNat : Int) := by
  rcases step_error_cases h with ⟨g, _, hf, -, rfl⟩ | ⟨w, g, hf, -, -, rfl⟩
  · rw [hf]
    exact ⟨rfl, rfl⟩
  · rw [hf]
    exact ⟨rfl, rfl⟩

/-- Only under the policy that refuses accesses can an access be what a step fails for. -/
theorem eq_fault_of_step {m m' : Machine} {f : Fault} (h : m.step = (m', .error f))
    (memory : f.OfMemory) : m.memory.policy = .fault := by
  rcases step_error_cases h with ⟨g, _, hf, -, -⟩ | ⟨w, g, -, he, -, rfl⟩
  · exact Memory.eq_fault_of_readWord hf
  · exact (effect_error he).2.memory memory

/-- Whoever tries again fails in the same way, and then nothing changes at all. -/
theorem step_error_again {m m' : Machine} {f : Fault} (h : m.step = (m', .error f)) :
    m'.step = (m', .error f) := by
  rcases step_error_cases h with ⟨g, _, -, rfl, -⟩ | ⟨w, g, hf, he, rfl, rfl⟩
  · exact h
  · have again : { m with waitingForKey := false }.fetch = .ok w := hf
    have hg := (effect_error he).2
    rw [decode_word] at hg
    rw [step_of_effect_error again he, hg.openFor.attach]
    rfl

end Machine

end Chip8
