import Chip8.Proofs.Machine.Range
import Chip8.Proofs.Memory.Policies
import Chip8.Proofs.Snapshot.Saved

/-!
# Machines that go on alike

What an instruction does depends on the saved state of a machine, on its dialect, its keypad and
the random bytes to come, and on nothing else. Two machines that agree in these go on alike,
under one policy or under two, until one policy refuses an access that the other allows.

What they need not agree in is gathered in `Rest`. One lemma, `Alike.exists_beside`, brings two
such machines into the form of a machine and the same machine with another rest; for most
operations the two outcomes then have this form by definition.
-/

namespace Chip8

variable {α : Type} {p p' : Policy}

/-! ## What the parts do alike -/

namespace Random.Source

/-- Two sources that deliver the same bytes, however many are asked for. -/
def SameBytes (s s' : Source) : Prop := ∀ count, s.take count = s'.take count

theorem SameBytes.next {s s' : Source} (h : s.SameBytes s') :
    s'.next.1 = s.next.1 ∧ s.next.2.SameBytes s'.next.2 := by
  constructor
  · exact (List.cons.inj (h 1)).1.symm
  · intro count
    exact (List.cons.inj (h (count + 1))).2

end Random.Source

namespace Timers

theorem tell_frame (t : Timers) (was : Bool) : ∃ told, t.tell was = { t with told := told } := by
  unfold tell
  split
  · exact ⟨_, rfl⟩
  · exact ⟨_, rfl⟩

end Timers

namespace Screen

variable {width height : Nat}

theorem flipAll_refresh (s : Screen width height) (refresh : Bool)
    (ps : List (Fin width × Fin height)) :
    { s with needsRefresh := refresh }.flipAll ps =
      ({ (s.flipAll ps).1 with needsRefresh := refresh }, (s.flipAll ps).2) := by
  induction ps generalizing s with
  | nil => rfl
  | cons place rest ih =>
      obtain ⟨x, y⟩ := place
      have flipped : { s with needsRefresh := refresh }.flip x y =
          { s.flip x y with needsRefresh := refresh } := rfl
      simp only [flipAll, flipped, ih]
      rfl

/-- Whether a screen has to be shown makes no difference to what is drawn. -/
theorem draw_refresh (s : Screen width height) (refresh : Bool) (x y : Int) (rows : List UInt8)
    (clip : Bool) : { s with needsRefresh := refresh }.draw x y rows clip = s.draw x y rows clip := by
  unfold draw
  rw [flipAll_refresh]

end Screen

namespace Machine

/-! ## Machines and what they need not agree in -/

/-- Two machines that agree in all that instructions look at, under a policy each. -/
structure Alike (p p' : Policy) (m m' : Machine) : Prop extends SameState m m' where
  dialect : m.dialect = m'.dialect
  keypad : m.keypad = m'.keypad
  random : m.random.SameBytes m'.random
  policy : m.memory.policy = p
  policy' : m'.memory.policy = p'

theorem alike_self {m : Machine} (h : m.memory.policy = p) : Alike p p m m :=
  ⟨⟨rfl, rfl, rfl, rfl, rfl, rfl, rfl, rfl⟩, rfl, rfl, fun _ => rfl, h, h⟩

/-- What machines that go on alike need not agree in. -/
structure Rest where
  waiting : Bool
  last : Option Instruction
  listening : Bool
  told : List Bool
  refresh : Bool
  random : Random.Source
  policy : Policy

/-- The machine with another rest. -/
def beside (m : Machine) (r : Rest) : Machine :=
  { m with
    waitingForKey := r.waiting
    lastInstruction := r.last
    timers := { m.timers with listening := r.listening, told := r.told }
    screen := { m.screen with needsRefresh := r.refresh }
    random := r.random
    memory := { m.memory with policy := r.policy } }

section

variable (m : Machine) (r : Rest)

@[simp] theorem beside_dialect : (m.beside r).dialect = m.dialect := rfl
@[simp] theorem beside_v : (m.beside r).v = m.v := rfl
@[simp] theorem beside_index : (m.beside r).index = m.index := rfl
@[simp] theorem beside_stack : (m.beside r).stack = m.stack := rfl
@[simp] theorem beside_keypad : (m.beside r).keypad = m.keypad := rfl

end

variable {m m' : Machine} {r : Rest}

/-- With this rest under `p'`, the machine goes on as it does under `p`, and waits if it does. -/
def Rest.Fits (r : Rest) (p p' : Policy) (m : Machine) : Prop :=
  m.random.SameBytes r.random ∧ r.waiting = m.waitingForKey ∧ m.memory.policy = p ∧ r.policy = p'

theorem Rest.Fits.alike (fit : r.Fits p p' m) : Alike p p' m (m.beside r) := by
  obtain ⟨bytes, -, policy, policy'⟩ := fit
  exact ⟨⟨rfl, rfl, rfl, rfl, rfl, rfl, rfl, rfl⟩, rfl, rfl, bytes, policy, policy'⟩

theorem Alike.exists_beside (h : Alike p p' m m') (waiting : m'.waitingForKey = m.waitingForKey) :
    ∃ r : Rest, m' = m.beside r ∧ r.Fits p p' m := by
  refine ⟨⟨m'.waitingForKey, m'.lastInstruction, m'.timers.listening, m'.timers.told,
    m'.screen.needsRefresh, m'.random, m'.memory.policy⟩, ?_, h.random, waiting, h.policy,
    h.policy'⟩
  obtain ⟨⟨v, index, pc, stack, delay, sound, cells, rows⟩, dialect, keypad, -, -, -⟩ := h
  simp only [beside, v, index, pc, stack, delay, sound, cells, rows, dialect, keypad]

/-! ## Outcomes that go on alike -/

/-- The second outcome is like the first. Where both succeed, they also agree in whether the
machine waits. -/
structure Matches (p p' : Policy) (o o' : Machine × Except Fault α) : Prop where
  answer : o'.2 = o.2
  alike : Alike p p' o.1 o'.1
  waiting : ∀ a, o.2 = .ok a → o'.1.waitingForKey = o.1.waitingForKey

/-- The second outcome is like the first one, unless that is the refusal of an access which the
second policy need not refuse. -/
def Follows (p p' : Policy) (o o' : Machine × Except Fault α) : Prop :=
  Matches p p' o o' ∨ p ≠ p' ∧ ∃ f, o.2 = .error f ∧ f.OfMemory

theorem follows_done (r : Rest) (fit : r.Fits p p' m) :
    Follows p p' m.done (m.beside r).done :=
  Or.inl ⟨rfl, fit.alike, fun _ _ => fit.2.1⟩

theorem follows_refused (fit : r.Fits p p' m) (f : Fault) :
    Follows p p' (m.refused f) ((m.beside r).refused f) :=
  Or.inl ⟨rfl, fit.alike, fun _ ok => nomatch ok⟩

theorem Follows.andThen {o o' : Outcome} {next : Machine → Machine} (h : Follows p p' o o')
    (rest : ∀ {m r}, Rest.Fits r p p' m → Follows p p' (next m).done (next (m.beside r)).done) :
    Follows p p' (o.andThen next) (o'.andThen next) := by
  obtain ⟨m, x⟩ := o
  obtain ⟨m', x'⟩ := o'
  rcases h with ⟨same, alike, waiting⟩ | ⟨other, f, refused, memory⟩
  · have same : x' = x := same
    subst same
    cases x' with
    | error f => exact Or.inl ⟨rfl, alike, fun _ ok => nomatch ok⟩
    | ok =>
        have alike : Alike p p' m m' := alike
        obtain ⟨r, rfl, fit⟩ := alike.exists_beside (waiting () rfl)
        exact rest fit
  · have refused : x = .error f := refused
    subst refused
    exact Or.inr ⟨other, f, rfl, memory⟩

/-! ## Operations -/

section Operations

variable (fit : r.Fits p p' m)

include fit

theorem follows_skipIf (condition : Bool) :
    Follows p p' (m.skipIf condition).done ((m.beside r).skipIf condition).done := by
  unfold skipIf
  split
  · exact follows_done r fit
  · exact follows_done r fit

theorem follows_passBlock (count : Nat) :
    Follows p p' (m.passBlock count).done ((m.beside r).passBlock count).done := by
  unfold passBlock
  rw [beside_dialect]
  split
  · exact follows_done r fit
  · exact follows_done r fit

theorem follows_addToIndex (b : UInt8) :
    Follows p p' (m.addToIndex b).done ((m.beside r).addToIndex b).done := by
  unfold addToIndex
  rw [beside_dialect, beside_index]
  dsimp only
  split
  · exact follows_done r fit
  · exact follows_done r fit

theorem follows_waitKey (x : Fin 16) :
    Follows p p' (m.waitKey x).done ((m.beside r).waitKey x).done := by
  obtain ⟨bytes, waiting, policies⟩ := fit
  unfold waitKey
  rw [beside_keypad]
  cases m.keypad.first? with
  | none => exact follows_done { r with waiting := true } ⟨bytes, rfl, policies⟩
  | some key => exact follows_done r ⟨bytes, waiting, policies⟩

theorem follows_call (address : UInt16) :
    Follows p p' (m.call address) ((m.beside r).call address) := by
  unfold call
  rw [beside_stack]
  split
  · exact follows_refused fit _
  · exact follows_done r fit

theorem follows_ret : Follows p p' m.ret (m.beside r).ret := by
  unfold ret
  rw [beside_stack]
  cases m.stack with
  | nil => exact follows_refused fit _
  | cons address rest => exact follows_done r fit

theorem follows_setSound (value : Int) :
    Follows p p' (done { m with timers := m.timers.setSound value })
      (done { m.beside r with timers := (m.beside r).timers.setSound value }) := by
  obtain ⟨told, here⟩ := Timers.tell_frame { m.timers with sound := byteOf value } m.timers.toneOn
  obtain ⟨told', there⟩ :=
    Timers.tell_frame { (m.beside r).timers with sound := byteOf value } m.timers.toneOn
  have here : m.timers.setSound value = _ := here
  have there : (m.beside r).timers.setSound value = _ := there
  rw [here, there]
  exact follows_done { r with told := told' } fit

theorem follows_random (x : Fin 16) (mask : UInt8) :
    Follows p p' (done ({ m with random := m.random.next.2 }.setV x (m.random.next.1 &&& mask)))
      (done ({ m.beside r with random := r.random.next.2 }.setV x (r.random.next.1 &&& mask))) := by
  obtain ⟨bytes, waiting, policies⟩ := fit
  rw [bytes.next.1]
  exact follows_done { r with random := r.random.next.2 } ⟨bytes.next.2, waiting, policies⟩

/-! ### Blocks of memory -/

theorem loadBlock_follows (w : p.Within p') (count : Nat) :
    Policy.Follows p p' (m.loadBlock count) ((m.beside r).loadBlock count) := by
  obtain ⟨-, -, rfl, rfl⟩ := fit
  apply Policy.Follows.bind (w.check m.index.toNat count)
  intro _
  exact Memory.readBytes_follows w m.memory.cells m.index.toNat count

/-- Where an operation is refused if something else is, only its success is left to look at. -/
theorem follows_of {x x' : Except Fault α} {o o' : Outcome} (h : Policy.Follows p p' x x')
    (refusal : ∀ f, x = .error f → o = m.refused f)
    (refusal' : ∀ f, x' = .error f → o' = (m.beside r).refused f)
    (success : ∀ a, x = .ok a → x' = .ok a → Follows p p' o o') : Follows p p' o o' := by
  rcases h with same | ⟨other, f, refused, memory⟩
  · subst same
    cases hx : x' with
    | error f =>
        rw [refusal f hx, refusal' f hx]
        exact follows_refused fit f
    | ok a => exact success a hx hx
  · rw [refusal f refused]
    exact Or.inr ⟨other, f, rfl, memory⟩

theorem follows_drawSprite (w : p.Within p') (i : Instruction) :
    Follows p p' (m.drawSprite i) ((m.beside r).drawSprite i) := by
  apply follows_of fit (loadBlock_follows fit w i.n)
  · intro f h
    rw [drawSprite, h]
  · intro f h
    rw [drawSprite, h]
  · intro sprite h h'
    have drawn (x y : Int) (clip : Bool) :
        (m.beside r).screen.draw x y sprite clip = m.screen.draw x y sprite clip :=
      Screen.draw_refresh m.screen r.refresh x y sprite clip
    rw [drawSprite, drawSprite, h, h']
    simp only [beside_dialect, beside_v, drawn]
    exact follows_done { r with refresh := true } fit

theorem follows_loadRegisters (w : p.Within p') (count : Nat) :
    Follows p p' (m.loadRegisters count) ((m.beside r).loadRegisters count) := by
  apply follows_of fit (loadBlock_follows fit w count)
  · intro f h
    rw [loadRegisters, h]
  · intro f h
    rw [loadRegisters, h]
  · intro bytes h h'
    have set : r.Fits p p' (m.setRegisters bytes) := fit
    rw [loadRegisters, loadRegisters, h, h']
    exact follows_passBlock set count

theorem follows_storeBlock (w : p.Within p') (bytes : List UInt8) :
    Follows p p' (m.storeBlock bytes) ((m.beside r).storeBlock bytes) := by
  obtain ⟨-, -, rfl, rfl⟩ := id fit
  have checks := w.check m.index.toNat bytes.length
  apply follows_of fit checks
  · intro f h
    rw [storeBlock, h]
  · intro f (h : (m.beside r).memory.policy.check _ _ = _)
    rw [storeBlock, beside_index, h]
  · intro _ h (h' : (m.beside r).memory.policy.check _ _ = _)
    rw [storeBlock, storeBlock, beside_index, h, h', Memory.writeBytes_of_check h,
      Memory.writeBytes_of_check h']
    exact follows_done r fit

theorem follows_storeRegisters (w : p.Within p') (count : Nat) :
    Follows p p' (m.storeRegisters count) ((m.beside r).storeRegisters count) := by
  apply Follows.andThen (follows_storeBlock fit w _)
  intro m r fit
  exact follows_passBlock fit count

/-- **An instruction does the same on machines that are alike.** -/
theorem follows_effect (w : p.Within p') (i : Instruction) :
    Follows p p' (m.effect i) ((m.beside r).effect i) := by
  cases hop : i.op <;> simp only [effect, hop]
  case ret => exact follows_ret fit
  case call => exact follows_call fit _
  case skipEqByte | skipNeByte | skipEqReg | skipNeReg | skipKey | skipNoKey =>
    exact follows_skipIf fit _
  case rnd => exact follows_random fit i.x i.nn
  case addIndex => exact follows_addToIndex fit _
  case digits => exact follows_storeBlock fit w _
  case store => exact follows_storeRegisters fit w _
  case load => exact follows_loadRegisters fit w _
  case draw => exact follows_drawSprite fit w i
  case setSound => exact follows_setSound fit _
  case waitKey => exact follows_waitKey fit i.x
  case sys | unknown => exact follows_refused fit _
  -- both outcomes have the form of a machine and the same machine with another rest
  case cls => exact follows_done { r with refresh := true } fit
  all_goals exact follows_done r fit

end Operations

/-! ## Steps -/

theorem Alike.fetch (w : p.Within p') (h : Alike p p' m m') :
    Policy.Follows p p' m.fetch m'.fetch := by
  have word := Memory.readWord_follows w m.memory.cells m.pc.toNat
  have here : m.memory = ⟨p, m.memory.cells⟩ := by rw [← h.policy]
  have there : m'.memory = ⟨p', m.memory.cells⟩ := by rw [← h.policy', h.cells]
  unfold Machine.fetch
  rwa [here, there, ← h.pc]

theorem Alike.begun (h : Alike p p' m m') : Alike p p' m.begun m'.begun := by
  refine ⟨⟨h.v, h.index, ?_, h.stack, h.delay, h.sound, h.cells, h.rows⟩, h.dialect, h.keypad,
    h.random, h.policy, h.policy'⟩
  show m.pc + 2 = m'.pc + 2
  rw [h.pc]

theorem Alike.setPC (h : Alike p p' m m') (w : UInt16) :
    Alike p p' { m with pc := w } { m' with pc := w } :=
  ⟨⟨h.v, h.index, rfl, h.stack, h.delay, h.sound, h.cells, h.rows⟩, h.dialect, h.keypad, h.random,
    h.policy, h.policy'⟩

/-- Which instruction was the last one makes no difference. -/
theorem Alike.remember (h : Alike p p' m m') (i i' : Option Instruction) :
    Alike p p' { m with lastInstruction := i } { m' with lastInstruction := i' } :=
  ⟨⟨h.v, h.index, h.pc, h.stack, h.delay, h.sound, h.cells, h.rows⟩, h.dialect, h.keypad, h.random,
    h.policy, h.policy'⟩

theorem Alike.step_fetched (w : p.Within p') (h : Alike p p' m m') {word : UInt16}
    (here : m.fetch = .ok word) (there : m'.fetch = .ok word) : Follows p p' m.step m'.step := by
  obtain ⟨r, began, fit⟩ := h.begun.exists_beside rfl
  have effects := follows_effect fit w (decode word)
  rw [← began] at effects
  rcases e : m.begun.effect (decode word) with ⟨n, x⟩
  rcases e' : m'.begun.effect (decode word) with ⟨n', x'⟩
  rw [e, e'] at effects
  rcases effects with ⟨answer, alike, waiting⟩ | ⟨other, f, refused, memory⟩
  · cases answer
    cases x with
    | error f =>
        rw [step_of_effect_error here e, step_of_effect_error there e', h.pc]
        exact Or.inl ⟨rfl, alike.setPC m'.pc, fun _ ok => nomatch ok⟩
    | ok =>
        rw [step_of_effect_ok here e, step_of_effect_ok there e']
        exact Or.inl ⟨rfl, alike.remember _ _, fun _ _ => waiting () rfl⟩
  · cases refused
    rw [step_of_effect_error here e]
    exact Or.inr ⟨other, _, rfl, memory⟩

/-- **Steps go on alike.** -/
theorem Alike.step (w : p.Within p') (h : Alike p p' m m') : Follows p p' m.step m'.step := by
  rcases h.fetch w with same | ⟨other, f, refused, memory⟩
  · cases here : m.fetch with
    | error f =>
        rw [here] at same
        rw [step_of_fetch_error here, step_of_fetch_error same, h.pc]
        exact Or.inl ⟨rfl, h, fun _ ok => nomatch ok⟩
    | ok word => exact h.step_fetched w here (same.trans here)
  · rw [step_of_fetch_error refused]
    exact Or.inr ⟨other, _, rfl, memory⟩

/-- A step leaves the policy as it is. -/
theorem step_policy (m : Machine) : m.step.1.memory.policy = m.memory.policy := by
  rcases (alike_self rfl).step (Or.inl rfl) with same | ⟨other, -⟩
  · exact same.alike.policy
  · exact absurd rfl other

/-! ## The outside world -/

theorem Alike.tick (h : Alike p p' m m') : Alike p p' m.tick m'.tick := by
  refine ⟨⟨h.v, h.index, h.pc, h.stack, ?_, ?_, h.cells, h.rows⟩, h.dialect, h.keypad, h.random,
    h.policy, h.policy'⟩
  · show (Timers.tell _ _).delay = (Timers.tell _ _).delay
    rw [Timers.tell_delay, Timers.tell_delay, h.delay]
  · show (Timers.tell _ _).sound = (Timers.tell _ _).sound
    rw [Timers.tell_sound, Timers.tell_sound, h.sound]

theorem Alike.skip (h : Alike p p' m m') : Alike p p' m.skipInstruction m'.skipInstruction := by
  have next := h.setPC (m.pc + 2)
  rwa [show { m' with pc := m.pc + 2 } = m'.skipInstruction by rw [h.pc]; rfl] at next

theorem Alike.setKey (h : Alike p p' m m') (key : Fin 16) (down : Bool) :
    Alike p p' { m with keypad := m.keypad.setKey key down }
      { m' with keypad := m'.keypad.setKey key down } :=
  ⟨⟨h.v, h.index, h.pc, h.stack, h.delay, h.sound, h.cells, h.rows⟩, h.dialect, by rw [h.keypad],
    h.random, h.policy, h.policy'⟩

theorem Alike.setCells (h : Alike p p' m m') (cells : Cells) :
    Alike p p' { m with memory := ⟨p, cells⟩ } { m' with memory := ⟨p', cells⟩ } :=
  ⟨⟨h.v, h.index, h.pc, h.stack, h.delay, h.sound, rfl, h.rows⟩, h.dialect, h.keypad, h.random, rfl,
    rfl⟩

end Machine

end Chip8
