import Chip8.Proofs.Memory.Block

/-!
# One memory under two policies

Policies differ in nothing but what they refuse. Where one of them does what the other does, it
does it at the same address and with the same byte. So an access under one policy follows the
access under another (`Follows`) if the first refuses nothing more, and this is passed on from
single bytes to words and blocks by `Follows.bind`.
-/

namespace Chip8

/-- An access to an address outside of the memory was refused. -/
def Fault.OfMemory (f : Fault) : Prop := ∃ target, f.cause = .memoryAccess target

instance (f : Fault) : Decidable f.OfMemory :=
  match h : f.cause with
  | .memoryAccess target => .isTrue ⟨target, h⟩
  | .unknownOpcode | .stackOverflow _ | .stackUnderflow | .stated _ =>
    .isFalse fun ⟨_, h'⟩ => by rw [h] at h'; cases h'

namespace Policy

variable {α β : Type} {p p' : Policy}

/-- The second policy refuses nothing that the first allows. -/
def Within (p p' : Policy) : Prop := p' = p ∨ p' = wrap

/-- The second result is the first one, unless that is the refusal of an access which the second
policy need not refuse. -/
def Follows (p p' : Policy) (r r' : Except Fault α) : Prop :=
  r' = r ∨ p ≠ p' ∧ ∃ f, r = .error f ∧ f.OfMemory

theorem Follows.same (r : Except Fault α) : Follows p p' r r := Or.inl rfl

theorem Follows.bind {r r' : Except Fault α} {next next' : α → Except Fault β}
    (h : Follows p p' r r') (rest : ∀ a, Follows p p' (next a) (next' a)) :
    Follows p p' (r >>= next) (r' >>= next') := by
  rcases h with h | ⟨other, f, refused, memory⟩
  · subst h
    cases r' with
    | error f => exact Follows.same _
    | ok a => exact rest a
  · subst refused
    exact Or.inr ⟨other, f, rfl, memory⟩

theorem Within.allows (w : Within p p') {address : Int} (h : p.Allows address) :
    p'.Allows address := by
  rcases w with rfl | rfl
  · exact h
  · exact Or.inl rfl

theorem Within.resolve (w : Within p p') (address : Int) :
    Follows p p' (p.resolve address) (p'.resolve address) := by
  by_cases h : p.Allows address
  · left
    rw [resolve_of_allows h, resolve_of_allows (w.allows h)]
  · rcases w with rfl | rfl
    · exact Follows.same _
    · refine Or.inr ⟨?_, _, resolve_of_not_allows h, address, rfl⟩
      rintro rfl
      exact h (Or.inl rfl)

theorem Within.check (w : Within p p') (address count : Int) :
    Follows p p' (p.check address count) (p'.check address count) := by
  unfold Policy.check
  split
  · exact Follows.same _
  · apply Follows.bind (w.resolve address)
    intro _
    apply Follows.bind (w.resolve (address + count - 1))
    intro _
    exact Follows.same _

/-- Only the policy that refuses at all refuses a block. -/
theorem eq_fault_of_check {address count : Int} {f : Fault} (h : p.check address count = .error f) :
    p = fault := by
  cases p with
  | fault => rfl
  | wrap =>
      have allowed : wrap.check address count = .ok () :=
        (check_eq_ok_iff wrap address count).mpr fun _ _ _ => Or.inl rfl
      rw [allowed] at h
      cases h

end Policy

namespace Memory

open Policy (Follows Within)

variable {p p' : Policy}

theorem read_follows (w : Within p p') (cells : Cells) (address : Int) :
    Follows p p' (Memory.read ⟨p, cells⟩ address) (Memory.read ⟨p', cells⟩ address) := by
  apply Follows.bind (w.resolve address)
  intro _
  exact Follows.same _

theorem readWord_follows (w : Within p p') (cells : Cells) (address : Int) :
    Follows p p' (Memory.readWord ⟨p, cells⟩ address) (Memory.readWord ⟨p', cells⟩ address) := by
  apply Follows.bind (read_follows w cells address)
  intro _
  apply Follows.bind (read_follows w cells (address + 1))
  intro _
  exact Follows.same _

theorem readBytes_follows (w : Within p p') (cells : Cells) (address : Int) (count : Nat) :
    Follows p p' (Memory.readBytes ⟨p, cells⟩ address count)
      (Memory.readBytes ⟨p', cells⟩ address count) := by
  induction count generalizing address with
  | zero => exact Follows.same _
  | succ count ih =>
      apply Follows.bind (read_follows w cells address)
      intro _
      apply Follows.bind (ih (address + 1))
      intro _
      exact Follows.same _

/-- A write replaces the same cell by the same byte, unless it is refused. -/
theorem write_follows (w : Within p p') (cells : Cells) (address : Int) (b : UInt8) :
    (∃ cells', Memory.write ⟨p, cells⟩ address b = .ok ⟨p, cells'⟩ ∧
        Memory.write ⟨p', cells⟩ address b = .ok ⟨p', cells'⟩) ∨
      ∃ f, Memory.write ⟨p, cells⟩ address b = .error f ∧ f.OfMemory ∧
        (Memory.write ⟨p', cells⟩ address b = .error f ∨ p ≠ p') := by
  by_cases h : p.Allows address
  · exact Or.inl ⟨_, write_of_allows b h, write_of_allows b (w.allows h)⟩
  · have refused : Memory.write ⟨p, cells⟩ address b = .error (.of (.memoryAccess address)) :=
      write_of_not_allows b h
    refine Or.inr ⟨_, refused, ⟨address, rfl⟩, ?_⟩
    rcases w with rfl | rfl
    · exact Or.inl refused
    · right
      rintro rfl
      exact h (Or.inl rfl)

/-- Only the policy that refuses at all refuses a word. -/
theorem eq_fault_of_readWord {m : Memory} {address : Int} {f : Fault}
    (h : m.readWord address = .error f) : m.policy = .fault := by
  cases hp : m.policy with
  | fault => rfl
  | wrap =>
      have allowed (address : Int) : m.policy.Allows address := Or.inl hp
      unfold readWord at h
      rw [read_of_allows (allowed address), read_of_allows (allowed (address + 1))] at h
      cases h

end Memory

end Chip8
