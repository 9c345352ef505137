import Chip8.Proofs.Memory.Block

/-!
# Blocks that are refused

Where the policy refuses addresses, a block is refused if one of its addresses lies outside of the
memory. An access goes through the bytes of the block one after the other, so it ends at the first
such address (`FirstOutside`) and reports it. What was read by then is lost. What was written by
then stays.

A check looks at the first and at the last address alone. This is enough to tell which blocks are
refused, but not where: of a block that begins in the memory the check reports the last address,
which is the first one outside only if all the others are inside (`checksAsRead_iff`).
-/

namespace Chip8

namespace Policy

/-- The first address of a block that lies outside of the memory. -/
structure FirstOutside (address count target : Int) : Prop where
  inBlock : address ≤ target ∧ target < address + count
  outside : ¬ (0 ≤ target ∧ target ≤ 0xFFF)
  before : ∀ a, address ≤ a → a < target → 0 ≤ a ∧ a ≤ 0xFFF

variable {p : Policy} {address count target : Int}

theorem allows_of_inside (p : Policy) (inside : 0 ≤ address ∧ address ≤ 0xFFF) :
    p.Allows address := by
  refine Or.inr ((inMemory_iff address).mpr ?_)
  omega

theorem not_allows_of_outside (outside : ¬ (0 ≤ address ∧ address ≤ 0xFFF)) :
    ¬ fault.Allows address := by
  rintro (wraps | inside)
  · cases wraps
  · rw [inMemory_iff] at inside
    omega

/-! ## The first address outside -/

/-- A block is left at its first address or at the end of the memory. -/
theorem firstOutside_iff :
    FirstOutside address count target ↔
      0 < count ∧
        (¬ (0 ≤ address ∧ address ≤ 0xFFF) ∧ target = address ∨
          (0 ≤ address ∧ address ≤ 0xFFF) ∧ target = 0x1000 ∧ 0x1000 < address + count) := by
  constructor
  · rintro ⟨inBlock, outside, before⟩
    refine ⟨by omega, ?_⟩
    by_cases start : address = target
    · left
      rw [start]
      exact ⟨outside, rfl⟩
    · -- both the first address of the block and the one before the target are inside
      have first := before address (by omega) (by omega)
      have last := before (target - 1) (by omega) (by omega)
      right
      omega
  · rintro ⟨some, ⟨outside, rfl⟩ | ⟨inside, rfl, beyond⟩⟩
    · refine ⟨by omega, outside, ?_⟩
      intro a le lt
      omega
    · refine ⟨by omega, by omega, ?_⟩
      intro a le lt
      omega

theorem exists_firstOutside_iff :
    (∃ target, FirstOutside address count target) ↔
      ∃ k, 0 ≤ k ∧ k < count ∧ ¬ (0 ≤ address + k ∧ address + k ≤ 0xFFF) := by
  constructor
  · rintro ⟨target, inBlock, outside, -⟩
    refine ⟨target - address, by omega, by omega, ?_⟩
    rwa [show address + (target - address) = target by omega]
  · rintro ⟨k, nonneg, less, outside⟩
    by_cases start : 0 ≤ address ∧ address ≤ 0xFFF
    · exact ⟨0x1000, firstOutside_iff.mpr (by omega)⟩
    · exact ⟨address, firstOutside_iff.mpr (by omega)⟩

theorem firstOutside_succ (inside : 0 ≤ address ∧ address ≤ 0xFFF) :
    FirstOutside address (count + 1) target ↔ FirstOutside (address + 1) count target := by
  rw [firstOutside_iff, firstOutside_iff]
  omega

/-- A block is allowed as a whole, or it has a first address that is refused. -/
theorem allows_or_firstOutside (p : Policy) (address count : Int) :
    (∀ k, 0 ≤ k → k < count → p.Allows (address + k)) ∨
      p = fault ∧ ∃ target, FirstOutside address count target := by
  cases p with
  | wrap => exact Or.inl fun _ _ _ => Or.inl rfl
  | fault =>
      by_cases outside : ∃ target, FirstOutside address count target
      · exact Or.inr ⟨rfl, outside⟩
      · left
        rw [exists_firstOutside_iff] at outside
        intro k nonneg less
        apply allows_of_inside
        exact Decidable.byContradiction fun out => outside ⟨k, nonneg, less, out⟩

/-! ## Checks -/

theorem check_of_outside (some : 0 < count) (outside : ¬ (0 ≤ address ∧ address ≤ 0xFFF)) :
    fault.check address count = .error (.of (.memoryAccess address)) := by
  rw [check, if_neg (by omega), resolve_of_not_allows (not_allows_of_outside outside)]
  rfl

theorem check_of_beyond_end (inside : 0 ≤ address ∧ address ≤ 0xFFF)
    (beyond : 0x1000 < address + count) :
    fault.check address count = .error (.of (.memoryAccess (address + count - 1))) := by
  have last : ¬ fault.Allows (address + count - 1) := not_allows_of_outside (by omega)
  rw [check, if_neg (by omega), resolve_of_allows (allows_of_inside fault inside),
    resolve_of_not_allows last]
  rfl

end Policy

namespace Memory

open Policy (FirstOutside firstOutside_iff firstOutside_succ)

variable {m : Memory} {address target : Int}

/-! ## Accesses -/

/-- A read ends at the first address that is refused. -/
theorem readBytes_of_firstOutside {count : Nat} (refuses : m.policy = .fault)
    (first : FirstOutside address count target) :
    m.readBytes address count = .error (.of (.memoryAccess target)) := by
  induction count generalizing address with
  | zero => exact absurd first.inBlock (by omega)
  | succ count ih =>
      rw [readBytes]
      by_cases inside : 0 ≤ address ∧ address ≤ 0xFFF
      · rw [read_of_allows (Policy.allows_of_inside _ inside),
          ih ((firstOutside_succ inside).mp first)]
        rfl
      · obtain ⟨-, ⟨-, rfl⟩ | ⟨here, -⟩⟩ := firstOutside_iff.mp first
        · have refused : ¬ m.policy.Allows target := refuses ▸ Policy.not_allows_of_outside inside
          rw [read_of_not_allows refused]
          rfl
        · exact absurd here inside

/-- A write ends at the first address that is refused. All bytes before it are written. -/
theorem writeBytes_of_firstOutside {bytes : List UInt8} (refuses : m.policy = .fault)
    (first : FirstOutside address bytes.length target) :
    m.writeBytes address bytes =
      ({ m with cells := m.cells.overwrite address (bytes.take (target - address).toNat) },
        .error (.of (.memoryAccess target))) := by
  induction bytes generalizing m address with
  | nil => exact absurd first.inBlock (by simp)
  | cons b rest ih =>
      rw [writeBytes]
      by_cases inside : 0 ≤ address ∧ address ≤ 0xFFF
      · have later : FirstOutside (address + 1) rest.length target :=
          (firstOutside_succ inside).mp first
        have next : (target - address).toNat = (target - (address + 1)).toNat + 1 := by
          have := later.inBlock
          omega
        rw [write_of_allows b (Policy.allows_of_inside _ inside), next, List.take_succ_cons]
        exact ih refuses later
      · obtain ⟨-, ⟨-, rfl⟩ | ⟨here, -⟩⟩ := firstOutside_iff.mp first
        · have refused : ¬ m.policy.Allows target := refuses ▸ Policy.not_allows_of_outside inside
          rw [write_of_not_allows b refused, Int.sub_self]
          rfl
        · exact absurd here inside

/-- Reading a block is refused for its first address outside, and for nothing else. -/
theorem readBytes_eq_error_iff {count : Int} {f : Fault} :
    m.readBytes address count.toNat = .error f ↔
      m.policy = .fault ∧
        ∃ target, FirstOutside address count target ∧ f = .of (.memoryAccess target) := by
  have length {target : Int} :
      FirstOutside address (count.toNat : Nat) target ↔ FirstOutside address count target := by
    rw [firstOutside_iff, firstOutside_iff]
    omega
  constructor
  · intro failed
    rcases m.policy.allows_or_firstOutside address (count.toNat : Nat) with
      allowed | ⟨refuses, target, first⟩
    · rw [readBytes_of_allows allowed] at failed
      cases failed
    · rw [readBytes_of_firstOutside refuses first] at failed
      cases failed
      exact ⟨refuses, target, length.mp first, rfl⟩
  · rintro ⟨refuses, target, first, rfl⟩
    exact readBytes_of_firstOutside refuses (length.mpr first)

/-- Writing a block is refused for its first address outside, and leaves the bytes before it. -/
theorem writeBytes_eq_error_iff {m' : Memory} {bytes : List UInt8} {f : Fault} :
    m.writeBytes address bytes = (m', .error f) ↔
      m.policy = .fault ∧
        ∃ target, FirstOutside address bytes.length target ∧ f = .of (.memoryAccess target) ∧
          m' = { m with
            cells := m.cells.overwrite address (bytes.take (target - address).toNat) } := by
  constructor
  · intro failed
    rcases m.policy.allows_or_firstOutside address bytes.length with
      allowed | ⟨refuses, target, first⟩
    · rw [writeBytes_of_allows allowed] at failed
      cases failed
    · rw [writeBytes_of_firstOutside refuses first] at failed
      cases failed
      exact ⟨refuses, target, first, rfl, rfl⟩
  · rintro ⟨refuses, target, first, rfl, rfl⟩
    exact writeBytes_of_firstOutside refuses first

/-! ## Checks against accesses -/

/-- A check is refused exactly as reading the block is, and reports the same address. -/
def ChecksAsRead (m : Memory) (address count : Int) : Prop :=
  ∀ f, m.policy.check address count = .error f ↔ m.readBytes address count.toNat = .error f

/-- The policy refuses addresses, and a block that begins in the memory has more than one address
beyond its end. -/
structure EndsFarBeyond (m : Memory) (address count : Int) : Prop where
  refuses : m.policy = .fault
  begins : 0 ≤ address ∧ address ≤ 0xFFF
  ends : 0x1000 < address + count - 1

variable {count : Int}

/-- A check is refused for the first address outside, unless that is not the only one behind the
end of the memory. Then the last address is reported. -/
theorem check_eq_error_iff {f : Fault} :
    m.policy.check address count = .error f ↔
      m.policy = .fault ∧
        ∃ target, f = .of (.memoryAccess target) ∧
          (m.EndsFarBeyond address count ∧ target = address + count - 1 ∨
            ¬ m.EndsFarBeyond address count ∧ FirstOutside address count target) := by
  constructor
  · intro failed
    rcases m.policy.allows_or_firstOutside address count with
      allowed | ⟨refuses, target, first⟩
    · rw [(Policy.check_eq_ok_iff _ _ _).mpr allowed] at failed
      cases failed
    · obtain ⟨some, ⟨outside, rfl⟩ | ⟨inside, rfl, beyond⟩⟩ := firstOutside_iff.mp first
      · rw [refuses, Policy.check_of_outside some outside] at failed
        cases failed
        exact ⟨refuses, target, rfl, Or.inr ⟨fun far => outside far.begins, first⟩⟩
      · rw [refuses, Policy.check_of_beyond_end inside beyond] at failed
        cases failed
        refine ⟨refuses, address + count - 1, rfl, ?_⟩
        by_cases far : 0x1000 < address + count - 1
        · exact Or.inl ⟨⟨refuses, inside, far⟩, rfl⟩
        · have last : address + count - 1 = 0x1000 := by omega
          exact Or.inr ⟨fun ends => far ends.ends, last ▸ first⟩
  · rintro ⟨refuses, target, rfl, ⟨far, rfl⟩ | ⟨near, first⟩⟩
    · have beyond := far.ends
      rw [refuses, Policy.check_of_beyond_end far.begins (by omega)]
    · obtain ⟨some, ⟨outside, rfl⟩ | ⟨inside, rfl, beyond⟩⟩ := firstOutside_iff.mp first
      · rw [refuses, Policy.check_of_outside some outside]
      · have last : ¬ 0x1000 < address + count - 1 := fun ends => near ⟨refuses, inside, ends⟩
        rw [refuses, Policy.check_of_beyond_end inside beyond,
          show address + count - 1 = 0x1000 by omega]

theorem EndsFarBeyond.firstOutside (far : m.EndsFarBeyond address count) :
    FirstOutside address count 0x1000 := by
  obtain ⟨-, begins, ends⟩ := far
  exact firstOutside_iff.mpr ⟨by omega, Or.inr ⟨begins, rfl, by omega⟩⟩

theorem readBytes_fails_iff :
    (∃ f, m.readBytes address count.toNat = .error f) ↔
      m.policy = .fault ∧ ∃ target, FirstOutside address count target := by
  constructor
  · rintro ⟨f, failed⟩
    obtain ⟨refuses, target, first, -⟩ := readBytes_eq_error_iff.mp failed
    exact ⟨refuses, target, first⟩
  · rintro ⟨refuses, target, first⟩
    exact ⟨_, readBytes_eq_error_iff.mpr ⟨refuses, target, first, rfl⟩⟩

/-- A check finds every block that has an address outside. -/
theorem check_fails_iff :
    (∃ f, m.policy.check address count = .error f) ↔
      m.policy = .fault ∧ ∃ target, FirstOutside address count target := by
  constructor
  · rintro ⟨f, failed⟩
    obtain ⟨refuses, target, -, ⟨far, -⟩ | ⟨-, first⟩⟩ := check_eq_error_iff.mp failed
    · exact ⟨refuses, _, far.firstOutside⟩
    · exact ⟨refuses, target, first⟩
  · rintro ⟨refuses, target, first⟩
    by_cases far : m.EndsFarBeyond address count
    · exact ⟨_, check_eq_error_iff.mpr ⟨refuses, _, rfl, Or.inl ⟨far, rfl⟩⟩⟩
    · exact ⟨_, check_eq_error_iff.mpr ⟨refuses, target, rfl, Or.inr ⟨far, first⟩⟩⟩

theorem checksAsRead_of_not_endsFarBeyond (near : ¬ m.EndsFarBeyond address count) :
    m.ChecksAsRead address count := by
  intro f
  rw [check_eq_error_iff, readBytes_eq_error_iff]
  constructor
  · rintro ⟨refuses, target, rfl, ⟨far, -⟩ | ⟨-, first⟩⟩
    · exact absurd far near
    · exact ⟨refuses, target, first, rfl⟩
  · rintro ⟨refuses, target, first, rfl⟩
    exact ⟨refuses, target, rfl, Or.inr ⟨near, first⟩⟩

theorem not_checksAsRead {reported : Int}
    (read : m.readBytes address count.toNat = .error (.of (.memoryAccess target)))
    (checked : m.policy.check address count = .error (.of (.memoryAccess reported)))
    (other : reported ≠ target) : ¬ m.ChecksAsRead address count := by
  intro agree
  have same := (agree _).mp checked
  rw [read] at same
  cases same
  exact other rfl

/-- Behind the end of the memory a read reports the first address, and a check the last. -/
theorem endsFarBeyond_iff :
    m.EndsFarBeyond address count ↔
      m.readBytes address count.toNat = .error (.of (.memoryAccess 0x1000)) ∧
        m.policy.check address count = .error (.of (.memoryAccess (address + count - 1))) ∧
          address + count - 1 ≠ 0x1000 := by
  constructor
  · intro far
    have ends := far.ends
    refine ⟨?_, ?_, by omega⟩
    · exact readBytes_eq_error_iff.mpr ⟨far.refuses, _, far.firstOutside, rfl⟩
    · exact check_eq_error_iff.mpr ⟨far.refuses, _, rfl, Or.inl ⟨far, rfl⟩⟩
  · rintro ⟨read, checked, other⟩
    by_cases far : m.EndsFarBeyond address count
    · exact far
    · exact absurd (checksAsRead_of_not_endsFarBeyond far) (not_checksAsRead read checked other)

/-- **Checks and reads.** Reading a block is refused exactly if the policy refuses addresses and the
block has one outside of the memory, and the first of them is reported. A check is refused for the
same blocks. It reports the same address exactly unless the block begins in the memory and has more
than one address beyond its end; then the check reports the last of them. Neither of the two gives
back another memory, and a check is not even given the cells. -/
theorem checksAsRead_iff (m : Memory) (address count : Int) :
    (∀ f, m.readBytes address count.toNat = .error f ↔
      m.policy = .fault ∧
        ∃ target, FirstOutside address count target ∧ f = .of (.memoryAccess target)) ∧
    ((∃ f, m.readBytes address count.toNat = .error f) ↔
      m.policy = .fault ∧ ∃ k, 0 ≤ k ∧ k < count ∧ ¬ (0 ≤ address + k ∧ address + k ≤ 0xFFF)) ∧
    ((∃ f, m.policy.check address count = .error f) ↔
      ∃ f, m.readBytes address count.toNat = .error f) ∧
    (m.ChecksAsRead address count ↔ ¬ m.EndsFarBeyond address count) ∧
    (m.EndsFarBeyond address count ↔
      m.readBytes address count.toNat = .error (.of (.memoryAccess 0x1000)) ∧
        m.policy.check address count = .error (.of (.memoryAccess (address + count - 1))) ∧
          address + count - 1 ≠ 0x1000) := by
  refine ⟨fun _ => readBytes_eq_error_iff, ?_, ?_, ⟨?_, checksAsRead_of_not_endsFarBeyond⟩,
    endsFarBeyond_iff⟩
  · rw [readBytes_fails_iff, Policy.exists_firstOutside_iff]
  · rw [check_fails_iff, readBytes_fails_iff]
  · intro agree far
    obtain ⟨read, checked, other⟩ := endsFarBeyond_iff.mp far
    exact not_checksAsRead read checked other agree

/-- Two bytes before the end of the memory, and two behind it: the check reports the last one. -/
theorem twoBeyondEnd_misreported : ¬ (fresh .fault).ChecksAsRead 0xFFE 4 := by
  have read : (fresh .fault).readBytes 0xFFE 4 = .error (.of (.memoryAccess 0x1000)) := rfl
  have checked : (fresh .fault).policy.check 0xFFE 4 = .error (.of (.memoryAccess 0x1001)) := rfl
  exact not_checksAsRead read checked (by decide)

end Memory

end Chip8
