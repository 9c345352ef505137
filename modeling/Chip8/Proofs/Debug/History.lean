import Mathlib.Data.Finset.Card
import Mathlib.Data.List.Nodup
import Chip8.Proofs.Debug.Check
import Chip8.Proofs.Emulator.Host

/-!
# Debuggers and their histories

A debugger answers for what was done with it: a breakpoint or a condition is there if it was brought
in and not taken out since. This is said of the actions one after the other, with no word on how
the debugger keeps its lists (`Stands`). What a condition was brought in as is the number that the
debugger gave it at the time, so it depends on the actions before.

The induction is on the last action of a history: it brings something in, takes something out, or
does neither.
-/

namespace Chip8.Debug

/-! ## What stands -/

section Stands

variable {α : Type} {brings : List α → α → Prop} {takes : α → Prop} {h : List α} {a : α}

/-- Something was brought in by one of the actions, where the actions before it count as well, and
no later one took it out. -/
def Stands (brings : List α → α → Prop) (takes : α → Prop) (history : List α) : Prop :=
  ∃ before a behind, history = before ++ a :: behind ∧ brings before a ∧ ∀ b ∈ behind, ¬ takes b

theorem not_stands_nil : ¬ Stands brings takes [] := by
  rintro ⟨before, a, behind, split, -, -⟩
  simp at split

theorem stands_snoc :
    Stands brings takes (h ++ [a]) ↔ brings h a ∨ Stands brings takes h ∧ ¬ takes a := by
  constructor
  · rintro ⟨before, b, behind, split, brought, kept⟩
    rcases List.eq_nil_or_concat' behind with rfl | ⟨rest, c, rfl⟩
    · obtain ⟨rfl, last⟩ := List.append_inj' split rfl
      obtain rfl := List.singleton_inj.mp last
      exact Or.inl brought
    · rw [← List.cons_append, ← List.append_assoc] at split
      obtain ⟨rfl, last⟩ := List.append_inj' split rfl
      obtain rfl := List.singleton_inj.mp last
      refine Or.inr ⟨⟨before, b, rest, rfl, brought, ?_⟩, kept a (by simp)⟩
      intro d hd
      exact kept d (List.mem_append_left _ hd)
  · rintro (brought | ⟨⟨before, b, behind, rfl, brought, kept⟩, stays⟩)
    · exact ⟨h, a, [], rfl, brought, nofun⟩
    · refine ⟨before, b, behind ++ [a], by simp, brought, ?_⟩
      intro d hd
      rcases List.mem_append.mp hd with earlier | last
      · exact kept d earlier
      · rwa [List.mem_singleton.mp last]

end Stands

/-- What was done with a debugger, each time with the machine that it belonged to. -/
abbrev History := List (Machine × DebugAction)

namespace Debugger

variable {d : Debugger} {h : History}

def afterAll (d : Debugger) (h : History) : Debugger := h.foldl (fun d x => d.after x.1 x.2) d

/-- A new debugger after a history. -/
def session (h : History) : Debugger := idle.afterAll h

theorem session_snoc (h : History) (x : Machine × DebugAction) :
    session (h ++ [x]) = (session h).after x.1 x.2 := by
  unfold session afterAll
  rw [List.foldl_append]
  rfl

/-! ## Conditions and their numbers -/

theorem mem_listConditions {number : Nat} {c : Condition} :
    (number, c) ∈ d.listConditions ↔ d.conditions[number]? = some (some c) := by
  simp only [listConditions, List.mem_filterMap, Option.map_eq_some_iff, Prod.mk.injEq]
  constructor
  · rintro ⟨⟨entry, place⟩, listed, _, rfl, rfl, rfl⟩
    exact List.mem_zipIdx_iff_getElem?.mp listed
  · intro here
    exact ⟨(some c, number), List.mem_zipIdx_iff_getElem?.mpr here, c, rfl, rfl, rfl⟩

/-- Conditions are listed in the order of their numbers. -/
theorem numbers_ascend (d : Debugger) :
    (d.listConditions.map Prod.fst).Pairwise (· < ·) := by
  have places : d.conditions.zipIdx.Pairwise fun p q => p.2 < q.2 := by
    apply List.pairwise_map.mp
    rw [List.zipIdx_map_snd]
    exact List.pairwise_lt_range'
  rw [List.pairwise_map, listConditions, List.pairwise_filterMap]
  refine places.imp ?_
  rintro ⟨entry, place⟩ ⟨entry', place'⟩ less p hp q hq
  obtain ⟨_, -, rfl⟩ := Option.map_eq_some_iff.mp hp
  obtain ⟨_, -, rfl⟩ := Option.map_eq_some_iff.mp hq
  exact less

theorem mem_listConditions_add {number : Nat} {c c' : Condition} :
    (number, c) ∈ (d.addCondition c').2.listConditions ↔
      (c' = c ∧ (d.addCondition c').1 = number) ∨ (number, c) ∈ d.listConditions := by
  rw [mem_listConditions, mem_listConditions]
  show (d.conditions ++ [some c'])[number]? = _ ↔ (_ ∧ d.conditions.length = number) ∨ _
  rcases Nat.lt_trichotomy number d.conditions.length with less | rfl | more
  · rw [List.getElem?_append_left less]
    constructor
    · exact Or.inr
    · rintro (⟨-, rfl⟩ | here)
      · exact absurd less (Nat.lt_irrefl _)
      · exact here
  · simp
  · have beyond : (d.conditions ++ [some c'])[number]? = none :=
      List.getElem?_eq_none (by rw [List.length_append]; exact more)
    rw [beyond, List.getElem?_eq_none (Nat.le_of_lt more)]
    simp only [reduceCtorEq, or_false, false_iff, not_and]
    rintro - rfl
    exact absurd more (Nat.lt_irrefl _)

/-- Removing one number leaves all the others. -/
theorem mem_listConditions_remove {number : Nat} {c : Condition} {n : Int} :
    (number, c) ∈ (d.removeCondition n).listConditions ↔
      (number, c) ∈ d.listConditions ∧ (number : Int) ≠ n := by
  unfold removeCondition
  split
  · rename_i negative
    exact ⟨fun here => ⟨here, by omega⟩, And.left⟩
  · rename_i there
    rw [mem_listConditions, mem_listConditions, List.getElem?_set]
    by_cases same : n.toNat = number
    · rw [if_pos same]
      constructor
      · intro gone
        split at gone <;> cases gone
      · rintro ⟨-, other⟩
        omega
    · rw [if_neg same]
      exact ⟨fun here => ⟨here, by omega⟩, And.left⟩

/-- A number that is not listed can be removed as often as one likes. -/
theorem removeCondition_of_not_listed {n : Int}
    (unknown : ∀ number c, (number, c) ∈ d.listConditions → (number : Int) ≠ n) :
    d.removeCondition n = d := by
  unfold removeCondition
  split
  · rfl
  · have same : d.conditions.set n.toNat none = d.conditions := by
      apply List.ext_getElem?
      intro k
      rw [List.getElem?_set]
      split
      · rename_i here
        subst here
        -- there is a gap at this place already, or no place at all
        rcases entry : d.conditions[n.toNat]? with _ | _ | c
        · rw [if_neg (by rw [List.getElem?_eq_none_iff] at entry; omega)]
        · rw [if_pos (List.getElem?_eq_some_iff.mp entry).1]
        · exact absurd (mem_listConditions.mpr entry) (fun listed => by
            have := unknown _ _ listed
            omega)
      · rfl
    rw [same]

theorem length_removeCondition (d : Debugger) (n : Int) :
    (d.removeCondition n).conditions.length = d.conditions.length := by
  unfold removeCondition
  split
  · rfl
  · exact List.length_set

end Debugger

/-! ## What actions bring in and take out -/

/-- The action adds the condition, and it is given the number. -/
def AddsCondition (number : Nat) (c : Condition) (before : History) (x : Machine × DebugAction) :
    Prop := x.2 = .addCondition c ∧ ((Debugger.session before).addCondition c).1 = number

def ClearsConditions (x : Machine × DebugAction) : Prop := x.2 = .clearConditions ∨ x.2 = .clearAll

def DropsCondition (number : Nat) (x : Machine × DebugAction) : Prop :=
  x.2 = .removeCondition number ∨ ClearsConditions x

/-- The action adds a breakpoint at the address, up to whole turns around all addresses. -/
def AddsBreakpoint (address : Int) (_ : History) (x : Machine × DebugAction) : Prop :=
  ∃ a, x.2 = .addBreakpoint a ∧ a % 65536 = address % 65536

def DropsBreakpoint (address : Int) (x : Machine × DebugAction) : Prop :=
  (∃ a, x.2 = .removeBreakpoint a ∧ a % 65536 = address % 65536) ∨
    x.2 = .clearBreakpoints ∨ x.2 = .clearAll

def Requests (_ : History) (x : Machine × DebugAction) : Prop := x.2 = .requestBreak

/-- A look uses the request up. -/
def EndsRequest (x : Machine × DebugAction) : Prop :=
  x.2 = .clearBreakRequest ∨ x.2 = .clearAll ∨ x.2 = .check

namespace Debugger

variable {d : Debugger} {h : History}

/-! ## Conditions -/

/-- Actions that have nothing to do with conditions leave them alone. -/
theorem after_conditions {m : Machine} {a : DebugAction} (added : ∀ c, a ≠ .addCondition c)
    (removed : ∀ n, a ≠ .removeCondition n) (kept : ¬ ClearsConditions (m, a)) :
    (d.after m a).conditions = d.conditions := by
  cases a with
  | addCondition c => exact absurd rfl (added c)
  | removeCondition n => exact absurd rfl (removed n)
  | clearConditions => exact absurd (Or.inl rfl) kept
  | clearAll => exact absurd (Or.inr rfl) kept
  | check => exact check_conditions d m
  | _ => rfl

/-- The conditions of a new debugger are those that stand. -/
theorem mem_listConditions_session (h : History) (number : Nat) (c : Condition) :
    (number, c) ∈ (session h).listConditions ↔
      Stands (AddsCondition number c) (DropsCondition number) h := by
  induction h using List.reverseRecOn with
  | nil => exact iff_of_false nofun not_stands_nil
  | append_singleton h x ih =>
      rw [session_snoc, stands_snoc, ← ih]
      obtain ⟨m, a⟩ := x
      cases a with
      | addCondition c' =>
          have stays : ¬ DropsCondition number (m, .addCondition c') := by
            simp [DropsCondition, ClearsConditions]
          rw [and_iff_left stays]
          show _ ∈ ((session h).addCondition c').2.listConditions ↔ _
          rw [mem_listConditions_add]
          simp only [AddsCondition, DebugAction.addCondition.injEq]
          refine or_congr_left (and_congr_right ?_)
          rintro rfl
          exact Iff.rfl
      | removeCondition n =>
          have adds : ¬ AddsCondition number c h (m, .removeCondition n) := by
            simp [AddsCondition]
          rw [or_iff_right adds]
          show _ ∈ ((session h).removeCondition n).listConditions ↔ _
          rw [mem_listConditions_remove]
          simp only [DropsCondition, ClearsConditions, DebugAction.removeCondition.injEq,
            reduceCtorEq, or_false]
          exact and_congr_right fun _ => not_congr eq_comm
      | clearConditions =>
          refine iff_of_false nofun ?_
          rintro (⟨added, -⟩ | ⟨-, stays⟩)
          · cases added
          · exact stays (Or.inr (Or.inl rfl))
      | clearAll =>
          refine iff_of_false nofun ?_
          rintro (⟨added, -⟩ | ⟨-, stays⟩)
          · cases added
          · exact stays (Or.inr (Or.inr rfl))
      | addBreakpoint | removeBreakpoint | clearBreakpoints | requestBreak | clearBreakRequest
      | record | check =>
          rw [mem_listConditions, mem_listConditions]
          simp [AddsCondition, DropsCondition, ClearsConditions, after_conditions]

/-- Without a clear no number is given again. -/
theorem conditions_length_afterAll (kept : ∀ x ∈ h, ¬ ClearsConditions x) :
    d.conditions.length ≤ (d.afterAll h).conditions.length := by
  induction h generalizing d with
  | nil => exact Nat.le_refl _
  | cons x rest ih =>
      obtain ⟨m, a⟩ := x
      refine Nat.le_trans ?_ (ih fun y hy => kept y (List.mem_cons_of_mem _ hy))
      show d.conditions.length ≤ (d.after m a).conditions.length
      cases a with
      | addCondition c =>
          show _ ≤ (d.conditions ++ [some c]).length
          rw [List.length_append]
          exact Nat.le_add_right _ _
      | removeCondition n =>
          show _ ≤ (d.removeCondition n).conditions.length
          rw [length_removeCondition]
      | clearConditions => exact absurd (Or.inl rfl) (kept _ List.mem_cons_self)
      | clearAll => exact absurd (Or.inr rfl) (kept _ List.mem_cons_self)
      | addBreakpoint | removeBreakpoint | clearBreakpoints | requestBreak | clearBreakRequest
      | record | check => rw [after_conditions (by simp) (by simp) (by simp [ClearsConditions])]

/-- Between two clears the numbers grow. -/
theorem numbers_fresh {before between : History} {m : Machine} {c c' : Condition}
    (kept : ∀ x ∈ between, ¬ ClearsConditions x) :
    ((session before).addCondition c).1 <
      ((session (before ++ (m, .addCondition c) :: between)).addCondition c').1 := by
  have grown : ((session before).after m (.addCondition c)).conditions.length ≤
      (((session before).after m (.addCondition c)).afterAll between).conditions.length :=
    conditions_length_afterAll kept
  have start : session (before ++ (m, .addCondition c) :: between) =
      ((session before).after m (.addCondition c)).afterAll between := List.foldl_append
  rw [start]
  refine Nat.lt_of_lt_of_le ?_ grown
  show _ < ((session before).conditions ++ [some c]).length
  rw [List.length_append]
  exact Nat.lt_succ_self _

/-! ## Breakpoints -/

theorem hasBreakpoint_iff {a : Int} : d.hasBreakpoint a ↔ wordOf a ∈ d.breakpoints := by
  rw [hasBreakpoint, List.contains_iff_mem]

theorem hasBreakpoint_add {a b : Int} :
    (d.addBreakpoint b).hasBreakpoint a ↔ b % 65536 = a % 65536 ∨ d.hasBreakpoint a := by
  rw [hasBreakpoint_addBreakpoint, Bool.or_eq_true, decide_eq_true_iff, wordOf_inj, eq_comm]

theorem hasBreakpoint_remove {a b : Int} :
    (d.removeBreakpoint b).hasBreakpoint a ↔ d.hasBreakpoint a ∧ ¬ b % 65536 = a % 65536 := by
  rw [hasBreakpoint_iff, hasBreakpoint_iff, removeBreakpoint, List.mem_filter, bne_iff_ne, ne_eq,
    ← wordOf_inj, eq_comm]

theorem removeCondition_frame (d : Debugger) (n : Int) :
    ∃ conditions, d.removeCondition n = { d with conditions := conditions } := by
  unfold removeCondition
  split
  · exact ⟨d.conditions, rfl⟩
  · exact ⟨_, rfl⟩

/-- Actions that have nothing to do with breakpoints leave them alone. -/
theorem after_breakpoints {m : Machine} {a : DebugAction} (added : ∀ b, a ≠ .addBreakpoint b)
    (removed : ∀ b, a ≠ .removeBreakpoint b) (cleared : a ≠ .clearBreakpoints)
    (clearedAll : a ≠ .clearAll) : (d.after m a).breakpoints = d.breakpoints := by
  cases a with
  | addBreakpoint b => exact absurd rfl (added b)
  | removeBreakpoint b => exact absurd rfl (removed b)
  | clearBreakpoints => exact absurd rfl cleared
  | clearAll => exact absurd rfl clearedAll
  | removeCondition n =>
      obtain ⟨_, removal⟩ := removeCondition_frame d n
      rw [after, removal]
  | check => exact check_breakpoints d m
  | addCondition | clearConditions | requestBreak | clearBreakRequest | record => rfl

/-- The breakpoints of a new debugger are those that stand. -/
theorem hasBreakpoint_session (h : History) (address : Int) :
    (session h).hasBreakpoint address ↔
      Stands (AddsBreakpoint address) (DropsBreakpoint address) h := by
  induction h using List.reverseRecOn with
  | nil => exact iff_of_false nofun not_stands_nil
  | append_singleton h x ih =>
      rw [session_snoc, stands_snoc, ← ih]
      obtain ⟨m, a⟩ := x
      cases a with
      | addBreakpoint b =>
          refine hasBreakpoint_add.trans ?_
          simp [AddsBreakpoint, DropsBreakpoint]
      | removeBreakpoint b =>
          refine hasBreakpoint_remove.trans ?_
          simp [AddsBreakpoint, DropsBreakpoint]
      | clearBreakpoints =>
          refine iff_of_false nofun ?_
          simp [AddsBreakpoint, DropsBreakpoint]
      | clearAll =>
          refine iff_of_false nofun ?_
          simp [AddsBreakpoint, DropsBreakpoint]
      | addCondition | removeCondition | clearConditions | requestBreak | clearBreakRequest
      | record | check =>
          rw [hasBreakpoint_iff, hasBreakpoint_iff,
            after_breakpoints (by simp) (by simp) (by simp) (by simp)]
          simp [AddsBreakpoint, DropsBreakpoint]

theorem pairwise_insertAddress (a : UInt16) {l : List UInt16} (h : l.Pairwise (· < ·)) :
    (insertAddress a l).Pairwise (· < ·) := by
  induction l with
  | nil => exact List.pairwise_singleton _ a
  | cons b rest ih =>
      obtain ⟨first, later⟩ := List.pairwise_cons.mp h
      unfold insertAddress
      split
      · rename_i less
        refine List.pairwise_cons.mpr ⟨fun c hc => ?_, h⟩
        rcases List.mem_cons.mp hc with rfl | there
        · exact less
        · exact UInt16.lt_trans less (first c there)
      · split
        · exact h
        · rename_i notLess notSame
          refine List.pairwise_cons.mpr ⟨fun c hc => ?_, ih later⟩
          rcases (mem_insertAddress a c rest).mp hc with rfl | there
          · exact UInt16.lt_of_le_of_ne (UInt16.not_lt.mp notLess) (Ne.symm notSame)
          · exact first c there

theorem breakpoints_ascend (h : History) : (session h).breakpoints.Pairwise (· < ·) := by
  induction h using List.reverseRecOn with
  | nil => exact List.Pairwise.nil
  | append_singleton h x ih =>
      rw [session_snoc]
      obtain ⟨m, a⟩ := x
      cases a with
      | addBreakpoint b => exact pairwise_insertAddress (wordOf b) ih
      | removeBreakpoint b => exact ih.filter _
      | clearBreakpoints | clearAll => exact List.Pairwise.nil
      | addCondition | removeCondition | clearConditions | requestBreak | clearBreakRequest
      | record | check =>
          rw [after_breakpoints (by simp) (by simp) (by simp) (by simp)]
          exact ih

theorem mem_breakpoints_iff (d : Debugger) (a : UInt16) :
    a ∈ d.breakpoints ↔ d.hasBreakpoint a.toNat := by
  rw [hasBreakpoint_iff, wordOf_toNat]

/-- No breakpoint is counted twice. -/
theorem card_breakpoints (ascending : d.breakpoints.Pairwise (· < ·)) :
    ((Finset.range 65536).filter fun a : Nat => d.hasBreakpoint a).card = d.breakpoints.length := by
  have distinct : (d.breakpoints.map UInt16.toNat).Nodup := by
    rw [List.Nodup, List.pairwise_map]
    exact ascending.imp Nat.ne_of_lt
  have same : (Finset.range 65536).filter (fun a : Nat => d.hasBreakpoint a) =
      (d.breakpoints.map UInt16.toNat).toFinset := by
    ext a
    simp only [Finset.mem_filter, Finset.mem_range, List.mem_toFinset, List.mem_map,
      mem_breakpoints_iff]
    constructor
    · rintro ⟨below, there⟩
      have back : (UInt16.ofNat a).toNat = a := UInt16.toNat_ofNat_of_lt' below
      exact ⟨UInt16.ofNat a, by rwa [back], back⟩
    · rintro ⟨b, there, rfl⟩
      exact ⟨b.toNat_lt, there⟩
  rw [same, List.toFinset_card_of_nodup distinct, List.length_map]

/-! ## Requests and looks -/

theorem breakRequested_session (h : History) :
    (session h).breakRequested ↔ Stands Requests EndsRequest h := by
  induction h using List.reverseRecOn with
  | nil => exact iff_of_false nofun not_stands_nil
  | append_singleton h x ih =>
      rw [session_snoc, stands_snoc, ← ih]
      obtain ⟨m, a⟩ := x
      cases a with
      | requestBreak => exact iff_of_true rfl (Or.inl rfl)
      | check => simp [after, check_breakRequested, Requests, EndsRequest]
      | clearBreakRequest | clearAll =>
          refine iff_of_false nofun ?_
          simp [Requests, EndsRequest]
      | removeCondition n =>
          obtain ⟨_, removal⟩ := removeCondition_frame (session h) n
          simp [after, removal, Requests, EndsRequest]
      | addBreakpoint | removeBreakpoint | clearBreakpoints | addCondition | clearConditions
      | record =>
          simp only [Requests, EndsRequest, reduceCtorEq, or_self, not_false_eq_true, and_true,
            false_or]
          exact Iff.rfl

theorem check_eq_none_iff (d : Debugger) (m : Machine) :
    (d.check m).1 = none ↔
      d.breakRequested = false ∧ d.hasBreakpoint m.pc.toNat = false ∧
        ∀ number c, (number, c) ∈ d.listConditions → c.holds m = false := by
  have noneMet : d.metCondition? m = none ↔
      ∀ number c, (number, c) ∈ d.listConditions → c.holds m = false := by
    rw [← Option.not_isSome_iff_eq_none, ← met_iff]
    constructor
    · intro unmet number c listed
      refine eq_false_of_ne_true fun holds => unmet ⟨c, ?_, holds⟩
      exact List.mem_of_getElem? (mem_listConditions.mp listed)
    · rintro unmet ⟨c, there, holds⟩
      obtain ⟨number, place⟩ := List.mem_iff_getElem?.mp there
      rw [unmet number c (mem_listConditions.mpr place)] at holds
      cases holds
  have noBreakpoint : d.hasBreakpoint m.pc.toNat = d.breakpoints.contains m.pc := by
    rw [hasBreakpoint, wordOf_toNat]
  rw [← noneMet, noBreakpoint]
  unfold check
  cases d.breakRequested with
  | true => simp
  | false =>
      cases d.breakpoints.contains m.pc with
      | true => simp
      | false => cases d.metCondition? m <;> simp

end Debugger

/-! ## The whole debugger -/

/-- A debugger says what its history says. -/
structure Answers (h : History) (d : Debugger) : Prop where
  conditions : ∀ number c,
    (number, c) ∈ d.listConditions ↔ Stands (AddsCondition number c) (DropsCondition number) h
  numbers_ascend : (d.listConditions.map Prod.fst).Pairwise (· < ·)
  breakpoints : ∀ address,
    d.hasBreakpoint address ↔ Stands (AddsBreakpoint address) (DropsBreakpoint address) h
  listed : ∀ a, a ∈ d.breakpoints ↔ d.hasBreakpoint a.toNat
  ascend : d.breakpoints.Pairwise (· < ·)
  counted :
    d.breakpoints.length = ((Finset.range 65536).filter fun a : Nat => d.hasBreakpoint a).card
  request : d.breakRequested ↔ Stands Requests EndsRequest h

/-- **A debugger keeps a set of addresses and a map with fresh numbers.** Whatever is done with a
new debugger, it answers for just this. Numbers are not given twice between two clears. To remove
a number that is not listed changes nothing, and to remove one that is leaves all others. A look
says nothing if and only if there is nothing to say, and changes no more than it has to. -/
theorem session_answers :
    (∀ h : History, Answers h (Debugger.session h)) ∧
    (∀ (before between : History) (m : Machine) (c c' : Condition),
      (∀ x ∈ between, ¬ ClearsConditions x) →
      ((Debugger.session before).addCondition c).1 <
        ((Debugger.session (before ++ (m, .addCondition c) :: between)).addCondition c').1) ∧
    (∀ (d : Debugger) (n : Int),
      ((∀ number c, (number, c) ∈ d.listConditions → (number : Int) ≠ n) →
        d.removeCondition n = d) ∧
      (∃ conditions, d.removeCondition n = { d with conditions := conditions }) ∧
      ∀ number c, (number, c) ∈ (d.removeCondition n).listConditions ↔
        (number, c) ∈ d.listConditions ∧ (number : Int) ≠ n) ∧
    ∀ (d : Debugger) (m : Machine),
      (d.check m).2 =
        { d with breakRequested := false, lastEvent := (d.check m).1.or d.lastEvent } ∧
      ((d.check m).1 = none ↔
        d.breakRequested = false ∧ d.hasBreakpoint m.pc.toNat = false ∧
          ∀ number c, (number, c) ∈ d.listConditions → c.holds m = false) := by
  refine ⟨fun h => ?_, fun before between m c c' kept => ?_, fun d n => ⟨?_, ?_, ?_⟩,
    fun d m => ⟨?_, ?_⟩⟩
  · exact {
      conditions := Debugger.mem_listConditions_session h
      numbers_ascend := Debugger.numbers_ascend _
      breakpoints := Debugger.hasBreakpoint_session h
      listed := Debugger.mem_breakpoints_iff _
      ascend := Debugger.breakpoints_ascend h
      counted := (Debugger.card_breakpoints (Debugger.breakpoints_ascend h)).symm
      request := Debugger.breakRequested_session h }
  · exact Debugger.numbers_fresh kept
  · exact Debugger.removeCondition_of_not_listed
  · exact Debugger.removeCondition_frame d n
  · intro number c
    exact Debugger.mem_listConditions_remove
  · exact Debugger.check_records d m
  · exact Debugger.check_eq_none_iff d m

end Chip8.Debug
