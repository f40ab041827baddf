import Mathlib.Data.List.Induction
import Mathlib.Data.List.Nodup
import Mathlib.Data.List.Perm.Subperm
import RadsatLinux.Restart.Am33xx

/-!
# The controllers that a restart quiesces

`omap_i2c_probe` and `omap_i2c_remove` keep a table of the controllers for
`omap_i2c_quiesce_for_restart`.  A controller is removed by moving the last one into its place.
-/

namespace RadsatLinux.Restart.Controllers

open RadsatLinux.Restart.Am33xx

/-! ## Removal from a table without order -/

section

variable {α : Type} [DecidableEq α]

/-- `t[i] = t[--n]`, for the first `i` with `a`. -/
def swapRemove (a : α) (l : List α) : List α :=
  if h : a ∈ l then (l.set (l.idxOf a) (l.getLast (List.ne_nil_of_mem h))).dropLast else l

theorem swapRemove_perm (a : α) (l : List α) : (swapRemove a l).Perm (l.erase a) := by
  by_cases h : a ∈ l
  · obtain ⟨before, after, rfl, hbefore⟩ := List.eq_append_cons_of_mem h
    have hset (last : α) : (before ++ a :: after).set ((before ++ a :: after).idxOf a) last =
        before ++ last :: after := by
      rw [List.idxOf_append_of_notMem hbefore, List.idxOf_cons_self,
        List.set_append_right _ _ (Nat.le_add_right _ _), Nat.add_zero, Nat.sub_self]
      rfl
    rw [swapRemove, dif_pos h, hset, List.erase_append_right _ hbefore, List.erase_cons_head]
    rcases List.eq_nil_or_concat after with rfl | ⟨more, last, rfl⟩
    · rw [List.dropLast_concat, List.append_nil]
    · have hlast (first : α) :
          before ++ first :: (more ++ [last]) = before ++ first :: more ++ [last] :=
        (List.append_assoc before (first :: more) [last]).symm
      simp only [List.concat_eq_append, hlast, List.getLast_append_singleton, List.dropLast_concat]
      exact (List.perm_append_singleton last more).symm.append_left before
  · rw [swapRemove, dif_neg h, List.erase_of_not_mem h]

theorem swapRemove_length_le (a : α) (l : List α) : (swapRemove a l).length ≤ l.length :=
  (swapRemove_perm a l).length_eq.trans_le List.erase_sublist.length_le

end

/-! ## The table -/

variable {α : Type} [DecidableEq α]

/-- `omap_i2c_restart_devs`, with the addresses of the controllers. -/
structure Table (α : Type) where
  devs : List α
  bound : devs.length ≤ omapI2cRestartMax

/-- `omap_i2c_restart_add`, called by `omap_i2c_probe` -/
def Table.add (table : Table α) (omap : α) : Table α :=
  if h : table.devs.length < omapI2cRestartMax then
    { devs := table.devs ++ [omap]
      bound := by
        rw [List.length_append]
        exact h }
  else table

/-- `omap_i2c_restart_del` -/
def Table.del (table : Table α) (omap : α) : Table α where
  devs := swapRemove omap table.devs
  bound := (swapRemove_length_le omap table.devs).trans table.bound

/-- What `am33xx_restart` finds behind the addresses. -/
def Table.deref (table : Table α) (memory : α → RestartDev) : RestartDevs where
  devs := table.devs.map memory
  bound := by
    rw [List.length_map]
    exact table.bound

/-! ## Probes and removals -/

inductive Event (α : Type) where
  | probe (omap : α)
  | remove (omap : α)

/-- The controllers that are bound, and the table. -/
structure Bus (α : Type) where
  live : List α
  table : Table α

def Bus.initial : Bus α where
  live := []
  table := ⟨[], Nat.zero_le _⟩

/-- The address of a controller is free until it is probed, and again once it is removed. -/
def Bus.step (bus : Bus α) : Event α → Option (Bus α)
  | .probe omap =>
      if omap ∈ bus.live then none
      else some { live := omap :: bus.live, table := bus.table.add omap }
  | .remove omap =>
      if omap ∈ bus.live then
        some { live := bus.live.erase omap, table := bus.table.del omap }
      else none

def run (events : List (Event α)) : Option (Bus α) := events.foldlM Bus.step Bus.initial

theorem run_concat (events : List (Event α)) (event : Event α) :
    run (events ++ [event]) = (run events).bind fun bus => bus.step event := by
  rw [run, List.foldlM_append]
  exact Option.bind_congr fun bus _ => Option.bind_fun_some _

theorem Bus.step_cases {bus next : Bus α} {event : Event α} (h : bus.step event = some next) :
    (∃ omap ∉ bus.live, next = { live := omap :: bus.live, table := bus.table.add omap }) ∨
      ∃ omap, next = { live := bus.live.erase omap, table := bus.table.del omap } := by
  cases event with
  | probe omap =>
      rw [Bus.step] at h
      split at h
      · cases h
      · next hfree => exact Or.inl ⟨omap, hfree, (Option.some.inj h).symm⟩
  | remove omap =>
      rw [Bus.step] at h
      split at h
      · exact Or.inr ⟨omap, (Option.some.inj h).symm⟩
      · cases h

/-- A controller is in the table at most once, and never after its removal. -/
structure Good (bus : Bus α) : Prop where
  live : bus.live.Nodup
  devs : bus.table.devs.Nodup
  bound : ∀ omap ∈ bus.table.devs, omap ∈ bus.live

omit [DecidableEq α] in
theorem good_initial : Good (Bus.initial : Bus α) where
  live := List.nodup_nil
  devs := List.nodup_nil
  bound _ hmem := by cases hmem

omit [DecidableEq α] in
theorem Table.add_cases (table : Table α) (omap : α) :
    (table.add omap).devs = table.devs ++ [omap] ∧ table.devs.length < omapI2cRestartMax ∨
      (table.add omap).devs = table.devs ∧ omapI2cRestartMax ≤ table.devs.length := by
  unfold Table.add
  split
  · next h => exact Or.inl ⟨rfl, h⟩
  · next h => exact Or.inr ⟨rfl, Nat.not_lt.mp h⟩

omit [DecidableEq α] in
theorem Good.probe {bus : Bus α} (h : Good bus) {omap : α} (hfree : omap ∉ bus.live) :
    Good { live := omap :: bus.live, table := bus.table.add omap } := by
  have hnew : omap ∉ bus.table.devs := fun hmem => hfree (h.bound omap hmem)
  refine ⟨List.nodup_cons.mpr ⟨hfree, h.live⟩, ?_, fun other hother => ?_⟩
  · rcases bus.table.add_cases omap with ⟨hadd, -⟩ | ⟨hadd, -⟩
    · rw [hadd, List.nodup_append]
      refine ⟨h.devs, List.nodup_singleton omap, fun other hother new hmem => ?_⟩
      rw [List.mem_singleton.mp hmem]
      rintro rfl
      exact hnew hother
    · rw [hadd]
      exact h.devs
  · rcases bus.table.add_cases omap with ⟨hadd, -⟩ | ⟨hadd, -⟩
    · rw [hadd, List.mem_append, List.mem_singleton] at hother
      rcases hother with hold | rfl
      · exact List.mem_cons_of_mem _ (h.bound other hold)
      · exact List.mem_cons_self
    · rw [hadd] at hother
      exact List.mem_cons_of_mem _ (h.bound other hother)

theorem Good.remove {bus : Bus α} (h : Good bus) (omap : α) :
    Good { live := bus.live.erase omap, table := bus.table.del omap } := by
  have hperm := swapRemove_perm omap bus.table.devs
  refine ⟨h.live.erase omap, hperm.nodup_iff.mpr (h.devs.erase omap), fun other hother => ?_⟩
  obtain ⟨hne, hmem⟩ := h.devs.mem_erase_iff.mp (hperm.mem_iff.mp hother)
  exact (List.mem_erase_of_ne hne).mpr (h.bound other hmem)

omit [DecidableEq α] in
/-- Whatever the table had room for is in it. -/
theorem perm_probe {bus : Bus α} (h : bus.table.devs.Perm bus.live) {omap : α}
    (hfew : (omap :: bus.live).length ≤ omapI2cRestartMax) :
    (bus.table.add omap).devs.Perm (omap :: bus.live) := by
  rcases bus.table.add_cases omap with ⟨hadd, -⟩ | ⟨-, hfull⟩
  · rw [hadd]
    exact (List.perm_append_singleton omap bus.table.devs).trans (h.cons omap)
  · rw [h.length_eq] at hfull
    exact absurd hfew (Nat.not_le_of_lt (Nat.lt_succ_of_le hfull))

theorem run_good {events : List (Event α)} {bus : Bus α} (h : run events = some bus) :
    Good bus := by
  induction events using List.reverseRecOn generalizing bus with
  | nil =>
      cases h
      exact good_initial
  | append_singleton events event ih =>
      rw [run_concat] at h
      obtain ⟨before, hbefore, hstep⟩ := Option.bind_eq_some_iff.mp h
      rcases before.step_cases hstep with ⟨omap, hfree, rfl⟩ | ⟨omap, rfl⟩
      · exact (ih hbefore).probe hfree
      · exact (ih hbefore).remove omap

theorem run_perm {events : List (Event α)} {bus : Bus α} (h : run events = some bus)
    (hfew : ∀ k b, run (events.take k) = some b → b.live.length ≤ omapI2cRestartMax) :
    bus.table.devs.Perm bus.live := by
  induction events using List.reverseRecOn generalizing bus with
  | nil =>
      cases h
      exact List.Perm.refl _
  | append_singleton events event ih =>
      have hlast := hfew (events ++ [event]).length bus
      rw [List.take_length] at hlast
      have hlast := hlast h
      rw [run_concat] at h
      obtain ⟨before, hbefore, hstep⟩ := Option.bind_eq_some_iff.mp h
      have hprefix (k : Nat) (b : Bus α) (hb : run (events.take k) = some b) :
          b.live.length ≤ omapI2cRestartMax := by
        refine hfew (min k events.length) b ?_
        rw [List.take_append_of_le_length (Nat.min_le_right _ _), ← List.take_eq_take_min]
        exact hb
      have hperm := ih hbefore hprefix
      rcases before.step_cases hstep with ⟨omap, -, rfl⟩ | ⟨omap, rfl⟩
      · exact perm_probe hperm hlast
      · exact (swapRemove_perm omap before.table.devs).trans (hperm.erase omap)

/-- After any probes and removals a restart quiesces bound controllers only, each once; all of them
if there were never more than four, and not all if there are now. -/
theorem run_quiesces {events : List (Event α)} {bus : Bus α} (h : run events = some bus)
    (memory : α → RestartDev) :
    (bus.table.devs.Nodup ∧ ∀ omap ∈ bus.table.devs, omap ∈ bus.live) ∧
      ((∀ k b, run (events.take k) = some b → b.live.length ≤ omapI2cRestartMax) →
        (bus.table.deref memory).devs.Perm (bus.live.map memory)) ∧
      (omapI2cRestartMax < bus.live.length → ∃ omap ∈ bus.live, omap ∉ bus.table.devs) := by
  have hgood := run_good h
  refine ⟨⟨hgood.devs, hgood.bound⟩, fun hfew => (run_perm h hfew).map memory, fun hmany => ?_⟩
  by_contra hall
  push Not at hall
  have hle := (hgood.live.subperm hall).length_le
  exact absurd (hle.trans bus.table.bound) (Nat.not_le_of_lt hmany)

/-- Three controllers, the first of which is unbound. -/
def unboundFirst : List (Event Nat) := [.probe 0, .probe 1, .remove 0, .probe 2]

def awake : RestartDev := ⟨true, false, 1, 0x36⟩

theorem run_quiesces_unboundFirst : ∃ bus, run unboundFirst = some bus ∧
    (bus.table.devs.Nodup ∧ ∀ omap ∈ bus.table.devs, omap ∈ bus.live) ∧
      ((∀ k b, run (unboundFirst.take k) = some b → b.live.length ≤ omapI2cRestartMax) →
        (bus.table.deref fun _ => awake).devs.Perm (bus.live.map fun _ => awake)) ∧
      (omapI2cRestartMax < bus.live.length → ∃ omap ∈ bus.live, omap ∉ bus.table.devs) :=
  ⟨_, rfl, run_quiesces rfl _⟩

end RadsatLinux.Restart.Controllers
