import Mathlib.Data.List.Nodup
import Mathlib.Data.List.Perm.Subperm
import FujiNet.Control.Machine
import FujiNet.Data.OrderedMap

/-!
# The task manager

Tasks are kept under the ids that `submit_task` gives them. The id to try first is one byte that wraps
to 0 behind the last id, and 0 is not in the map: it is found at once, and taken for a failure.
-/

namespace FujiNet

/-! ## Maps in key order, with entries taken out and changed -/

namespace OrderedMap

variable {κ β : Type*} [LT κ] [DecidableEq κ]

/-- Without the entry of `k`. -/
def erase (m : OrderedMap κ β) (k : κ) : OrderedMap κ β :=
  ⟨m.entries.filter (·.1 ≠ k), m.sorted.filter _⟩

/-- The value of `k`. -/
def find (m : OrderedMap κ β) (k : κ) : Option β :=
  (m.entries.find? (·.1 = k)).map (·.2)

omit [DecidableEq κ] in
/-- The values changed one by one. -/
def mapValues (m : OrderedMap κ β) (f : κ → β → β) : OrderedMap κ β :=
  ⟨m.entries.map fun e => (e.1, f e.1 e.2), m.sorted.map _ fun _ _ h => h⟩

/-- The keys. -/
def keys (m : OrderedMap κ β) : List κ := m.entries.map (·.1)

variable {m : OrderedMap κ β} {k : κ}

theorem find_eq_none_iff : m.find k = none ↔ k ∉ m.keys := by
  rw [find, Option.map_eq_none_iff, List.find?_eq_none, keys, List.mem_map]
  constructor
  · rintro absent ⟨e, mem, same⟩
    exact absent e mem (decide_eq_true same)
  · exact fun absent e mem same => absent ⟨e, mem, of_decide_eq_true same⟩

omit [DecidableEq κ] in
theorem nodup_keys [IsStrictOrder κ (· < ·)] (m : OrderedMap κ β) : m.keys.Nodup := by
  refine List.Pairwise.map _ (fun a b lt same => ?_) m.sorted
  exact irrefl_of (· < ·) a.1 (same ▸ lt)

/-- Taking out a key that is there takes out one entry. -/
theorem length_erase [IsStrictOrder κ (· < ·)] (mem : k ∈ m.keys) :
    (m.erase k).entries.length + 1 = m.entries.length := by
  have once : m.entries.countP (·.1 = k) = 1 := by
    have count := List.count_eq_one_of_mem m.nodup_keys mem
    rw [List.count, keys, List.countP_map] at count
    rw [← count]
    exact List.countP_congr fun e _ => by simp
  have whole := List.length_eq_countP_add_countP (fun e : κ × β => decide (e.1 = k)) (l := m.entries)
  rw [once] at whole
  rw [whole, erase, ← List.countP_eq_length_filter, Nat.add_comm]
  simp

omit [DecidableEq κ] in
theorem length_assignEntry [DecidableLT κ] {es : List (κ × β)} (v : β) (absent : k ∉ es.map (·.1))
    [IsStrictTotalOrder κ (· < ·)] : (assignEntry k v es).length = es.length + 1 := by
  induction es with
  | nil => rfl
  | cons e es ih =>
      obtain ⟨here, later⟩ := not_or.mp (List.mem_cons.not.mp absent)
      rw [assignEntry]
      split_ifs with before behind
      · rfl
      · rw [List.length_cons, ih later, List.length_cons]
      · rcases trichotomous_of (· < ·) k e.1 with lt | same | gt
        · exact absurd lt before
        · exact absurd same here
        · exact absurd gt behind

end OrderedMap

namespace Task

inductive TaskState
  | ready | running | paused | done
deriving DecidableEq, Repr

inductive DoneReason
  | completed | aborted
deriving DecidableEq, Repr

/-- `fnTask`: which object it is, and the members that the manager sets. -/
structure FnTask where
  address : Nat
  id : UInt8 := 0
  state : TaskState := .ready
  reason : DoneReason := .completed
deriving DecidableEq, Repr

structure FnTaskManager where
  taskMap : OrderedMap UInt8 FnTask := ⟨[], .nil⟩
  nextTid : UInt8 := 1
  taskCount : UInt8 := 0

/-- A loop that does not end. -/
inductive Hang
  | endless
deriving DecidableEq, Repr

namespace FnTaskManager

/-- The next id; 0 is skipped. -/
def succTid (tid : UInt8) : UInt8 := if tid + 1 = 0 then 1 else tid + 1

/-- The loop of `get_free_tid`. There are 256 ids, so what takes longer does not end. -/
def freeTid (m : FnTaskManager) (stop : UInt8) : Nat → UInt8 → Except Hang UInt8
  | 0, _ => .error .endless
  | fuel + 1, tid =>
    if m.taskMap.find tid = none then .ok tid
    else if succTid tid = stop then .ok 0
    else freeTid m stop fuel (succTid tid)

def getFreeTid (m : FnTaskManager) : Except Hang UInt8 := m.freeTid m.nextTid 256 m.nextTid

/-- `submit_task`. -/
def submitTask (t : FnTask) (m : FnTaskManager) : Except Hang (Int × FnTaskManager) :=
  if m.taskMap.entries.any (·.2.address = t.address) then .ok (0, m)
  else
    m.getFreeTid.map fun tid =>
      if tid = 0 then (0, m)
      else
        (tid.toNat,
          { taskMap := m.taskMap.assign tid { t with id := tid }
            nextTid := tid + 1
            taskCount := m.taskCount + 1 })

/-- A task in the map changed in place. -/
def change (tid : UInt8) (f : FnTask → FnTask) (m : FnTaskManager) : FnTaskManager :=
  { m with taskMap := m.taskMap.mapValues fun k t => if k = tid then f t else t }

/-- `pause_task`; `result` is what the task itself answers. -/
def pauseTask (tid : UInt8) (result : Int) (m : FnTaskManager) : Int × FnTaskManager :=
  match m.taskMap.find tid with
  | none => (-1, m)
  | some task =>
    if task.state ≠ .running then (-1, m)
    else (result, m.change tid fun t => { t with state := .paused })

/-- `resume_task`. -/
def resumeTask (tid : UInt8) (result : Int) (m : FnTaskManager) : Int × FnTaskManager :=
  match m.taskMap.find tid with
  | none => (-1, m)
  | some task =>
    if task.state ≠ .paused then (-1, m)
    else (result, m.change tid fun t => { t with state := .running })

/-- A task taken out of the map and deleted. -/
def remove (tid : UInt8) (m : FnTaskManager) : FnTaskManager :=
  { m with
    taskMap := m.taskMap.erase tid
    taskCount := m.taskCount - 1 }

/-- `abort_task`. -/
def abortTask (tid : UInt8) (result : Int) (m : FnTaskManager) : Int × FnTaskManager :=
  match m.taskMap.find tid with
  | none => (-1, m)
  | some _ => (result, m.remove tid)

/-- `complete_task`. -/
def completeTask (tid : UInt8) (m : FnTaskManager) : Int × FnTaskManager :=
  match m.taskMap.find tid with
  | none => (-1, m)
  | some _ => (0, m.remove tid)

/-- What `service` does to one task; `result` is the answer of `start` or `step`. -/
def serviced (result : Int) (t : FnTask) : FnTask :=
  if t.state = .ready ∧ 0 ≤ result then { t with state := .running } else t

/-- `service`, in order of the ids. It tells whether all tasks were idle. -/
def service (result : UInt8 → Int) (m : FnTaskManager) : Bool × FnTaskManager :=
  if m.taskCount = 0 then (true, m)
  else
    let active := m.taskMap.entries.filter fun e => e.2.state = .ready ∨ e.2.state = .running
    let failed := (active.filter fun e => result e.1 < 0).map (·.1)
    let completed := (active.filter fun e => e.2.state = .running ∧ 0 < result e.1).map (·.1)
    let m := { m with taskMap := m.taskMap.mapValues fun tid t => serviced (result tid) t }
    if active = [] then (true, m)
    else
      let m := failed.foldl (fun m tid => (m.abortTask tid 0).2) m
      (false, completed.foldl (fun m tid => (m.completeTask tid).2) m)

end FnTaskManager

/-- The calls of the manager, with the answers of the tasks. -/
inductive TaskCall
  | submit (t : FnTask)
  | abort (tid : UInt8) (result : Int)
  | complete (tid : UInt8)
  | pause (tid : UInt8) (result : Int)
  | resume (tid : UInt8) (result : Int)
  | service (result : UInt8 → Int)

namespace FnTaskManager

/-- One call, and what it returns. -/
def step : TaskCall → FnTaskManager → Except Hang (Int × FnTaskManager)
  | .submit t, m => m.submitTask t
  | .abort tid result, m => .ok (m.abortTask tid result)
  | .complete tid, m => .ok (m.completeTask tid)
  | .pause tid result, m => .ok (m.pauseTask tid result)
  | .resume tid result, m => .ok (m.resumeTask tid result)
  | .service result, m => .ok (if (m.service result).1 then 1 else 0, (m.service result).2)

/-- The manager after a call. -/
def after (call : TaskCall) (m : FnTaskManager) : Except Hang FnTaskManager :=
  (m.step call).map (·.2)

/-- The tasks that were submitted and are not done. -/
def live (m : FnTaskManager) : List FnTask := m.taskMap.entries.map (·.2)

/-- Ids are what the tasks are found by, and all tasks are counted. -/
structure Sound (m : FnTaskManager) : Prop where
  distinct : (m.live.map (·.id)).Nodup
  range : ∀ t ∈ m.live, 1 ≤ t.id.toNat ∧ t.id.toNat ≤ 255
  key : ∀ e ∈ m.taskMap.entries, e.2.id = e.1
  count : m.taskCount.toNat = m.live.length

/-- A new task, while there are fewer tasks than ids. -/
def Submits (t : FnTask) (m : FnTaskManager) : Prop :=
  (∀ t' ∈ m.live, t'.address ≠ t.address) ∧ m.live.length < 255

/-- The call returns and leaves a sound manager; a new task gets an id. -/
def Good (call : TaskCall) (m : FnTaskManager) : Prop :=
  ∃ answer m', m.step call = .ok (answer, m') ∧ Sound m' ∧
    ∀ t, call = .submit t → m.Submits t → answer ≠ 0

/-- When a new task is submitted, the id to try first is not 0. -/
def Regular (call : TaskCall) (m : FnTaskManager) : Prop :=
  ∀ t, call = .submit t → m.Submits t → m.nextTid ≠ 0

section Sound

variable {m : FnTaskManager} {tid : UInt8} {t : FnTask}

/-- What the map keeps: each task under its id, which is not 0, and all of them counted. -/
structure Kept (m : FnTaskManager) : Prop where
  key : ∀ e ∈ m.taskMap.entries, e.2.id = e.1 ∧ e.1 ≠ 0
  count : m.taskCount.toNat = m.taskMap.entries.length

/-- The ids. -/
def allTids : List UInt8 := (List.range 255).map fun i => UInt8.ofNat (i + 1)

theorem mem_allTids (valid : tid ≠ 0) : tid ∈ allTids := by
  refine List.mem_map.mpr ⟨tid.toNat - 1, ?_, ?_⟩
  · have := tid.toNat_lt
    rw [List.mem_range]
    omega
  · have pos : tid.toNat ≠ 0 := fun zero => valid (UInt8.toNat_inj.mp zero)
    rw [Nat.sub_add_cancel (by omega), UInt8.ofNat_toNat]

theorem Kept.sound (kept : Kept m) : Sound m where
  distinct := by
    have ids : m.live.map (·.id) = m.taskMap.keys := by
      rw [live, List.map_map]
      exact List.map_congr_left fun e mem => (kept.key e mem).1
    rw [ids]
    exact m.taskMap.nodup_keys
  range := by
    intro t mem
    obtain ⟨e, entry, rfl⟩ := List.mem_map.mp mem
    obtain ⟨same, valid⟩ := kept.key e entry
    have pos : e.1.toNat ≠ 0 := fun zero => valid (UInt8.toNat_inj.mp zero)
    have := e.1.toNat_lt
    rw [same]
    omega
  key := fun e mem => (kept.key e mem).1
  count := by
    rw [live, List.length_map]
    exact kept.count

theorem Sound.kept (sound : Sound m) : Kept m where
  key := by
    intro e mem
    refine ⟨sound.key e mem, fun zero => ?_⟩
    have range := (sound.range e.2 (List.mem_map_of_mem mem)).1
    rw [sound.key e mem, zero] at range
    exact absurd range (by decide)
  count := by
    rw [sound.count, live, List.length_map]

/-- There are at most 255 tasks. -/
theorem length_le_of_keys {map : OrderedMap UInt8 FnTask} (valid : ∀ e ∈ map.entries, e.1 ≠ 0) :
    map.entries.length ≤ 255 := by
  have sub : map.keys ⊆ allTids := by
    intro tid mem
    obtain ⟨e, entry, rfl⟩ := List.mem_map.mp mem
    exact mem_allTids (valid e entry)
  have le := (List.subperm_of_subset map.nodup_keys sub).length_le
  simpa [OrderedMap.keys, allTids] using le

theorem toNat_of_lt {i : Nat} (lt : i < 255) : (UInt8.ofNat (i + 1)).toNat = i + 1 := by
  rw [UInt8.toNat_ofNat', Nat.mod_eq_of_lt (by omega)]

theorem nodup_allTids : allTids.Nodup := by
  refine List.nodup_range.map_on fun i lt j lt' same => ?_
  have value := congrArg UInt8.toNat same
  rw [toNat_of_lt (List.mem_range.mp lt), toNat_of_lt (List.mem_range.mp lt')] at value
  exact Nat.succ.inj value

/-- If all ids are used there are 255 tasks. -/
theorem length_of_all (all : ∀ tid, tid ≠ 0 → tid ∈ m.taskMap.keys) :
    255 ≤ m.taskMap.entries.length := by
  have sub : allTids ⊆ m.taskMap.keys := by
    intro tid mem
    obtain ⟨i, range, rfl⟩ := List.mem_map.mp mem
    refine all _ fun zero => ?_
    have value := congrArg UInt8.toNat zero
    rw [toNat_of_lt (List.mem_range.mp range)] at value
    exact absurd value (Nat.succ_ne_zero i)
  have le := (List.subperm_of_subset nodup_allTids sub).length_le
  simpa [OrderedMap.keys, allTids] using le

end Sound

/-! ## Free ids -/

section Free

variable {m : FnTaskManager}

theorem toNat_succTid (tid : UInt8) :
    (succTid tid).toNat = if tid.toNat = 255 then 1 else tid.toNat + 1 := by
  have lt := tid.toNat_lt
  have sum : (tid + 1).toNat = (tid.toNat + 1) % 256 := UInt8.toNat_add tid 1
  rw [succTid]
  by_cases last : tid.toNat = 255
  · have zero : tid + 1 = 0 := UInt8.toNat_inj.mp (by rw [sum, last]; rfl)
    rw [if_pos zero, if_pos last]
    rfl
  · have pos : tid + 1 ≠ 0 := by
      intro zero
      rw [zero] at sum
      have none : (0 : UInt8).toNat = 0 := rfl
      omega
    rw [if_neg pos, if_neg last, sum, Nat.mod_eq_of_lt (by omega)]

/-- The id `k` steps behind the one to try first. -/
def Behind (stop : UInt8) (k : Nat) (tid : UInt8) : Prop :=
  tid.toNat = (stop.toNat - 1 + k) % 255 + 1

/-- The loop goes through all ids; `k` of them are used. -/
theorem freeTid_spec {stop tid : UInt8} (valid : 1 ≤ stop.toNat) {fuel k : Nat}
    (here : Behind stop k tid) (some : k < 255) (enough : 255 ≤ fuel + k)
    (used : ∀ j < k, ∀ id, Behind stop j id → id ∈ m.taskMap.keys) :
    ∃ r, m.freeTid stop fuel tid = .ok r ∧
      (r ≠ 0 → r ∉ m.taskMap.keys) ∧ (r = 0 → ∀ id, id ≠ 0 → id ∈ m.taskMap.keys) := by
  induction fuel generalizing tid k with
  | zero => omega
  | succ fuel ih =>
      have below := stop.toNat_lt
      have next := toNat_succTid tid
      rw [freeTid]
      rw [Behind] at here
      split_ifs with free whole
      · refine ⟨tid, rfl, fun _ => OrderedMap.find_eq_none_iff.mp free, fun zero => ?_⟩
        rw [zero] at here
        exact absurd here (Nat.succ_ne_zero _).symm
      · -- The search is back where it started, so every id was tried.
        refine ⟨0, rfl, fun ne => absurd rfl ne, fun _ id valid' => ?_⟩
        have taken : tid ∈ m.taskMap.keys := by
          by_contra absent
          exact free (OrderedMap.find_eq_none_iff.mpr absent)
        have pos : id.toNat ≠ 0 := fun zero => valid' (UInt8.toNat_inj.mp zero)
        have lt := id.toNat_lt
        have last : k = 254 := by
          rw [whole] at next
          split_ifs at next <;> omega
        by_cases same : id = tid
        · exact same ▸ taken
        · have other : id.toNat ≠ tid.toNat := fun eq => same (UInt8.toNat_inj.mp eq)
          refine used ((id.toNat + 255 - stop.toNat) % 255) ?_ id ?_
          · omega
          · rw [Behind]
            omega
      · have there : Behind stop (k + 1) (succTid tid) := by
          rw [Behind, next]
          split_ifs <;> omega
        refine ih there ?_ (by omega) ?_
        · by_contra over'
          refine whole (UInt8.toNat_inj.mp ?_)
          rw [Behind] at there
          omega
        · intro j lt id behind
          rcases Nat.lt_succ_iff_lt_or_eq.mp lt with before | rfl
          · exact used j before id behind
          · obtain rfl : id = tid := UInt8.toNat_inj.mp (behind.trans here.symm)
            by_contra absent
            exact free (OrderedMap.find_eq_none_iff.mpr absent)

/-- An id that is found is not used; one is found unless all are used or 0 is to be tried first. -/
theorem getFreeTid_spec (kept : Kept m) : ∃ r, m.getFreeTid = .ok r ∧
    (r ≠ 0 → r ∉ m.taskMap.keys) ∧
    (m.taskMap.entries.length < 255 → (r ≠ 0 ↔ m.nextTid ≠ 0)) := by
  by_cases zero : m.nextTid = 0
  · have free : m.taskMap.find 0 = none := by
      refine OrderedMap.find_eq_none_iff.mpr fun mem => ?_
      obtain ⟨e, entry, same⟩ := List.mem_map.mp mem
      exact (kept.key e entry).2 same
    refine ⟨0, ?_, fun ne => absurd rfl ne, fun _ => iff_of_false (fun ne => ne rfl) (fun ne => ne zero)⟩
    rw [getFreeTid, zero, freeTid, if_pos free]
  · have valid : 1 ≤ m.nextTid.toNat := by
      have pos : m.nextTid.toNat ≠ 0 := fun h => zero (UInt8.toNat_inj.mp h)
      omega
    have lt := m.nextTid.toNat_lt
    have start : Behind m.nextTid 0 m.nextTid := by
      rw [Behind]
      omega
    have enough : 255 ≤ 256 + 0 := by decide
    obtain ⟨r, found, unused, full⟩ := freeTid_spec (m := m) valid start (by decide) enough
      (fun j lt => absurd lt (Nat.not_lt_zero j))
    refine ⟨r, found, unused, fun fewer => iff_of_true (fun none => ?_) zero⟩
    exact absurd (length_of_all (full none)) (Nat.not_le.mpr fewer)

end Free

/-! ## Calls -/

section Calls

variable {m : FnTaskManager} {tid : UInt8} {call : TaskCall}

theorem kept_change (kept : Kept m) {f : FnTask → FnTask} (same : ∀ t, (f t).id = t.id) :
    Kept (m.change tid f) where
  key := by
    intro e mem
    obtain ⟨e', entry, rfl⟩ := List.mem_map.mp mem
    refine ⟨?_, (kept.key e' entry).2⟩
    refine Eq.trans ?_ (kept.key e' entry).1
    dsimp only
    split_ifs
    · exact same e'.2
    · rfl
  count := kept.count.trans (List.length_map ..).symm

theorem kept_remove (kept : Kept m) (mem : tid ∈ m.taskMap.keys) : Kept (m.remove tid) where
  key := fun e entry => kept.key e (List.mem_of_mem_filter entry)
  count := by
    have one := OrderedMap.length_erase mem
    have count := kept.count
    change (m.taskCount - 1).toNat = (m.taskMap.erase tid).entries.length
    rw [UInt8.toNat_sub_of_le, count]
    · exact (Nat.sub_eq_of_eq_add one.symm)
    · rw [UInt8.le_iff_toNat_le, count, ← one]
      exact Nat.le_add_left 1 _

theorem mem_keys_of_find {t : FnTask} (found : m.taskMap.find tid = some t) : tid ∈ m.taskMap.keys := by
  by_contra absent
  rw [OrderedMap.find_eq_none_iff.mpr absent] at found
  exact nomatch found

theorem kept_abortTask (kept : Kept m) (tid : UInt8) (result : Int) :
    Kept (m.abortTask tid result).2 := by
  rw [abortTask]
  cases found : m.taskMap.find tid with
  | none => exact kept
  | some t => exact kept_remove kept (mem_keys_of_find found)

theorem kept_completeTask (kept : Kept m) (tid : UInt8) : Kept (m.completeTask tid).2 := by
  rw [completeTask]
  cases found : m.taskMap.find tid with
  | none => exact kept
  | some t => exact kept_remove kept (mem_keys_of_find found)

theorem kept_pauseTask (kept : Kept m) (tid : UInt8) (result : Int) :
    Kept (m.pauseTask tid result).2 := by
  rw [pauseTask]
  cases m.taskMap.find tid with
  | none => exact kept
  | some t =>
      dsimp only
      split_ifs
      · exact kept
      · exact kept_change kept fun _ => rfl

theorem kept_resumeTask (kept : Kept m) (tid : UInt8) (result : Int) :
    Kept (m.resumeTask tid result).2 := by
  rw [resumeTask]
  cases m.taskMap.find tid with
  | none => exact kept
  | some t =>
      dsimp only
      split_ifs
      · exact kept
      · exact kept_change kept fun _ => rfl

theorem kept_foldl {f : FnTaskManager → UInt8 → FnTaskManager} (keeps : ∀ m tid, Kept m → Kept (f m tid))
    (kept : Kept m) (tids : List UInt8) : Kept (tids.foldl f m) := by
  induction tids generalizing m with
  | nil => exact kept
  | cons tid tids ih => exact ih (keeps m tid kept)

theorem kept_service (kept : Kept m) (result : UInt8 → Int) : Kept (m.service result).2 := by
  have serviced' : Kept { m with taskMap := m.taskMap.mapValues fun tid t => serviced (result tid) t } := by
    refine ⟨fun e mem => ?_, kept.count.trans (List.length_map ..).symm⟩
    obtain ⟨e', entry, rfl⟩ := List.mem_map.mp mem
    refine ⟨Eq.trans ?_ (kept.key e' entry).1, (kept.key e' entry).2⟩
    dsimp only
    rw [serviced]
    split_ifs <;> rfl
  simp only [service]
  split_ifs
  · exact kept
  · exact serviced'
  · refine kept_foldl (fun m tid kept => kept_completeTask kept tid) ?_ _
    exact kept_foldl (fun m tid kept => kept_abortTask kept tid 0) serviced' _

/-- A task that is submitted: it gets an id that is not used, or nothing is changed. -/
theorem submitTask_spec (kept : Kept m) (t : FnTask) : ∃ answer m', m.submitTask t = .ok (answer, m') ∧
    Kept m' ∧ (m.Submits t → (answer ≠ 0 ↔ m.nextTid ≠ 0)) := by
  rw [submitTask]
  split_ifs with known
  · refine ⟨0, m, rfl, kept, fun new => ?_⟩
    obtain ⟨e, entry, same⟩ := List.any_eq_true.mp known
    exact absurd (of_decide_eq_true same) (new.1 e.2 (List.mem_map_of_mem entry))
  · obtain ⟨tid, found, unused, succeeds⟩ := getFreeTid_spec kept
    have succeeds' : m.Submits t → (tid ≠ 0 ↔ m.nextTid ≠ 0) := by
      intro new
      refine succeeds ?_
      have fewer := new.2
      rwa [live, List.length_map] at fewer
    rw [found, Except.map]
    by_cases zero : tid = 0
    · rw [if_pos zero]
      refine ⟨0, m, rfl, kept, fun new => ?_⟩
      rw [← succeeds' new]
      exact iff_of_false (fun ne => ne rfl) (fun ne => ne zero)
    · rw [if_neg zero]
      refine ⟨_, _, rfl, ?_, fun new => ?_⟩
      · have absent := unused zero
        have longer : (m.taskMap.assign tid { t with id := tid }).entries.length =
            m.taskMap.entries.length + 1 := OrderedMap.length_assignEntry _ absent
        have key : ∀ e ∈ (m.taskMap.assign tid { t with id := tid }).entries,
            e.2.id = e.1 ∧ e.1 ≠ 0 := by
          intro e mem
          rcases (OrderedMap.mem_assign_iff _ _ _ _).mp mem with rfl | ⟨-, old⟩
          · exact ⟨rfl, zero⟩
          · exact kept.key e old
        refine ⟨key, ?_⟩
        have le : m.taskMap.entries.length + 1 ≤ 255 :=
          longer ▸ length_le_of_keys fun e mem => (key e mem).2
        rw [longer, UInt8.toNat_add, kept.count]
        exact Nat.mod_eq_of_lt (Nat.lt_succ_of_le le)
      · rw [← succeeds' new]
        refine iff_of_true (fun none => zero ?_) zero
        exact UInt8.toNat_inj.mp (Int.ofNat_eq_zero.mp none)

/-- A call is good exactly if no new task is submitted while 0 is to be tried first. -/
theorem good_iff (sound : Sound m) : Good call m ↔ Regular call m := by
  have kept := sound.kept
  have always : ∀ {answer : Int} {m' : FnTaskManager}, m.step call = .ok (answer, m') → Kept m' →
      (∀ t, call ≠ .submit t) → (Good call m ↔ Regular call m) := by
    intro answer m' step kept' other
    refine iff_of_true ⟨answer, m', step, kept'.sound, ?_⟩ ?_
    · exact fun t same => absurd same (other t)
    · exact fun t same => absurd same (other t)
  cases call with
  | submit t =>
      obtain ⟨answer, m', step, kept', succeeds⟩ := submitTask_spec kept t
      constructor
      · rintro ⟨answer', m'', step', -, good⟩ _ ⟨⟩ new
        obtain ⟨rfl, -⟩ := Prod.mk.inj (Except.ok.inj (step.symm.trans step'))
        exact (succeeds new).mp (good t rfl new)
      · intro regular
        refine ⟨answer, m', step, kept'.sound, ?_⟩
        rintro _ ⟨⟩ new
        exact (succeeds new).mpr (regular t rfl new)
  | abort tid result => exact always rfl (kept_abortTask kept tid result) (fun _ same => nomatch same)
  | complete tid => exact always rfl (kept_completeTask kept tid) (fun _ same => nomatch same)
  | pause tid result => exact always rfl (kept_pauseTask kept tid result) (fun _ same => nomatch same)
  | resume tid result => exact always rfl (kept_resumeTask kept tid result) (fun _ same => nomatch same)
  | service result => exact always rfl (kept_service kept result) (fun _ same => nomatch same)

theorem sound_initial : Sound {} where
  distinct := .nil
  range := fun _ mem => absurd mem List.not_mem_nil
  key := fun _ mem => absurd mem List.not_mem_nil
  count := rfl

end Calls

/-- In every run of a manager that was just started, all calls are good exactly if no new task is
submitted while the id to try first is 0. -/
theorem good_run_iff (calls : List TaskCall) :
    Machine.Along after Good calls {} ↔ Machine.Along after Regular calls {} := by
  refine Machine.along_congr_of (I := Sound) ?_ (fun call m sound => good_iff sound) sound_initial
  intro call m m' sound regular done
  obtain ⟨answer, m'', step, sound', -⟩ := (good_iff sound).mpr regular
  rw [after, step] at done
  exact Except.ok.inj done ▸ sound'

/-- The tasks are submitted one after the other, and each is aborted before the next one. -/
def oneByOne (n : Nat) : List TaskCall :=
  (List.range n).flatMap fun i => [.submit ⟨i, 0, .ready, .completed⟩, .abort (UInt8.ofNat (i + 1)) 0]

/-- After 255 submissions, and with no task left, a new task gets no id. -/
theorem no_id_after_255 :
    ¬ Machine.Along after Good (oneByOne 255 ++ [.submit ⟨255, 0, .ready, .completed⟩]) {} := by
  intro along
  have idle : (Machine.runOrCrash after (oneByOne 255) {}).toOption.any (fun m =>
      m.nextTid = 0 && m.taskCount = 0 && m.taskMap.entries.isEmpty) = true := by
    decide +kernel
  obtain ⟨m, run, idle⟩ := (Option.any_eq_true _ _).mp idle
  simp only [Bool.and_eq_true, decide_eq_true_eq, List.isEmpty_iff] at idle
  obtain ⟨⟨zero, count⟩, empty⟩ := idle
  cases whole : Machine.runOrCrash after (oneByOne 255) {} with
  | error e => simp [whole, Except.toOption] at run
  | ok m' =>
      obtain rfl : m' = m := by simpa [whole, Except.toOption] using run
      obtain ⟨answer, m'', step, -, good⟩ := (along.of_append whole).1
      have kept : Kept m' := ⟨by simp [empty], by rw [count, empty]; rfl⟩
      have new : m'.Submits ⟨255, 0, .ready, .completed⟩ := by
        simp [Submits, live, empty]
      obtain ⟨answer', m₃, step', -, succeeds⟩ := submitTask_spec kept ⟨255, 0, .ready, .completed⟩
      obtain ⟨rfl, -⟩ := Prod.mk.inj (Except.ok.inj (step.symm.trans step'))
      exact (succeeds new).mp (good _ rfl new) zero

end FnTaskManager

end Task

end FujiNet
