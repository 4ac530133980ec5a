/-
# The executor

The cooperative executor of `task/executor.rs`: a map of the live tasks, a bounded FIFO of the
ids that are ready, and a cache of wakers.  `run_ready_tasks` takes ids from the FIFO until it is
empty; an id whose task is gone is skipped, for every other one the task is polled.  A waker puts
the id of its task into the FIFO and can be called at any time, also while a task is polled and
also when its own task has finished.  Nothing keeps an id from being in the FIFO twice.

A run of the executor is a run of the machine below.  What the futures of the tasks do is left
open: the inputs say when a waker is called and what a poll returns.
-/
import SilOS.Lib.Checked
import SilOS.Lib.Machine

namespace SilOS.Task

open Lib

/-- `TaskId`. -/
abbrev TaskId := ℕ

/-- Why an action gives no result. -/
inductive Refusal where
  /-- A failed `expect`, or an explicit panic. -/
  | panic
  /-- The action is not one of those that can come next. -/
  | disabled
deriving DecidableEq, Repr

/-- `Poll<()>`. -/
inductive Poll where
  | ready
  | pending
deriving DecidableEq, Repr

/-- `Executor`: the keys of `tasks` and of `waker_cache`, and the ids in `task_queue`.  The
waker cached for an id is the one that wakes this id. -/
structure Executor where
  tasks : Finset TaskId
  taskQueue : List TaskId
  wakerCache : Finset TaskId
deriving DecidableEq

/-- The capacity of `task_queue`. -/
def queueCapacity : ℕ := 100

namespace Executor

/-- `Executor::new`. -/
def new : Executor := ⟨∅, [], ∅⟩

/-- `task_queue.push(id).expect(..)`. -/
def push (e : Executor) (id : TaskId) : Except Refusal Executor :=
  if e.taskQueue.length < queueCapacity then .ok { e with taskQueue := e.taskQueue ++ [id] }
  else .error .panic

/-- `TaskWaker::wake_task`, for the waker of the task `id`. -/
def wakeTask (e : Executor) (id : TaskId) : Except Refusal Executor := e.push id

/-- `Executor::spawn`. -/
def spawn (e : Executor) (id : TaskId) : Except Refusal Executor :=
  if id ∈ e.tasks then .error .panic
  else ({ e with tasks := insert id e.tasks } : Executor).push id

/-- What the loop of `run_ready_tasks` finds at the front of the queue. -/
inductive Popped where
  | empty
  /-- The task no longer exists. -/
  | gone (id : TaskId)
  /-- The task is polled next. -/
  | live (id : TaskId)
deriving DecidableEq

/-- The loop of `run_ready_tasks` up to the poll: take an id, look its task up, and make sure
that there is a waker for it. -/
def popReady (e : Executor) : Popped × Executor :=
  match e.taskQueue with
  | [] => (.empty, e)
  | id :: q =>
      if id ∈ e.tasks then
        (.live id, { e with taskQueue := q, wakerCache := insert id e.wakerCache })
      else (.gone id, { e with taskQueue := q })

/-- The rest of the loop, when the poll of `id` has returned. -/
def complete (e : Executor) (id : TaskId) : Poll → Executor
  | .ready => { e with tasks := e.tasks.erase id, wakerCache := e.wakerCache.erase id }
  | .pending => e

variable {e e' : Executor} {id : TaskId}

lemma push_eq_ok : e.push id = .ok e' ↔
    e.taskQueue.length < queueCapacity ∧ e' = { e with taskQueue := e.taskQueue ++ [id] } := by
  rw [push]
  split_ifs with h
  · simp [h, eq_comm]
  · simp [h]

lemma push_eq_panic : e.push id = .error .panic ↔ queueCapacity ≤ e.taskQueue.length := by
  rw [push]
  split_ifs with h
  · simpa using h
  · simpa using h

lemma spawn_eq_ok : e.spawn id = .ok e' ↔ id ∉ e.tasks ∧ e.taskQueue.length < queueCapacity ∧
    e' = { e with tasks := insert id e.tasks, taskQueue := e.taskQueue ++ [id] } := by
  rw [spawn]
  split_ifs with hid
  · simp [hid]
  · simp [hid, push_eq_ok]

@[simp] lemma taskQueue_complete (e : Executor) (id : TaskId) (result : Poll) :
    (e.complete id result).taskQueue = e.taskQueue := by
  cases result <;> rfl

lemma mem_tasks_complete {id' : TaskId} (e : Executor) (result : Poll) (hne : id' ≠ id)
    (hid : id' ∈ e.tasks) : id' ∈ (e.complete id result).tasks := by
  cases result with
  | ready => exact Finset.mem_erase.mpr ⟨hne, hid⟩
  | pending => exact hid

end Executor

/-! ### Runs of the executor -/

/-- Where the executor is. -/
inductive Phase where
  /-- Not in `run_ready_tasks`. -/
  | outside
  /-- At the top of the loop of `run_ready_tasks`. -/
  | draining
  /-- In the poll of a task. -/
  | polling (id : TaskId)
deriving DecidableEq

/-- An executor and where it is. -/
structure Running where
  exec : Executor
  phase : Phase
deriving DecidableEq

/-- What can come next. -/
inductive Action where
  | spawn (id : TaskId)
  /-- A waker of the task `id` is called. -/
  | wake (id : TaskId)
  /-- `run_ready_tasks` is called. -/
  | enter
  /-- The next id is taken from the queue. -/
  | pop
  /-- The poll of the current task returns. -/
  | poll (result : Poll)
deriving DecidableEq

/-- What has happened. -/
inductive Event where
  | spawned (id : TaskId)
  | woken (id : TaskId)
  | entered
  /-- `run_ready_tasks` has returned. -/
  | returned
  /-- An id was taken whose task is gone. -/
  | skipped (id : TaskId)
  /-- An id was taken and the poll of its task has begun. -/
  | polled (id : TaskId)
  /-- The poll of the task returned `Ready`. -/
  | finished (id : TaskId)
  /-- The poll of the task returned `Pending`. -/
  | suspended (id : TaskId)
deriving DecidableEq

namespace Running

/-- One action.  A task can be spawned only outside `run_ready_tasks`, which has the executor
to itself. -/
def step (s : Running) : Action → Except Refusal (Event × Running)
  | .spawn id =>
      match s.phase with
      | .outside => (s.exec.spawn id).map fun e => (.spawned id, ⟨e, .outside⟩)
      | _ => .error .disabled
  | .wake id => (s.exec.wakeTask id).map fun e => (.woken id, ⟨e, s.phase⟩)
  | .enter =>
      match s.phase with
      | .outside => .ok (.entered, ⟨s.exec, .draining⟩)
      | _ => .error .disabled
  | .pop =>
      match s.phase with
      | .draining =>
          match s.exec.popReady with
          | (.empty, e) => .ok (.returned, ⟨e, .outside⟩)
          | (.gone id, e) => .ok (.skipped id, ⟨e, .draining⟩)
          | (.live id, e) => .ok (.polled id, ⟨e, .polling id⟩)
      | _ => .error .disabled
  | .poll result =>
      match s.phase with
      | .polling id =>
          let event := match result with
            | .ready => Event.finished id
            | .pending => Event.suspended id
          .ok (event, ⟨s.exec.complete id result, .draining⟩)
      | _ => .error .disabled

/-- The executor as a machine. -/
def machine : Machine Running Action Event Refusal := ⟨step⟩

/-- The executor before anything is spawned. -/
def start : Running := ⟨Executor.new, .outside⟩

/-- What a step can do. -/
inductive Step : Running → Action → Event → Running → Prop
  | spawned {e : Executor} {id : TaskId} (hid : id ∉ e.tasks) :
      Step ⟨e, .outside⟩ (.spawn id) (.spawned id)
        ⟨{ e with tasks := insert id e.tasks, taskQueue := e.taskQueue ++ [id] }, .outside⟩
  | woken {e : Executor} {p : Phase} {id : TaskId} :
      Step ⟨e, p⟩ (.wake id) (.woken id) ⟨{ e with taskQueue := e.taskQueue ++ [id] }, p⟩
  | entered {e : Executor} : Step ⟨e, .outside⟩ .enter .entered ⟨e, .draining⟩
  | returned {e : Executor} (hq : e.taskQueue = []) :
      Step ⟨e, .draining⟩ .pop .returned ⟨e, .outside⟩
  | skipped {e : Executor} {id : TaskId} {q : List TaskId} (hq : e.taskQueue = id :: q)
      (hid : id ∉ e.tasks) :
      Step ⟨e, .draining⟩ .pop (.skipped id) ⟨{ e with taskQueue := q }, .draining⟩
  | polled {e : Executor} {id : TaskId} {q : List TaskId} (hq : e.taskQueue = id :: q)
      (hid : id ∈ e.tasks) :
      Step ⟨e, .draining⟩ .pop (.polled id)
        ⟨{ e with taskQueue := q, wakerCache := insert id e.wakerCache }, .polling id⟩
  | finished {e : Executor} {id : TaskId} :
      Step ⟨e, .polling id⟩ (.poll .ready) (.finished id)
        ⟨{ e with tasks := e.tasks.erase id, wakerCache := e.wakerCache.erase id }, .draining⟩
  | suspended {e : Executor} {id : TaskId} :
      Step ⟨e, .polling id⟩ (.poll .pending) (.suspended id) ⟨e, .draining⟩

lemma step_cases {s s' : Running} {a : Action} {o : Event}
    (h : machine.step s a = .ok (o, s')) : Step s a o s' := by
  obtain ⟨e, p⟩ := s
  cases a with
  | spawn id =>
      cases p with
      | outside =>
          obtain ⟨e₁, hspawn, heq⟩ := map_eq_ok.mp h
          obtain ⟨rfl, rfl⟩ := Prod.mk.inj heq
          obtain ⟨hid, -, rfl⟩ := Executor.spawn_eq_ok.mp hspawn
          exact .spawned hid
      | draining => exact absurd h (by simp [machine, step])
      | polling id' => exact absurd h (by simp [machine, step])
  | wake id =>
      obtain ⟨e₁, hpush, heq⟩ := map_eq_ok.mp h
      obtain ⟨rfl, rfl⟩ := Prod.mk.inj heq
      obtain ⟨-, rfl⟩ := Executor.push_eq_ok.mp hpush
      exact .woken
  | enter =>
      cases p with
      | outside =>
          simp only [machine, step, Except.ok.injEq, Prod.mk.injEq] at h
          obtain ⟨rfl, rfl⟩ := h
          exact .entered
      | draining => exact absurd h (by simp [machine, step])
      | polling id' => exact absurd h (by simp [machine, step])
  | pop =>
      cases p with
      | outside => exact absurd h (by simp [machine, step])
      | draining =>
          rcases hq : e.taskQueue with _ | ⟨id, q⟩
          · simp only [machine, step, Executor.popReady, hq, Except.ok.injEq, Prod.mk.injEq] at h
            obtain ⟨rfl, rfl⟩ := h
            exact .returned hq
          · by_cases hid : id ∈ e.tasks
            · simp only [machine, step, Executor.popReady, hq, if_pos hid, Except.ok.injEq,
                Prod.mk.injEq] at h
              obtain ⟨rfl, rfl⟩ := h
              exact .polled hq hid
            · simp only [machine, step, Executor.popReady, hq, if_neg hid, Except.ok.injEq,
                Prod.mk.injEq] at h
              obtain ⟨rfl, rfl⟩ := h
              exact .skipped hq hid
      | polling id' => exact absurd h (by simp [machine, step])
  | poll result =>
      cases p with
      | outside => exact absurd h (by simp [machine, step])
      | draining => exact absurd h (by simp [machine, step])
      | polling id =>
          cases result with
          | ready =>
              simp only [machine, step, Executor.complete, Except.ok.injEq, Prod.mk.injEq] at h
              obtain ⟨rfl, rfl⟩ := h
              exact .finished
          | pending =>
              simp only [machine, step, Executor.complete, Except.ok.injEq, Prod.mk.injEq] at h
              obtain ⟨rfl, rfl⟩ := h
              exact .suspended

end Running

/-! ### No poll after `Ready` -/

namespace Event

/-- The id of a spawned task. -/
def spawnedId : Event → Option TaskId
  | .spawned id => some id
  | _ => none

/-- The id taken from the queue. -/
def poppedId : Event → Option TaskId
  | .skipped id => some id
  | .polled id => some id
  | _ => none

end Event

/-- Every task was spawned under an id of its own. -/
def FreshIds (events : List Event) : Prop := (events.filterMap Event.spawnedId).Nodup

/-- No task is polled after its poll returned `Ready`. -/
def NoPollAfterReady (events : List Event) : Prop :=
  events.Pairwise fun a b => ∀ id, a = .finished id → b ≠ .polled id

lemma NoPollAfterReady.concat {events : List Event} {o : Event} (h : NoPollAfterReady events)
    (ho : ∀ id, .finished id ∈ events → o ≠ .polled id) : NoPollAfterReady (events ++ [o]) := by
  refine List.pairwise_append.mpr ⟨h, List.pairwise_singleton _ _, ?_⟩
  intro a ha b hb id hid
  rw [List.mem_singleton.mp hb]
  exact ho id (hid ▸ ha)

lemma FreshIds.of_concat {events : List Event} {o : Event} (h : FreshIds (events ++ [o])) :
    FreshIds events ∧ ∀ id, o = .spawned id → .spawned id ∉ events := by
  rw [FreshIds, List.filterMap_append] at h
  refine ⟨h.of_append_left, ?_⟩
  rintro id rfl hmem
  have hid : id ∈ events.filterMap Event.spawnedId := List.mem_filterMap.mpr ⟨_, hmem, rfl⟩
  exact List.disjoint_of_nodup_append h hid (by simp [Event.spawnedId])

namespace Running

/-- What ties the state to the events so far: a task that is there was spawned, a task that has
finished was spawned and is not there, and the task being polled is there. -/
structure Recorded (events : List Event) (s : Running) : Prop where
  spawned_of_mem : ∀ id ∈ s.exec.tasks, .spawned id ∈ events
  of_finished : ∀ id, .finished id ∈ events → .spawned id ∈ events ∧ id ∉ s.exec.tasks
  mem_of_polling : ∀ id, s.phase = .polling id → id ∈ s.exec.tasks
  ordered : NoPollAfterReady events

/-- A step that neither polls, spawns nor finishes a task, and keeps the live tasks, keeps the
record. -/
lemma Recorded.frame {events : List Event} {s s' : Running} {o : Event} (h : Recorded events s)
    (htasks : s'.exec.tasks = s.exec.tasks)
    (hphase : ∀ id, s'.phase = .polling id → id ∈ s.exec.tasks)
    (hfin : ∀ id, o ≠ .finished id)
    (hpolled : ∀ id, o = .polled id → id ∈ s.exec.tasks) : Recorded (events ++ [o]) s' where
  spawned_of_mem id hid := List.mem_append_left _ (h.spawned_of_mem id (htasks ▸ hid))
  of_finished id hid := by
    rcases List.mem_append.mp hid with hid | hid
    · exact ⟨List.mem_append_left _ (h.of_finished id hid).1, htasks ▸ (h.of_finished id hid).2⟩
    · exact absurd (List.mem_singleton.mp hid).symm (hfin id)
  mem_of_polling id hid := htasks ▸ hphase id hid
  ordered := by
    refine NoPollAfterReady.concat h.ordered fun id hid ho => ?_
    exact (h.of_finished id hid).2 (hpolled id ho)

lemma Recorded.step {events : List Event} {s s' : Running} {a : Action} {o : Event}
    (h : Recorded events s) (hstep : Step s a o s') (hfresh : FreshIds (events ++ [o])) :
    Recorded (events ++ [o]) s' := by
  cases hstep with
  | @spawned e id hid =>
      have hnew := (FreshIds.of_concat hfresh).2 id rfl
      refine ⟨?_, ?_, by simp, NoPollAfterReady.concat h.ordered (by simp)⟩
      · intro id' hid'
        rcases Finset.mem_insert.mp hid' with rfl | hid'
        · simp
        · exact List.mem_append_left _ (h.spawned_of_mem id' hid')
      · intro id' hid'
        obtain ⟨hspawned, hgone⟩ := h.of_finished id' (by simpa using hid')
        have hne : id' ≠ id := fun heq => hnew (heq ▸ hspawned)
        refine ⟨List.mem_append_left _ hspawned, ?_⟩
        simpa [hne] using hgone
  | woken => exact h.frame rfl h.mem_of_polling (by simp) (by simp)
  | entered => exact h.frame rfl (by simp) (by simp) (by simp)
  | returned hq => exact h.frame rfl (by simp) (by simp) (by simp)
  | skipped hq hid => exact h.frame rfl (by simp) (by simp) (by simp)
  | polled hq hid => exact h.frame rfl (by simpa using hid) (by simp) (by simpa using hid)
  | @finished e id =>
      refine ⟨?_, ?_, by simp, NoPollAfterReady.concat h.ordered (by simp)⟩
      · intro id' hid'
        exact List.mem_append_left _ (h.spawned_of_mem id' (Finset.mem_of_mem_erase hid'))
      · intro id' hid'
        rcases List.mem_append.mp hid' with hid' | hid'
        · obtain ⟨hspawned, hgone⟩ := h.of_finished id' hid'
          exact ⟨List.mem_append_left _ hspawned, fun hmem => hgone (Finset.mem_of_mem_erase hmem)⟩
        · obtain rfl : id' = id := by simpa using hid'
          exact ⟨List.mem_append_left _ (h.spawned_of_mem _ (h.mem_of_polling _ rfl)), by simp⟩
  | suspended => exact h.frame rfl (by simp) (by simp) (by simp)

lemma recorded_of_run {is : List Action} {events : List Event} {s : Running}
    (hrun : machine.run start is = .ok (events, s)) (hfresh : FreshIds events) :
    Recorded events s := by
  refine machine.run_history (J := fun events s => FreshIds events → Recorded events s)
    ?_ ?_ hrun hfresh
  · intro events s i o s₁ h hstep hfresh
    exact (h (FreshIds.of_concat hfresh).1).step (step_cases hstep) hfresh
  · intro _
    exact ⟨by simp [start, Executor.new], by simp, by simp [start], List.Pairwise.nil⟩

/-! ### The waker cache -/

/-- A waker is cached only for a live task, and the task being polled is live. -/
structure CacheOk (s : Running) : Prop where
  cached : s.exec.wakerCache ⊆ s.exec.tasks
  polling : ∀ id, s.phase = .polling id → id ∈ s.exec.tasks

lemma CacheOk.step {s s' : Running} {a : Action} {o : Event} (h : CacheOk s)
    (hstep : Step s a o s') : CacheOk s' := by
  cases hstep with
  | spawned hid => exact ⟨h.cached.trans (Finset.subset_insert _ _), by simp⟩
  | woken => exact ⟨h.cached, h.polling⟩
  | entered => exact ⟨h.cached, by simp⟩
  | returned hq => exact ⟨h.cached, by simp⟩
  | skipped hq hid => exact ⟨h.cached, by simp⟩
  | polled hq hid => exact ⟨Finset.insert_subset hid h.cached, by simpa using hid⟩
  | finished => exact ⟨Finset.erase_subset_erase _ h.cached, by simp⟩
  | suspended => exact ⟨h.cached, by simp⟩

lemma cacheOk_of_run {is : List Action} {events : List Event} {s : Running}
    (hrun : machine.run start is = .ok (events, s)) : CacheOk s := by
  refine machine.run_history (J := fun _ s => CacheOk s) ?_ ?_ hrun
  · intro events s i o s₁ h hstep
    exact h.step (step_cases hstep)
  · exact ⟨by simp [start, Executor.new], by simp [start]⟩

/-! ### Every queued wake is served -/

/-- The entry `id` behind `q₁` in the queue of `t` is taken in the run over `is` by a pop that
comes before `run_ready_tasks` returns, exactly the entries of `q₁` having been taken before; and
if the task is live at that pop, the pop begins a poll of it. -/
def Served (t : Running) (is : List Action) (q₁ : List TaskId) (id : TaskId) : Prop :=
  ∃ before after events u event u', is = before ++ .pop :: after ∧
    machine.run t before = .ok (events, u) ∧ .returned ∉ events ∧
    events.filterMap Event.poppedId = q₁ ∧
    machine.step u .pop = .ok (event, u') ∧ event.poppedId = some id ∧
    (id ∈ u.exec.tasks → event = .polled id)

/-- What happens before does not matter for an entry that stays in the queue. -/
lemma Served.cons {t t₁ : Running} {a : Action} {o : Event} {is : List Action}
    {q₁ : List TaskId} {id : TaskId} (h : Served t₁ is q₁ id)
    (hstep : machine.step t a = .ok (o, t₁)) (ho : o ≠ .returned) :
    Served t (a :: is) (o.poppedId.toList ++ q₁) id := by
  obtain ⟨before, after, events, u, event, u', rfl, hrun, hret, rfl, hpop, hid, hlive⟩ := h
  refine ⟨a :: before, after, o :: events, u, event, u', rfl, ?_, ?_, ?_, hpop, hid, hlive⟩
  · rw [machine.run_cons_of_step hstep, hrun]
  · simpa [ho.symm] using hret
  · cases ho : o.poppedId with
    | none => simp [ho]
    | some id' => simp [ho]

lemma served_of_returned {is : List Action} {t s : Running} {events : List Event}
    {q₁ q₂ : List TaskId} {id : TaskId} (hrun : machine.run t is = .ok (events, s))
    (hret : .returned ∈ events) (hq : t.exec.taskQueue = q₁ ++ id :: q₂) : Served t is q₁ id := by
  -- Along the run entries leave at the front and come in at the back.
  induction is generalizing t events q₁ q₂ with
  | nil =>
      obtain ⟨rfl, rfl⟩ : [] = events ∧ t = s := by simpa [Machine.run] using hrun
      simp at hret
  | cons a is ih =>
      obtain ⟨o, t₁, os, hstep, hrest, rfl⟩ := machine.run_cons_eq_ok.mp hrun
      have later : ∀ q₁' q₂', o ≠ .returned → t₁.exec.taskQueue = q₁' ++ id :: q₂' →
          Served t (a :: is) (o.poppedId.toList ++ q₁') id := by
        intro q₁' q₂' ho hq'
        have hret' : .returned ∈ os := by simpa [ho.symm] using hret
        exact (ih hrest hret' hq').cons hstep ho
      cases step_cases hstep with
      | @spawned e id' hid =>
          have hq' : e.taskQueue = q₁ ++ id :: q₂ := hq
          exact later q₁ (q₂ ++ [id']) (by simp) (by simp [hq'])
      | @woken e p id' =>
          have hq' : e.taskQueue = q₁ ++ id :: q₂ := hq
          exact later q₁ (q₂ ++ [id']) (by simp) (by simp [hq'])
      | entered => exact later q₁ q₂ (by simp) hq
      | returned hq' => simp [hq'] at hq
      | skipped hq' hid =>
          rw [hq'] at hq
          cases q₁ with
          | nil =>
              obtain ⟨rfl, rfl⟩ := List.cons.inj hq
              exact ⟨[], is, [], _, _, _, rfl, rfl, by simp, rfl, hstep, rfl,
                fun hlive => absurd hlive hid⟩
          | cons id' q₁' =>
              obtain ⟨rfl, rfl⟩ := List.cons.inj hq
              exact later q₁' q₂ (by simp) rfl
      | polled hq' hid =>
          rw [hq'] at hq
          cases q₁ with
          | nil =>
              obtain ⟨rfl, rfl⟩ := List.cons.inj hq
              exact ⟨[], is, [], _, _, _, rfl, rfl, by simp, rfl, hstep, rfl, fun _ => rfl⟩
          | cons id' q₁' =>
              obtain ⟨rfl, rfl⟩ := List.cons.inj hq
              exact later q₁' q₂ (by simp) rfl
      | finished => exact later q₁ q₂ (by simp) hq
      | suspended => exact later q₁ q₂ (by simp) hq

/-- The executor is safe in every run in which no push fails: no task is polled again after it
returned `Ready`, wakers are cached for live tasks only, and every entry of the ready queue is
taken, and its task polled if it is live then, before `run_ready_tasks` returns. -/
theorem executor_safe {is : List Action} {events : List Event} {s : Running}
    (hrun : machine.run start is = .ok (events, s)) (hfresh : FreshIds events) :
    NoPollAfterReady events ∧ s.exec.wakerCache ⊆ s.exec.tasks ∧
      ∀ is' events' s' q₁ id q₂, machine.run s is' = .ok (events', s') → .returned ∈ events' →
        s.exec.taskQueue = q₁ ++ id :: q₂ → Served s is' q₁ id := by
  refine ⟨(recorded_of_run hrun hfresh).ordered, (cacheOk_of_run hrun).cached, ?_⟩
  intro is' events' s' q₁ id q₂ hrun' hret hq
  exact served_of_returned hrun' hret hq

/-- A task that is woken twice, the second time during its last poll: the entry of the second
wake is taken when the task is gone. -/
theorem executor_safe_stale_wake :
    NoPollAfterReady [.spawned 0, .woken 0, .entered, .polled 0, .woken 0, .suspended 0,
      .polled 0, .finished 0] ∧
    Served ⟨⟨∅, [0], ∅⟩, .draining⟩ [.pop, .pop] [] 0 := by
  have hrun : machine.run start [.spawn 0, .wake 0, .enter, .pop, .wake 0, .poll .pending, .pop,
      .poll .ready] = .ok ([.spawned 0, .woken 0, .entered, .polled 0, .woken 0, .suspended 0,
      .polled 0, .finished 0], ⟨⟨∅, [0], ∅⟩, .draining⟩) := rfl
  have hfresh : FreshIds [.spawned 0, .woken 0, .entered, .polled 0, .woken 0, .suspended 0,
      .polled 0, .finished 0] := by
    unfold FreshIds
    decide
  have h := executor_safe hrun hfresh
  exact ⟨h.1, h.2.2 [.pop, .pop] [.skipped 0, .returned] ⟨⟨∅, [], ∅⟩, .outside⟩ [] 0 [] rfl
    (by simp) rfl⟩

end Running

end SilOS.Task
