import MapADroid.Lib.Run
import MapADroid.Lib.Totals
import MapADroid.Lib.Trace

/- The queue between the receiver of protos and the MITM data processors.

   `ReceiveProtosEndpoint` puts what it receives into one `asyncio.Queue`, and drops from
   its front what is more than 200 items; `SerializedMitmDataProcessor.run` takes items off
   it, puts back what the database refused for the moment, and reports every item it is
   through with. `MITMReceiver.shutdown` puts one `None` for each processor, and the
   processor that takes it stops without reporting it. `put` never waits, the queue having
   no bound of its own, so only a processor at an item or at the empty queue is interrupted.
   How the processing of an item ends is arbitrary. -/
namespace MapADroid.Mitm
open Lib

variable {δ : Type}

/-- What the task of a processor is at. -/
inductive Processor (δ : Type) where
  | waiting
  | processing (item : δ)
  | stopped
  deriving DecidableEq

/-- The queue with its counter of unfinished tasks, and `_worker_threads`. -/
structure DataQueue (δ : Type) where
  queue : List (Option δ)
  unfinishedTasks : Nat
  workerThreads : List (Processor δ)
  deriving DecidableEq

/-- How `process_data` ends: `retry` where it raises an `IntegrityError`, an `InternalError` or `MitmReceiverRetry`. -/
inductive Outcome where
  | processed
  | failed
  | retry
  deriving DecidableEq

inductive DataAction (δ : Type) where
  | addToQueue (data : δ)
  | shutdown
  /-- The processor takes the first item. -/
  | get (i : Nat)
  | ends (i : Nat) (outcome : Outcome)

/-- `task_done`; `none` where it raises a `ValueError`. -/
def taskDone : Nat → Option Nat
  | 0 => none
  | unfinished + 1 => some unfinished

/-- The `while` loop of `_add_to_queue`. -/
def makeRoom : List (Option δ) → Nat → Option (List (Option δ) × Nat)
  | [], unfinished => some ([], unfinished)
  | item :: rest, unfinished =>
    if 200 < (item :: rest).length then do makeRoom rest (← taskDone unfinished)
    else some (item :: rest, unfinished)

namespace DataQueue

/-- `launch_processors`. -/
def launchProcessors (mitmreceiverDataWorkers : Nat) : DataQueue δ :=
  ⟨[], 0, List.replicate mitmreceiverDataWorkers .waiting⟩

def put (s : DataQueue δ) (item : Option δ) : DataQueue δ :=
  { s with queue := s.queue ++ [item], unfinishedTasks := s.unfinishedTasks + 1 }

/-- `_add_to_queue`. -/
def addToQueue (s : DataQueue δ) (data : δ) : Option (DataQueue δ) := do
  let (queue, unfinishedTasks) ← makeRoom s.queue s.unfinishedTasks
  some (put { s with queue, unfinishedTasks } (some data))

/-- `MITMReceiver.shutdown`, where it is told of as many processors as there are. -/
def shutdown (s : DataQueue δ) : DataQueue δ :=
  s.workerThreads.foldl (fun s _ => s.put none) s

/-- The end of `queue.get()`: the `None` makes the processor leave its loop. -/
def get (s : DataQueue δ) (i : Nat) : Option (DataQueue δ) :=
  match s.workerThreads[i]?, s.queue with
  | some .waiting, none :: rest => some { s with queue := rest, workerThreads := s.workerThreads.set i .stopped }
  | some .waiting, some item :: rest =>
    some { s with queue := rest, workerThreads := s.workerThreads.set i (.processing item) }
  | _, _ => none

/-- The end of `process_data`, and the `task_done` after it. -/
def ends (s : DataQueue δ) (i : Nat) (outcome : Outcome) : Option (DataQueue δ) := do
  match s.workerThreads[i]? with
  | some (.processing item) =>
    let s := if outcome = .retry then s.put (some item) else s
    let unfinishedTasks ← taskDone s.unfinishedTasks
    some { s with unfinishedTasks, workerThreads := s.workerThreads.set i .waiting }
  | _ => none

def step (s : DataQueue δ) : DataAction δ → Option (DataQueue δ)
  | .addToQueue data => s.addToQueue data
  | .shutdown => some s.shutdown
  | .get i => s.get i
  | .ends i outcome => s.ends i outcome

end DataQueue

/-! ## What becomes of the items -/

/-- What happens to an item. -/
inductive Fate where
  | received
  | requeued
  | taken
  | dropped
  | processed
  | failed
  deriving DecidableEq

/-- The item enters the queue. -/
def Fate.enters : Fate → Bool
  | .received | .requeued => true
  | _ => false

/-- The item leaves the queue. -/
def Fate.leaves : Fate → Bool
  | .taken | .dropped => true
  | _ => false

def Outcome.fate : Outcome → Fate
  | .processed => .processed
  | .failed => .failed
  | .retry => .requeued

def fates (s : DataQueue δ) : DataAction δ → List (Fate × Option δ)
  | .addToQueue data =>
    (s.queue.take (s.queue.length - 200)).map (fun item => (.dropped, item)) ++ [(.received, some data)]
  | .shutdown => (List.replicate s.workerThreads.length none).map fun item => (.received, item)
  | .get _ => (s.queue.head?.map fun item => (.taken, item)).toList
  | .ends i outcome =>
    match s.workerThreads[i]? with
    | some (.processing item) => [(outcome.fate, some item)]
    | _ => []

/-! ## The steps -/

theorem makeRoom_eq (queue : List (Option δ)) (unfinished : Nat) (h : queue.length ≤ unfinished) :
    makeRoom queue unfinished = some (queue.drop (queue.length - 200), unfinished - (queue.length - 200)) := by
  induction queue generalizing unfinished with
  | nil => simp [makeRoom]
  | cons item rest ih =>
    rw [List.length_cons] at h
    by_cases hlong : 200 < rest.length + 1
    · obtain ⟨u, rfl⟩ : ∃ u, unfinished = u + 1 := ⟨unfinished - 1, by omega⟩
      have hk : rest.length + 1 - 200 = rest.length - 200 + 1 := by omega
      simp only [makeRoom, List.length_cons, hlong, if_true, taskDone, Option.bind_eq_bind, Option.bind_some,
        ih u (by omega), hk, List.drop_succ_cons, Nat.add_sub_add_right]
    · have hk : rest.length + 1 - 200 = 0 := by omega
      simp only [makeRoom, List.length_cons, hlong, if_false, hk, List.drop_zero, Nat.sub_zero]

/-- What a processor keeps of `item`: the one it is at, or the `None` it stopped at. -/
def holds [DecidableEq δ] (item : Option δ) : Processor δ → Nat
  | .waiting => 0
  | .processing x => if some x = item then 1 else 0
  | .stopped => if none = item then 1 else 0

/-- It took an item it has not reported yet. -/
def busy : Processor δ → Nat
  | .waiting => 0
  | _ => 1

/-- **The changes**: every action drops items from the front, puts some at the back, and sets one processor. -/
inductive DataMove (s : DataQueue δ) : DataAction δ → DataQueue δ → Prop where
  | received (data : δ) (k : Nat) (hk : k = s.queue.length - 200) :
    DataMove s (.addToQueue data)
      ⟨s.queue.drop k ++ [some data], s.unfinishedTasks - k + 1, s.workerThreads⟩
  | signalled : DataMove s .shutdown ⟨s.queue ++ List.replicate s.workerThreads.length none,
      s.unfinishedTasks + s.workerThreads.length, s.workerThreads⟩
  | takes {i : Nat} {item : Option δ} {rest : List (Option δ)} (hi : s.workerThreads[i]? = some .waiting)
    (hqueue : s.queue = item :: rest) :
    DataMove s (.get i) ⟨rest, s.unfinishedTasks, s.workerThreads.set i (item.elim .stopped .processing)⟩
  | done {i : Nat} {item : δ} {outcome : Outcome} (hi : s.workerThreads[i]? = some (.processing item))
    (hne : outcome ≠ .retry) :
    DataMove s (.ends i outcome) ⟨s.queue, s.unfinishedTasks - 1, s.workerThreads.set i .waiting⟩
  | requeued {i : Nat} {item : δ} (hi : s.workerThreads[i]? = some (.processing item)) :
    DataMove s (.ends i .retry) ⟨s.queue ++ [some item], s.unfinishedTasks, s.workerThreads.set i .waiting⟩

theorem foldl_put (l : List (Processor δ)) (s : DataQueue δ) :
    l.foldl (fun s _ => s.put none) s =
      ⟨s.queue ++ List.replicate l.length none, s.unfinishedTasks + l.length, s.workerThreads⟩ := by
  induction l generalizing s with
  | nil => simp
  | cons _ l ih =>
    rw [List.foldl_cons, ih, List.length_cons, List.replicate_succ]
    simp only [DataQueue.put, List.append_assoc, List.singleton_append, DataQueue.mk.injEq, and_true, true_and]
    omega

/-- The counter is never behind what is in the queue and at the processors. -/
def Counted (s : DataQueue δ) : Prop :=
  s.unfinishedTasks = s.queue.length + total busy s.workerThreads

theorem busy_le_total {l : List (Processor δ)} {i : Nat} {p : Processor δ} (h : l[i]? = some p) :
    busy p ≤ total busy l := by
  have hset := total_set (m := busy) h .waiting
  simp only [busy] at hset ⊢
  omega

theorem DataQueue.step_move {s s' : DataQueue δ} {a : DataAction δ} (hcounted : Counted s) (h : s.step a = some s') :
    DataMove s a s' := by
  cases a with
  | addToQueue data =>
    have hroom := makeRoom_eq s.queue s.unfinishedTasks (by rw [hcounted]; omega)
    rw [DataQueue.step, DataQueue.addToQueue, hroom, Option.bind_eq_bind, Option.bind_some, Option.some.injEq] at h
    rw [← h]
    generalize hk : s.queue.length - 200 = k
    exact .received data k hk.symm
  | shutdown =>
    rw [DataQueue.step, DataQueue.shutdown, foldl_put, Option.some.injEq] at h
    subst h
    exact .signalled
  | get i =>
    rw [DataQueue.step, DataQueue.get] at h
    split at h
    · next hi hqueue =>
      cases h
      exact @DataMove.takes _ s i none _ hi hqueue
    · next item rest hi hqueue =>
      cases h
      exact @DataMove.takes _ s i (some item) _ hi hqueue
    · cases h
  | ends i outcome =>
    rw [DataQueue.step, DataQueue.ends] at h
    split at h
    · next item hi =>
      obtain ⟨u, hu, h⟩ := Option.bind_eq_some_iff.mp h
      cases h
      by_cases hretry : outcome = .retry
      · subst hretry
        simp only [if_true, DataQueue.put, taskDone, Option.some.injEq] at hu ⊢
        subst hu
        exact .requeued hi
      · simp only [if_neg hretry] at hu ⊢
        obtain ⟨n, hn⟩ : ∃ n, s.unfinishedTasks = n + 1 := by
          cases hs : s.unfinishedTasks with
          | zero =>
            rw [hs] at hu
            cases hu
          | succ n => exact ⟨n, rfl⟩
        rw [hn, taskDone, Option.some.injEq] at hu
        have hpred : u = s.unfinishedTasks - 1 := by omega
        rw [hpred]
        exact .done hi hretry
    · cases h

theorem DataMove.counted {s s' : DataQueue δ} {a : DataAction δ} (h : DataMove s a s') (hs : Counted s) : Counted s' := by
  unfold Counted at hs ⊢
  cases h with
  | received data k hk =>
    show s.unfinishedTasks - k + 1 = (s.queue.drop k ++ [some data]).length + total busy s.workerThreads
    rw [List.length_append, List.length_drop, List.length_singleton]
    omega
  | signalled =>
    show s.unfinishedTasks + s.workerThreads.length = (s.queue ++ _).length + total busy s.workerThreads
    rw [List.length_append, List.length_replicate]
    omega
  | @takes i item rest hi hqueue =>
    have hset := total_set (m := busy) hi (item.elim .stopped .processing)
    have hbusy : busy (item.elim .stopped .processing : Processor δ) = 1 := by cases item <;> rfl
    rw [hqueue, List.length_cons] at hs
    rw [hbusy, busy] at hset
    show s.unfinishedTasks = rest.length + total busy (s.workerThreads.set i _)
    omega
  | @done i item outcome hi hne =>
    have hset := total_set (m := busy) hi .waiting
    simp only [busy] at hset
    show s.unfinishedTasks - 1 = s.queue.length + total busy (s.workerThreads.set i _)
    omega
  | @requeued i item hi =>
    have hset := total_set (m := busy) hi .waiting
    simp only [busy] at hset
    show s.unfinishedTasks = (s.queue ++ [some item]).length + total busy (s.workerThreads.set i _)
    rw [List.length_append, List.length_singleton]
    omega

/-- **No `task_done` raises** a `ValueError`, whether a proto is received or a processor is through with an item. -/
theorem Counted.never_raises {s : DataQueue δ} (hs : Counted s) :
    (∀ data, (s.step (.addToQueue data)).isSome) ∧
      ∀ i item outcome, s.workerThreads[i]? = some (.processing item) → (s.step (.ends i outcome)).isSome := by
  constructor
  · intro data
    rw [DataQueue.step, DataQueue.addToQueue, makeRoom_eq s.queue s.unfinishedTasks (by rw [hs]; omega)]
    rfl
  · intro i item outcome hi
    have hbusy : 1 ≤ total busy s.workerThreads := busy_le_total hi
    rw [DataQueue.step, DataQueue.ends, hi]
    obtain ⟨u, hu⟩ : ∃ u, s.unfinishedTasks = u + 1 := ⟨s.unfinishedTasks - 1, by rw [hs]; omega⟩
    by_cases hretry : outcome = .retry
    · simp only [if_pos hretry, DataQueue.put, taskDone]
      rfl
    · simp only [if_neg hretry, hu, taskDone]
      rfl

/-! ## Runs -/

/-- The items that some of the fates befell, in order. -/
def befell (p : Fate → Bool) (es : List (Fate × Option δ)) : List (Option δ) := (es.filter fun e => p e.1).map Prod.snd

theorem befell_append (p : Fate → Bool) (es fs : List (Fate × Option δ)) :
    befell p (es ++ fs) = befell p es ++ befell p fs := by
  rw [befell, List.filter_append, List.map_append]
  rfl

theorem befell_map {p : Fate → Bool} {f : Fate} (h : p f = true) (l : List (Option δ)) :
    befell p (l.map fun item => (f, item)) = l := by
  simp [befell, List.filter_map, h, Function.comp_def]

theorem befell_map_not {p : Fate → Bool} {f : Fate} (h : p f = false) (l : List (Option δ)) :
    befell p (l.map fun item => (f, item)) = [] := by
  simp [befell, List.filter_map, h, Function.comp_def]

theorem befell_single {p : Fate → Bool} {f : Fate} (h : p f = true) (item : Option δ) : befell p [(f, item)] = [item] :=
  befell_map h [item]

theorem befell_single_not {p : Fate → Bool} {f : Fate} (h : p f = false) (item : Option δ) : befell p [(f, item)] = [] :=
  befell_map_not h [item]

/-- **The queue is first in, first out**: what entered it has left it or is in it, in that order. -/
theorem DataMove.order {s s' : DataQueue δ} {es : List (Fate × Option δ)} {a : DataAction δ} (hmove : DataMove s a s')
    (h : befell Fate.enters es = befell Fate.leaves es ++ s.queue) :
    befell Fate.enters (es ++ fates s a) = befell Fate.leaves (es ++ fates s a) ++ s'.queue := by
  cases hmove with
  | received data k hk =>
    have hsplit := List.take_append_drop k s.queue
    rw [fates, ← hk, befell_append, befell_append, befell_append, befell_append, befell_map_not rfl, befell_map rfl,
      befell_single rfl, befell_single_not rfl, h]
    calc befell Fate.leaves es ++ s.queue ++ ([] ++ [some data])
        = befell Fate.leaves es ++ (s.queue.take k ++ s.queue.drop k) ++ [some data] := by rw [hsplit, List.nil_append]
      _ = befell Fate.leaves es ++ (s.queue.take k ++ []) ++ (s.queue.drop k ++ [some data]) := by
        rw [List.append_nil, List.append_assoc, List.append_assoc, List.append_assoc]
  | signalled =>
    rw [fates, befell_append, befell_append, befell_map rfl, befell_map_not rfl, h, List.append_nil, List.append_assoc]
  | @takes i item rest hi hqueue =>
    have hfates : fates s (.get i) = [(.taken, item)] := by simp [fates, hqueue]
    rw [hfates, befell_append, befell_append, befell_single_not rfl, befell_single rfl, h, hqueue, List.append_nil,
      List.append_assoc, List.singleton_append]
  | @done i item outcome hi hne =>
    have hfates : fates s (.ends i outcome) = [(outcome.fate, some item)] := by simp [fates, hi]
    have hstays : outcome.fate.enters = false ∧ outcome.fate.leaves = false := by
      cases outcome with
      | retry => exact absurd rfl hne
      | processed => exact ⟨rfl, rfl⟩
      | failed => exact ⟨rfl, rfl⟩
    rw [hfates, befell_append, befell_append, befell_single_not hstays.1, befell_single_not hstays.2, h,
      List.append_nil, List.append_nil]
  | @requeued i item hi =>
    have hfates : fates s (.ends i .retry) = [(.requeued, some item)] := by simp [fates, hi, Outcome.fate]
    rw [hfates, befell_append, befell_append, befell_single rfl, befell_single_not rfl, h, List.append_nil,
      List.append_assoc]

section
variable [DecidableEq δ]

/-- What the items of the queue, the processors and the record have in common. -/
def Accounted (s : DataQueue δ) (es : List (Fate × Option δ)) : Prop :=
  ∀ item, (history .received es).count item = s.queue.count item + total (holds item) s.workerThreads +
    ((history .dropped es).count item + (history .processed es).count item + (history .failed es).count item)

theorem holds_elim (item x : Option δ) :
    holds item (x.elim .stopped .processing) = if x = item then 1 else 0 := by
  cases x <;> rfl

theorem Accounted.step {s s' : DataQueue δ} {es : List (Fate × Option δ)} {a : DataAction δ} (h : Accounted s es)
    (hmove : DataMove s a s') : Accounted s' (es ++ fates s a) := by
  intro x
  have hold := h x
  cases hmove with
  | received data k hk =>
    have hcount : s.queue.count x = (s.queue.take k).count x + (s.queue.drop k).count x := by
      rw [← List.count_append, List.take_append_drop]
    simp only [fates, ← hk, history_append, history_map, history_single, List.count_append, reduceCtorEq, if_true,
      if_false, List.count_nil]
    omega
  | signalled =>
    simp only [fates, history_append, history_map, List.count_append, reduceCtorEq, if_true, if_false, List.count_nil]
    omega
  | @takes i item rest hi hqueue =>
    have hfates : fates s (.get i) = [(.taken, item)] := by simp [fates, hqueue]
    have hset := total_set (m := holds x) hi (item.elim .stopped .processing)
    rw [holds_elim] at hset
    rw [hqueue, List.count_cons] at hold
    simp only [hfates, history_append, history_single, List.count_append, reduceCtorEq, if_false, List.count_nil,
      beq_iff_eq, holds] at hold hset ⊢
    omega
  | @done i item outcome hi hne =>
    have hfates : fates s (.ends i outcome) = [(outcome.fate, some item)] := by simp [fates, hi]
    have hset := total_set (m := holds x) hi .waiting
    simp only [holds] at hset
    rw [hfates]
    cases outcome with
    | retry => exact absurd rfl hne
    | processed =>
      simp only [history_append, history_single, List.count_append, Outcome.fate, reduceCtorEq, if_true, if_false,
        List.count_nil, List.count_singleton, beq_iff_eq]
      omega
    | failed =>
      simp only [history_append, history_single, List.count_append, Outcome.fate, reduceCtorEq, if_true, if_false,
        List.count_nil, List.count_singleton, beq_iff_eq]
      omega
  | @requeued i item hi =>
    have hfates : fates s (.ends i .retry) = [(.requeued, some item)] := by simp [fates, hi, Outcome.fate]
    have hset := total_set (m := holds x) hi .waiting
    rw [hfates]
    simp only [history_append, history_single, List.count_append, List.count_singleton, holds, reduceCtorEq, if_false,
      List.count_nil, beq_iff_eq] at hset ⊢
    omega

end

/-- The queue with a record of what befell its items. -/
abbrev recorded : DataQueue δ × List (Fate × Option δ) → DataAction δ → Option (DataQueue δ × List (Fate × Option δ)) :=
  recording DataQueue.step fates

/-- `mitmreceiver_data_workers` processors, and no item yet. -/
abbrev launched (n : Nat) : DataQueue δ × List (Fate × Option δ) := (.launchProcessors n, [])

theorem total_launchProcessors {m : Processor δ → Nat} (hm : m .waiting = 0) (n : Nat) :
    total m (DataQueue.launchProcessors n : DataQueue δ).workerThreads = 0 :=
  total_eq_zero fun p hp => by rw [(List.mem_replicate.mp hp).2, hm]

variable {n : Nat} {l : List (DataAction δ)} {p : DataQueue δ × List (Fate × Option δ)}

/-- What every action keeps holds after every run. -/
theorem run_moves {I : DataQueue δ → List (Fate × Option δ) → Prop} (h : Run recorded Any (launched n) l p)
    (h0 : I (.launchProcessors n) [])
    (hstep : ∀ s es a s', I s es → DataMove s a s' → I s' (es ++ fates s a)) : Counted p.1 ∧ I p.1 p.2 := by
  refine h.invariant (I := fun p => Counted p.1 ∧ I p.1 p.2) ⟨?_, h0⟩ ?_
  · exact (total_launchProcessors (m := busy) rfl n).symm.trans (Nat.zero_add _).symm
  · rintro ⟨s, es⟩ a ⟨s', es'⟩ ⟨hcounted, hs⟩ _ ha
    obtain ⟨hmove, hes⟩ := recording_some ha
    have hmove := DataQueue.step_move hcounted hmove
    exact ⟨hmove.counted hcounted, by rw [hes]; exact hstep s es a s' hs hmove⟩

section
variable [DecidableEq δ]

/-- **No item is lost or counted twice**: in every run, whatever is received, however its processing ends and whenever
    the processors get to it, each item is as often received as it is in the queue, at a processor, dropped for being
    too far behind, processed or failed. What is put back stays among them. The counter of unfinished tasks is what is
    in the queue and what was taken and not reported, so that no report is one too many. -/
theorem data_accounted (h : Run recorded Any (launched n) l p) :
    (∀ item, (history .received p.2).count item = p.1.queue.count item + total (holds item) p.1.workerThreads +
      ((history .dropped p.2).count item + (history .processed p.2).count item + (history .failed p.2).count item)) ∧
    p.1.unfinishedTasks = p.1.queue.length + total busy p.1.workerThreads ∧
    (∀ data, (p.1.step (.addToQueue data)).isSome) ∧
    ∀ i item outcome, p.1.workerThreads[i]? = some (.processing item) → (p.1.step (.ends i outcome)).isSome := by
  have hstart : Accounted (.launchProcessors n) ([] : List (Fate × Option δ)) := by
    intro item
    rw [total_launchProcessors rfl]
    rfl
  obtain ⟨hcounted, haccounted⟩ := run_moves h hstart fun s es a s' hs hmove => hs.step hmove
  exact ⟨haccounted, hcounted, hcounted.never_raises⟩

/-- An item is put back, one is dropped, and a processor stops. -/
def busyDay : List (DataAction Nat) :=
  (List.range 202).map .addToQueue ++ [.get 0, .get 1, .ends 1 .retry, .ends 0 .processed, .shutdown, .get 1, .ends 1 .failed]

theorem data_accounted_busyDay :
    let p := after recorded Any (launched 2) busyDay
    (∀ item, (history .received p.2).count item = p.1.queue.count item + total (holds item) p.1.workerThreads +
      ((history .dropped p.2).count item + (history .processed p.2).count item + (history .failed p.2).count item)) ∧
    p.1.unfinishedTasks = p.1.queue.length + total busy p.1.workerThreads ∧
    (∀ data, (p.1.step (.addToQueue data)).isSome) ∧
    ∀ i item outcome, p.1.workerThreads[i]? = some (.processing item) → (p.1.step (.ends i outcome)).isSome :=
  data_accounted (n := 2) (Run.of_after (l := busyDay) (by decide +kernel))

/-! ## The backlog -/

/-- It is at an item. -/
def atItem : Processor δ → Nat
  | .processing _ => 1
  | _ => 0

omit [DecidableEq δ] in
theorem atItem_le_one (p : Processor δ) : atItem p ≤ 1 := by
  cases p with
  | processing item => exact Nat.le_refl 1
  | waiting => exact Nat.zero_le 1
  | stopped => exact Nat.zero_le 1

/-- Of `n` processors; the signals to stop that wait come on top. -/
structure Bounded (n : Nat) (s : DataQueue δ) : Prop where
  threads : s.workerThreads.length = n
  backlog : s.queue.length + total atItem s.workerThreads ≤ 201 + n + s.queue.count none

theorem Bounded.step {s s' : DataQueue δ} {a : DataAction δ} (h : Bounded n s) (hmove : DataMove s a s') :
    Bounded n s' := by
  obtain ⟨hthreads, hbacklog⟩ := h
  cases hmove with
  | received data k hk =>
    refine ⟨hthreads, ?_⟩
    have hbusy : total atItem s.workerThreads ≤ s.workerThreads.length :=
      total_le_length atItem_le_one _
    show (s.queue.drop k ++ [some data]).length + total atItem s.workerThreads ≤ _
    rw [List.length_append, List.length_drop, List.length_singleton]
    omega
  | signalled =>
    refine ⟨hthreads, ?_⟩
    show (s.queue ++ List.replicate s.workerThreads.length none).length + total atItem s.workerThreads ≤
      201 + n + (s.queue ++ List.replicate s.workerThreads.length none).count none
    rw [List.count_append, List.count_replicate_self, List.length_append, List.length_replicate]
    omega
  | @takes i item rest hi hqueue =>
    refine ⟨by rw [List.length_set]; exact hthreads, ?_⟩
    have hset := total_set (m := atItem) hi (item.elim .stopped .processing)
    have hwaiting : atItem (.waiting : Processor δ) = 0 := rfl
    show rest.length + total atItem (s.workerThreads.set i _) ≤ 201 + n + rest.count none
    cases item with
    | none =>
      have hat : atItem ((none : Option δ).elim .stopped .processing) = 0 := rfl
      rw [hqueue, List.length_cons, List.count_cons_self] at hbacklog
      omega
    | some data =>
      have hat : atItem ((some data).elim .stopped .processing) = 1 := rfl
      rw [hqueue, List.length_cons, List.count_cons_of_ne (Option.some_ne_none data)] at hbacklog
      omega
  | @done i item outcome hi hne =>
    refine ⟨by rw [List.length_set]; exact hthreads, ?_⟩
    have hset := total_set (m := atItem) hi .waiting
    simp only [atItem] at hset
    show s.queue.length + total atItem (s.workerThreads.set i _) ≤ 201 + n + s.queue.count none
    omega
  | @requeued i item hi =>
    refine ⟨by rw [List.length_set]; exact hthreads, ?_⟩
    have hset := total_set (m := atItem) hi .waiting
    simp only [atItem] at hset
    show (s.queue ++ [some item]).length + total atItem (s.workerThreads.set i _) ≤
      201 + n + (s.queue ++ [some item]).count none
    rw [List.count_append, List.length_append, List.length_singleton]
    omega

/-- **The backlog is bounded, and served in order**: in every run no more than 201 items and one for each processor wait
    or are being processed, whatever was put back, but for the signals to stop that wait. The items leave the queue, to
    a processor or dropped, in the order in which they entered it or entered it again. -/
theorem backlog_bounded (h : Run recorded Any (launched n) l p) :
    p.1.queue.length + total atItem p.1.workerThreads ≤ 201 + n + p.1.queue.count none ∧
    befell Fate.enters p.2 = befell Fate.leaves p.2 ++ p.1.queue := by
  have hstart : Bounded n (.launchProcessors n : DataQueue δ) := by
    refine ⟨List.length_replicate, ?_⟩
    rw [total_launchProcessors rfl]
    exact Nat.zero_le _
  obtain ⟨_, hbounded⟩ := run_moves (I := fun s _ => Bounded n s) h hstart fun s es a s' hs hmove => hs.step hmove
  obtain ⟨_, horder⟩ := run_moves (I := fun s es => befell Fate.enters es = befell Fate.leaves es ++ s.queue) h rfl
    fun s es a s' hs hmove => hmove.order hs
  exact ⟨hbounded.backlog, horder⟩

theorem backlog_bounded_busyDay :
    let p := after recorded Any (launched 2) busyDay
    p.1.queue.length + total atItem p.1.workerThreads ≤ 201 + 2 + p.1.queue.count none ∧
    befell Fate.enters p.2 = befell Fate.leaves p.2 ++ p.1.queue :=
  backlog_bounded (n := 2) (Run.of_after (l := busyDay) (by decide +kernel))

end

end MapADroid.Mitm
