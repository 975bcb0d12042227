import Mathlib.Algebra.Order.Group.Int
import MapADroid.Webhook.Worker

/- The passes of the webhook worker, one after another.

   Before a pass reads the changes since the last check, it takes the time for the next
   one: the second it starts in, less six intervals. It sets it even if the reading failed.
   So a change that a failed pass should have had is in the next one only if that failed
   pass started no later than six intervals after the change (`change_announced_iff`). The
   clock counts microseconds here, the database whole seconds. -/
namespace MapADroid.Webhook
open Stats (MonSeenTypes)

variable {L C S D : Type}

/-- One pass of the loop: the time until the mons are read, and from there to the sleep;
what the queries before find; and whether reading the mons raises. -/
structure Pass (D : Type) where
  untilMons : Nat
  afterMons : Nat
  changedSince : WebhookType → Int → Option (List D)
  monsRaise : Bool

/-- `__last_check`, and the clock at the start of a pass. -/
structure WorkerState where
  lastCheck : Int
  clock : Int
  deriving DecidableEq, Repr

/-- What a pass that starts at `clock` reads, the table being `content t` at `t`. -/
def Pass.reads (p : Pass D) (content : Int → PokemonTable L C S) (clock : Int) : Reads L C S D where
  changedSince := p.changedSince
  mons := if p.monsRaise then none else some (content (clock + p.untilMons)).rows

/-- Some reading of a pass raises. -/
def Fails (subs : Subscriptions L) (lastCheck : Int) (reads : Reads L C S D) : Prop :=
  ∃ type ∈ fetchOrder, subscribed subs type ∧ fetch subs lastCheck reads type = none

/-- The state the next pass starts in. -/
def nextPass (interval : Int) (s : WorkerState) (p : Pass D) : WorkerState where
  lastCheck := s.clock / 1000000 - 6 * interval
  clock := s.clock + p.untilMons + p.afterMons + 1000000 * interval

/-- `__run_worker`: the payload of each pass. -/
def runWorker (subs : Subscriptions L) (interval : Int) (content : Int → PokemonTable L C S) :
    WorkerState → List (Pass D) → List (List (Message L C S D))
  | _, [] => []
  | s, p :: ps => createPayload subs s.lastCheck (p.reads content s.clock) ::
      runWorker subs interval content (nextPass interval s p) ps

/-- The state after the passes. -/
def afterPasses (interval : Int) (s : WorkerState) (ps : List (Pass D)) : WorkerState :=
  ps.foldl (nextPass interval) s

variable {subs : Subscriptions L} {interval : Int} {content : Int → PokemonTable L C S}
  {s : WorkerState} {ps qs : List (Pass D)} {p q : Pass D}

/-- The payload of a pass is read in the state after those before it. -/
theorem runWorker_getElem? : (runWorker subs interval content s (ps ++ p :: qs))[ps.length]? =
    some (createPayload subs (afterPasses interval s ps).lastCheck
      (p.reads content (afterPasses interval s ps).clock)) := by
  induction ps generalizing s with
  | nil => rfl
  | cons q ps ih =>
    rw [List.cons_append, runWorker, List.length_cons, List.getElem?_cons_succ, ih, afterPasses, afterPasses,
      List.foldl_cons]

/-- The last check is set from the start of the pass before. -/
theorem lastCheck_concat : (afterPasses interval s (ps ++ [q])).lastCheck =
    (afterPasses interval s ps).clock / 1000000 - 6 * interval := by
  rw [afterPasses, List.foldl_append]
  rfl

/-- A pass that does not fail gets to the mons, and reads them. -/
theorem reached_of_not_fails {lastCheck : Int} {reads : Reads L C S D} (h : ¬ Fails subs lastCheck reads)
    (type : WebhookType) : Reached subs lastCheck reads type := by
  intro before hbefore hsub
  rw [Option.isSome_iff_ne_none]
  intro hnone
  exact h ⟨before, (List.takeWhile_sublist _).subset hbefore, hsub, hnone⟩

/-- A mon changed since the last check that is in the table when a pass reads it. -/
theorem mon_announced_iff {lastCheck clock : Int} {row : Pokemon L C S}
    (hrow : row ∈ (content (clock + p.untilMons)).rows) (htype : row.seenType ∈ subs.pokemonTypes)
    (hexcluded : subs.isInExcludedArea row.location = false)
    (hok : ¬ Fails subs lastCheck (p.reads content clock)) :
    .mon (.of row) ∈ createPayload subs lastCheck (p.reads content clock) ↔
      lastCheck ≤ row.lastModified := by
  have hmons : (p.reads content clock).mons = some (content (clock + p.untilMons)).rows := by
    cases hraise : p.monsRaise with
    | false => simp [Pass.reads, hraise]
    | true =>
      refine absurd ⟨.pokemon, by decide, ?_, ?_⟩ hok
      · simpa [subscribed] using List.ne_nil_of_mem htype
      · simp [fetch, Pass.reads, hraise]
  rw [mon_mem_createPayload hmons (reached_of_not_fails hok _)]
  constructor
  · intro h
    obtain ⟨mon, hmon, hsince, _, _, heq⟩ := h
    have hid : mon.encounterId = row.encounterId := congrArg MonPayload.encounterId heq
    rwa [List.inj_on_of_nodup_map (content _).nodup hmon hrow hid] at hsince
  · intro h
    exact ⟨row, hrow, h, htype, hexcluded, rfl⟩

/-- A change that stays as it is from `c` on is in the payload of a pass without exceptions that
starts after `c` exactly if the pass before, if there is one, started in a second no later
than six intervals after the change. -/
theorem change_announced_iff {row : Pokemon L C S} {c : Int} (hinitial : s.lastCheck ≤ row.lastModified)
    (hvisible : ∀ t, c ≤ t → row ∈ (content t).rows) (hstart : c < (afterPasses interval s ps).clock)
    (htype : row.seenType ∈ subs.pokemonTypes) (hexcluded : subs.isInExcludedArea row.location = false)
    (hok : ¬ Fails subs (afterPasses interval s ps).lastCheck
      (p.reads content (afterPasses interval s ps).clock)) :
    (∃ payload ∈ (runWorker subs interval content s (ps ++ p :: qs))[ps.length]?,
        .mon (.of row) ∈ payload) ↔
      ∀ ps' q, ps = ps' ++ [q] →
        (afterPasses interval s ps').clock / 1000000 ≤ row.lastModified + 6 * interval := by
  have hrow : row ∈ (content ((afterPasses interval s ps).clock + p.untilMons)).rows := by
    apply hvisible
    omega
  rw [runWorker_getElem?]
  simp only [Option.mem_some_iff, exists_eq_left', mon_announced_iff hrow htype hexcluded hok]
  rcases List.eq_nil_or_concat' ps with rfl | ⟨ps', q, rfl⟩
  · simp [afterPasses, hinitial]
  · rw [lastCheck_concat]
    constructor
    · intro h ps'' q' heq
      obtain ⟨rfl, _⟩ := List.append_inj' heq rfl
      omega
    · intro h
      have hbefore := h ps' q rfl
      omega

/-- The first pass after a change, the one before it having started earlier, is not too late for it. -/
theorem announced_by_first_pass {row : Pokemon L C S} {c : Int} (hinitial : s.lastCheck ≤ row.lastModified)
    (hvisible : ∀ t, c ≤ t → row ∈ (content t).rows) (hsoon : c ≤ 1000000 * (row.lastModified + 6 * interval))
    (hbefore : ∀ ps' q, ps = ps' ++ [q] → (afterPasses interval s ps').clock ≤ c)
    (hstart : c < (afterPasses interval s ps).clock)
    (htype : row.seenType ∈ subs.pokemonTypes) (hexcluded : subs.isInExcludedArea row.location = false)
    (hok : ¬ Fails subs (afterPasses interval s ps).lastCheck
      (p.reads content (afterPasses interval s ps).clock)) :
    ∃ payload ∈ (runWorker subs interval content s (ps ++ p :: qs))[ps.length]?, .mon (.of row) ∈ payload := by
  apply (change_announced_iff hinitial hvisible hstart htype hexcluded hok).mpr
  intro ps' q heq
  have hclock := hbefore ps' q heq
  omega

/-! ## A mon that spawned in second 10 -/

def spawned : Pokemon Unit Unit Unit := ⟨1, (), 10, .encounter, true, none, ()⟩

/-- It becomes visible in second 16. -/
def content16 (t : Int) : PokemonTable Unit Unit Unit :=
  if 16000000 ≤ t then ⟨[spawned], by simp⟩ else ⟨[], by simp⟩

def encounters : Subscriptions Unit := ⟨[], [.encounter], fun _ => false⟩

/-- A pass that reads the mons at once, or fails to. -/
def pass (monsRaise : Bool) : Pass Unit := ⟨0, 0, fun _ _ => some [], monsRaise⟩

theorem spawned_visible (t : Int) (h : 16000000 ≤ t) : spawned ∈ (content16 t).rows := by
  rw [content16, if_pos h]
  exact List.mem_singleton_self spawned

theorem pass_not_fails (lastCheck clock : Int) :
    ¬ Fails encounters lastCheck ((pass false).reads content16 clock) := by
  intro h
  obtain ⟨type, _, hsub, hnone⟩ := h
  cases type with
  | pokemon => simp [fetch, Pass.reads, pass] at hnone
  | _ => simp [subscribed, encounters] at hsub

/-- The first pass after the mon became visible fails, the next one starts in time. -/
theorem spawned_announced :
    (∃ payload ∈ (runWorker encounters 1 content16 ⟨10, 15500000⟩ [pass true, pass true, pass false])[2]?,
        .mon (.of spawned) ∈ payload) ↔
      ∀ ps' q, [pass true, pass true] = ps' ++ [q] →
        (afterPasses 1 ⟨10, 15500000⟩ ps').clock / 1000000 ≤ spawned.lastModified + 6 * 1 :=
  @change_announced_iff _ _ _ _ encounters 1 content16 ⟨10, 15500000⟩ [pass true, pass true] [] (pass false)
    spawned 16000000 (by decide) spawned_visible (by decide) (by decide) rfl (pass_not_fails _ _)

/-- The first pass after the mon became visible starts in second 17 and fails; the next one
reads from second 11 on. -/
theorem missed_after_failure :
    ¬ ∀ (subs : Subscriptions Unit) (interval : Int) (content : Int → PokemonTable Unit Unit Unit)
      (s : WorkerState) (ps qs : List (Pass Unit)) (p : Pass Unit) (row : Pokemon Unit Unit Unit) (c : Int),
      0 < interval → s.lastCheck ≤ row.lastModified → (∀ t, c ≤ t → row ∈ (content t).rows) →
      c ≤ 1000000 * (row.lastModified + 6 * interval) → c < (afterPasses interval s ps).clock →
      (∀ ps' q qs', ps = ps' ++ q :: qs' → c < (afterPasses interval s ps').clock →
        Fails subs (afterPasses interval s ps').lastCheck (q.reads content (afterPasses interval s ps').clock)) →
      row.seenType ∈ subs.pokemonTypes → subs.isInExcludedArea row.location = false →
      ¬ Fails subs (afterPasses interval s ps).lastCheck (p.reads content (afterPasses interval s ps).clock) →
      ∃ payload ∈ (runWorker subs interval content s (ps ++ p :: qs))[ps.length]?, .mon (.of row) ∈ payload := by
  intro h
  have hfails : ∀ ps' q qs', [pass true] = ps' ++ q :: qs' →
      16000000 < (afterPasses 1 ⟨10, 17000000⟩ ps').clock →
      Fails encounters (afterPasses 1 ⟨10, 17000000⟩ ps').lastCheck
        (q.reads content16 (afterPasses 1 ⟨10, 17000000⟩ ps').clock) := by
    intro ps' q qs' heq _
    cases ps' with
    | nil =>
      obtain ⟨rfl, _⟩ := List.cons.inj heq
      exact ⟨.pokemon, by decide, by decide, rfl⟩
    | cons _ _ => simp at heq
  have hmem := h encounters 1 content16 ⟨10, 17000000⟩ [pass true] [] (pass false) spawned 16000000 (by decide)
    (by decide) spawned_visible (by decide) (by decide) hfails (by decide) rfl (pass_not_fails _ _)
  revert hmem
  decide

end MapADroid.Webhook
