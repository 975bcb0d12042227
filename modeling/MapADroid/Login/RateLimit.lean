import MapADroid.Lib.Run
import MapADroid.Lib.Leases
import Mathlib.Data.Finset.Card
import Mathlib.Data.Finset.Dedup
import Mathlib.Data.Int.Order.Basic
import Mathlib.Logic.Function.Basic

/- `MappingManager.ip_handle_login_request`: how many logins an IP is granted.

   The logins of an IP are the members of a sorted set in Redis, which any number of
   instances share. A call reads the clock, waits for the lock of its instance, then
   watches the set, counts the recent members and adds its own, again until nobody else
   has written the set in between. The member is the origin with the second the call
   read at the start.

   So a second login of an origin in the same second does not add a member, and a login
   granted late counts as one of the second the call began in; either way more logins
   are granted than the limit allows (`limit_exceeded`). While a login that is granted
   adds a member and is granted within a second of the time the call read (`Prompt`),
   the limit holds in every window (`limit_kept`). -/
namespace MapADroid.Login
open Lib

/-- `limit_seconds` and `limit_count`, as passed or from the arguments. -/
structure Limits where
  seconds : Int
  count : Nat

/-- The members of the sorted set of an IP, each an origin and a second that is its score as well, and
when the set expires. -/
structure Logins where
  members : Finset (String × Int)
  expiresAt : Option Int

namespace Logins

/-- `zcount(ip, low, "+inf")`. -/
def zcount (s : Logins) (low : Int) : Nat := (s.members.filter fun m => low ≤ m.2).card

/-- `zadd` of a member and `expire` in a day. -/
def add (s : Logins) (clock : Int) (origin : String) (now : Int) : Logins :=
  ⟨insert (origin, now) s.members, some (clock + 60 * 60 * 24)⟩

end Logins

abbrev Call := Nat

/-- A call: the instance it is made at, its arguments, and the time it reads before the lock. -/
structure Request where
  manager : Nat
  ip : String
  origin : String
  incrementCount : Bool
  now : Int
  deriving DecidableEq

/-- What a call does next. -/
inductive Pc where
  | idle
  /-- Acquire the lock. -/
  | locking (r : Request)
  /-- WATCH the set of the IP. -/
  | watching (r : Request)
  /-- ZCOUNT, the set being watched since this version. -/
  | counting (r : Request) (version : Nat)
  /-- EXEC of ZADD and EXPIRE. -/
  | executing (r : Request) (version : Nat)
  /-- Sleep, after a `WatchError`. -/
  | sleeping (r : Request)
  | done (answer : Option Bool)
  deriving DecidableEq

structure State where
  clock : Int
  logins : String → Watched Logins
  /-- The lock of each instance. -/
  locked : Nat → Bool
  pc : Call → Pc

inductive Action where
  | tick (seconds : Nat)
  | call (c : Call) (manager : Nat) (ip origin : String) (incrementCount : Bool)
  | acquire (c : Call)
  | watch (c : Call)
  /-- The ZCOUNT, or an exception, on which the login is denied. -/
  | zcount (c : Call) (ok : Bool)
  | exec (c : Call)
  | retry (c : Call)
  /-- Another exception ends a call that has the lock. -/
  | raise (c : Call)
  /-- The ZADD of `increment_login_tracking_by_origin`, with the time read before. -/
  | track (ip origin : String) (now : Int)
  /-- Redis removes an expired set. -/
  | expire (ip : String)

namespace State

def setPc (s : State) (c : Call) (pc : Pc) : State := { s with pc := Function.update s.pc c pc }

/-- A call that has the lock of its instance returns. -/
def finish (s : State) (c : Call) (r : Request) (answer : Option Bool) : State :=
  { s with
    locked := Function.update s.locked r.manager false
    pc := Function.update s.pc c (.done answer) }

def setLogins (s : State) (ip : String) (logins : Logins) : State :=
  { s with logins := Function.update s.logins ip ((s.logins ip).write logins) }

@[simp] theorem setLogins_self (s : State) (ip : String) (x : Logins) :
    (s.setLogins ip x).logins ip = (s.logins ip).write x := Function.update_self _ _ _

theorem setLogins_of_ne (s : State) {ip ip' : String} (h : ip' ≠ ip) (x : Logins) :
    (s.setLogins ip x).logins ip' = s.logins ip' := Function.update_of_ne h _ _

/-- A call that has counted the logins: denied, to be registered, or allowed. -/
def counted (cfg : Limits) (s : State) (c : Call) (r : Request) (version : Nat) : State :=
  let ct := (s.logins r.ip).value.zcount (r.now - cfg.seconds)
  if ct ≥ cfg.count then s.finish c r (some false)
  else if r.incrementCount then s.setPc c (.executing r version)
  else s.finish c r (some true)

def step (cfg : Limits) (s : State) : Action → Option State
  | .tick seconds => some { s with clock := s.clock + seconds }
  | .call c manager ip origin incrementCount =>
    match s.pc c with
    | .idle => some (s.setPc c (.locking ⟨manager, ip, origin, incrementCount, s.clock⟩))
    | _ => none
  | .acquire c =>
    match s.pc c with
    | .locking r =>
      if s.locked r.manager then none
      else some { s with
        locked := Function.update s.locked r.manager true
        pc := Function.update s.pc c (.watching r) }
    | _ => none
  | .watch c =>
    match s.pc c with
    | .watching r => some (s.setPc c (.counting r (s.logins r.ip).version))
    | _ => none
  | .zcount c ok =>
    match s.pc c with
    | .counting r version => some (if ok then counted cfg s c r version else s.finish c r (some false))
    | _ => none
  | .exec c =>
    match s.pc c with
    | .executing r version =>
      if (s.logins r.ip).version = version then
        some ((s.setLogins r.ip ((s.logins r.ip).value.add s.clock r.origin r.now)).finish c r (some true))
      else some (s.setPc c (.sleeping r))
    | _ => none
  | .retry c =>
    match s.pc c with
    | .sleeping r => some (s.setPc c (.watching r))
    | _ => none
  | .raise c =>
    match s.pc c with
    | .watching r | .counting r _ | .executing r _ | .sleeping r => some (s.finish c r none)
    | .idle | .locking _ | .done _ => none
  | .track ip origin now =>
    if now ≤ s.clock then some (s.setLogins ip ((s.logins ip).value.add s.clock origin now)) else none
  | .expire ip =>
    match (s.logins ip).value.expiresAt with
    | some e => if e ≤ s.clock then some (s.setLogins ip ⟨∅, none⟩) else none
    | none => none

/-- A login granted: the EXEC of a call with `increment_count` succeeds, and it returns True. -/
structure Grant where
  ip : String
  origin : String
  /-- The time the call read. -/
  now : Int
  /-- When it is granted. -/
  time : Int
  deriving DecidableEq

def grants (s : State) : Action → List Grant
  | .exec c =>
    match s.pc c with
    | .executing r version =>
      if (s.logins r.ip).version = version then [⟨r.ip, r.origin, r.now, s.clock⟩] else []
    | _ => []
  | _ => []

/-- The states with the logins granted so far, oldest first. -/
abbrev Recorded := State × List Grant

/-- A login is granted only if it adds a member and within a second of the time the call read. -/
def Prompt (p : Recorded) (a : Action) : Prop :=
  ∀ g ∈ grants p.1 a, (g.origin, g.now) ∉ (p.1.logins g.ip).value.members ∧ g.time ≤ g.now + 1

instance (p : Recorded) (a : Action) : Decidable (Prompt p a) :=
  inferInstanceAs (Decidable (∀ g ∈ grants p.1 a, _ ∧ _))

/-- The logins an IP is granted in the window of `cfg.seconds` seconds that begins at `w`. -/
def granted (cfg : Limits) (ip : String) (w : Int) (l : List Grant) : Nat :=
  l.countP fun g => g.ip = ip ∧ w ≤ g.time ∧ g.time < w + cfg.seconds

/-! ## What a step does to the sets -/

/-- No set is written, and none of the logins is granted. -/
def Quiet (s : State) (a : Action) (t : State) : Prop :=
  t.logins = s.logins ∧ s.clock ≤ t.clock ∧ grants s a = []

/-- Another member is added without a login being granted, or an expired set is removed. -/
def Tracked (s : State) (a : Action) (t : State) : Prop :=
  ∃ ip x, t.logins = (s.setLogins ip x).logins ∧ t.clock = s.clock ∧ grants s a = [] ∧
    ((∃ origin now, x = (s.logins ip).value.add s.clock origin now) ∨
      ∃ e, (s.logins ip).value.expiresAt = some e ∧ e ≤ s.clock ∧ x = ⟨∅, none⟩)

/-- A login is granted: its member is added to a set nobody has written since it was watched. -/
def Granted (s : State) (a : Action) (t : State) : Prop :=
  ∃ c r, s.pc c = .executing r (s.logins r.ip).version ∧
    t.logins = (s.setLogins r.ip ((s.logins r.ip).value.add s.clock r.origin r.now)).logins ∧
    t.clock = s.clock ∧ grants s a = [⟨r.ip, r.origin, r.now, s.clock⟩]

/-- A call that has counted the logins returns, or it is about to register one more, the limit not being reached. -/
theorem counted_spec (cfg : Limits) (s : State) (c : Call) (r : Request) (version : Nat) :
    (∃ answer, counted cfg s c r version = s.finish c r (some answer)) ∨
      counted cfg s c r version = s.setPc c (.executing r version) ∧
        (s.logins r.ip).value.zcount (r.now - cfg.seconds) < cfg.count := by
  unfold counted
  dsimp only
  split
  · exact .inl ⟨false, rfl⟩
  · next hlt =>
    split
    · exact .inr ⟨rfl, not_le.mp hlt⟩
    · exact .inl ⟨true, rfl⟩

/-- An exception ends the call. -/
theorem raise_some {cfg : Limits} {s t : State} {c : Call} (h : step cfg s (.raise c) = some t) :
    ∃ r, t = s.finish c r none := by
  simp only [step] at h
  cases hpc : s.pc c with
  | idle | locking | done =>
    rw [hpc] at h
    cases h
  | watching r | counting r | executing r | sleeping r =>
    rw [hpc] at h
    exact ⟨r, (Option.some.inj h).symm⟩

theorem step_sets {cfg : Limits} {s t : State} {a : Action} (h : step cfg s a = some t) :
    Quiet s a t ∨ Tracked s a t ∨ Granted s a t := by
  cases a with
  | tick seconds =>
    cases h
    exact .inl ⟨rfl, by show s.clock ≤ s.clock + seconds; omega, rfl⟩
  | call c | watch c | retry c =>
    simp only [step] at h
    split at h
    · cases h; exact .inl ⟨rfl, le_refl _, rfl⟩
    · cases h
  | acquire c =>
    simp only [step] at h
    split at h
    · split at h
      · cases h
      · cases h; exact .inl ⟨rfl, le_refl _, rfl⟩
    · cases h
  | zcount c ok =>
    simp only [step] at h
    split at h
    · next r version _ =>
      cases h
      cases ok with
      | false => exact .inl ⟨rfl, le_refl _, rfl⟩
      | true =>
        rw [if_pos rfl]
        rcases counted_spec cfg s c r version with ⟨answer, heq⟩ | ⟨heq, _⟩
        · rw [heq]; exact .inl ⟨rfl, le_refl _, rfl⟩
        · rw [heq]; exact .inl ⟨rfl, le_refl _, rfl⟩
    · cases h
  | exec c =>
    simp only [step] at h
    split at h
    · next r version hpc =>
      split at h
      · next hv =>
        cases h
        refine .inr (.inr ⟨c, r, hv ▸ hpc, rfl, rfl, ?_⟩)
        simp only [grants, hpc, if_pos hv]
      · next hv =>
        cases h
        exact .inl ⟨rfl, le_refl _, by simp only [grants, hpc, if_neg hv]⟩
    · cases h
  | raise c =>
    obtain ⟨r, rfl⟩ := raise_some h
    exact .inl ⟨rfl, le_refl _, rfl⟩
  | track ip origin now =>
    simp only [step] at h
    split at h
    · cases h; exact .inr (.inl ⟨ip, _, rfl, rfl, rfl, .inl ⟨origin, now, rfl⟩⟩)
    · cases h
  | expire ip =>
    simp only [step] at h
    split at h
    · next e he =>
      split at h
      · next hle => cases h; exact .inr (.inl ⟨ip, _, rfl, rfl, rfl, .inr ⟨e, he, hle, rfl⟩⟩)
      · cases h
    · cases h

/-! ## The calls -/

/-- What holds of a call: it has read the clock before, and the count of a call about to register was
below the limit, unless the set has been written since. -/
def CallOk (cfg : Limits) (s : State) : Pc → Prop
  | .idle | .done _ => True
  | .locking r | .watching r | .sleeping r => r.now ≤ s.clock
  | .counting r version => r.now ≤ s.clock ∧ version ≤ (s.logins r.ip).version
  | .executing r version => r.now ≤ s.clock ∧
      (s.logins r.ip).Seen version fun x => x.zcount (r.now - cfg.seconds) < cfg.count

def CallsOk (cfg : Limits) (s : State) : Prop := ∀ c, CallOk cfg s (s.pc c)

/-- The clock goes on, and sets are only written. -/
structure Later (s t : State) : Prop where
  clock : s.clock ≤ t.clock
  logins : ∀ ip, t.logins ip = s.logins ip ∨ ∃ x, t.logins ip = (s.logins ip).write x

theorem CallOk.later {cfg : Limits} {s t : State} (h : Later s t) : ∀ {pc : Pc}, CallOk cfg s pc → CallOk cfg t pc
  | .idle, _ | .done _, _ => trivial
  | .locking _, hpc | .watching _, hpc | .sleeping _, hpc => le_trans hpc h.clock
  | .counting r version, hpc => by
    refine ⟨hpc.1.trans h.clock, ?_⟩
    rcases h.logins r.ip with heq | ⟨x, heq⟩
    · rw [heq]; exact hpc.2
    · rw [heq]; exact Nat.le_succ_of_le hpc.2
  | .executing r version, hpc => by
    refine ⟨hpc.1.trans h.clock, ?_⟩
    rcases h.logins r.ip with heq | ⟨x, heq⟩
    · rw [heq]; exact hpc.2
    · rw [heq]; exact hpc.2.write x

theorem later_of_sets {s t : State} {a : Action} (h : Quiet s a t ∨ Tracked s a t ∨ Granted s a t) :
    Later s t := by
  have hset : ∀ ip x, t.logins = (s.setLogins ip x).logins →
      ∀ ip', t.logins ip' = s.logins ip' ∨ ∃ x, t.logins ip' = (s.logins ip').write x := by
    intro ip x ht ip'
    rw [ht]
    by_cases hip : ip' = ip
    · exact .inr ⟨x, hip ▸ setLogins_self s ip x⟩
    · exact .inl (setLogins_of_ne s hip x)
  rcases h with ⟨hl, hc, _⟩ | ⟨ip, x, hl, hc, _⟩ | ⟨c, r, _, hl, hc, _⟩
  · exact ⟨hc, fun ip => .inl (by rw [hl])⟩
  · exact ⟨hc.ge, hset ip x hl⟩
  · exact ⟨hc.ge, hset _ _ hl⟩

/-- A step changes where one call is, which then is as it should be. -/
theorem step_calls {cfg : Limits} {s t : State} {a : Action} (hs : CallsOk cfg s) (h : step cfg s a = some t) :
    CallsOk cfg t := by
  have hlater : Later s t := later_of_sets (step_sets h)
  have hsame : t.pc = s.pc → CallsOk cfg t := by
    intro hpc c
    rw [hpc]
    exact (hs c).later hlater
  have hone : ∀ c pc, t.pc = Function.update s.pc c pc → CallOk cfg t pc → CallsOk cfg t := by
    intro c pc hpc hok d
    rw [hpc, Function.update_apply]
    split
    · exact hok
    · exact (hs d).later hlater
  cases a with
  | tick seconds => cases h; exact hsame rfl
  | call c manager ip origin incrementCount =>
    simp only [step] at h
    split at h
    · cases h; exact hone c _ rfl (le_refl s.clock)
    · cases h
  | acquire c =>
    simp only [step] at h
    split at h
    · next r hpc =>
      split at h
      · cases h
      · cases h
        have hr : CallOk cfg s (.locking r) := hpc ▸ hs c
        exact hone c (.watching r) rfl hr
    · cases h
  | watch c =>
    simp only [step] at h
    split at h
    · next r hpc =>
      cases h
      have hr : CallOk cfg s (.watching r) := hpc ▸ hs c
      exact hone c (.counting r _) rfl ⟨hr, le_refl _⟩
    · cases h
  | retry c =>
    simp only [step] at h
    split at h
    · next r hpc =>
      cases h
      have hr : CallOk cfg s (.sleeping r) := hpc ▸ hs c
      exact hone c (.watching r) rfl hr
    · cases h
  | zcount c ok =>
    simp only [step] at h
    split at h
    · next r version hpc =>
      have hr : CallOk cfg s (.counting r version) := hpc ▸ hs c
      obtain rfl := Option.some.inj h
      cases ok with
      | false => exact hone c (.done _) rfl trivial
      | true =>
        rcases counted_spec cfg s c r version with ⟨answer, heq⟩ | ⟨heq, hlt⟩
        · exact hone c (.done _) (by rw [if_pos rfl, heq]; rfl) trivial
        · refine hone c (.executing r version) (by rw [if_pos rfl, heq]; rfl) ?_
          rw [if_pos rfl, heq]
          exact ⟨hr.1, .read hr.2 hlt⟩
    · cases h
  | exec c =>
    simp only [step] at h
    split at h
    · next r version hpc =>
      have hr : CallOk cfg s (.executing r version) := hpc ▸ hs c
      split at h
      · cases h; exact hone c (.done _) rfl trivial
      · cases h; exact hone c (.sleeping r) rfl hr.1
    · cases h
  | raise c =>
    obtain ⟨r, rfl⟩ := raise_some h
    exact hone c (.done _) rfl trivial
  | track ip origin now =>
    simp only [step] at h
    split at h
    · cases h; exact hsame rfl
    · cases h
  | expire ip =>
    simp only [step] at h
    split at h
    · split at h
      · cases h; exact hsame rfl
      · cases h
    · cases h

/-! ## The logins granted -/

/-- The member a login adds. -/
def Grant.member (g : Grant) : String × Int := (g.origin, g.now)

/-- What holds of the logins granted so far: for a day each has its member in the set, and no other
login has it. -/
structure Ledger (cfg : Limits) (p : Recorded) : Prop where
  time_le : ∀ g ∈ p.2, g.time ≤ p.1.clock
  now_le : ∀ g ∈ p.2, g.now ≤ g.time
  prompt : ∀ g ∈ p.2, g.time ≤ g.now + 1
  live : ∀ g ∈ p.2, p.1.clock < g.time + 60 * 60 * 24 → g.member ∈ (p.1.logins g.ip).value.members
  expires : ∀ g ∈ p.2, ∀ e, (p.1.logins g.ip).value.expiresAt = some e → g.time + 60 * 60 * 24 ≤ e
  distinct : p.2.Pairwise fun g g' => g.ip = g'.ip → g.member ≠ g'.member
  limit : ∀ ip w, granted cfg ip w p.2 ≤ cfg.count

variable {cfg : Limits}

theorem ledger_nil (s : State) : Ledger cfg (s, []) where
  time_le _ h := by cases h
  now_le _ h := by cases h
  prompt _ h := by cases h
  live _ h := by cases h
  expires _ h := by cases h
  distinct := List.Pairwise.nil
  limit _ _ := Nat.zero_le _

theorem Ledger.quiet {p : Recorded} {t : State} (h : Ledger cfg p) (hlogins : t.logins = p.1.logins)
    (hclock : p.1.clock ≤ t.clock) : Ledger cfg (t, p.2) where
  time_le g hg := (h.time_le g hg).trans hclock
  now_le := h.now_le
  prompt := h.prompt
  live g hg hlt := by
    show g.member ∈ (t.logins g.ip).value.members
    rw [hlogins]
    exact h.live g hg (lt_of_le_of_lt hclock hlt)
  expires g hg e he := by
    have he' : (t.logins g.ip).value.expiresAt = some e := he
    rw [hlogins] at he'
    exact h.expires g hg e he'
  distinct := h.distinct
  limit := h.limit

/-- The set of an IP replaced by one in which the members of live logins remain. -/
theorem Ledger.setLogins {p : Recorded} {t : State} (h : Ledger cfg p) {ip : String} {x : Logins}
    (hlogins : t.logins = (p.1.setLogins ip x).logins) (hclock : t.clock = p.1.clock)
    (hlive : ∀ g ∈ p.2, g.ip = ip → p.1.clock < g.time + 60 * 60 * 24 → g.member ∈ x.members)
    (hexpires : ∀ e, x.expiresAt = some e → p.1.clock + 60 * 60 * 24 ≤ e) : Ledger cfg (t, p.2) := by
  have hget : ∀ ip', (t.logins ip').value = if ip' = ip then x else (p.1.logins ip').value := by
    intro ip'
    rw [hlogins]
    by_cases hip : ip' = ip
    · subst hip
      rw [if_pos rfl, setLogins_self]
      rfl
    · rw [if_neg hip, setLogins_of_ne _ hip]
  refine ⟨fun g hg => hclock ▸ h.time_le g hg, h.now_le, h.prompt, fun g hg hlt => ?_, fun g hg e he => ?_,
    h.distinct, h.limit⟩
  · show g.member ∈ (t.logins g.ip).value.members
    have hlt' : p.1.clock < g.time + 60 * 60 * 24 := hclock ▸ hlt
    rw [hget]
    split
    · next hip => exact hlive g hg hip hlt'
    · exact h.live g hg hlt'
  · have he' : (t.logins g.ip).value.expiresAt = some e := he
    rw [hget] at he'
    split at he'
    · have htime := h.time_le g hg
      have hle := hexpires e he'
      omega
    · exact h.expires g hg e he'

theorem Ledger.tracked {p : Recorded} {t : State} {a : Action} (h : Ledger cfg p) (ht : Tracked p.1 a t) :
    Ledger cfg (t, p.2) := by
  obtain ⟨ip, x, hlogins, hclock, _, hx⟩ := ht
  rcases hx with ⟨origin, now, rfl⟩ | ⟨e, he, hle, rfl⟩
  · refine h.setLogins hlogins hclock (fun g hg hip hlt => ?_) fun e he => ?_
    · exact Finset.mem_insert_of_mem (hip ▸ h.live g hg hlt)
    · cases he; exact le_refl _
  · refine h.setLogins hlogins hclock (fun g hg hip hlt => ?_) fun e he => by cases he
    -- a set expires a day after the last login granted
    have hge := h.expires g hg e (hip ▸ he)
    omega

/-- The logins of a window that ends now, and the new one, are at most the limit. -/
theorem Ledger.granted_lt {p : Recorded} (h : Ledger cfg p) (hday : cfg.seconds ≤ 60 * 60 * 24) {r : Request}
    (hnow : r.now ≤ p.1.clock)
    (hcount : (p.1.logins r.ip).value.zcount (r.now - cfg.seconds) < cfg.count) {w : Int}
    (hw : p.1.clock < w + cfg.seconds) : granted cfg r.ip w p.2 < cfg.count := by
  let window := p.2.filter fun g => g.ip = r.ip ∧ w ≤ g.time ∧ g.time < w + cfg.seconds
  have hmem : ∀ g ∈ window, g ∈ p.2 ∧ g.ip = r.ip ∧ w ≤ g.time := by
    intro g hg
    obtain ⟨hg, hp⟩ := List.mem_filter.mp hg
    have hp' := of_decide_eq_true hp
    exact ⟨hg, hp'.1, hp'.2.1⟩
  have hnodup : (window.map Grant.member).Nodup := by
    refine List.pairwise_map.mpr ((h.distinct.sublist List.filter_sublist).imp_of_mem ?_)
    intro g g' hg hg' hne
    exact hne ((hmem g hg).2.1.trans (hmem g' hg').2.1.symm)
  have hsub : (window.map Grant.member).toFinset ⊆
      (p.1.logins r.ip).value.members.filter fun m => r.now - cfg.seconds ≤ m.2 := by
    intro m hm
    obtain ⟨g, hg, rfl⟩ := List.mem_map.mp (List.mem_toFinset.mp hm)
    obtain ⟨hg, hip, hwg⟩ := hmem g hg
    have hprompt := h.prompt g hg
    rw [Finset.mem_filter, ← hip]
    exact ⟨h.live g hg (by omega), by show r.now - cfg.seconds ≤ g.now; omega⟩
  calc granted cfg r.ip w p.2 = window.length := List.countP_eq_length_filter
    _ = (window.map Grant.member).length := (List.length_map _).symm
    _ = (window.map Grant.member).toFinset.card := (List.toFinset_card_of_nodup hnodup).symm
    _ ≤ (p.1.logins r.ip).value.zcount (r.now - cfg.seconds) := Finset.card_le_card hsub
    _ < cfg.count := hcount

theorem Ledger.grant {p : Recorded} {t : State} {a : Action} (h : Ledger cfg p) (hcalls : CallsOk cfg p.1)
    (hday : cfg.seconds ≤ 60 * 60 * 24) (hprompt : Prompt p a) (ht : Granted p.1 a t) :
    Ledger cfg (t, p.2 ++ grants p.1 a) := by
  obtain ⟨c, r, hpc, hlogins, hclock, hgrant⟩ := ht
  have hcall : CallOk cfg p.1 (.executing r (p.1.logins r.ip).version) := hpc ▸ hcalls c
  obtain ⟨hnow, hseen⟩ := hcall
  have hcount := hseen.value rfl
  obtain ⟨hnew, hsoon⟩ := hprompt ⟨r.ip, r.origin, r.now, p.1.clock⟩ (by rw [hgrant]; exact List.mem_singleton_self _)
  have hbase : Ledger cfg (t, p.2) :=
    h.setLogins hlogins hclock (fun g hg hip hlt => Finset.mem_insert_of_mem (hip ▸ h.live g hg hlt))
      fun e he => by cases he; exact le_refl _
  have hset : (t.logins r.ip).value = (p.1.logins r.ip).value.add p.1.clock r.origin r.now := by
    rw [hlogins, setLogins_self]
    rfl
  rw [hgrant]
  have hboth : ∀ {q : Grant → Prop}, (∀ g ∈ p.2, q g) → q ⟨r.ip, r.origin, r.now, p.1.clock⟩ →
      ∀ g ∈ p.2 ++ [⟨r.ip, r.origin, r.now, p.1.clock⟩], q g := by
    intro q hold hq g hg
    rcases List.mem_append.mp hg with hg | hg
    · exact hold g hg
    · exact (List.mem_singleton.mp hg) ▸ hq
  refine ⟨hboth hbase.time_le hclock.ge, hboth hbase.now_le hnow, hboth hbase.prompt hsoon,
    hboth hbase.live fun _ => ?_, hboth hbase.expires fun e he => ?_, ?_, fun ip w => ?_⟩
  · show (r.origin, r.now) ∈ (t.logins r.ip).value.members
    rw [hset]
    exact Finset.mem_insert_self _ _
  · have he' : (t.logins r.ip).value.expiresAt = some e := he
    rw [hset] at he'
    cases he'
    exact le_refl _
  · refine List.pairwise_append.mpr ⟨h.distinct, List.pairwise_singleton _ _, fun g hg g' hg' hip => ?_⟩
    rw [List.mem_singleton.mp hg'] at hip ⊢
    intro hmem
    have hgnow : g.now = r.now := congrArg Prod.snd hmem
    have hge := h.now_le g hg
    -- a login of this second is less than a day old, so its member would be in the set
    have hlive := h.live g hg (by dsimp only at hsoon; omega)
    rw [hip, hmem] at hlive
    exact hnew hlive
  · have happend : granted cfg ip w (p.2 ++ [⟨r.ip, r.origin, r.now, p.1.clock⟩]) = granted cfg ip w p.2 +
        if r.ip = ip ∧ w ≤ p.1.clock ∧ p.1.clock < w + cfg.seconds then 1 else 0 := by
      simp [granted, List.countP_append, List.countP_cons]
    have hold := h.limit ip w
    rw [happend]
    split
    · next hin =>
      have hlt := h.granted_lt hday hnow hcount hin.2.2
      rw [hin.1] at hlt
      omega
    · omega

/-! ## Runs -/

/-- While every login is granted promptly, at most `cfg.count` are granted to an IP in any
`cfg.seconds` seconds, whatever was in the sets before. -/
theorem limit_kept {s : State} {l : List Action} {p : Recorded} (hidle : ∀ c, s.pc c = .idle)
    (hday : cfg.seconds ≤ 60 * 60 * 24) (h : Run (recording (step cfg) grants) Prompt (s, []) l p) (ip : String)
    (w : Int) : granted cfg ip w p.2 ≤ cfg.count := by
  have hinv : CallsOk cfg p.1 ∧ Ledger cfg p := by
    refine h.invariant (I := fun p => CallsOk cfg p.1 ∧ Ledger cfg p) ⟨fun c => ?_, ledger_nil s⟩ ?_
    · show CallOk cfg s (s.pc c)
      rw [hidle c]
      trivial
    · intro p a q hp hprompt hs
      obtain ⟨hcalls, hledger⟩ := hp
      obtain ⟨hstep, hq⟩ := recording_some hs
      obtain ⟨t, G⟩ := q
      dsimp only at hstep hq
      refine ⟨step_calls hcalls hstep, ?_⟩
      rcases step_sets hstep with hquiet | htracked | hgranted
      · rw [hq, hquiet.2.2, List.append_nil]
        exact hledger.quiet hquiet.1 hquiet.2.1
      · have hnone : grants p.1 a = [] := htracked.choose_spec.choose_spec.2.2.1
        rw [hq, hnone, List.append_nil]
        exact hledger.tracked htracked
      · rw [hq]
        exact hledger.grant hcalls hday hprompt hgranted
  exact hinv.2.limit ip w

/-! ## Logins in one second -/

/-- No login yet, and no call. -/
def init (clock : Int) : State := ⟨clock, fun _ => ⟨⟨∅, none⟩, 0⟩, fun _ => false, fun _ => .idle⟩

/-- The steps of a call whose login is granted at its first attempt. -/
def login (c : Call) (manager : Nat) (origin : String) : List Action :=
  [.call c manager "ip" origin true, .acquire c, .watch c, .zcount c true, .exec c]

/-- Two logins of one origin, a second apart, after which a third login is denied. -/
def secondApart : List Action :=
  login 0 0 "a" ++ [.tick 1] ++ login 1 1 "a" ++ [.call 2 0 "ip" "b" true, .acquire 2, .watch 2, .zcount 2 true]

theorem limit_kept_two : granted ⟨60, 2⟩ "ip" 100
    (after (recording (step ⟨60, 2⟩) grants) Prompt (init 100, []) secondApart).2 ≤ 2 :=
  @limit_kept ⟨60, 2⟩ (init 100) secondApart _ (fun _ => rfl) (by decide) (.of_after (by decide +kernel)) "ip" 100

/-- A third login is granted, as the logins of one origin in one second have one member. -/
theorem limit_exceeded : ¬ ∀ (cfg : Limits) (s : State) (l : List Action) (p : Recorded),
    (∀ c, s.pc c = .idle) → cfg.seconds ≤ 60 * 60 * 24 → Run (recording (step cfg) grants) Any (s, []) l p →
    ∀ ip w, granted cfg ip w p.2 ≤ cfg.count := by
  intro h
  have hle := h ⟨60, 2⟩ (init 100) (login 0 0 "a" ++ login 1 1 "a" ++ login 2 0 "a") _ (fun _ => rfl) (by decide)
    (.of_after (by decide +kernel)) "ip" 100
  have hthree : granted ⟨60, 2⟩ "ip" 100
      (after (recording (step ⟨60, 2⟩) grants) Any (init 100, [])
        (login 0 0 "a" ++ login 1 1 "a" ++ login 2 0 "a")).2 = 3 := by decide +kernel
  rw [hthree] at hle
  exact absurd hle (by decide)

end State

end MapADroid.Login
