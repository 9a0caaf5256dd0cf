import Sming.Timer
import Sming.Lib.Run

/-!
# The calls of a timer

What happens when the timer of the operating system expires: a `Timer` counts the parts of a long interval, and calls
its callback. Runs of calls and expiries are observed with the history that the documentation speaks about: whether
the timer was started once, how often it has called back since, and how often it has expired.
-/

namespace Sming
open Lib Option

inductive CallbackKind where
  | interrupt | delegate | stdFunction
  deriving Repr, DecidableEq

/-- A timer and which of its callbacks are set. -/
structure CallbackTimer where
  timer : Timer := {}
  callback : Bool := false
  delegateFunc : Bool := false
  delegateStdFunc : Bool := false
  deriving Repr, DecidableEq

variable {t : CallbackTimer} {called : Option CallbackKind}

namespace CallbackTimer

/-- The three methods differ in the callback they set; each takes the other ones away. -/
def setCallback (t : CallbackTimer) (kind : CallbackKind) (given : Bool) : CallbackTimer :=
  let t := { t with
    callback := kind = .interrupt && given, delegateFunc := kind = .delegate && given
    delegateStdFunc := kind = .stdFunction && given }
  if given then t else { t with timer := t.timer.stop }

/-- The callback that is called, and the timer afterwards. -/
def tick (t : CallbackTimer) : Option CallbackKind × CallbackTimer :=
  if t.callback then (some .interrupt, t)
  else if t.delegateFunc then (some .delegate, t)
  else if t.delegateStdFunc then (some .stdFunction, t)
  else (none, { t with timer := t.timer.stop })

def processing (t : CallbackTimer) : Option CallbackKind × CallbackTimer :=
  if 0 < t.timer.longIntervalCounterLimit then
    let timer := { t.timer with longIntervalCounter := t.timer.longIntervalCounter + 1 }
    if timer.longIntervalCounter < timer.longIntervalCounterLimit then (none, { t with timer })
    else
      let timer := { timer with longIntervalCounter := 0 }
      tick { t with timer := if timer.repeating then timer else timer.stop }
  else t.tick

/-- What remains of the timer of the operating system after an expiry. -/
def left (os : OsTimer) : Option OsTimer := if os.repeating then some os else none

def expire (t : CallbackTimer) : Option (Option CallbackKind × CallbackTimer) :=
  t.timer.simpleTimer.map fun os => processing { t with timer.simpleTimer := left os }

def hasCallback (t : CallbackTimer) : Bool := t.callback || t.delegateFunc || t.delegateStdFunc

lemma tick_of_hasCallback (set : t.hasCallback = true) : ∃ kind, t.tick = (some kind, t) := by
  rw [hasCallback] at set
  rw [tick]
  split_ifs with h h' h''
  · exact ⟨_, rfl⟩
  · exact ⟨_, rfl⟩
  · exact ⟨_, rfl⟩
  · simp [h, h', h''] at set

lemma tick_of_not (unset : t.hasCallback = false) : t.tick = (none, { t with timer := t.timer.stop }) := by
  simp only [hasCallback, Bool.or_eq_false_iff] at unset
  simp [tick, unset]

def completed (t : Timer) (os : OsTimer) : Timer :=
  let t := { t with simpleTimer := left os, longIntervalCounter := 0 }
  if t.repeating then t else t.stop

lemma expire_cases {t' : CallbackTimer} (expired : t.expire = some (called, t')) :
    ∃ os, t.timer.simpleTimer = some os ∧
      ((t.timer.longIntervalCounterLimit = 0 ∧ (called, t') = tick { t with timer.simpleTimer := left os }) ∨
      (0 < t.timer.longIntervalCounterLimit ∧
        t.timer.longIntervalCounter + 1 < t.timer.longIntervalCounterLimit ∧ called = none ∧
        t' = { t with timer.simpleTimer := left os, timer.longIntervalCounter := t.timer.longIntervalCounter + 1 }) ∨
      (0 < t.timer.longIntervalCounterLimit ∧ ¬ t.timer.longIntervalCounter + 1 < t.timer.longIntervalCounterLimit ∧
        (called, t') = tick { t with timer := completed t.timer os })) := by
  obtain ⟨os, armed, result⟩ := map_eq_some_iff.mp expired
  refine ⟨os, armed, ?_⟩
  rw [processing] at result
  split at result
  case isTrue long =>
    dsimp only at result
    split at result
    case isTrue more =>
      cases result
      exact .inr (.inl ⟨long, more, rfl, rfl⟩)
    case isFalse last => exact .inr (.inr ⟨long, last, result.symm⟩)
  case isFalse short =>
    have zero : t.timer.longIntervalCounterLimit = 0 := by
      rw [← UInt16.toNat_inj]
      have le := mt UInt16.lt_iff_toNat_lt.mpr short
      exact Nat.le_zero.mp (Nat.not_lt.mp le)
    exact .inl ⟨zero, result.symm⟩

end CallbackTimer

/-! ## Runs -/

inductive TimerEvent where
  | start (repeating : Bool)
  | startOnce
  | stop
  | setInterval (us : UInt64)
  | setCallback (kind : CallbackKind) (given : Bool)
  | expire
  deriving Repr, DecidableEq

structure TimerRun where
  timer : CallbackTimer := {}
  /-- The last start was for one time. -/
  once : Bool := false
  /-- Callbacks called since the last start. -/
  calls : Nat := 0
  /-- Expiries since the last start or restart. -/
  expiries : Nat := 0
  deriving Repr, DecidableEq

namespace TimerRun

def step (s : TimerRun) : TimerEvent → Option TimerRun
  | .start repeating => some {
      timer := { s.timer with timer := s.timer.timer.start repeating }, once := !repeating }
  | .startOnce => some { timer := { s.timer with timer := s.timer.timer.startOnce }, once := true }
  | .stop => some { s with timer.timer := s.timer.timer.stop }
  | .setInterval us => (s.timer.timer.setIntervalUs us).map fun timer => { s with
      timer.timer := timer, expiries := if s.timer.timer.started then 0 else s.expiries }
  | .setCallback kind given => some { s with timer := s.timer.setCallback kind given }
  | .expire => s.timer.expire.map fun (called, timer) => { s with
      timer, calls := s.calls + called.toList.length, expiries := s.expiries + 1 }

/-- A timer that was started once gets no new interval while it counts as started, unless that stops it. -/
def Allowed (s : TimerRun) : TimerEvent → Prop
  | .setInterval us => s.timer.timer.started = false ∨ s.timer.timer.repeating = true ∨ us = 0
  | _ => True

instance (s : TimerRun) : (e : TimerEvent) → Decidable (s.Allowed e)
  | .setInterval _ => inferInstanceAs (Decidable (_ ∨ _ ∨ _))
  | .start _ | .startOnce | .stop | .setCallback _ _ | .expire => .isTrue trivial

/-- What the documentation promises in a state: a timer that was started once calls back at most once, and a timer
with a long interval calls back with every expiry that completes the parts. -/
structure Promised (s : TimerRun) : Prop where
  once : s.once = true → s.calls ≤ 1
  long : ∀ called t, s.timer.expire = some (called, t) → 0 < s.timer.timer.longIntervalCounterLimit →
    s.timer.hasCallback = true → (called.isSome = true ↔ s.timer.timer.longIntervalCounterLimit.toNat ∣ s.expiries + 1)

end TimerRun

/-! ## The invariant -/

namespace Timer

structure Consistent (t : Timer) : Prop where
  armed : t.simpleTimer ≠ none → t.started = true
  idle : t.started = false → t.longIntervalCounter = 0

structure Idle (t : Timer) : Prop where
  unarmed : t.simpleTimer = none
  stopped : t.started = false
  zero : t.longIntervalCounter = 0

/-- The timer of a run, with what is observed of it. -/
structure Inv (t : Timer) (once : Bool) (calls expiries : Nat) : Prop where
  consistent : t.Consistent
  counted : t.simpleTimer ≠ none → 0 < t.longIntervalCounterLimit →
    t.longIntervalCounter.toNat = expiries % t.longIntervalCounterLimit.toNat
  few : once = true → calls ≤ 1
  -- while a timer that was started once can expire, it has not called back
  waiting : once = true → ∀ os, t.simpleTimer = some os → calls = 0 ∧
    (t.longIntervalCounterLimit = 0 → os.repeating = false)
  single : once = true → t.started = true → t.repeating = false

variable {t t' : Timer} {once : Bool} {calls expiries : Nat}

lemma Consistent.of_started (started : t.started = true) : t.Consistent :=
  ⟨fun _ => started, fun stopped => nomatch started.symm.trans stopped⟩

lemma Idle.consistent (idle : t.Idle) : t.Consistent :=
  ⟨fun some => absurd idle.unarmed some, fun _ => idle.zero⟩

lemma Inv.of_idle (idle : t.Idle) (few : once = true → calls ≤ 1) : t.Inv once calls expiries where
  consistent := idle.consistent
  counted some := absurd idle.unarmed some
  few := few
  waiting _ _ some := nomatch idle.unarmed.symm.trans some
  single _ started := nomatch idle.stopped.symm.trans started

lemma Consistent.stop (h : t.Consistent) : t.stop.Idle := by
  rw [Timer.stop]
  split
  case isTrue started => exact ⟨rfl, rfl, rfl⟩
  case isFalse stopped =>
    have off : t.started = false := by simpa using stopped
    exact ⟨by simpa [off] using h.armed, off, h.idle off⟩

@[simp] lemma repeating_stop (t : Timer) : t.stop.repeating = t.repeating := by
  cases started : t.started <;> simp [stop, started]

lemma Consistent.start (h : t.Consistent) (repeating : Bool) : (t.start repeating).Idle ∨
    t.interval ≠ 0 ∧ (t.start repeating).started = true ∧ (t.start repeating).longIntervalCounter = 0 ∧
      (t.start repeating).repeating = repeating ∧ ∃ os, (t.start repeating).simpleTimer = some os ∧
        ((t.start repeating).longIntervalCounterLimit = 0 → os.repeating = repeating) := by
  have rest := @Consistent.stop { t with repeating } ⟨h.armed, h.idle⟩
  simp only [Timer.start]
  split
  case isTrue => exact .inl rest
  case isFalse some =>
    refine .inr ⟨by simpa using some, rfl, rest.zero, by simp, _, rfl, fun short => ?_⟩
    have short : t.longIntervalCounterLimit = 0 := by simpa using short
    split <;> simp [short]

lemma Inv.of_start (h : t.Consistent) {repeating : Bool} (few : once = true → calls ≤ 1)
    (single : once = true → t.interval ≠ 0 → calls = 0 ∧ repeating = false) :
    (t.start repeating).Inv once calls 0 := by
  obtain idle | ⟨some, started, zero, same, os, osTimer, kind⟩ := h.start repeating
  · exact .of_idle idle few
  · refine ⟨.of_started started, ?_, few, ?_, fun once _ => same.trans (single once some).2⟩
    · intro _ _
      rw [zero, Nat.zero_mod]
      rfl
    · intro once os' osTimer'
      obtain rfl := Option.some.inj (osTimer.symm.trans osTimer')
      obtain ⟨none, once⟩ := single once some
      exact ⟨none, fun short => (kind short).trans once⟩

lemma Inv.stop (inv : t.Inv once calls expiries) : t.stop.Inv once calls expiries :=
  .of_idle inv.consistent.stop inv.few

lemma cut_fields {us : UInt64} (cut : t.cut us = some t') : t'.simpleTimer = t.simpleTimer ∧
    t'.started = t.started ∧ t'.repeating = t.repeating ∧ t'.longIntervalCounter = 0 ∧
      (us = 0 → t'.interval = 0) := by
  rw [Timer.cut] at cut
  split at cut
  case isTrue long =>
    dsimp only at cut
    split at cut
    case isTrue => cases cut
    case isFalse =>
      cases cut
      refine ⟨rfl, rfl, rfl, rfl, ?_⟩
      rintro rfl
      exact absurd long (by decide)
  case isFalse =>
    cases cut
    refine ⟨rfl, rfl, rfl, rfl, ?_⟩
    rintro rfl
    rfl

lemma Inv.setInterval (inv : t.Inv once calls expiries) {us : UInt64}
    (allowed : t.started = false ∨ t.repeating = true ∨ us = 0) (set : t.setIntervalUs us = some t') :
    t'.Inv once calls (if t.started then 0 else expiries) := by
  obtain ⟨t', cut, rfl⟩ := map_eq_some_iff.mp set
  obtain ⟨osTimer, started, -, zero, none⟩ := cut_fields cut
  cases running : t.started with
  | false =>
    rw [running] at started
    have unarmed : t.simpleTimer = Option.none := by
      simpa [running] using inv.consistent.armed
    rw [started]
    exact .of_idle ⟨osTimer.trans unarmed, started, zero⟩ inv.few
  | true =>
    rw [running] at started
    rw [started]
    refine .of_start (Consistent.of_started started).stop.consistent inv.few ?_
    -- a timer that was started once is stopped by the interval 0, the only one it may get
    intro once some
    obtain stopped | again | rfl := allowed
    · exact nomatch running.symm.trans stopped
    · exact nomatch (inv.single once running).symm.trans again
    · exact absurd (none rfl) (by simpa using some)

lemma Inv.counter_lt (inv : t.Inv once calls expiries) (armed : t.simpleTimer ≠ none)
    (long : 0 < t.longIntervalCounterLimit) :
    (t.longIntervalCounter + 1 < t.longIntervalCounterLimit ↔ ¬ t.longIntervalCounterLimit.toNat ∣ expiries + 1) ∧
    (t.longIntervalCounter + 1 < t.longIntervalCounterLimit →
      (t.longIntervalCounter + 1).toNat = (expiries + 1) % t.longIntervalCounterLimit.toNat) := by
  have pos : 0 < t.longIntervalCounterLimit.toNat := UInt16.lt_iff_toNat_lt.mp long
  have bound := t.longIntervalCounterLimit.toNat_lt
  have below := Nat.mod_lt expiries pos
  have next : (t.longIntervalCounter + 1).toNat = expiries % t.longIntervalCounterLimit.toNat + 1 := by
    rw [UInt16.toNat_add, inv.counted armed long]
    exact Nat.mod_eq_of_lt (by change _ + 1 < 2 ^ 16; omega)
  rw [UInt16.lt_iff_toNat_lt, next, Nat.dvd_iff_mod_eq_zero, ← Nat.mod_add_mod]
  refine ⟨⟨fun more => ?_, fun rest => ?_⟩, fun more => (Nat.mod_eq_of_lt more).symm⟩
  · rw [Nat.mod_eq_of_lt more]
    exact Nat.succ_ne_zero _
  · refine Nat.lt_of_le_of_ne below fun all => rest ?_
    rw [all, Nat.mod_self]

end Timer

namespace CallbackTimer

variable {t' : CallbackTimer} {once : Bool} {calls expiries : Nat}

lemma inv_tick (inv : t.timer.Inv once (calls + 1) expiries) :
    t.tick.2.timer.Inv once (calls + t.tick.1.toList.length) expiries := by
  cases set : t.hasCallback with
  | true =>
    obtain ⟨kind, tick⟩ := tick_of_hasCallback set
    rw [tick]
    exact inv
  | false =>
    rw [tick_of_not set]
    exact .of_idle inv.consistent.stop fun once => Nat.le_of_succ_le (inv.few once)

lemma left_eq_some {os os' : OsTimer} (some : left os = some os') : os = os' ∧ os.repeating = true := by
  rw [left] at some
  split at some
  case isTrue again => exact ⟨Option.some.inj some, again⟩
  case isFalse => cases some

lemma inv_expire (inv : t.timer.Inv once calls expiries) (expired : t.expire = some (called, t')) :
    t'.timer.Inv once (calls + called.toList.length) (expiries + 1) := by
  obtain ⟨os, armed, ⟨short, ticked⟩ | ⟨long, more, rfl, rfl⟩ | ⟨long, last, ticked⟩⟩ := expire_cases expired
  all_goals have started := inv.consistent.armed (by simp [armed])
  · obtain ⟨rfl, rfl⟩ := Prod.mk.inj ticked
    refine inv_tick ⟨.of_started started, fun _ long => absurd (short ▸ long) (by decide), ?_, ?_, inv.single⟩
    · exact fun once => Nat.succ_le_succ (Nat.le_of_eq (inv.waiting once os armed).1)
    · intro once os' some
      obtain ⟨rfl, again⟩ := left_eq_some some
      exact nomatch ((inv.waiting once os armed).2 short).symm.trans again
  · have next := (inv.counter_lt (by simp [armed]) long).2 more
    refine ⟨.of_started started, fun _ _ => next, inv.few, ?_, inv.single⟩
    intro once os' some
    obtain ⟨rfl, -⟩ := left_eq_some some
    exact ⟨(inv.waiting once os armed).1, fun short => absurd (short ▸ long) (by decide)⟩
  · have divides := not_imp_comm.mp (inv.counter_lt (by simp [armed]) long).1.mpr last
    obtain ⟨rfl, rfl⟩ := Prod.mk.inj ticked
    refine inv_tick ?_
    cases again : t.timer.repeating with
    | true =>
      have several : ¬ once = true := fun once => nomatch (inv.single once started).symm.trans again
      have goes : completed t.timer os =
          { t.timer with simpleTimer := left os, longIntervalCounter := 0 } := if_pos again
      rw [goes]
      refine ⟨.of_started started, fun _ _ => (Nat.mod_eq_zero_of_dvd divides).symm, ?_, ?_, ?_⟩
      all_goals exact fun once => absurd once several
    | false =>
      have ends : completed t.timer os = Timer.stop
          { t.timer with simpleTimer := left os, longIntervalCounter := 0 } := if_neg (by simp [again])
      rw [ends]
      refine .of_idle (Timer.Consistent.stop (.of_started started)) fun once => ?_
      exact Nat.succ_le_succ (Nat.le_of_eq (inv.waiting once os armed).1)

lemma called_iff (inv : t.timer.Inv once calls expiries) (expired : t.expire = some (called, t'))
    (long : 0 < t.timer.longIntervalCounterLimit) (set : t.hasCallback = true) :
    called.isSome = true ↔ t.timer.longIntervalCounterLimit.toNat ∣ expiries + 1 := by
  obtain ⟨os, armed, ⟨short, -⟩ | ⟨-, more, rfl, -⟩ | ⟨-, last, ticked⟩⟩ := expire_cases expired
  · exact absurd (short ▸ long) (by decide)
  · exact iff_of_false (by simp) ((inv.counter_lt (by simp [armed]) long).1.mp more)
  · have divides := not_imp_comm.mp (inv.counter_lt (by simp [armed]) long).1.mpr last
    obtain ⟨kind, tick⟩ := @tick_of_hasCallback { t with timer := completed t.timer os } set
    obtain ⟨rfl, -⟩ := Prod.mk.inj (ticked.trans tick)
    exact iff_of_true rfl divides

end CallbackTimer

namespace TimerRun

variable {s s' : TimerRun}

abbrev Inv (s : TimerRun) : Prop := s.timer.timer.Inv s.once s.calls s.expiries

lemma Inv.step (inv : Inv s) {e : TimerEvent} (allowed : s.Allowed e) (call : s.step e = some s') : Inv s' := by
  cases e with
  | start repeating =>
    cases call
    exact .of_start inv.consistent (fun _ => Nat.zero_le _) fun once _ => ⟨rfl, by simpa using once⟩
  | startOnce =>
    cases call
    exact .of_start inv.consistent (fun _ => Nat.zero_le _) fun _ _ => ⟨rfl, rfl⟩
  | stop =>
    cases call
    exact inv.stop
  | setInterval us =>
    obtain ⟨t, set, rfl⟩ := map_eq_some_iff.mp call
    exact inv.setInterval allowed set
  | setCallback kind given =>
    cases call
    cases given with
    | true => exact inv
    | false => exact inv.stop
  | expire =>
    obtain ⟨⟨called, t⟩, expired, rfl⟩ := map_eq_some_iff.mp call
    exact CallbackTimer.inv_expire inv expired

/-- If a timer that was started once gets no new interval but 0 while it counts as started, what is promised is kept
in every state of a run from a fresh timer. -/
theorem promised_of_allowed {es : List TimerEvent} (run : Run step Allowed {} es s) : Promised s := by
  have fresh : Inv {} := .of_idle ⟨rfl, rfl, rfl⟩ fun _ => Nat.zero_le _
  have inv : Inv s := run.invariant fresh fun inv allowed call => inv.step allowed call
  exact ⟨inv.few, fun _ _ => CallbackTimer.called_iff inv⟩

theorem promised_of_allowed_minutes : ∃ s, Run step Allowed {} [.setCallback .delegate true, .setInterval 600000000,
    .startOnce, .expire, .expire] s ∧ s.timer.timer.longIntervalCounterLimit = 3 ∧ Promised s :=
  exists_run (fun s => s.timer.timer.longIntervalCounterLimit = 3) (by decide)
    fun _ run limit => ⟨limit, promised_of_allowed run⟩

/-- A new interval makes a timer that was started once call back again and again. -/
theorem once_calls_twice : ¬ ∀ (es : List TimerEvent) (s : TimerRun), Run step Always {} es s → Promised s := by
  intro all
  have twice : ¬ ∀ (es : List TimerEvent) (s : TimerRun), Run step Always {} es s → s.once = true → s.calls ≤ 1 :=
    not_forall_run [.setCallback .delegate true, .setInterval 1000, .startOnce, .setInterval 1000, .expire, .expire]
      (by decide)
  exact twice fun es s run => (all es s run).once

end TimerRun

end Sming
