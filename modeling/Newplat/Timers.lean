import Newplat.Base.Timeouts
import Newplat.Queue

/-! The two timers of json.c under uloop: a heartbeat every second and a drain every ten
milliseconds, each armed anew at its handler's end. However long a handler takes, no second
heartbeat comes before a drain. -/
namespace Newplat

open Base

/-- The calls of `uloop_timeout_set` so far. -/
def armsOf (w : World) : List (Timer × Int) :=
  w.trace.filterMap fun
    | .uloopTimeoutSet timer msecs => some (timer, msecs)
    | _ => none

/-- A round of the loop: the callbacks of the network thread before it, how late it comes, how
long the handler runs before it arms its timer, and what the handler meets. -/
structure Round where
  before : List Callback
  late : Nat
  gaps : Nat → Nat
  heartbeat : Heartbeat
  turns : Nat → Turn

/-- The `cb` of each timer. -/
def timerCb (p : Platform) (t : Round) : Timer → Prog Unit
  | .mqttPostTimeout => mqttPostRun p t.heartbeat
  | .mqttRunTimeout => mqttSendRun t.turns

abbrev UloopProg := EStateM Halt (Clocked World Timer)

def uloopRound (p : Platform) (t : Round) : UloopProg Unit := do
  within (runAll mqttCallback t.before)
  fireNext armsOf (timerCb p t) t.late t.gaps

def uloopRun (p : Platform) (uptime : BusAnswer) (gaps : Nat → Nat) (rounds : List Round) : UloopProg Unit := do
  let _ ← timed armsOf gaps (mqttBeatInit uptime)
  runAll (uloopRound p) rounds

section Worlds

variable {A : List (Timer × Int)} {l : List MsgQueue} {n : Nat}

/-- What has been armed, and how many messages wait. -/
structure Waiting (A : List (Timer × Int)) (n : Nat) (w : World) : Prop where
  arms : armsOf w = A
  list : w.gMsgList.length ≤ n

def AtMost (n : Nat) (w : World) : Prop := w.gMsgList.length ≤ n

theorem armsOf_set (w : World) (timer : Timer) (msecs : Int) :
    armsOf { w with trace := w.trace ++ [.uloopTimeoutSet timer msecs] } = armsOf w ++ [(timer, msecs)] := by
  simp [armsOf]

theorem armsOf_aside (w : World) (list : List MsgQueue) {a : Action}
    (aside : ∀ timer msecs, a ≠ .uloopTimeoutSet timer msecs) :
    armsOf { w with gMsgList := list, trace := w.trace ++ [a] } = armsOf w := by
  cases a <;> first | exact absurd rfl (aside _ _) | simp [armsOf]

theorem armsOf_quiet {w : World} {a : Action} (quiet : a.loud = false) :
    armsOf { w with trace := w.trace ++ [a] } = armsOf w := by
  apply armsOf_aside w w.gMsgList
  rintro timer msecs rfl
  cases quiet

theorem waiting_steady : Steady (Waiting A n) where
  connection _ held := ⟨held.arms, held.list⟩
  history quiet held := ⟨(armsOf_quiet quiet).trans held.arms, held.list⟩

theorem waiting_sampled : Sampled (Waiting A n) := by
  constructor <;> exact fun _ held => ⟨held.arms, held.list⟩

theorem waiting_aside {a : Action} (aside : ∀ timer msecs, a ≠ .uloopTimeoutSet timer msecs) {w : World}
    (held : Waiting A n w) : Waiting A n { w with trace := w.trace ++ [a] } :=
  ⟨(armsOf_aside w w.gMsgList aside).trans held.arms, held.list⟩

theorem waiting_device (r : Popen) : Keeps (Waiting A n) (getDeviceId r) :=
  getDeviceId_keeps (fun _ held => ⟨held.arms, held.list⟩) r

theorem callbacks_waiting (cs : List Callback) : Keeps (Waiting A n) (runAll mqttCallback cs) :=
  callbacks_keeps waiting_steady fun r _ => waiting_device r

/-- A heartbeat queues at most one message, and arms its timer once. -/
theorem mqttPostRun_waiting (p : Platform) (h : Heartbeat) : Spec (Waiting A 0) (mqttPostRun p h)
    (fun _ => Waiting (A ++ [(.mqttPostTimeout, 1000)]) 1) (AtMost 1) := by
  have halts : ∀ w, Waiting A 0 w → AtMost 1 w := fun w held => held.list.trans (Nat.zero_le 1)
  have add (data : Option Bytes) (report : Option CJson) : Spec (Waiting A 0)
      (cjsonMsgAdd data report h.postData.add) (fun _ => Waiting A 1) (AtMost 1) := by
    apply cjsonMsgAdd_spec (loge_keeps waiting_steady.history (by decide) _) data report (waiting_device _)
    · exact fun _ held => waiting_aside (by simp) held
    · intro w m held
      refine ⟨(armsOf_aside w _ (by simp)).trans held.arms, ?_⟩
      have list := held.list
      simp only [List.length_append, List.length_singleton]
      omega
    · exact fun w held => ⟨held.arms, held.list.trans (Nat.zero_le 1)⟩
    · exact halts
  have built := buildPostData_spec waiting_steady p (fun r _ => waiting_device r) add halts
  apply mqttPostRun_spec p (spec_halting (collect_keeps waiting_sampled p h) halts) _ built
  · exact fun w held => ⟨by rw [armsOf_set, held.arms], held.list⟩
  · exact fun _ held => waiting_aside (by simp) held

/-- The messages that wait, exactly. -/
structure Lists (A : List (Timer × Int)) (l : List MsgQueue) (w : World) : Prop where
  arms : armsOf w = A
  list : w.gMsgList = l

theorem lists_steady : Steady (Lists A l) where
  connection _ held := ⟨held.arms, held.list⟩
  history quiet held := ⟨(armsOf_quiet quiet).trans held.arms, held.list⟩

theorem lists_aside {a : Action} (aside : ∀ timer msecs, a ≠ .uloopTimeoutSet timer msecs) {w : World}
    (held : Lists A l w) : Lists A l { w with trace := w.trace ++ [a] } :=
  ⟨(armsOf_aside w w.gMsgList aside).trans held.arms, held.list⟩

theorem lists_atMost (short : l.length ≤ n) (w : World) (held : Lists A l w) : AtMost n w := by
  rw [AtMost, held.list]
  exact short

theorem sendTurn_lists (t : Turn) (m : MsgQueue) (rest : List MsgQueue) (short : (m :: rest).length ≤ n) :
    Spec (Lists A (m :: rest)) (sendTurn t m) (fun _ => Lists A rest) (AtMost n) := by
  have step {α : Type} {c : Prog α} (keeps : Keeps (Lists A (m :: rest)) c) :
      Spec (Lists A (m :: rest)) c (fun _ => Lists A (m :: rest)) (AtMost n) :=
    spec_halting keeps (lists_atMost short)
  have callbacks : Keeps (Lists A (m :: rest)) (runAll mqttCallback t.before) :=
    callbacks_keeps lists_steady fun r _ => getDeviceId_keeps (fun _ held => ⟨held.arms, held.list⟩) r
  have publish (data : CString) : Keeps (Lists A (m :: rest))
      (doTtyMsgPublish data (toInt32 data.length) m.sendTopic t.publish) :=
    doTtyMsgPublish_keeps (fun _ args other => loge_keeps lists_steady.history other args)
      (fun _ _ _ _ _ _ held => lists_aside (by simp) held) (fun held => lists_aside (by simp) held) data _ _ _
  have unlinked : Spec (Lists A (m :: rest)) (listDel m) (fun _ => Lists A rest) (AtMost n) := by
    apply spec_modify
    intro w held
    exact ⟨held.arms, by simp [held.list]⟩
  apply spec_bind (step callbacks)
  intro _
  apply spec_copy
  intro w _
  apply spec_bind (step (keeps_act fun _ held => lists_aside (by simp) held))
  intro _
  split
  · exact spec_bind (step (publish _)) fun _ => unlinked
  · exact unlinked

theorem sendLoop_lists (turns : Nat → Turn) (k : Nat) (ms : List MsgQueue) (short : ms.length ≤ n) :
    Spec (Lists A ms) (sendLoop turns k ms) (fun _ => Lists A []) (AtMost n) := by
  induction ms generalizing k with
  | nil => exact spec_pure fun _ held => held
  | cons m rest ih =>
    apply spec_bind (sendTurn_lists (turns k) m rest short)
    intro _
    exact ih (k + 1) ((Nat.le_succ _).trans short)

/-- A drain leaves no message, and arms its timer once. -/
theorem mqttSendRun_waiting (turns : Nat → Turn) : Spec (Waiting A n) (mqttSendRun turns)
    (fun _ => Waiting (A ++ [(.mqttRunTimeout, 10)]) 0) (AtMost n) := by
  apply spec_get
  rintro w held
  apply spec_bind (spec_at (sendLoop_lists turns 0 w.gMsgList held.list) ⟨held.arms, rfl⟩)
  intro _
  apply spec_modify
  intro w' empty
  exact ⟨by rw [armsOf_set, empty.arms], by simp [empty.list]⟩

theorem mqttBeatInit_waiting (uptime : BusAnswer) : Spec (Waiting A n) (mqttBeatInit uptime)
    (fun _ => Waiting (A ++ [(.mqttPostTimeout, 1000), (.mqttRunTimeout, 1000)]) n) fun _ => False := by
  intro w held
  refine ⟨?_, held.list⟩
  rw [← held.arms]
  simp [armsOf]

end Worlds

section Rounds

variable {l : Timeouts Timer} {u : Timeout Timer} {fired : List Timer} {A sets : List (Timer × Int)} {n m k : Nat}

/-- A round in which `u` is next, by what its handler does. -/
theorem uloopRound_fires (p : Platform) (t : Round) (first : l.next = some u) (short : n ≤ k)
    (handler : Spec (Waiting A n) (timerCb p t u.timer) (fun _ => Waiting (A ++ sets) m) (AtMost k)) :
    Spec (AtRest l fired (Waiting A n)) (uloopRound p t)
      (fun _ => AtRest ((l.fire u t.late).setAll t.gaps 0 sets) (fired ++ [u.timer]) (AtMost m))
      fun c => AtMost k c.state ∧ (c.fired = fired ∨ c.fired = fired ++ [u.timer]) := by
  have idle : Spec (AtRest l fired (Waiting A n)) (within (runAll mqttCallback t.before))
      (fun _ => AtRest l fired (Waiting A n))
      fun c => AtMost k c.state ∧ (c.fired = fired ∨ c.fired = fired ++ [u.timer]) :=
    spec_halting (spec_within (callbacks_waiting t.before)) fun c held =>
      ⟨held.1.list.trans short, Or.inl held.2.2⟩
  apply spec_bind idle
  intro _
  apply spec_copy
  rintro c ⟨-, loop, -⟩
  rw [loop, first]
  have taken : Spec (AtRest l fired (Waiting A n)) (modify fun c : Clocked World Timer =>
        { c with timeouts := c.timeouts.fire u t.late, fired := c.fired ++ [u.timer] } : UloopProg Unit)
      (fun _ => AtRest (l.fire u t.late) (fired ++ [u.timer]) fun w => armsOf w = A ∧ AtMost n w)
      fun c => AtMost k c.state ∧ (c.fired = fired ∨ c.fired = fired ++ [u.timer]) := by
    apply spec_modify
    rintro c ⟨held, rfl, rfl⟩
    exact ⟨⟨held.arms, held.list⟩, rfl, rfl⟩
  apply spec_bind taken
  intro _
  have runs : Spec (fun w => armsOf w = A ∧ AtMost n w) (timerCb p t u.timer)
      (fun _ w => armsOf w = A ++ sets ∧ AtMost m w) (AtMost k) :=
    spec_weaken handler (fun _ held => ⟨held.1, held.2⟩) (fun _ _ held => ⟨held.arms, held.list⟩)
      fun _ held => held
  exact spec_halting (spec_timed runs) fun c held => ⟨held.1, Or.inr held.2.2⟩

/-- Every firing so far was in turn: a heartbeat finds the queue empty, and after one the
drain is next. -/
structure InTurn (c : Clocked World Timer) : Prop where
  soon : c.timeouts.Within 1000
  pending : ∀ timer, c.timeouts.Pending timer
  separated : Separated .mqttPostTimeout .mqttRunTimeout c.fired
  turn : AtMost 0 c.state ∧ Answered .mqttPostTimeout .mqttRunTimeout c.fired ∨
    AtMost 1 c.state ∧ ∃ u, c.timeouts.next = some u ∧ u.timer = .mqttRunTimeout

/-- What is left when a handler ends the program. -/
def Bounded (c : Clocked World Timer) : Prop :=
  Separated .mqttPostTimeout .mqttRunTimeout c.fired ∧ AtMost 1 c.state

theorem inTurn_atMost {c : Clocked World Timer} (inTurn : InTurn c) : AtMost 1 c.state := by
  rcases inTurn.turn with ⟨none, -⟩ | ⟨one, -⟩
  · exact none.trans (Nat.zero_le 1)
  · exact one

/-- After a handler that arms its own timer again both are pending. -/
theorem pending_again (pending : ∀ timer, l.Pending timer) (u : Timeout Timer) (late gap : Nat) (msecs : Int)
    (timer : Timer) : ((l.fire u late).set gap u.timer msecs).Pending timer := by
  by_cases own : timer = u.timer
  · rw [own]
    exact Timeouts.pending_set _ _ _ _
  · exact Timeouts.pending_set_other (Timeouts.pending_fire (pending timer) own late) own gap msecs

/-- The heartbeat is next: the queue is empty, and afterwards the drain is next. -/
theorem post_inTurn {c : Clocked World Timer} (inTurn : InTurn c) (p : Platform) (t : Round)
    (first : c.timeouts.next = some u) (timer : u.timer = .mqttPostTimeout) :
    Spec (fun c' => c' = c) (uloopRound p t) (fun _ => InTurn) Bounded := by
  obtain ⟨soon, pending, separated, turn⟩ := inTurn
  rcases turn with ⟨none, answered⟩ | ⟨-, w, next, drain⟩
  · have runs : Spec (Waiting (armsOf c.state) 0) (timerCb p t u.timer)
        (fun _ => Waiting (armsOf c.state ++ [(u.timer, 1000)]) 1) (AtMost 1) := by
      rw [timer]
      exact mqttPostRun_waiting p t.heartbeat
    have again : Separated .mqttPostTimeout .mqttRunTimeout (c.fired ++ [u.timer]) := by
      rw [timer]
      exact separated_snoc separated answered
    have soon' : (c.timeouts.fire u t.late).Within 1000 := Timeouts.within_fire soon u t.late
    have apart : Timer.mqttRunTimeout ≠ u.timer := by simp [timer]
    have resting : AtRest c.timeouts c.fired (Waiting (armsOf c.state) 0) c := ⟨⟨rfl, none⟩, rfl, rfl⟩
    apply spec_at _ resting
    apply spec_weaken (uloopRound_fires p t first (Nat.zero_le 1) runs)
    · exact fun _ held => held
    · rintro _ c' ⟨one, loop, firings⟩
      have set : c'.timeouts = (c.timeouts.fire u t.late).set (t.gaps 0) u.timer 1000 := loop
      obtain ⟨v, next, drain⟩ := Timeouts.next_set (Timeouts.pending_fire (pending _) apart t.late) apart soon'
        (t.gaps 0)
      constructor
      · rw [set]
        exact Timeouts.within_set soon' _ _ le_rfl
      · rw [set]
        exact pending_again pending u _ _ _
      · rw [firings]
        exact again
      · refine Or.inr ⟨one, v, by rw [set, next], ?_⟩
        cases other : v.timer with
        | mqttPostTimeout => exact absurd (other.trans timer.symm) drain
        | mqttRunTimeout => rfl
    · rintro c' ⟨one, same | new⟩
      · exact ⟨same ▸ separated, one⟩
      · exact ⟨new ▸ again, one⟩
  · cases first.symm.trans next
    cases timer.symm.trans drain

/-- The drain is next: it leaves the queue empty. -/
theorem send_inTurn {c : Clocked World Timer} (inTurn : InTurn c) (p : Platform) (t : Round)
    (first : c.timeouts.next = some u) (timer : u.timer = .mqttRunTimeout) :
    Spec (fun c' => c' = c) (uloopRound p t) (fun _ => InTurn) Bounded := by
  have one := inTurn_atMost inTurn
  obtain ⟨soon, pending, separated, -⟩ := inTurn
  have runs : Spec (Waiting (armsOf c.state) 1) (timerCb p t u.timer)
      (fun _ => Waiting (armsOf c.state ++ [(u.timer, 10)]) 0) (AtMost 1) := by
    rw [timer]
    exact mqttSendRun_waiting t.turns
  have other : Separated .mqttPostTimeout .mqttRunTimeout (c.fired ++ [u.timer]) := by
    rw [timer]
    exact separated_other separated (by decide)
  have soon' : (c.timeouts.fire u t.late).Within 1000 := Timeouts.within_fire soon u t.late
  have resting : AtRest c.timeouts c.fired (Waiting (armsOf c.state) 1) c := ⟨⟨rfl, one⟩, rfl, rfl⟩
  apply spec_at _ resting
  apply spec_weaken (uloopRound_fires p t first le_rfl runs)
  · exact fun _ held => held
  · rintro _ c' ⟨none, loop, firings⟩
    have set : c'.timeouts = (c.timeouts.fire u t.late).set (t.gaps 0) u.timer 10 := loop
    constructor
    · rw [set]
      exact Timeouts.within_set soon' _ _ (by decide)
    · rw [set]
      exact pending_again pending u _ _ _
    · rw [firings]
      exact other
    · refine Or.inl ⟨none, ?_⟩
      rw [firings, timer]
      exact answered_snoc (by decide) _
  · rintro c' ⟨one, same | new⟩
    · exact ⟨same ▸ separated, one⟩
    · exact ⟨new ▸ other, one⟩

theorem uloopRound_inTurn (p : Platform) (t : Round) :
    Spec InTurn (uloopRound p t) (fun _ => InTurn) Bounded := by
  intro c inTurn
  obtain ⟨v, member, -⟩ := inTurn.pending .mqttPostTimeout
  have found := List.isSome_minOn?_of_mem (f := Timeout.expiry) member
  obtain ⟨u, first⟩ := Option.isSome_iff_exists.mp found
  cases timer : u.timer with
  | mqttPostTimeout => exact post_inTurn inTurn p t first timer c rfl
  | mqttRunTimeout => exact send_inTurn inTurn p t first timer c rfl

end Rounds

/-- The program's state when `mqtt_beat_init` is called, at a time of the loop's clock. -/
def beforeBeat (w : World) (now : Int) : Clocked World Timer := ⟨w.idle, ⟨now, []⟩, []⟩

theorem mqttBeatInit_inTurn (w : World) (now : Int) (uptime : BusAnswer) (gaps : Nat → Nat) :
    Spec (fun c => c = beforeBeat w now) (timed armsOf gaps (mqttBeatInit uptime)) (fun _ => InTurn) Bounded := by
  have init : Spec (fun w => armsOf w = [] ∧ AtMost 0 w) (mqttBeatInit uptime)
      (fun _ w => armsOf w = [] ++ [(.mqttPostTimeout, 1000), (.mqttRunTimeout, 1000)] ∧ AtMost 0 w)
      fun _ => False :=
    spec_weaken (mqttBeatInit_waiting uptime) (fun _ held => ⟨held.1, held.2⟩)
      (fun _ _ held => ⟨held.arms, held.list⟩) fun _ never => never
  have resting : AtRest ⟨now, []⟩ [] (fun w => armsOf w = [] ∧ AtMost 0 w) (beforeBeat w now) :=
    ⟨⟨rfl, Nat.le_refl 0⟩, rfl, rfl⟩
  apply spec_at _ resting
  apply spec_weaken (spec_timed init)
  · exact fun _ held => held
  · rintro _ c ⟨none, loop, firings⟩
    have start : (⟨now, []⟩ : Timeouts Timer).Within 1000 := by simp [Timeouts.Within]
    have set : c.timeouts = ((⟨now, []⟩ : Timeouts Timer).set (gaps 0) .mqttPostTimeout 1000).set (gaps 1)
      .mqttRunTimeout 1000 := loop
    constructor
    · rw [set]
      exact Timeouts.within_set (Timeouts.within_set start _ _ le_rfl) _ _ le_rfl
    · rw [set]
      rintro (_ | _)
      · exact Timeouts.pending_set_other (Timeouts.pending_set _ _ _ _) (by decide) _ _
      · exact Timeouts.pending_set _ _ _ _
    · rw [firings]
      rintro before between after same
      simp at same
    · refine Or.inl ⟨none, ?_⟩
      rw [firings]
      rintro before since same
      simp at same
  · rintro c ⟨never, -⟩
    exact never.elim

/-- In every run of the loop, however long the handlers take and whenever the connection comes
and goes, a drain runs between any two heartbeats, and no more than one message waits. -/
theorem one_message_waits (p : Platform) (w : World) (now : Int) (uptime : BusAnswer) (gaps : Nat → Nat)
    (rounds : List Round) :
    let c := leaves (uloopRun p uptime gaps rounds (beforeBeat w now))
    Separated .mqttPostTimeout .mqttRunTimeout c.fired ∧ c.state.gMsgList.length ≤ 1 := by
  have runs : Spec InTurn (runAll (uloopRound p) rounds) (fun _ => InTurn) Bounded :=
    spec_runAll fun t _ => uloopRound_inTurn p t
  have all : Spec (fun c => c = beforeBeat w now) (uloopRun p uptime gaps rounds) (fun _ => InTurn) Bounded :=
    spec_bind (mqttBeatInit_inTurn w now uptime gaps) fun _ => runs
  rcases spec_leaves all rfl with inTurn | bounded
  · exact ⟨inTurn.separated, inTurn_atMost inTurn⟩
  · exact bounded

end Newplat
