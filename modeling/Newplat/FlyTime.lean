import Newplat.Readings
import Newplat.Timers

/-! The flight time that newplat counts by its own heartbeats, against the clock of the loop:
it is never ahead, and behind by no more than the time the loop has lost. -/
namespace Newplat

open Base

/-- What has been armed, and the count. -/
structure Counts (A : List (Timer × Int)) (v : Int) (w : World) : Prop where
  arms : armsOf w = A
  count : w.gFlyTime = v

def Counted (v : Int) (w : World) : Prop := w.gFlyTime = v

section Worlds

variable {A : List (Timer × Int)} {v : Int}

theorem counts_aside {a : Action} (aside : ∀ timer msecs, a ≠ .uloopTimeoutSet timer msecs) {w : World}
    (list : List MsgQueue) (held : Counts A v w) :
    Counts A v { w with gMsgList := list, trace := w.trace ++ [a] } :=
  ⟨(armsOf_aside w list aside).trans held.arms, held.count⟩

theorem counts_steady : Steady (Counts A v) where
  connection _ held := ⟨held.arms, held.count⟩
  history quiet held := ⟨(armsOf_quiet quiet).trans held.arms, held.count⟩

theorem counts_sensing : Sensing (Counts A v) := by
  constructor <;> exact fun _ held => ⟨held.arms, held.count⟩

theorem counts_drained : Drained (Counts A v) where
  turn m up held := counts_aside (by simp) _ held
  publish topic data len qos retain ret held := counts_aside (by simp) _ held
  unsupported held := counts_aside (by simp) _ held
  list _ held := ⟨held.arms, held.count⟩

theorem counts_device (r : Popen) : Keeps (Counts A v) (getDeviceId r) :=
  getDeviceId_keeps (fun _ held => ⟨held.arms, held.count⟩) r

/-- A tick has counted before anything can end it. -/
theorem collect_counts (p : Platform) (h : Heartbeat) : Spec (Counts A v) (collect p h)
    (fun _ => Counts A (toInt32 (v + 1))) (Counts A (toInt32 (v + 1))) := by
  have zeroed : Spec (Counts A v) (setUav fun _ => .zero) (fun _ => Counts A v) (Counts A (toInt32 (v + 1))) :=
    spec_modify fun _ held => ⟨held.arms, held.count⟩
  apply spec_bind zeroed
  intro _
  have counted : Spec (Counts A v) (modify fun w => { w with gFlyTime := toInt32 (w.gFlyTime + 1) } : Prog Unit)
      (fun _ => Counts A (toInt32 (v + 1))) (Counts A (toInt32 (v + 1))) := by
    apply spec_modify
    rintro w ⟨arms, rfl⟩
    exact ⟨arms, rfl⟩
  apply spec_bind counted
  intro _
  apply keeps_bind (readModeminfo_keeps counts_sensing p h)
  intro _
  exact readUavinfo_keeps counts_sensing p h

theorem mqttPostRun_counts (p : Platform) (h : Heartbeat) : Spec (Counts A v) (mqttPostRun p h)
    (fun _ => Counts (A ++ [(.mqttPostTimeout, 1000)]) (toInt32 (v + 1))) (Counted (toInt32 (v + 1))) := by
  have halts (w : World) (held : Counts A (toInt32 (v + 1)) w) : Counted (toInt32 (v + 1)) w := held.count
  have add (data : Option Bytes) (report : Option CJson) :
      Keeps (Counts A (toInt32 (v + 1))) (cjsonMsgAdd data report h.postData.add) := by
    apply cjsonMsgAdd_spec (loge_keeps counts_steady.history (by decide) _) data report (counts_device _)
    · exact fun _ held => counts_aside (by simp) _ held
    · exact fun _ held => counts_aside (by simp) _ held
    · exact fun _ held => held
    · exact fun _ held => held
  have built := buildPostData_keeps counts_steady p (fun r _ => counts_device r) add
  apply mqttPostRun_spec p (spec_halting (collect_counts p h) halts) _ (spec_halting built halts)
  · exact fun w held => ⟨by rw [armsOf_set, held.arms], held.count⟩
  · exact fun _ held => counts_aside (by simp) _ held

theorem mqttSendRun_counts (turns : Nat → Turn) : Spec (Counts A v) (mqttSendRun turns)
    (fun _ => Counts (A ++ [(.mqttRunTimeout, 10)]) v) (Counted v) := by
  apply spec_copy
  intro w _
  have drained : Keeps (Counts A v) (sendLoop turns 0 w.gMsgList) :=
    sendLoop_keeps counts_steady counts_drained (fun _ r _ => counts_device r) _ 0
  apply spec_bind (spec_halting drained fun _ held => held.count)
  intro _
  apply spec_modify
  intro w held
  exact ⟨by rw [armsOf_set, held.arms], held.count⟩

theorem mqttBeatInit_counts (uptime : BusAnswer) : Spec (fun w => armsOf w = A) (mqttBeatInit uptime)
    (fun _ => Counts (A ++ [(.mqttPostTimeout, 1000), (.mqttRunTimeout, 1000)])
      (ubusGetInt uptime (CString.lit "uptime") 0)) fun _ => False := by
  intro w held
  refine ⟨?_, rfl⟩
  rw [← held]
  simp [armsOf]

end Worlds

section Rounds

variable {l : Timeouts Timer} {u : Timeout Timer} {fired : List Timer} {A sets : List (Timer × Int)}
  {v v' start : Int} {k : Nat}

/-- A round in which `u` is next: it ends before the timer is taken off, in its handler, or with
everything armed. -/
theorem uloopRound_counts (p : Platform) (t : Round) (first : l.next = some u)
    (handler : Spec (Counts A v) (timerCb p t u.timer) (fun _ => Counts (A ++ sets) v') (Counted v')) :
    Spec (AtRest l fired (Counts A v)) (uloopRound p t)
      (fun _ => AtRest ((l.fire u t.late).setAll t.gaps 0 sets) (fired ++ [u.timer]) (Counted v'))
      fun c => AtRest l fired (Counted v) c ∨ AtRest (l.fire u t.late) (fired ++ [u.timer]) (Counted v') c := by
  have callbacks : Keeps (Counts A v) (runAll mqttCallback t.before) :=
    callbacks_keeps counts_steady fun r _ => counts_device r
  have idle : Spec (AtRest l fired (Counts A v)) (within (runAll mqttCallback t.before))
      (fun _ => AtRest l fired (Counts A v)) fun c => AtRest l fired (Counted v) c ∨
        AtRest (l.fire u t.late) (fired ++ [u.timer]) (Counted v') c :=
    spec_halting (spec_within callbacks) fun c held => Or.inl ⟨held.1.count, held.2⟩
  apply spec_bind idle
  intro _
  apply spec_copy
  rintro c ⟨-, loop, -⟩
  rw [loop, first]
  have taken : Spec (AtRest l fired (Counts A v)) (modify fun c : Clocked World Timer =>
        { c with timeouts := c.timeouts.fire u t.late, fired := c.fired ++ [u.timer] } : UloopProg Unit)
      (fun _ => AtRest (l.fire u t.late) (fired ++ [u.timer]) fun w => armsOf w = A ∧ Counted v w)
      fun c => AtRest l fired (Counted v) c ∨ AtRest (l.fire u t.late) (fired ++ [u.timer]) (Counted v') c := by
    apply spec_modify
    rintro c ⟨held, rfl, rfl⟩
    exact ⟨⟨held.arms, held.count⟩, rfl, rfl⟩
  apply spec_bind taken
  intro _
  have runs : Spec (fun w => armsOf w = A ∧ Counted v w) (timerCb p t u.timer)
      (fun _ w => armsOf w = A ++ sets ∧ Counted v' w) (Counted v') :=
    spec_weaken handler (fun _ held => ⟨held.1, held.2⟩) (fun _ _ held => ⟨held.arms, held.count⟩)
      fun _ held => held
  exact spec_halting (spec_timed runs) fun c held => Or.inr held

/-- The count is the start's and one for each heartbeat, and these are even but for `k`
milliseconds that were lost. -/
structure OnTime (start v : Int) (k : Nat) (c : Clocked World Timer) : Prop where
  count : c.state.gFlyTime = toInt32 (v + c.fired.count .mqttPostTimeout)
  paced : c.timeouts.Paced .mqttPostTimeout start 1000 k (c.fired.count .mqttPostTimeout)

structure InPace (start v : Int) (k : Nat) (c : Clocked World Timer) : Prop extends OnTime start v k c where
  pending : ∀ timer, c.timeouts.Pending timer

theorem onTime_more {more : Nat} {c : Clocked World Timer} (onTime : OnTime start v k c) (le : k ≤ more) :
    OnTime start v more c :=
  ⟨onTime.count, Timeouts.paced_more onTime.paced le⟩

def Round.lost (k : Nat) (t : Round) : Nat := k + t.late + t.gaps 0

theorem toInt32_succ (x : Int) : toInt32 (toInt32 x + 1) = toInt32 (x + 1) := by
  simp [toInt32]

/-- The heartbeat is next. -/
theorem post_inPace {c : Clocked World Timer} (inPace : InPace start v k c) (p : Platform) (t : Round)
    (first : c.timeouts.next = some u) (timer : u.timer = .mqttPostTimeout) :
    Spec (fun c' => c' = c) (uloopRound p t) (fun _ => InPace start v (t.lost k)) (OnTime start v (t.lost k)) := by
  have runs : Spec (Counts (armsOf c.state) c.state.gFlyTime) (timerCb p t u.timer)
      (fun _ => Counts (armsOf c.state ++ [(u.timer, 1000)]) (toInt32 (c.state.gFlyTime + 1)))
      (Counted (toInt32 (c.state.gFlyTime + 1))) := by
    rw [timer]
    exact mqttPostRun_counts p t.heartbeat
  have again : (c.fired ++ [u.timer]).count .mqttPostTimeout = c.fired.count .mqttPostTimeout + 1 := by
    simp [timer]
  have total : toInt32 (c.state.gFlyTime + 1) =
      toInt32 (v + ((c.fired ++ [u.timer]).count .mqttPostTimeout : Nat)) := by
    rw [inPace.count, toInt32_succ, again, Nat.cast_succ, add_assoc]
  have resting : AtRest c.timeouts c.fired (Counts (armsOf c.state) c.state.gFlyTime) c := ⟨⟨rfl, rfl⟩, rfl, rfl⟩
  apply spec_at _ resting
  apply spec_weaken (uloopRound_counts p t first runs)
  · exact fun _ held => held
  · rintro _ c' ⟨counted, loop, firings⟩
    have set : c'.timeouts = (c.timeouts.fire u t.late).set (t.gaps 0) u.timer 1000 := loop
    refine ⟨⟨?_, ?_⟩, ?_⟩
    · rw [firings]
      exact counted.trans total
    · rw [set, firings, again, timer]
      exact Timeouts.paced_again (by decide) inPace.paced first timer _ _
    · rw [set]
      exact pending_again inPace.pending u _ _ _
  · rintro c' (⟨counted, loop, firings⟩ | ⟨counted, loop, firings⟩)
    · apply onTime_more _ (Nat.le_add_right_of_le (Nat.le_add_right k t.late))
      exact ⟨by rw [firings]; exact counted.trans inPace.count, by rw [firings, loop]; exact inPace.paced⟩
    · apply onTime_more _ (Nat.le_add_right (k + t.late) (t.gaps 0))
      refine ⟨by rw [firings]; exact counted.trans total, ?_⟩
      rw [firings, loop, again]
      exact Timeouts.paced_fire (by decide) inPace.paced first timer _

/-- The drain is next. -/
theorem send_inPace {c : Clocked World Timer} (inPace : InPace start v k c) (p : Platform) (t : Round)
    (first : c.timeouts.next = some u) (timer : u.timer = .mqttRunTimeout) :
    Spec (fun c' => c' = c) (uloopRound p t) (fun _ => InPace start v (t.lost k)) (OnTime start v (t.lost k)) := by
  have runs : Spec (Counts (armsOf c.state) c.state.gFlyTime) (timerCb p t u.timer)
      (fun _ => Counts (armsOf c.state ++ [(u.timer, 10)]) c.state.gFlyTime) (Counted c.state.gFlyTime) := by
    rw [timer]
    exact mqttSendRun_counts t.turns
  have same : (c.fired ++ [u.timer]).count .mqttPostTimeout = c.fired.count .mqttPostTimeout := by
    simp [timer]
  have late := Timeouts.paced_taken inPace.paced (inPace.pending _) first t.late
  have resting : AtRest c.timeouts c.fired (Counts (armsOf c.state) c.state.gFlyTime) c := ⟨⟨rfl, rfl⟩, rfl, rfl⟩
  apply spec_at _ resting
  apply spec_weaken (uloopRound_counts p t first runs)
  · exact fun _ held => held
  · rintro _ c' ⟨counted, loop, firings⟩
    have set : c'.timeouts = (c.timeouts.fire u t.late).set (t.gaps 0) u.timer 10 := loop
    refine ⟨⟨?_, ?_⟩, ?_⟩
    · rw [firings, same]
      exact counted.trans inPace.count
    · rw [set, firings, same]
      exact Timeouts.paced_set_other late _ _ (by simp [timer])
    · rw [set]
      exact pending_again inPace.pending u _ _ _
  · rintro c' (⟨counted, loop, firings⟩ | ⟨counted, loop, firings⟩)
    · apply onTime_more _ (Nat.le_add_right_of_le (Nat.le_add_right k t.late))
      exact ⟨by rw [firings]; exact counted.trans inPace.count, by rw [firings, loop]; exact inPace.paced⟩
    · apply onTime_more _ (Nat.le_add_right (k + t.late) (t.gaps 0))
      exact ⟨by rw [firings, same]; exact counted.trans inPace.count, by rw [firings, same, loop]; exact late⟩

theorem uloopRound_inPace (p : Platform) (t : Round) :
    Spec (InPace start v k) (uloopRound p t) (fun _ => InPace start v (t.lost k)) (OnTime start v (t.lost k)) := by
  intro c inPace
  obtain ⟨w, member, -⟩ := inPace.pending .mqttPostTimeout
  have found := List.isSome_minOn?_of_mem (f := Timeout.expiry) member
  obtain ⟨u, first⟩ := Option.isSome_iff_exists.mp found
  cases timer : u.timer with
  | mqttPostTimeout => exact post_inPace inPace p t first timer c rfl
  | mqttRunTimeout => exact send_inPace inPace p t first timer c rfl

end Rounds

/-- What a run loses: the time of `mqtt_beat_init`, the lateness of each round, and the time its
handler takes before it arms its timer again. -/
def lostTime (gaps : Nat → Nat) (rounds : List Round) : Nat :=
  rounds.foldl Round.lost (gaps 0 + gaps 1)

theorem mqttBeatInit_inPace (w : World) (now : Int) (uptime : BusAnswer) (gaps : Nat → Nat) :
    Spec (fun c => c = beforeBeat w now) (timed armsOf gaps (mqttBeatInit uptime))
      (fun _ => InPace now (ubusGetInt uptime (CString.lit "uptime") 0) (gaps 0 + gaps 1)) fun _ => False := by
  have fits := toInt32_fits (ubusGetInt_fits uptime (CString.lit "uptime"))
  have init : Spec (fun w => armsOf w = [] ∧ True) (mqttBeatInit uptime)
      (fun _ w => armsOf w = [] ++ [(.mqttPostTimeout, 1000), (.mqttRunTimeout, 1000)] ∧
        Counted (ubusGetInt uptime (CString.lit "uptime") 0) w) fun _ => False := by
    apply spec_weaken (mqttBeatInit_counts uptime)
    · exact fun _ held => held.1
    · exact fun _ _ held => ⟨held.arms, held.count⟩
    · exact fun _ never => never
  have resting : AtRest ⟨now, []⟩ [] (fun w => armsOf w = [] ∧ True) (beforeBeat w now) :=
    ⟨⟨rfl, trivial⟩, rfl, rfl⟩
  apply spec_at _ resting
  apply spec_weaken (spec_timed init)
  · exact fun _ held => held
  · rintro _ c ⟨counted, loop, firings⟩
    have set : c.timeouts = ((⟨now, []⟩ : Timeouts Timer).set (gaps 0) .mqttPostTimeout 1000).set (gaps 1)
      .mqttRunTimeout 1000 := loop
    have first : ((⟨now, []⟩ : Timeouts Timer).set (gaps 0) .mqttPostTimeout 1000).Paced .mqttPostTimeout now 1000
        (gaps 0) 0 := by
      constructor
      · simp [Timeouts.set]
      · simp only [Timeouts.set]
        omega
      · intro u member _
        simp only [Timeouts.set, List.filter_nil, List.nil_append, List.mem_singleton] at member
        subst member
        dsimp only
        omega
    refine ⟨⟨?_, ?_⟩, ?_⟩
    · rw [firings]
      simp only [List.count_nil, Nat.cast_zero, add_zero, fits]
      exact counted
    · rw [set, firings]
      exact Timeouts.paced_set_other first _ _ (by decide)
    · rw [set]
      rintro (_ | _)
      · exact Timeouts.pending_set_other (Timeouts.pending_set _ _ _ _) (by decide) _ _
      · exact Timeouts.pending_set _ _ _ _
  · rintro c ⟨never, -⟩
    exact never.elim

/-- In every run of the loop, however long the handlers take and wherever one ends the program,
the count is the uptime at the start and one for each heartbeat. It never runs ahead of the
clock, and what it is behind, but for the second that has begun, is time the loop has lost. -/
theorem fly_time_keeps_pace (p : Platform) (w : World) (now : Int) (uptime : BusAnswer) (gaps : Nat → Nat)
    (rounds : List Round) :
    let c := leaves (uloopRun p uptime gaps rounds (beforeBeat w now))
    let beats := c.fired.count .mqttPostTimeout
    c.state.gFlyTime = toInt32 (ubusGetInt uptime (CString.lit "uptime") 0 + beats) ∧
      now + 1000 * beats ≤ c.timeouts.now ∧
      c.timeouts.now ≤ now + 1000 * (beats + 1) + lostTime gaps rounds := by
  let v := ubusGetInt uptime (CString.lit "uptime") 0
  have passes : Passes (fun k t => Round.lost k t ≤ lostTime gaps rounds) Round.lost (gaps 0 + gaps 1) rounds :=
    passes_below (fun k (t : Round) => Nat.le_add_right_of_le (Nat.le_add_right k t.late)) _ _
  have runs : Spec (InPace now v (gaps 0 + gaps 1)) (runAll (uloopRound p) rounds)
      (fun _ => InPace now v (lostTime gaps rounds)) (OnTime now v (lostTime gaps rounds)) :=
    spec_passes passes fun t _ k within => spec_halting (uloopRound_inPace p t) fun c onTime =>
      onTime_more onTime within
  have all : Spec (fun c => c = beforeBeat w now) (uloopRun p uptime gaps rounds)
      (fun _ => OnTime now v (lostTime gaps rounds)) (OnTime now v (lostTime gaps rounds)) := by
    apply spec_bind (spec_halting (mqttBeatInit_inPace w now uptime gaps) fun _ never => never.elim)
    intro _
    exact spec_post runs fun _ _ inPace => inPace.toOnTime
  have onTime : OnTime now v (lostTime gaps rounds) (leaves (uloopRun p uptime gaps rounds (beforeBeat w now))) :=
    (spec_leaves all rfl).elim id id
  exact ⟨onTime.count, onTime.paced.passed, onTime.paced.behind⟩

end Newplat
