import Newplat.Identity

/-! The subscription of a session. A connection subscribes when it is made, if the identity is
known by then; an identity found later, over the same connection, is subscribed by nothing. -/
namespace Newplat

open Base

def Action.session : Action → List CString → List CString
  | .uavMqttConnected, _ => []
  | .mosquittoSubscribe topic _ ret, topics => if ret = 0 then topics ++ [topic] else topics
  | _, topics => topics

/-- What the current session is subscribed to. A new one starts without subscriptions. -/
def sessionOf (trace : List Action) : List CString := trace.foldl (fun topics a => a.session topics) []

@[simp] theorem sessionOf_snoc (trace : List Action) (a : Action) :
    sessionOf (trace ++ [a]) = a.session (sessionOf trace) := by
  simp [sessionOf]

def replyTopic (id : CString) (subscribeTopic : Option CString) : CString :=
  CString.lit "/paas/" ++ getProductKey ++ CString.lit "/" ++ id ++ CString.lit "/" ++
    printString subscribeTopic

def Subscribed (w : World) : Prop :=
  ∀ id, w.gMqttCtx.connectedUav = true → cstr w.gDeviceId = .ok id → id ≠ CString.empty →
    replyTopic id w.gMqttCtx.subscribeTopic ∈ sessionOf w.trace

theorem paasTopic_whole {id : CString} {topic : Option CString} (fits : (replyTopic id topic).length ≤ 79) :
    paasTopic id topic = replyTopic id topic := by
  have cut : (paasTopic id topic).bytes = (replyTopic id topic).bytes.take 79 := rfl
  rw [List.take_of_length_le fits] at cut
  exact CString.ext cut

/-- What matters to the subscription: whether the identity is known, and the connection up. -/
structure Phase where
  known : Bool
  up : Bool

def Phase.of (w : World) : Phase := ⟨decide (w.gDeviceId.head? ≠ some 0), w.gMqttCtx.connectedUav⟩

def Phase.next (own : Option Nat) (f : Phase) : Moment → Phase
  | .callback (.connect mosq _ first _ _) => ⟨f.known || first.found, f.up || decide (some mosq = own)⟩
  | .callback (.disconnect mosq _) => ⟨f.known, f.up && decide (some mosq ≠ own)⟩
  | .read r => ⟨f.known || r.found, f.up⟩

/-- The command does not find the identity over a connection made without it. -/
def Phase.Settled (f : Phase) (r : Popen) : Prop := f.up = true → f.known = false → r.found = false

/-- A connection that subscribes has room for the topic; no other moment finds the identity
over a connection made without it. -/
def Phase.Smooth (own : Option Nat) (fits : Prop) (f : Phase) : Moment → Prop
  | .callback (.connect mosq _ first _ _) =>
    if some mosq = own then (f.known || first.found) = true → fits else f.Settled first
  | .callback (.disconnect _ _) => True
  | .read r => f.Settled r

def Callback.Granted : Callback → Prop
  | .connect _ _ _ _ subscribe => subscribe = 0
  | .disconnect _ _ => True

def Moment.Granted : Moment → Prop
  | .callback c => c.Granted
  | .read _ => True

/-- Every call of `mosquitto_subscribe` succeeds. -/
def Event.Granted : Event → Prop
  | .msgAdd _ _ => True
  | .post h => ∀ m ∈ h.postData.moments, m.Granted
  | .send turns => ∀ k, ∀ c ∈ (turns k).before, c.Granted
  | .callback c => c.Granted

/-- One drain takes as many turns as messages are queued when it starts. -/
def Event.moments : Event → World → List Moment
  | .msgAdd _ _, _ => []
  | .post h, _ => h.postData.moments
  | .send turns, w =>
    (List.range' 0 w.gMsgList.length).flatMap fun k => (turns k).before.map .callback
  | .callback c, _ => [.callback c]

def Event.Smooth (s : CString) (e : Event) (w : World) : Prop :=
  Passes (Phase.Smooth w.gMqttCtx.mosqUav ((replyTopic s w.gMqttCtx.subscribeTopic).length ≤ 79))
    (Phase.next w.gMqttCtx.mosqUav) (Phase.of w) (e.moments w)

structure InSession (s : CString) (own : Option Nat) (t : Option CString) (f : Phase) (w : World) : Prop where
  mosqUav : w.gMqttCtx.mosqUav = own
  topic : w.gMqttCtx.subscribeTopic = t
  up : w.gMqttCtx.connectedUav = f.up
  subscribed : f.up = true → f.known = true → replyTopic s t ∈ sessionOf w.trace

abbrev InPhase (s : CString) (own : Option Nat) (t : Option CString) (f : Phase) : World → Prop :=
  Knows s (InSession s own t f) f.known

section Phases

variable {s : CString} {own : Option Nat} {t : Option CString} {f : Phase} {E : World → Prop}

theorem inSession_renamed {w : World} (sn : Bytes) (held : InSession s own t f w) :
    InSession s own t f { w with gDeviceId := sn } :=
  ⟨held.mosqUav, held.topic, held.up, held.subscribed⟩

theorem inSession_found {r : Popen} {w : World} (settled : f.Settled r) (held : InSession s own t f w) :
    InSession s own t ⟨f.known || r.found, f.up⟩ w where
  mosqUav := held.mosqUav
  topic := held.topic
  up := held.up
  subscribed up known := by
    cases before : f.known with
    | true => exact held.subscribed up before
    | false => simp [before, settled up before] at known

theorem inSession_aside {w : World} {a : Action} (list : List MsgQueue)
    (aside : ∀ topics, a.session topics = topics) (held : InSession s own t f w) :
    InSession s own t f { w with gMsgList := list, trace := w.trace ++ [a] } where
  mosqUav := held.mosqUav
  topic := held.topic
  up := held.up
  subscribed up known := by
    rw [sessionOf_snoc, aside]
    exact held.subscribed up known

theorem inPhase_aside {w : World} {a : Action} (list : List MsgQueue)
    (aside : ∀ topics, a.session topics = topics) (held : InPhase s own t f w) :
    InPhase s own t f { w with gMsgList := list, trace := w.trace ++ [a] } :=
  ⟨held.buffer, inSession_aside list aside held.rest⟩

theorem inSession_sampled : Sampled (InSession s own t f) where
  flyTime _ held := ⟨held.mosqUav, held.topic, held.up, held.subscribed⟩
  netInfo _ held := ⟨held.mosqUav, held.topic, held.up, held.subscribed⟩
  uavData _ held := ⟨held.mosqUav, held.topic, held.up, held.subscribed⟩
  strings _ held := ⟨held.mosqUav, held.topic, held.up, held.subscribed⟩

theorem inPhase_drained : Drained (InPhase s own t f) where
  turn {w} _ _ held := inPhase_aside w.gMsgList (fun _ => rfl) held
  publish {w} _ _ _ _ _ _ held := inPhase_aside w.gMsgList (fun _ => rfl) held
  unsupported {w} held := inPhase_aside w.gMsgList (fun _ => rfl) held
  list _ held := ⟨held.buffer, held.rest.mosqUav, held.rest.topic, held.rest.up, held.rest.subscribed⟩

theorem act_phase {a : Action} (aside : ∀ topics, a.session topics = topics) :
    Keeps (InPhase s own t f) (act a) :=
  keeps_act fun w held => inPhase_aside w.gMsgList aside held

theorem getDeviceId_phase (short : s.length ≤ 6) {r : Popen} (prints : r.Prints s) (settled : f.Settled r) :
    Spec (InPhase s own t f) (getDeviceId r) (fun _ => InPhase s own t ⟨f.known || r.found, f.up⟩) E :=
  spec_post (getDeviceId_knows short inSession_renamed prints)
    fun _ _ knows => ⟨knows.buffer, inSession_found settled knows.rest⟩

theorem subMqttTopic_phase (fits : (replyTopic s t).length ≤ 79) :
    Spec (Knows s (InSession s own t ⟨false, true⟩) true) (subMqttTopic (paasTopic s t) 0)
      (fun _ => InPhase s own t ⟨true, true⟩) E := by
  intro w knows
  refine ⟨knows.buffer, knows.rest.mosqUav, knows.rest.topic, knows.rest.up, fun _ _ => ?_⟩
  rw [paasTopic_whole fits, sessionOf_snoc]
  exact List.mem_append_right _ List.mem_cons_self

/-- The connection itself: it subscribes to the topic of an identity known by then. -/
theorem mqttConnectCallback_phase (named : s ≠ CString.empty) (short : s.length ≤ 6) {mosq : Nat} {rc : Int}
    {first second : Popen} (firstPrints : first.Prints s) (secondPrints : second.Prints s)
    (smooth : f.Smooth own ((replyTopic s t).length ≤ 79) (.callback (.connect mosq rc first second 0))) :
    Spec (InPhase s own t f) (mqttConnectCallback mosq rc first second 0)
      (fun _ => InPhase s own t (f.next own (.callback (.connect mosq rc first second 0)))) Anywhere := by
  simp only [Phase.Smooth] at smooth
  simp only [Phase.next]
  generalize foundBy : (f.known || first.found) = known at smooth
  let joined : World → Prop := fun w => some mosq = own ∧ InSession s own t ⟨false, true⟩ w
  have renamed {w : World} (sn : Bytes) (held : joined w) : joined { w with gDeviceId := sn } :=
    ⟨held.1, inSession_renamed sn held.2⟩
  apply mqttConnectCallback_walk (Knows s (InSession s own t f) known) (Knows s joined known)
    (fun w => known = true ∧ Knows s joined true w) (fun id w => id = identity s known ∧ Knows s joined known w)
    (fun id w => known = true ∧ id = s ∧ Knows s joined true w)
  · exact fun _ _ _ => trivial
  · intro _
    rw [← foundBy]
    exact getDeviceId_knows short inSession_renamed firstPrints
  · intro w knows foreign
    rw [knows.rest.mosqUav] at foreign
    rw [if_neg foreign] at smooth
    rw [decide_eq_false foreign, Bool.or_false, ← foundBy]
    exact ⟨foundBy ▸ knows.buffer, inSession_found smooth knows.rest⟩
  · intro w knows ours
    refine ⟨knows.buffer, ours.trans knows.rest.mosqUav, knows.rest.mosqUav, knows.rest.topic, rfl, ?_⟩
    exact fun _ never => nomatch never
  · exact deviceId_knows short
  · rintro id w nameless ⟨rfl, knows⟩
    have unknown : known = false := by
      by_contra found
      rw [Bool.not_eq_false] at found
      rw [found] at nameless
      exact named (CString.ext (List.length_eq_zero_iff.mp nameless))
    rw [decide_eq_true knows.rest.1, Bool.or_true, unknown]
    rw [unknown] at knows
    exact ⟨knows.buffer, knows.rest.2⟩
  · intro id someone
    apply spec_fact
    rintro rfl
    have found := identity_known someone
    rw [found]
    exact spec_post (getDeviceId_knows short renamed secondPrints) fun _ _ knows => ⟨rfl, knows⟩
  · exact spec_fact fun found => spec_post (deviceId_knows short) fun _ _ held => ⟨found, held⟩
  · intro id w knows ours
    apply spec_fact
    intro found
    apply spec_fact
    rintro rfl
    rw [knows.rest.mosqUav] at ours
    rw [if_pos ours] at smooth
    rw [knows.rest.topic, decide_eq_true ours, Bool.or_true, found]
    exact spec_from (subMqttTopic_phase (smooth found)) fun _ held => ⟨held.buffer, held.rest.2⟩

theorem moment_phase (named : s ≠ CString.empty) (short : s.length ≤ 6) {m : Moment}
    (prints : ∀ r ∈ m.reads, r.Prints s) (granted : m.Granted)
    (smooth : f.Smooth own ((replyTopic s t).length ≤ 79) m) :
    Spec (InPhase s own t f) (moment m) (fun _ => InPhase s own t (f.next own m)) Anywhere := by
  cases m with
  | read r => exact getDeviceId_phase short (prints r List.mem_cons_self) smooth
  | callback c =>
    cases c with
    | connect mosq rc first second subscribe =>
      simp only [Moment.Granted, Callback.Granted] at granted
      subst granted
      have firstPrints : first.Prints s := prints first List.mem_cons_self
      have secondPrints : second.Prints s := prints second (List.mem_cons_of_mem _ List.mem_cons_self)
      exact mqttConnectCallback_phase named short firstPrints secondPrints smooth
    | disconnect mosq rc =>
      apply spec_copy
      intro w knows
      rw [knows.rest.mosqUav]
      split
      · rename_i ours
        apply spec_modify
        intro w' knows
        refine ⟨knows.buffer, knows.rest.mosqUav, knows.rest.topic, ?_, ?_⟩
        · simp [Phase.next, ours]
        · simp [Phase.next, ours]
      · rename_i foreign
        have same : f.next own (.callback (.disconnect mosq rc)) = f := by simp [Phase.next, foreign]
        rw [same]
        exact spec_pure fun _ knows => knows

theorem phases_followed (named : s ≠ CString.empty) (short : s.length ≤ 6) :
    Followed (InPhase s own t)
      (fun f m => f.Smooth own ((replyTopic s t).length ≤ 79) m ∧ (∀ r ∈ m.reads, r.Prints s) ∧ m.Granted)
      (Phase.next own) (fun f id => id = identity s f.known) Anywhere where
  step _ _ ok := moment_phase named short ok.2.1 ok.2.2 ok.1
  look _ := deviceId_knows short
  halts _ _ _ := trivial

theorem cjsonMsgAdd_phase (short : s.length ≤ 6) (data : Option Bytes) (report : Option CJson) {i : MsgAdd}
    (prints : i.serial.Prints s) :
    Spec (InPhase s own t f) (cjsonMsgAdd data report i) (fun _ => InPhase s own t f) Anywhere := by
  have failed : Keeps (InPhase s own t f) (loge "malloc error" []) := act_phase fun _ => rfl
  obtain ⟨known, up⟩ := f
  cases known with
  | false => exact cjsonMsgAdd_unknown short data report i
  | true =>
    apply cjsonMsgAdd_spec failed data report (getDeviceId_knows short inSession_renamed prints)
    · exact fun {_ w'} _ held => inPhase_aside w'.gMsgList (fun _ => rfl) held
    · exact fun {w} m held => inPhase_aside (w.gMsgList ++ [m]) (fun _ => rfl) held
    · exact fun _ held => held
    · exact fun _ _ => trivial

theorem mqttPostRun_phase (named : s ≠ CString.empty) (short : s.length ≤ 6) (p : Platform) {h : Heartbeat}
    (reads : ∀ r ∈ h.postData.reads, r.Prints s) (serial : h.postData.add.serial.Prints s)
    (granted : ∀ m ∈ h.postData.moments, m.Granted)
    (smooth : Passes (Phase.Smooth own ((replyTopic s t).length ≤ 79)) (Phase.next own) f h.postData.moments) :
    Spec (InPhase s own t f) (mqttPostRun p h)
      (fun _ => InPhase s own t (h.postData.moments.foldl (Phase.next own) f)) Anywhere := by
  have passes := passes_with smooth (P := fun m => (∀ r ∈ m.reads, r.Prints s) ∧ m.Granted)
    fun m member => ⟨fun r read => reads r (postData_reads member read), granted m member⟩
  have built : Spec (InPhase s own t f) (buildPostData p h.postData)
      (fun _ => InPhase s own t (h.postData.moments.foldl (Phase.next own) f)) Anywhere := by
    apply buildPostData_follows (phases_followed named short) p passes
    intros
    exact cjsonMsgAdd_phase short _ _ serial
  apply mqttPostRun_spec p (spec_keeps (collect_keeps (knows_sampled inSession_sampled) p h)) _ built
  · exact fun w held => inPhase_aside w.gMsgList (fun _ => rfl) held
  · exact fun w held => inPhase_aside w.gMsgList (fun _ => rfl) held

theorem sendLoop_phase (named : s ≠ CString.empty) (short : s.length ≤ 6) {turns : Nat → Turn}
    (reads : ∀ k, ∀ r ∈ (turns k).before.flatMap Callback.reads, r.Prints s)
    (granted : ∀ k, ∀ c ∈ (turns k).before, c.Granted) (ms : List MsgQueue) (k : Nat)
    (smooth : Passes (Phase.Smooth own ((replyTopic s t).length ≤ 79)) (Phase.next own) f
      ((List.range' k ms.length).flatMap fun k => (turns k).before.map .callback)) :
    Spec (InPhase s own t f) (sendLoop turns k ms)
      (fun _ w => ∃ f, InPhase s own t f w) Anywhere := by
  induction ms generalizing k f with
  | nil => exact spec_pure fun _ held => ⟨f, held⟩
  | cons m ms ih =>
    rw [List.length_cons, List.range'_succ, List.flatMap_cons, passes_append] at smooth
    obtain ⟨before, rest⟩ := smooth
    have passes := passes_with before (P := fun m => (∀ r ∈ m.reads, r.Prints s) ∧ m.Granted) (by
      intro m member
      obtain ⟨c, called, rfl⟩ := List.mem_map.mp member
      exact ⟨fun r read => reads k r (List.mem_flatMap.mpr ⟨c, called, read⟩), granted k c called⟩)
    have callbacks := moments_follow (phases_followed named short) passes
    rw [← callbacks_moments] at callbacks
    rw [sendLoop, sendTurn, bind_assoc]
    apply spec_bind callbacks
    intro _
    apply spec_bind (spec_keeps (sendMsg_keeps (fun _ _ _ => act_phase fun _ => rfl) inPhase_drained _ m))
    intro _
    exact ih (k + 1) rest

theorem inPhase_of (named : s ≠ CString.empty) {w : World} (held : InPhase s own t f w) : Phase.of w = f := by
  have up := held.rest.up
  obtain ⟨known, up'⟩ := f
  have first : decide (w.gDeviceId.head? ≠ some 0) = known := by
    rw [held.buffer]
    cases known with
    | false => rfl
    | true =>
      cases bytes : s.bytes with
      | nil => exact absurd (CString.ext bytes) named
      | cons b bs =>
        have printed : b ≠ 0 := by
          rintro rfl
          exact s.nulFree (bytes ▸ List.mem_cons_self)
        simp [identity, bytes, printed]
  rw [Phase.of, first, up]

theorem inPhase_subscribed (short : s.length ≤ 6) {w : World} (held : InPhase s own t f w) : Subscribed w := by
  intro id up string someone
  have short' : (identity s f.known).length ≤ 6 := identity_short short
  rw [held.buffer, cstr_padded _ (by omega)] at string
  obtain rfl := Except.ok.inj string
  rw [held.rest.topic]
  cases known : f.known with
  | false => exact absurd (by rw [known]; rfl) someone
  | true => exact held.rest.subscribed (held.rest.up.symm.trans up) known

theorem handle_phase (named : s ≠ CString.empty) (short : s.length ≤ 6) (p : Platform) {e : Event}
    (reads : e.Reads (Popen.Prints s)) (granted : e.Granted) :
    Spec (fun w => e.Smooth s w ∧ ∃ f, InPhase s own t f w) (handle p e)
      (fun _ w => ∃ f, InPhase s own t f w) Anywhere := by
  rintro w ⟨smooth, f, held⟩
  rw [Event.Smooth, held.rest.mosqUav, held.rest.topic, inPhase_of named held] at smooth
  have someone {m : Prog Unit} {f' : Phase} (spec : Spec (InPhase s own t f) m
      (fun _ => InPhase s own t f') Anywhere) : Spec (InPhase s own t f) m
      (fun _ w => ∃ f, InPhase s own t f w) Anywhere := spec_post spec fun _ _ held => ⟨f', held⟩
  cases e with
  | msgAdd data i => exact someone (cjsonMsgAdd_phase short data none reads) w held
  | post h => exact someone (mqttPostRun_phase named short p reads.1 reads.2 granted smooth) w held
  | callback c => exact someone (moment_phase (m := .callback c) named short reads granted smooth.1) w held
  | send turns =>
    have looped := sendLoop_phase named short reads granted w.gMsgList 0 smooth
    have armed : Spec (fun w => ∃ f, InPhase s own t f w) (act (.uloopTimeoutSet .mqttRunTimeout 10))
        (fun _ w => ∃ f, InPhase s own t f w) Anywhere :=
      spec_modify fun w ⟨f, held⟩ => ⟨f, inPhase_aside w.gMsgList (fun _ => rfl) held⟩
    exact spec_bind looped (fun _ => armed) w held

def Offline (w : World) : Prop := w.gMqttCtx.connectedUav = false

theorem main_offline (short : s.length ≤ 6) (p : Platform) {b : Boot} (prints : b.serial.Prints s) :
    Keeps (fun w => ∃ known, Knows s Offline known w) (main p b) := by
  apply main_keeps p
  · exact fun _ ⟨known, knows⟩ => ⟨known, knows.buffer, knows.rest⟩
  · exact fun _ _ _ ⟨known, knows⟩ => ⟨known, knows.buffer, knows.rest⟩
  · exact fun _ same ⟨known, knows⟩ => ⟨known, knows.buffer, same.trans knows.rest⟩
  · exact fun _ ⟨known, knows⟩ => ⟨known, knows.buffer, knows.rest⟩
  · rintro w ⟨known, knows⟩
    have read : Spec (Knows s Offline known) (getDeviceId b.serial)
        (fun _ => Knows s Offline (known || b.serial.found)) fun w => ∃ known, Knows s Offline known w :=
      getDeviceId_knows short (fun _ offline => offline) prints
    exact spec_post read (fun _ _ knows => ⟨_, knows⟩) w knows
  · exact fun _ _ ⟨known, knows⟩ => ⟨known, knows.buffer, knows.rest⟩

end Phases

section Runs

variable {s : CString} {p : Platform} {b : Boot} {events : List Event}

/-- Over any connections, disconnections, reports and drains: while no moment finds the identity
over a connection made without it, and the topic fits its array, whoever is connected under a
name is subscribed. -/
theorem reply_subscribed (named : s ≠ CString.empty) (short : s.length ≤ 6) (prints : b.serial.Prints s)
    (reads : ∀ e ∈ events, e.Reads (Popen.Prints s)) (granted : ∀ e ∈ events, e.Granted)
    (smooth : ∀ w, main p b (.start p.target) = .ok () w → Along (Event.Smooth s) (handle p) events w)
    {w : World} (reached : newplat p b events (.start p.target) = .ok () w) : Subscribed w := by
  have started : ∃ known, Knows s Offline known (.start p.target) := ⟨false, rfl, rfl⟩
  cases start : main p b (.start p.target) with
  | error e w' =>
    have stopped : newplat p b events (.start p.target) = .error e w' := bind_error start
    rw [stopped] at reached
    cases reached
  | ok a w' =>
    obtain ⟨known, knows⟩ := spec_ok (main_offline short p prints) started start
    have runs : newplat p b events (.start p.target) = run p events w' := bind_ok start
    rw [runs] at reached
    let phased (w : World) : Prop := ∃ f, InPhase s w'.gMqttCtx.mosqUav w'.gMqttCtx.subscribeTopic f w
    have phase : phased w' :=
      ⟨⟨known, false⟩, knows.buffer, rfl, rfl, knows.rest, fun never => nomatch never⟩
    have all : Spec (fun w => Along (Event.Smooth s) (handle p) events w ∧ phased w) (run p events)
        (fun _ => phased) Anywhere :=
      spec_along fun e member => handle_phase named short p (reads e member) (granted e member)
    obtain ⟨f, held⟩ := spec_ok all ⟨smooth w' start, phase⟩ reached
    exact inPhase_subscribed short held

end Runs

/-- A boot whose execution of the command fails. -/
def lateBoot : Boot := { deviceBoot with serial := .unavailable, ssl := sampleOpenSSL }

def lateBeat : Heartbeat := { deviceHeartbeat with postData := { devicePostData with ssl := sampleOpenSSL } }

def connects (first : Popen) : Event := .callback (.connect 1 0 first serialPrinted 0)

/-- Connected under a name that this connection found, and subscribed to its topic. -/
theorem found_by_connection_subscribed : ∃ w, newplat devicePlatform lateBoot [connects serialPrinted]
    (.start devicePlatform.target) = .ok () w ∧ w.gMqttCtx.connectedUav = true ∧
    cstr w.gDeviceId = .ok (CString.lit "d72e64") ∧
    replyTopic (CString.lit "d72e64") (some (CString.lit "property/post_reply")) ∈ sessionOf w.trace := by
  have printed : serialPrinted.Prints (CString.lit "d72e64") := Or.inr rfl
  have ends : endsIn (fun w => decide (w.gMqttCtx.connectedUav = true ∧
      w.gMqttCtx.subscribeTopic = some (CString.lit "property/post_reply") ∧
      w.gDeviceId = (CString.lit "d72e64").bytes ++ [0]))
      (newplat devicePlatform lateBoot [connects serialPrinted] (.start devicePlatform.target)) = true := by
    decide +kernel
  have configured : endsIn (fun w => decide (w.gMqttCtx.mosqUav = some 1 ∧
      w.gMqttCtx.subscribeTopic = some (CString.lit "property/post_reply")))
      (main devicePlatform lateBoot (.start devicePlatform.target)) = true := by decide +kernel
  obtain ⟨_, w, reached, seen⟩ := endsIn_ok ends
  obtain ⟨up, topic, buffer⟩ := of_decide_eq_true seen
  have string : cstr w.gDeviceId = .ok (CString.lit "d72e64") := by
    rw [buffer]
    rfl
  have subscribed : Subscribed w := by
    apply reply_subscribed (s := CString.lit "d72e64") (by decide) (by decide) (Or.inl rfl) _ _ _ reached
    · intro e member
      rw [List.mem_singleton.mp member]
      simp [connects, Event.Reads, Callback.reads, printed]
    · intro e member
      rw [List.mem_singleton.mp member]
      exact rfl
    · intro w' started
      rw [started] at configured
      obtain ⟨own, topic⟩ := of_decide_eq_true configured
      refine ⟨⟨?_, trivial⟩, fun _ _ => trivial⟩
      simp only [Phase.Smooth]
      rw [own, topic, if_pos rfl]
      intro _
      decide
  refine ⟨w, reached, up, string, ?_⟩
  rw [← topic]
  exact subscribed (CString.lit "d72e64") up string (by decide)

/-- Connected without a name, then a report finds the name: nothing is subscribed. -/
theorem late_identity_unsubscribed : lateBoot.serial.Prints (CString.lit "d72e64") ∧
    (∀ e ∈ [connects .unavailable, .post lateBeat],
      e.Reads (Popen.Prints (CString.lit "d72e64")) ∧ e.Granted) ∧
    ∃ w, newplat devicePlatform lateBoot [connects .unavailable, .post lateBeat]
      (.start devicePlatform.target) = .ok () w ∧ ¬ Subscribed w := by
  have printed : serialPrinted.Prints (CString.lit "d72e64") := Or.inr rfl
  have failed : Popen.unavailable.Prints (CString.lit "d72e64") := Or.inl rfl
  have ends : endsIn (fun w => decide (w.gMqttCtx.connectedUav = true ∧
      w.gDeviceId = (CString.lit "d72e64").bytes ++ [0] ∧ sessionOf w.trace = []))
      (newplat devicePlatform lateBoot [connects .unavailable, .post lateBeat]
        (.start devicePlatform.target)) = true := by decide +kernel
  refine ⟨failed, ?_, ?_⟩
  · intro e member
    rcases List.mem_pair.mp member with rfl | rfl
    · exact ⟨by simp [connects, Event.Reads, Callback.reads, printed, failed], rfl⟩
    · have reads : lateBeat.postData.reads = [serialPrinted, serialPrinted, serialPrinted] := rfl
      have moments : lateBeat.postData.moments =
        [.read serialPrinted, .read serialPrinted, .read serialPrinted] := rfl
      refine ⟨⟨?_, printed⟩, ?_⟩
      · rw [reads]
        simp [printed]
      · simp [Event.Granted, moments, Moment.Granted]
  · obtain ⟨_, w, reached, seen⟩ := endsIn_ok ends
    obtain ⟨up, buffer, nothing⟩ := of_decide_eq_true seen
    refine ⟨w, reached, fun subscribed => ?_⟩
    have member := subscribed (CString.lit "d72e64") up (by rw [buffer]; rfl) (by decide)
    rw [nothing] at member
    exact absurd member List.not_mem_nil

end Newplat
