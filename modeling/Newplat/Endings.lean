import Newplat.Booting

/-! How the program ends. In an orderly environment a run from `main` on ends only with a
configuration that cannot be loaded, a refused connection, or a reading that is not there. -/
namespace Newplat

open Base

instance (b : Boot) : Decidable b.Loaded := inferInstanceAs (Decidable (_ ∧ _))

/-- The reason a number read through a string ends the program for. -/
def StringReply.reason (r : StringReply) (param : CString) : Option Halt :=
  if (expectedString r.answer param).isSome then none else some .nullPointer

/-- The four strings that are read through without a test, in the order they are. -/
def Heartbeat.reason (h : Heartbeat) : Option Halt :=
  (h.lat.reason (CString.lit "lat")).or <| (h.lng.reason (CString.lit "lng")).or <|
    (h.height.reason (CString.lit "height")).or (h.speed.reason (CString.lit "speed"))

/-- What an event ends the program for, on a target whose plain `char` is signed or not. -/
def Event.reason (t : Target) : Event → Option Halt
  | .post h => if t.charSigned then some .nullPointer else h.reason
  | .callback (.connect _ rc _ _ _) => if rc ≠ 0 then some (.exit 1) else none
  | _ => none

/-- A topic is copied where its text is. -/
def Alloc.Level (a : Alloc) : Prop := a.msg = true → a.topic = true

/-- Strings are short, OpenSSL works, what is queued is a string with its topic, and no
connection is refused while a timer's handler runs. -/
def Event.Orderly : Event → Prop
  | .msgAdd data i => (∃ buf text, data = some buf ∧ cstr buf = .ok text) ∧ i.serial.FitsId ∧ i.alloc.Level
  | .post h => h.Short ∧ h.postData.Works ∧ h.postData.add.alloc.Level
  | .send turns => ∀ k,
    (∀ r ∈ (turns k).before.flatMap Callback.reads, r.FitsId) ∧ ∀ c ∈ (turns k).before, c.Returns
  | .callback c => ∀ r ∈ c.reads, r.FitsId

def MsgQueue.Addressed (m : MsgQueue) : Prop := m.msg.isSome = true → m.sendTopic.isSome = true

/-- The string buffer of the bus is as the target has it, and a message has its topic. -/
structure Stocked (t : Target) (w : World) : Prop where
  signed : t.charSigned = true → w.ubusString = .start t
  unsigned : t.charSigned = false → StringsReady w.ubusString
  addressed : ∀ m ∈ w.gMsgList, m.Addressed

/-- What the program relies on between two events. -/
structure Running (t : Target) (w : World) : Prop where
  legible : Legible w
  stocked : Stocked t w

section Keeping

variable {t : Target}

theorem running_start : Running t (.start t) where
  legible := ⟨zeros_terminated 6, zeros_terminated 15⟩
  stocked := {
    signed := fun _ => rfl
    unsigned := start_ready
    addressed := fun _ none => absurd none List.not_mem_nil }

theorem stocked_steady : Steady (Stocked t) where
  connection _ stocked := ⟨stocked.signed, stocked.unsigned, stocked.addressed⟩
  history _ stocked := ⟨stocked.signed, stocked.unsigned, stocked.addressed⟩

theorem stocked_act (a : Action) : Keeps (Stocked t) (act a) :=
  keeps_act fun _ stocked => ⟨stocked.signed, stocked.unsigned, stocked.addressed⟩

theorem stocked_device (r : Popen) : Keeps (Stocked t) (getDeviceId r) :=
  getDeviceId_keeps (fun _ stocked => ⟨stocked.signed, stocked.unsigned, stocked.addressed⟩) r

/-- A program that returns wherever the identity and the time are strings, and keeps the rest. -/
theorem running_completes {α : Type} {m : Prog α} (returns : Completes Legible m) (keeps : Keeps (Stocked t) m) :
    Completes (Running t) m :=
  decides_weaken (decides_keeps returns keeps) Iff.rfl (fun _ running => ⟨running.legible, running.stocked⟩)
    fun _ _ both => ⟨both.1, both.2⟩

theorem act_running (a : Action) : Completes (Running t) (act a) :=
  running_completes (act_legible a) (stocked_act a)

theorem getDeviceId_running {r : Popen} (fits : r.FitsId) : Completes (Running t) (getDeviceId r) :=
  running_completes (getDeviceId_legible fits) (stocked_device r)

theorem main_running {p : Platform} {b : Boot} (fits : b.serial.FitsId) : Keeps (Running t) (main p b) := by
  have aside {w w' : World} (running : Running t w) (id : w'.gDeviceId = w.gDeviceId)
      (time : w'.gUavData = w.gUavData) (list : w'.gMsgList = w.gMsgList) (strings : w'.ubusString = w.ubusString) :
      Running t w' := by
    refine ⟨⟨?_, ?_⟩, ?_, ?_, ?_⟩
    · rw [id]
      exact running.legible.identity
    · rw [time]
      exact running.legible.time
    · rw [strings]
      exact running.stocked.signed
    · rw [strings]
      exact running.stocked.unsigned
    · rw [list]
      exact running.stocked.addressed
  apply main_keeps p
  · exact fun _ running => aside running rfl rfl rfl rfl
  · exact fun _ _ _ running => aside running rfl rfl rfl rfl
  · exact fun _ _ running => aside running rfl rfl rfl rfl
  · exact fun _ running => aside running rfl rfl rfl rfl
  · exact spec_sure (getDeviceId_running fits)
  · exact fun _ _ running => aside running rfl rfl rfl rfl

theorem cjsonMsgAdd_stocked (data : Option Bytes) (report : Option CJson) {i : MsgAdd} (level : i.alloc.Level) :
    Keeps (Stocked t) (cjsonMsgAdd data report i) := by
  apply cjsonMsgAdd_walk (fun _ => Stocked t) (fun _ _ => Stocked t) (stocked_device _) deviceId_keeps
  · exact fun _ _ _ => stocked_act _
  · exact fun _ _ => stocked_act _
  · intro id up msg _
    apply spec_modify
    intro w stocked
    refine ⟨stocked.signed, stocked.unsigned, ?_⟩
    intro m member
    rcases List.mem_append.mp member with old | new
    · exact stocked.addressed m old
    · rw [List.mem_singleton.mp new]
      intro copied
      have msgCopied : i.alloc.msg = true := by
        by_contra failed
        simp [failed] at copied
      simp [level msgCopied]
  · exact fun _ stocked => stocked
  · exact fun _ stocked => stocked
  · exact fun _ _ _ stocked => stocked

end Keeping

section Collecting

variable {p : Platform} {h : Heartbeat}

/-- Reading a number through a string: it ends the program when the string is not there. -/
theorem atof_ends (unsigned : p.target.charSigned = false) {α : Type} {r : StringReply} {param : CString} {k : Int}
    {rest : Int → Prog α} {Q : α → World → Prop} {o : Option Halt} (short : r.AtMost 15 param)
    (next : ∀ x, EndsAs Ready o (rest x) Q) :
    EndsAs Ready ((r.reason param).or o) (do
      let s ← getString p r param
      let x ← atofTimes p s k
      rest x) Q := by
  apply endsAs_then (getString_ready unsigned (stored_short short))
  intro s
  apply endsAs_fact
  rintro rfl
  cases found : expectedString r.answer param with
  | none =>
    have missing : r.reason param = some .nullPointer := by rw [StringReply.reason, found]; rfl
    rw [missing, Option.some_or]
    exact endsAs_stop endsAs_throw
  | some s =>
    have there : r.reason param = none := by rw [StringReply.reason, found]; rfl
    rw [there, Option.none_or]
    exact next (p.atofTimes s k)

theorem readUavinfo_ends (unsigned : p.target.charSigned = false) (short : h.Short) :
    EndsAs Ready h.reason (readUavinfo p h) fun _ => Ready := by
  have timeShort : ∀ t, expectedString h.time.answer (CString.lit "time") = some t → t.length ≤ 15 := by
    intro t found
    exact short.time t (Option.filter_eq_some_iff.mp found).1
  apply endsAs_then (setUav_ready (by intro u; rfl))
  intro _
  apply endsAs_then (setUav_ready (by intro u; rfl))
  intro _
  apply atof_ends unsigned short.lat
  intro lat
  apply endsAs_then (setUav_ready (by intro u; rfl))
  intro _
  apply atof_ends unsigned short.lng
  intro lng
  apply endsAs_then (setUav_ready (by intro u; rfl))
  intro _
  apply endsAs_then (setUav_ready (by intro u; rfl))
  intro _
  apply atof_ends unsigned short.height
  intro height
  apply endsAs_then (setUav_ready (by intro u; rfl))
  intro _
  apply endsAs_then (getString_ready unsigned (stored_short short.time))
  intro uavtime
  apply endsAs_fact
  rintro rfl
  apply endsAs_then (copyTime_ready timeShort)
  intro _
  apply endsAs_then (setUav_ready (by intro u; rfl))
  intro _
  rw [← Option.or_none (o := h.speed.reason (CString.lit "speed"))]
  apply atof_ends unsigned short.speed
  intro spd
  exact endsAs_returns (setUav_ready (by intro u; rfl))

theorem collect_ends (unsigned : p.target.charSigned = false) (short : h.Short) :
    EndsAs Ready h.reason (collect p h) fun _ => Ready := by
  have cleared : Completes Ready (setUav fun _ => .zero) :=
    decides_modify fun _ ready => ⟨ready.strings, ready.identity, zeros_terminated 15⟩
  have counted : Completes Ready (modify fun w : World =>
      { w with gFlyTime := toInt32 (w.gFlyTime + 1) } : Prog Unit) :=
    decides_modify fun _ ready => ⟨ready.strings, ready.identity, ready.time⟩
  apply endsAs_then cleared
  intro _
  apply endsAs_then counted
  intro _
  apply endsAs_then (readModeminfo_ready unsigned short.netStyle)
  intro _
  exact readUavinfo_ends unsigned short

end Collecting

section Handling

variable {p : Platform} {t : Target}

theorem cjsonCreatPostData_running (prints : Prints p) {i : PostData} (works : i.Works) (level : i.add.alloc.Level) :
    Completes (Running t) (cjsonCreatPostData p i) := by
  have build : Keeps (Stocked t) (buildPostData p i) :=
    buildPostData_keeps stocked_steady p (fun r _ => stocked_device r) fun data report =>
      cjsonMsgAdd_stocked data report level
  apply running_completes (cjsonCreatPostData_legible prints works)
  rw [cjsonCreatPostData_eq]
  exact keeps_bind (stocked_act _) fun _ => build

theorem mqttPostRun_ends (prints : Prints p) {h : Heartbeat} (orderly : (Event.post h).Orderly) :
    EndsAs (Running p.target) ((Event.post h).reason p.target) (mqttPostRun p h) fun _ => Running p.target := by
  obtain ⟨short, works, level⟩ := orderly
  rw [mqttPostRun_eq]
  cases sign : p.target.charSigned with
  | true =>
    simp only [Event.reason, sign, if_true]
    have start (w : World) (running : Running p.target w) : w.ubusString = .start p.target :=
      running.stocked.signed sign
    exact endsAs_stop (endsAs_weaken (collect_ends_signed sign) start fun _ _ never => never)
  | false =>
    have addressed : Keeps (fun w => ∀ m ∈ w.gMsgList, m.Addressed) (collect p h) := by
      apply collect_keeps
      constructor <;> exact fun _ held => held
    have collected : EndsAs (Running p.target) h.reason (collect p h) fun _ => Running p.target := by
      apply endsAs_weaken (endsAs_keeps (collect_ends sign short) addressed)
      · intro w running
        exact ⟨legible_ready running.legible (running.stocked.unsigned sign), running.stocked.addressed⟩
      · rintro _ w ⟨ready, addressed⟩
        refine ⟨ready_legible ready, ?_, fun _ => ready.strings, addressed⟩
        intro signed
        rw [sign] at signed
        cases signed
    have report : Completes (Running p.target) (do
        cjsonCreatPostData p h.postData
        act (.uloopTimeoutSet .mqttPostTimeout 1000)) :=
      completes_bind (cjsonCreatPostData_running prints works level) fun _ => act_running _
    simp only [Event.reason, sign, Bool.false_eq_true, if_false]
    rw [← Option.or_none (o := h.reason)]
    exact endsAs_bind collected fun _ => endsAs_returns report

theorem callbacks_running {cs : List Callback} (fits : ∀ s ∈ cs.flatMap Callback.reads, s.FitsId)
    (returns : ∀ c ∈ cs, c.Returns) : Completes (Running t) (runAll mqttCallback cs) :=
  running_completes (callbacks_legible fits returns) (callbacks_keeps stocked_steady fun r _ => stocked_device r)

theorem doTtyMsgPublish_running (data : CString) (len : Int) (topic : CString) (publish : Int) :
    Completes (Running t) (doTtyMsgPublish data len (some topic) publish) := by
  have done (ret : Int) : Completes (Running t) (pure ret : Prog Int) := decides_pure fun _ running => running
  simp only [doTtyMsgPublish]
  split
  · apply decides_copy
    intro w _
    split
    · apply completes_bind (act_running _)
      intro _
      split
      · exact completes_bind (act_running _) fun _ => done _
      · exact done _
    · exact completes_bind (act_running _) fun _ => done _
  · exact completes_bind (act_running _) fun _ => done _

theorem sendMsg_running (publish : Int) {m : MsgQueue} (addressed : m.Addressed) :
    Completes (Running t) (sendMsg publish m) := by
  have unlinked : Completes (Running t) (listDel m) := by
    apply decides_modify
    intro w running
    refine ⟨⟨running.legible.identity, running.legible.time⟩, running.stocked.signed, running.stocked.unsigned, ?_⟩
    exact fun m' member => running.stocked.addressed m' (List.mem_of_mem_eraseP member)
  apply decides_copy
  intro w _
  apply completes_bind (act_running _)
  intro _
  cases text : m.msg with
  | none => exact unlinked
  | some msg =>
    obtain ⟨topic, sent⟩ := Option.isSome_iff_exists.mp (addressed (by rw [text]; rfl))
    rw [sent]
    exact completes_bind (doTtyMsgPublish_running _ _ _ _) fun _ => unlinked

theorem sendLoop_running {turns : Nat → Turn} (orderly : (Event.send turns).Orderly) {ms : List MsgQueue}
    (addressed : ∀ m ∈ ms, m.Addressed) (k : Nat) : Completes (Running t) (sendLoop turns k ms) := by
  induction ms generalizing k with
  | nil => exact decides_pure fun _ running => running
  | cons m ms ih =>
    obtain ⟨fits, returns⟩ := orderly k
    have turn : Completes (Running t) (sendTurn (turns k) m) :=
      completes_bind (callbacks_running fits returns) fun _ => sendMsg_running _ (addressed m List.mem_cons_self)
    exact completes_bind turn fun _ => ih (fun m' member => addressed m' (List.mem_cons_of_mem _ member)) (k + 1)

theorem mqttSendRun_running {turns : Nat → Turn} (orderly : (Event.send turns).Orderly) :
    Completes (Running t) (mqttSendRun turns) := by
  apply decides_copy
  intro w running
  apply completes_bind (sendLoop_running orderly running.stocked.addressed 0)
  intro _
  exact act_running _

/-- An orderly event ends the program for its own reason, or leaves what the next relies on. -/
theorem handle_ends (prints : Prints p) {e : Event} (orderly : e.Orderly) :
    EndsAs (Running p.target) (e.reason p.target) (handle p e) fun _ => Running p.target := by
  cases e with
  | msgAdd data i =>
    obtain ⟨⟨buf, text, rfl, string⟩, fits, level⟩ := orderly
    exact endsAs_returns (running_completes (cjsonMsgAdd_legible string none fits)
      (cjsonMsgAdd_stocked (some buf) none level))
  | post h => exact mqttPostRun_ends prints orderly
  | send turns => exact endsAs_returns (mqttSendRun_running orderly)
  | callback c =>
    have kept : Keeps (Stocked p.target) (mqttCallback c) :=
      mqttCallback_keeps stocked_steady fun r _ => stocked_device r
    cases c with
    | connect mosq rc first second subscribe =>
      by_cases refused : rc = 0
      · have none : (Event.callback (.connect mosq rc first second subscribe)).reason p.target = none := by
          simp [Event.reason, refused]
        rw [none]
        exact endsAs_returns (running_completes (mqttCallback_legible orderly refused) kept)
      · simp only [Event.reason, handle, mqttCallback, mqttConnectCallback, ne_eq, refused, not_false_eq_true, if_true]
        exact endsAs_throw
    | disconnect mosq rc => exact endsAs_returns (running_completes (mqttCallback_legible orderly trivial) kept)

end Handling

section Ending

variable {p : Platform} {b : Boot} {aes : Bytes → Equiv.Perm AesBlock}

theorem main_ends (fits : b.serial.FitsId) (doc : Documented b.ssl aes) :
    EndsAs (fun w => w = .start p.target) (if b.Loaded then none else some (.exit 1)) (main p b)
      fun _ => Running p.target := by
  rintro _ rfl
  by_cases loaded : b.Loaded
  · obtain ⟨w, -, returns⟩ := main_loaded p fits doc loaded
    have running := spec_ok (main_running fits) running_start returns
    rw [returns, if_pos loaded]
    refine ⟨rfl, ?_⟩
    rintro _ _ ⟨⟩
    exact running
  · obtain ⟨w, -, exits⟩ := main_unloaded aes p loaded
    rw [exits, if_neg loaded]
    refine ⟨rfl, fun _ _ returns => ?_⟩
    cases returns

/-- From the start on, in any order of heartbeats, drains and callbacks: a configuration that cannot
be loaded ends the program, and after that just the first event with a reason does. -/
theorem program_ends {events : List Event} (prints : Prints p) (fits : b.serial.FitsId) (doc : Documented b.ssl aes)
    (orderly : ∀ e ∈ events, e.Orderly) :
    haltOf (newplat p b events (.start p.target)) =
      if b.Loaded then events.findSome? (Event.reason p.target) else some (.exit 1) := by
  have all : EndsAs (Running p.target) (events.findSome? (Event.reason p.target)) (run p events)
      fun _ => Running p.target :=
    endsAs_runAll fun e member => handle_ends prints (orderly e member)
  have ends := (endsAs_bind (main_ends fits doc) fun _ => all) (.start p.target) rfl
  rw [newplat, ends.1]
  by_cases loaded : b.Loaded
  · simp [loaded]
  · simp [loaded]

/-- A whole tick and a drain, then a tick without the uartd service, and a refusal after it. -/
def groundedEvents : List Event :=
  [.post deviceHeartbeat, .send fun _ => ⟨[], 0⟩, .post groundedHeartbeat,
    .callback (.connect 1 5 serialPrinted serialPrinted 0)]

theorem grounded_ends : ∃ w,
    newplat devicePlatform sealedBoot groundedEvents (.start devicePlatform.target) = .error .nullPointer w := by
  have level : devicePostData.add.alloc.Level := fun _ => rfl
  have grounded : groundedHeartbeat.Short := by
    constructor
    · exact deviceHeartbeat_short.netStyle
    all_goals
      intro value found
      cases found
  have orderly : ∀ e ∈ groundedEvents, e.Orderly := by
    simp only [groundedEvents, List.forall_mem_cons]
    refine ⟨⟨deviceHeartbeat_short, devicePostData_works, level⟩, fun _ => ⟨?_, ?_⟩,
      ⟨grounded, devicePostData_works, level⟩, ?_, ?_⟩
    · exact fun r none => nomatch none
    · exact fun c none => nomatch none
    · intro r member
      simp only [Callback.reads, List.mem_cons, List.not_mem_nil, or_false, or_self] at member
      exact member.symm ▸ serialPrinted_fits
    · exact fun e none => nomatch none
  have ends := program_ends device_prints (b := sealedBoot) serialPrinted_fits sample_documented orderly
  exact haltOf_error (ends.trans rfl)

end Ending

end Newplat
