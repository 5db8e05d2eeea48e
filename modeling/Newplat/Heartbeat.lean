import Newplat.Frame
import Newplat.Device
import Newplat.UbusString

/-! When a heartbeat runs to its end. Each of its steps either surely returns or returns
exactly when one reading was a string; the conditions of the steps add up to the tick's. -/
namespace Newplat

open Base

structure Terminated (n : Nat) (buf : Bytes) : Prop where
  length : buf.length = n + 1
  last : buf.getLast? = some 0

theorem zeros_terminated (n : Nat) : Terminated n (List.replicate (n + 1) 0) where
  length := List.length_replicate
  last := by simp [List.getLast?_replicate]

theorem terminated_cstr {n : Nat} {buf : Bytes} (ends : Terminated n buf) :
    ∃ s, cstr buf = .ok s ∧ s.length ≤ n := by
  have nul : (0 : UInt8) ∈ buf := List.mem_of_getLast? ends.last
  refine ⟨CString.ofBuffer buf, if_pos nul, ?_⟩
  have front : (CString.ofBuffer buf).bytes <+: buf := List.takeWhile_prefix _
  have least := front.length_le
  by_contra long
  have whole := front.eq_of_length (by rw [CString.length] at long; rw [ends.length] at *; omega)
  rw [← whole] at nul
  exact (CString.ofBuffer buf).nulFree nul

theorem terminated_write {n : Nat} {buf src : Bytes} (ends : Terminated n buf) (fits : src.length ≤ n) :
    ∃ buf', write buf 0 src = .ok buf' ∧ Terminated n buf' := by
  have inside : src.length ≤ buf.length := by
    rw [ends.length]
    omega
  refine ⟨src ++ buf.drop src.length, write_start inside, ?_, ?_⟩
  · rw [List.length_append, List.length_drop, ends.length]
    omega
  · have rest : buf.drop src.length ≠ [] := by
      intro none
      have size := congrArg List.length none
      rw [List.length_drop, ends.length, List.length_nil] at size
      omega
    rw [List.getLast?_append_of_ne_nil _ rest, List.getLast?_drop, if_neg (by rw [ends.length]; omega)]
    exact ends.last

/-- What every step of a heartbeat relies on and leaves. -/
structure Ready (w : World) : Prop where
  strings : StringsReady w.ubusString
  identity : Terminated 6 w.gDeviceId
  time : Terminated 15 w.gUavData.time

/-- What a report reads: the identity and the time are strings. -/
structure Legible (w : World) : Prop where
  identity : Terminated 6 w.gDeviceId
  time : Terminated 15 w.gUavData.time

theorem ready_legible {w : World} (ready : Ready w) : Legible w := ⟨ready.identity, ready.time⟩

theorem legible_ready {w : World} (legible : Legible w) (strings : StringsReady w.ubusString) : Ready w :=
  ⟨strings, legible.identity, legible.time⟩

/-- The command prints at most the six characters it cuts out. -/
def Popen.FitsId (r : Popen) : Prop := ∀ s, r.reply = some s → s.length ≤ 6

def Callback.Returns : Callback → Prop
  | .connect _ rc _ _ _ => rc = 0
  | .disconnect _ _ => True

def Read.Works (r : Read) : Prop := (∀ s ∈ r.reads, s.FitsId) ∧ ∀ c ∈ r.before, c.Returns

/-- The report's own needs: the command, OpenSSL and the callbacks in between. -/
structure PostData.Works (i : PostData) : Prop where
  uuid : i.uuid.length ≤ 36
  root : i.root.Works
  dev : i.dev.Works
  uav : i.uav.Works
  addReads : ∀ s ∈ i.beforeAdd.flatMap Callback.reads, s.FitsId
  addReturns : ∀ c ∈ i.beforeAdd, c.Returns
  serial : i.add.serial.FitsId
  encrypts : ∃ cipher, Encrypts i.ssl cipher

/-- A report can be made and added, whatever OpenSSL answers. -/
structure PostData.Proceeds (i : PostData) : Prop where
  uuid : i.uuid.length ≤ 36
  root : i.root.Works
  dev : i.dev.Works
  uav : i.uav.Works
  addReads : ∀ s ∈ i.beforeAdd.flatMap Callback.reads, s.FitsId
  addReturns : ∀ c ∈ i.beforeAdd, c.Returns
  serial : i.add.serial.FitsId

theorem works_proceeds {i : PostData} (works : i.Works) : i.Proceeds where
  uuid := works.uuid
  root := works.root
  dev := works.dev
  uav := works.uav
  addReads := works.addReads
  addReturns := works.addReturns
  serial := works.serial

/-- A report has a bounded number of fields, and a number takes at most 26 bytes. -/
def Prints (p : Platform) : Prop :=
  ∀ uuid id dev uav : CString, ∀ net fly data devTime uavTime,
    uuid.length ≤ 36 → id.length ≤ 6 → dev.length ≤ 6 → uav.length ≤ 6 →
      (p.cJSONPrint (reportRoot uuid id (.array
        [devObject dev (devValue net) devTime, uavObject uav (uavValue fly data) uavTime]))).length ≤ 4096

theorem sure_step {α β : Type} {P : World → Prop} {Q : α → World → Prop} {R : β → World → Prop} {c : Prop}
    {m : Prog α} {rest : α → Prog β} (first : Decides P True m Q)
    (next : ∀ a, Decides (Q a) c (rest a) R) : Decides P c (m >>= rest) R :=
  decides_weaken (decides_bind first next) (iff_of_eq (true_and c)) (fun _ held => held)
    fun _ _ held => held

section Identity

theorem getDeviceId_legible {r : Popen} (fits : r.FitsId) : Completes Legible (getDeviceId r) := by
  intro w legible
  cases reply : r.reply with
  | none => exact Or.inl ⟨trivial, (), w, getDeviceId_none reply w, legible⟩
  | some s =>
    obtain ⟨sn, written, ends⟩ := terminated_write legible.identity (fits s reply)
    exact Or.inl ⟨trivial, (), _, getDeviceId_some reply written, ends, legible.time⟩

theorem deviceId_legible : Decides Legible True deviceId fun id w => id.length ≤ 6 ∧ Legible w := by
  apply decides_get
  intro w legible
  obtain ⟨s, string, short⟩ := terminated_cstr legible.identity
  apply decides_check string
  rintro w' rfl
  exact ⟨short, legible⟩

theorem deviceId_returns : Completes Legible deviceId :=
  decides_weaken deviceId_legible Iff.rfl (fun _ held => held) fun _ _ held => held.2

theorem act_legible (a : Action) : Completes Legible (act a) :=
  decides_modify fun _ legible => ⟨legible.identity, legible.time⟩

theorem setCtx_legible (f : MqttContext → MqttContext) : Completes Legible (setCtx f) :=
  decides_modify fun _ legible => ⟨legible.identity, legible.time⟩

theorem subMqttTopic_legible (topic : CString) (ret : Int) : Completes Legible (subMqttTopic topic ret) := by
  apply decides_copy
  intro w _
  apply completes_bind (act_legible _)
  intro _
  split
  · exact act_legible _
  · exact decides_pure fun _ legible => legible

theorem mqttCallback_legible {c : Callback} (fits : ∀ s ∈ c.reads, s.FitsId) (returns : c.Returns) :
    Completes Legible (mqttCallback c) := by
  cases c with
  | connect mosq rc first second subscribe =>
    apply decides_sure
    apply mqttConnectCallback_walk Legible Legible Legible (fun _ => Legible) (fun _ => Legible)
    · exact fun failed => absurd returns failed
    · exact fun _ => spec_sure (getDeviceId_legible (fits first List.mem_cons_self))
    · exact fun _ legible _ => legible
    · exact fun _ legible _ => ⟨legible.identity, legible.time⟩
    · exact spec_sure deviceId_returns
    · exact fun _ _ _ legible => legible
    · intro _ _
      exact spec_sure (getDeviceId_legible (fits second (List.mem_cons_of_mem _ List.mem_cons_self)))
    · exact spec_sure deviceId_returns
    · exact fun _ _ _ _ => spec_sure (subMqttTopic_legible _ _)
  | disconnect mosq rc =>
    apply decides_copy
    intro w _
    split
    · exact setCtx_legible _
    · exact decides_pure fun _ legible => legible

theorem callbacks_legible {cs : List Callback} (fits : ∀ s ∈ cs.flatMap Callback.reads, s.FitsId)
    (returns : ∀ c ∈ cs, c.Returns) : Completes Legible (runAll mqttCallback cs) := by
  apply completes_runAll
  intro c member
  apply mqttCallback_legible
  · intro s read
    exact fits s (List.mem_flatMap.mpr ⟨c, member, read⟩)
  · exact returns c member

theorem readDeviceId_legible {r : Read} (works : r.Works) :
    Decides Legible True (readDeviceId r) fun id w => id.length ≤ 6 ∧ Legible w := by
  apply sure_step (callbacks_legible (fun s read => works.1 s (List.mem_append_left _ read)) works.2)
  intro _
  apply sure_step (getDeviceId_legible (works.1 r.popen (List.mem_append_right _ List.mem_cons_self)))
  intro _
  exact deviceId_legible

end Identity

theorem toInt32_small {n : Nat} (small : n < 2 ^ 31) : toInt32 n = n := by
  rw [toInt32, Int.bmod_eq_of_le (by omega) (by omega)]

/-- How newplat encrypts a string, for a report as for the password. -/
def encrypted (p : Platform) (ssl : OpenSSL) (plain : CString) : Checked (Option Bytes × Int) :=
  aesEcbPkcs5Encrypt ssl p.rounds plain.buffer (toInt32 plain.length) getDeviceKey 16 true

def Sealed (p : Platform) (ssl : OpenSSL) (plain text : CString) : Prop :=
  ∃ buf len, encrypted p ssl plain = .ok (some buf, len) ∧ cstr buf = .ok text

theorem encrypted_short (p : Platform) (ssl : OpenSSL) {plain : CString} (short : plain.length ≤ 4096) :
    encrypted p ssl plain = aesEcbPkcs5Encrypt ssl p.rounds plain.bytes plain.bytes.length getDeviceKey 16 true := by
  have small : toInt32 plain.length = plain.bytes.length := toInt32_small (by omega)
  rw [encrypted, CString.buffer, small, encrypt_front]

theorem short_fits {plain : CString} (short : plain.length ≤ 4096) :
    paddedSize plain.bytes.length * 2 ≤ 2147483647 := by
  rw [CString.length] at short
  unfold paddedSize
  omega

theorem deviceKey_long : 16 ≤ getDeviceKey.length := by decide

theorem short_sealed (p : Platform) {ssl : OpenSSL} {cipher : Bytes → Bytes → Bytes}
    (encrypts : Encrypts ssl cipher) {plain : CString} (short : plain.length ≤ 4096) :
    ∃ text, Sealed p ssl plain text := by
  obtain ⟨rest, sealed⟩ := encrypt_sealed encrypts p.rounds plain.bytes 16 deviceKey_long (short_fits short)
  rw [← encrypted_short p ssl short] at sealed
  exact ⟨_, _, _, sealed, cstr_terminated _ rest⟩

section Report

variable {p : Platform} {i : PostData}

/-- The parts of a report that vary, within the bounds its text relies on. -/
def IsParams (params : CJson) : Prop :=
  ∃ dev uav net fly data devTime uavTime, dev.length ≤ 6 ∧ uav.length ≤ 6 ∧
    params = .array [devObject dev (devValue net) devTime, uavObject uav (uavValue fly data) uavTime]

theorem cjsonCreateParamsData_legible (proceeds : i.Proceeds) :
    Decides Legible True (cjsonCreateParamsData p i) fun params w => IsParams params ∧ Legible w := by
  have dev : Decides Legible True (cjsonCreateDevData p i.dev i.clock) fun o w =>
      (∃ id net t, id.length ≤ 6 ∧ o = devObject id (devValue net) t) ∧ Legible w := by
    apply sure_step (readDeviceId_legible proceeds.dev)
    intro id
    apply decides_get
    rintro w ⟨short, legible⟩
    apply decides_pure
    rintro w' rfl
    exact ⟨⟨id, _, _, short, rfl⟩, legible⟩
  have uav : Decides Legible True (cjsonCreateUavData p i.uav) fun o w =>
      (∃ id fly data t, id.length ≤ 6 ∧ o = uavObject id (uavValue fly data) t) ∧ Legible w := by
    apply decides_get
    intro w legible
    obtain ⟨time, string, -⟩ := terminated_cstr legible.time
    rw [string, check_ok_bind]
    have read : Decides (fun w' => w' = w) True (readDeviceId i.uav)
        fun id w => id.length ≤ 6 ∧ Legible w :=
      decides_weaken (readDeviceId_legible proceeds.uav) Iff.rfl (fun _ same => same.symm ▸ legible)
        fun _ _ held => held
    apply sure_step read
    intro id
    apply decides_pure
    rintro w' ⟨short, legible'⟩
    exact ⟨⟨id, _, _, _, short, rfl⟩, legible'⟩
  apply sure_step dev
  intro d
  apply decides_fact
  rintro ⟨devId, net, devTime, devShort, rfl⟩
  apply sure_step uav
  intro u
  apply decides_fact
  rintro ⟨uavId, fly, data, uavTime, uavShort, rfl⟩
  apply decides_pure
  intro w legible
  exact ⟨⟨devId, uavId, net, fly, data, devTime, uavTime, devShort, uavShort, rfl⟩, legible⟩

theorem report_short (prints : Prints p) (proceeds : i.Proceeds) {id : CString} (short : id.length ≤ 6)
    {params : CJson} (formed : IsParams params) :
    (p.cJSONPrint (reportRoot i.uuid id params)).length ≤ 4096 := by
  obtain ⟨dev, uav, net, fly, data, devTime, uavTime, devShort, uavShort, rfl⟩ := formed
  exact prints i.uuid id dev uav net fly data devTime uavTime proceeds.uuid short devShort uavShort

theorem report_sealed (prints : Prints p) (works : i.Works) {id : CString} (short : id.length ≤ 6)
    {params : CJson} (formed : IsParams params) :
    ∃ text, Sealed p i.ssl (p.cJSONPrint (reportRoot i.uuid id params)) text := by
  obtain ⟨cipher, encrypts⟩ := works.encrypts
  exact short_sealed p encrypts (report_short prints (works_proceeds works) short formed)

theorem cjsonMsgAdd_legible {buf : Bytes} {text : CString} (string : cstr buf = .ok text)
    (report : Option CJson) {a : MsgAdd} (fits : a.serial.FitsId) :
    Completes Legible (cjsonMsgAdd (some buf) report a) := by
  apply completes_bind deviceId_returns
  intro id
  split
  · exact decides_pure fun _ legible => legible
  apply completes_bind (getDeviceId_legible fits)
  intro _
  apply completes_bind deviceId_returns
  intro id
  apply decides_copy
  intro w _
  apply completes_bind (act_legible _)
  intro _
  split
  · exact act_legible _
  · simp only [string, check_ok_bind]
    exact decides_modify fun _ legible => ⟨legible.identity, legible.time⟩

theorem cjsonCreatPostData_legible (prints : Prints p) (works : i.Works) :
    Completes Legible (cjsonCreatPostData p i) := by
  apply completes_bind (act_legible _)
  intro _
  apply sure_step (readDeviceId_legible works.root)
  intro id
  apply decides_fact
  intro short
  apply sure_step (cjsonCreateParamsData_legible (works_proceeds works))
  intro params
  apply decides_fact
  intro formed
  obtain ⟨text, buf, len, sealed, string⟩ := report_sealed prints works short formed
  rw [encrypted] at sealed
  dsimp only
  rw [sealed, check_ok_bind]
  apply completes_bind (callbacks_legible works.addReads works.addReturns)
  intro _
  exact cjsonMsgAdd_legible string _ works.serial

/-- A report leaves the string buffers of the bus alone. -/
theorem strings_steady : Steady fun w => StringsReady w.ubusString :=
  ⟨fun _ held => held, fun _ held => held⟩

theorem getDeviceId_strings (r : Popen) : Keeps (fun w => StringsReady w.ubusString) (getDeviceId r) :=
  getDeviceId_keeps (fun _ held => held) r

theorem ready_step {α : Type} {c : Prop} {m : Prog α} {Q : α → World → Prop} (decides : Decides Legible c m Q)
    (strings : Keeps (fun w => StringsReady w.ubusString) m) (legible : ∀ a w, Q a w → Legible w) :
    Decides Ready c m fun _ => Ready :=
  decides_weaken (decides_keeps decides strings) Iff.rfl (fun _ ready => ⟨ready_legible ready, ready.strings⟩)
    fun a w ⟨post, strings⟩ => legible_ready (legible a w post) strings

theorem getDeviceId_ready {r : Popen} (fits : r.FitsId) : Completes Ready (getDeviceId r) :=
  ready_step (getDeviceId_legible fits) (getDeviceId_strings r) fun _ _ legible => legible

theorem act_ready (a : Action) : Completes Ready (act a) :=
  decides_modify fun _ ready => ⟨ready.strings, ready.identity, ready.time⟩

theorem cjsonCreatPostData_ready (prints : Prints p) (works : i.Works) :
    Completes Ready (cjsonCreatPostData p i) := by
  have reported : Reported fun w => StringsReady w.ubusString := ⟨fun _ held => held, fun _ _ held => held⟩
  have build : Keeps (fun w => StringsReady w.ubusString) (buildPostData p i) :=
    buildPostData_keeps strings_steady p (fun r _ => getDeviceId_strings r) fun data report =>
      cjsonMsgAdd_keeps strings_steady reported data report (getDeviceId_strings _)
  have strings : Keeps (fun w => StringsReady w.ubusString) (cjsonCreatPostData p i) :=
    keeps_bind (keeps_act fun _ held => held) fun _ => build
  exact ready_step (cjsonCreatPostData_legible prints works) strings fun _ _ legible => legible

end Report

/-! The tick cut at the copy of the time. -/

def uavinfoUntilTime (p : Platform) (h : Heartbeat) : Prog (Option CString) := do
  setUav fun u => { u with coordinate := toUChar (ubusGetInt h.coordinate (CString.lit "coordinate") 0) }
  setUav fun u => { u with flightTime := ubusGetInt h.flightTime (CString.lit "flight_time") 0 }
  let lat ← getString p h.lat (CString.lit "lat")
  let lat ← atofTimes p lat 10000000
  setUav fun u => { u with lat := toInt32 lat }
  let lng ← getString p h.lng (CString.lit "lng")
  let lng ← atofTimes p lng 10000000
  setUav fun u => { u with lng := toInt32 lng }
  setUav fun u => { u with alt := ubusGetInt h.alt (CString.lit "alt") 0 }
  let height ← getString p h.height (CString.lit "height")
  let height ← atofTimes p height 10
  setUav fun u => { u with height := toInt32 height }
  getString p h.time (CString.lit "time")

def uavinfoAfterTime (p : Platform) (h : Heartbeat) : Prog Unit := do
  setUav fun u => { u with course := toInt32 (ubusGetInt h.cog (CString.lit "cog") 0 * 10) }
  let spd ← getString p h.speed (CString.lit "speed")
  let spd ← atofTimes p spd 10
  setUav fun u => { u with spd := toShort spd }

/-- The tick up to the string that `memcpy` is given. -/
def untilTime (p : Platform) (h : Heartbeat) : Prog (Option CString) := do
  setUav fun _ => .zero
  modify fun w => { w with gFlyTime := toInt32 (w.gFlyTime + 1) }
  readModeminfo p h
  uavinfoUntilTime p h

theorem collect_parts (p : Platform) (h : Heartbeat) : collect p h = (do
    let uavtime ← untilTime p h
    copyTime uavtime
    uavinfoAfterTime p h) := by
  simp only [collect, readUavinfo, untilTime, uavinfoUntilTime, uavinfoAfterTime, bind_assoc]

section Telemetry

variable {p : Platform} {h : Heartbeat}

def StringReply.AtMost (n : Nat) (r : StringReply) (param : CString) : Prop :=
  ∀ value, foundString r.answer param = some value → value.length ≤ n

theorem stored_short {r : StringReply} {param : CString} (short : r.AtMost 15 param) :
    Short (r.answer, param) :=
  fun value found => (short value found).trans (by decide)

def StringReply.Readable (r : StringReply) (param : CString) : Prop :=
  (expectedString r.answer param).isSome = true

/-- The four strings a tick reads through without a test. -/
def Heartbeat.Readable (h : Heartbeat) : Prop :=
  h.lat.Readable (CString.lit "lat") ∧ h.lng.Readable (CString.lit "lng") ∧
    h.height.Readable (CString.lit "height") ∧ h.speed.Readable (CString.lit "speed")

structure Heartbeat.Short (h : Heartbeat) : Prop where
  netStyle : h.netStyle.AtMost 15 (CString.lit "net_style")
  lat : h.lat.AtMost 15 (CString.lit "lat")
  lng : h.lng.AtMost 15 (CString.lit "lng")
  height : h.height.AtMost 15 (CString.lit "height")
  time : h.time.AtMost 15 (CString.lit "time")
  speed : h.speed.AtMost 15 (CString.lit "speed")

theorem getString_ready (unsigned : p.target.charSigned = false) {r : StringReply} {param : CString}
    (stored : Short (r.answer, param)) :
    Decides Ready True (getString p r param) fun s w => s = expectedString r.answer param ∧ Ready w := by
  intro w ready
  obtain ⟨st, call, strings⟩ := ubusGetString_short unsigned ready.strings r.fresh stored
  refine Or.inl ⟨trivial, _, { w with ubusString := st }, ?_, rfl, strings, ready.identity, ready.time⟩
  simp [getString, call, -bind_pure_comp]

theorem setNet_ready (f : NetInfo → NetInfo) : Completes Ready (setNet f) :=
  decides_modify fun _ ready => ⟨ready.strings, ready.identity, ready.time⟩

theorem setUav_ready {f : UavData → UavData} (time : ∀ u, (f u).time = u.time) :
    Completes Ready (setUav f) := by
  apply decides_modify
  intro w ready
  refine ⟨ready.strings, ready.identity, ?_⟩
  rw [time]
  exact ready.time

/-- Reading a number through a string: it returns exactly when the string is there. -/
theorem atof_step (unsigned : p.target.charSigned = false) {α : Type} {r : StringReply} {param : CString}
    {k : Int} {rest : Int → Prog α} {Q : α → World → Prop} {c : Prop} (short : r.AtMost 15 param)
    (next : ∀ x, Decides Ready c (rest x) Q) :
    Decides Ready (r.Readable param ∧ c) (do
      let s ← getString p r param
      let x ← atofTimes p s k
      rest x) Q := by
  apply sure_step (getString_ready unsigned (stored_short short))
  intro s
  apply decides_fact
  rintro rfl
  cases found : expectedString r.answer param with
  | none =>
    intro w _
    refine Or.inr ⟨?_, .nullPointer, w, rfl⟩
    rintro ⟨readable, -⟩
    rw [StringReply.Readable, found] at readable
    cases readable
  | some s =>
    have readable : r.Readable param := by rw [StringReply.Readable, found]; rfl
    exact decides_weaken (next (p.atofTimes s k)) (iff_of_eq (by simp [readable])) (fun _ held => held)
      fun _ _ held => held

theorem copyTime_ready {s : Option CString} (short : ∀ t, s = some t → t.length ≤ 15) :
    Completes Ready (copyTime s) := by
  cases s with
  | none => exact decides_pure fun _ ready => ready
  | some t =>
    apply decides_get
    intro w ready
    have fits : t.bytes.length ≤ 15 := short t rfl
    have copied : memcpy w.gUavData.time 0 t.buffer 0 t.length = write w.gUavData.time 0 t.bytes :=
      memcpy_string (cstr_terminated t []) _
    obtain ⟨time, written, ends⟩ := terminated_write ready.time fits
    simp only [copied, written, check_ok_bind]
    apply decides_modify
    rintro w' rfl
    exact ⟨ready.strings, ready.identity, ends⟩

theorem readModeminfo_ready (unsigned : p.target.charSigned = false)
    (short : h.netStyle.AtMost 15 (CString.lit "net_style")) :
    Completes Ready (readModeminfo p h) := by
  iterate 6
    apply completes_bind (setNet_ready _)
    intro _
  apply sure_step (getString_ready unsigned (stored_short short))
  intro s
  apply decides_fact
  intro _
  exact setNet_ready _

theorem uavinfoUntilTime_decides (unsigned : p.target.charSigned = false)
    (lat : h.lat.AtMost 15 (CString.lit "lat")) (lng : h.lng.AtMost 15 (CString.lit "lng"))
    (height : h.height.AtMost 15 (CString.lit "height")) (time : Short (h.time.answer, CString.lit "time")) :
    Decides Ready (h.lat.Readable (CString.lit "lat") ∧ h.lng.Readable (CString.lit "lng") ∧
      h.height.Readable (CString.lit "height") ∧ True) (uavinfoUntilTime p h)
      fun s w => s = expectedString h.time.answer (CString.lit "time") ∧ Ready w := by
  apply sure_step (setUav_ready (by intro u; rfl))
  intro _
  apply sure_step (setUav_ready (by intro u; rfl))
  intro _
  apply atof_step unsigned lat
  intro lat
  apply sure_step (setUav_ready (by intro u; rfl))
  intro _
  apply atof_step unsigned lng
  intro lng
  apply sure_step (setUav_ready (by intro u; rfl))
  intro _
  apply sure_step (setUav_ready (by intro u; rfl))
  intro _
  apply atof_step unsigned height
  intro height
  apply sure_step (setUav_ready (by intro u; rfl))
  intro _
  exact getString_ready unsigned time

theorem untilTime_decides (unsigned : p.target.charSigned = false)
    (netStyle : h.netStyle.AtMost 15 (CString.lit "net_style"))
    (lat : h.lat.AtMost 15 (CString.lit "lat")) (lng : h.lng.AtMost 15 (CString.lit "lng"))
    (height : h.height.AtMost 15 (CString.lit "height")) (time : Short (h.time.answer, CString.lit "time")) :
    Decides Ready (h.lat.Readable (CString.lit "lat") ∧ h.lng.Readable (CString.lit "lng") ∧
      h.height.Readable (CString.lit "height") ∧ True) (untilTime p h)
      fun s w => s = expectedString h.time.answer (CString.lit "time") ∧ Ready w := by
  have cleared : Completes Ready (setUav fun _ => .zero) :=
    decides_modify fun _ ready => ⟨ready.strings, ready.identity, zeros_terminated 15⟩
  have counted : Completes Ready (modify fun w : World =>
      { w with gFlyTime := toInt32 (w.gFlyTime + 1) } : Prog Unit) :=
    decides_modify fun _ ready => ⟨ready.strings, ready.identity, ready.time⟩
  apply sure_step cleared
  intro _
  apply sure_step counted
  intro _
  apply sure_step (readModeminfo_ready unsigned netStyle)
  intro _
  exact uavinfoUntilTime_decides unsigned lat lng height time

theorem uavinfoAfterTime_decides (unsigned : p.target.charSigned = false)
    (speed : h.speed.AtMost 15 (CString.lit "speed")) :
    Decides Ready (h.speed.Readable (CString.lit "speed") ∧ True) (uavinfoAfterTime p h) fun _ => Ready := by
  apply sure_step (setUav_ready (by intro u; rfl))
  intro _
  apply atof_step unsigned speed
  intro spd
  exact setUav_ready (by intro u; rfl)

theorem collect_decides (unsigned : p.target.charSigned = false) (short : h.Short) :
    Decides Ready h.Readable (collect p h) fun _ => Ready := by
  have timeShort : ∀ t, expectedString h.time.answer (CString.lit "time") = some t → t.length ≤ 15 := by
    intro t found
    exact short.time t (Option.filter_eq_some_iff.mp found).1
  have until_time := untilTime_decides unsigned short.netStyle short.lat short.lng short.height
    (stored_short short.time)
  have chain : Decides Ready ((h.lat.Readable (CString.lit "lat") ∧ h.lng.Readable (CString.lit "lng") ∧
      h.height.Readable (CString.lit "height") ∧ True) ∧ h.speed.Readable (CString.lit "speed") ∧ True)
      (collect p h) fun _ => Ready := by
    rw [collect_parts]
    apply decides_bind until_time
    intro uavtime
    apply decides_fact
    rintro rfl
    apply sure_step (copyTime_ready timeShort)
    intro _
    exact uavinfoAfterTime_decides unsigned short.speed
  exact decides_weaken chain (by simp [Heartbeat.Readable, and_assoc]) (fun _ held => held)
    fun _ _ held => held

theorem mqttPostRun_decides (unsigned : p.target.charSigned = false) (prints : Prints p) (short : h.Short)
    (works : h.postData.Works) :
    Decides Ready h.Readable (mqttPostRun p h) fun _ => Ready := by
  have report : Completes Ready (do
      cjsonCreatPostData p h.postData
      act (.uloopTimeoutSet .mqttPostTimeout 1000)) :=
    completes_bind (cjsonCreatPostData_ready prints works) fun _ => act_ready _
  rw [mqttPostRun_eq]
  exact decides_weaken (decides_bind (collect_decides unsigned short) fun _ => report)
    (iff_of_eq (and_true _))
    (fun _ held => held) fun _ _ held => held

/-- With a signed `char` the first string asked for ends the program. -/
theorem untilTime_ends_signed (signed : p.target.charSigned = true) :
    EndsAs (fun w => w.ubusString = .start p.target) (some .nullPointer) (untilTime p h) fun _ _ => False := by
  have kept {f : World → World} (same : ∀ w, (f w).ubusString = w.ubusString) :
      Decides (fun w => w.ubusString = .start p.target) True (modify f : Prog Unit)
        fun _ w => w.ubusString = .start p.target :=
    decides_modify fun w start => (same w).trans start
  have asked (r : StringReply) (param : CString) :
      EndsAs (fun w => w.ubusString = .start p.target) (some .nullPointer) (getString p r param) fun _ _ => False := by
    intro w start
    have call := ubusGetString_signed signed r.fresh r.answer param
    have run : getString p r param w = .error .nullPointer w := by
      simp only [getString, get_bind_run, start, call]
      rfl
    rw [run]
    refine ⟨rfl, fun _ _ returns => ?_⟩
    cases returns
  have modem : EndsAs (fun w => w.ubusString = .start p.target) (some .nullPointer) (readModeminfo p h)
      fun _ _ => False := by
    iterate 6
      apply endsAs_then (kept (by intro w; rfl))
      intro _
    exact endsAs_stop (asked _ _)
  apply endsAs_then (kept (by intro w; rfl))
  intro _
  apply endsAs_then (kept (by intro w; rfl))
  intro _
  exact endsAs_stop modem

theorem collect_ends_signed (signed : p.target.charSigned = true) :
    EndsAs (fun w => w.ubusString = .start p.target) (some .nullPointer) (collect p h) fun _ _ => False := by
  rw [collect_parts]
  exact endsAs_stop (untilTime_ends_signed signed)

theorem collect_signed (signed : p.target.charSigned = true) :
    Decides (fun w => w.ubusString = .start p.target) False (collect p h) fun _ _ => False :=
  decides_ends (collect_ends_signed signed)

theorem mqttPostRun_signed (signed : p.target.charSigned = true) :
    Decides (fun w => w.ubusString = .start p.target) False (mqttPostRun p h) fun _ _ => False := by
  rw [mqttPostRun_eq]
  exact decides_halt (collect_signed signed)

end Telemetry

def Action.isPost : Action → Bool
  | .cjsonCreatPostData => true
  | _ => false

/-- The tick returns, having made one report and armed its timer again. -/
def RunsToEnd (p : Platform) (h : Heartbeat) (w : World) : Prop :=
  ∃ w' added, mqttPostRun p h w = .ok () w' ∧ w'.trace = w.trace ++ added ∧
    added.countP Action.isPost = 1 ∧ added.getLast? = some (.uloopTimeoutSet .mqttPostTimeout 1000)

theorem mqttPostRun_once (p : Platform) (h : Heartbeat) {w w' : World}
    (returns : mqttPostRun p h w = .ok () w') : RunsToEnd p h w := by
  let told (w' : World) : Prop :=
    ∃ added, w'.trace = w.trace ++ .cjsonCreatPostData :: added ∧ added.countP Action.isPost = 0
  have quiet {v : World} {a : Action} (other : a.isPost = false) (held : told v) :
      told { v with trace := v.trace ++ [a] } := by
    obtain ⟨added, same, none⟩ := held
    refine ⟨added ++ [a], by rw [same, List.append_assoc, List.cons_append], ?_⟩
    rw [List.countP_append, none, List.countP_singleton, other]
    rfl
  have steady : Steady told := by
    constructor
    · exact fun _ held => held
    · intro v a silent
      apply quiet
      cases a <;> first | rfl | cases silent
  have reported : Reported told := by
    constructor
    · exact fun _ held => quiet rfl held
    · intro v m report held
      exact quiet (v := { v with gMsgList := v.gMsgList ++ [m] }) rfl held
  have device (r : Popen) : Keeps told (getDeviceId r) := getDeviceId_keeps (fun _ held => held) r
  have build : Keeps told (buildPostData p h.postData) :=
    buildPostData_keeps steady p (fun r _ => device r) fun data report =>
      cjsonMsgAdd_keeps steady reported data report (device _)
  have collected : Keeps (fun v => v.trace = w.trace) (collect p h) := by
    apply collect_keeps
    constructor <;> exact fun _ held => held
  have ends : Spec (fun v => v.trace = w.trace) (mqttPostRun p h) (fun _ v => ∃ added,
      v.trace = w.trace ++ added ∧ added.countP Action.isPost = 1 ∧
        added.getLast? = some (.uloopTimeoutSet .mqttPostTimeout 1000)) fun _ => True := by
    apply mqttPostRun_spec p (spec_keeps collected) _ (spec_keeps build)
    · rintro v ⟨added, same, none⟩
      refine ⟨.cjsonCreatPostData :: added ++ [.uloopTimeoutSet .mqttPostTimeout 1000], ?_, ?_, ?_⟩
      · rw [same, List.append_assoc]
      · rw [List.countP_append, List.countP_cons, none]
        rfl
      · rw [List.getLast?_append_of_ne_nil _ (List.cons_ne_nil _ _)]
        rfl
    · exact fun v same => ⟨[], congrArg (fun t => t ++ [Action.cjsonCreatPostData]) same, rfl⟩
  obtain ⟨added, facts⟩ := spec_ok ends rfl returns
  exact ⟨w', added, returns, facts⟩

section Runs

variable {p : Platform}

/-- Every run of the command prints what fits, and no string of a tick is long. -/
def Event.Fits : Event → Prop
  | .msgAdd _ i => i.serial.FitsId
  | .post h => h.Short ∧ (∀ r ∈ h.postData.reads, r.FitsId) ∧ h.postData.add.serial.FitsId
  | .send turns => ∀ k, ∀ r ∈ (turns k).before.flatMap Callback.reads, r.FitsId
  | .callback c => ∀ r ∈ c.reads, r.FitsId

theorem device_ready {r : Popen} (fits : r.FitsId) : Keeps Ready (getDeviceId r) := by
  intro w ready
  rcases getDeviceId_ready fits w ready with ⟨-, a, w', run, ready'⟩ | ⟨never, -⟩
  · rw [run]
    exact ready'
  · exact absurd trivial never

theorem ready_steady : Steady Ready where
  connection _ ready := ⟨ready.strings, ready.identity, ready.time⟩
  history _ ready := ⟨ready.strings, ready.identity, ready.time⟩

theorem ready_armed : Armed Ready := fun _ _ _ ready => ⟨ready.strings, ready.identity, ready.time⟩

theorem ready_drained : Drained Ready where
  turn _ _ ready := ⟨ready.strings, ready.identity, ready.time⟩
  publish _ _ _ _ _ _ ready := ⟨ready.strings, ready.identity, ready.time⟩
  unsupported ready := ⟨ready.strings, ready.identity, ready.time⟩
  list _ ready := ⟨ready.strings, ready.identity, ready.time⟩

theorem ready_reported : Reported Ready where
  formatted _ ready := ⟨ready.strings, ready.identity, ready.time⟩
  queued _ _ ready := ⟨ready.strings, ready.identity, ready.time⟩

theorem main_ready {b : Boot} (serial : b.serial.FitsId) : Keeps Ready (main p b) := by
  apply main_keeps p ready_steady.history ready_armed
  · exact fun _ _ ready => ⟨ready.strings, ready.identity, ready.time⟩
  · exact fun _ ready => ⟨ready.strings, ready.identity, ready.time⟩
  · exact device_ready serial
  · exact fun _ _ ready => ⟨ready.strings, ready.identity, ready.time⟩

theorem handle_ready (unsigned : p.target.charSigned = false) {e : Event} (fits : e.Fits) :
    Spec Ready (handle p e) (fun _ => Ready) fun _ => True := by
  have add (data : Option Bytes) (report : Option CJson) {i : MsgAdd} (serial : i.serial.FitsId) :
      Keeps Ready (cjsonMsgAdd data report i) :=
    cjsonMsgAdd_keeps ready_steady ready_reported data report (device_ready serial)
  cases e with
  | msgAdd data i => exact spec_keeps (add data none fits)
  | post h =>
    obtain ⟨short, reads, serial⟩ := fits
    have build : Keeps Ready (buildPostData p h.postData) :=
      buildPostData_keeps ready_steady p (fun r read => device_ready (reads r read))
        fun data report => add data report serial
    apply mqttPostRun_spec p (spec_decides (collect_decides unsigned short)) _ (spec_keeps build)
    · exact fun _ ready => ⟨ready.strings, ready.identity, ready.time⟩
    · exact fun _ ready => ⟨ready.strings, ready.identity, ready.time⟩
  | send turns =>
    exact spec_keeps (mqttSendRun_keeps ready_steady ready_armed ready_drained fun k r read =>
      device_ready (fits k r read))
  | callback c => exact spec_keeps (mqttCallback_keeps ready_steady fun r read =>
      device_ready (fits r read))

/-- No string has been asked for yet, and `J` holds. -/
structure Unasked (t : Target) (J : World → Prop) (w : World) : Prop where
  strings : w.ubusString = .start t
  rest : J w

theorem unasked_steady {t : Target} {J : World → Prop} (steady : Steady J) : Steady (Unasked t J) where
  connection up held := ⟨held.strings, steady.connection up held.rest⟩
  history quiet held := ⟨held.strings, steady.history quiet held.rest⟩

theorem unasked_armed {t : Target} {J : World → Prop} (armed : Armed J) : Armed (Unasked t J) :=
  fun w timer msecs held => ⟨held.strings, armed w timer msecs held.rest⟩

theorem unasked_drained {t : Target} {J : World → Prop} (drained : Drained J) :
    Drained (Unasked t J) where
  turn m up held := ⟨held.strings, drained.turn m up held.rest⟩
  publish topic data len qos retain ret held :=
    ⟨held.strings, drained.publish topic data len qos retain ret held.rest⟩
  unsupported held := ⟨held.strings, drained.unsupported held.rest⟩
  list list held := ⟨held.strings, drained.list list held.rest⟩

/-- With a signed `char` no tick gets past the collecting, so the string is never asked for. -/
theorem handle_unasked {J : World → Prop} (signed : p.target.charSigned = true) (steady : Steady J)
    (armed : Armed J) (sampled : Sampled J) (drained : Drained J)
    (renamed : ∀ {w} sn, J w → J { w with gDeviceId := sn }) {e : Event}
    (add : ∀ data i, e = .msgAdd data i → Keeps (Unasked p.target J) (cjsonMsgAdd data none i)) :
    Spec (Unasked p.target J) (handle p e) (fun _ => Unasked p.target J) J := by
  have device (r : Popen) : Keeps (Unasked p.target J) (getDeviceId r) :=
    getDeviceId_keeps (fun sn held => ⟨held.strings, renamed sn held.rest⟩) r
  have anyway {m : Prog Unit} (keeps : Keeps (Unasked p.target J) m) :
      Spec (Unasked p.target J) m (fun _ => Unasked p.target J) J :=
    spec_halting keeps fun _ held => held.rest
  cases e with
  | msgAdd data i => exact anyway (add data i rfl)
  | post h =>
    have halts := spec_halts (collect_signed signed) (collect_keeps sampled p h)
    simp only [handle]
    rw [mqttPostRun_eq]
    apply spec_bind (spec_from halts fun _ held => ⟨held.strings, held.rest⟩)
    exact fun _ _ never => never.elim
  | send turns =>
    exact anyway (mqttSendRun_keeps (unasked_steady steady) (unasked_armed armed) (unasked_drained drained)
      fun _ r _ => device r)
  | callback c => exact anyway (mqttCallback_keeps (unasked_steady steady) fun r _ => device r)

theorem newplat_ready (unsigned : p.target.charSigned = false) {b : Boot} {events : List Event}
    (serial : b.serial.FitsId) (before : ∀ e ∈ events, e.Fits) :
    Spec Ready (newplat p b events) (fun _ => Ready) fun _ => True :=
  spec_bind (spec_keeps (main_ready serial)) fun _ => spec_runAll fun e member =>
    handle_ready unsigned (before e member)

theorem newplat_unasked {J : World → Prop} {b : Boot} {events : List Event}
    (signed : p.target.charSigned = true)
    (steady : Steady J) (armed : Armed J) (sampled : Sampled J) (drained : Drained J)
    (renamed : ∀ {w} sn, J w → J { w with gDeviceId := sn })
    (ctx : ∀ {w} c, J w → J { w with gMqttCtx := c })
    (login : ∀ {w} user password, J w →
      J { w with trace := w.trace ++ [.mosquittoUsernamePwSet user password] })
    (add : ∀ data i, .msgAdd data i ∈ events → Keeps (Unasked p.target J) (cjsonMsgAdd data none i)) :
    Spec (Unasked p.target J) (newplat p b events) (fun _ => Unasked p.target J) J := by
  have started : Keeps (Unasked p.target J) (main p b) := by
    apply main_keeps p (unasked_steady steady).history (unasked_armed armed)
    · exact fun c _ held => ⟨held.strings, ctx c held.rest⟩
    · exact fun t held => ⟨held.strings, sampled.flyTime t held.rest⟩
    · exact getDeviceId_keeps (fun sn held => ⟨held.strings, renamed sn held.rest⟩) _
    · exact fun user password held => ⟨held.strings, login user password held.rest⟩
  apply spec_bind (spec_halting started fun _ held => held.rest)
  intro _
  apply spec_runAll
  intro e member
  apply handle_unasked signed steady armed sampled drained renamed
  rintro data i rfl
  exact add data i member

theorem start_ready_world (unsigned : p.target.charSigned = false) : Ready (.start p.target) :=
  ⟨start_ready unsigned, zeros_terminated 6, zeros_terminated 15⟩

/-- In every state a run reaches, a tick runs to its end exactly when plain `char` is
unsigned and each of the four strings is there and not empty. -/
theorem heartbeat_ends_iff {b : Boot} {events : List Event} {w : World} {h : Heartbeat}
    (prints : Prints p) (serial : b.serial.FitsId) (before : ∀ e ∈ events, e.Fits)
    (reached : newplat p b events (.start p.target) = .ok () w) (short : h.Short)
    (works : h.postData.Works) :
    RunsToEnd p h w ↔ p.target.charSigned = false ∧ h.Readable := by
  cases sign : p.target.charSigned with
  | true =>
    have add (data : Option Bytes) (i : MsgAdd) :
        Keeps (Unasked p.target Anywhere) (cjsonMsgAdd data none i) := by
      apply cjsonMsgAdd_keeps (unasked_steady anywhere_steady)
      · exact ⟨fun _ held => ⟨held.strings, trivial⟩, fun _ _ held => ⟨held.strings, trivial⟩⟩
      · exact getDeviceId_keeps (fun _ held => ⟨held.strings, trivial⟩) _
    have runs : Spec (Unasked p.target Anywhere) (newplat p b events)
        (fun _ => Unasked p.target Anywhere) Anywhere :=
      newplat_unasked sign anywhere_steady (fun _ _ _ _ => trivial) anywhere_sampled anywhere_drained
        (fun _ _ => trivial) (fun _ _ => trivial) (fun _ _ _ => trivial) fun data i _ => add data i
    have unasked := spec_ok runs ⟨rfl, trivial⟩ reached
    constructor
    · rintro ⟨w', -, returns, -⟩
      rcases mqttPostRun_signed (h := h) sign w unasked.strings with ⟨never, -⟩ | ⟨-, e, s, halts⟩
      · exact never.elim
      · rw [halts] at returns
        cases returns
    · rintro ⟨unsigned, -⟩
      cases unsigned
  | false =>
    have ready := spec_ok (newplat_ready sign serial before) (start_ready_world sign) reached
    rcases mqttPostRun_decides sign prints short works w ready with ⟨readable, _, w', run, -⟩ |
      ⟨unreadable, e, s, halts⟩
    · exact ⟨fun _ => ⟨rfl, readable⟩, fun _ => mqttPostRun_once p h run⟩
    · constructor
      · rintro ⟨w', -, returns, -⟩
        rw [halts] at returns
        cases returns
      · rintro ⟨-, readable⟩
        exact absurd readable unreadable

end Runs

theorem device_prints : Prints devicePlatform := by
  intro uuid id dev uav net fly data devTime uavTime _ _ _ _
  exact List.length_take_le 4096 _

theorem serialPrinted_fits : serialPrinted.FitsId := by
  rintro s ⟨rfl⟩
  decide

theorem devicePostData_works : devicePostData.Works := by
  have read : (⟨[], serialPrinted⟩ : Read).Works := by
    constructor
    · intro s member
      rw [List.mem_singleton.mp member]
      exact serialPrinted_fits
    · exact fun c none => nomatch none
  exact {
    uuid := by decide
    root := read
    dev := read
    uav := read
    addReads := fun s none => nomatch none
    addReturns := fun c none => nomatch none
    serial := serialPrinted_fits
    encrypts := ⟨aesEcb, device_encrypts⟩ }

theorem deviceHeartbeat_short : deviceHeartbeat.Short := by
  constructor <;> rintro value ⟨rfl⟩ <;> decide

def unconfiguredBoot : Boot := { deviceBoot with ctx := configOf [] }

def unconfiguredWorld : World :=
  leaves (newplat devicePlatform unconfiguredBoot [] (.start devicePlatform.target))

theorem unconfigured_reached :
    newplat devicePlatform unconfiguredBoot [] (.start devicePlatform.target) =
      .ok () unconfiguredWorld := by
  rfl

theorem unconfigured_ready : Ready unconfiguredWorld := by
  have started : Keeps Ready (newplat devicePlatform unconfiguredBoot []) :=
    keeps_bind (main_ready serialPrinted_fits) fun _ => keeps_pure
  exact spec_ok started (start_ready_world (p := devicePlatform) rfl) unconfigured_reached

theorem device_heartbeat_ends : RunsToEnd devicePlatform deviceHeartbeat unconfiguredWorld := by
  have before : ∀ e ∈ ([] : List Event), e.Fits := fun e none => nomatch none
  exact (heartbeat_ends_iff device_prints serialPrinted_fits before unconfigured_reached deviceHeartbeat_short
    devicePostData_works).mpr ⟨rfl, rfl, rfl, rfl, rfl⟩

/-- The uartd service is absent: every lookup of it fails. -/
def groundedHeartbeat : Heartbeat := { deviceHeartbeat with
  coordinate := ⟨true, 4, 0, none⟩
  flightTime := ⟨true, 4, 0, none⟩
  lat := ⟨⟨true, 4, 0, none⟩, fun _ => 0⟩
  lng := ⟨⟨true, 4, 0, none⟩, fun _ => 0⟩
  alt := ⟨true, 4, 0, none⟩
  height := ⟨⟨true, 4, 0, none⟩, fun _ => 0⟩
  time := ⟨⟨true, 4, 0, none⟩, fun _ => 0⟩
  cog := ⟨true, 4, 0, none⟩
  speed := ⟨⟨true, 4, 0, none⟩, fun _ => 0⟩ }

theorem grounded_heartbeat_stops : ¬ RunsToEnd devicePlatform groundedHeartbeat unconfiguredWorld := by
  rintro ⟨w', added, returns, -⟩
  have short : groundedHeartbeat.Short := by
    constructor
    · exact deviceHeartbeat_short.netStyle
    all_goals
      intro value found
      cases found
  have unreadable : ¬ groundedHeartbeat.Readable := by
    rintro ⟨lat, -⟩
    cases lat
  rcases mqttPostRun_decides rfl device_prints short devicePostData_works unconfiguredWorld unconfigured_ready
    with ⟨readable, -⟩ | ⟨-, e, s, halts⟩
  · exact unreadable readable
  · have same := halts.symm.trans returns
    cases same

end Newplat
