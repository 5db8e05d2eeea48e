import Newplat.Heartbeat
import Newplat.UbusInt

/-! What a tick reads over the bus, where it stores it, and what of it the report carries. -/
namespace Newplat

open Base

/-- The tree of a report, and then what is done with it. -/
def buildReport (p : Platform) (i : PostData) : Prog CJson := do
  let id ← readDeviceId i.root
  let params ← cjsonCreateParamsData p i
  return reportRoot i.uuid id params

def sendReport (p : Platform) (i : PostData) (root : CJson) : Prog Unit := do
  let out := p.cJSONPrint root
  let (outBase64, _) ← check
    (aesEcbPkcs5Encrypt i.ssl p.rounds out.buffer (toInt32 out.length) getDeviceKey 16 true)
  runAll mqttCallback i.beforeAdd
  cjsonMsgAdd outBase64 (some root) i.add

theorem cjsonCreatPostData_parts (p : Platform) (i : PostData) : cjsonCreatPostData p i = (do
    act .cjsonCreatPostData
    let root ← buildReport p i
    sendReport p i root) := by
  simp only [cjsonCreatPostData, buildReport, sendReport, bind_assoc, pure_bind]

theorem buildReport_keeps {I : World → Prop} (steady : Steady I) (p : Platform) {i : PostData}
    (device : ∀ r ∈ i.reads, Keeps I (getDeviceId r)) : Keeps I (buildReport p i) := by
  have followed := keeps_followed (E := I) steady fun _ held => held
  have passes : Passes (fun _ m => ∀ r ∈ m.reads, Keeps I (getDeviceId r)) (fun _ _ => ()) () i.moments :=
    passes_always () fun m member _ r read => device r (postData_reads member read)
  simp only [PostData.moments, passes_append] at passes
  obtain ⟨root, dev, uav, -⟩ := passes
  apply spec_bind (readDeviceId_follows followed root)
  intro id
  apply spec_fact
  intro _
  apply spec_bind (cjsonCreateParamsData_follows followed p dev uav)
  intro params
  exact spec_pure fun _ held => held.2

/-- A report that could be made, within the bounds its text relies on. -/
def IsReport (i : PostData) (root : CJson) : Prop :=
  ∃ id params, id.length ≤ 6 ∧ IsParams params ∧ root = reportRoot i.uuid id params

theorem buildReport_legible {p : Platform} {i : PostData} (proceeds : i.Proceeds) :
    Decides Legible True (buildReport p i) fun root w => IsReport i root ∧ Legible w := by
  apply sure_step (readDeviceId_legible proceeds.root)
  intro id
  apply decides_fact
  intro short
  apply sure_step (cjsonCreateParamsData_legible proceeds)
  intro params
  apply decides_pure
  rintro w ⟨formed, legible⟩
  exact ⟨⟨id, params, short, formed, rfl⟩, legible⟩

def tickReport (p : Platform) (h : Heartbeat) : Prog CJson := do
  collect p h
  act .cjsonCreatPostData
  buildReport p h.postData

/-- The two structs a report is made from have these values. -/
structure Sensed (n : NetInfo) (u : UavData) (w : World) : Prop where
  net : w.gNetInfo = n
  uav : w.gUavData = u

section Walk

variable {n : NetInfo} {u : UavData} {E : World → Prop} {p : Platform} {h : Heartbeat}

theorem sensed_steady : Steady (Sensed n u) where
  connection _ sensed := ⟨sensed.net, sensed.uav⟩
  history _ sensed := ⟨sensed.net, sensed.uav⟩

theorem getDeviceId_sensed (r : Popen) : Keeps (Sensed n u) (getDeviceId r) :=
  getDeviceId_keeps (fun _ sensed => ⟨sensed.net, sensed.uav⟩) r

theorem setNet_sensed (f : NetInfo → NetInfo) :
    Spec (Sensed n u) (setNet f) (fun _ => Sensed (f n) u) E := by
  apply spec_modify
  rintro w ⟨rfl, rfl⟩
  exact ⟨rfl, rfl⟩

theorem setUav_sensed (f : UavData → UavData) :
    Spec (Sensed n u) (setUav f) (fun _ => Sensed n (f u)) E := by
  apply spec_modify
  rintro w ⟨rfl, rfl⟩
  exact ⟨rfl, rfl⟩

theorem getString_sensed (r : StringReply) (param : CString) :
    Spec (Sensed n u) (getString p r param) (fun _ => Sensed n u) Anywhere := by
  apply spec_copy
  intro w _
  apply spec_bind (spec_keeps keeps_check)
  intro answer
  have stored (st : StringStatics) : Keeps (Sensed n u) (modify fun w : World =>
      { w with ubusString := st } : Prog Unit) := keeps_modify fun _ sensed => ⟨sensed.net, sensed.uav⟩
  exact spec_bind (spec_keeps (stored _)) fun _ => spec_pure fun _ held => held

theorem atofTimes_sensed (s : Option CString) (k : Int) :
    Spec (Sensed n u) (atofTimes p s k) (fun _ => Sensed n u) Anywhere :=
  spec_keeps (atofTimes_keeps p s k)

/-- What `modeminfo` holds after a tick, whatever it held before. -/
def modemInfo (h : Heartbeat) (netStr : Option StaticBuffer) : NetInfo where
  pci := ubusGetInt h.pci (CString.lit "pci") 0
  freq := toUInt32 (ubusGetInt h.freq (CString.lit "freq") 0)
  rsrp := ubusGetInt h.rsrp (CString.lit "rsrp") 0
  rsrq := ubusGetInt h.rsrq (CString.lit "rsrq") 0
  snr := ubusGetInt h.snr (CString.lit "snr") 0
  net := ubusGetInt h.net (CString.lit "net") 0
  netStr := netStr

theorem readModeminfo_sensed : Spec (Sensed n u) (readModeminfo p h)
    (fun _ w => ∃ netStr, Sensed (modemInfo h netStr) u w) Anywhere := by
  unfold readModeminfo
  iterate 6
    apply spec_bind (setNet_sensed _)
    intro _
  apply spec_bind (getString_sensed _ _)
  intro netStyle
  exact spec_post (setNet_sensed _) fun _ _ sensed => ⟨_, sensed⟩

/-- `uavinfo` when the time is about to be copied, its array still as `memset` left it. -/
def uavBefore (h : Heartbeat) (lat lng height : Int) : UavData := { UavData.zero with
  coordinate := toUChar (ubusGetInt h.coordinate (CString.lit "coordinate") 0)
  flightTime := ubusGetInt h.flightTime (CString.lit "flight_time") 0
  lat := lat
  lng := lng
  alt := ubusGetInt h.alt (CString.lit "alt") 0
  height := height }

theorem uavinfoUntilTime_sensed : Spec (Sensed n .zero) (uavinfoUntilTime p h)
    (fun _ w => ∃ lat lng height, Sensed n (uavBefore h lat lng height) w) Anywhere := by
  unfold uavinfoUntilTime
  apply spec_bind (setUav_sensed _)
  intro _
  apply spec_bind (setUav_sensed _)
  intro _
  apply spec_bind (getString_sensed _ _)
  intro lat
  apply spec_bind (atofTimes_sensed _ _)
  intro lat
  apply spec_bind (setUav_sensed _)
  intro _
  apply spec_bind (getString_sensed _ _)
  intro lng
  apply spec_bind (atofTimes_sensed _ _)
  intro lng
  apply spec_bind (setUav_sensed _)
  intro _
  apply spec_bind (setUav_sensed _)
  intro _
  apply spec_bind (getString_sensed _ _)
  intro height
  apply spec_bind (atofTimes_sensed _ _)
  intro height
  apply spec_bind (setUav_sensed _)
  intro _
  exact spec_post (getString_sensed _ _) fun _ _ sensed => ⟨_, _, _, sensed⟩

theorem untilTime_sensed : Spec Anywhere (untilTime p h) (fun _ w => ∃ netStr lat lng height,
    Sensed (modemInfo h netStr) (uavBefore h lat lng height) w) Anywhere := by
  have cleared : Spec Anywhere (setUav fun _ => .zero)
      (fun _ w => ∃ n, Sensed n .zero w) Anywhere := spec_modify fun w _ => ⟨w.gNetInfo, rfl, rfl⟩
  have counted (n : NetInfo) (u : UavData) : Keeps (Sensed n u) (modify fun w : World =>
      { w with gFlyTime := toInt32 (w.gFlyTime + 1) } : Prog Unit) :=
    keeps_modify fun _ sensed => ⟨sensed.net, sensed.uav⟩
  apply spec_bind cleared
  intro _
  apply spec_exists
  intro n
  apply spec_bind (spec_keeps (counted n .zero))
  intro _
  apply spec_bind readModeminfo_sensed
  intro _
  apply spec_exists
  intro netStr
  exact spec_post uavinfoUntilTime_sensed fun _ _ ⟨lat, lng, height, sensed⟩ =>
    ⟨netStr, lat, lng, height, sensed⟩

theorem copyTime_sensed (uavtime : Option CString) : Spec (Sensed n u) (copyTime uavtime)
    (fun _ w => ∃ time, Sensed n { u with time := time } w) Anywhere := by
  cases uavtime with
  | none => exact spec_pure fun _ sensed => ⟨u.time, sensed⟩
  | some s =>
    apply spec_copy
    intro w _
    apply spec_bind (spec_keeps keeps_check)
    intro time
    exact spec_post (setUav_sensed _) fun _ _ sensed => ⟨time, sensed⟩

def courseOf (h : Heartbeat) : Int := toInt32 (ubusGetInt h.cog (CString.lit "cog") 0 * 10)

theorem uavinfoAfterTime_sensed : Spec (Sensed n u) (uavinfoAfterTime p h)
    (fun _ w => ∃ spd, Sensed n { u with course := courseOf h, spd := spd } w) Anywhere := by
  apply spec_bind (setUav_sensed _)
  intro _
  apply spec_bind (getString_sensed _ _)
  intro spd
  apply spec_bind (atofTimes_sensed _ _)
  intro spd
  exact spec_post (setUav_sensed _) fun _ _ sensed => ⟨_, sensed⟩

end Walk

section Report

variable {n : NetInfo} {u : UavData} {p : Platform} {h : Heartbeat}

/-- A report made from these values of the two structs. -/
def MadeFrom (n : NetInfo) (u : UavData) (root : CJson) : Prop :=
  ∃ uuid id dev uav devTime uavTime fly, root = reportRoot uuid id
    (.array [devObject dev (devValue n) devTime, uavObject uav (uavValue fly u) uavTime])

theorem readDeviceId_sensed (r : Read) : Keeps (Sensed n u) (readDeviceId r) :=
  readDeviceId_keeps sensed_steady fun s _ => getDeviceId_sensed s

theorem cjsonCreateDevData_sensed (r : Read) (clock : Timeval) : Spec (Sensed n u)
    (cjsonCreateDevData p r clock) (fun dev w => (∃ id time, dev = devObject id (devValue n) time) ∧ Sensed n u w)
    Anywhere := by
  apply spec_bind (spec_keeps (readDeviceId_sensed r))
  intro id
  apply spec_get
  rintro w ⟨rfl, rfl⟩
  apply spec_pure
  rintro w' rfl
  exact ⟨⟨id, _, rfl⟩, rfl, rfl⟩

theorem cjsonCreateUavData_sensed (r : Read) : Spec (Sensed n u) (cjsonCreateUavData p r)
    (fun uav _ => ∃ id fly time, uav = uavObject id (uavValue fly u) time) Anywhere := by
  apply spec_copy
  rintro w ⟨rfl, rfl⟩
  apply spec_bind (spec_keeps keeps_check)
  intro time
  apply spec_bind (spec_keeps (readDeviceId_sensed r))
  intro id
  exact spec_pure fun _ _ => ⟨id, _, _, rfl⟩

theorem buildReport_sensed (i : PostData) : Spec (Sensed n u) (buildReport p i)
    (fun root _ => MadeFrom n u root) Anywhere := by
  apply spec_bind (spec_keeps (readDeviceId_sensed i.root))
  intro id
  simp only [cjsonCreateParamsData, bind_assoc]
  apply spec_bind (cjsonCreateDevData_sensed i.dev i.clock)
  intro dev
  apply spec_fact
  rintro ⟨devId, devTime, rfl⟩
  apply spec_bind (cjsonCreateUavData_sensed i.uav)
  rintro uav
  apply spec_pure
  rintro w ⟨uavId, fly, uavTime, rfl⟩
  exact ⟨_, _, _, _, _, _, _, rfl⟩

/-- `uavinfo` of a whole tick. -/
def uavInfo (h : Heartbeat) (lat lng height : Int) (time : Bytes) (spd : Int) : UavData :=
  { uavBefore h lat lng height with time := time, course := courseOf h, spd := spd }

theorem collect_sensed : Spec Anywhere (collect p h) (fun _ w => ∃ netStr lat lng height time spd,
    Sensed (modemInfo h netStr) (uavInfo h lat lng height time spd) w) Anywhere := by
  rw [collect_parts]
  apply spec_bind untilTime_sensed
  intro uavtime
  apply spec_exists
  intro netStr
  apply spec_exists
  intro lat
  apply spec_exists
  intro lng
  apply spec_exists
  intro height
  apply spec_bind (copyTime_sensed uavtime)
  intro _
  apply spec_exists
  intro time
  exact spec_post uavinfoAfterTime_sensed fun _ _ ⟨spd, sensed⟩ => ⟨netStr, lat, lng, height, time, spd, sensed⟩

theorem tickReport_made : Spec Anywhere (tickReport p h) (fun root _ => ∃ netStr lat lng height time spd,
    MadeFrom (modemInfo h netStr) (uavInfo h lat lng height time spd) root) Anywhere := by
  apply spec_bind collect_sensed
  intro _
  iterate 6
    apply spec_exists
    intro _
  have noted (n : NetInfo) (u : UavData) : Keeps (Sensed n u) (act .cjsonCreatPostData) :=
    keeps_modify fun _ sensed => ⟨sensed.net, sensed.uav⟩
  apply spec_bind (spec_keeps (noted _ _))
  intro _
  exact spec_post (buildReport_sensed h.postData) fun _ _ made => ⟨_, _, _, _, _, _, made⟩

theorem mqttPostRun_parts (p : Platform) (h : Heartbeat) : mqttPostRun p h = (do
    let root ← tickReport p h
    sendReport p h.postData root
    act (.uloopTimeoutSet .mqttPostTimeout 1000)) := by
  simp only [mqttPostRun_eq, cjsonCreatPostData_parts, tickReport, bind_assoc]

end Report

/-- A value of the report: of the network when `entry` is 0, of the aircraft when it is 1. -/
def reading (root : CJson) (entry : Nat) (name : String) : Option CJson := do
  let params ← root.getObjectItem "params"
  let data ← params.getArrayItem entry
  let value ← data.getObjectItem "value"
  value.getObjectItem name

theorem zero_fits : FitsInt 0 := by decide

theorem toInt_fits (bits : BitVec 32) : FitsInt bits.toInt := by
  have low := bits.le_toInt
  have high := bits.toInt_lt
  simp only [Nat.add_one_sub_one] at low high
  unfold FitsInt
  omega

theorem ubusGetInt_fits (a : BusAnswer) (name : CString) : FitsInt (ubusGetInt a name 0) := by
  rw [ubusGetInt_value]
  cases busValue a name with
  | none => exact zero_fits
  | some value =>
    cases value with
    | int8 bits =>
      have bound := bits.isLt
      simp only [FitsInt]
      omega
    | int16 bits =>
      have bound := bits.isLt
      simp only [FitsInt]
      omega
    | int32 bits => exact toInt_fits bits
    | int64 bits => exact toInt_fits _
    | string s => exact zero_fits
    | other => exact zero_fits

theorem toUInt32_nonneg {v : Int} (fits : FitsInt v) (nonneg : 0 ≤ v) : toUInt32 v = v := by
  simp only [toUInt32]
  unfold FitsInt at fits
  omega

/-- The answers a report carries as they came. -/
structure CarriesReadings (h : Heartbeat) (root : CJson) : Prop where
  pci : reading root 0 "pci" = some (.number (ubusGetInt h.pci (CString.lit "pci") 0))
  rsrp : reading root 0 "rsrp" = some (.number (ubusGetInt h.rsrp (CString.lit "rsrp") 0))
  rsrq : reading root 0 "rsrq" = some (.number (ubusGetInt h.rsrq (CString.lit "rsrq") 0))
  snr : reading root 0 "snr" = some (.number (ubusGetInt h.snr (CString.lit "snr") 0))
  freq : 0 ≤ ubusGetInt h.freq (CString.lit "freq") 0 →
    reading root 0 "freq" = some (.number (ubusGetInt h.freq (CString.lit "freq") 0))
  altitude : reading root 1 "altitude" = some (.number (ubusGetInt h.alt (CString.lit "alt") 0))

/-- What the report says of the coordinate system and the course, as the structs hold them. -/
structure CarriesCourse (h : Heartbeat) (root : CJson) : Prop where
  coordinate : reading root 1 "coordinate" =
    some (.number (toUChar (ubusGetInt h.coordinate (CString.lit "coordinate") 0)))
  course : reading root 1 "course" = some (.number (courseOf h))

theorem made_carries {h : Heartbeat} {netStr : Option StaticBuffer} {lat lng height : Int} {time : Bytes}
    {spd : Int} {root : CJson} (made : MadeFrom (modemInfo h netStr) (uavInfo h lat lng height time spd) root) :
    CarriesReadings h root ∧ CarriesCourse h root := by
  obtain ⟨uuid, id, dev, uav, devTime, uavTime, fly, rfl⟩ := made
  constructor
  · constructor
    · rfl
    · rfl
    · rfl
    · rfl
    · intro nonneg
      rw [← toUInt32_nonneg (ubusGetInt_fits h.freq (CString.lit "freq")) nonneg]
      rfl
    · rfl
  · constructor
    · rfl
    · rfl

theorem tickReport_carries (p : Platform) (h : Heartbeat) : Spec Anywhere (tickReport p h)
    (fun root _ => CarriesReadings h root ∧ CarriesCourse h root) Anywhere :=
  spec_post tickReport_made fun _ _ ⟨_, _, _, _, _, _, made⟩ => made_carries made

theorem tickReport_decides {p : Platform} {h : Heartbeat} (unsigned : p.target.charSigned = false)
    (short : h.Short) (works : h.postData.Works) :
    Decides Ready h.Readable (tickReport p h) fun _ => Ready := by
  have strings : Keeps (fun w => StringsReady w.ubusString) (buildReport p h.postData) :=
    buildReport_keeps strings_steady p fun r _ => getDeviceId_strings r
  have build : Decides Ready True (buildReport p h.postData) fun _ => Ready :=
    ready_step (buildReport_legible (works_proceeds works)) strings fun _ _ built => built.2
  have report : Decides Ready True (act .cjsonCreatPostData >>= fun _ => buildReport p h.postData)
      fun _ => Ready := sure_step (act_ready _) fun _ => build
  exact decides_weaken (decides_bind (collect_decides unsigned short) fun _ => report)
    (iff_of_eq (and_true _)) (fun _ held => held) fun _ _ held => held

/-- The report of a tick carries its readings: the coordinate system in 8 bits without a sign,
and the course in tenths of a degree, when those fit an `int`. -/
theorem readings_carried (p : Platform) (h : Heartbeat) :
    (mqttPostRun p h = do
      let root ← tickReport p h
      sendReport p h.postData root
      act (.uloopTimeoutSet .mqttPostTimeout 1000)) ∧
    Spec Anywhere (tickReport p h) (fun root _ => CarriesReadings h root ∧
      reading root 1 "coordinate" =
        some (.number (ubusGetInt h.coordinate (CString.lit "coordinate") 0 % 256)) ∧
      (FitsInt (10 * ubusGetInt h.cog (CString.lit "cog") 0) →
        reading root 1 "course" = some (.number (10 * ubusGetInt h.cog (CString.lit "cog") 0)))) Anywhere := by
  refine ⟨mqttPostRun_parts p h, ?_⟩
  apply spec_post (tickReport_carries p h)
  rintro root w ⟨readings, course⟩
  refine ⟨readings, course.coordinate, ?_⟩
  intro fits
  rw [course.course, courseOf, Int.mul_comm, toInt32_fits fits]

/-- The tick of the device makes a report, a course of 90 degrees in tenths. -/
theorem device_readings_carried : ∃ root w,
    tickReport devicePlatform deviceHeartbeat (.start devicePlatform.target) = .ok root w ∧
      reading root 0 "rsrp" = some (.number (-95)) ∧ reading root 0 "freq" = some (.number 1850) ∧
      reading root 1 "altitude" = some (.number 80) ∧ reading root 1 "coordinate" = some (.number 1) ∧
      reading root 1 "course" = some (.number 900) := by
  have ready : Ready (.start devicePlatform.target) := start_ready_world (p := devicePlatform) rfl
  rcases tickReport_decides (p := devicePlatform) rfl deviceHeartbeat_short devicePostData_works _ ready with
    ⟨-, root, w, run, -⟩ | ⟨unreadable, -⟩
  · obtain ⟨-, carried⟩ := readings_carried devicePlatform deviceHeartbeat
    obtain ⟨readings, coordinate, course⟩ := spec_ok carried trivial run
    exact ⟨root, w, run, readings.rsrp, readings.freq (by decide), readings.altitude, coordinate, course (by decide)⟩
  · exact absurd ⟨rfl, rfl, rfl, rfl⟩ unreadable

/-- A coordinate system of 256, and a course whose tenths do not fit an `int`. -/
def wideHeartbeat : Heartbeat := { deviceHeartbeat with
  coordinate := replied (CString.lit "coordinate") (.int32 256)
  cog := replied (CString.lit "cog") (.int32 214748365) }

theorem wideHeartbeat_short : wideHeartbeat.Short := by
  constructor <;> rintro value ⟨rfl⟩ <;> decide

theorem wide_heartbeat_narrowed : ∃ root w,
    tickReport devicePlatform wideHeartbeat (.start devicePlatform.target) = .ok root w ∧
      reading root 1 "coordinate" ≠
        some (.number (ubusGetInt wideHeartbeat.coordinate (CString.lit "coordinate") 0)) ∧
      reading root 1 "course" ≠
        some (.number (10 * ubusGetInt wideHeartbeat.cog (CString.lit "cog") 0)) := by
  have ready : Ready (.start devicePlatform.target) := start_ready_world (p := devicePlatform) rfl
  rcases tickReport_decides (p := devicePlatform) rfl wideHeartbeat_short devicePostData_works _ ready with
    ⟨-, root, w, run, -⟩ | ⟨unreadable, -⟩
  · obtain ⟨-, course⟩ := spec_ok (tickReport_carries devicePlatform wideHeartbeat) trivial run
    refine ⟨root, w, run, ?_, ?_⟩
    · rw [course.coordinate]
      simp only [ne_eq, Option.some.injEq, CJson.number.injEq]
      decide
    · rw [course.course]
      simp only [ne_eq, Option.some.injEq, CJson.number.injEq]
      decide
  · exact absurd ⟨rfl, rfl, rfl, rfl⟩ unreadable

section Time

variable {p : Platform} {h : Heartbeat}

/-- The tick from the copy of the time until `cjson_create_uav_data` reads it. -/
def untilUavData (p : Platform) (h : Heartbeat) : Prog (CString × CJson) := do
  uavinfoAfterTime p h
  act .cjsonCreatPostData
  let id ← readDeviceId h.postData.root
  let dev ← cjsonCreateDevData p h.postData.dev h.postData.clock
  return (id, dev)

theorem mqttPostRun_time (p : Platform) (h : Heartbeat) : mqttPostRun p h = (do
    let uavtime ← untilTime p h
    copyTime uavtime
    let (id, dev) ← untilUavData p h
    let uav ← cjsonCreateUavData p h.postData.uav
    sendReport p h.postData (reportRoot h.postData.uuid id (.array [dev, uav]))
    act (.uloopTimeoutSet .mqttPostTimeout 1000)) := by
  simp only [mqttPostRun_parts, tickReport, collect_parts, buildReport, cjsonCreateParamsData, untilUavData,
    bind_assoc, pure_bind]

end Time

end Newplat
