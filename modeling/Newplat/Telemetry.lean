import Newplat.Payload
import Newplat.Queue
import Newplat.RoundTrip

/-! The telemetry from end to end: what the broker's side decrypts of the messages that are
published is the reports the heartbeats made, in their order, with the readings they were given. -/
namespace Newplat

open Base

/-- What has been queued, each message with the tree its text was printed from. -/
def reportsOf (trace : List Action) : List (MsgQueue × Option CJson) :=
  trace.filterMap fun
    | .queued m report => some (m, report)
    | _ => none

def beatsOf (events : List Event) : List Heartbeat :=
  events.filterMap fun
    | .post h => some h
    | _ => none

/-- The report an event builds in the state it meets, if it is a heartbeat that gets that far. -/
def builtBy (p : Platform) (w : World) : Event → List (Heartbeat × CJson)
  | .post h =>
    match tickReport p h w with
    | .ok root _ => [(h, root)]
    | .error _ _ => []
  | _ => []

def builtFrom (p : Platform) : List Event → World → List (Heartbeat × CJson)
  | [], _ => []
  | e :: events, w => builtBy p w e ++
    match handle p e w with
    | .ok _ w' => builtFrom p events w'
    | .error _ _ => []

/-- The reports of a run of the program, each with the heartbeat that built it. -/
def reportsBuilt (p : Platform) (b : Boot) (events : List Event) : List (Heartbeat × CJson) :=
  match main p b (.start p.target) with
  | .ok _ w => builtFrom p events w
  | .error _ _ => []

/-- Nothing but heartbeats queues a message, and OpenSSL does what it is documented to do. -/
def Event.Seals (aes : Bytes → Equiv.Perm AesBlock) : Event → Prop
  | .msgAdd _ _ => False
  | .post h => Documented h.postData.ssl aes
  | .send _ => True
  | .callback _ => True

def reportKey : Bytes := getDeviceKey.take 16

section Reports

variable {aes : Bytes → Equiv.Perm AesBlock} {p : Platform} {built : List (Heartbeat × CJson)}

/-- The message carries the report of `x`, if it carries anything. -/
structure Seals (aes : Bytes → Equiv.Perm AesBlock) (p : Platform) (e : MsgQueue × Option CJson)
    (x : Heartbeat × CJson) : Prop where
  report : e.2 = some x.2
  text : ∀ text, e.1.msg = some text → text = Base64.text (cipherText aes reportKey (p.cJSONPrint x.2).bytes)

/-- The entries are some of the reports that were built, in order. -/
structure Accounts (aes : Bytes → Equiv.Perm AesBlock) (p : Platform) (built : List (Heartbeat × CJson))
    (entries : List (MsgQueue × Option CJson)) (made : List (Heartbeat × CJson)) : Prop where
  order : made.Sublist built
  seals : List.Forall₂ (Seals aes p) entries made

def Accounted (aes : Bytes → Equiv.Perm AesBlock) (p : Platform) (built : List (Heartbeat × CJson)) (w : World) :
    Prop :=
  ∃ made, Accounts aes p built (reportsOf w.trace) made

theorem reportsOf_queue (trace : List Action) : (reportsOf trace).map Prod.fst = queuedOf trace := by
  rw [reportsOf, queuedOf, List.map_filterMap]
  apply List.filterMap_congr
  intro a _
  cases a <;> rfl

theorem reportsOf_aside (trace : List Action) {a : Action} (aside : reportsOf [a] = []) :
    reportsOf (trace ++ [a]) = reportsOf trace := by
  rw [reportsOf, List.filterMap_append, ← reportsOf, ← reportsOf, aside, List.append_nil]

theorem accounted_aside {w : World} {a : Action} (aside : reportsOf [a] = []) (recorded : Accounted aes p built w) :
    Accounted aes p built { w with trace := w.trace ++ [a] } := by
  obtain ⟨made, records⟩ := recorded
  refine ⟨made, ?_⟩
  rw [reportsOf_aside w.trace aside]
  exact records

theorem accounted_more {w : World} (more : List (Heartbeat × CJson)) (recorded : Accounted aes p built w) :
    Accounted aes p (built ++ more) w := by
  obtain ⟨made, order, seals⟩ := recorded
  exact ⟨made, order.trans (List.sublist_append_left _ _), seals⟩

/-- The report that is built next. -/
theorem accounted_next {w : World} {list : List MsgQueue} {m : MsgQueue} {h : Heartbeat} {root : CJson}
    (recorded : Accounted aes p built w)
    (text : ∀ text, m.msg = some text → text = Base64.text (cipherText aes reportKey (p.cJSONPrint root).bytes)) :
    Accounted aes p (built ++ [(h, root)])
      { w with gMsgList := list, trace := w.trace ++ [.queued m (some root)] } := by
  obtain ⟨made, records⟩ := recorded
  have added : reportsOf (w.trace ++ [.queued m (some root)]) = reportsOf w.trace ++ [(m, some root)] := by
    simp [reportsOf]
  refine ⟨made ++ [(h, root)], records.order.append (List.Sublist.refl _), ?_⟩
  rw [added]
  exact List.rel_append records.seals (.cons ⟨rfl, text⟩ .nil)

theorem accounted_steady : Steady (Accounted aes p built) where
  connection _ recorded := recorded
  history {w a} quiet recorded := by
    apply accounted_aside _ recorded
    cases a <;> first | rfl | cases quiet

theorem accounted_armed : Armed (Accounted aes p built) := fun _ _ _ recorded => accounted_aside rfl recorded

theorem accounted_sampled : Sampled (Accounted aes p built) := by
  constructor <;> exact fun _ recorded => recorded

theorem accounted_drained : Drained (Accounted aes p built) where
  turn _ _ recorded := accounted_aside rfl recorded
  publish _ _ _ _ _ _ recorded := accounted_aside rfl recorded
  unsupported recorded := accounted_aside rfl recorded
  list _ recorded := recorded

theorem accounted_device (r : Popen) : Keeps (Accounted aes p built) (getDeviceId r) :=
  getDeviceId_keeps (fun _ recorded => recorded) r

end Reports

section Sending

variable {aes : Bytes → Equiv.Perm AesBlock} {p : Platform} {built : List (Heartbeat × CJson)}

/-- The cipher function returns the text of the whole ciphertext, if it returns. -/
theorem sealed_text {ssl : OpenSSL} (doc : Documented ssl aes) {plain : CString} (measured : plain.length ≤ 2147483647)
    {data : Option Bytes} {len : Int} (sealed : encrypted p ssl plain = .ok (data, len)) :
    ∀ buf ∈ data, cstr buf = .ok (Base64.text (cipherText aes reportKey plain.bytes)) := by
  have length : toInt32 plain.length = plain.length := toInt32_fits ⟨by omega, by exact_mod_cast measured⟩
  rw [encrypted, length] at sealed
  have front : aesEcbPkcs5Encrypt ssl p.rounds plain.buffer plain.length getDeviceKey 16 true =
      aesEcbPkcs5Encrypt ssl p.rounds plain.bytes plain.length getDeviceKey 16 true :=
    encrypt_front ssl p.rounds plain.bytes [0] getDeviceKey 16 true
  have works := encrypts_to (documented_encrypts doc) getDeviceKey plain.bytes
  rw [front] at sealed
  have whole : aesEcbPkcs5Encrypt ssl p.rounds plain.bytes plain.bytes.length getDeviceKey 16 true =
      .ok (data, len) := sealed
  by_cases fits : paddedSize plain.bytes.length * 2 ≤ 2147483647
  · obtain ⟨rest, text⟩ := encrypt_text doc p.rounds plain.bytes 16 deviceKey_long fits
    rw [text] at whole
    cases whole
    intro buf same
    rw [← Option.mem_some.mp same]
    exact cstr_terminated _ rest
  · have overflows : aesEcbPkcs5Encrypt ssl p.rounds plain.bytes plain.bytes.length getDeviceKey 16 true =
        .error .overflow := by
      by_cases padded : paddedSize plain.bytes.length ≤ 2147483647
      · exact encrypt_text_overflows works p.rounds 16 deviceKey_long padded (by omega)
      · exact encrypt_overflows ssl p.rounds getDeviceKey 16 true (by omega)
    rw [overflows] at whole
    cases whole

theorem sendReport_eq (p : Platform) (i : PostData) (root : CJson) : sendReport p i root =
    (check (encrypted p i.ssl (p.cJSONPrint root)) >>= fun r =>
      runAll mqttCallback i.beforeAdd >>= fun _ => cjsonMsgAdd r.1 (some root) i.add) := rfl

/-- What follows the sealing, by what its result is known to hold. -/
theorem sealed_accounts {h : Heartbeat} {root : CJson} {sealing : Checked (Option Bytes × Int)}
    (known : ∀ data len, sealing = .ok (data, len) →
      ∀ buf ∈ data, cstr buf = .ok (Base64.text (cipherText aes reportKey (p.cJSONPrint root).bytes))) :
    Spec (Accounted aes p built) (check sealing >>= fun r =>
        runAll mqttCallback h.postData.beforeAdd >>= fun _ => cjsonMsgAdd r.1 (some root) h.postData.add)
      (fun _ => Accounted aes p (built ++ [(h, root)])) (Accounted aes p (built ++ [(h, root)])) := by
  have halts (w : World) (recorded : Accounted aes p built w) : Accounted aes p (built ++ [(h, root)]) w :=
    accounted_more [(h, root)] recorded
  apply spec_bind (spec_checked fun _ w _ => halts w)
  rintro ⟨data, len⟩
  apply spec_fact
  intro sealed
  apply spec_bind (spec_halting (callbacks_keeps accounted_steady fun r _ => accounted_device r) halts)
  intro _
  apply cjsonMsgAdd_walk (fun _ => Accounted aes p built) (fun _ _ => Accounted aes p built)
  · exact spec_halting (accounted_device _) halts
  · exact spec_halting deviceId_keeps halts
  · exact fun _ w _ => spec_modify fun _ recorded => accounted_aside rfl recorded
  · intro _ _
    exact spec_post (spec_halting (loge_keeps accounted_steady.history (by decide) _) halts) fun _ => halts
  · intro id up msg read
    apply spec_modify
    intro w recorded
    apply accounted_next recorded
    intro text copied
    obtain ⟨buf, inside, string⟩ := read
    have whole := known data len sealed buf inside
    rw [string] at whole
    cases whole
    split at copied
    · exact (Option.some.inj copied).symm
    · cases copied
  · exact halts
  · exact halts
  · exact fun _ _ => halts

theorem tickReport_accounted (h : Heartbeat) : Keeps (Accounted aes p built) (tickReport p h) := by
  apply keeps_bind (collect_keeps accounted_sampled p h)
  intro _
  apply keeps_bind (keeps_act fun _ accounted => accounted_aside rfl accounted)
  intro _
  exact buildReport_keeps accounted_steady p fun r _ => accounted_device r

/-- A tick that halts before its report is built has built none; any other has built one more. -/
theorem mqttPostRun_accounts {h : Heartbeat} (doc : Documented h.postData.ssl aes)
    (measured : ∀ root, (p.cJSONPrint root).length ≤ 2147483647) {w : World} (accounted : Accounted aes p built w) :
    Accounted aes p (built ++ builtBy p w (.post h)) (leaves (mqttPostRun p h w)) := by
  rw [mqttPostRun_parts]
  cases tick : tickReport p h w with
  | ok root w' =>
    have collected : Accounted aes p built w' := spec_ok (tickReport_accounted h) accounted tick
    have known (data : Option Bytes) (len : Int)
        (sealed : encrypted p h.postData.ssl (p.cJSONPrint root) = .ok (data, len)) :=
      sealed_text doc (measured root) sealed
    have one : builtBy p w (.post h) = [(h, root)] := by rw [builtBy, tick]
    rw [bind_ok tick, one, sendReport_eq]
    generalize encrypted p h.postData.ssl (p.cJSONPrint root) = sealing at known
    have armed : Keeps (Accounted aes p (built ++ [(h, root)])) (act (.uloopTimeoutSet .mqttPostTimeout 1000)) :=
      keeps_modify fun w accounted => accounted_armed w _ _ accounted
    exact (spec_leaves (spec_bind (sealed_accounts (h := h) known) fun _ => armed) collected).elim id id
  | error _ w' =>
    have none : builtBy p w (.post h) = [] := by rw [builtBy, tick]
    rw [bind_error tick, none, List.append_nil]
    exact spec_error (tickReport_accounted h) accounted tick

theorem handle_accounts (measured : ∀ root, (p.cJSONPrint root).length ≤ 2147483647) {e : Event}
    (seals : e.Seals aes) {w : World} (accounted : Accounted aes p built w) :
    Accounted aes p (built ++ builtBy p w e) (leaves (handle p e w)) := by
  have aside {m : Prog Unit} (keeps : Keeps (Accounted aes p built) m) :
      Accounted aes p (built ++ []) (leaves (m w)) := by
    rw [List.append_nil]
    exact (spec_leaves keeps accounted).elim id id
  cases e with
  | msgAdd data i => exact seals.elim
  | post h => exact mqttPostRun_accounts seals measured accounted
  | send turns =>
    exact aside (mqttSendRun_keeps accounted_steady accounted_armed accounted_drained fun _ r _ => accounted_device r)
  | callback c => exact aside (mqttCallback_keeps accounted_steady fun r _ => accounted_device r)

theorem run_accounts (measured : ∀ root, (p.cJSONPrint root).length ≤ 2147483647) {events : List Event}
    (seals : ∀ e ∈ events, e.Seals aes) {w : World} (accounted : Accounted aes p built w) :
    Accounted aes p (built ++ builtFrom p events w) (leaves (run p events w)) := by
  induction events generalizing built w with
  | nil => exact accounted_more [] accounted
  | cons e events ih =>
    have first := handle_accounts measured (seals e List.mem_cons_self) accounted
    have unfolded : run p (e :: events) w = (handle p e >>= fun _ => run p events) w := rfl
    rw [unfolded, builtFrom, ← List.append_assoc]
    cases handled : handle p e w with
    | ok _ w' =>
      rw [handled] at first
      rw [bind_ok handled]
      exact ih (fun e' member => seals e' (List.mem_cons_of_mem _ member)) first
    | error _ w' =>
      rw [handled] at first
      rw [bind_error handled, List.append_nil]
      exact first

theorem newplat_accounts (b : Boot) (measured : ∀ root, (p.cJSONPrint root).length ≤ 2147483647)
    {events : List Event} (seals : ∀ e ∈ events, e.Seals aes) :
    Accounted aes p (reportsBuilt p b events) (leaves (newplat p b events (.start p.target))) := by
  have empty : Accounted aes p [] (.start p.target) := ⟨[], List.Sublist.refl _, .nil⟩
  have begun : Keeps (Accounted aes p []) (main p b) := by
    apply main_keeps p accounted_steady.history accounted_armed
    · exact fun _ _ accounted => accounted
    · exact fun _ accounted => accounted
    · exact accounted_device b.serial
    · exact fun _ _ accounted => accounted_aside rfl accounted
  rw [newplat, reportsBuilt]
  cases booted : main p b (.start p.target) with
  | ok _ w =>
    rw [bind_ok booted]
    simpa only [List.nil_append] using run_accounts measured seals (spec_ok begun empty booted)
  | error _ w =>
    rw [bind_error booted]
    exact spec_error begun empty booted

end Sending

section Built

variable {p : Platform}

structure Conveys (h : Heartbeat) (root : CJson) : Prop where
  readings : CarriesReadings h root
  course : CarriesCourse h root

theorem builtBy_conveys {w : World} {e : Event} : ∀ x ∈ builtBy p w e, Conveys x.1 x.2 := by
  cases e with
  | post h =>
    rw [builtBy]
    cases tick : tickReport p h w with
    | ok root w' =>
      rintro x ⟨⟩
      · obtain ⟨readings, course⟩ := spec_ok (tickReport_carries p h) trivial tick
        exact ⟨readings, course⟩
      · contradiction
    | error _ w' => exact fun x never => nomatch never
  | _ => exact fun x never => nomatch never

theorem builtFrom_conveys {events : List Event} {w : World} : ∀ x ∈ builtFrom p events w, Conveys x.1 x.2 := by
  induction events generalizing w with
  | nil => exact fun x never => nomatch never
  | cons e events ih =>
    intro x member
    rcases List.mem_append.mp member with now | later
    · exact builtBy_conveys x now
    · split at later
      · exact ih x later
      · cases later

theorem builtBy_beat (w : World) (e : Event) : ((builtBy p w e).map Prod.fst).Sublist (beatsOf [e]) := by
  cases e with
  | post h =>
    rw [builtBy]
    cases tickReport p h w with
    | ok root w' => exact List.Sublist.refl [h]
    | error _ w' => exact List.nil_sublist [h]
  | _ => exact List.Sublist.refl []

theorem builtFrom_beats (events : List Event) (w : World) :
    ((builtFrom p events w).map Prod.fst).Sublist (beatsOf events) := by
  induction events generalizing w with
  | nil => exact List.Sublist.refl []
  | cons e events ih =>
    have split : beatsOf (e :: events) = beatsOf [e] ++ beatsOf events := by
      rw [beatsOf, beatsOf, beatsOf, ← List.filterMap_append]
      rfl
    rw [builtFrom, List.map_append, split]
    apply (builtBy_beat w e).append
    cases handle p e w with
    | ok _ w' => exact ih w'
    | error _ w' => exact List.nil_sublist _

theorem reportsBuilt_beats (b : Boot) (events : List Event) :
    ((reportsBuilt p b events).map Prod.fst).Sublist (beatsOf events) ∧
      ∀ x ∈ reportsBuilt p b events, Conveys x.1 x.2 := by
  rw [reportsBuilt]
  cases main p b (.start p.target) with
  | ok _ w => exact ⟨builtFrom_beats events w, builtFrom_conveys⟩
  | error _ w => exact ⟨List.nil_sublist _, fun x never => nomatch never⟩

end Built

/-- What is published of the messages that have left is, decrypted, the reports of some of them. -/
theorem published_received {aes : Bytes → Equiv.Perm AesBlock} {p : Platform}
    {served : List (MsgQueue × Outcome)} {waiting : List MsgQueue} {entries : List (MsgQueue × Option CJson)}
    {made : List (Heartbeat × CJson)} (same : entries.map Prod.fst = served.map Prod.fst ++ waiting)
    (seals : List.Forall₂ (Seals aes p) entries made) :
    ∃ sent, List.Sublist sent made ∧
      (served.flatMap fun s => publishFor s.1 s.2).map (fun s => receiveText aes reportKey s.data) =
        sent.map fun x => some (p.cJSONPrint x.2).bytes := by
  induction served generalizing entries made with
  | nil => exact ⟨[], List.nil_sublist made, rfl⟩
  | cons s served ih =>
    cases seals with
    | nil => cases same
    | @cons e x entries made first rest =>
      simp only [List.map_cons, List.cons_append, List.cons.injEq] at same
      obtain ⟨head, tail⟩ := same
      obtain ⟨sent, inside, received⟩ := ih tail rest
      rw [List.flatMap_cons, List.map_append, received]
      rcases publishFor_cases s.1 s.2 with silent | ⟨data, topic, copied, published⟩
      · rw [silent]
        exact ⟨sent, inside.cons x, rfl⟩
      · refine ⟨x :: sent, inside.cons_cons x, ?_⟩
        have text := first.text data (by rw [head, copied])
        rw [published, text]
        simp [receiveText_cipherText]

/-- Over every run from `main` on, the messages that are published decrypt under the device's key
to printed reports that heartbeats of the run have built: each as its heartbeat built it, in the
order of the heartbeats, none twice and none from elsewhere. Every such report carries the
readings its heartbeat was given. -/
theorem telemetry_received (aes : Bytes → Equiv.Perm AesBlock) (p : Platform) (b : Boot) (events : List Event)
    (measured : ∀ root, (p.cJSONPrint root).length ≤ 2147483647) (seals : ∀ e ∈ events, e.Seals aes) :
    let w := leaves (newplat p b events (.start p.target))
    let built := reportsBuilt p b events
    (∃ sent : List (Heartbeat × CJson), sent.Sublist built ∧
        (publishesOf w.trace).map (fun s => receiveText aes reportKey s.data) =
          sent.map fun x => some (p.cJSONPrint x.2).bytes) ∧
      (built.map Prod.fst).Sublist (beatsOf events) ∧ ∀ x ∈ built, Conveys x.1 x.2 := by
  have kept : Kept False (.start p.target) := idle_kept False (.start p.target)
  have stopped : Stopped False (leaves (newplat p b events (.start p.target))) :=
    (spec_leaves (newplat_kept p b events False.elim) kept).elim Or.inl id
  obtain ⟨made, order, sealed⟩ := newplat_accounts b measured seals
  obtain ⟨f, arrivals, publishes⟩ := stopped_mailbox stopped
  rw [← reportsOf_queue] at arrivals
  obtain ⟨sent, inside, received⟩ := published_received arrivals.symm sealed
  refine ⟨⟨sent, inside.trans order, ?_⟩, reportsBuilt_beats b events⟩
  rw [publishes]
  exact received

def sealedBeat (rsrp : BitVec 32) : Heartbeat := { deviceHeartbeat with
  rsrp := replied (CString.lit "rsrp") (.int32 rsrp)
  postData := sealedPostData }

/-- Two heartbeats over a connection, the signal weaker at the second, and a drain after each. -/
def telemetryEvents : List Event :=
  let drain : Event := .send fun _ => ⟨[], 0⟩
  [.callback (.connect 1 0 serialPrinted serialPrinted 0), .post (sealedBeat (-95)), drain,
    .post (sealedBeat (-110)), drain]

theorem sealedBeats_seal : ∀ e ∈ telemetryEvents, e.Seals sampleAes := by
  intro e member
  simp only [telemetryEvents, List.mem_cons, List.not_mem_nil, or_false] at member
  rcases member with rfl | rfl | rfl | rfl | rfl
  · trivial
  · exact sample_documented
  · trivial
  · exact sample_documented
  · trivial

theorem device_telemetry_received : ∃ first second,
    (publishesOf (leaves (newplat devicePlatform sealedBoot telemetryEvents (.start devicePlatform.target))).trace).map
        (fun s => receiveText sampleAes reportKey s.data) =
      [some (devicePlatform.cJSONPrint first).bytes, some (devicePlatform.cJSONPrint second).bytes] ∧
      reading first 0 "rsrp" = some (.number (-95)) ∧ reading second 0 "rsrp" = some (.number (-110)) := by
  have two : (publishesOf (leaves
      (newplat devicePlatform sealedBoot telemetryEvents (.start devicePlatform.target))).trace).length = 2 := by
    decide +kernel
  have measured (root : CJson) : (devicePlatform.cJSONPrint root).length ≤ 2147483647 :=
    (List.length_take_le 4096 _).trans (by decide)
  obtain ⟨⟨sent, inside, received⟩, order, conveys⟩ :=
    telemetry_received sampleAes devicePlatform sealedBoot telemetryEvents measured sealedBeats_seal
  have length : (sent.map Prod.fst).length = 2 := by
    have same := congrArg List.length received
    rw [List.length_map, List.length_map] at same
    rw [List.length_map, ← same, two]
  -- As many reports as heartbeats were sent: each of them is the report of its own.
  have whole : sent.map Prod.fst = [sealedBeat (-95), sealedBeat (-110)] :=
    ((inside.map Prod.fst).trans order).eq_of_length length
  obtain ⟨⟨h, first⟩, rest, rfl, rfl, later⟩ := List.map_eq_cons_iff.mp whole
  obtain ⟨⟨h', second⟩, none, rfl, rfl, empty⟩ := List.map_eq_cons_iff.mp later
  rw [List.map_eq_nil_iff.mp empty] at inside received
  have conveyed (x : Heartbeat × CJson) (sent : x ∈ [(sealedBeat (-95), first), (sealedBeat (-110), second)]) :
      reading x.2 0 "rsrp" = some (.number (ubusGetInt x.1.rsrp (CString.lit "rsrp") 0)) :=
    (conveys x (inside.subset sent)).readings.rsrp
  refine ⟨first, second, received, ?_, ?_⟩
  · exact conveyed (sealedBeat (-95), first) (by simp)
  · exact conveyed (sealedBeat (-110), second) (by simp)

end Newplat
