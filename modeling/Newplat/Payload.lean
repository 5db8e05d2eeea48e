import Newplat.Readings
import Newplat.Refusals

/-! What a report puts into the queue, whatever OpenSSL answers: a failure of the cipher function
is followed through its NULL result to the function that adds the message. -/
namespace Newplat

open Base Blocks

/-- `strlen` does not find the buffer empty. -/
def NonEmpty (buf : Bytes) : Prop := ∃ b rest, buf = b :: rest ∧ b ≠ 0

/-- The first steps of the function, up to the tree of the report. -/
def postReport (p : Platform) (i : PostData) : Prog CJson := do
  act .cjsonCreatPostData
  buildReport p i

/-- The text of the report that is made in `w`. -/
def reportText (p : Platform) (i : PostData) (w : World) : CString :=
  match postReport p i w with
  | .ok root _ => p.cJSONPrint root
  | .error _ _ => CString.empty

/-- The identity is not empty, and `list` is queued. -/
structure Holding (list : List MsgQueue) (w : World) : Prop where
  named : NonEmpty w.gDeviceId
  list : w.gMsgList = list

section Identity

theorem nonEmpty_written {s : CString} {buf : Bytes} (named : NonEmpty buf) :
    NonEmpty (s.bytes ++ buf.drop s.bytes.length) := by
  have nulFree := s.nulFree
  cases bytes : s.bytes with
  | nil => exact named
  | cons b rest =>
    rw [bytes] at nulFree
    refine ⟨b, rest ++ buf.drop (b :: rest).length, rfl, ?_⟩
    rintro rfl
    exact nulFree List.mem_cons_self

theorem getDevSn_nonEmpty {r : Popen} {buf sn : Bytes} (got : getDevSn r buf = .ok sn)
    (named : NonEmpty buf) : NonEmpty sn := by
  rw [getDevSn_reply] at got
  split at got
  · cases got
    exact named
  · rename_i s _
    by_cases fits : s.bytes.length ≤ buf.length
    · rw [write_start fits] at got
      cases got
      exact nonEmpty_written named
    · have missing : write buf 0 s.bytes = .error .outOfBounds := write_outside rfl (by omega)
      rw [missing] at got
      cases got

theorem nonEmpty_string {buf : Bytes} {id : CString} (named : NonEmpty buf) (string : cstr buf = .ok id) :
    id.length ≠ 0 := by
  obtain ⟨b, rest, rfl, nonzero⟩ := named
  unfold cstr at string
  split at string
  · cases string
    simp [CString.length, CString.ofBuffer, nonzero]
  · cases string

variable {list : List MsgQueue}

theorem holding_steady : Steady (Holding list) where
  connection _ holding := ⟨holding.named, holding.list⟩
  history _ holding := ⟨holding.named, holding.list⟩

theorem getDeviceId_holding (r : Popen) : Keeps (Holding list) (getDeviceId r) := by
  apply spec_get
  intro w holding
  apply spec_bind (spec_checked fun _ _ _ same => same.symm ▸ holding)
  intro sn
  apply spec_fact
  intro got
  apply spec_modify
  rintro w' rfl
  exact ⟨getDevSn_nonEmpty got holding.named, holding.list⟩

/-- What lets a report be made and a message be added. -/
abbrev Able (list : List MsgQueue) (w : World) : Prop := Legible w ∧ Holding list w

theorem getDeviceId_able {r : Popen} (fits : r.FitsId) : Completes (Able list) (getDeviceId r) :=
  decides_keeps (getDeviceId_legible fits) (getDeviceId_holding r)

theorem deviceId_able : Decides (Able list) True deviceId fun id w => id.length ≠ 0 ∧ Able list w := by
  apply decides_get
  rintro w ⟨legible, holding⟩
  obtain ⟨s, string, -⟩ := terminated_cstr legible.identity
  apply decides_check string
  rintro w' rfl
  exact ⟨nonEmpty_string holding.named string, legible, holding⟩

theorem act_able (a : Action) : Completes (Able list) (act a) :=
  decides_modify fun _ ⟨legible, holding⟩ =>
    ⟨⟨legible.identity, legible.time⟩, holding.named, holding.list⟩

end Identity

section Queueing

variable {list : List MsgQueue} {data : Option Bytes} {text : CString}

/-- What `cjson_msg_add` leaves of the queue for a payload `text`. -/
def Added (list : List MsgQueue) (alloc : Alloc) (text : CString) (w : World) : Prop :=
  if alloc.node then ∃ m, w.gMsgList = list ++ [m] ∧ m.msg = if alloc.msg then some text else none
  else w.gMsgList = list

/-- It returns exactly when it does not hand a NULL pointer to `strdup`. -/
theorem cjsonMsgAdd_able (report : Option CJson) {a : MsgAdd} (fits : a.serial.FitsId)
    (string : ∀ buf ∈ data, cstr buf = .ok text) :
    Decides (Able list) (a.alloc.node = true → data ≠ none) (cjsonMsgAdd data report a)
      fun _ => Added list a.alloc text := by
  apply sure_step deviceId_able
  intro id
  apply decides_fact
  intro nonempty
  rw [if_neg nonempty]
  apply sure_step (getDeviceId_able fits)
  intro _
  apply sure_step deviceId_able
  intro id
  apply decides_fact
  intro _
  apply decides_copy
  intro w _
  apply sure_step (act_able _)
  intro _
  unfold Added
  cases node : a.alloc.node with
  | false =>
    have logged : Completes (Able list) (loge "malloc error" []) := act_able _
    apply decides_weaken logged (by simp) (fun _ held => held)
    intro _ w ⟨_, holding⟩
    exact holding.list
  | true =>
    cases data with
    | none => exact fun w _ => Or.inr ⟨by simp, .nullPointer, w, rfl⟩
    | some buf =>
      simp only [string buf rfl, check_ok_bind]
      have queued (sendTopic : Option CString) : Decides (Able list) True
          (listAddTail (if a.alloc.msg then some text else none) sendTopic report)
          fun _ w => ∃ m, w.gMsgList = list ++ [m] ∧ m.msg = if a.alloc.msg then some text else none := by
        apply decides_modify
        rintro w ⟨-, holding⟩
        simp [holding.list]
      exact decides_weaken (queued _) (by simp) (fun _ held => held) fun _ _ held => held

variable {i : PostData}

theorem send_able (report : Option CJson) (proceeds : i.Proceeds)
    (string : ∀ buf ∈ data, cstr buf = .ok text) :
    Decides (Able list) (i.add.alloc.node = true → data ≠ none)
      (runAll mqttCallback i.beforeAdd >>= fun _ => cjsonMsgAdd data report i.add)
      fun _ => Added list i.add.alloc text := by
  have callbacks : Completes (Able list) (runAll mqttCallback i.beforeAdd) :=
    decides_keeps (callbacks_legible proceeds.addReads proceeds.addReturns)
      (callbacks_keeps holding_steady fun r _ => getDeviceId_holding r)
  exact sure_step callbacks fun _ => cjsonMsgAdd_able report proceeds.serial string

theorem postReport_able {p : Platform} (proceeds : i.Proceeds) :
    Decides (Able list) True (postReport p i) fun root w => IsReport i root ∧ Able list w := by
  have kept : Keeps (Holding list) (buildReport p i) :=
    buildReport_keeps holding_steady p fun r _ => getDeviceId_holding r
  have build := decides_keeps (buildReport_legible proceeds) kept
  apply sure_step (act_able _)
  intro _
  exact decides_weaken build Iff.rfl (fun _ able => able) fun _ _ ⟨⟨report, legible⟩, holding⟩ =>
    ⟨report, legible, holding⟩

end Queueing

section Runs

variable {p : Platform} {i : PostData} {w w' : World} {root : CJson}

theorem cjsonCreatPostData_sends (made : postReport p i w = .ok root w') :
    cjsonCreatPostData p i w = (check (encrypted p i.ssl (p.cJSONPrint root)) >>= fun r =>
      runAll mqttCallback i.beforeAdd >>= fun _ => cjsonMsgAdd r.1 (some root) i.add) w' := by
  have parts : cjsonCreatPostData p i = postReport p i >>= fun root => sendReport p i root := by
    rw [cjsonCreatPostData_parts, postReport, bind_assoc]
  rw [parts, bind_ok made]
  rfl

end Runs

theorem reportErrors_error {ssl : OpenSSL} {rounds : Nat} {e : Halt}
    (stops : reportErrors ssl rounds = .error e) : e = .diverges := by
  unfold reportErrors at stops
  split at stops <;> cases stops
  rfl

/-- With enough rounds the function returns, and has queued the whole ciphertext or nothing; it
hands no NULL pointer on. -/
structure QueuesWhole (p : Platform) (cipher : Bytes → Bytes → Bytes) (i : PostData) (w : World) : Prop where
  returns : ∃ rounds w', cjsonCreatPostData { p with rounds := rounds } i w = .ok () w'
  queue : ∀ rounds w', cjsonCreatPostData { p with rounds := rounds } i w = .ok () w' →
    w'.gMsgList = w.gMsgList ∨ ∃ m, w'.gMsgList = w.gMsgList ++ [m] ∧
      m.msg = some (Base64.text (cipher (getDeviceKey.take 16) (addPadding (reportText p i w).bytes)))
  pointer : ∀ rounds w', cjsonCreatPostData { p with rounds := rounds } i w ≠ .error .nullPointer w'

section Outcomes

variable {p : Platform} {cipher : Bytes → Bytes → Bytes} {i : PostData} {w : World} {c : Bytes}

/-- The report is made first, whatever happens to it then. -/
theorem report_made (prints : Prints p) (proceeds : i.Proceeds) (legible : Legible w)
    (named : NonEmpty w.gDeviceId) :
    ∃ root w', postReport p i w = .ok root w' ∧ reportText p i w = p.cJSONPrint root ∧
      (reportText p i w).length ≤ 4096 ∧ Able w.gMsgList w' := by
  rcases postReport_able (p := p) proceeds w ⟨legible, named, rfl⟩ with
    ⟨-, root, w', made, ⟨id, params, short, formed, rfl⟩, able⟩ | ⟨never, -⟩
  · have text : reportText p i w = p.cJSONPrint (reportRoot i.uuid id params) := by rw [reportText, made]
    refine ⟨_, w', made, text, ?_, able⟩
    rw [text]
    exact report_short prints proceeds short formed
  · exact absurd trivial never

/-- No call fails: the function returns, and what it leaves of the queue depends on the allocations. -/
theorem whole_added (prints : Prints p) (proceeds : i.Proceeds) (legible : Legible w)
    (named : NonEmpty w.gDeviceId) (works : EncryptsTo i.ssl getDeviceKey (reportText p i w).bytes c)
    (rounds : Nat) :
    ∃ w', cjsonCreatPostData { p with rounds := rounds } i w = .ok () w' ∧
      Added w.gMsgList i.add.alloc (Base64.text c) w' := by
  obtain ⟨root, w', made, text, short, able⟩ := report_made prints proceeds legible named
  obtain ⟨rest, sealed⟩ := encrypt_text_to works rounds 16 deviceKey_long (short_fits short)
  have encrypts := encrypted_short { p with rounds := rounds } i.ssl short
  rw [sealed] at encrypts
  have sends := cjsonCreatPostData_sends (p := { p with rounds := rounds }) made
  rw [← text, encrypts, check_ok_bind] at sends
  have string : ∀ buf ∈ some ((Base64.text c).bytes ++ 0 :: rest), cstr buf = .ok (Base64.text c) := by
    simpa using cstr_terminated (Base64.text c) rest
  rcases send_able (some root) proceeds string w' able with ⟨-, _, w'', run, added⟩ | ⟨missing, -⟩
  · exact ⟨w'', sends.trans run, added⟩
  · exact absurd (fun _ => Option.some_ne_none _) missing

/-- A call fails: the error queue is reported, and then a NULL pointer is the payload. -/
theorem null_added (answers : Answers i.ssl cipher) (prints : Prints p) (proceeds : i.Proceeds)
    (legible : Legible w) (named : NonEmpty w.gDeviceId)
    (fails : i.ssl.Fails getDeviceKey (reportText p i w).bytes) :
    ∃ root w', Able w.gMsgList w' ∧ ∀ rounds, cjsonCreatPostData { p with rounds := rounds } i w =
      (check (reportErrors i.ssl rounds) >>= fun _ =>
        runAll mqttCallback i.beforeAdd >>= fun _ => cjsonMsgAdd none (some root) i.add) w' := by
  obtain ⟨root, w', made, text, short, able⟩ := report_made prints proceeds legible named
  have fits := short_fits short
  obtain ⟨out, len, failed⟩ := encrypt_fails answers deviceKey_long (by omega) fails
  refine ⟨root, w', able, fun rounds => ?_⟩
  have encrypts := encrypted_short { p with rounds := rounds } i.ssl short
  rw [failed] at encrypts
  have sends := cjsonCreatPostData_sends (p := { p with rounds := rounds }) made
  rw [← text, encrypts] at sends
  rw [sends]
  cases reportErrors i.ssl rounds with
  | error e => rfl
  | ok u => rfl

theorem queuesWhole_works (answers : Answers i.ssl cipher) (prints : Prints p) (proceeds : i.Proceeds)
    (legible : Legible w) (named : NonEmpty w.gDeviceId)
    (works : ¬ i.ssl.Fails getDeviceKey (reportText p i w).bytes) :
    QueuesWhole p cipher i w ↔ (i.add.alloc.node = true → i.add.alloc.msg = true) := by
  have added := whole_added prints proceeds legible named (encrypts_unless_fails answers works)
  constructor
  · intro whole node
    obtain ⟨w', returns, after⟩ := added 0
    rw [Added, if_pos node] at after
    obtain ⟨m, list, msg⟩ := after
    rcases whole.queue 0 w' returns with same | ⟨m', list', msg'⟩
    · rw [same] at list
      simp at list
    · rw [list] at list'
      obtain rfl : m = m' := by simpa using list'
      rw [msg'] at msg
      by_contra missing
      rw [if_neg missing] at msg
      cases msg
  · intro copied
    constructor
    · obtain ⟨w', returns, -⟩ := added 0
      exact ⟨0, w', returns⟩
    · intro rounds v returns
      obtain ⟨w', returns', after⟩ := added rounds
      cases returns.symm.trans returns'
      cases node : i.add.alloc.node with
      | false =>
        rw [Added, node] at after
        exact Or.inl after
      | true =>
        rw [Added, node, copied node] at after
        exact Or.inr after
    · intro rounds v halts
      obtain ⟨w', returns, -⟩ := added rounds
      rw [halts] at returns
      cases returns

theorem queuesWhole_fails (answers : Answers i.ssl cipher) (prints : Prints p) (proceeds : i.Proceeds)
    (legible : Legible w) (named : NonEmpty w.gDeviceId)
    (fails : i.ssl.Fails getDeviceKey (reportText p i w).bytes) :
    QueuesWhole p cipher i w ↔ i.ssl.errors = [] ∧ i.add.alloc.node = false := by
  obtain ⟨root, w', able, sends⟩ := null_added answers prints proceeds legible named fails
  have nothing : ∀ buf ∈ (none : Option Bytes), cstr buf = .ok CString.empty := by simp
  have add := send_able (some root) proceeds nothing w' able
  constructor
  · intro whole
    obtain ⟨rounds, w'', returns⟩ := whole.returns
    rw [sends] at returns
    cases reported : reportErrors i.ssl rounds with
    | error e =>
      rw [reported] at returns
      cases returns
    | ok u =>
      rw [reported, check_ok_bind] at returns
      refine ⟨reportErrors_returns.mp ⟨rounds, reported⟩, ?_⟩
      rcases add with ⟨absent, -⟩ | ⟨-, e, s, halts⟩
      · simpa using absent
      · rw [halts] at returns
        cases returns
  · rintro ⟨empty, node⟩
    rcases add with ⟨-, _, w'', run, added⟩ | ⟨present, -⟩
    · rw [Added, node] at added
      -- Without enough rounds the report of the errors is cut off; with them the run is the same.
      have ends (rounds : Nat) : cjsonCreatPostData { p with rounds := rounds } i w = .error .diverges w' ∨
          cjsonCreatPostData { p with rounds := rounds } i w = .ok () w'' := by
        rw [sends]
        cases reported : reportErrors i.ssl rounds with
        | error e =>
          rw [reportErrors_error reported]
          exact Or.inl rfl
        | ok u =>
          rw [check_ok_bind]
          exact Or.inr run
      obtain ⟨rounds, reported⟩ := reportErrors_returns.mpr empty
      constructor
      · refine ⟨rounds, w'', ?_⟩
        rw [sends, reported, check_ok_bind, run]
      · intro rounds v returns
        rcases ends rounds with stops | returns'
        · cases returns.symm.trans stops
        · cases returns.symm.trans returns'
          exact Or.inl added
      · intro rounds v halts
        rcases ends rounds with stops | returns
        · cases halts.symm.trans stops
        · cases halts.symm.trans returns
    · simp [node] at present

/-- The whole ciphertext is queued, or nothing, exactly when no call to OpenSSL fails and the copy of
the text is allocated; or one fails with nothing to report, and there is no memory for the message. -/
theorem queues_whole_iff (answers : Answers i.ssl cipher) (prints : Prints p) (proceeds : i.Proceeds)
    (legible : Legible w) (named : NonEmpty w.gDeviceId) : QueuesWhole p cipher i w ↔
      (¬ i.ssl.Fails getDeviceKey (reportText p i w).bytes ∧
        (i.add.alloc.node = true → i.add.alloc.msg = true)) ∨
      (i.ssl.Fails getDeviceKey (reportText p i w).bytes ∧ i.ssl.errors = [] ∧
        i.add.alloc.node = false) := by
  by_cases fails : i.ssl.Fails getDeviceKey (reportText p i w).bytes
  · rw [queuesWhole_fails answers prints proceeds legible named fails]
    simp [fails]
  · rw [queuesWhole_works answers prints proceeds legible named fails]
    simp [fails]

end Outcomes

def identifiedWorld : World :=
  { World.start devicePlatform.target with gDeviceId := CString.ascii "d72e64" ++ [0] }

theorem identified_nonEmpty : NonEmpty identifiedWorld.gDeviceId :=
  ⟨100, CString.ascii "72e64" ++ [0], rfl, by decide⟩

theorem identified_legible : Legible identifiedWorld := ⟨⟨rfl, rfl⟩, zeros_terminated 15⟩

def sealedBoot : Boot := { deviceBoot with ssl := sampleOpenSSL }

def sealedPostData : PostData := { devicePostData with ssl := sampleOpenSSL }

theorem sealed_queued : QueuesWhole devicePlatform sampleCipher sealedPostData identifiedWorld := by
  have works := works_proceeds devicePostData_works
  have proceeds : sealedPostData.Proceeds :=
    ⟨works.uuid, works.root, works.dev, works.uav, works.addReads, works.addReturns, works.serial⟩
  refine (queues_whole_iff sample_answers device_prints proceeds identified_legible
    identified_nonEmpty).mpr (Or.inl ⟨?_, fun _ => rfl⟩)
  rintro (none | refused | failed)
  · cases none
  · exact refused rfl
  · exact failed rfl

/-- There is no memory for a context, which queues no error. -/
def silentPostData : PostData := { devicePostData with ssl := silentOpenSSL }

theorem silent_pointer : ∃ w, cjsonCreatPostData { devicePlatform with rounds := 1 } silentPostData
      identifiedWorld = .error .nullPointer w ∧
    ¬ QueuesWhole devicePlatform sampleCipher silentPostData identifiedWorld := by
  have halts : haltOf (cjsonCreatPostData { devicePlatform with rounds := 1 } silentPostData
      identifiedWorld) = some .nullPointer := by decide +kernel
  obtain ⟨w, run⟩ := haltOf_error halts
  exact ⟨w, run, fun whole => whole.pointer 1 w run⟩

end Newplat
