import Newplat.Main

/-! The moments of a report that can change the identity or the connection: the callbacks of
the network thread and the runs of the serial-number command, in the order they happen. -/
namespace Newplat

open Base

/-- The runs of the serial-number command a step may make. -/
def Callback.reads : Callback → List Popen
  | .connect _ _ first second _ => [first, second]
  | .disconnect _ _ => []

def Read.reads (r : Read) : List Popen := r.before.flatMap Callback.reads ++ [r.popen]

def PostData.reads (i : PostData) : List Popen :=
  i.root.reads ++ i.dev.reads ++ i.uav.reads ++ i.beforeAdd.flatMap Callback.reads

inductive Moment where
  | callback (c : Callback)
  | read (r : Popen)

def moment : Moment → Prog Unit
  | .callback c => mqttCallback c
  | .read r => getDeviceId r

def Moment.reads : Moment → List Popen
  | .callback c => c.reads
  | .read r => [r]

def Read.moments (r : Read) : List Moment := r.before.map .callback ++ [.read r.popen]

def PostData.moments (i : PostData) : List Moment :=
  i.root.moments ++ (i.dev.moments ++ (i.uav.moments ++ i.beforeAdd.map .callback))

def buildPostData (p : Platform) (i : PostData) : Prog Unit := do
  let id ← readDeviceId i.root
  let params ← cjsonCreateParamsData p i
  let root := reportRoot i.uuid id params
  let out := p.cJSONPrint root
  let (outBase64, _) ← check
    (aesEcbPkcs5Encrypt i.ssl p.rounds out.buffer (toInt32 out.length) getDeviceKey 16 true)
  runAll mqttCallback i.beforeAdd
  cjsonMsgAdd outBase64 (some root) i.add

theorem cjsonCreatPostData_eq (p : Platform) (i : PostData) :
    cjsonCreatPostData p i = act .cjsonCreatPostData >>= fun _ => buildPostData p i := rfl

theorem callbacks_moments (cs : List Callback) :
    runAll mqttCallback cs = runAll moment (cs.map .callback) :=
  (runAll_map moment .callback cs).symm

theorem readDeviceId_moments (r : Read) :
    readDeviceId r = runAll moment r.moments >>= fun _ => deviceId := by
  have last : runAll moment [.read r.popen] = getDeviceId r.popen >>= fun _ => pure () := rfl
  rw [readDeviceId, Read.moments, runAll_append, ← callbacks_moments, last]
  simp only [bind_assoc, pure_bind]

theorem read_reads {r : Read} {m : Moment} (member : m ∈ r.moments) {t : Popen} (read : t ∈ m.reads) :
    t ∈ r.reads := by
  rcases List.mem_append.mp member with before | own
  · obtain ⟨c, called, rfl⟩ := List.mem_map.mp before
    exact List.mem_append_left _ (List.mem_flatMap.mpr ⟨c, called, read⟩)
  · rw [List.mem_singleton.mp own] at read
    exact List.mem_append_right _ read

theorem postData_reads {i : PostData} {m : Moment} (member : m ∈ i.moments) {t : Popen}
    (read : t ∈ m.reads) : t ∈ i.reads := by
  simp only [PostData.moments, List.mem_append] at member
  simp only [PostData.reads, List.mem_append]
  rcases member with root | dev | uav | add
  · exact Or.inl (Or.inl (Or.inl (read_reads root read)))
  · exact Or.inl (Or.inl (Or.inr (read_reads dev read)))
  · exact Or.inl (Or.inr (read_reads uav read))
  · obtain ⟨c, called, rfl⟩ := List.mem_map.mp add
    exact Or.inr (List.mem_flatMap.mpr ⟨c, called, read⟩)

def EntriesFrom (dev uav : CString) (params : CJson) : Prop :=
  ∃ devValue uavValue devTime uavTime,
    params = .array [devObject dev devValue devTime, uavObject uav uavValue uavTime]

/-- A family of conditions that the moments move through, and what an identity read in each
of them is. -/
structure Followed {κ : Type} (I : κ → World → Prop) (ok : κ → Moment → Prop) (next : κ → Moment → κ)
    (named : κ → CString → Prop) (E : World → Prop) : Prop where
  step : ∀ k m, ok k m → Spec (I k) (moment m) (fun _ => I (next k m)) E
  look : ∀ k, Spec (I k) deviceId (fun id w => named k id ∧ I k w) E
  halts : ∀ k w, I k w → E w

section Walk

variable {κ : Type} {I : κ → World → Prop} {ok : κ → Moment → Prop} {next : κ → Moment → κ}
variable {named : κ → CString → Prop} {E : World → Prop} {Q : Unit → World → Prop} {k : κ}

theorem moments_follow (followed : Followed I ok next named E) {ms : List Moment}
    (passes : Passes ok next k ms) :
    Spec (I k) (runAll moment ms) (fun _ => I (ms.foldl next k)) E :=
  spec_passes passes fun m _ k admitted => followed.step k m admitted

theorem readDeviceId_follows (followed : Followed I ok next named E) {r : Read}
    (passes : Passes ok next k r.moments) :
    Spec (I k) (readDeviceId r)
      (fun id w => named (r.moments.foldl next k) id ∧ I (r.moments.foldl next k) w) E := by
  rw [readDeviceId_moments]
  apply spec_bind (moments_follow followed passes)
  intro _
  exact followed.look _

theorem cjsonCreateParamsData_follows (followed : Followed I ok next named E) (p : Platform) {i : PostData}
    (dev : Passes ok next k i.dev.moments)
    (uav : Passes ok next (i.dev.moments.foldl next k) i.uav.moments) :
    Spec (I k) (cjsonCreateParamsData p i) (fun params w =>
      (∃ devId uavId, named (i.dev.moments.foldl next k) devId ∧
        named (i.uav.moments.foldl next (i.dev.moments.foldl next k)) uavId ∧
          EntriesFrom devId uavId params) ∧
      I (i.uav.moments.foldl next (i.dev.moments.foldl next k)) w) E := by
  generalize after : i.dev.moments.foldl next k = k' at uav
  have devMade : Spec (I k) (cjsonCreateDevData p i.dev i.clock) (fun o w =>
      (∃ id value time, named k' id ∧ o = devObject id value time) ∧ I k' w) E := by
    have read := readDeviceId_follows followed dev
    rw [after] at read
    apply spec_bind read
    intro id
    apply spec_fact
    intro isId
    apply spec_copy
    intro w _
    exact spec_pure fun _ held => ⟨⟨id, _, _, isId, rfl⟩, held⟩
  have uavMade : Spec (I k') (cjsonCreateUavData p i.uav) (fun o w =>
      (∃ id value time, named (i.uav.moments.foldl next k') id ∧ o = uavObject id value time) ∧
        I (i.uav.moments.foldl next k') w) E := by
    apply spec_copy
    intro w _
    apply spec_bind (spec_halting keeps_check (followed.halts k'))
    intro time
    apply spec_bind (readDeviceId_follows followed uav)
    intro id
    apply spec_fact
    intro isId
    exact spec_pure fun _ held => ⟨⟨id, _, _, isId, rfl⟩, held⟩
  apply spec_bind devMade
  intro o
  apply spec_fact
  rintro ⟨devId, devValue, devTime, isDev, rfl⟩
  apply spec_bind uavMade
  intro o
  apply spec_fact
  rintro ⟨uavId, uavValue, uavTime, isUav, rfl⟩
  exact spec_pure fun _ held => ⟨⟨devId, uavId, isDev, isUav, _, _, _, _, rfl⟩, held⟩

/-- A report goes through its moments; how its message is added, is up to the caller. -/
theorem buildPostData_follows (followed : Followed I ok next named E) (p : Platform) {i : PostData}
    (passes : Passes ok next k i.moments)
    (add : ∀ id devId uavId params data len,
      named (i.root.moments.foldl next k) id →
      named (i.dev.moments.foldl next (i.root.moments.foldl next k)) devId →
      named (i.uav.moments.foldl next (i.dev.moments.foldl next (i.root.moments.foldl next k))) uavId →
      EntriesFrom devId uavId params →
      aesEcbPkcs5Encrypt i.ssl p.rounds (p.cJSONPrint (reportRoot i.uuid id params)).buffer
        (toInt32 (p.cJSONPrint (reportRoot i.uuid id params)).length) getDeviceKey 16 true = .ok (data, len) →
      Spec (I (i.moments.foldl next k)) (cjsonMsgAdd data (some (reportRoot i.uuid id params)) i.add) Q E) :
    Spec (I k) (buildPostData p i) Q E := by
  simp only [PostData.moments, passes_append, List.foldl_append] at passes add
  obtain ⟨root, dev, uav, before⟩ := passes
  apply spec_bind (readDeviceId_follows followed root)
  intro id
  apply spec_fact
  intro isId
  apply spec_bind (cjsonCreateParamsData_follows followed p dev uav)
  intro params
  have added := fun devId uavId => add id devId uavId params
  dsimp only
  generalize aesEcbPkcs5Encrypt _ _ _ _ _ _ _ = sealing at added ⊢
  apply spec_fact
  rintro ⟨devId, uavId, isDev, isUav, entries⟩
  apply spec_bind (spec_checked fun _ w _ held => followed.halts _ w held)
  rintro ⟨data, len⟩
  apply spec_fact
  intro same
  rw [callbacks_moments]
  apply spec_bind (moments_follow followed before)
  intro _
  exact added devId uavId data len isId isDev isUav entries same

end Walk

end Newplat
