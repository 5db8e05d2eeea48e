import Newplat.Json

/-! The whole program: `main` up to `uloop_run`, then timers and callbacks in any order. -/
namespace Newplat

open Base

def confUciInit (b : Boot) : Prog Int := do
  if b.uciAllocContext = false then
    loge "Uci init error!!!\n" []
    return -1
  else if b.uciLoad ≠ 0 then
    loge "Failed to load /etc/config/newplat !!!\n" []
    return -1
  else return 0

/-- The results of the first and the third initialisation are tested, that of `mqtt_init` is not. -/
def main (p : Platform) (b : Boot) : Prog Unit := do
  let ret ← confUciInit b
  if ret < 0 then
    loge "init uci error!" []
    throw (.exit 1)
  else
    let _ ← mqttInit p b
    let ret ← mqttBeatInit b.uptime
    if ret < 0 then
      loge "init mqtt app error!" []
      throw (.exit 1)
    else act .uloopRun

/-- A step of the running program. `msgAdd` is a call of `cjson_msg_add` on its own. -/
inductive Event where
  | msgAdd (data : Option Bytes) (i : MsgAdd)
  | post (h : Heartbeat)
  | send (turns : Nat → Turn)
  | callback (c : Callback)

def handle (p : Platform) : Event → Prog Unit
  | .msgAdd data i => cjsonMsgAdd data none i
  | .post h => mqttPostRun p h
  | .send turns => mqttSendRun turns
  | .callback c => mqttCallback c

def run (p : Platform) (events : List Event) : Prog Unit := runAll (handle p) events

def newplat (p : Platform) (b : Boot) (events : List Event) : Prog Unit := do
  main p b
  run p events

end Newplat
