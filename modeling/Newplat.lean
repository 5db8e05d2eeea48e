import Newplat.RoundTrip
import Newplat.UbusString
import Newplat.Wire
import Newplat.Queue
import Newplat.Device
import Newplat.Heartbeat
import Newplat.Identity
import Newplat.Topics
import Newplat.Hosts
import Newplat.Outcomes
import Newplat.UbusInt
import Newplat.Unpadding
import Newplat.Readings
import Newplat.Uci
import Newplat.Base.Heap
import Newplat.UbusObjects
import Newplat.Base.Timeouts
import Newplat.Timers
import Newplat.Session
import Newplat.Crc
import Newplat.CrcErrors
import Newplat.Conf
import Newplat.Replies
import Newplat.Refusals
import Newplat.PaasTopics
import Newplat.UciInts
import Newplat.Payload
import Newplat.CipherSizes
import Newplat.WallClock
import Newplat.PackStrings
import Newplat.Utc
import Newplat.Base.Rings
import Newplat.ListHead
import Newplat.ListRuns
import Newplat.Base.Simulation
import Newplat.Blind
import Newplat.MsgMemory
import Newplat.MsgShape
import Newplat.MsgRefines
import Newplat.Messages
import Newplat.FlyTime
import Newplat.Telemetry
import Newplat.Booting
import Newplat.Settings
import Newplat.SpareSettings
import Newplat.BlobLedger
import Newplat.Endings
