import MqttFieldBridge.Config.Threads
import MqttFieldBridge.Boot.Main
import MqttFieldBridge.Http.Fragments
import MqttFieldBridge.Http.Host
import MqttFieldBridge.Device.Updates
import MqttFieldBridge.Config.Invariant
import MqttFieldBridge.Http.Effects
import MqttFieldBridge.Console.Edits
import MqttFieldBridge.Device.Run
import MqttFieldBridge.CLib.Decimal
import MqttFieldBridge.Json.Value
import MqttFieldBridge.Json.Search
import MqttFieldBridge.Http.Members
import MqttFieldBridge.Http.Exact
import MqttFieldBridge.Config.Frame
import MqttFieldBridge.Console.Frame
import MqttFieldBridge.Http.Frame
import MqttFieldBridge.Lts.Pool
import MqttFieldBridge.Device.Button
import MqttFieldBridge.Http.Slots
import MqttFieldBridge.Boot.Broker
import MqttFieldBridge.Device.BrokerLoop
import MqttFieldBridge.Device.Seeds
import MqttFieldBridge.Json.Raw
import MqttFieldBridge.Http.Documents
import MqttFieldBridge.Http.Echo
import MqttFieldBridge.Http.Refines
import MqttFieldBridge.Json.Parse
import MqttFieldBridge.Json.ReadBack
import MqttFieldBridge.Http.Faithful
import MqttFieldBridge.Device.Faithful
import MqttFieldBridge.Runtime.SeedCalls
import MqttFieldBridge.Runtime.PeerStatus
import MqttFieldBridge.Runtime.Reports
import MqttFieldBridge.Http.Repost
import MqttFieldBridge.Http.Chunks
import MqttFieldBridge.Http.Incomplete
import MqttFieldBridge.Device.PeerIndex
import MqttFieldBridge.Console.Typed
import MqttFieldBridge.Http.Lookups
import MqttFieldBridge.Lts.Streak
import MqttFieldBridge.Boot.LinkWait
import MqttFieldBridge.Console.MenuIndex
import MqttFieldBridge.Http.Decode
import MqttFieldBridge.Json.Token
import MqttFieldBridge.Http.Scalars
import MqttFieldBridge.Http.Send
import MqttFieldBridge.Http.Connection
import MqttFieldBridge.Console.Script
import MqttFieldBridge.Boot.Stable
import MqttFieldBridge.Config.Again
import MqttFieldBridge.Http.Retry
import MqttFieldBridge.Lts.Rebuild
import MqttFieldBridge.Device.SeedThreads
import MqttFieldBridge.Device.LiveState
import MqttFieldBridge.Lts.Lockstep
import MqttFieldBridge.Device.Memory
import MqttFieldBridge.Http.Restore
import MqttFieldBridge.Http.Requests
import MqttFieldBridge.Device.Copy
import MqttFieldBridge.Device.StatusLed
import MqttFieldBridge.Device.Supervise
import MqttFieldBridge.Device.Blinking
import MqttFieldBridge.Device.Restart
import MqttFieldBridge.Json.Object
import MqttFieldBridge.Web.Script
import MqttFieldBridge.Web.Entry
import MqttFieldBridge.Web.Serve
import MqttFieldBridge.Web.Session
import MqttFieldBridge.Web.Shown
import MqttFieldBridge.Web.Unedited
import MqttFieldBridge.Boot.PeerLoss
