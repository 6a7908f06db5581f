import MqttFieldBridge.Http.Zephyr
import MqttFieldBridge.Json.Object

/-! # The script of the settings page

The functions of the script in `index_html`: what `L` makes of the answers to `/config` and `/peers`,
and what `s` and `V` post. `C` is the object that `/config` has answered last, with what `s` has
assigned to its members since. How a string converts to a number and what a text input makes of its
attribute is the browser's.

The answers are objects of strings and natural numbers; of any other text the script makes nothing
here. -/

namespace MqttFieldBridge.Web

open MqttFieldBridge.CLib MqttFieldBridge.Config MqttFieldBridge.Http MqttFieldBridge.Json

/-! ### Values -/

/-- A number of the script. -/
inductive JsNumber where
  | nan
  | infinite (neg : Bool)
  | finite (x : JsonNumber)

/-- What the script leaves to the browser: `+s` of a string, and the value of a text input whose
attribute is written between double quotes. -/
structure Browser where
  toNumber : JsonString → JsNumber
  inputValue : JsonString → JsonString

/-- `if (v)` -/
def truthy : JsonValue → Bool
  | .null => false
  | .bool b => b
  | .number x => decide (x.digits ≠ 0)
  | .string s => decide (s ≠ [])

/-- `v||d`, where `none` is `undefined`. -/
def orElse (v : Option JsonValue) (d : JsonValue) : JsonValue :=
  match v with
  | none => d
  | some v => if truthy v then v else d

/-- `''+v` -/
def concat : JsonValue → JsonString
  | .null => plain (str "null")
  | .bool true => plain (str "true")
  | .bool false => plain (str "false")
  | .number x => plain x.text
  | .string s => s

variable (B : Browser)

/-- `+v` -/
def plus : Option JsonValue → JsNumber
  | none => .nan
  | some .null => .finite (.ofNat 0)
  | some (.bool b) => .finite (.ofNat b.toNat)
  | some (.number x) => .finite x
  | some (.string s) => B.toNumber s

/-- `+v||d`. An infinite number stands as the `null` that `JSON.stringify` makes of it. -/
def plusOr (v : Option JsonValue) (d : ℕ) : JsonValue :=
  match plus B v with
  | .nan => .number (.ofNat d)
  | .infinite _ => .null
  | .finite x => if x.digits = 0 then .number (.ofNat d) else .number x

/-- `b?1:0` -/
def flagValue (b : Bool) : JsonValue := .number (.ofNat b.toNat)

/-! ### What the page shows -/

/-- The inputs of the settings; the text inputs by their `id`. -/
structure SettingsForm where
  mode : JsonString
  dhcpEnabled : Bool
  input : Text → JsonString

/-- The inputs in the row of a peer. -/
structure PeerForm where
  enabled : Bool
  name : JsonString
  host : JsonString
  mqttPort : JsonString
  p2pPort : JsonString

/-- The lists `E` and `A`. -/
def ethFields : List Text := [str "device_ip", str "gateway", str "netmask", str "dns"]
def brokerFields : List Text :=
  [str "broker_ip", str "mqtt_port", str "fallback_port", str "p2p_port", str "topic_prefix"]

/-- The key with this text. -/
def key (s : String) : JsonString := plain (str s)

/-- The rows of the settings that `L` writes. The first of the two modes is selected if `C` has
neither. -/
def settingsForm (C : JsonObject) : SettingsForm where
  mode := if C.get? (key "mode") = some (.string (key "eth")) then key "eth" else key "auto"
  dhcpEnabled := (C.get? (key "dhcp_enabled")).any truthy
  input f := B.inputValue (concat (orElse (C.get? (plain f)) (.string [])))

/-- `x.k` for an element of an array. -/
def treeGet? (x : JsonTree) (k : String) : Option JsonValue :=
  match x with
  | .object ps => (ps.reverse.find? fun p => utf8 p.1 = str k).bind fun p => scalar p.2
  | _ => none

/-- The row of a peer that `L` writes. -/
def peerForm (x : JsonTree) : PeerForm where
  enabled := (treeGet? x "enabled").any truthy
  name := B.inputValue (concat (orElse (treeGet? x "name") (.string [])))
  host := B.inputValue (concat (orElse (treeGet? x "host") (.string [])))
  mqttPort := B.inputValue (concat (orElse (treeGet? x "mqtt_port") (.number (.ofNat 1883))))
  p2pPort := B.inputValue (concat (orElse (treeGet? x "p2p_port") (.number (.ofNat 4884))))

/-! ### What the page posts -/

/-- The assignments of `s` to the members of `C`. -/
def collect (F : SettingsForm) (C : JsonObject) : JsonObject :=
  let C := (ethFields ++ brokerFields).foldl (fun C f => C.set (plain f) (.string (F.input f))) C
  let C := C.set (key "mode") (.string F.mode)
  let C := C.set (key "dhcp_enabled") (flagValue F.dhcpEnabled)
  let C := C.set (key "mqtt_port") (plusOr B (C.get? (key "mqtt_port")) 1883)
  let C := C.set (key "fallback_port") (plusOr B (C.get? (key "fallback_port")) 1884)
  C.set (key "p2p_port") (plusOr B (C.get? (key "p2p_port")) 4884)

/-- The object `x` of `V`. -/
def peerObject (F : PeerForm) : JsonObject :=
  .ofMembers
    [(key "enabled", flagValue F.enabled),
      (key "name", .string F.name),
      (key "host", .string F.host),
      (key "mqtt_port", plusOr B (some (.string F.mqttPort)) 1883),
      (key "p2p_port", plusOr B (some (.string F.p2pPort)) 4884)]

/-- A request of `J`. -/
structure Request where
  method : HttpMethod
  path : Text
  body : Text

/-- The requests of `L`. -/
inductive Load where
  | config
  | peers
deriving DecidableEq

def Load.request : Load → Request
  | .config => ⟨.get, str "/config", []⟩
  | .peers => ⟨.get, str "/peers", []⟩

/-- The request of `s` when `C` is this object. -/
def postSettings (C : JsonObject) : Request := ⟨.post, str "/config", stringify C⟩

/-- The request of `V(i)`. -/
def postPeer (i : ℕ) (F : PeerForm) : Request :=
  ⟨.post, peersPath ++ decimal i, stringify (peerObject B F)⟩

/-! ### The page as it goes on -/

/-- What `fetch` comes to. -/
inductive Reply where
  | failed
  | response (r : Response)

/-- `r.ok`, and the text. -/
def Reply.okText : Reply → Option Text
  | .response ⟨status, .json t⟩ => if 200 ≤ status ∧ status < 300 then some t else none
  | _ => none

/-- What waits for an answer: `L`, or one of `s` and `V`, which go on alike. -/
inductive Call where
  | load (l : Load)
  | save
deriving DecidableEq

/-- The variable `C`, the rows that the page shows, and what the alerts have said of the saves. -/
structure PageState where
  C : Option JsonObject
  settings : Option SettingsForm
  peers : List PeerForm
  alerts : List Bool

/-- The page before the first answer. -/
def PageState.blank : PageState := ⟨none, none, [], []⟩

/-- `s`, up to its `await`: without an object or without rows it throws, which it says in an alert. -/
def clickSettings (p : PageState) : PageState × Option Request :=
  match p.C, p.settings with
  | some C, some F =>
    let C := collect B F C
    ({ p with C := some C }, some (postSettings C))
  | _, _ => ({ p with alerts := p.alerts ++ [false] }, none)

/-- `V(i)`, up to its `await`. There is a button for it in the row of the peer. -/
def clickPeer (i : ℕ) (p : PageState) : Option Request := p.peers[i]?.map (postPeer B i)

/-- The page goes on with an answer, and the request of `L` that it makes next, if any. -/
def resume (p : PageState) (reply : Reply) : Call → PageState × Option Load
  | .load .config =>
    match reply.okText.bind parseObject with
    | some C => ({ p with C := some C }, some .peers)
    | none => (p, none)
  | .load .peers =>
    match p.C, reply.okText with
    | some C, some t =>
      let rows :=
        match parse t with
        | some (.array P) => P.map (peerForm B)
        | _ => p.peers
      ({ p with settings := some (settingsForm B C), peers := rows }, none)
    | _, _ => (p, none)
  | .save =>
    if reply.okText.isSome then ({ p with alerts := p.alerts ++ [true] }, some .config)
    else ({ p with alerts := p.alerts ++ [false] }, none)

end MqttFieldBridge.Web
