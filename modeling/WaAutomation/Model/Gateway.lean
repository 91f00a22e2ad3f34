/-
**The realtime gateway.**

`SessionsGateway` over the rooms of Socket.IO: which rooms a connected socket is in, and which rooms
an emit helper sends to. `handleConnection` and `handleDisconnect` only log. A `Realtime` also holds
whom the handshake of a socket identifies, and the memberships, neither of which the gateway looks
at. The bodies of messages are not validated.
-/

import WaAutomation.Model.Helpers

set_option linter.unusedSectionVars false

namespace WaAutomation

/-- What a room stands for. -/
inductive Channel where
  | workspace (workspaceId : String)
  | session (sessionId : String)
  deriving DecidableEq, Repr

/-- The name of a room. -/
def Channel.room : Channel → String
  | .workspace workspaceId => "workspace:" ++ workspaceId
  | .session sessionId => "session:" ++ sessionId

/-- A text in a template; `undefined` is written out. -/
def interpolated (h : Helpers) : Option Json → Except Err String
  | none => .ok "undefined"
  | some value => h.asString value

structure Realtime where
  rooms : Uuid → Option (List String)
  identity : Uuid → Option Uuid
  members : List WorkspaceMember

namespace Realtime

/-- Nothing is connected. -/
def idle (members : List WorkspaceMember) : Realtime := ⟨fun _ => none, fun _ => none, members⟩

def join (state : Realtime) (client : Uuid) (room : String) : Realtime :=
  { state with
    rooms := Function.update state.rooms client
      ((state.rooms client).map fun rooms => room :: rooms) }

def leave (state : Realtime) (client : Uuid) (room : String) : Realtime :=
  { state with
    rooms := Function.update state.rooms client
      ((state.rooms client).map fun rooms => rooms.filter fun other => other != room) }

/-- A socket id is used for one connection. -/
def connect (state : Realtime) (client : Uuid) (handshake : Option Uuid) : Realtime :=
  match state.rooms client with
  | some _ => state
  | none =>
      { state with
        rooms := Function.update state.rooms client (some [])
        identity := Function.update state.identity client handshake }

def disconnect (state : Realtime) (client : Uuid) : Realtime :=
  { state with rooms := Function.update state.rooms client none }

end Realtime

namespace SessionsGateway

/-- The property of a message's body. -/
def property (h : Helpers) (data : Option Json) (name : String) : Except Err (Option Json) :=
  match data with
  | none => .error (.other s!"Cannot read properties of undefined (reading '{name}')")
  | some .null => .error (.other s!"Cannot read properties of null (reading '{name}')")
  | some data => .ok (h.property data name)

/-- The channel a body names. -/
def workspaceOf (h : Helpers) (data : Option Json) : Except Err Channel := do
  return .workspace (← interpolated h (← property h data "workspaceId"))

def sessionOf (h : Helpers) (data : Option Json) : Except Err Channel := do
  return .session (← interpolated h (← property h data "sessionId"))

def joinWorkspace (h : Helpers) (state : Realtime) (client : Uuid) (data : Option Json) :
    Realtime :=
  match workspaceOf h data with
  | .error _ => state
  | .ok channel => state.join client channel.room

def leaveWorkspace (h : Helpers) (state : Realtime) (client : Uuid) (data : Option Json) :
    Realtime :=
  match workspaceOf h data with
  | .error _ => state
  | .ok channel => state.leave client channel.room

def joinSession (h : Helpers) (state : Realtime) (client : Uuid) (data : Option Json) : Realtime :=
  match sessionOf h data with
  | .error _ => state
  | .ok channel => state.join client channel.room

/-- The channels an emit helper sends to, one after the other. -/
def channels : Event → List Channel
  | .sessionStatus workspaceId sessionId _ _ => [.session sessionId, .workspace workspaceId]
  | .sessionQr workspaceId sessionId _ => [.session sessionId, .workspace workspaceId]
  | .messageReceived workspaceId sessionId _ _ => [.session sessionId, .workspace workspaceId]
  | .messageSent workspaceId sessionId _ _ =>
      [.session sessionId, .workspace (workspaceId.getD "undefined")]
  | .broadcastProgress workspaceId _ _ _ _ => [.workspace workspaceId]
  | .automationTriggered workspaceId _ => [.workspace workspaceId]

/-- The times a socket receives an event. -/
def receives (state : Realtime) (event : Event) (client : Uuid) : Nat :=
  match state.rooms client with
  | none => 0
  | some rooms => (channels event).countP fun channel => rooms.contains channel.room

end SessionsGateway

/-- What happens at the gateway, and elsewhere to the memberships. -/
inductive SocketAction where
  | connect (client : Uuid) (handshake : Option Uuid)
  | joinWorkspace (client : Uuid) (data : Option Json)
  | leaveWorkspace (client : Uuid) (data : Option Json)
  | joinSession (client : Uuid) (data : Option Json)
  | disconnect (client : Uuid)
  | members (members : List WorkspaceMember)

def Realtime.act (h : Helpers) (state : Realtime) : SocketAction → Realtime
  | .connect client handshake => state.connect client handshake
  | .joinWorkspace client data => SessionsGateway.joinWorkspace h state client data
  | .leaveWorkspace client data => SessionsGateway.leaveWorkspace h state client data
  | .joinSession client data => SessionsGateway.joinSession h state client data
  | .disconnect client => state.disconnect client
  | .members members => { state with members := members }

/-- The state after a run. -/
def Realtime.after (h : Helpers) (state : Realtime) (actions : List SocketAction) : Realtime :=
  actions.foldl (Realtime.act h) state

end WaAutomation
