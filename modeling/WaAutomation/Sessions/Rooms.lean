/-
**Who receives a realtime event.**

A socket chooses its rooms itself: `join_workspace` and `join_session` put it into the room it
names, whoever it belongs to.

* `room_injective`: two channels have two rooms;
* `Subscribed` says that a connected socket asked for a channel and has not left it since, and
  `joined_iff` that the rooms of a socket are those it is subscribed to;
* `receives_iff`: an event reaches exactly the sockets subscribed to one of its channels;
* `overheard` is a stranger who reads the QR code of a session.
-/

import Mathlib.Data.List.Induction
import WaAutomation.Model.Gateway

set_option linter.unusedSectionVars false

namespace WaAutomation.Rooms

/-! ### What lasts in a run -/

section Since

variable {α : Type} {opens : List α → α → Prop} {closes : α → Prop} {actions : List α} {last : α}

/-- An action opened something, and none has closed it since. -/
def Since (opens : List α → α → Prop) (closes : α → Prop) (actions : List α) : Prop :=
  ∃ before action rest, actions = before ++ action :: rest ∧ opens before action ∧
    ∀ later ∈ rest, ¬closes later

theorem since_nil : ¬Since opens closes [] := by
  intro since
  obtain ⟨before, action, rest, same, _⟩ := since
  simp at same

/-- **One action more.** -/
theorem since_append :
    Since opens closes (actions ++ [last]) ↔
      opens actions last ∨ Since opens closes actions ∧ ¬closes last := by
  constructor
  · intro since
    obtain ⟨before, action, rest, same, opened, calm⟩ := since
    rcases List.eq_nil_or_concat rest with rfl | ⟨rest, final, rfl⟩
    · obtain ⟨rfl, final⟩ := List.append_inj' same rfl
      cases final
      exact .inl opened
    · rw [List.concat_eq_append] at same calm
      rw [← List.cons_append, ← List.append_assoc] at same
      obtain ⟨earlier, ended⟩ := List.append_inj' same rfl
      cases ended
      refine .inr ⟨⟨before, action, rest, earlier, opened, fun later member => ?_⟩, ?_⟩
      · exact calm later (List.mem_append_left _ member)
      · exact calm last (List.mem_append_right _ List.mem_cons_self)
  · intro either
    obtain opened | ⟨⟨before, action, rest, rfl, opened, calm⟩, open_⟩ := either
    · exact ⟨actions, last, [], rfl, opened, fun _ later => (by cases later)⟩
    · refine ⟨before, action, rest ++ [last], by simp, opened, fun later member => ?_⟩
      rcases List.mem_append.mp member with earlier | here
      · exact calm later earlier
      · rw [List.mem_singleton.mp here]
        exact open_

end Since

/-! ### Rooms -/

/-- **Two channels have two rooms.** -/
theorem room_injective {first second : Channel} (same : first.room = second.room) :
    first = second := by
  have letters := congrArg String.toList same
  cases first with
  | workspace one =>
    cases second with
    | workspace other =>
      simp only [Channel.room, String.toList_append, List.append_cancel_left_eq] at letters
      rw [String.toList_inj.mp letters]
    | session other => simp [Channel.room] at letters
  | session one =>
    cases second with
    | workspace other => simp [Channel.room] at letters
    | session other =>
      simp only [Channel.room, String.toList_append, List.append_cancel_left_eq] at letters
      rw [String.toList_inj.mp letters]

/-! ### Subscriptions -/

/-- The socket is connected. -/
def Connected (client : Uuid) : List SocketAction → Prop :=
  Since (fun _ action => ∃ handshake, action = .connect client handshake)
    fun action => action = .disconnect client

/-- The socket asks for a channel. -/
def Asks (h : Helpers) (client : Uuid) (channel : Channel) : SocketAction → Prop
  | .joinWorkspace other data =>
      other = client ∧ SessionsGateway.workspaceOf h data = .ok channel
  | .joinSession other data => other = client ∧ SessionsGateway.sessionOf h data = .ok channel
  | _ => False

/-- The socket gives a channel up. -/
def Leaves (h : Helpers) (client : Uuid) (channel : Channel) : SocketAction → Prop
  | .leaveWorkspace other data =>
      other = client ∧ SessionsGateway.workspaceOf h data = .ok channel
  | .disconnect other => other = client
  | _ => False

/-- The socket asked for the channel while it was connected, and has not given it up since. -/
def Subscribed (h : Helpers) (client : Uuid) (channel : Channel) : List SocketAction → Prop :=
  Since (fun before action => Connected client before ∧ Asks h client channel action)
    (Leaves h client channel)

section Run

variable {h : Helpers} {members : List WorkspaceMember} {actions : List SocketAction}
  {client : Uuid}

theorem after_append (state : Realtime) (actions : List SocketAction) (last : SocketAction) :
    state.after h (actions ++ [last]) = (state.after h actions).act h last :=
  List.foldl_append.trans rfl

/-- What an action makes of the rooms of a socket. -/
def moved (h : Helpers) (client : Uuid) (rooms : Option (List String)) :
    SocketAction → Option (List String)
  | .connect other _ => if other = client then some (rooms.getD []) else rooms
  | .joinWorkspace other data =>
      match SessionsGateway.workspaceOf h data with
      | .error _ => rooms
      | .ok channel =>
          if other = client then rooms.map fun rooms => channel.room :: rooms else rooms
  | .leaveWorkspace other data =>
      match SessionsGateway.workspaceOf h data with
      | .error _ => rooms
      | .ok channel =>
          if other = client then rooms.map fun rooms => rooms.filter fun room =>
            room != channel.room
          else rooms
  | .joinSession other data =>
      match SessionsGateway.sessionOf h data with
      | .error _ => rooms
      | .ok channel =>
          if other = client then rooms.map fun rooms => channel.room :: rooms else rooms
  | .disconnect other => if other = client then none else rooms
  | .members _ => rooms

/-- A table with one entry changed. -/
theorem update_rooms (rooms : Uuid → Option (List String)) (other client : Uuid)
    (entry : Option (List String)) :
    Function.update rooms other entry client = if other = client then entry else rooms client := by
  by_cases same : other = client
  · rw [same, Function.update_self, if_pos rfl]
  · rw [Function.update_of_ne (Ne.symm same), if_neg same]

theorem rooms_act (state : Realtime) (action : SocketAction) (client : Uuid) :
    (state.act h action).rooms client = moved h client (state.rooms client) action := by
  cases action with
  | connect other handshake =>
    simp only [Realtime.act, Realtime.connect, moved]
    by_cases same : other = client
    · subst same
      cases rooms : state.rooms other <;> simp [rooms]
    · cases rooms : state.rooms other <;> simp [same, update_rooms]
  | joinWorkspace other data =>
    simp only [Realtime.act, SessionsGateway.joinWorkspace, moved]
    cases SessionsGateway.workspaceOf h data with
    | error error => rfl
    | ok channel =>
      simp only [Realtime.join, update_rooms]
      by_cases same : other = client <;> simp [same]
  | leaveWorkspace other data =>
    simp only [Realtime.act, SessionsGateway.leaveWorkspace, moved]
    cases SessionsGateway.workspaceOf h data with
    | error error => rfl
    | ok channel =>
      simp only [Realtime.leave, update_rooms]
      by_cases same : other = client <;> simp [same]
  | joinSession other data =>
    simp only [Realtime.act, SessionsGateway.joinSession, moved]
    cases SessionsGateway.sessionOf h data with
    | error error => rfl
    | ok channel =>
      simp only [Realtime.join, update_rooms]
      by_cases same : other = client <;> simp [same]
  | disconnect other => exact update_rooms state.rooms other client none
  | members members => rfl

/-- Which sockets are connected after one action more. -/
theorem connected_moved (rooms : Option (List String)) (action : SocketAction) :
    (moved h client rooms action).isSome = true ↔
      (∃ handshake, action = .connect client handshake) ∨
        rooms.isSome = true ∧ action ≠ .disconnect client := by
  cases action with
  | connect other handshake =>
    by_cases same : other = client <;> simp [moved, same]
  | joinWorkspace other data =>
    simp only [moved]
    split
    · simp
    · split <;> simp
  | leaveWorkspace other data =>
    simp only [moved]
    split
    · simp
    · split <;> simp
  | joinSession other data =>
    simp only [moved]
    split
    · simp
    · split <;> simp
  | disconnect other =>
    by_cases same : other = client <;> simp [moved, same]
  | members members => simp [moved]

/-- **The sockets that are connected.** -/
theorem connected_iff (actions : List SocketAction) :
    (((Realtime.idle members).after h actions).rooms client).isSome = true ↔
      Connected client actions := by
  induction actions using List.reverseRecOn with
  | nil => exact iff_of_false Bool.false_ne_true since_nil
  | append_singleton actions last ih =>
    rw [after_append, rooms_act, connected_moved, ih]
    unfold Connected
    rw [since_append]

/-- The socket is in the channel's room. -/
def Joined (rooms : Option (List String)) (channel : Channel) : Prop :=
  ∃ joined, rooms = some joined ∧ channel.room ∈ joined

/-- A room is joined. -/
theorem joined_join (rooms : Option (List String)) (channel other : Channel) :
    Joined (rooms.map fun rooms => other.room :: rooms) channel ↔
      rooms.isSome = true ∧ other = channel ∨ Joined rooms channel := by
  cases rooms with
  | none => simp [Joined]
  | some rooms =>
    simp only [Joined, Option.map_some, Option.some.injEq, exists_eq_left', List.mem_cons,
      Option.isSome_some, true_and]
    exact or_congr_left ⟨fun same => (room_injective same).symm, fun same => by rw [same]⟩

/-- A room is left. -/
theorem joined_leave (rooms : Option (List String)) (channel other : Channel) :
    Joined (rooms.map fun rooms => rooms.filter fun room => room != other.room) channel ↔
      Joined rooms channel ∧ other ≠ channel := by
  cases rooms with
  | none => simp [Joined]
  | some rooms =>
    simp only [Joined, Option.map_some, Option.some.injEq, exists_eq_left', List.mem_filter,
      bne_iff_ne]
    exact and_congr_right fun _ => not_congr
      ⟨fun same => (room_injective same).symm, fun same => by rw [same]⟩

/-- The rooms of a socket after one action more. -/
theorem joined_moved (rooms : Option (List String)) (channel : Channel) (action : SocketAction) :
    Joined (moved h client rooms action) channel ↔
      rooms.isSome = true ∧ Asks h client channel action ∨
        Joined rooms channel ∧ ¬Leaves h client channel action := by
  cases action with
  | connect other handshake =>
    by_cases same : other = client
    · cases rooms <;> simp [moved, Asks, Leaves, Joined, same]
    · simp [moved, Asks, Leaves, same]
  | joinWorkspace other data =>
    simp only [moved, Asks, Leaves, not_false_eq_true, and_true]
    cases SessionsGateway.workspaceOf h data with
    | error error => simp
    | ok named =>
      by_cases same : other = client
      · simp [same, joined_join]
      · simp [same]
  | leaveWorkspace other data =>
    simp only [moved, Asks, Leaves, and_false, false_or]
    cases SessionsGateway.workspaceOf h data with
    | error error => simp
    | ok named =>
      by_cases same : other = client
      · simp [same, joined_leave]
      · simp [same]
  | joinSession other data =>
    simp only [moved, Asks, Leaves, not_false_eq_true, and_true]
    cases SessionsGateway.sessionOf h data with
    | error error => simp
    | ok named =>
      by_cases same : other = client
      · simp [same, joined_join]
      · simp [same]
  | disconnect other =>
    by_cases same : other = client
    · simp [moved, Asks, Leaves, Joined, same]
    · simp [moved, Asks, Leaves, same]
  | members members => simp [moved, Asks, Leaves]

/-- **The rooms of a socket are those it is subscribed to.** -/
theorem joined_iff (members : List WorkspaceMember) (actions : List SocketAction)
    (channel : Channel) :
    Joined (((Realtime.idle members).after h actions).rooms client) channel ↔
      Subscribed h client channel actions := by
  induction actions using List.reverseRecOn with
  | nil =>
    refine iff_of_false (fun joined => ?_) since_nil
    obtain ⟨_, wrong, _⟩ := joined
    cases wrong
  | append_singleton actions last ih =>
    rw [after_append, rooms_act, joined_moved, ih, connected_iff]
    unfold Subscribed
    rw [since_append]

end Run

/-- **Who receives an event**: the sockets that asked for one of its channels while they were
connected, and have not given it up since. -/
theorem receives_iff (h : Helpers) (members : List WorkspaceMember) (actions : List SocketAction)
    (event : Event) (client : Uuid) :
    0 < SessionsGateway.receives ((Realtime.idle members).after h actions) event client ↔
      ∃ channel ∈ SessionsGateway.channels event, Subscribed h client channel actions := by
  simp only [← joined_iff members]
  unfold SessionsGateway.receives Joined
  cases ((Realtime.idle members).after h actions).rooms client with
  | none => simp
  | some rooms => simp [List.countP_pos_iff]

/-- The handshake of the socket identifies a member of the workspace. -/
def Insider (state : Realtime) (workspaceId : Uuid) (client : Uuid) : Prop :=
  ∃ userId, state.identity client = some userId ∧
    ∃ member ∈ state.members, member.workspaceId = workspaceId ∧ member.userId = userId

namespace Example

/-- Objects have their fields, and strings are shown as they are. -/
def helpers : Helpers :=
  { WaAutomation.Example.helpers with
    property := fun value name =>
      match value with
      | .obj fields => Record.get fields name
      | _ => none
    asString := fun
      | .str text => .ok text
      | _ => .ok "" }

/-- A socket nobody identified asks for a workspace. -/
def stranger : List SocketAction :=
  [.connect "socket" none, .joinWorkspace "socket" (some (.obj [("workspaceId", .str "w")]))]

end Example

/-- **A QR code overheard**: a socket without any identity joins the room of a workspace. -/
theorem overheard :
    ∃ members actions client workspaceId sessionId qr,
      0 < SessionsGateway.receives ((Realtime.idle members).after Example.helpers actions)
        (.sessionQr workspaceId sessionId qr) client ∧
      ¬Insider ((Realtime.idle members).after Example.helpers actions) workspaceId client := by
  refine ⟨[⟨"w", "u", "owner"⟩], Example.stranger, "socket", "w", "s", "qr", by decide +kernel, ?_⟩
  intro insider
  obtain ⟨userId, identified, _⟩ := insider
  have unknown : ((Realtime.idle [⟨"w", "u", "owner"⟩]).after Example.helpers
      Example.stranger).identity "socket" = none := by rfl
  cases unknown.symm.trans identified

end WaAutomation.Rooms
