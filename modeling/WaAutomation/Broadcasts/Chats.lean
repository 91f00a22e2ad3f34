/-
**The chats that broadcasts and direct messages are sent to.**

A direct message goes to `toChatId` of the phone it is asked for, which keeps the id of a chat as it
is. A broadcast stores the digits of the phone first, so of an id nothing but its digits is left,
and `toChatId` makes the id of a user of them.

* `Asks` follows the chats a program asks OpenWA to send to; `deliver_chats` and `send_chats` are
  the messages of the two processors;
* `toChatId_digits_iff` compares the two normalisations, and `same_chat_iff` the two paths.
-/

import WaAutomation.Broadcasts.Recipients
import WaAutomation.Messages.Courses

set_option linter.unusedSectionVars false

namespace WaAutomation.Chats

open Library Messages BroadcastsService

/-! ### The chats of a run -/

/-- The chat a call sends to. -/
def chatAsked : Call → Option String
  | .openwa call => chatOf call.method
  | _ => none

/-- The chats OpenWA is asked to send to, in order. -/
def chats (trace : List Exchange) : List String :=
  trace.filterMap fun exchange => chatAsked exchange.request

/-- What a program asks for, and how it ends, whatever it is answered. -/
abbrev Asks {α : Type} (program : Svc α) (post : List String → Except Err α → Prop) : Prop :=
  program.Traces Possible fun trace => post (chats trace)

section Asks

variable {α β : Type} {program : Svc α} {rest : α → Svc β}
  {post : List String → Except Err β → Prop}

theorem asks_bind (first : Asks program fun asked result => match result with
      | .ok value => Asks (rest value) fun later => post (asked ++ later)
      | .error error => post asked (.error error)) : Asks (program >>= rest) post := by
  refine Program.traces_bind (Program.traces_mono (fun trace result holds => ?_) first)
  cases result with
  | error error => exact holds
  | ok value =>
    refine Program.traces_mono (fun later _ held => ?_) holds
    rw [chats, List.filterMap_append]
    exact held

/-- A program that sends nothing. -/
theorem asks_silent {post : List String → Except Err α → Prop}
    (silent : program.Calls fun call => chatAsked call = none) (holds : ∀ result, post [] result) :
    Asks program post := by
  refine Program.traces_calls silent fun trace result none => ?_
  have nothing : chats trace = [] := List.filterMap_eq_nil_iff.mpr none
  rw [nothing]
  exact holds result

end Asks

/-! ### The messages of the two processors -/

section Paths

variable {ctx : BroadcastProcessor.Context} {broadcast : Broadcast} {recipient : BroadcastRecipient}

/-- One call to OpenWA. -/
theorem call_chats (creds : OpenwaCredentials) {method : OpenwaMethod} (session : SessionRef)
    (row : Option RecipientRef) {chat : String} (sends : chatOf method = some chat) :
    Asks (OpenwaService.call creds method session row) fun asked _ => asked = [chat] := by
  have one : ∀ reply : Except Err OpenwaResponse,
      chats [⟨.openwa ⟨creds, method, session, row⟩, reply⟩] = [chat] := by
    intro reply
    rw [chats, List.filterMap_cons_some (by exact sends), List.filterMap_nil]
  exact openwa_traces (fun error _ => one (.error error)) fun response => one (.ok response)

theorem recordFailure_silent (err : Err) :
    (BroadcastProcessor.recordFailure broadcast recipient err).Calls fun call =>
      chatAsked call = none :=
  Program.calls_bind (calls_call rfl) fun _ => trivial

theorem recordSuccess_silent (message : String) (res : OpenwaResponse) :
    (BroadcastProcessor.recordSuccess ctx broadcast recipient message res).Calls fun call =>
      chatAsked call = none := by
  refine Program.calls_bind calls_now fun now => Program.calls_bind (Program.calls_attempt
    (calls_call rfl)) fun saved => ?_
  cases saved with
  | error err => exact recordFailure_silent err
  | ok _ =>
    exact Program.calls_bind (Program.calls_attempt
      (MessagesService.record_calls fun _ _ => rfl)) fun _ => trivial

/-- The message to a recipient. -/
theorem deliver_chats (message : String) :
    Asks (BroadcastProcessor.deliver ctx broadcast recipient message) fun asked _ =>
      asked = [toChatId recipient.phone] := by
  refine asks_bind (Program.traces_attempt (Program.traces_mono (fun trace result sent => ?_)
    (call_chats ctx.creds ctx.session.ref _ rfl)))
  dsimp only at sent ⊢
  cases result with
  | error err => exact asks_silent (recordFailure_silent err) fun _ => by rw [sent]; rfl
  | ok res => exact asks_silent (recordSuccess_silent message res) fun _ => by rw [sent]; rfl

variable {data : SendMessageJob}

/-- The message of a job. -/
theorem send_chats (creds : OpenwaCredentials) :
    Asks (MessageProcessor.deliver creds data) fun asked _ => asked = [toChatId data.toPhone] := by
  obtain ⟨method, chat, same⟩ := deliver_sends creds data
  rw [same]
  exact call_chats creds _ none chat

end Paths

/-! ### The two normalisations -/

theorem digits_no_at (phone : String) : '@' ∉ (digits phone).toList := by
  rw [toList_digits, List.mem_filter]
  rintro ⟨_, digit⟩
  exact absurd digit (by decide)

theorem digits_digits (phone : String) : digits (digits phone) = digits phone := by
  rw [← String.toList_inj, toList_digits, toList_digits, List.filter_filter]
  simp only [Bool.and_self]

/-- The id of a user. -/
theorem toChatId_plain {phone : String} (plain : '@' ∉ phone.toList) :
    toChatId phone = digits phone ++ "@c.us" := by
  rw [toChatId, if_neg]
  simpa using plain

/-- **The two normalisations agree** on phones that are no ids, and on the ids of users. -/
theorem toChatId_digits_iff (phone : String) :
    toChatId (digits phone) = toChatId phone ↔
      '@' ∉ phone.toList ∨ phone = digits phone ++ "@c.us" := by
  rw [toChatId_plain (digits_no_at phone), digits_digits]
  by_cases id : '@' ∈ phone.toList
  · have kept : toChatId phone = phone := by
      rw [toChatId, if_pos]
      simpa using id
    rw [kept]
    exact ⟨fun same => .inr same.symm, fun given => (given.resolve_left (absurd id)).symm⟩
  · exact ⟨fun _ => .inl id, fun _ => (toChatId_plain id).symm⟩

/-- The phone a broadcast stores for an explicit recipient. -/
theorem stored_digits {inputs : List BroadcastRecipientInput} {input : BroadcastRecipientInput}
    (listed : input ∈ inputs) (digit : ∃ mark ∈ input.phone.toList, mark.isDigit = true) :
    ∃ entry ∈ explicitRecipients inputs, entry.1 = digits input.phone := by
  have given : digits input.phone ≠ "" := by
    rw [Ne, digits_empty]
    obtain ⟨mark, inside, is_digit⟩ := digit
    intro none
    rw [none mark inside] at is_digit
    cases is_digit
  have key : digits input.phone ∈ Entries.keys (explicitRecipients inputs) := by
    rw [Recipients.explicit_keys, List.mem_eraseDups]
    exact Recipients.mem_explicitPhones.mpr ⟨given, input, listed, rfl⟩
  obtain ⟨entry, member, same⟩ := List.mem_map.mp key
  exact ⟨entry, member, same⟩

/-- The chats of a message to a recipient of a broadcast. -/
abbrev broadcastChats (ctx : BroadcastProcessor.Context) (broadcast : Broadcast)
    (recipient : BroadcastRecipient) (message : String) (tape : Program.Tape Input)
    (stores : Nat → Store) : List String :=
  chats ((BroadcastProcessor.deliver ctx broadcast recipient message).exchanges
    (Program.found exec) tape stores)

/-- The chats of a direct message. -/
abbrev directChats (creds : OpenwaCredentials) (data : SendMessageJob) (tape : Program.Tape Input)
    (stores : Nat → Store) : List String :=
  chats ((MessageProcessor.deliver creds data).exchanges (Program.found exec) tape stores)

/-- **When both paths address the same chat**: a broadcast to a phone with a digit stores a
recipient for it, and whatever the calls find, its message goes to the chat of a direct message to
the phone exactly when the phone has no `@` or is the id of a user, its digits and `@c.us`. -/
theorem same_chat_iff {inputs : List BroadcastRecipientInput} {input : BroadcastRecipientInput}
    (listed : input ∈ inputs) (digit : ∃ mark ∈ input.phone.toList, mark.isDigit = true) :
    ∃ entry ∈ explicitRecipients inputs, entry.1 = digits input.phone ∧
      ∀ (ctx : BroadcastProcessor.Context) (broadcast : Broadcast)
        (recipient : BroadcastRecipient) (message : String) (creds : OpenwaCredentials)
        (data : SendMessageJob) (tape tape' : Program.Tape Input) (stores stores' : Nat → Store),
        recipient.phone = entry.1 → data.toPhone = input.phone →
          (broadcastChats ctx broadcast recipient message tape stores =
              directChats creds data tape' stores' ↔
            '@' ∉ input.phone.toList ∨ input.phone = digits input.phone ++ "@c.us") := by
  obtain ⟨entry, member, phone⟩ := stored_digits listed digit
  refine ⟨entry, member, phone, ?_⟩
  intro ctx broadcast recipient message creds data tape tape' stores stores' stored direct
  have broadcasts : broadcastChats ctx broadcast recipient message tape stores =
      [toChatId recipient.phone] := found_traces (deliver_chats message) tape stores
  have directs : directChats creds data tape' stores' = [toChatId data.toPhone] :=
    found_traces (send_chats creds) tape' stores'
  rw [broadcasts, directs, stored, phone, direct, List.singleton_inj, toChatId_digits_iff]

namespace Example

/-- A broadcast to the phone, and a direct message to it. -/
def session : Session := ⟨"s", "w", "line", "", none, .connected, none⟩

def ctx : BroadcastProcessor.Context := ⟨session, ⟨"http://openwa", "key", "w"⟩⟩

def broadcast : Broadcast :=
  ⟨"b", "w", "s", "news", "hello", .sending, 3000, 1, 0, 0, none, none, none, 0⟩

def recipient (phone : String) : BroadcastRecipient := ⟨"r", "b", phone, [], .pending, none, none⟩

def job (phone : String) : SendMessageJob :=
  ⟨some "w", "s", "line", phone, .text, some "hello", none, none, none, none, none⟩

def tape : Program.Tape Input := ⟨WaAutomation.Example.fine, fun _ => WaAutomation.Example.fine⟩

def stores : Nat → Store := fun _ => ⟨fun _ => [], [], 0, [], fun _ _ => none⟩

/-- The id of a group. -/
def group : String := "120363025246125486@g.us"

end Example

theorem same_chat_iff_example :
    ∃ entry ∈ explicitRecipients [⟨"+62 8", none⟩], entry.1 = digits "+62 8" ∧
      broadcastChats Example.ctx Example.broadcast (Example.recipient entry.1) "hello" Example.tape
          Example.stores =
        directChats Example.ctx.creds (Example.job "+62 8") Example.tape Example.stores := by
  obtain ⟨entry, member, phone, same⟩ := same_chat_iff
    (List.mem_singleton_self (⟨"+62 8", none⟩ : BroadcastRecipientInput))
    ⟨'8', by decide, by decide⟩
  refine ⟨entry, member, phone, ?_⟩
  exact (same _ _ _ _ _ _ _ _ _ _ rfl rfl).mpr (.inl (by decide))

/-- **A broadcast to a group goes to a user**: of the id of the group it keeps the digits. -/
theorem group_lost :
    explicitRecipients [⟨Example.group, none⟩] = [("120363025246125486", [])] ∧
      broadcastChats Example.ctx Example.broadcast (Example.recipient "120363025246125486") "hello"
          Example.tape Example.stores = ["120363025246125486@c.us"] ∧
      directChats Example.ctx.creds (Example.job Example.group) Example.tape Example.stores =
        ["120363025246125486@g.us"] := by
  refine ⟨?_, ?_, ?_⟩
  · rfl
  · rfl
  · rfl

end WaAutomation.Chats
