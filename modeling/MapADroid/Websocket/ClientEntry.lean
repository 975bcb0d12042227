import MapADroid.Lib.Dict
import MapADroid.Lib.Run
import Mathlib.Logic.Function.Basic

/- `WebsocketConnectedClientEntry`: requests sent to a device and the answers to them.

   All of it runs in one event loop, and no lock is held over an `await`, so what is
   between two suspension points is one step: a call up to the `send` of its request,
   the `send` done, the event of its entry or the timeout, the connection closed. A
   message from the device is one step too. A call is cancelled at any of its
   suspension points. -/
namespace MapADroid.Websocket
open Lib

/-- A message, text or binary. -/
inductive Message where
  | text (s : List Char)
  | binary (b : List UInt8)
  deriving DecidableEq

/-- `int.from_bytes(b, byteorder='big', signed=False)`. -/
def fromBytes (b : List UInt8) : Nat := b.foldl (fun n x => n * 256 + x.toNat) 0

/-- `__on_message`: the id and the response in a message, given what `int` reads of a text. There are
none where `int` raises a `ValueError`, and where a text has no second part, which raises. -/
def onMessage (int : List Char → Option Int) : Message → Option (Int × Message)
  | .text s =>
    match int (s.takeWhile (· ≠ ';')), s.dropWhile (· ≠ ';') with
    | some id, _ :: response => some (id, .text response)
    | _, _ => none
  | .binary b => some (fromBytes (b.take 4), .binary (b.drop 4))

/-- A call of `send_and_wait`. -/
abbrev Call := Nat

/-- Where a call is. The requests are counted as they are issued: `number` is that of the call. -/
inductive Pc where
  | idle
  /-- In `await self.websocket_client_connection.send(..)`. -/
  | sending (number : Nat) (messageId : Int)
  /-- In `await asyncio.wait_for(..)`. -/
  | waiting (number : Nat) (messageId : Int)
  /-- In `await self.websocket_client_connection.close()`. -/
  | closing (number : Nat) (messageId : Int)
  | returned (messageId : Int) (response : Option Message)
  /-- An exception, before there was an id or after. -/
  | raised
  deriving DecidableEq

/-- The number and the id of a call that has an id and has not finished. -/
def Pc.unfinished : Pc → Option (Nat × Int)
  | .sending number messageId | .waiting number messageId | .closing number messageId =>
    some (number, messageId)
  | .idle | .returned _ _ | .raised => none

structure ClientEntry where
  /-- Under an id the call whose `ReceivedMessageEntry` it is. -/
  receivedMessages : Dict Int Call
  /-- The message in the entry of a call; its event is set once there is one. -/
  message : Call → Option Message
  messageIdCounter : Nat
  failCounter : Nat
  pc : Call → Pc
  /-- How many requests have been issued, a history variable. -/
  issued : Nat

inductive Action where
  /-- A call begins; it is refused if the worker was removed or the connection is closed. -/
  | start (c : Call) (accepted : Bool)
  | sent (c : Call)
  | sendFails (c : Call)
  /-- The device's next message. -/
  | receive (m : Message)
  | wake (c : Call)
  | timeout (c : Call)
  | closed (c : Call)
  | cancel (c : Call)
  deriving DecidableEq

namespace ClientEntry

def init : ClientEntry where
  receivedMessages := .empty
  message _ := none
  messageIdCounter := 0
  failCounter := 0
  pc _ := .idle
  issued := 0

/-- `__get_new_message_id`. -/
def getNewMessageId (messageIdCounter : Nat) : Nat :=
  let counter := (messageIdCounter + 1) % 100000
  if counter = 100000 then 1 else counter

def setPc (s : ClientEntry) (c : Call) (pc : Pc) : ClientEntry := { s with pc := Function.update s.pc c pc }

/-- The `finally` block: the entry under the id is deleted and the call ends. -/
def finish (s : ClientEntry) (c : Call) (messageId : Int) (pc : Pc) : ClientEntry :=
  { s with receivedMessages := s.receivedMessages.erase messageId, pc := Function.update s.pc c pc }

/-- `send_and_wait` up to the `send`: a new id, and a new entry under it. -/
def start (s : ClientEntry) (c : Call) : ClientEntry :=
  let messageId := getNewMessageId s.messageIdCounter
  { s with
    messageIdCounter := messageId
    receivedMessages := s.receivedMessages.insert messageId c
    message := Function.update s.message c none
    pc := Function.update s.pc c (.sending (s.issued + 1) messageId)
    issued := s.issued + 1 }

/-- `set_message_response`. -/
def setMessageResponse (s : ClientEntry) (messageId : Int) (response : Message) : ClientEntry :=
  match s.receivedMessages.get? messageId with
  | some c => { s with message := Function.update s.message c (some response) }
  | none => s

/-- A timeout; the sixth in a row closes the connection. -/
def timeout (s : ClientEntry) (c : Call) (number : Nat) (messageId : Int) : ClientEntry :=
  let counted := { s with failCounter := s.failCounter + 1 }
  if counted.failCounter > 5 then counted.setPc c (.closing number messageId)
  else counted.finish c messageId (.returned messageId none)

def step (int : List Char → Option Int) (s : ClientEntry) : Action → Option ClientEntry
  | .start c accepted =>
    match s.pc c with
    | .idle => some (if accepted then s.start c else s.setPc c .raised)
    | _ => none
  | .sent c =>
    match s.pc c with
    | .sending number messageId => some (s.setPc c (.waiting number messageId))
    | _ => none
  | .sendFails c =>
    match s.pc c with
    | .sending _ messageId => some (s.finish c messageId .raised)
    | _ => none
  | .receive m =>
    match onMessage int m with
    | some (messageId, response) => some (s.setMessageResponse messageId response)
    | none => some s
  | .wake c =>
    match s.pc c, s.message c with
    | .waiting _ messageId, some response =>
      some ({ s with failCounter := 0 }.finish c messageId (.returned messageId (some response)))
    | _, _ => none
  | .timeout c =>
    match s.pc c with
    | .waiting number messageId => some (s.timeout c number messageId)
    | _ => none
  | .closed c =>
    match s.pc c with
    | .closing _ messageId => some (s.finish c messageId .raised)
    | _ => none
  | .cancel c =>
    match (s.pc c).unfinished with
    | some (_, messageId) => some (s.finish c messageId .raised)
    | none => none

end ClientEntry

end MapADroid.Websocket
