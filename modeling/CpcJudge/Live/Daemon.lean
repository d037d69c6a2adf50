import Mathlib.Tactic

/-!
# `Live.Daemon` — the event bus

The site posts messages, each on a channel. The bus keeps the last few, and passes each to the browsers that follow
it: over a socket, which first says where it starts and then which channels it wants, or as the answer to a request
that waits for the next message on its channels. What a socket is sent comes from two places, the messages kept
(`catchUp`) and those posted later (`post`), joined by the id of the last one it was shown.
-/

namespace CpcJudge
namespace Live

structure Message where
  id : ℤ
  channel : String
  message : String
  deriving DecidableEq, Repr

/-- What a socket is sent. -/
inductive Reply where
  | message (message : Message)
  | error (code message : String)
  deriving DecidableEq, Repr

/-- A browser's socket, and all it was sent. -/
structure Socket where
  lastMsg : ℤ := 0
  filter : List String := []
  sent : List Reply := []
  deriving DecidableEq, Repr

/-- A browser's request for the next message after `lastMsg`, and what it was answered. -/
structure Request where
  lastMsg : ℤ := 0
  channels : List String := []
  answer : Option Message := none
  deriving DecidableEq, Repr

/-- The process. Sockets and requests are numbered as they come. -/
structure Daemon where
  maxQueue : ℕ := 50
  messageId : ℤ
  messages : List Message := []
  followers : List ℕ := []
  pollers : List ℕ := []
  sockets : ℕ → Socket := fun _ => {}
  requests : ℕ → Request := fun _ => {}

/-- What reaches the process, from the site and from the browsers. The filter of a request is an array or something
else, of strings or something else. -/
inductive Event where
  | post (channel message : String)
  | startMsg (socket : ℕ) (start : ℤ)
  | setFilter (socket : ℕ) (filter : Option (List (Option String)))
  | close (socket : ℕ)
  | poll (request : ℕ) (last : ℤ) (channels : List String)
  | giveUp (request : ℕ)
  deriving DecidableEq, Repr

/-! ## A socket -/

/-- `got_message`. -/
def Socket.gotMessage (socket : Socket) (message : Message) : Socket :=
  { socket with
    sent := if message.channel ∈ socket.filter then socket.sent ++ [.message message] else socket.sent
    lastMsg := message.id }

@[simp] theorem Socket.gotMessage_lastMsg (socket : Socket) (message : Message) :
    (socket.gotMessage message).lastMsg = message.id := rfl

@[simp] theorem Socket.gotMessage_filter (socket : Socket) (message : Message) :
    (socket.gotMessage message).filter = socket.filter := rfl

theorem Socket.gotMessage_sent (socket : Socket) (message : Message) : (socket.gotMessage message).sent =
    socket.sent ++ if message.channel ∈ socket.filter then [.message message] else [] := by
  unfold gotMessage
  split
  · rfl
  · exact (List.append_nil _).symm

/-- `catch_up`. -/
def catchUp (messages : List Message) (socket : Socket) : Socket :=
  messages.foldl (fun client message => if client.lastMsg < message.id then client.gotMessage message else client) socket

/-- The filter of a request, where it is a list of strings that is not empty. -/
def validFilter : Option (List (Option String)) → Option (List String)
  | some (channel :: channels) => (channel :: channels).mapM id
  | _ => none

/-! ## A request that waits -/

/-- `got_message` of a request: whether it answers the message. -/
def Request.gotMessage (request : Request) (message : Message) : Bool × Request :=
  if message.channel ∈ request.channels then (true, { request with answer := request.answer.or (some message) })
  else (false, request)

/-! ## The process -/

namespace Daemon

/-- `messages.post`. -/
def post (d : Daemon) (channel text : String) : Daemon :=
  let message : Message := ⟨d.messageId + 1, channel, text⟩
  let messages := d.messages ++ [message]
  { d with
    messageId := d.messageId + 1
    messages := if d.maxQueue < messages.length then messages.tail else messages
    sockets := d.followers.foldl (fun sockets i => Function.update sockets i ((sockets i).gotMessage message)) d.sockets
    requests := d.pollers.foldl
      (fun requests i => Function.update requests i ((requests i).gotMessage message).2) d.requests
    -- a request that is answered leaves the pollers
    pollers := d.pollers.filter fun i => ((d.requests i).gotMessage message).1 = false }

/-- `start_msg`. -/
def startMsg (d : Daemon) (socket : ℕ) (start : ℤ) : Daemon :=
  { d with sockets := Function.update d.sockets socket { d.sockets socket with lastMsg := start } }

/-- `set_filter`. -/
def setFilter (d : Daemon) (socket : ℕ) (filter : Option (List (Option String))) : Daemon :=
  match validFilter filter with
  | some filter =>
      { d with
        followers := if socket ∈ d.followers then d.followers else d.followers ++ [socket]
        sockets := Function.update d.sockets socket (catchUp d.messages { d.sockets socket with filter }) }
  | none =>
      let sent := (d.sockets socket).sent ++ [.error "invalid-filter" "invalid filter"]
      { d with sockets := Function.update d.sockets socket { d.sockets socket with sent } }

/-- A socket closes, or fails. -/
def close (d : Daemon) (socket : ℕ) : Daemon := { d with followers := d.followers.filter (· ≠ socket) }

/-- A request for a message: the first one kept that it wants, or the next one posted. -/
def poll (d : Daemon) (request : ℕ) (last : ℤ) (channels : List String) : Daemon :=
  match d.messages.find? fun message => last < message.id ∧ message.channel ∈ channels with
  | some message => { d with requests := Function.update d.requests request ⟨last, channels, some message⟩ }
  | none =>
      { d with
        requests := Function.update d.requests request ⟨last, channels, none⟩
        pollers := if request ∈ d.pollers then d.pollers else d.pollers ++ [request] }

/-- A request that waits is given up, or takes too long. -/
def giveUp (d : Daemon) (request : ℕ) : Daemon := { d with pollers := d.pollers.filter (· ≠ request) }

def step (d : Daemon) : Event → Daemon
  | .post channel message => d.post channel message
  | .startMsg socket start => d.startMsg socket start
  | .setFilter socket filter => d.setFilter socket filter
  | .close socket => d.close socket
  | .poll request last channels => d.poll request last channels
  | .giveUp request => d.giveUp request

def run (d : Daemon) (events : List Event) : Daemon := events.foldl step d

@[simp] theorem run_nil (d : Daemon) : d.run [] = d := rfl

@[simp] theorem run_cons (d : Daemon) (event : Event) (events : List Event) :
    d.run (event :: events) = (d.step event).run events := rfl

theorem run_append (d : Daemon) (events later : List Event) : d.run (events ++ later) = (d.run events).run later :=
  List.foldl_append

end Daemon

end Live
end CpcJudge
