import CpcJudge.Lib.Feed
import CpcJudge.Lib.Txn

/-!
# `Bridge.Packets` — the packets of a connection

A packet is its size in four bytes and a compressed text. A connection may start with a line that says where it comes
from, if it comes from a proxy. `ZlibPacketHandler` reads with `recv`, which returns as much as has arrived; once the
peer has hung up it returns nothing, for ever. The loops are given fuel, and stop with `none` when they run out of it.
-/

namespace CpcJudge
namespace Bridge

abbrev Bytes := List UInt8

/-- How `handle` stops: with a `Disconnect` or another exception. `packet` is one of `on_packet` of its own. -/
inductive Stop where
  | disconnect | zlib | unicode | struct | assertion | index | packet
  deriving DecidableEq, Repr

/-- `client_address` or `server_address`; `flow` is what an address of IPv6 ends with. -/
structure Address where
  host : String
  port : String
  flow : List ℕ := []
  deriving DecidableEq, Repr

/-- What a handler meets outside its module: `zlib`, the proxies of the settings, and what `on_packet` raises. -/
structure Wire where
  compress : Bytes → Bytes
  decompress : Bytes → Option Bytes
  proxies : String → Bool := fun _ => false
  onPacket : String → Option Stop := fun _ => none

/-- `ZlibPacketHandler`. `delivered` is every text `on_packet` was called with. -/
structure PacketHandler where
  feed : Feed UInt8
  client : Address
  server : Address
  delivered : List String := []

abbrev PacketM := EStateM (Option Stop) PacketHandler

/-- `MAX_ALLOWED_PACKET_SIZE`. -/
def MAX_ALLOWED_PACKET_SIZE : ℕ := 8 * 1024 * 1024

/-- `size_pack.pack`. -/
def pack (size : ℕ) : Bytes :=
  [UInt8.ofNat (size / 256 ^ 3), UInt8.ofNat (size / 256 ^ 2), UInt8.ofNat (size / 256), UInt8.ofNat size]

/-- The number four bytes stand for. -/
def number (bytes : Bytes) : ℕ := bytes.foldl (fun n byte => n * 256 + byte.toNat) 0

/-- `data.encode('utf-8')`. -/
def encode (text : String) : Bytes := text.toUTF8.data.toList

/-- `data.decode('utf-8')`. -/
def decode (bytes : Bytes) : Option String := String.fromUTF8? ⟨bytes.toArray⟩

/-- What `send` puts on the wire. -/
def frame (wire : Wire) (text : String) : Bytes :=
  pack (wire.compress (encode text)).length ++ wire.compress (encode text)

/-- `request.recv(n)`. -/
def recv (n : ℕ) : PacketM Bytes := do
  let h ← get
  modify fun h => { h with feed := h.feed.next n }
  return h.feed.data n

/-- `size_pack.unpack`. -/
def unpack (bytes : Bytes) : PacketM ℕ := if bytes.length = 4 then pure (number bytes) else throw (some .struct)

/-- `read_size`. -/
def readSize : ℕ → Bytes → PacketM ℕ
  | 0, _ => throw none
  | fuel + 1, buffer =>
      if buffer.length < 4 then do
        let data ← recv (4 - buffer.length)
        if data = [] then throw (some .disconnect) else readSize fuel (buffer ++ data)
      else unpack buffer

/-- `_on_packet`. -/
def onPacketData (wire : Wire) (data : Bytes) : PacketM Unit :=
  match wire.decompress data with
  | none => throw (some .zlib)
  | some bytes =>
      match decode bytes with
      | none => throw (some .unicode)
      | some text => do
          modify fun h => { h with delivered := h.delivered ++ [text] }
          match wire.onPacket text with
          | none => pure ()
          | some stop => throw (some stop)

/-- The loop of `read_sized_packet`. An empty read leaves `remainder` as it is. -/
def readBody : ℕ → ℕ → PacketM Bytes
  | 0, _ => throw none
  | fuel + 1, remainder =>
      if remainder = 0 then pure []
      else do
        let data ← recv remainder
        let rest ← readBody fuel (remainder - data.length)
        return data ++ rest

/-- `read_sized_packet`. -/
def readSizedPacket (wire : Wire) (fuel size : ℕ) (initial : Bytes) : PacketM Unit :=
  if MAX_ALLOWED_PACKET_SIZE < size then throw (some .disconnect)
  else if initial.length ≤ size then do
    let rest ← readBody fuel (size - initial.length)
    onPacketData wire (initial ++ rest)
  else throw (some .assertion)

/-! ## The line of a proxy -/

/-- `b'\r\n' in buffer`. -/
def hasLine : Bytes → Bool
  | [] => false
  | byte :: rest => (byte = 13 && rest.head? = some 10) || hasLine rest

/-- `partition(b'\r\n')`: what stands before the end of the line, and after it. -/
def partition : Bytes → Bytes × Bytes
  | [] => ([], [])
  | byte :: rest =>
      if byte = 13 ∧ rest.head? = some 10 then ([], rest.tail)
      else (byte :: (partition rest).1, (partition rest).2)

/-- `read_proxy_header`. -/
def readProxyHeader : ℕ → Bytes → PacketM Bytes
  | 0, _ => throw none
  | fuel + 1, buffer =>
      if hasLine buffer then pure buffer
      else if 107 < buffer.length then throw (some .disconnect)
      else do
        let data ← recv 107
        if data = [] then throw (some .disconnect) else readProxyHeader fuel (buffer ++ data)

/-- `line.split()`. -/
def splitWords (line : Bytes) : List Bytes :=
  (line.splitOnP fun byte => byte ∈ [9, 10, 11, 12, 13, 32]).filter (· ≠ [])

/-- `utf8text(words[i])`. -/
def word (words : List Bytes) (i : ℕ) : Except Stop String :=
  match words[i]? with
  | none => .error .index
  | some bytes =>
      match decode bytes with
      | none => .error .unicode
      | some text => .ok text

/-- The two addresses of a line. -/
def addresses (words : List Bytes) (flow : List ℕ) : Except Stop (Option (Address × Address)) := do
  let clientHost ← word words 2
  let clientPort ← word words 4
  let serverHost ← word words 3
  let serverPort ← word words 5
  return some (⟨clientHost, clientPort, flow⟩, ⟨serverHost, serverPort, flow⟩)

/-- `parse_proxy_protocol`: the addresses it writes, if any. -/
def parseProxyProtocol (line : Bytes) : Except Stop (Option (Address × Address)) :=
  let words := splitWords line
  match words[1]? with
  | none => .error .disconnect
  | some family =>
      -- TCP4
      if family = [84, 67, 80, 52] then
        if words.length ≠ 6 then .error .disconnect else addresses words []
      -- TCP6
      else if family = [84, 67, 80, 54] then addresses words [0, 0]
      -- UNKNOWN
      else if family = [85, 78, 75, 78, 79, 87, 78] then .ok none
      else .error .disconnect

/-- The loop over what arrived after the line. Its inner loop leaves only itself after the packet that starts with
fewer than four bytes, so these are unpacked as well. -/
def readRemainder (wire : Wire) : ℕ → Bytes → PacketM Unit
  | 0, _ => throw none
  | fuel + 1, remainder =>
      if remainder = [] then pure ()
      else do
        if remainder.length < 4 then do
          let size ← readSize fuel remainder
          readSizedPacket wire fuel size []
        let size ← unpack (remainder.take 4)
        let remainder := remainder.drop 4
        if remainder.length ≤ size then readSizedPacket wire fuel size remainder
        else do
          onPacketData wire (remainder.take size)
          readRemainder wire fuel (remainder.drop size)

/-- The loop over the packets. -/
def readPackets (wire : Wire) : ℕ → PacketM Unit
  | 0 => throw none
  | fuel + 1 => do
      let size ← readSize fuel []
      readSizedPacket wire fuel size []
      readPackets wire fuel

/-- `handle`. -/
def handle (wire : Wire) (fuel : ℕ) : PacketM Unit := do
  let tag ← readSize fuel []
  let h ← get
  -- PROX
  if wire.proxies h.client.host ∧ pack tag = [80, 82, 79, 88] then do
    let buffer ← readProxyHeader fuel (pack tag)
    let (line, remainder) := partition buffer
    match parseProxyProtocol line with
    | .error stop => throw (some stop)
    | .ok none => pure ()
    | .ok (some (client, server)) => modify fun h => { h with client, server }
    readRemainder wire fuel remainder
  else readSizedPacket wire fuel tag []
  readPackets wire fuel

end Bridge
end CpcJudge
