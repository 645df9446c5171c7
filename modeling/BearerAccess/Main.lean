import BearerAccess.Http.Wire
import BearerAccess.TokenCheck
import Std.Async.DNS
import Std.Async.TCP
import Std.Async.Timer
import Std.Time.DateTime.Timestamp
/-!
The operator's tool as a program. It reads the environment and the wall clock, sends each request
that the check asks for over a connection of its own, and prints what the check says. Connections
are not encrypted, so an address with the scheme `https` is out of reach.
-/
set_option autoImplicit false

namespace BearerAccess

open Std.Async

def environment : IO Variables := do
  let named ← Config.variableNames.mapM fun name => do
    let value? ← IO.getEnv name
    pure (name, value?)
  pure fun name => (named.lookup name).join

def wallClock : IO Int64 := do
  let now ← Std.Time.Timestamp.now
  pure (Epoch.clamp now.toSecondsSinceUnixEpoch.val)

/-- Reads of one connection, of 64 KiB each at most. -/
def maxReads : Nat := 65536

def receive (connection : TCP.Socket.Client) (got : ByteArray) : Nat → Async ByteArray
  | 0 => pure got
  | more + 1 => do
    match ← connection.recv? 65536 with
    | some bytes => receive connection (got ++ bytes) more
    | none => pure got

def socketAddress (port : UInt16) : Std.Net.IPAddr → Std.Net.SocketAddress
  | .v4 addr => .v4 ⟨addr, port⟩
  | .v6 addr => .v6 ⟨addr, port⟩

def connect (port : UInt16) : List Std.Net.IPAddr → Async TCP.Socket.Client
  | [] => throw (IO.userError "no place to connect to")
  | place :: places => do
    let connection ← TCP.Socket.Client.mk
    try
      connection.connect (socketAddress port place)
      pure connection
    catch _ => connect port places

def converse (r : HttpRequest) : Async Reply := do
  let name := String.ofList (r.url.host.filter fun c => c != '[' && c != ']')
  let places ← DNS.getAddrInfo name ""
  let connection ← connect (UInt16.ofNat r.url.port) places.toList
  connection.send (ByteArray.mk r.wire.toArray)
  let bytes ← receive connection ByteArray.empty maxReads
  pure (Http.replyOf bytes.toList)

/-- The reply to a request; without one in good time, the connection counts as closed. -/
def replyTo (millis : Nat) (r : HttpRequest) : IO Reply := do
  let closed : Reply := .closed 0
  if r.url.secure then pure closed
  else
    let reply : Async (Option Reply) := do
      try
        let reply ← converse r
        pure (some reply)
      catch _ => pure none
    let late : Async (Option Reply) := do
      sleep (Std.Time.Millisecond.Offset.ofNat millis)
      pure none
    let reply? ← (Async.race reply late).block
    pure (reply?.getD closed)

def carryOut (attempt : List Reply → TokenCheck.Outcome × Option HttpRequest) (millis : Nat) :
    Nat → List Reply → IO TokenCheck.Outcome
  | 0, replies => pure (attempt replies).1
  | more + 1, replies =>
    match attempt replies with
    | (outcome, none) => pure outcome
    | (_, some r) => do
      let reply ← replyTo millis r
      carryOut attempt millis more (replies ++ [reply])

def checkToken (args : List String) : IO UInt32 := do
  let vars ← environment
  let now ← wallClock
  let millis := match Config.ofVariables vars with
    | .ok config => 1000 * config.httpTimeoutSeconds
    | .error _ => 0
  let attempt := TokenCheck.attempt SignatureCheck.standard now vars args
  let outcome ← carryOut attempt millis TokenCheck.maxRequests []
  (← IO.getStdout).putStr outcome.output
  (← IO.getStderr).putStr outcome.complaint
  pure outcome.exitCode

end BearerAccess

def main (args : List String) : IO UInt32 := BearerAccess.checkToken args
