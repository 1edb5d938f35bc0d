import HealthRelay.CommandLine.Help
import HealthRelay.Http.Answer
import HealthRelay.Identity.Uuid
import HealthRelay.Journal.Line
import HealthRelay.Journal.Stamp
import HealthRelay.Relay
import Std.Async

/-!
# The daemon

The outer layer: reads the command line and the file it names, opens connections, listens for
signals, and gives the agent its turns whenever something has happened.
-/

namespace HealthRelay.Daemon

open Std.Async

/-- The number of an error of the operating system. The event loop counts them downwards. -/
def osNumber (code : UInt32) : Nat :=
  if code.toNat < 2147483648 then code.toNat else 4294967296 - code.toNat

/-- The number behind an error, if the operating system gave one. -/
def osNumber? : IO.Error → Option Nat
  | .alreadyExists _ n _ => some (osNumber n)
  | .otherError n _ => some (osNumber n)
  | .resourceBusy n _ => some (osNumber n)
  | .resourceVanished n _ => some (osNumber n)
  | .unsupportedOperation n _ => some (osNumber n)
  | .hardwareFault n _ => some (osNumber n)
  | .unsatisfiedConstraints n _ => some (osNumber n)
  | .illegalOperation n _ => some (osNumber n)
  | .protocolError n _ => some (osNumber n)
  | .timeExpired n _ => some (osNumber n)
  | .interrupted _ n _ => some (osNumber n)
  | .noFileOrDirectory _ n _ => some (osNumber n)
  | .invalidArgument _ n _ => some (osNumber n)
  | .permissionDenied _ n _ => some (osNumber n)
  | .resourceExhausted _ n _ => some (osNumber n)
  | .inappropriateType _ n _ => some (osNumber n)
  | .noSuchThing _ n _ => some (osNumber n)
  | _ => none

def reason (e : IO.Error) : String :=
  match osNumber? e with
  | some n => OsError.text ⟨n⟩
  | none => toString e

def readFile (path : String) : IO (Except FileFault (List UInt8)) := do
  try
    return .ok (← IO.FS.readBinFile path).toList
  catch e =>
    return .error (match osNumber? e with
      | some 2 => .notFound
      | some 20 => .notDirectory
      | some 21 => .isDirectory
      | _ => .other (reason e))

def resolve (a : Address) : Async (List Std.Net.SocketAddress) := do
  let host := a.host
  let inner := (host.toList.drop 1).dropLast
  match Std.Net.IPv4Addr.ofString host, Std.Net.IPv6Addr.ofString (String.ofList inner) with
  | some ip, _ => return [.v4 ⟨ip, a.port⟩]
  | none, some ip =>
    if host.toList.head? = some '[' then return [.v6 ⟨ip, a.port⟩] else lookUp
  | none, none => lookUp
where
  /-- Asks for the places of a name. -/
  lookUp : Async (List Std.Net.SocketAddress) := do
    let found ← DNS.getAddrInfo a.host (Text.decimalText a.port.toNat)
    return found.toList.map fun
      | .v4 ip => .v4 ⟨ip, a.port⟩
      | .v6 ip => .v6 ⟨ip, a.port⟩

/-- A connection to the first place that takes one. -/
partial def connect : List Std.Net.SocketAddress → Async TCP.Socket.Client
  | [] => throw (IO.userError "could not resolve to any address")
  | place :: others => do
    let socket ← TCP.Socket.Client.mk
    try
      socket.connect place
      return socket
    catch e =>
      if others.isEmpty then throw e else connect others

/-- Reads until the answer is whole, the connection has ended, or the time has come. -/
partial def receive (socket : TCP.Socket.Client) (limit : Nat) (bytes : List UInt8) :
    Async Http.Exchange := do
  let now ← IO.monoNanosNow
  if limit ≤ now then return .error (.broken .lost)
  let pause ← Sleep.mk (Std.Time.Millisecond.Offset.ofNat ((limit - now) / 1000000 + 1))
  let some chunk ← Selectable.one #[
      .case (socket.recvSelector 65536) fun chunk => return some chunk,
      .case pause.selector fun () => return none]
    | return .error (.broken .lost)
  let bytes := bytes ++ (chunk.map (·.toList)).getD []
  match Http.Response.read bytes chunk.isNone with
  | .ready exchange => return exchange
  | .pending =>
    if chunk.isNone then return .error (.broken .closedEarly) else receive socket limit bytes

/-- Sends a request over an open connection and reads the answer. -/
def converse (socket : TCP.Socket.Client) (request : Http.Request) (limit : Nat) :
    Async Http.Exchange := do
  try
    socket.send request.bytes.toByteArray
    receive socket limit []
  catch _ =>
    return .error (.broken .lost)

/-- Sends a request over a connection of its own and reads the answer. -/
def exchange (request : Http.Request) (limit : Nat) : Async Http.Exchange := do
  try
    let socket ← connect (← resolve request.address)
    converse socket request limit
  catch e =>
    return .error (.noConnection (reason e))

/-- The exchange of a call, under the call's number. -/
abbrev Line := Option (Nat × AsyncTask Http.Exchange)

def progress (line : Line) : BaseIO (Nat → Progress Http.Exchange) := do
  match line with
  | none => return fun _ => .pending
  | some (n, task) =>
    if ← IO.hasFinished (α := Except IO.Error Http.Exchange) task then
      let result := match (← IO.wait (α := Except IO.Error Http.Exchange) task) with
        | .ok x => x
        | .error _ => .error (.broken .lost)
      return fun m => if m = n then .ready result else .pending
    else return fun _ => .pending

/-- How long an exchange outlives its call, so that the call's own expiry is seen first. -/
def grace : Duration := .ofSecs 1

/-- Begins the exchange of a call, unless it is under way, and lets go of any other. -/
def keep (line : Line) (wanted : Option (Nat × Call × Http.Request)) : IO Line := do
  match wanted with
  | none => return none
  | some (n, call, request) =>
    if line.any fun (m, _) => m == n then return line
    else return some (n, ← (exchange request (call.scope.expiresAt + grace.nanos)).toIO)

/-- The wall clock, in microseconds since the epoch. -/
def wallMicros : IO Nat := do
  let time ← Std.Time.Timestamp.now
  return time.toNanosecondsSinceUnixEpoch.val.toNat / 1000

def randomBits : IO Nat := do
  return (← IO.getRandomBytes 8).toList.foldl (fun n b => 256 * n + b.toNat) 0

/-- Writes journal entries, and whatever has been written before, to the standard output. -/
def tell (format : LogFormat) (entries : List Entry) : IO Unit := do
  let out ← IO.getStdout
  for entry in entries do
    out.putStrLn (entry.record.line format (timeStamp (← wallMicros)))
  out.flush

structure World where
  agent : Agent
  ids : Uuid.Clock
  probe : Line
  deliver : Line
  isShutdown : Bool

def heard (signals : List (StopSignal × AsyncTask Int)) : BaseIO (Option StopSignal) := do
  for (signal, task) in signals do
    if ← IO.hasFinished (α := Except IO.Error Int) task then return some signal
  return none

/-- A task without its result. -/
def silent {α : Type} (task : AsyncTask α) : Task Unit :=
  Task.map (α := Except IO.Error α) (fun _ => ()) task

/-- Waits until something may happen: a timer, an exchange or a signal. -/
def await (w : World) (signals : List (StopSignal × AsyncTask Int)) (now : Nat) : IO Unit := do
  let next := ((w.agent.timers.filter fun t => decide (now < t)).min?).getD (now + 1000000000)
  let pause ← (sleep (Std.Time.Millisecond.Offset.ofNat ((next - now) / 1000000 + 1))).toIO
  let lines := (w.probe.toList ++ w.deliver.toList).map fun line => silent line.2
  let listening := if w.isShutdown then [] else signals.map fun s => silent s.2
  let _ ← IO.waitAny (silent pause :: (lines ++ listening)) (Nat.zero_lt_succ _)

/-- Gives the agent its turns until it is done. -/
partial def run (relay : Relay) (format : LogFormat) (signals : List (StopSignal × AsyncTask Int))
    (w : World) : IO Unit := do
  let now ← IO.monoNanosNow
  let wallMs := (← wallMicros) / 1000
  let w ← do
    match w.isShutdown, ← heard signals with
    | false, some signal => pure { w with agent := w.agent.hear signal, isShutdown := true }
    | _, _ => pure w
  let exchanges : Relay.Exchanges := ⟨← progress w.probe, ← progress w.deliver⟩
  let (id, ids) := Uuid.next w.ids wallMs (← randomBits) (← randomBits)
  let asked := w.agent.session.attempts.length
  let agent := relay.settle exchanges (fun _ => .ok ⟨id.text⟩) now (UInt64.ofNat wallMs)
    w.isShutdown 1000 w.agent
  tell format agent.journal
  let w := { w with
    agent := { agent with journal := [] }
    ids := if agent.session.attempts.length = asked then w.ids else ids }
  if w.agent.isDone then tell format [w.agent.farewell]
  else
    let session := w.agent.session
    let w := { w with
      probe := ← keep w.probe (relay.probeUnderWay? session)
      deliver := ← keep w.deliver (relay.deliverUnderWay? session) }
    await w signals now
    run relay format signals w

def listen (signal : StopSignal) : IO (StopSignal × AsyncTask Int) := do
  let waiter ← Signal.Waiter.mk
    (match signal with
      | .terminate => Std.Async.Signal.sigterm
      | .interrupt => Std.Async.Signal.sigint) false
  return (signal, ← waiter.wait)

def refuse (e : ConfigError) : IO UInt32 := do
  IO.eprintln ("Error: " ++ e.toFailure.message)
  return 1

def serve (invocation : Invocation) : IO UInt32 := do
  let contents ← readFile (invocation.configPath.getD "")
  match invocation.config? fun _ => contents with
  | .error e => refuse e
  | .ok config =>
    tell invocation.logFormat [.agentStarting config]
    match Relay.ofConfig? config with
    | .error e => refuse e
    | .ok relay =>
      let signals ← [StopSignal.interrupt, StopSignal.terminate].mapM listen
      run relay invocation.logFormat signals
        { agent := .ofConfig config, ids := .start, probe := none, deliver := none,
          isShutdown := false }
      return 0

def start (arguments : List String) : IO UInt32 := do
  match CommandLine.read arguments with
  | .ok invocation => serve invocation
  | .error stop =>
    IO.print stop.stdout
    IO.eprint stop.stderr
    return UInt32.ofNat stop.exitCode

end HealthRelay.Daemon

def main (arguments : List String) : IO UInt32 :=
  HealthRelay.Daemon.start arguments
