import Std.Async.Signal
import Std.Time.DateTime.Timestamp
import Tenancy.Startup

/-!
The service. It starts from the variables of the environment and the manifest that they name, lets
its loops work until it is interrupted, and stops them.
-/

namespace Tenancy.Service

def readVariables (names : List String) : IO Settings.Lookup := do
  let found ← names.filterMapM fun name => return (← IO.getEnv name).map (name, ·)
  return fun name => found.lookup name

def readFile (path : String) : IO (Option (List UInt8)) := do
  try
    return some (← IO.FS.readBinFile path).toList
  catch _ => return none

def wallClock : IO Instant := do
  let t := (← Std.Time.Timestamp.now).toNanosecondsSinceUnixEpoch.val
  return ⟨t.ediv Span.perSecond, (t.emod Span.perSecond).toNat⟩

def firstUid (now : Instant) : IO Uid := do
  let salt := (← IO.getRandomBytes 8).toList.foldl (fun n b => n * 256 + b.toNat) 0
  return .ofTime (now.seconds.toNat * 1000 + now.nanos / 1000000) salt

/-- Lets time pass with the real one, in steps of at most a tenth of a second. -/
partial def serve (origin : Nat) (interrupted : IO Bool) (c : Cluster) : IO Unit := do
  let c := { c with clock := ← wallClock }.advanceTo ((← IO.monoNanosNow) - origin)
  if ← interrupted then
    let _ := c.stop.2.settle
  else
    let wait := match c.nextDue? with
      | some t => min 100 ((t - c.now) / 1000000 + 1)
      | none => 100
    IO.sleep wait.toUInt32
    serve origin interrupted c

def report (e : StartupError) : IO Unit := do
  IO.eprintln s!"Error: {e.message}"
  match e.cause? with
  | some cause => IO.eprintln s!"\nCaused by:\n    {cause}"
  | none => pure ()

def run : IO UInt32 := do
  let lookup ← readVariables (Startup.manifestVariable :: Settings.variableNames)
  let file ← match lookup Startup.manifestVariable with
    | some path => readFile path
    | none => pure none
  let now ← wallClock
  let started := Startup.run lookup (fun _ => file) now (← firstUid now)
  match started with
  | .error e => report e
  | .ok c =>
    let signal ← (← Std.Async.Signal.Waiter.mk .sigint false).wait
    serve (← IO.monoNanosNow) (IO.hasFinished signal) c
  return Startup.exitCode started

end Tenancy.Service

def main : IO UInt32 := Tenancy.Service.run
