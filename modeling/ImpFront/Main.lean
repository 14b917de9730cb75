import ImpFront.Command
import ImpFront.Text.Duration
import Std.Time
/-!
# ImpFront.Main

The **command line on the operating system**: standard streams, files, the
environment and the clock. All decisions are `ImpFront.Command`'s.
-/

namespace ImpFront.Main

/-- A reason given by the system. Its number may come negated, in two's complement, and its text
without a capital. -/
def systemFailure (details : String) (code : UInt32) : ReadFailure :=
  .system details.capitalize (if code < 0x80000000 then code else -code).toNat

/-- The reason of a failed reading. -/
def readFailure : IO.Error → ReadFailure
  | .alreadyExists _ code details | .otherError code details | .resourceBusy code details
  | .resourceVanished code details | .unsupportedOperation code details
  | .hardwareFault code details | .unsatisfiedConstraints code details
  | .illegalOperation code details | .protocolError code details | .timeExpired code details
  | .interrupted _ code details | .noFileOrDirectory _ code details
  | .invalidArgument _ code details | .permissionDenied _ code details
  | .resourceExhausted _ code details | .inappropriateType _ code details
  | .noSuchThing _ code details => systemFailure details code
  | .unexpectedEof => .system "unexpected end of file" 0
  | .userError message => .system message 0

/-- A number with zeros in front. -/
def padded (width n : Nat) : String :=
  let digits := toString n
  String.ofList (List.replicate (width - digits.length) '0') ++ digits

/-- The time of day in the Universal Time, to the microsecond. -/
def timeOfDay : IO String := do
  let now ← Std.Time.Timestamp.now
  let t := Std.Time.PlainDateTime.ofWallTime (now.toWallTime .zero)
  return padded 4 t.year.toInt.toNat ++ "-" ++ padded 2 t.month.val.toNat ++ "-"
    ++ padded 2 t.day.val.toNat ++ "T" ++ padded 2 t.hour.val.toNat ++ ":"
    ++ padded 2 t.minute.val.toNat ++ ":" ++ padded 2 t.second.val.toNat ++ "."
    ++ padded 6 (t.nanosecond.val.toNat / 1000) ++ "Z"

/-- The operating system. -/
def host : Host IO where
  print := IO.print
  report := IO.eprint
  setting name := IO.getEnv name
  load file := do
    match ← (IO.FS.readBinFile file).toBaseIO with
    | .ok bytes => return .ok bytes
    | .error failure => return .error (readFailure failure)
  startWatch := do
    let start ← IO.monoNanosNow
    return do return Text.duration ((← IO.monoNanosNow) - start)
  time := timeOfDay

end ImpFront.Main

/-- Runs the command. -/
def main (arguments : List String) : IO UInt32 :=
  ImpFront.Command.run ImpFront.Main.host arguments
