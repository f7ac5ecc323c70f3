import DeviceMessages.CommandLine.Report
import Std.Time.Zoned.Database

/-!
# The program

Reads the files, the standard input and the clock, and hands them to `CommandLine.run`.
-/

namespace DeviceMessages

/-- What the local clock shows now. Where the time zone is not known it shows universal time. -/
def Time.Moment.now : IO Time.Moment := do
  let t ← Std.Time.Timestamp.now
  let offset ← try
      pure ((← Std.Time.Database.defaultGetLocalZoneRules).timezoneAt t).offset.second.val
    catch _ => pure 0
  let moment := Time.Moment.ofNanoseconds? t.toNanosecondsSinceUnixEpoch.val offset
  return moment.getD Time.Moment.epoch

namespace CommandLine

/-- Why a file cannot be read, as the system words it. -/
def readingFault : IO.Error → String
  | .noFileOrDirectory _ code _ => s!"No such file or directory (os error {code})"
  | .permissionDenied _ code _ => s!"Permission denied (os error {code})"
  | .inappropriateType _ code _ => s!"Is a directory (os error {code})"
  | e => toString e

def Command.file : Command → String
  | .check file => file
  | .compose file _ _ _ => file
  | .scan file _ _ => file

def Command.readsInput : Command → Bool
  | .scan _ _ none => true
  | _ => false

/-- What a run of the program with the given arguments can see of the world. -/
def World.read (arguments : List String) : IO World := do
  let moment ← Time.Moment.now
  match Request.ofArguments arguments with
  | .run command =>
    let content ← try
        pure (Except.ok (← IO.FS.readBinFile command.file).toList)
      catch e => pure (.error (readingFault e))
    let input ←
      if command.readsInput && content.isOk then pure (← (← IO.getStdin).readBinToEnd).toList
      else pure []
    return ⟨fun _ => content, input, fun _ => moment⟩
  | _ => return ⟨fun _ => .error "", [], fun _ => moment⟩

end CommandLine

end DeviceMessages

open DeviceMessages.CommandLine in
def main (arguments : List String) : IO UInt32 := do
  let report := run (← World.read arguments) arguments
  let output ← IO.getStdout
  output.write ⟨report.output.toArray⟩
  output.flush
  (← IO.getStderr).putStr report.messages
  return report.status.toUInt32
