import BuildWatch.CommandLine.Commands

/-!
The program: the command line on the files, the clock and the streams of the
machine.  Other programs are not started from here; a container runtime that
would have to be started answers as one that cannot be.
-/

namespace BuildWatch.Main

open BuildWatch.CommandLine
open BuildWatch.Files

/-! ### Files -/

def faultOf : IO.Error → FileError
  | .noFileOrDirectory .. => .notFound
  | .inappropriateType .. => .notADirectory
  | .illegalOperation .. => .isADirectory
  | _ => .refused

def kindOf : IO.FS.FileType → FileKind
  | .file => .file
  | .dir => .directory
  | _ => .other

def attempt {α : Type} (action : IO α) : IO (Except FileError α) := do
  match ← action.toBaseIO with
  | .ok value => return .ok value
  | .error error => return .error (faultOf error)

def files : FileSystem IO where
  read path := attempt (IO.FS.readBinFile path)
  write path bytes := attempt (IO.FS.writeBinFile path bytes)
  kind path := attempt do
    let place := (← IO.currentDir) / path
    return kindOf (← place.metadata).type

def surroundings : IO Surroundings := do
  let home ← IO.getEnv "HOME"
  let configurations ← IO.getEnv "XDG_CONFIG_HOME"
  let data ← IO.getEnv "XDG_DATA_HOME"
  let temporary ← IO.getEnv "TMPDIR"
  return { home, configurations, data, temporary := temporary.getD "/tmp" }

def platform : IO (Platform IO) := do
  return { files := files, runner := fun _ _ => return none, surroundings := ← surroundings }

/-! ### Serving -/

def tellFailure (failure : Failure) : IO UInt32 := do
  (← IO.getStderr).putStrLn ("Error: " ++ failure.chain)
  return 1

/-- A line with what came of it: the coordinator and the reply, or a failure. -/
def answerInput (services : Services IO) (coordinator : Coordinator) (text : String) :
    IO (Coordinator × Option String) := do
  let content := (InputLine.split (Text.bytesOf text)).head?.bind InputLine.text?
  let (coordinator, reply) ← services.answerLine coordinator (content.getD "")
  return (coordinator.takeHistory.1, reply)

/-- Answer lines until the input ends; between lines the coordinator's clock follows
that of the machine. -/
partial def serveLoop (services : Services IO) (coordinator : Coordinator) (clock : Nat) :
    IO UInt32 := do
  match ← (← IO.getStdin).getLine.toBaseIO with
  | .error _ => tellFailure Services.unreadableLine
  | .ok text =>
      if text.isEmpty then return 0
      let now ← IO.monoMsNow
      let coordinator ← coordinator.advance services.surrounding (now - clock)
      let (coordinator, reply?) ← answerInput services coordinator text
      if let some reply := reply? then
        let output ← IO.getStdout
        output.putStrLn reply
        output.flush
      serveLoop services coordinator now

def serve (platform : Platform IO) (path? : Option Path) : IO UInt32 := do
  match ← (platform.configuration path?).run with
  | .error failure => tellFailure failure
  | .ok configuration =>
      serveLoop (platform.services configuration) (Platform.coordinator configuration)
        (← IO.monoMsNow)

/-! ### The command line -/

def conclude (ending : Ending) : IO UInt32 := do
  (← IO.getStdout).putStr ending.output
  match ending.failure with
  | some failure => tellFailure failure
  | none => return 0

def run (arguments : List String) : IO UInt32 := do
  match Invocation.ofArguments? arguments with
  | none =>
      (← IO.getStderr).putStrLn "usage: pfw [--config FILE] serve | ports | detect | config"
      return UInt32.ofNat usageStatus
  | some invocation =>
      let platform ← platform
      match invocation.command with
      | .serve => serve platform invocation.configuration
      | _ => conclude (← platform.run invocation [])

end BuildWatch.Main

def main (arguments : List String) : IO UInt32 :=
  BuildWatch.Main.run arguments
