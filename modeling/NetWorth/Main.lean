import NetWorth.Command.Run
import NetWorth.Web.Offline
import Std.Time.DateTime.Timestamp
/-!
# The program

Gives a task the file system, the clock and the variables of the process.  There is no connection to
the web, so prices come from the quote file.
-/

namespace NetWorth.Program

/-- What a task runs in: the process, and the quotes that are kept in memory. -/
abbrev Session := StateT QuoteTable IO

/-- Runs a step on the file system. -/
def attempt (step : IO α) : Session (Except FileError α) :=
  fun quotes => do
    try
      return (.ok (← step), quotes)
    catch
      | .noFileOrDirectory .. => return (.error .missing, quotes)
      | _ => return (.error .refused, quotes)

/-- The file system of the process. -/
def files : Files Session where
  exist path := do
    match ← attempt (IO.FS.Handle.mk path .read) with
    | .ok _ => return true
    | .error _ => return false
  read path := attempt (IO.FS.readFile path)
  makeDirectories path := attempt (IO.FS.createDirAll path)
  write path text := attempt (IO.FS.writeFile path text)
  rename source target := attempt (IO.FS.rename source target)

/-- The time of the system. -/
def clock : Clock Session where
  now := do
    let now ← Std.Time.Timestamp.now
    return (Instant.ofTotalNanos? now.toNanosecondsSinceUnixEpoch.val).getD .greatest

/-- The variables that settings look at. -/
def environment : IO (String → Option String) := do
  let names := [Settings.lifetimeVariable, Settings.americanKeyVariable, Settings.modelKeyVariable]
  let values ← names.mapM fun name => return (name, ← IO.getEnv name)
  return fun name => (values.find? (·.1 == name)).bind (·.2)

/-- What a task can reach in this session. -/
def surroundings : IO (Surroundings Session) := do
  return {
    files
    memory := QuoteTable.memoryStore.hoist fun call quotes => return call.run quotes
    web := .offline clock
    clock
    environment := ← environment }

end NetWorth.Program

/-- Runs the program with the arguments of the command line. -/
def main (arguments : List String) : IO UInt32 := do
  let surroundings ← NetWorth.Program.surroundings
  let (outcome, _) ← (surroundings.run arguments).run .empty
  (← IO.getStdout).putStr outcome.output
  (← IO.getStderr).putStr outcome.errors
  return outcome.code.toUInt32
