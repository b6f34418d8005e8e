import PerfRelay.Journal
import PerfRelay.Text.AsciiCase
import PerfRelay.Text.Blank
import PerfRelay.Text.Quoted

/-!
# The environment

What the program takes from its environment variables when it starts.  A variable that is not set,
or whose value is no text, has a default.

Main results:

- Theorem `ofVariables_unset`: the environment without variables.
-/

namespace PerfRelay

/-- The settings from the environment. -/
structure Environment where
  /-- Output streams are looked up with the agent. -/
  looksUpStreams : Bool
  /-- Every batch that was handed on is noted. -/
  notesBatches : Bool
  isWindows : Bool
  containerType : Option String
  logLevel : Level
  spoolDirectory : String
deriving DecidableEq, Repr

namespace Environment

/-- The level with a name, spelled in either case. -/
def level? (text : String) : Option Level :=
  Level.all.find? fun level => eqIgnoringCase text level.name

/-- The variable that names the log level. -/
def levelVariable : String := "CI_PERF_LOG_LEVEL"

/-- Whether a switch is on. -/
def isOn (value : Option String) : Bool :=
  value.any fun text => eqIgnoringCase (trim text) "true"

/-- The log level, and what is noted about a value that names none. -/
def readLevel : Option String → Noted Entry Level
  | none => pure .info
  | some raw =>
    match level? (trim raw) with
    | some level => pure level
    | none =>
      ⟨.info, [.warn s!"invalid {levelVariable} value {Quoted.quote raw}, using info"]⟩

/-- Where records are spooled unless the environment says otherwise. -/
def defaultSpoolDirectory : String := "/var/run/ci-perf/spool"

/-- The environment in which variables have the given values. -/
def ofVariables (valueOf : String → Option String) : Noted Entry Environment := do
  let level ← readLevel (valueOf levelVariable)
  return {
    looksUpStreams := isOn (valueOf "AAD_MSI_AUTH_MODE")
    notesBatches := isOn (valueOf "ISTEST")
    isWindows := (valueOf "OS_TYPE").any fun text => eqIgnoringCase (trim text) "windows"
    containerType := ((valueOf "CONTAINER_TYPE").map trim).filter (!·.isEmpty)
    logLevel := level
    spoolDirectory := (valueOf "CI_PERF_SPOOL_DIR").getD defaultSpoolDirectory
  }

theorem ofVariables_unset :
    ofVariables (fun _ => none) = pure ⟨false, false, false, none, .info, defaultSpoolDirectory⟩ :=
  rfl

/-- The container type that has an agent of its own. -/
def sidecar : String := "prometheussidecar"

/-- The socket of the agent. -/
def socketPath (environment : Environment) : String :=
  if environment.containerType.any (eqIgnoringCase · sidecar) then
    s!"/var/run/mdsd-{sidecar}/default_fluent.socket"
  else "/var/run/mdsd-ci/default_fluent.socket"

end Environment

end PerfRelay
