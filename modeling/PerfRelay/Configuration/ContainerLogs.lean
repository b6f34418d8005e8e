import PerfRelay.Configuration.Basic
import PerfRelay.Policy.Namespaces

/-!
# Routes of container logs

A configuration that has an output stream for container logs sends the logs of the namespaces in its
settings to that stream.  Every namespace collects the streams of all configurations that list it,
in their order and each once.

Main results:

- Theorem `routeTo_eq`: the routes of a configuration are entered namespace by namespace.
-/

namespace PerfRelay.ContainerLogs

/-- The data type of container logs, spelled in any case. -/
def dataType : String := "containerinsights_containerlogv2"

/-- The streams that the logs of each namespace go to. -/
abbrev Routes := Dictionary (List String)

/-- The output stream for container logs in a configuration. -/
def stream? (configuration : Configuration) : Option String :=
  (configuration.outputStreams.find? fun (name, _) => eqIgnoringCase name dataType).map (·.2)

/-- The stream for container logs and the settings of a configuration that has both. -/
def source? (configuration : Configuration) : Option (String × Settings) := do
  let stream ← stream? configuration
  let settings ← configuration.settings
  return (stream, settings)

/-- Adds a stream at the end unless it is there. -/
def addStream (stream : String) (streams : List String) : List String :=
  if stream ∈ streams then streams else streams ++ [stream]

/-- Sends the logs of the namespaces to a stream. -/
def routeTo (stream : String) (routes : Routes) (namespaces : List String) : Routes :=
  namespaces.foldl (fun routes name => routes.alter name fun streams =>
    addStream stream (streams.getD [])) routes

@[simp] theorem routeTo_nil (stream : String) (routes : Routes) :
    routeTo stream routes [] = routes :=
  rfl

theorem routeTo_eq (stream : String) (routes : Routes) (name : String) (namespaces : List String) :
    routeTo stream routes (name :: namespaces) =
      routeTo stream (routes.alter name fun streams => addStream stream (streams.getD []))
        namespaces := rfl

/-- The routes of container logs. -/
def routes (configurations : List Configuration) : Routes :=
  (configurations.filterMap source?).foldl (fun routes (stream, settings) =>
    routeTo stream routes (Namespaces.ofSettings settings).toList) .empty

/-- What is noted when the routes are made. -/
def notes (configurations : List Configuration) : List Entry :=
  (configurations.filterMap source?).flatMap fun (_, settings) => Namespaces.notes settings

end PerfRelay.ContainerLogs
