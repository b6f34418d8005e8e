import PerfRelay.Agent.RequestId
import PerfRelay.Configuration.Document
import PerfRelay.Envelope.Reception
import PerfRelay.Envelope.Request
import PerfRelay.Routing.Cache

/-!
# The client of the agent

The client asks the agent for the configurations of one extension, over a connection of its own for
every request.  A fault is noted and gives no configurations; there is no second attempt.

Main results:

- Theorem `fetch_of_fault`: a fault gives no configurations.
-/

namespace PerfRelay

/-- What stands at the other end of the socket. -/
inductive Peer where
  /-- Nobody: connecting fails. -/
  | absent (kind : IoKind)
  /-- Somebody who breaks off before the request is written. -/
  | deaf (kind : IoKind)
  /-- An agent that answers every request with these deliveries. -/
  | answering (deliveries : List Envelope.Delivery)

/-- A client, with what it has met so far. -/
structure Client where
  socketPath : String
  extension : Extension
  /-- The longest wait for a read or a write, in microseconds. -/
  timeout : Nat
  peer : Peer
  /-- The random bits for the next request id. -/
  idBits : Nat
  /-- What the peers got over each connection: a request, or nothing. -/
  contacts : List (Option Request)

namespace Client

/-- The most bytes in a reply. -/
def mostBytes : Nat := 64 * 1024

/-- What is noted about a request. -/
def requestNote (client : Client) (request : Request) : Entry :=
  .info (s!"requesting {request.extension.tag} configuration from {client.socketPath} " ++
    s!"(request id {request.id})")

/-- The configurations in a reply. -/
def readReply (request : Request) (text : String) :
    Noted Entry (Except ExchangeFault (List Configuration)) := do
  match ← Configuration.ofDocument text with
  | .error stop => return .error (.payload stop)
  | .ok configurations => do
    Noted.note (.debug (s!"request {request.id} returned {configurations.length} " ++
      "extension configurations"))
    return .ok configurations

/-- Sends a request over a connection and reads the reply. -/
def exchange (client : Client) (request : Request) (deliveries : List Envelope.Delivery) :
    Noted Entry (Except ExchangeFault (List Configuration)) := do
  Noted.note (client.requestNote request)
  match (Envelope.receive mostBytes deliveries).result with
  | .error fault => return .error fault
  | .ok text => readReply request text

/-- A connection cannot wait for no time at all. -/
def refuseTimeout (client : Client) :
    Noted Entry (Except ExchangeFault (List Configuration) × Client) :=
  pure (.error (.io .invalidInput), { client with contacts := client.contacts ++ [none] })

/-- Asks the agent once. -/
def roundTrip (client : Client) :
    Noted Entry (Except ExchangeFault (List Configuration) × Client) :=
  let request : Request := ⟨client.extension, RequestId.ofBits client.idBits⟩
  let client := { client with idBits := client.idBits + 1 }
  match client.peer with
  | .absent kind => pure (.error (.connect client.socketPath kind), client)
  | .deaf kind =>
    if client.timeout = 0 then client.refuseTimeout
    else
      ⟨(.error (.io kind), { client with contacts := client.contacts ++ [none] }),
        [client.requestNote request]⟩
  | .answering deliveries =>
    if client.timeout = 0 then client.refuseTimeout
    else
      (fun result => (result, { client with contacts := client.contacts ++ [some request] })) <$>
        client.exchange request deliveries

/-- Asks the agent once, and notes a fault. -/
def fetch (client : Client) : Noted Entry (List Configuration × Client) := do
  match ← client.roundTrip with
  | (.ok configurations, client) => return (configurations, client)
  | (.error fault, client) => do
    Noted.note (.warn (s!"failed to get {client.extension.tag} extension configuration: " ++
      fault.message))
    return ([], client)

/-- A fault gives no configurations. -/
theorem fetch_of_fault {client after : Client} {fault : ExchangeFault}
    (h : client.roundTrip.value = (.error fault, after)) : client.fetch.value = ([], after) := by
  simp [fetch, h]

instance : ConfigurationFetcher Client := ⟨fetch⟩

end Client

end PerfRelay
