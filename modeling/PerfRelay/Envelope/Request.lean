import PerfRelay.Json.Printer
import PerfRelay.MessagePack.Text

/-!
# Requests

The agent is asked for the configuration of one extension.  A request is a JSON object with four
members in a fixed order, sent as one MessagePack string.

Main results:

- Theorem `Request.encode_eq`: the bytes of a request are the string head of its body and the body.
-/

namespace PerfRelay

/-- The extensions whose configuration can be asked for. -/
inductive Extension where
  | containerInsights
  | containerLogs
deriving DecidableEq, Repr

namespace Extension

/-- The tag under which the agent knows an extension. -/
def tag : Extension → String
  | .containerInsights => "ContainerInsights"
  | .containerLogs => "ContainerLogV2Extension"

/-- The version of the configuration that is asked for. -/
def version : Extension → String
  | .containerInsights => "1"
  | .containerLogs => "1"

end Extension

/-! ## What is sent -/

/-- The four texts in a request. -/
structure RequestBody where
  /-- What is asked for. -/
  subject : String
  /-- A text that tells the requests apart. -/
  id : String
  tag : String
  version : String
deriving DecidableEq, Repr

namespace RequestBody

/-- The members of the object, in their order. -/
def members (body : RequestBody) : List (String × String) :=
  [("Request", body.subject), ("RequestId", body.id), ("Tag", body.tag), ("Version", body.version)]

/-- The JSON text. -/
def text (body : RequestBody) : String :=
  String.ofList (Json.render (.object (body.members.map fun (name, text) => (name, .string text))))

/-- The bytes that are sent. -/
def encode (body : RequestBody) : List UInt8 :=
  MessagePack.renderText body.text

end RequestBody

/-! ## Requests -/

/-- A request for the configuration of an extension. -/
structure Request where
  extension : Extension
  /-- A text that tells the requests apart. -/
  id : String
deriving DecidableEq, Repr

namespace Request

/-- What is asked for in every request. -/
def subject : String := "AgentTaggedData"

/-- The texts in a request for the configuration of an extension. -/
def content (request : Request) : RequestBody :=
  ⟨subject, request.id, request.extension.tag, request.extension.version⟩

/-- The members of the body, in their order. -/
def members (request : Request) : List (String × String) := request.content.members

/-- The JSON text of a request. -/
def body (request : Request) : String := request.content.text

/-- The bytes of a request. -/
def encode (request : Request) : List UInt8 := request.content.encode

theorem encode_eq (request : Request) :
    request.encode =
      MessagePack.textHead (Utf8.encode request.body).length ++ Utf8.encode request.body := rfl

end Request

end PerfRelay
