import Acdp.CoreHttpStreamTransport
import Acdp.CoreTransportFactory
import Acdp.JsonFlattening
import Acdp.NamedFields

/-!
# From a configuration to the headers of a request

The factory checks a configuration and builds a transport from it.  What the
configuration says about credentials takes two ways: the transport with
server-sent events gets the custom headers and no scheme, the streaming
transport gets the scheme as one text and no custom header.
-/

namespace Acdp
namespace Core

open Json (MapOrder StringMap)

/-! ## Configurations -/

/-- The parts of an address that are read; `userinfo` is what stands before
the host, which a path or a query added behind leaves as it is. -/
structure Url where
  text : String
  scheme : String
  userinfo : String
  host : Option String
  path : String

inductive ConfigError where
  | missingParameter (parameter : String)
  | invalidValue (parameter value reason : String)
  deriving DecidableEq, Repr

/-- The errors that creating a transport can end in. -/
inductive CreateError where
  | config (error : ConfigError)
  | transport (error : TransportError)
  deriving DecidableEq, Repr

inductive AuthConfig where
  | basic (username password : String)
  | bearer (token : String)
  | oauth (clientId clientSecret : String) (tokenUrl : Url)
  | header (name value : String)

def AuthConfig.validate : AuthConfig → Except ConfigError Unit
  | .basic username password =>
      if username = "" ∨ password = "" then
        .error (.invalidValue "auth" "basic"
          "Username and password cannot be empty")
      else .ok ()
  | .bearer token =>
      if token = "" then
        .error (.invalidValue "auth" "bearer" "Token cannot be empty")
      else .ok ()
  | .oauth clientId clientSecret tokenUrl =>
      if clientId = "" ∨ clientSecret = "" then
        .error (.invalidValue "auth" "oauth"
          "Client ID and secret cannot be empty")
      else if tokenUrl.scheme ≠ "https" then
        .error (.invalidValue "token_url" tokenUrl.text
          "OAuth token URL must use HTTPS")
      else .ok ()
  | .header name value =>
      if name = "" ∨ value = "" then
        .error (.invalidValue "auth" "header"
          "Header name and value cannot be empty")
      else .ok ()

structure StdioConfig where
  command : String
  workingDir : Option String

def StdioConfig.validate (pathExists : String → Bool) (self : StdioConfig) :
    Except ConfigError Unit :=
  if self.command = "" then .error (.missingParameter "command")
  else
    match self.workingDir with
    | none => .ok ()
    | some dir =>
        if pathExists dir then .ok ()
        else
          .error (.invalidValue "working_dir" dir "Directory does not exist")

structure HttpSseConfig where
  baseUrl : Url
  headers : StringMap String
  auth : Option AuthConfig

def HttpSseConfig.validate (self : HttpSseConfig) :
    Except ConfigError Unit :=
  if self.baseUrl.scheme ≠ "http" ∧ self.baseUrl.scheme ≠ "https" then
    .error (.invalidValue "base_url" self.baseUrl.text
      "URL must use http or https scheme")
  else self.auth.elim (.ok ()) AuthConfig.validate

structure HttpStreamConfig where
  baseUrl : Url
  headers : StringMap String
  auth : Option AuthConfig
  flowControlWindow : UInt32

def HttpStreamConfig.validate (self : HttpStreamConfig) :
    Except ConfigError Unit :=
  if self.baseUrl.scheme ≠ "http" ∧ self.baseUrl.scheme ≠ "https" then
    .error (.invalidValue "base_url" self.baseUrl.text
      "URL must use http or https scheme")
  else if self.flowControlWindow = 0 then
    .error (.invalidValue "flow_control_window"
      (toString self.flowControlWindow.toNat)
      "Flow control window must be greater than 0")
  else self.auth.elim (.ok ()) AuthConfig.validate

inductive TransportConfig where
  | stdio (config : StdioConfig)
  | httpSse (config : HttpSseConfig)
  | httpStream (config : HttpStreamConfig)

namespace TransportConfig

def validate (pathExists : String → Bool) :
    TransportConfig → Except ConfigError Unit
  | .stdio config => config.validate pathExists
  | .httpSse config => config.validate
  | .httpStream config => config.validate

def auth : TransportConfig → Option AuthConfig
  | .stdio _ => none
  | .httpSse config => config.auth
  | .httpStream config => config.auth

def headers : TransportConfig → StringMap String
  | .stdio _ => .empty
  | .httpSse config => config.headers
  | .httpStream config => config.headers

end TransportConfig

/-! ## Building requests -/

abbrev HeaderMap := NamedFields String String

/-- Letters and hyphens, not too many of them. -/
def isHeaderWord (text : String) : Bool :=
  !text.toList.isEmpty && text.toList.length < 65536 &&
    text.toList.all (fun char => char.isAlpha || char == '-')

def isVisible (text : String) : Bool :=
  text.toList.all (fun char => 32 ≤ char.toNat && char.toNat < 127)

/-- The HTTP library: which names and values a header can have, the names in
their one spelling, and the authorization it makes of the user that an address
names. -/
structure HttpLibrary where
  headerName : String → Option String
  isHeaderValue : String → Bool
  userAuthorization : String → Option String
  build : Except String Unit
  headerName_word : ∀ text, isHeaderWord text = true →
    headerName text = some (String.ofList (text.toList.map Char.toLower))
  isHeaderValue_visible : ∀ text, isVisible text = true →
    isHeaderValue text = true
  userAuthorization_basic : ∀ userinfo value,
    userAuthorization userinfo = some value → ∃ code, value = "Basic " ++ code

namespace HttpLibrary

/-- A header as it is sent, where its name and its value are valid. -/
def field (library : HttpLibrary) (name value : String) :
    Option (String × String) :=
  match library.headerName name with
  | none => none
  | some name =>
      if library.isHeaderValue value then some (name, value) else none

def userFields (library : HttpLibrary) (url : Url) : HeaderMap :=
  (library.userAuthorization url.userinfo).toList.map
    (fun value => ("authorization", value))

/-- `Client::post`. -/
def post (library : HttpLibrary) (url : Url) : Option HeaderMap :=
  some (library.userFields url)

/-- `RequestBuilder::header`; a header that is not valid spoils the request,
which is then never sent. -/
def header (library : HttpLibrary) (request : Option HeaderMap)
    (name value : String) : Option HeaderMap :=
  match request, library.field name value with
  | some fields, some field => some (fields ++ [field])
  | _, _ => none

def headerIfSome (library : HttpLibrary) (request : Option HeaderMap)
    (name : String) : Option String → Option HeaderMap
  | none => request
  | some value => library.header request name value

end HttpLibrary

/-! ## The transport with server-sent events -/

/-- The transport with its client, whose default headers go where a request
has left their names vacant. -/
structure HttpSseConnection extends HttpSseTransport where
  baseUrl : Url
  defaultHeaders : HeaderMap

namespace HttpSseConnection

def insertHeader (library : HttpLibrary) (headers : HeaderMap)
    (entry : String × String) : HeaderMap :=
  match library.field entry.1 entry.2 with
  | some field => headers.put field
  | none => headers

/-- The default headers of the client. -/
def buildHttpClient (library : HttpLibrary) (order : MapOrder)
    (config : HttpSseConfig) : Except TransportError HeaderMap :=
  match library.build with
  | .ok () =>
      .ok ((order.arrange config.headers.members).foldl
        (insertHeader library) [])
  | .error e =>
      .error (.invalidConfig HttpSseTransport.transportType
        ("Failed to build HTTP client: " ++ e))

def requireHttps (baseUrl : Url) : Bool :=
  baseUrl.host != some "localhost" && baseUrl.host != some "127.0.0.1"

def buildSecurityConfig (baseUrl : Url) : Except TransportError Unit :=
  if requireHttps baseUrl && baseUrl.scheme != "https" then
    .error (.invalidConfig HttpSseTransport.transportType
      ("HTTPS required for non-localhost URL: " ++ baseUrl.text))
  else .ok ()

def new (library : HttpLibrary) (order : MapOrder) (config : HttpSseConfig) :
    Except TransportError HttpSseConnection :=
  match buildHttpClient library order config with
  | .error e => .error e
  | .ok headers =>
      match buildSecurityConfig config.baseUrl with
      | .error e => .error e
      | .ok () =>
          .ok
            { connected := false
              protocolVersion := .autoDetect
              basePath := config.baseUrl.path
              sessionId := none
              validateSessionIds := true
              baseUrl := config.baseUrl
              defaultHeaders := headers }

/-- The request that every message is posted with. -/
def jsonRequest (library : HttpLibrary) (self : HttpSseConnection) :
    Option HeaderMap :=
  let request := library.post self.baseUrl
  let request := library.header request "content-type" "application/json"
  library.header request "Accept" "application/json, text/event-stream"

/-- The identifier of the last event, which could follow, is never set. -/
def streamableHttpRequest (library : HttpLibrary) (self : HttpSseConnection) :
    Option HeaderMap :=
  (library.headerIfSome (self.jsonRequest library) "Mcp-Session-Id"
    self.sessionId).map (NamedFields.fill · self.defaultHeaders)

/-- The session is part of the address. -/
def legacySseRequest (library : HttpLibrary) (self : HttpSseConnection) :
    Option HeaderMap :=
  (self.jsonRequest library).map (NamedFields.fill · self.defaultHeaders)

def mcpRequest (library : HttpLibrary) (self : HttpSseConnection) :
    Option HeaderMap :=
  match self.detectProtocolVersion with
  | .streamableHttp => self.streamableHttpRequest library
  | .httpSse => self.legacySseRequest library
  | .autoDetect => self.streamableHttpRequest library

def notificationRequest (library : HttpLibrary) (self : HttpSseConnection) :
    Option HeaderMap :=
  (library.headerIfSome (self.jsonRequest library) "Mcp-Session-Id"
    self.sessionId).map (NamedFields.fill · self.defaultHeaders)

/-- The headers of what the transport posts, in whatever session the server
has put it. -/
inductive Posts (library : HttpLibrary) (self : HttpSseConnection) :
    HeaderMap → Prop
  | request (session : Option String) {fields : HeaderMap}
      (hsent : mcpRequest library { self with sessionId := session } =
        some fields) : Posts library self fields
  | notification (session : Option String) {fields : HeaderMap}
      (hsent : notificationRequest library
        { self with sessionId := session } = some fields) :
      Posts library self fields

end HttpSseConnection

/-! ## The streaming transport -/

/-- The transport with the parts of its address. -/
structure HttpStreamConnection extends HttpStreamTransport where
  address : Url
  baseUrl_eq : baseUrl = address.text

/-- The headers of a request; `get_mcp_url` only adds to the end of the
address. -/
def HttpPost.request (library : HttpLibrary) (address : Url)
    (self : HttpPost) : Option HeaderMap :=
  let request := library.post address
  let request := library.header request "Content-Type" "application/json"
  let request :=
    library.header request "Accept" "application/json, text/event-stream"
  let request :=
    library.headerIfSome request "Authorization" self.authorization
  library.headerIfSome request "mcp-session-id" self.sessionId

namespace HttpStreamConnection

def new (address : Url) (authHeader : Option String) :
    HttpStreamConnection where
  baseUrl := address.text
  authHeader := authHeader
  sessionId := none
  connected := false
  address := address
  baseUrl_eq := rfl

/-- The first request of a session has no identifier of it. -/
inductive Posts (json : SerdeJson) (library : HttpLibrary)
    (self : HttpStreamConnection) : HeaderMap → Prop
  | firstRequest (request : JsonRpcRequest) {fields : HeaderMap}
      (hsent : (self.post json (.request request) none).request library
        self.address = some fields) : Posts json library self fields
  | request (session : Option String) (request : JsonRpcRequest)
      {fields : HeaderMap}
      (hsent : (self.post json (.request request) session).request library
        self.address = some fields) : Posts json library self fields
  | notification (session : Option String)
      (notification : JsonRpcNotification) {fields : HeaderMap}
      (hsent : (self.post json (.notification notification) session).request
        library self.address = some fields) : Posts json library self fields

end HttpStreamConnection

/-! ## The factory -/

inductive Transport where
  | stdio (config : StdioConfig)
  | httpSse (transport : HttpSseConnection)
  | httpStream (transport : HttpStreamConnection)

/-- The text that stands for a scheme; `none` where the encoder would be out
of range. -/
def AuthConfig.authHeader : AuthConfig → Option String
  | .bearer token => some token
  | .basic username password =>
      (base64Encode (asBytes (username ++ ":" ++ password))).map
        ("Basic " ++ ·)
  | .header _ value => some value
  | .oauth _ _ _ => some "Bearer oauth-token"

def TransportFactory.create (library : HttpLibrary) (order : MapOrder)
    (pathExists : String → Bool) (config : TransportConfig) :
    Except CreateError Transport :=
  match config.validate pathExists with
  | .error e => .error (.config e)
  | .ok () =>
      match config with
      | .stdio config => .ok (.stdio config)
      | .httpSse config =>
          match HttpSseConnection.new library order config with
          | .ok transport => .ok (.httpSse transport)
          | .error e => .error (.transport e)
      | .httpStream config =>
          .ok (.httpStream (HttpStreamConnection.new config.baseUrl
            (config.auth.bind AuthConfig.authHeader)))

def Transport.Posts (json : SerdeJson) (library : HttpLibrary)
    (fields : HeaderMap) : Transport → Prop
  | .stdio _ => False
  | .httpSse transport => transport.Posts library fields
  | .httpStream transport => transport.Posts json library fields

end Core
end Acdp
