import Acdp.CommonIpc
import Acdp.CoreTransportCreation

/-!
# The credentials that the HTTP transports send

Each post should carry the header of the scheme and the custom headers, and
beside the transports' own headers nothing else.  Both transports build every
post alike in all its sessions, so that the question is one about the
configuration: which of its parts a transport looks at, and whether those are
enough.
-/

namespace Acdp
namespace Core

open Json (MapOrder StringMap)

/-! ## What a request should carry -/

/-- The header of a scheme; a token has to be fetched for the fourth one. -/
def AuthConfig.prescribed : AuthConfig → Option (String × String)
  | .basic username password =>
      some ("Authorization", "Basic " ++ String.ofList
        (Base64.encode (asBytes (username ++ ":" ++ password))))
  | .bearer token => some ("Authorization", "Bearer " ++ token)
  | .header name value => some (name, value)
  | .oauth _ _ _ => none

/-- The names of the transports' own headers. -/
def ownNames : List String := ["content-type", "accept", "mcp-session-id"]

section Credentials

variable (library : HttpLibrary)

/-- The header of the scheme, or a custom one. -/
def Wanted (headers : StringMap String) (auth : AuthConfig)
    (field : String × String) : Prop :=
  ∃ name value,
    (auth.prescribed = some (name, value) ∨ (name, value) ∈ headers.members) ∧
      library.field name value = some field

structure CredentialsSent (headers : StringMap String) (auth : AuthConfig)
    (fields : HeaderMap) : Prop where
  prescribed : ∀ name value, auth.prescribed = some (name, value) →
    ∃ field ∈ fields, library.field name value = some field
  custom : ∀ name value, (name, value) ∈ headers.members →
    ∀ field, library.field name value = some field → field ∈ fields
  nothingElse : ∀ field ∈ fields, field.1 ∉ ownNames →
    Wanted library headers auth field

/-- Outside the transports' own headers there is no choice. -/
theorem CredentialsSent.mem_iff {library : HttpLibrary}
    {headers : StringMap String} {auth : AuthConfig} {fields : HeaderMap}
    (hsent : CredentialsSent library headers auth fields)
    {field : String × String} (hfield : field.1 ∉ ownNames) :
    field ∈ fields ↔ Wanted library headers auth field := by
  constructor
  · intro hmem
    exact hsent.nothingElse field hmem hfield
  · rintro ⟨name, value, hsource, hvalid⟩
    rcases hsource with hprescribed | hcustom
    · obtain ⟨sent, hmem, hsame⟩ := hsent.prescribed name value hprescribed
      rw [hvalid, Option.some.injEq] at hsame
      rwa [hsame]
    · exact hsent.custom name value hcustom field hvalid

/-! ## When it is carried -/

/-- What every request has. -/
def fixedFields : HeaderMap :=
  [("content-type", "application/json"),
    ("accept", "application/json, text/event-stream")]

/-- The valid custom headers. -/
def customFields (headers : StringMap String) : HeaderMap :=
  headers.members.filterMap (fun entry => library.field entry.1 entry.2)

def sseFields (url : Url) (headers : StringMap String) : HeaderMap :=
  library.userFields url ++ fixedFields ++ customFields library headers

/-- What the address, the transport and the custom headers give is enough for
the scheme and nobody contradicts another. -/
structure SseDelivers (url : Url) (headers : StringMap String)
    (auth : AuthConfig) : Prop where
  prescribed : ∀ name value, auth.prescribed = some (name, value) →
    ∃ field ∈ sseFields library url headers,
      library.field name value = some field
  consistent : NamedFields.Consistent (sseFields library url headers)
  session : "mcp-session-id" ∉
    NamedFields.names (customFields library headers)
  user : ∀ field ∈ library.userFields url, Wanted library headers auth field

def streamFields (url : Url) (authorization : String) : HeaderMap :=
  library.userFields url ++ fixedFields ++ [("authorization", authorization)]

/-- No custom header is missed beside the one authorization, and the user of
the address is none of its own. -/
structure StreamKeeps (url : Url) (headers : StringMap String)
    (auth : AuthConfig) (authorization : String) : Prop where
  custom : ∀ field ∈ customFields library headers,
    field ∈ streamFields library url authorization
  user : ∀ field ∈ library.userFields url, Wanted library headers auth field

/-- By scheme: a token or a value that is no header value is never sent at
all; a bearer token is otherwise sent without the word that introduces it, and
a named header under another name. -/
def StreamDelivers (url : Url) (headers : StringMap String) :
    AuthConfig → Prop
  | .basic username password =>
      StreamKeeps library url headers (.basic username password)
        ("Basic " ++ String.ofList
          (Base64.encode (asBytes (username ++ ":" ++ password))))
  | .bearer token => library.isHeaderValue token = false
  | .oauth clientId clientSecret tokenUrl =>
      StreamKeeps library url headers (.oauth clientId clientSecret tokenUrl)
          "Bearer oauth-token" ∧
        ("authorization", "Bearer oauth-token") ∈ customFields library headers
  | .header name value =>
      library.isHeaderValue value = false ∨
        (StreamKeeps library url headers (.header name value) value ∧
          (library.headerName name = some "authorization" ∨
            ((∃ field ∈ fixedFields, library.field name value = some field) ∧
              ("authorization", value) ∈ customFields library headers)))

def TransportConfig.Delivers (auth : AuthConfig) : TransportConfig → Prop
  | .stdio _ => True
  | .httpSse config =>
      SseDelivers library config.baseUrl config.headers auth
  | .httpStream config =>
      StreamDelivers library config.baseUrl config.headers auth

/-! ## The requests that are built -/

variable {library}

theorem field_eq_some_iff {name value : String} {field : String × String} :
    library.field name value = some field ↔
      ∃ spelled, library.headerName name = some spelled ∧
        library.isHeaderValue value = true ∧ field = (spelled, value) := by
  unfold HttpLibrary.field
  cases hname : library.headerName name with
  | none => simp
  | some spelled =>
      dsimp only
      constructor
      · intro hfield
        split_ifs at hfield with hvalue
        exact ⟨spelled, rfl, hvalue, (Option.some.inj hfield).symm⟩
      · rintro ⟨found, hsame, hvalue, rfl⟩
        rw [if_pos hvalue, Option.some.inj hsame]

theorem field_eq_of_word {name spelled value : String}
    (hword : isHeaderWord name = true)
    (hspelled : String.ofList (name.toList.map Char.toLower) = spelled)
    (hvalue : library.isHeaderValue value = true) :
    library.field name value = some (spelled, value) := by
  rw [field_eq_some_iff]
  exact ⟨spelled, hspelled ▸ library.headerName_word name hword, hvalue, rfl⟩

theorem headerName_authorization :
    library.headerName "Authorization" = some "authorization" :=
  library.headerName_word "Authorization" (by decide)

theorem field_authorization {value : String}
    (hvalue : library.isHeaderValue value = true) :
    library.field "Authorization" value = some ("authorization", value) :=
  field_eq_some_iff.mpr ⟨_, headerName_authorization, hvalue, rfl⟩

theorem header_some {fields : HeaderMap} {name value : String}
    {field : String × String} (hfield : library.field name value = some field) :
    library.header (some fields) name value = some (fields ++ [field]) := by
  simp only [HttpLibrary.header, hfield]

theorem header_of_none {request : Option HeaderMap} {name value : String}
    (hfield : library.field name value = none) :
    library.header request name value = none := by
  cases request <;> simp only [HttpLibrary.header, hfield]

/-- A header that stands there only sometimes, under a name that is valid. -/
theorem headerIfSome_eq_some_iff {fields result : HeaderMap}
    {name spelled : String} {value : Option String}
    (hword : isHeaderWord name = true)
    (hspelled : String.ofList (name.toList.map Char.toLower) = spelled) :
    library.headerIfSome (some fields) name value = some result ↔
      (∀ text ∈ value, library.isHeaderValue text = true) ∧
        result = fields ++ value.toList.map (fun text => (spelled, text)) := by
  cases value with
  | none =>
      rw [HttpLibrary.headerIfSome, Option.some.injEq, Option.toList_none,
        List.map_nil, List.append_nil]
      exact ⟨fun hsame => ⟨nofun, hsame.symm⟩, fun hresult => hresult.2.symm⟩
  | some text =>
      rw [HttpLibrary.headerIfSome, Option.toList_some, List.map_singleton]
      by_cases hvalue : library.isHeaderValue text = true
      · rw [header_some (field_eq_of_word hword hspelled hvalue),
          Option.some.injEq]
        constructor
        · intro hsame
          refine ⟨fun other hother => ?_, hsame.symm⟩
          rwa [← Option.some.inj hother]
        · exact fun hresult => hresult.2.symm
      · have hfield : library.field name text = none := by
          rw [Option.eq_none_iff_forall_not_mem]
          intro field hsome
          obtain ⟨_, _, hvalid, _⟩ := field_eq_some_iff.mp hsome
          exact hvalue hvalid
        rw [header_of_none hfield]
        exact ⟨nofun, fun hresult => absurd (hresult.1 text rfl) hvalue⟩

/-- The two headers of every request are valid. -/
theorem header_fixed (url : Url) {contentType : String}
    (hword : isHeaderWord contentType = true)
    (hspelled :
      String.ofList (contentType.toList.map Char.toLower) = "content-type") :
    library.header
        (library.header (library.post url) contentType "application/json")
        "Accept" "application/json, text/event-stream" =
      some (library.userFields url ++ fixedFields) := by
  have htype : library.field contentType "application/json" =
      some ("content-type", "application/json") :=
    field_eq_of_word hword hspelled
      (library.isHeaderValue_visible _ (by decide))
  have haccept :
      library.field "Accept" "application/json, text/event-stream" =
        some ("accept", "application/json, text/event-stream") :=
    field_eq_of_word (by decide) (by decide)
      (library.isHeaderValue_visible _ (by decide))
  rw [HttpLibrary.post, header_some htype, header_some haccept,
    List.append_assoc]
  rfl

/-! ## The headers of a post -/

def sessionFields (session : Option String) : HeaderMap :=
  session.toList.map (fun text => ("mcp-session-id", text))

@[simp] theorem append_sessionFields_none (fields : HeaderMap) :
    fields ++ sessionFields none = fields :=
  List.append_nil fields

theorem headerIfSome_authorization_iff {fields result : HeaderMap}
    {authorization : Option String} :
    library.headerIfSome (some fields) "Authorization" authorization =
        some result ↔
      (∀ text ∈ authorization, library.isHeaderValue text = true) ∧
        result = fields ++
          authorization.toList.map (fun text => ("authorization", text)) :=
  headerIfSome_eq_some_iff (by decide) (by decide)

/-- The name of the session's header is spelled in two ways. -/
theorem headerIfSome_session_iff {fields result : HeaderMap} {name : String}
    {session : Option String}
    (hname : name = "Mcp-Session-Id" ∨ name = "mcp-session-id") :
    library.headerIfSome (some fields) name session = some result ↔
      (∀ text ∈ session, library.isHeaderValue text = true) ∧
        result = fields ++ sessionFields session := by
  rcases hname with rfl | rfl
  · exact headerIfSome_eq_some_iff (by decide) (by decide)
  · exact headerIfSome_eq_some_iff (by decide) (by decide)

theorem headerIfSome_none (name : String) (value : Option String) :
    library.headerIfSome none name value = none := by
  cases value <;> rfl

theorem HttpSseConnection.jsonRequest_eq (self : HttpSseConnection) :
    self.jsonRequest library =
      some (library.userFields self.baseUrl ++ fixedFields) :=
  header_fixed self.baseUrl (by decide) (by decide)

theorem HttpSseConnection.sessionRequest_eq_some_iff
    {self : HttpSseConnection} {fields : HeaderMap} :
    (library.headerIfSome (self.jsonRequest library) "Mcp-Session-Id"
        self.sessionId).map (NamedFields.fill · self.defaultHeaders) =
        some fields ↔
      (∀ text ∈ self.sessionId, library.isHeaderValue text = true) ∧
        fields = NamedFields.fill
          (library.userFields self.baseUrl ++ fixedFields ++
            sessionFields self.sessionId) self.defaultHeaders := by
  rw [self.jsonRequest_eq, Option.map_eq_some_iff]
  constructor
  · rintro ⟨request, hrequest, rfl⟩
    obtain ⟨hvalid, rfl⟩ :=
      (headerIfSome_session_iff (Or.inl rfl)).mp hrequest
    exact ⟨hvalid, rfl⟩
  · rintro ⟨hvalid, rfl⟩
    exact ⟨_, (headerIfSome_session_iff (Or.inl rfl)).mpr ⟨hvalid, rfl⟩, rfl⟩

theorem HttpSseConnection.posts_iff {self : HttpSseConnection}
    {fields : HeaderMap} :
    self.Posts library fields ↔
      ∃ session : Option String,
        (∀ text ∈ session, library.isHeaderValue text = true) ∧
          fields = NamedFields.fill
            (library.userFields self.baseUrl ++ fixedFields ++
              sessionFields session) self.defaultHeaders := by
  constructor
  · intro hposts
    cases hposts with
    | request session hsent =>
        unfold mcpRequest at hsent
        split at hsent
        · exact ⟨session, sessionRequest_eq_some_iff.mp hsent⟩
        · -- A request of the older protocol has no header for its session.
          rw [legacySseRequest, jsonRequest_eq] at hsent
          refine ⟨none, nofun, ?_⟩
          rw [← Option.some.inj hsent, append_sessionFields_none]
        · exact ⟨session, sessionRequest_eq_some_iff.mp hsent⟩
    | notification session hsent =>
        exact ⟨session, sessionRequest_eq_some_iff.mp hsent⟩
  · rintro ⟨session, hvalid, hfields⟩
    exact .notification session
      (sessionRequest_eq_some_iff.mpr ⟨hvalid, hfields⟩)

theorem HttpPost.request_eq_some_iff {address : Url} {self : HttpPost}
    {fields : HeaderMap} :
    self.request library address = some fields ↔
      (∀ text ∈ self.authorization, library.isHeaderValue text = true) ∧
        (∀ text ∈ self.sessionId, library.isHeaderValue text = true) ∧
        fields = library.userFields address ++ fixedFields ++
          self.authorization.toList.map (fun text => ("authorization", text)) ++
          sessionFields self.sessionId := by
  rw [HttpPost.request, header_fixed address (by decide) (by decide)]
  constructor
  · intro hsent
    cases hrequest : library.headerIfSome
        (some (library.userFields address ++ fixedFields)) "Authorization"
        self.authorization with
    | none =>
        rw [hrequest, headerIfSome_none] at hsent
        exact absurd hsent nofun
    | some request =>
        rw [hrequest] at hsent
        obtain ⟨hauthorization, rfl⟩ :=
          headerIfSome_authorization_iff.mp hrequest
        obtain ⟨hsession, rfl⟩ :=
          (headerIfSome_session_iff (Or.inr rfl)).mp hsent
        exact ⟨hauthorization, hsession, rfl⟩
  · rintro ⟨hauthorization, hsession, rfl⟩
    rw [headerIfSome_authorization_iff.mpr ⟨hauthorization, rfl⟩]
    exact (headerIfSome_session_iff (Or.inr rfl)).mpr ⟨hsession, rfl⟩

theorem HttpStreamConnection.posts_iff {json : SerdeJson}
    {self : HttpStreamConnection} {fields : HeaderMap} :
    self.Posts json library fields ↔
      ∃ session : Option String,
        (∀ text ∈ self.authHeader, library.isHeaderValue text = true) ∧
          (∀ text ∈ session, library.isHeaderValue text = true) ∧
          fields = library.userFields self.address ++ fixedFields ++
            self.authHeader.toList.map (fun text => ("authorization", text)) ++
            sessionFields session := by
  constructor
  · intro hposts
    cases hposts with
    | firstRequest request hsent =>
        exact ⟨none, HttpPost.request_eq_some_iff.mp hsent⟩
    | request session request hsent =>
        exact ⟨session, HttpPost.request_eq_some_iff.mp hsent⟩
    | notification session notification hsent =>
        exact ⟨session, HttpPost.request_eq_some_iff.mp hsent⟩
  · rintro ⟨session, hposted⟩
    exact .notification session ⟨"2.0", "notifications/initialized", none⟩
      (HttpPost.request_eq_some_iff.mpr hposted)

/-! ## Where a header comes from -/

theorem mem_optional_iff {name : String} {value : Option String}
    {field : String × String} :
    field ∈ value.toList.map (fun text => (name, text)) ↔
      ∃ text, value = some text ∧ field = (name, text) := by
  rw [List.mem_map]
  constructor
  · rintro ⟨text, htext, rfl⟩
    exact ⟨text, Option.mem_toList.mp htext, rfl⟩
  · rintro ⟨text, htext, rfl⟩
    exact ⟨text, Option.mem_toList.mpr htext, rfl⟩

theorem consistent_optional (name : String) (value : Option String) :
    NamedFields.Consistent
      (value.toList.map (fun text => (name, text))) := by
  cases value with
  | none => exact fun _ _ _ hvalue => absurd hvalue List.not_mem_nil
  | some text => exact NamedFields.consistent_singleton (name, text)

theorem mem_userFields_iff {url : Url} {field : String × String} :
    field ∈ library.userFields url ↔
      ∃ text, library.userAuthorization url.userinfo = some text ∧
        field = ("authorization", text) :=
  mem_optional_iff

theorem mem_sessionFields_iff {session : Option String}
    {field : String × String} :
    field ∈ sessionFields session ↔
      ∃ text, session = some text ∧ field = ("mcp-session-id", text) :=
  mem_optional_iff

theorem mem_customFields_iff {headers : StringMap String}
    {field : String × String} :
    field ∈ customFields library headers ↔
      ∃ name value, (name, value) ∈ headers.members ∧
        library.field name value = some field := by
  rw [customFields, List.mem_filterMap]
  exact Prod.exists

theorem name_of_mem_fixedFields {field : String × String}
    (hfield : field ∈ fixedFields) :
    field.1 = "content-type" ∨ field.1 = "accept" := by
  rcases List.mem_cons.mp hfield with rfl | hfield
  · exact Or.inl rfl
  · exact Or.inr (List.mem_singleton.mp hfield ▸ rfl)

theorem own_of_mem_fixedFields {field : String × String}
    (hfield : field ∈ fixedFields) : field.1 ∈ ownNames := by
  rcases name_of_mem_fixedFields hfield with hname | hname
  · rw [hname]; decide
  · rw [hname]; decide

theorem not_mem_fixedFields {name value : String}
    (htype : name ≠ "content-type") (haccept : name ≠ "accept") :
    (name, value) ∉ fixedFields := by
  intro hfield
  rcases name_of_mem_fixedFields hfield with hname | hname
  · exact htype hname
  · exact haccept hname

theorem wanted_of_prescribed {headers : StringMap String} {auth : AuthConfig}
    {name value : String} {field : String × String}
    (hprescribed : auth.prescribed = some (name, value))
    (hfield : library.field name value = some field) :
    Wanted library headers auth field :=
  ⟨name, value, Or.inl hprescribed, hfield⟩

theorem wanted_of_custom {headers : StringMap String} {auth : AuthConfig}
    {field : String × String}
    (hfield : field ∈ customFields library headers) :
    Wanted library headers auth field := by
  obtain ⟨name, value, hmem, hvalid⟩ := mem_customFields_iff.mp hfield
  exact ⟨name, value, Or.inr hmem, hvalid⟩

theorem authorization_not_own : "authorization" ∉ ownNames := by decide

theorem eq_of_mem_names_sessionFields {session : Option String}
    {name : String} (hname : name ∈ NamedFields.names (sessionFields session)) :
    name = "mcp-session-id" := by
  obtain ⟨_, hvalue⟩ := NamedFields.exists_mem_of_mem_names hname
  obtain ⟨_, _, hfield⟩ := mem_sessionFields_iff.mp hvalue
  exact (Prod.mk.inj hfield).1

theorem session_not_mem_names (url : Url) :
    "mcp-session-id" ∉
      NamedFields.names (library.userFields url ++ fixedFields) := by
  intro hname
  obtain ⟨_, hfield⟩ := NamedFields.exists_mem_of_mem_names hname
  rcases List.mem_append.mp hfield with huser | hfixed
  · obtain ⟨_, _, hsame⟩ := mem_userFields_iff.mp huser
    exact absurd (Prod.mk.inj hsame).1 (by decide)
  · exact not_mem_fixedFields (by decide) (by decide) hfixed

/-- Nothing but the transport's own headers and a user of the address is there
before the credentials. -/
theorem consistent_base (url : Url) (session : Option String) :
    NamedFields.Consistent
      (library.userFields url ++ fixedFields ++ sessionFields session) := by
  have hfixed : NamedFields.Consistent fixedFields := by
    apply NamedFields.consistent_append_of_disjoint
      (NamedFields.consistent_singleton ("content-type", "application/json"))
      (NamedFields.consistent_singleton
        ("accept", "application/json, text/event-stream"))
    decide
  have huser : NamedFields.Consistent
      (library.userFields url ++ fixedFields) := by
    apply NamedFields.consistent_append_of_disjoint
      (consistent_optional _ _) hfixed
    intro name hname
    obtain ⟨value, hvalue⟩ := NamedFields.exists_mem_of_mem_names hname
    obtain ⟨text, _, hfield⟩ := mem_userFields_iff.mp hvalue
    obtain ⟨rfl, rfl⟩ := Prod.mk.inj hfield
    decide
  apply NamedFields.consistent_append_of_disjoint huser
    (consistent_optional _ _)
  intro name hname hsession
  rw [eq_of_mem_names_sessionFields hsession] at hname
  exact session_not_mem_names url hname

/-! ## The transport with server-sent events delivers -/

section Sse

variable {self : HttpSseConnection} {headers : StringMap String}
  {auth : AuthConfig} {entries : HeaderMap}

theorem mem_sseFields_iff {url : Url} {field : String × String} :
    field ∈ sseFields library url headers ↔
      field ∈ library.userFields url ∨ field ∈ fixedFields ∨
        field ∈ customFields library headers := by
  rw [sseFields, List.mem_append, List.mem_append, or_assoc]

/-- The custom headers of a request that all arrive are consistent with what
was there before. -/
theorem consistent_of_sent
    (hdefaults : self.defaultHeaders = NamedFields.putAll [] entries)
    (hentries : ∀ field,
      field ∈ entries ↔ field ∈ customFields library headers)
    (hsent : ∀ fields, self.Posts library fields →
      CredentialsSent library headers auth fields)
    {session : Option String}
    (hsession : ∀ text ∈ session, library.isHeaderValue text = true) :
    NamedFields.Consistent
      (library.userFields self.baseUrl ++ fixedFields ++
        sessionFields session ++ entries) := by
  have hposted := hsent _ (HttpSseConnection.posts_iff.mpr
    ⟨session, hsession, rfl⟩)
  apply (NamedFields.subset_fill_putAll_iff
    (consistent_base self.baseUrl session) entries).mp
  intro field hfield
  obtain ⟨name, value, hmem, hvalid⟩ :=
    mem_customFields_iff.mp ((hentries field).mp hfield)
  rw [← hdefaults]
  exact hposted.custom name value hmem field hvalid

theorem sseDelivers_of_sent
    (hdefaults : self.defaultHeaders = NamedFields.putAll [] entries)
    (hentries : ∀ field,
      field ∈ entries ↔ field ∈ customFields library headers)
    (hsent : ∀ fields, self.Posts library fields →
      CredentialsSent library headers auth fields) :
    SseDelivers library self.baseUrl headers auth := by
  have hconsistent : ∀ session : Option String,
      (∀ text ∈ session, library.isHeaderValue text = true) →
      NamedFields.Consistent
        (library.userFields self.baseUrl ++ fixedFields ++
          sessionFields session ++ entries) :=
    fun _ hsession => consistent_of_sent hdefaults hentries hsent hsession
  have hfirst := hsent _ (HttpSseConnection.posts_iff.mpr
    ⟨none, nofun, rfl⟩)
  rw [hdefaults] at hfirst
  refine ⟨?_, ?_, ?_, ?_⟩
  · intro name value hprescribed
    obtain ⟨field, hfield, hvalid⟩ :=
      hfirst.prescribed name value hprescribed
    refine ⟨field, ?_, hvalid⟩
    rcases List.mem_append.mp
      (NamedFields.mem_of_mem_fill_putAll hfield) with hbase | hentry
    · rw [append_sessionFields_none] at hbase
      exact List.mem_append_left _ hbase
    · exact List.mem_append_right _ ((hentries field).mp hentry)
  · apply (hconsistent none nofun).subset
    intro field hfield
    rw [append_sessionFields_none]
    rcases List.mem_append.mp hfield with hbase | hcustom
    · exact List.mem_append_left _ hbase
    · exact List.mem_append_right _ ((hentries field).mpr hcustom)
  · -- A server can name two sessions, and the header is equal to one only.
    intro hname
    obtain ⟨value, hvalue⟩ := NamedFields.exists_mem_of_mem_names hname
    have hsame : ∀ text, isVisible text = true → value = text := by
      intro text hvisible
      have hvalid : ∀ other ∈ some text,
          library.isHeaderValue other = true := by
        rintro other hother
        obtain rfl := Option.some.inj hother
        exact library.isHeaderValue_visible _ hvisible
      apply hconsistent (some text) hvalid "mcp-session-id" value text
      · exact List.mem_append_right _ ((hentries _).mpr hvalue)
      · exact List.mem_append_left _ (List.mem_append_right _
          (mem_sessionFields_iff.mpr ⟨text, rfl, rfl⟩))
    have hdifferent : "a" = "b" :=
      (hsame "a" (by decide)).symm.trans (hsame "b" (by decide))
    exact absurd hdifferent (by decide)
  · intro field hfield
    apply hfirst.nothingElse field
    · exact NamedFields.mem_fill_of_mem
        (List.mem_append_left _ (List.mem_append_left _ hfield)) _
    · obtain ⟨text, _, rfl⟩ := mem_userFields_iff.mp hfield
      exact authorization_not_own

/-- In any session the request is what the sources give, with the session. -/
theorem SseDelivers.mem_iff {url : Url}
    (hdelivers : SseDelivers library url headers auth)
    (hentries : ∀ field,
      field ∈ entries ↔ field ∈ customFields library headers)
    (session : Option String) (field : String × String) :
    field ∈ NamedFields.fill
        (library.userFields url ++ fixedFields ++ sessionFields session)
        (NamedFields.putAll [] entries) ↔
      field ∈ sseFields library url headers ∨
        field ∈ sessionFields session := by
  have harranged : ∀ other,
      other ∈ library.userFields url ++ fixedFields ++ sessionFields session ++
          entries ↔
        other ∈ sseFields library url headers ++ sessionFields session := by
    intro other
    simp only [sseFields, List.mem_append, hentries other]
    exact or_right_comm
  have hconsistent : NamedFields.Consistent
      (library.userFields url ++ fixedFields ++ sessionFields session ++
        entries) := by
    refine (NamedFields.consistent_append_of_disjoint hdelivers.consistent
      (consistent_optional "mcp-session-id" session) ?_).subset
      (fun other hother => (harranged other).mp hother)
    intro name hname hsession
    rw [eq_of_mem_names_sessionFields hsession, sseFields, NamedFields.names,
      List.map_append] at hname
    rcases List.mem_append.mp hname with hbase | hcustom
    · exact session_not_mem_names url hbase
    · exact hdelivers.session hcustom
  rw [NamedFields.mem_fill_putAll_iff hconsistent, harranged field,
    List.mem_append]

theorem SseDelivers.sent
    (hdelivers : SseDelivers library self.baseUrl headers auth)
    (hdefaults : self.defaultHeaders = NamedFields.putAll [] entries)
    (hentries : ∀ field,
      field ∈ entries ↔ field ∈ customFields library headers)
    {fields : HeaderMap} (hposts : self.Posts library fields) :
    CredentialsSent library headers auth fields := by
  obtain ⟨session, _, rfl⟩ := HttpSseConnection.posts_iff.mp hposts
  rw [hdefaults]
  have hmem := hdelivers.mem_iff hentries session
  refine ⟨?_, ?_, ?_⟩
  · intro name value hprescribed
    obtain ⟨field, hfield, hvalid⟩ :=
      hdelivers.prescribed name value hprescribed
    exact ⟨field, (hmem field).mpr (Or.inl hfield), hvalid⟩
  · intro name value hcustom field hvalid
    apply (hmem field).mpr
    exact Or.inl (mem_sseFields_iff.mpr (Or.inr (Or.inr
      (mem_customFields_iff.mpr ⟨name, value, hcustom, hvalid⟩))))
  · intro field hfield hown
    rcases (hmem field).mp hfield with hsource | hsession
    · rcases mem_sseFields_iff.mp hsource with huser | hfixed | hcustom
      · exact hdelivers.user field huser
      · exact absurd (own_of_mem_fixedFields hfixed) hown
      · exact wanted_of_custom hcustom
    · obtain ⟨_, _, rfl⟩ := mem_sessionFields_iff.mp hsession
      exact absurd (show "mcp-session-id" ∈ ownNames by decide) hown

end Sse

/-! ## The streaming transport delivers -/

section Stream

variable {headers : StringMap String} {auth : AuthConfig}
  {authorization : String}

theorem mem_streamFields_iff {url : Url} {field : String × String} :
    field ∈ streamFields library url authorization ↔
      field ∈ library.userFields url ∨ field ∈ fixedFields ∨
        field = ("authorization", authorization) := by
  rw [streamFields, List.mem_append, List.mem_append, or_assoc,
    List.mem_singleton]

/-- The requests of a transport whose authorization is a header value. -/
theorem HttpStreamConnection.posts_iff_of_valid {json : SerdeJson}
    {self : HttpStreamConnection} {fields : HeaderMap}
    (hheader : self.authHeader = some authorization)
    (hvalid : library.isHeaderValue authorization = true) :
    self.Posts json library fields ↔
      ∃ session : Option String,
        (∀ text ∈ session, library.isHeaderValue text = true) ∧
          fields = streamFields library self.address authorization ++
            sessionFields session := by
  rw [HttpStreamConnection.posts_iff, hheader]
  constructor
  · rintro ⟨session, _, hsession, hfields⟩
    exact ⟨session, hsession, hfields⟩
  · rintro ⟨session, hsession, hfields⟩
    refine ⟨session, fun text htext => ?_, hsession, hfields⟩
    rwa [← Option.some.inj htext]

theorem HttpStreamConnection.not_posts {json : SerdeJson}
    {self : HttpStreamConnection} {fields : HeaderMap}
    (hheader : self.authHeader = some authorization)
    (hvalid : library.isHeaderValue authorization = false) :
    ¬ self.Posts json library fields := by
  intro hposts
  obtain ⟨_, hauthorization, _⟩ := HttpStreamConnection.posts_iff.mp hposts
  have htrue := hauthorization authorization hheader
  exact absurd (hvalid.symm.trans htrue) (by decide)

/-- Whatever the scheme, once its text is sent: the text is the authorization
that was wanted, and what was prescribed is there. -/
theorem stream_sent_iff {json : SerdeJson} {self : HttpStreamConnection}
    (hheader : self.authHeader = some authorization)
    (hvalid : library.isHeaderValue authorization = true) :
    (∀ fields, self.Posts json library fields →
        CredentialsSent library headers auth fields) ↔
      StreamKeeps library self.address headers auth authorization ∧
        (∀ name value, auth.prescribed = some (name, value) →
          ∃ field ∈ streamFields library self.address authorization,
            library.field name value = some field) ∧
        Wanted library headers auth ("authorization", authorization) := by
  constructor
  · intro hsent
    have hfirst := hsent _
      ((HttpStreamConnection.posts_iff_of_valid hheader hvalid).mpr
        ⟨none, nofun, rfl⟩)
    rw [append_sessionFields_none] at hfirst
    refine ⟨⟨?_, ?_⟩, hfirst.prescribed, ?_⟩
    · intro field hfield
      obtain ⟨name, value, hmem, hcustom⟩ := mem_customFields_iff.mp hfield
      exact hfirst.custom name value hmem field hcustom
    · intro field hfield
      apply hfirst.nothingElse field (mem_streamFields_iff.mpr (Or.inl hfield))
      obtain ⟨_, _, rfl⟩ := mem_userFields_iff.mp hfield
      exact authorization_not_own
    · exact hfirst.nothingElse _
        (mem_streamFields_iff.mpr (Or.inr (Or.inr rfl))) authorization_not_own
  · rintro ⟨hkeeps, hprescribed, hwanted⟩ fields hposts
    obtain ⟨session, _, rfl⟩ :=
      (HttpStreamConnection.posts_iff_of_valid hheader hvalid).mp hposts
    refine ⟨?_, ?_, ?_⟩
    · intro name value hscheme
      obtain ⟨field, hfield, hsame⟩ := hprescribed name value hscheme
      exact ⟨field, List.mem_append_left _ hfield, hsame⟩
    · intro name value hmem field hcustom
      exact List.mem_append_left _ (hkeeps.custom field
        (mem_customFields_iff.mpr ⟨name, value, hmem, hcustom⟩))
    · intro field hfield hown
      rcases List.mem_append.mp hfield with hstream | hsession
      · rcases mem_streamFields_iff.mp hstream with huser | hfixed | rfl
        · exact hkeeps.user field huser
        · exact absurd (own_of_mem_fixedFields hfixed) hown
        · exact hwanted
      · obtain ⟨_, _, rfl⟩ := mem_sessionFields_iff.mp hsession
        exact absurd (show "mcp-session-id" ∈ ownNames by decide) hown

/-! What the four schemes make of it. -/

theorem isVisible_basic (bytes : Bytes) :
    isVisible ("Basic " ++ String.ofList (Base64.encode bytes)) = true := by
  have halphabet : ∀ char ∈ Base64.alphabet,
      (32 ≤ char.toNat && char.toNat < 127) = true :=
    List.all_eq_true.mp (by decide)
  obtain ⟨body, hbody, hencode⟩ := Base64.exists_encode_eq_append bytes
  rw [isVisible, String.toList_append, List.all_append, Bool.and_eq_true]
  refine ⟨by decide, ?_⟩
  rw [String.toList_ofList, hencode, List.all_append, Bool.and_eq_true,
    List.all_eq_true, List.all_eq_true]
  refine ⟨fun char hchar => halphabet char (hbody char hchar), ?_⟩
  intro char hchar
  rw [List.eq_of_mem_replicate hchar]
  decide

theorem authHeader_basic (username password : String) :
    (AuthConfig.basic username password).authHeader =
      some ("Basic " ++ String.ofList
        (Base64.encode (asBytes (username ++ ":" ++ password)))) := by
  rw [AuthConfig.authHeader, base64Encode_eq]
  rfl

theorem ne_bearer_append (token : String) : token ≠ "Bearer " ++ token := by
  intro hsame
  have hlength := congrArg String.length hsame
  rw [String.length_append] at hlength
  have hword : "Bearer ".length = 7 := by decide
  omega

theorem basic_ne_bearer (code token : String) :
    "Basic " ++ code ≠ "Bearer " ++ token := by
  intro hsame
  have hlists := congrArg String.toList hsame
  rw [String.toList_append, String.toList_append] at hlists
  have hsecond := congrArg (fun chars => chars[1]?) hlists
  exact absurd hsecond (by simp)

section Schemes

variable {json : SerdeJson} {self : HttpStreamConnection}

theorem stream_basic_iff {username password : String}
    (hheader : self.authHeader =
      (AuthConfig.basic username password).authHeader) :
    (∀ fields, self.Posts json library fields →
        CredentialsSent library headers (.basic username password) fields) ↔
      StreamDelivers library self.address headers
        (.basic username password) := by
  have hvalid := library.isHeaderValue_visible _
    (isVisible_basic (asBytes (username ++ ":" ++ password)))
  rw [authHeader_basic] at hheader
  rw [stream_sent_iff hheader hvalid, StreamDelivers]
  constructor
  · exact fun hsent => hsent.1
  · intro hkeeps
    refine ⟨hkeeps, ?_, wanted_of_prescribed rfl (field_authorization hvalid)⟩
    intro name value hscheme
    obtain ⟨rfl, rfl⟩ := Prod.mk.inj (Option.some.inj hscheme)
    exact ⟨_, mem_streamFields_iff.mpr (Or.inr (Or.inr rfl)),
      field_authorization hvalid⟩

theorem stream_bearer_iff {token : String}
    (hheader : self.authHeader = (AuthConfig.bearer token).authHeader) :
    (∀ fields, self.Posts json library fields →
        CredentialsSent library headers (.bearer token) fields) ↔
      StreamDelivers library self.address headers (.bearer token) := by
  rw [StreamDelivers]
  cases hvalid : library.isHeaderValue token with
  | false =>
      refine ⟨fun _ => rfl, fun _ fields hposts => ?_⟩
      exact absurd hposts (HttpStreamConnection.not_posts hheader hvalid)
  | true =>
      rw [stream_sent_iff hheader hvalid]
      refine ⟨?_, fun hfalse => absurd hfalse (by decide)⟩
      rintro ⟨_, hprescribed, _⟩
      obtain ⟨field, hfield, hsame⟩ := hprescribed _ _ rfl
      obtain ⟨_, hspelled, _, rfl⟩ := field_eq_some_iff.mp hsame
      -- The header of the scheme is nowhere among what is sent.
      rcases mem_streamFields_iff.mp hfield with huser | hfixed | hsent
      · obtain ⟨text, htext, hequal⟩ := mem_userFields_iff.mp huser
        obtain ⟨code, rfl⟩ := library.userAuthorization_basic _ _ htext
        exact absurd (Prod.mk.inj hequal).2.symm (basic_ne_bearer code token)
      · rw [headerName_authorization] at hspelled
        obtain rfl := Option.some.inj hspelled
        exact absurd hfixed (not_mem_fixedFields (by decide) (by decide))
      · exact absurd (Prod.mk.inj hsent).2.symm (ne_bearer_append token)

theorem stream_oauth_iff {clientId clientSecret : String} {tokenUrl : Url}
    (hheader : self.authHeader =
      (AuthConfig.oauth clientId clientSecret tokenUrl).authHeader) :
    (∀ fields, self.Posts json library fields →
        CredentialsSent library headers
          (.oauth clientId clientSecret tokenUrl) fields) ↔
      StreamDelivers library self.address headers
        (.oauth clientId clientSecret tokenUrl) := by
  have hvalid := library.isHeaderValue_visible "Bearer oauth-token" (by decide)
  rw [stream_sent_iff hheader hvalid, StreamDelivers]
  constructor
  · rintro ⟨hkeeps, _, name, value, hsource, hfield⟩
    refine ⟨hkeeps, mem_customFields_iff.mpr ⟨name, value, ?_, hfield⟩⟩
    exact hsource.resolve_left nofun
  · rintro ⟨hkeeps, hcustom⟩
    exact ⟨hkeeps, nofun, wanted_of_custom hcustom⟩

theorem stream_header_iff {name value : String}
    (hheader : self.authHeader = (AuthConfig.header name value).authHeader) :
    (∀ fields, self.Posts json library fields →
        CredentialsSent library headers (.header name value) fields) ↔
      StreamDelivers library self.address headers (.header name value) := by
  rw [StreamDelivers]
  cases hvalid : library.isHeaderValue value with
  | false =>
      refine ⟨fun _ => Or.inl rfl, fun _ fields hposts => ?_⟩
      exact absurd hposts (HttpStreamConnection.not_posts hheader hvalid)
  | true =>
      rw [stream_sent_iff hheader hvalid, or_iff_right (by decide)]
      constructor
      · rintro ⟨hkeeps, hprescribed, hwanted⟩
        refine ⟨hkeeps, ?_⟩
        obtain ⟨field, hfield, hsame⟩ := hprescribed _ _ rfl
        obtain ⟨spelled, hspelled, _, rfl⟩ := field_eq_some_iff.mp hsame
        by_cases hname : library.headerName name = some "authorization"
        · exact Or.inl hname
        · right
          constructor
          · refine ⟨_, ?_, hsame⟩
            rcases mem_streamFields_iff.mp hfield with huser | hfixed | hsent
            · obtain ⟨_, _, hequal⟩ := mem_userFields_iff.mp huser
              rw [(Prod.mk.inj hequal).1] at hspelled
              exact absurd hspelled hname
            · exact hfixed
            · rw [(Prod.mk.inj hsent).1] at hspelled
              exact absurd hspelled hname
          · obtain ⟨other, text, hsource, hother⟩ := hwanted
            rcases hsource with hscheme | hcustom
            · obtain ⟨rfl, rfl⟩ := Prod.mk.inj (Option.some.inj hscheme)
              obtain ⟨found, hfound, _, hequal⟩ := field_eq_some_iff.mp hother
              rw [← (Prod.mk.inj hequal).1] at hfound
              exact absurd hfound hname
            · exact mem_customFields_iff.mpr ⟨other, text, hcustom, hother⟩
      · rintro ⟨hkeeps, hname | ⟨⟨field, hfixed, hsame⟩, hcustom⟩⟩
        · have hsame : library.field name value =
              some ("authorization", value) :=
            field_eq_some_iff.mpr ⟨_, hname, hvalid, rfl⟩
          refine ⟨hkeeps, ?_, wanted_of_prescribed rfl hsame⟩
          intro other text hscheme
          obtain ⟨rfl, rfl⟩ := Prod.mk.inj (Option.some.inj hscheme)
          exact ⟨_, mem_streamFields_iff.mpr (Or.inr (Or.inr rfl)), hsame⟩
        · refine ⟨hkeeps, ?_, wanted_of_custom hcustom⟩
          intro other text hscheme
          obtain ⟨rfl, rfl⟩ := Prod.mk.inj (Option.some.inj hscheme)
          exact ⟨field, mem_streamFields_iff.mpr (Or.inr (Or.inl hfixed)),
            hsame⟩

theorem stream_delivers_iff
    (hheader : self.authHeader = auth.authHeader) :
    (∀ fields, self.Posts json library fields →
        CredentialsSent library headers auth fields) ↔
      StreamDelivers library self.address headers auth := by
  cases auth with
  | basic username password => exact stream_basic_iff hheader
  | bearer token => exact stream_bearer_iff hheader
  | oauth clientId clientSecret tokenUrl => exact stream_oauth_iff hheader
  | header name value => exact stream_header_iff hheader

end Schemes

end Stream

/-! ## What the factory builds -/

theorem HttpSseConnection.buildHttpClient_eq_ok {order : MapOrder}
    {config : HttpSseConfig} {headers : HeaderMap}
    (hbuild : buildHttpClient library order config = .ok headers) :
    headers = NamedFields.putAll []
      ((order.arrange config.headers.members).filterMap
        (fun entry => library.field entry.1 entry.2)) := by
  unfold buildHttpClient at hbuild
  split at hbuild
  · obtain rfl := Except.ok.inj hbuild
    rw [NamedFields.putAll, List.foldl_filterMap]
    congr 1
    funext headers entry
    rw [insertHeader]
    cases library.field entry.1 entry.2 <;> rfl
  · exact absurd hbuild nofun

theorem HttpSseConnection.new_eq_ok {order : MapOrder}
    {config : HttpSseConfig} {transport : HttpSseConnection}
    (hnew : HttpSseConnection.new library order config = .ok transport) :
    transport.baseUrl = config.baseUrl ∧
      ∃ entries, transport.defaultHeaders = NamedFields.putAll [] entries ∧
        ∀ field,
          field ∈ entries ↔ field ∈ customFields library config.headers := by
  unfold HttpSseConnection.new at hnew
  split at hnew
  · exact absurd hnew nofun
  · rename_i headers hbuild
    split at hnew
    · exact absurd hnew nofun
    · obtain rfl := Except.ok.inj hnew
      refine ⟨rfl, _, buildHttpClient_eq_ok hbuild, fun field => ?_⟩
      -- The map is gone through in an order of its own.
      exact ((order.perm config.headers.members).filterMap _).mem_iff

theorem create_httpSse {order : MapOrder} {pathExists : String → Bool}
    {config : HttpSseConfig} {transport : Transport}
    (hcreate : TransportFactory.create library order pathExists
      (.httpSse config) = .ok transport) :
    ∃ connection, transport = .httpSse connection ∧
      HttpSseConnection.new library order config = .ok connection := by
  unfold TransportFactory.create at hcreate
  split at hcreate
  · exact absurd hcreate nofun
  · dsimp only at hcreate
    split at hcreate
    · rename_i connection hnew
      exact ⟨connection, (Except.ok.inj hcreate).symm, hnew⟩
    · exact absurd hcreate nofun

theorem create_httpStream {order : MapOrder} {pathExists : String → Bool}
    {config : HttpStreamConfig} {transport : Transport}
    (hcreate : TransportFactory.create library order pathExists
      (.httpStream config) = .ok transport) :
    transport = .httpStream (HttpStreamConnection.new config.baseUrl
      (config.auth.bind AuthConfig.authHeader)) := by
  unfold TransportFactory.create at hcreate
  split at hcreate
  · exact absurd hcreate nofun
  · exact (Except.ok.inj hcreate).symm

/-- Every post of a transport carries its credentials. -/
def Transport.Sends (json : SerdeJson) (library : HttpLibrary)
    (headers : StringMap String) (auth : AuthConfig)
    (transport : Transport) : Prop :=
  ∀ fields, transport.Posts json library fields →
    CredentialsSent library headers auth fields

theorem sends_iff {json : SerdeJson} {order : MapOrder}
    {pathExists : String → Bool} {config : TransportConfig}
    {auth : AuthConfig} {transport : Transport}
    (hauth : config.auth = some auth)
    (hcreate : TransportFactory.create library order pathExists config =
      .ok transport) :
    transport.Sends json library config.headers auth ↔
      config.Delivers library auth := by
  cases config with
  | stdio config => exact absurd hauth nofun
  | httpSse config =>
      obtain ⟨connection, rfl, hnew⟩ := create_httpSse hcreate
      obtain ⟨hurl, entries, hdefaults, hentries⟩ :=
        HttpSseConnection.new_eq_ok hnew
      rw [TransportConfig.Delivers, ← hurl]
      constructor
      · intro hsent
        exact sseDelivers_of_sent hdefaults hentries hsent
      · intro hdelivers fields hposts
        exact hdelivers.sent hdefaults hentries hposts
  | httpStream config =>
      obtain rfl := create_httpStream hcreate
      apply stream_delivers_iff
      change config.auth.bind AuthConfig.authHeader = auth.authHeader
      have hconfig : config.auth = some auth := hauth
      rw [hconfig, Option.bind_some]

/-- A configuration's transport sends its credentials exactly when what the
transport looks at is enough for it; two transports that both do so for the
same credentials differ in their own headers only. -/
theorem credentials_sent_iff {json : SerdeJson} {order : MapOrder}
    {pathExists : String → Bool} {config : TransportConfig}
    {auth : AuthConfig} {transport : Transport}
    (hauth : config.auth = some auth)
    (hcreate : TransportFactory.create library order pathExists config =
      .ok transport) :
    (transport.Sends json library config.headers auth ↔
        config.Delivers library auth) ∧
      ∀ (other : TransportConfig) (created : Transport),
        other.auth = some auth → other.headers = config.headers →
        TransportFactory.create library order pathExists other =
          .ok created →
        config.Delivers library auth → other.Delivers library auth →
        ∀ fields, transport.Posts json library fields →
        ∀ others, created.Posts json library others →
        ∀ field : String × String, field.1 ∉ ownNames →
          (field ∈ fields ↔ field ∈ others) := by
  refine ⟨sends_iff hauth hcreate, ?_⟩
  intro other created hother hheaders hcreated hdelivers hdelivered fields
    hposts others hposted field hown
  have hsent := (sends_iff hauth hcreate).mpr hdelivers fields hposts
  have hsame := (sends_iff hother hcreated).mpr hdelivered others hposted
  rw [hheaders] at hsame
  rw [hsent.mem_iff hown, hsame.mem_iff hown]

end Credentials

/-! ## Two configurations -/

/-- The words among the names and the visible texts among the values. -/
def wordLibrary : HttpLibrary where
  headerName text :=
    if isHeaderWord text then
      some (String.ofList (text.toList.map Char.toLower))
    else none
  isHeaderValue := isVisible
  userAuthorization _ := none
  build := .ok ()
  headerName_word _ hword := if_pos hword
  isHeaderValue_visible _ hvisible := hvisible
  userAuthorization_basic _ _ := nofun

/-- The order of the names. -/
def byName : MapOrder := Common.IpcConnection.tableSerde.order

def bodyJson : SerdeJson where
  parse _ := .error "expected value at line 1 column 1"
  floats := ⟨fun _ => "0.0", fun _ => none⟩
  mismatch _ := "invalid type"

def exampleUrl : Url where
  text := "https://api.example.com/mcp"
  scheme := "https"
  userinfo := ""
  host := some "api.example.com"
  path := "/mcp"

def passwordStream : TransportConfig :=
  .httpStream
    { baseUrl := exampleUrl
      headers := .empty
      auth := some (.basic "user" "pass")
      flowControlWindow := 65536 }

theorem passwordStream_sent :
    ∃ transport,
      TransportFactory.create wordLibrary byName (fun _ => true)
        passwordStream = .ok transport ∧
      transport.Sends bodyJson wordLibrary passwordStream.headers
        (.basic "user" "pass") := by
  have hauth : passwordStream.auth = some (.basic "user" "pass") := rfl
  have hcreate :
      TransportFactory.create wordLibrary byName (fun _ => true)
          passwordStream =
        .ok (.httpStream (HttpStreamConnection.new exampleUrl
          (AuthConfig.basic "user" "pass").authHeader)) := rfl
  refine ⟨_, hcreate, (credentials_sent_iff hauth hcreate).1.mpr ?_⟩
  exact ⟨fun _ hfield => absurd hfield List.not_mem_nil,
    fun _ hfield => absurd hfield List.not_mem_nil⟩

def keyHeaders : StringMap String :=
  ⟨[("X-Api-Key", "k1")], List.pairwise_singleton _ _⟩

def tokenStream : TransportConfig :=
  .httpStream
    { baseUrl := exampleUrl
      headers := keyHeaders
      auth := some (.bearer "secret")
      flowControlWindow := 65536 }

def tokenSse : TransportConfig :=
  .httpSse
    { baseUrl := exampleUrl
      headers := keyHeaders
      auth := some (.bearer "secret") }

/-- One configuration on both transports: one sends the bare token and no key,
the other the key and no token. -/
theorem token_not_sent :
    (∃ transport,
      TransportFactory.create wordLibrary byName (fun _ => true)
          tokenStream = .ok transport ∧
        transport.Posts bodyJson wordLibrary
          (fixedFields ++ [("authorization", "secret")])) ∧
      (∃ transport,
        TransportFactory.create wordLibrary byName (fun _ => true)
            tokenSse = .ok transport ∧
          transport.Posts bodyJson wordLibrary
            (fixedFields ++ [("x-api-key", "k1")])) ∧
      ¬ CredentialsSent wordLibrary keyHeaders (.bearer "secret")
        (fixedFields ++ [("authorization", "secret")]) ∧
      ¬ CredentialsSent wordLibrary keyHeaders (.bearer "secret")
        (fixedFields ++ [("x-api-key", "k1")]) := by
  have hfield : wordLibrary.field "Authorization" "Bearer secret" =
      some ("authorization", "Bearer secret") := by decide
  have hmissing : ∀ fields : HeaderMap,
      ("authorization", "Bearer secret") ∉ fields →
      ¬ CredentialsSent wordLibrary keyHeaders (.bearer "secret") fields := by
    intro fields habsent hsent
    obtain ⟨field, hmem, hsame⟩ := hsent.prescribed _ _ rfl
    change wordLibrary.field "Authorization" "Bearer secret" =
      some field at hsame
    rw [hfield, Option.some.injEq] at hsame
    exact absurd (hsame ▸ hmem) habsent
  refine ⟨⟨_, rfl, ?_⟩, ⟨_, rfl, ?_⟩, ?_, ?_⟩
  · exact HttpStreamConnection.Posts.firstRequest
      ⟨"2.0", .number 1, "initialize", none⟩ (by decide +kernel)
  · exact HttpSseConnection.Posts.notification none (by decide +kernel)
  · exact hmissing _ (by decide)
  · exact hmissing _ (by decide)

end Core
end Acdp
