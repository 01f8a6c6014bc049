import ReproitCloud.Contracts.Trace
import ReproitCloud.Lib.Lexemes
import ReproitCloud.Lib.Origins
import ReproitCloud.Lib.Outline

/-!
# Contract capture

`capture` stands in front of the routes.  A request with a readable `x-reproit-trace` that
goes to one of five operations is observed: its body and the body of the response are read
whole, a trace gets what they parse to, and the response gets the events of the trace in a
header.  Any other request goes through.

A body of a request is read up to the limit of the server.  A body of a response is read up
to `maxResponseBytes`, and a longer one is lost.

* `capture_transparent_iff`: the handler is given the request as it came, and its response
  comes back with no other change than the events header, exactly when the request is not
  observed or the response body is not too long.
* `long_response_is_lost`: a body of four mebibytes and one byte.
-/

namespace ReproitCloud

open Lib

/-! ## Requests and responses -/

/-- A byte that a header value may have. -/
def headerByte (b : UInt8) : Bool := (32 ≤ b && b ≠ 127) || b = 9

/-- `HeaderValue`. -/
structure HeaderValue where
  bytes : List UInt8
  valid : ∀ b ∈ bytes, headerByte b = true

/-- `HeaderValue::to_str`: a value of visible characters, spaces and tabs. -/
def HeaderValue.toStr (v : HeaderValue) : Option String :=
  if v.bytes.all fun b => (32 ≤ b && b < 127) || b = 9 then
    some (String.ofList (v.bytes.map fun b => Char.ofNat b.toNat))
  else none

/-- `HeaderMap`, with one row for every value of a name. -/
abbrev HeaderMap := List (String × HeaderValue)

/-- `HeaderMap::get`: the first value of a name. -/
def HeaderMap.get (headers : HeaderMap) (name : String) : Option HeaderValue := headers.lookup name

/-- `HeaderMap::insert`: the only value of a name. -/
def HeaderMap.insert (headers : HeaderMap) (name : String) (value : HeaderValue) : HeaderMap :=
  headers.filter (fun h => h.1 ≠ name) ++ [(name, value)]

/-- The headers of other names. -/
def HeaderMap.except (headers : HeaderMap) (name : String) : HeaderMap :=
  headers.filter fun h => h.1 ≠ name

@[simp] theorem HeaderMap.except_insert (headers : HeaderMap) (name : String)
    (value : HeaderValue) : (headers.insert name value).except name = headers.except name := by
  simp [insert, except]

/-- A request. -/
structure HttpRequest where
  method : String
  path : String
  query : Option String := none
  headers : HeaderMap := []
  body : List UInt8 := []

/-- A response. -/
structure HttpResponse where
  status : UInt16
  headers : HeaderMap := []
  body : List UInt8 := []

/-- `to_bytes`. -/
def toBytes (body : List UInt8) (limit : Nat) : Option (List UInt8) :=
  if body.length ≤ limit then some body else none

/-! ## Operations -/

/-- `Endpoint`. -/
structure Endpoint where
  method : String
  routerPath : String
  openapiPath : String
  operation : String

/-- The first four `ENDPOINTS`, which have no parameters. -/
def plainEndpoints : List Endpoint :=
  [⟨"post", "/auth/signup", "/auth/signup", "cloudSignup"⟩,
    ⟨"post", "/account/projects", "/account/projects", "cloudCreateProject"⟩,
    ⟨"post", "/v1/events", "/v1/events", "cloudIngestEvents"⟩,
    ⟨"get", "/v1/me", "/v1/me", "cloudGetMe"⟩]

/-- The last of `ENDPOINTS`. -/
def replayEndpoint : Endpoint :=
  ⟨"post", "/v1/apps/:app/buckets/:bucket/replay-results",
    "/v1/apps/{app}/buckets/{bucket}/replay-results", "cloudRecordReplay"⟩

/-- `operation`: the name of the operation, and the parameters of its path. -/
def operation (method path : String) : Option (String × Context) :=
  match plainEndpoints.find? fun endpoint =>
    smallLetters method.toList = smallLetters endpoint.method.toList ∧
      path = endpoint.routerPath with
  | some endpoint => some (endpoint.operation, Table.empty)
  | none =>
    if method = "POST" then
      match ((strip (· = '/') path.toList).splitOn '/').map String.ofList with
      | ["v1", "apps", app, "buckets", bucket, "replay-results"] =>
        some (replayEndpoint.operation,
          Context.extend Table.empty [("app", .string app), ("bucket", .string bucket)])
      | _ => none
    else none

/-! ## Capture -/

/-- The limit of the server for a request body, which `capture` reads up to. -/
def maxRequestBytes : Nat := 32 * 1024 * 1024

/-- The length up to which `capture` reads a response body. -/
def maxResponseBytes : Nat := 4 * 1024 * 1024

/-- What is outside the module: the JSON library, SHA-256, and what the process does beside
this request. -/
structure CaptureEnv where
  /-- `serde_json::from_slice`. -/
  parse : List UInt8 → Option Json
  renderings : Renderings
  sha256 : String → List UInt8
  /-- How many numbers were given out before the request. -/
  issued : Nat
  /-- How many numbers other traces take while the handler runs. -/
  others : Nat

/-- What a call of `capture` does. -/
structure Captured where
  /-- The request that the handler was called with, if it was. -/
  passed : Option HttpRequest
  response : HttpResponse

/-- `next.run`. -/
def forward (next : HttpRequest → HttpResponse) (request : HttpRequest) : Captured :=
  ⟨some request, next request⟩

/-- The context of a request. -/
def contextOf (request : HttpRequest) : Option TraceContext :=
  TraceContext.fromHeaderFn fun name => (request.headers.get name).bind HeaderValue.toStr

theorem toNat_of_base64Char {c : Char} (h : base64Char c = true) :
    32 ≤ c.toNat ∧ c.toNat < 127 := by
  simp only [base64Char, Char.isAlphanum, Char.isAlpha, Char.isUpper, Char.isLower, Char.isDigit,
    Bool.or_eq_true, Bool.and_eq_true, decide_eq_true_eq, UInt32.le_iff_toNat_le, ge_iff_le] at h
  rcases h with (((h | h) | h) | rfl) | rfl
  · exact ⟨le_trans (by decide) h.1, lt_of_le_of_lt h.2 (by decide)⟩
  · exact ⟨le_trans (by decide) h.1, lt_of_le_of_lt h.2 (by decide)⟩
  · exact ⟨le_trans (by decide) h.1, lt_of_le_of_lt h.2 (by decide)⟩
  · decide
  · decide

/-- A base64 text may stand in a header. -/
theorem headerByte_of_base64Char {c : Char} (h : base64Char c = true) :
    headerByte (UInt8.ofNat c.toNat) = true := by
  have hvisible : ∀ n < 127, 32 ≤ n → headerByte (UInt8.ofNat n) = true := by decide
  obtain ⟨hlow, hhigh⟩ := toNat_of_base64Char h
  exact hvisible c.toNat hhigh hlow

theorem base64_of_header {R : Renderings} {s : Tracing} {encoded : List Char}
    (h : s.header R = .ok encoded) : ∀ c ∈ encoded, base64Char c = true := by
  unfold Tracing.header at h
  split at h
  · cases h
  dsimp only at h
  split at h
  · cases h
    exact fun c hc => base64Char_of_mem_encode hc
  · cases h

/-- The value of `x-reproit-events`.  The text of the header is base64, so `from_str` takes it. -/
def Tracing.eventsHeader (R : Renderings) (s : Tracing) : Option HeaderValue :=
  match h : s.header R with
  | .error _ => none
  | .ok encoded => some
    { bytes := encoded.map fun c => UInt8.ofNat c.toNat
      valid := by
        intro b hb
        obtain ⟨c, hc, rfl⟩ := List.mem_map.1 hb
        exact headerByte_of_base64Char (base64_of_header h c hc) }

/-- `capture`. -/
def capture (E : CaptureEnv) (next : HttpRequest → HttpResponse) (request : HttpRequest) :
    Captured :=
  match contextOf request with
  | none => forward next request
  | some context =>
    match operation request.method request.path with
    | none => forward next request
    | some (operation, pathValues) =>
      match toBytes request.body maxRequestBytes with
      | none => ⟨none, { status := 413 }⟩
      | some bytes =>
        let parsed := (E.parse bytes).getD .null
        let input := if pathValues.rows = [] then parsed
          else .object [("body", parsed), ("path", .object pathValues.rows)]
        let request := { request with body := bytes }
        match Tracing.begin E.sha256 E.issued context operation none none none input [] with
        | .error _ => forward next request
        | .ok trace =>
          let response := next request
          match toBytes response.body maxResponseBytes with
          | none => ⟨some request, { response with body := [] }⟩
          | some bytes =>
            let output := (E.parse bytes).getD .null
            let success := (200 ≤ response.status && response.status < 300) ||
              (300 ≤ response.status && response.status < 400)
            let trace := { trace with issued := trace.issued + E.others }
            let trace := trace.after (.finish output response.status success false)
            let headers :=
              match trace.eventsHeader E.renderings with
              | some value => response.headers.insert "x-reproit-events" value
              | none => response.headers
            ⟨some request, { response with headers := headers, body := bytes }⟩

/-! ## What is observed -/

/-- The request has a readable trace header, goes to an operation, and its span id is not
too long. -/
def observed (request : HttpRequest) : Bool :=
  match contextOf request, operation request.method request.path with
  | some context, some (operation, _) => (context.traceId ++ ":" ++ operation).length ≤ 128
  | _, _ => false

/-- The names of the operations. -/
def operationNames : List String :=
  plainEndpoints.map Endpoint.operation ++ [replayEndpoint.operation]

theorem operation_mem {method path name : String} {values : Context}
    (h : operation method path = some (name, values)) : name ∈ operationNames := by
  unfold operation at h
  split at h
  · rename_i endpoint hfound
    cases h
    exact List.mem_append_left _ (List.mem_map_of_mem (List.mem_of_find?_eq_some hfound))
  · split at h
    · split at h
      · cases h
        exact List.mem_append_right _ (List.mem_singleton_self _)
      · cases h
    · cases h

/-- A text with no blanks around it is as it is. -/
theorem bounded_eq {value : String} {maximum : Nat} (hne : value.toList ≠ [])
    (hfirst : ∀ c, value.toList.head? = some c → isWhitespace c = false)
    (hlast : ∀ c, value.toList.getLast? = some c → isWhitespace c = false) :
    bounded value maximum = if value.length ≤ maximum then some value else none := by
  have htrim : trim value.toList = value.toList := trimEnds_eq_self hfirst hlast
  have hlength : value.toList.length = value.length := String.length_toList
  unfold bounded
  simp only [htrim, hne, ne_eq, not_false_eq_true, true_and, hlength, String.ofList_toList]

/-- A bounded text has no blanks around it. -/
theorem head?_of_bounded {value bound : String} {maximum : Nat}
    (h : bounded value maximum = some bound) :
    bound.toList ≠ [] ∧ ∀ c, bound.toList.head? = some c → isWhitespace c = false := by
  unfold bounded at h
  dsimp only at h
  split at h
  · rename_i hne
    cases h
    rw [String.toList_ofList]
    exact ⟨hne.1, fun c hc => head?_trimEnds (p := isWhitespace) (l := value.toList) hc⟩
  · cases h

theorem bounded_operation {name : String} (h : name ∈ operationNames) :
    bounded name 256 = some name ∧ name.toList ≠ [] ∧
      ∀ c, name.toList.getLast? = some c → isWhitespace c = false := by
  have hall : ∀ name ∈ operationNames, bounded name 256 = some name ∧ name.toList ≠ [] ∧
      name.toList.getLast?.all (fun c => !isWhitespace c) = true := by decide
  obtain ⟨hbound, hne, hlast⟩ := hall name h
  refine ⟨hbound, hne, fun c hc => ?_⟩
  simpa [hc] using hlast

/-- The span id of a traced operation. -/
theorem bounded_span {value traceId name : String} {maximum : Nat}
    (htrace : bounded value maximum = some traceId) (hname : name ∈ operationNames) :
    bounded (traceId ++ ":" ++ name) 128 =
      if (traceId ++ ":" ++ name).length ≤ 128 then some (traceId ++ ":" ++ name) else none := by
  obtain ⟨hne, hfirst⟩ := head?_of_bounded htrace
  obtain ⟨-, hne', hlast⟩ := bounded_operation hname
  have hchars : (traceId ++ ":" ++ name).toList = traceId.toList ++ (':' :: name.toList) := by
    simp
  refine bounded_eq (by simp [hchars]) (fun c hc => ?_) fun c hc => ?_
  · rw [hchars, List.head?_append, List.head?_eq_some_head hne, Option.some_or,
      ← List.head?_eq_some_head hne] at hc
    exact hfirst c hc
  · rw [hchars, List.getLast?_append, List.getLast?_cons, List.getLast?_eq_some_getLast hne',
      Option.getD_some, Option.some_or, ← List.getLast?_eq_some_getLast hne'] at hc
    exact hlast c hc

/-- A traced operation begins a trace unless its span id is too long. -/
theorem begin_isOk_iff (E : CaptureEnv) {request : HttpRequest} {context : TraceContext}
    {name : String} {values : Context} (hcontext : contextOf request = some context)
    (hoperation : operation request.method request.path = some (name, values)) (input : Json) :
    (Tracing.begin E.sha256 E.issued context name none none none input []).isOk =
      observed request := by
  obtain ⟨value, -, hvalue⟩ := Option.bind_eq_some_iff.1 hcontext
  obtain ⟨traceId, htrace, rfl⟩ := Option.map_eq_some_iff.1 hvalue
  have hname := operation_mem hoperation
  have hspan := bounded_span htrace hname
  rw [observed, hcontext, hoperation, Tracing.begin, (bounded_operation hname).1]
  simp only [Option.getD_none, hspan]
  by_cases hshort : (traceId ++ ":" ++ name).length ≤ 128
  · simp only [if_pos hshort, decide_eq_true hshort]
    rfl
  · simp only [if_neg hshort, decide_eq_false hshort]
    rfl

/-! ## Transparency -/

/-- The handler is given the request, and its response comes back, but for the events. -/
structure Transparent (next : HttpRequest → HttpResponse) (request : HttpRequest) (c : Captured) :
    Prop where
  passed : c.passed = some request
  status : c.response.status = (next request).status
  headers : HeaderMap.except c.response.headers "x-reproit-events" =
    HeaderMap.except (next request).headers "x-reproit-events"
  body : c.response.body = (next request).body

theorem transparent_forward (next : HttpRequest → HttpResponse) (request : HttpRequest) :
    Transparent next request (forward next request) := ⟨rfl, rfl, rfl, rfl⟩

section Cases

variable (E : CaptureEnv) (next : HttpRequest → HttpResponse) {request : HttpRequest}

/-- A request that is not observed goes through. -/
theorem capture_of_unobserved (hbody : request.body.length ≤ maxRequestBytes)
    (h : observed request = false) : capture E next request = forward next request := by
  unfold capture
  cases hcontext : contextOf request with
  | none => rfl
  | some context =>
    cases hoperation : operation request.method request.path with
    | none => rfl
    | some r =>
      obtain ⟨name, values⟩ := r
      simp only [toBytes, if_pos hbody]
      have hbegin := begin_isOk_iff E hcontext hoperation
        (if values.rows = [] then (E.parse request.body).getD .null
          else .object [("body", (E.parse request.body).getD .null), ("path", .object values.rows)])
      rw [h] at hbegin
      split
      · rfl
      · rename_i hok
        rw [hok] at hbegin
        cases hbegin

/-- The response to an observed request comes back with the events, or without its body. -/
theorem capture_of_observed (hbody : request.body.length ≤ maxRequestBytes)
    (h : observed request = true) :
    (capture E next request).passed = some request ∧
      (capture E next request).response.status = (next request).status ∧
      HeaderMap.except (capture E next request).response.headers "x-reproit-events" =
        HeaderMap.except (next request).headers "x-reproit-events" ∧
      (capture E next request).response.body =
        if (next request).body.length ≤ maxResponseBytes then (next request).body else [] := by
  unfold capture
  cases hcontext : contextOf request with
  | none => simp [observed, hcontext] at h
  | some context =>
    cases hoperation : operation request.method request.path with
    | none => simp [observed, hcontext, hoperation] at h
    | some r =>
      obtain ⟨name, values⟩ := r
      simp only [toBytes, if_pos hbody]
      have hbegin := begin_isOk_iff E hcontext hoperation
        (if values.rows = [] then (E.parse request.body).getD .null
          else .object [("body", (E.parse request.body).getD .null), ("path", .object values.rows)])
      rw [h] at hbegin
      split
      · rename_i herror
        rw [herror] at hbegin
        cases hbegin
      · by_cases hlong : (next request).body.length ≤ maxResponseBytes
        · simp only [if_pos hlong]
          split
          · exact ⟨trivial, trivial, HeaderMap.except_insert _ _ _, trivial⟩
          · exact ⟨trivial, trivial, rfl, trivial⟩
        · simp only [if_neg hlong]
          exact ⟨trivial, trivial, trivial, trivial⟩

end Cases

/-- Capture is transparent exactly when the request is not observed or the response body is
not too long. -/
theorem capture_transparent_iff (E : CaptureEnv) (next : HttpRequest → HttpResponse)
    (request : HttpRequest) (hbody : request.body.length ≤ maxRequestBytes) :
    Transparent next request (capture E next request) ↔
      (observed request = true → (next request).body.length ≤ maxResponseBytes) := by
  cases h : observed request with
  | false =>
    rw [capture_of_unobserved E next hbody h]
    exact ⟨fun _ hobserved => absurd hobserved Bool.false_ne_true,
      fun _ => transparent_forward next request⟩
  | true =>
    obtain ⟨hpassed, hstatus, hheaders, hresponse⟩ :=
      capture_of_observed E next hbody h
    constructor
    · intro htransparent _
      by_contra hlong
      rw [htransparent.body, if_neg hlong] at hresponse
      rw [hresponse] at hlong
      exact hlong (Nat.zero_le _)
    · intro hshort
      rw [if_pos (hshort rfl)] at hresponse
      exact ⟨hpassed, hstatus, hheaders, hresponse⟩

/-- A traced request for the account of the caller. -/
def tracedRequest : HttpRequest where
  method := "GET"
  path := "/v1/me"
  headers := [("x-reproit-trace", ⟨[116, 49], List.all_eq_true.1 (by decide)⟩)]

/-- Responses with some zero bytes. -/
def zerosOf (count : Nat) : HttpRequest → HttpResponse :=
  fun _ => { status := 200, body := List.replicate count 0 }

theorem length_zerosOf (count : Nat) (request : HttpRequest) :
    (zerosOf count request).body.length = count :=
  List.length_replicate

/-- A JSON library that reads nothing. -/
def plainCapture : CaptureEnv where
  parse := fun _ => none
  renderings := ⟨fun _ => "", fun _ => "", fun _ => ""⟩
  sha256 := fun _ => []
  issued := 0
  others := 0

theorem capture_transparent_iff_me :
    Transparent (zerosOf maxResponseBytes) tracedRequest
      (capture plainCapture (zerosOf maxResponseBytes) tracedRequest) :=
  (capture_transparent_iff plainCapture (zerosOf maxResponseBytes) tracedRequest
    (Nat.zero_le _)).2 fun _ => (length_zerosOf _ _).le

/-- A response body of four mebibytes and one byte is lost. -/
theorem long_response_is_lost :
    observed tracedRequest = true ∧
      (zerosOf (maxResponseBytes + 1) tracedRequest).body.length = 4 * 1024 * 1024 + 1 ∧
      (capture plainCapture (zerosOf (maxResponseBytes + 1)) tracedRequest).response.body = [] ∧
      ¬ Transparent (zerosOf (maxResponseBytes + 1)) tracedRequest
        (capture plainCapture (zerosOf (maxResponseBytes + 1)) tracedRequest) := by
  have hobserved : observed tracedRequest = true := by decide
  have hlength : (zerosOf (maxResponseBytes + 1) tracedRequest).body.length =
      4 * 1024 * 1024 + 1 := length_zerosOf _ _
  obtain ⟨-, -, -, hbody⟩ := capture_of_observed plainCapture (zerosOf (maxResponseBytes + 1))
    (Nat.zero_le _) hobserved
  rw [hlength, if_neg (by decide)] at hbody
  refine ⟨hobserved, hlength, hbody, fun htransparent => ?_⟩
  rw [← htransparent.body, hbody] at hlength
  cases hlength

end ReproitCloud
