import Universe.Library.Lines
import Universe.Php

/-!
# Requests of one process

`Http::handle` prepares the superglobals, serves a file or runs a controller.
A process handles many requests, and what it does not set again is what the
request before has left.
-/

namespace Universe.Php

section Overlay

variable {κ ν : Type}

/-- What is written hides what was there. -/
def overlay (written kept : κ → Option ν) : κ → Option ν :=
  fun key => (written key).or (kept key)

theorem overlay_none (written : κ → Option ν) :
    overlay written (fun _ => none) = written :=
  funext fun _ => Option.or_none

/-- Something kept is visible exactly where nothing is written. -/
theorem overlay_eq_iff {written first second : κ → Option ν} :
    overlay written first = overlay written second ↔
      ∀ key, written key = none → first key = second key := by
  constructor
  · intro same key unwritten
    have here := congrFun same key
    unfold overlay at here
    rw [unwritten] at here
    exact here
  · intro agree
    funext key
    unfold overlay
    cases unwritten : written key with
    | none => exact agree key unwritten
    | some value => rfl

end Overlay

/-- The functions of the language that only compute: `parse_url` with the path
and the query, `parse_str` and `urldecode`. -/
structure Language where
  parseUrl : Bytes → Option Bytes × Option Bytes
  parseStr : Bytes → List (Key × Value)
  urldecode : Bytes → Bytes

/-- `array_merge`: numbers are counted anew, texts are assigned. -/
def arrayMerge (first second : List (Key × Value)) : List (Key × Value) :=
  let add (merged : List (Key × Value) × Int) (entry : Key × Value) :=
    match entry.1 with
    | .int _ => (merged.1 ++ [(.int merged.2, entry.2)], merged.2 + 1)
    | .text name => (assign (.text name) entry.2 merged.1, merged.2)
  ((first ++ second).foldl add ([], 0)).1

/-- The properties of a response that the static branch sets. -/
inductive Property where
  | statusCode
  | reasonPhrase
  | body
  deriving DecidableEq

/-- What `$php->response` is: the response object of a request, by its number,
or an object that PHP has made because there was none. -/
inductive ResponseObject where
  | response (number : Nat)
  | made (properties : Property → Option Value)

/-- What survives a request. -/
structure Process where
  get : List (Key × Value) := []
  post : List (Key × Value) := []
  request : List (Key × Value) := []
  cookie : Bytes → Option Bytes := fun _ => none
  /-- `$_SERVER['REQUEST_URI']`. -/
  requestUri : Option Bytes := none
  /-- `$php->request` and `$php->response`, as the number of the request. -/
  phpRequest : Option Nat := none
  phpResponse : Option ResponseObject := none

/-- A request, the files there are while it is handled, and what its controller
does to the process (`sessionStart` sets a cookie, for one). -/
structure Incoming where
  request : HttpRequest
  files : Bytes → Option Bytes
  run : Process → Process

namespace Http

variable (language : Language)

/-- The cookies of a header, by `explode` at `"; "` and at `=`. -/
def cookies (header : Bytes) : List (Bytes × Bytes) :=
  (Lines.lines 59 32 header).map fun cookie =>
    let parts := cookie.splitOn 61
    (parts.headD [], language.urldecode (parts.getD 1 []))

/-- The cookies a request sets; the last one of a name counts. -/
def carried (request : HttpRequest) : Bytes → Option Bytes :=
  match request.headers.find (ascii "Cookie") with
  | none => fun _ => none
  | some header => (cookies language header).foldl
      (fun set cookie => Function.update set cookie.1 (some cookie.2))
      fun _ => none

def prepareRequest (request : HttpRequest) (s : Process) : Process :=
  let uriInfo := language.parseUrl request.uri
  let get := language.parseStr (uriInfo.2.getD [])
  let post := language.parseStr request.body
  { s with
    requestUri := uriInfo.1
    get := get
    post := post
    request := arrayMerge get post
    cookie := overlay (carried language request) s.cookie }

/-- `preg_match('/\.[a-z]+/', …)`. -/
def isStatic : Bytes → Bool
  | [] => false
  | [_] => false
  | dot :: letter :: rest =>
      (dot = 46 && 97 ≤ letter && letter ≤ 122) || isStatic (letter :: rest)

/-- The properties `serveStatic` sets. -/
def staticProperties : Option Bytes → Property → Option Value
  | none, .statusCode => some (.int 404)
  | none, .reasonPhrase => some (.string (ascii "File not exists"))
  | none, .body => none
  | some contents, .body => some (.string contents)
  | some _, _ => none

/-- `$php->response->… = …`, where nothing becomes an object. -/
def ResponseObject.write (written : Property → Option Value) :
    Option ResponseObject → ResponseObject
  | some (.response number) => .response number
  | some (.made properties) => .made (overlay written properties)
  | none => .made written

/-- What can be seen of a request being handled. -/
inductive Handling where
  /-- The object that got the properties. -/
  | served (response : ResponseObject) (written : Property → Option Value)
  /-- What the controller sees. -/
  | ran (get post request : List (Key × Value)) (cookie : Bytes → Option Bytes)
      (requestUri : Option Bytes) (response : Option ResponseObject)

/-- `Http::handle` of the request of this number; `webPath` is `WEBPATH`. -/
def handle (webPath : Bytes) (number : Nat) (incoming : Incoming)
    (s : Process) : Handling × Process :=
  let s := prepareRequest language incoming.request s
  let uri := s.requestUri.getD []
  if isStatic uri then
    let written := staticProperties
      (incoming.files (webPath ++ ascii "/public" ++ uri))
    let object := ResponseObject.write written s.phpResponse
    (.served object written, { s with phpResponse := some object })
  else
    let s := { s with
      phpRequest := some number
      phpResponse := some (.response number) }
    (.ran s.get s.post s.request s.cookie s.requestUri s.phpResponse,
      incoming.run s)

/-- The process after some requests, numbered from `number` on. -/
def after (webPath : Bytes) (number : Nat) : List Incoming → Process → Process
  | [], s => s
  | incoming :: rest, s =>
      after webPath (number + 1) rest
        (handle language webPath number incoming s).2

/-- Nothing that a request does not write itself is left for it to see. -/
def Isolated (incoming : Incoming) (webPath : Bytes) (s : Process) : Prop :=
  let uri := ((language.parseUrl incoming.request.uri).1).getD []
  if isStatic uri then
    match s.phpResponse with
    | none => True
    | some (.response _) => False
    | some (.made properties) => ∀ property,
        staticProperties
            (incoming.files (webPath ++ ascii "/public" ++ uri)) property =
          none → properties property = none
  else
    ∀ name, carried language incoming.request name = none →
      s.cookie name = none

/-- A request is handled as in a fresh process exactly if it is isolated from
what the requests before it have left. -/
theorem handled_alike_iff_isolated (webPath : Bytes) (before : List Incoming)
    (incoming : Incoming) :
    (handle language webPath before.length incoming
        (after language webPath 0 before {})).1 =
      (handle language webPath before.length incoming {}).1 ↔
    Isolated language incoming webPath
      (after language webPath 0 before {}) := by
  generalize after language webPath 0 before {} = s
  unfold handle Isolated
  dsimp only [prepareRequest]
  by_cases static :
      isStatic ((language.parseUrl incoming.request.uri).1.getD []) = true
  · rw [if_pos static, if_pos static, if_pos static]
    generalize staticProperties _ = written
    dsimp only
    cases s.phpResponse with
    | none => exact ⟨fun _ => trivial, fun _ => rfl⟩
    | some object =>
        cases object with
        | response number =>
            constructor
            · intro same
              cases same
            · exact False.elim
        | made properties =>
            have visible : overlay written properties = written ↔
                ∀ property, written property = none →
                  properties property = none := by
              have hidden : overlay written properties =
                    overlay written (fun _ => none) ↔
                  ∀ property, written property = none →
                    properties property = none :=
                overlay_eq_iff
              rw [overlay_none] at hidden
              exact hidden
            refine Iff.trans ?_ visible
            constructor
            · intro same
              injection same with object
              injection object
            · intro same
              exact congrArg (fun made => Handling.served (.made made) written)
                same
  · rw [if_neg static, if_neg static, if_neg static]
    have visible : overlay (carried language incoming.request) s.cookie =
          overlay (carried language incoming.request) (fun _ => none) ↔
        ∀ name, carried language incoming.request name = none →
          s.cookie name = none :=
      overlay_eq_iff
    refine Iff.trans ?_ visible
    constructor
    · intro same
      injection same
    · intro same
      exact congrArg (fun cookie => Handling.ran _ _ _ cookie _ _) same

/-- The language on requests without a query, a body or an escape. -/
def plainLanguage : Language where
  parseUrl uri := (some uri, none)
  parseStr _ := []
  urldecode text := text

/-- A visitor of the start page, with these headers. -/
def visitor (headers : Headers) : Incoming where
  request :=
    { client := 0, method := ascii "GET", uri := ascii "/",
      httpVersion := ascii "HTTP/1.1", headers := headers, body := [] }
  files _ := none
  run s := s

/-- A client without cookies is taken for the client before it. -/
theorem cookie_of_other_client_seen :
    ¬ ∀ (language : Language) (webPath : Bytes) (before : List Incoming)
      (incoming : Incoming),
      (handle language webPath before.length incoming
          (after language webPath 0 before {})).1 =
        (handle language webPath before.length incoming {}).1 := by
  intro alike
  have same := alike plainLanguage []
    [visitor [(ascii "Cookie", ascii "HANDLER_SESSION=x")]] (visitor [])
  injection same with _ _ _ cookie
  have here := congrFun cookie (ascii "HANDLER_SESSION")
  revert here
  decide

end Http

end Universe.Php
