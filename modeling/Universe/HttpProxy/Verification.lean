import Universe.HttpProxy.Forms

/-!
# The verification of credentials

`do_auth` asks a service through an `AsyncHttpClient`, which resolves, connects
to one address after the other, writes its packet, reads until a response is
complete and then calls back, with a null response whatever has failed.  The
service's JSON is read by a library: `status` stands for `read_json` and
`get<int>("status")`, `none` for their exceptions.
-/

namespace Universe.HttpProxy

open Incremental

/-- The path of `uri_parts`. -/
def uriPath (uri : Bytes) : Option Bytes :=
  let rest :=
    match Utils.splitAt (ascii "://") uri with
    | some (_, rest) => rest
    | none => uri
  if rest.contains 47 then
    some ((rest.dropWhile (· != 47)).takeWhile fun byte =>
      byte != 63 && byte != 35)
  else none

/-- `HttpRequest::make_packet`. -/
def HttpRequest.makePacket (method url data contentType : Bytes) : Bytes :=
  method ++ ascii " " ++ (uriPath url).getD (ascii "/") ++
    ascii " HTTP/1.1\r\nHost: " ++ (uriParts url).2.1.getD [] ++
    ascii "\r\nContent-Length: " ++ decimal data.length ++
    ascii "\r\nContent-Type: " ++ contentType ++
    ascii "\r\nUser-Agent: proactor\r\n\r\n" ++ data

/-- The operation a client waits for. -/
inductive AsyncHttpClient.Pending where
  | resolve
  | connect (more : Nat)
  | write
  | read
  deriving DecidableEq

structure AsyncHttpClient where
  url : Bytes
  data : Bytes
  contentType : Bytes
  pending : AsyncHttpClient.Pending := .resolve
  packet : Bytes := []
  packetOut : Bytes := []

namespace AsyncHttpClient

/-- What a handler leaves: the next operation, or `done`. -/
inductive Outcome where
  | waits (client : AsyncHttpClient)
  | done (suc : Bool) (response : Option HttpResponse)

/-- `handle_response`. -/
def handleResponse (client : AsyncHttpClient) (bytes : Bytes)
    (undefined : Except ReaderException HttpResponse) : Outcome :=
  let packetOut := client.packetOut ++ bytes
  match HttpResponse.parsed packetOut undefined with
  | .ok response => .done true (some response)
  | .error .ag => .waits { client with packetOut }
  | .error .ng => .done false none

/-- The handler of the pending operation; `none` for a completion of another
one. -/
def complete (client : AsyncHttpClient) (completion : Completion) :
    Option Outcome :=
  match client.pending, completion with
  | .resolve, .resolved more =>
      some (.waits { client with pending := .connect more })
  | .connect _, .connected =>
      some (.waits { client with
        pending := .write
        packet := HttpRequest.makePacket (ascii "POST") client.url client.data
          client.contentType })
  | .connect (more + 1), .failed =>
      some (.waits { client with pending := .connect more })
  | .write, .written => some (.waits { client with pending := .read })
  | .read, .read bytes undefined =>
      some (client.handleResponse bytes undefined)
  | _, .failed => some (.done false none)
  | _, _ => none

/-- What the callback is called with after these completions. -/
def run (client : AsyncHttpClient) :
    List Completion → Option (Bool × Option HttpResponse)
  | [] => none
  | completion :: rest =>
      match client.complete completion with
      | none => none
      | some (.waits next) => next.run rest
      | some (.done suc response) =>
          if rest.isEmpty then some (suc, response) else none

end AsyncHttpClient

/-- The client of `do_auth`. -/
def verifier (user pass : Bytes) : AsyncHttpClient where
  url := ascii "http://api.ffan.com/rtx_verify"
  data := verifyBody user pass
  contentType := ascii "application/x-www-form-urlencoded"

namespace Scene

/-- The callback of `do_auth`; `none` where it looks at a null response. -/
def authCallback (status : Bytes → Option Int) (id : Nat) (now : Int)
    (user pass : Bytes) (s : Scene) :
    Bool × Option HttpResponse → Option Scene
  | (_, none) => none
  | (_, some response) =>
      if status response.body = some 200 then
        let s := s.record (.verified (verifyBody user pass) now)
        some (doAfterAuth id now
          { s with cache := s.cache.set now user pass })
      else some s.doWrite407Unauthorized

end Scene

/-- What a completion brings. -/
def Completion.received : Completion → Bytes
  | .read bytes _ => bytes
  | _ => []

/-- The last completion is a read after which a response is complete, when some
bytes have been read before. -/
def BringsResponse (known : Bytes) (completions : List Completion) : Prop :=
  ∃ earlier bytes undefined response,
    completions = earlier ++ [.read bytes undefined] ∧
    HttpResponse.parsed (known ++ completions.flatMap Completion.received)
      undefined = .ok response

theorem bringsResponse_single {known : Bytes} {completion : Completion} :
    BringsResponse known [completion] ↔
      ∃ bytes undefined response, completion = .read bytes undefined ∧
        HttpResponse.parsed (known ++ bytes) undefined = .ok response := by
  constructor
  · rintro ⟨earlier, bytes, undefined, response, whole, parsed⟩
    cases earlier with
    | nil =>
        cases whole
        refine ⟨bytes, undefined, response, rfl, ?_⟩
        simpa [Completion.received] using parsed
    | cons first earlier => simp at whole
  · rintro ⟨bytes, undefined, response, rfl, parsed⟩
    refine ⟨[], bytes, undefined, response, rfl, ?_⟩
    simpa [Completion.received] using parsed

theorem bringsResponse_cons {known : Bytes} {completion : Completion}
    {rest : List Completion} (more : rest ≠ []) :
    BringsResponse known (completion :: rest) ↔
      BringsResponse (known ++ completion.received) rest := by
  constructor
  · rintro ⟨earlier, bytes, undefined, response, whole, parsed⟩
    cases earlier with
    | nil =>
        cases whole
        exact absurd rfl more
    | cons first earlier =>
        cases whole
        exact ⟨earlier, bytes, undefined, response, rfl, by simpa using parsed⟩
  · rintro ⟨earlier, bytes, undefined, response, rfl, parsed⟩
    exact ⟨completion :: earlier, bytes, undefined, response, rfl,
      by simpa using parsed⟩

namespace AsyncHttpClient

variable {client next : AsyncHttpClient} {completion : Completion}

theorem complete_waits
    (completed : client.complete completion = some (.waits next)) :
    next.packetOut = client.packetOut ++ completion.received := by
  unfold complete at completed
  split at completed <;> try cases completed
  · exact (List.append_nil _).symm
  · exact (List.append_nil _).symm
  · exact (List.append_nil _).symm
  · exact (List.append_nil _).symm
  · next bytes undefined _ =>
      unfold handleResponse at completed
      dsimp only at completed
      split at completed <;> cases completed
      rfl

theorem complete_done {suc : Bool} {response : Option HttpResponse}
    (completed : client.complete completion = some (.done suc response)) :
    response.isSome ↔ BringsResponse client.packetOut [completion] := by
  rw [bringsResponse_single]
  unfold complete at completed
  split at completed <;> try cases completed
  · next bytes undefined _ =>
      unfold handleResponse at completed
      dsimp only at completed
      split at completed
      · next response parsed =>
          cases completed
          exact iff_of_true rfl ⟨bytes, undefined, response, rfl, parsed⟩
      · cases completed
      · next parsed =>
          cases completed
          refine iff_of_false Bool.false_ne_true ?_
          rintro ⟨_, _, response, same, accepted⟩
          cases same
          rw [parsed] at accepted
          cases accepted
  · refine iff_of_false Bool.false_ne_true ?_
    rintro ⟨_, _, _, same, -⟩
    cases same

/-- The callback gets a response exactly if the last read has completed one. -/
theorem run_brings {completions : List Completion} {suc : Bool}
    {response : Option HttpResponse}
    (finished : client.run completions = some (suc, response)) :
    response.isSome ↔ BringsResponse client.packetOut completions := by
  induction completions generalizing client with
  | nil => cases finished
  | cons completion rest induction =>
      unfold run at finished
      split at finished
      · cases finished
      · next next completed =>
          have more : rest ≠ [] := by
            rintro rfl
            cases finished
          rw [induction finished, complete_waits completed,
            bringsResponse_cons more]
      · next suc response completed =>
          split at finished
          · next last =>
              cases finished
              rw [List.isEmpty_iff.mp last]
              exact complete_done completed
          · cases finished

end AsyncHttpClient

namespace Scene

/-- A response that is there is an answer of the service. -/
theorem authCallback_response (status : Bytes → Option Int) (id : Nat)
    (now : Int) {user pass : Bytes} {s : Scene}
    (waiting : s.session.pending = .verify user pass) (suc : Bool)
    (response : HttpResponse) :
    authCallback status id now user pass s (suc, some response) =
      complete id now s (.answered (status response.body)) := by
  unfold authCallback complete
  rw [waiting, verifyBody_eq]

theorem doAuth_verifies (id : Nat) (now : Int) {s : Scene} {user pass : Bytes}
    (asked : s.session.request.bind (·.request.credentials) =
      some (user, pass))
    (uncached : (s.cache.get now user).1 = none) :
    (doAuth id now s).session.pending = .verify user pass := by
  unfold doAuth
  rw [asked]
  dsimp only
  rw [uncached]
  rfl

end Scene

/-- Credentials that are not cached are verified.  However that fails, and
whatever other sessions have done meanwhile: the callback writes the 407
exactly if the service has sent a response that can be parsed. -/
theorem failed_verification_refused_iff (status : Bytes → Option Int)
    (id : Nat) (asking now : Int) {s : Scene} {user pass : Bytes}
    (asked : s.session.request.bind (·.request.credentials) =
      some (user, pass))
    (uncached : (s.cache.get asking user).1 = none)
    (cache : Cache) (records : List Record) {completions : List Completion}
    {suc : Bool} {response : Option HttpResponse}
    (finished : (verifier user pass).run completions = some (suc, response))
    (failed : ∀ answer, response = some answer →
      status answer.body ≠ some 200) :
    (s.doAuth id asking).session.pending = .verify user pass ∧
      (Scene.authCallback status id now user pass
          ⟨(s.doAuth id asking).session, cache, records⟩ (suc, response) =
          some (Scene.doWrite407Unauthorized
            ⟨(s.doAuth id asking).session, cache, records⟩) ↔
        BringsResponse [] completions) := by
  refine ⟨Scene.doAuth_verifies id asking asked uncached, ?_⟩
  have brings := AsyncHttpClient.run_brings finished
  change _ ↔ BringsResponse [] completions at brings
  rw [← brings]
  cases response with
  | none =>
      refine iff_of_false ?_ Bool.false_ne_true
      intro impossible
      cases impossible
  | some response =>
      refine iff_of_true ?_ rfl
      unfold Scene.authCallback
      exact if_neg (failed response rfl)

/-- A request with the credentials `u:p`, and a cache without them. -/
def uncachedScene : Scene where
  session := {
    request := some ⟨0, {
      method := ascii "GET"
      uri := ascii "http://a/"
      httpVersion := ascii "HTTP/1.1"
      headers := [(ascii "Proxy-Authorization", ascii "Basic dTpw")]
      body := [] }⟩ }
  cache := {}
  records := []

/-- The service answers, but not with JSON. -/
def serviceFails : List Completion :=
  [.resolved 0, .connected, .written,
    .read (ascii "HTTP/1.1 500 No\r\nContent-Length: 0\r\n\r\n") (.error .ng)]

def sampleResponse : HttpResponse where
  httpVersion := ascii "HTTP/1.1"
  statusCode := 500
  reasonPhrase := ascii "No"
  headers := [(ascii "Content-Length", ascii "0")]
  body := []

theorem failed_verification_refused_iff_sample :
    (Scene.authCallback (fun _ => none) 0 0 (ascii "u") (ascii "p")
      ⟨(uncachedScene.doAuth 0 0).session, {}, []⟩
      (true, some sampleResponse)).isSome = true := by
  have refused := (@failed_verification_refused_iff (fun _ => none) 0 0 0
    uncachedScene (ascii "u") (ascii "p") (by decide +kernel) rfl {} []
    serviceFails true (some sampleResponse) (by decide +kernel)
    (fun _ _ impossible => by cases impossible)).2.mpr
    ⟨[.resolved 0, .connected, .written], _, _, sampleResponse, rfl,
      by decide +kernel⟩
  rw [refused]
  rfl

/-- The name of the service is not resolved. -/
theorem resolve_failure_crashes :
    ¬ ∀ (status : Bytes → Option Int) (id : Nat) (asking now : Int)
      (s : Scene) (user pass : Bytes),
      s.session.request.bind (·.request.credentials) = some (user, pass) →
      (s.cache.get asking user).1 = none →
      ∀ (cache : Cache) (records : List Record)
        (completions : List Completion) (suc : Bool)
        (response : Option HttpResponse),
      (verifier user pass).run completions = some (suc, response) →
      (∀ answer, response = some answer → status answer.body ≠ some 200) →
      Scene.authCallback status id now user pass
        ⟨(s.doAuth id asking).session, cache, records⟩ (suc, response) =
        some (Scene.doWrite407Unauthorized
          ⟨(s.doAuth id asking).session, cache, records⟩) := by
  intro all
  have refused := all (fun _ => none) 0 0 0 uncachedScene (ascii "u")
    (ascii "p") (by decide +kernel) rfl {} [] [.failed] false none rfl
    (fun _ impossible => by cases impossible)
  cases refused

end Universe.HttpProxy
