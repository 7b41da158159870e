import Universe.EasyP2P.Freshness
import Universe.Proxy.Freshness

/-!
# Descriptors that are used again

No protocol hands the buffer of a closed client to the next one, as long as its
own condition is met.  None of them meets the condition by itself.
-/

namespace Universe

open Stepwise
open Std (ExtTreeMap)

namespace Server

/-- Closed clients leave no buffer, where `Http`, `Soa` and `WebSocket` close
none while its message ends inside an item, a connect of `Proxy` does not fail
at once, and clients of `EasyP2P` are closed between two lines. -/
theorem buffers_are_fresh (sha1 : Bytes → Bytes) (maxSize : Nat)
    (remoteAddressList : List Address) :
    (∀ s, Reached Http.service Http.Careful s → Fresh Http.service s) ∧
    (∀ s, Reached (Soa.service maxSize) (Soa.Careful maxSize) s →
      Fresh (Soa.service maxSize) s) ∧
    (∀ s, Reached (WebSocket.service sha1 maxSize) (WebSocket.Careful maxSize)
      s → Fresh (WebSocket.service sha1 maxSize) s) ∧
    (∀ s, Reached (Proxy.service remoteAddressList) Proxy.Careful s →
      Fresh (Proxy.service remoteAddressList) s) ∧
    (∀ s, Reached EasyP2P.service EasyP2P.Careful s →
      Fresh EasyP2P.service s) :=
  ⟨fun _ reached => Http.fresh_of_careful reached,
    fun _ reached => Soa.fresh_of_careful reached,
    fun _ reached => WebSocket.fresh_of_careful reached,
    fun _ reached => Proxy.fresh_of_careful reached,
    fun _ reached => EasyP2P.fresh_of_careful reached⟩

section Runs

variable {α η : Type} {service : Service α η} {s : Server α}

/-- The state after an event that returns. -/
def next (service : Service α η) (s : Server α) (event : Event η) : Server α :=
  final (perform service event s)

/-- A world without connections. -/
theorem Usable.quiet {world : Surroundings η} (quiet : world.attempt = none) :
    s.Usable world := by
  intro attempt isAttempt
  rw [quiet] at isAttempt
  cases isAttempt

theorem Reached.followed {condition : Server α → Event η → Prop}
    (earlier : Reached service condition s) (event : Event η)
    (allowed : s.Allows event) (meets : condition s event)
    (returns : isOk (perform service event s) = true) :
    Reached service condition (next service s event) :=
  earlier.step allowed meets (eq_ok_final returns)

/-- The first client, when there is no connection to be made. -/
theorem Reached.accepted {condition : Server α → Event η → Prop}
    (world : Surroundings η) (quiet : world.attempt = none)
    (meets : condition { own := service.start } (.accept 5 world))
    (returns : isOk (perform service (.accept 5 world)
      { own := service.start }) = true) :
    Reached service condition
      (next service { own := service.start } (.accept 5 world)) := by
  apply Reached.followed .start _ _ meets returns
  refine ⟨⟨by decide, List.not_mem_nil⟩, .quiet quiet, ?_⟩
  intro attempt isAttempt
  rw [quiet] at isAttempt
  cases isAttempt

end Runs

/-- Handlers that leave what they get, and a client that is gone. -/
def sampleHttp : Surroundings HttpFiring where
  handler := fun _ r resp => ((r, resp), [])
  broken := fun _ _ => true

/-- A request is answered to a client that is gone. -/
theorem whole_request_leaves_none :
    Fresh Http.service (next Http.service
      (next Http.service { own := () } (.accept 5 sampleHttp))
      (.message 5 (ascii "GET / HTTP/1.1\r\n\r\n") sampleHttp)) := by
  apply (buffers_are_fresh id 0 []).1
  apply Reached.followed (.accepted sampleHttp rfl trivial (by decide +kernel))
  · exact ⟨⟨by decide +kernel, by decide +kernel⟩, .quiet rfl⟩
  · rintro ⟨item, rest, read, -, more, -⟩
    have ends : ((Http.parseItem 5 (ascii "GET / HTTP/1.1\r\n\r\n")).toOption.map
        Prod.snd) = some [] := by decide +kernel
    have whole : Http.parseItem 5 (ascii "GET / HTTP/1.1\r\n\r\n") =
        .ok (some item, rest) := read
    rw [whole] at ends
    exact absurd (Option.some.inj ends) more
  · decide +kernel

/-- Handlers that leave what they get, and a client that is gone. -/
def sampleSoa : Surroundings SoaFiring where
  handler := fun _ _ resp => (resp, [])
  broken := fun _ _ => true

/-- Handlers that leave what they get. -/
def sampleWebSocket (gone : Bool) : Surroundings WebSocketFiring where
  handler := fun _ read => (read, [])
  broken := fun _ _ => gone

/-- A connect that fails at once. -/
def sampleFailing : Surroundings Unit where
  handler := ()
  attempt := some (.failing 6)

/-- Nothing is connected to. -/
def sampleQuiet : Surroundings Unit where
  handler := ()

/-- A client with an address. -/
def sampleNames : Surroundings Names where
  handler := ⟨some [], fun _ => none⟩

/-- The answer to the first request finds the client gone. -/
theorem http_buffer_outlives :
    ∃ s, Reached Http.service (fun _ _ => True) s ∧ ¬Fresh Http.service s := by
  have first : Reached Http.service (fun _ _ => True) _ :=
    .accepted sampleHttp rfl trivial (by decide +kernel)
  have second := first.followed (.message 5
    (ascii "GET / HTTP/1.1\r\n\r\nG") sampleHttp)
    ⟨⟨by decide +kernel, by decide +kernel⟩, .quiet rfl⟩ trivial
    (by decide +kernel)
  refine ⟨_, second, fun fresh => ?_⟩
  exact absurd (fresh.closed 5 (by decide +kernel)) (by decide +kernel)

theorem soa_buffer_outlives :
    ∃ s, Reached (Soa.service 1024) (fun _ _ => True) s ∧
      ¬Fresh (Soa.service 1024) s := by
  have first : Reached (Soa.service 1024) (fun _ _ => True) _ :=
    .accepted sampleSoa rfl trivial (by decide +kernel)
  have second := first.followed (.message 5
    (SoaRequest.toBytes (GUID.filled 0) [] ++ [0]) sampleSoa)
    ⟨⟨by decide +kernel, by decide +kernel⟩, .quiet rfl⟩ trivial
    (by decide +kernel)
  refine ⟨_, second, fun fresh => ?_⟩
  exact absurd (fresh.closed 5 (by decide +kernel)) (by decide +kernel)

/-- The answer to a ping finds the client gone. -/
theorem webSocket_buffer_outlives :
    ∃ s, Reached (WebSocket.service (fun _ => List.replicate 20 0) 1024)
      (fun _ _ => True) s ∧
      ¬Fresh (WebSocket.service (fun _ => List.replicate 20 0) 1024) s := by
  have first : Reached (WebSocket.service (fun _ => List.replicate 20 0) 1024)
      (fun _ _ => True) _ :=
    .accepted (sampleWebSocket false) rfl trivial (by decide +kernel)
  have second := first.followed (.message 5
    (ascii "GET / HTTP/1.1\r\nSec-WebSocket-Key: k\r\n\r\n")
    (sampleWebSocket false))
    ⟨⟨by decide +kernel, by decide +kernel⟩, .quiet rfl⟩ trivial
    (by decide +kernel)
  have third := second.followed (.message 5
    [0x89, 0x00, 0x81] (sampleWebSocket true))
    ⟨⟨by decide +kernel, by decide +kernel⟩, .quiet rfl⟩ trivial
    (by decide +kernel)
  refine ⟨_, third, fun fresh => ?_⟩
  exact absurd (fresh.closed 5 (by decide +kernel)) (by decide +kernel)

/-- The client is watched after it was told to close. -/
theorem proxy_buffer_outlives :
    ∃ s, Reached (Proxy.service [[]]) (fun _ _ => True) s ∧
      ¬Fresh (Proxy.service [[]]) s := by
  have allowed : Allows { own := (Proxy.service [[]]).start }
      (.accept 5 sampleFailing) := by
    refine ⟨⟨by decide, List.not_mem_nil⟩, ?_, ?_⟩
    · rintro _ ⟨rfl⟩
      exact ⟨by decide, List.not_mem_nil⟩
    · rintro _ ⟨rfl⟩
      decide
  have second : Reached (Proxy.service [[]]) (fun _ _ => True) _ :=
    .followed .start (.accept 5 sampleFailing) allowed trivial
      (by decide +kernel)
  have third := second.followed (.message 5 (ascii "a") sampleQuiet)
    ⟨⟨by decide +kernel, by decide +kernel⟩, .quiet rfl⟩ trivial
    (by decide +kernel)
  have last := third.followed (.clientClosed 5 sampleQuiet)
    ⟨by decide +kernel, by decide +kernel⟩ trivial (by decide +kernel)
  refine ⟨_, last, fun fresh => ?_⟩
  exact absurd (fresh.closed 5 (by decide +kernel)) (by decide +kernel)

theorem easyP2P_buffer_outlives :
    ∃ s, Reached EasyP2P.service (fun _ _ => True) s ∧
      ¬Fresh EasyP2P.service s := by
  have first : Reached EasyP2P.service (fun _ _ => True) _ :=
    .accepted sampleNames rfl trivial (by decide +kernel)
  have second := first.followed (.message 5 (ascii "al") sampleNames)
    ⟨⟨by decide +kernel, by decide +kernel⟩, .quiet rfl⟩ trivial
    (by decide +kernel)
  have third := second.followed (.clientClosed 5 sampleNames)
    ⟨by decide +kernel, by decide +kernel⟩ trivial (by decide +kernel)
  refine ⟨_, third, fun fresh => ?_⟩
  exact absurd (fresh.closed 5 (by decide +kernel)) (by decide +kernel)

/-- Every protocol leaves a buffer of a client that is closed: the first three
when the answer to an item before the last finds the client gone, `Proxy` when
its connect has failed at once, and `EasyP2P` within a line. -/
theorem buffers_outlive_clients :
    (∃ s, Reached Http.service (fun _ _ => True) s ∧
      ¬Fresh Http.service s) ∧
    (∃ s, Reached (Soa.service 1024) (fun _ _ => True) s ∧
      ¬Fresh (Soa.service 1024) s) ∧
    (∃ s, Reached (WebSocket.service (fun _ => List.replicate 20 0) 1024)
      (fun _ _ => True) s ∧
      ¬Fresh (WebSocket.service (fun _ => List.replicate 20 0) 1024) s) ∧
    (∃ s, Reached (Proxy.service [[]]) (fun _ _ => True) s ∧
      ¬Fresh (Proxy.service [[]]) s) ∧
    ∃ s, Reached EasyP2P.service (fun _ _ => True) s ∧
      ¬Fresh EasyP2P.service s :=
  ⟨http_buffer_outlives, soa_buffer_outlives, webSocket_buffer_outlives,
    proxy_buffer_outlives, easyP2P_buffer_outlives⟩

end Server

end Universe
