import Universe.Http.Segmentation
import Universe.Server.Clients

/-!
# Messages that end inside an item

`on_message` reads one item after the other, and keeps the part of an item at
the end of a message for its client.  That is a buffer for nobody when the
client was closed while the items before were dealt with.
-/

namespace Universe

open Incremental Stepwise

namespace Protocol

variable {ι κ : Type}

/-- One item after the other is read, and the last one is not whole.  Whether
the loop goes on after an item may depend on what was counted so far. -/
inductive EndsInside (parse : StreamReader (Option ι)) (stays : κ → ι → Bool)
    (next : κ → κ) : κ → Bytes → Prop where
  | here {count : κ} {message : Bytes} (part : parse message = .error .ag) :
      EndsInside parse stays next count message
  | later {count : κ} {message rest : Bytes} {item : ι}
      (read : parse message = .ok (some item, rest))
      (goesOn : stays count item = true) (more : rest ≠ [])
      (inside : EndsInside parse stays next (next count) rest) :
      EndsInside parse stays next count message

/-- The message ends inside an item, behind items that were dealt with. -/
def BreaksOff (parse : StreamReader (Option ι)) (stays : κ → ι → Bool)
    (next : κ → κ) (count : κ) (message : Bytes) : Prop :=
  ∃ item rest, parse message = .ok (some item, rest) ∧
    stays count item = true ∧ rest ≠ [] ∧
    EndsInside parse stays next (next count) rest

section Loop

variable {ε σ : Type} {host : Host (EStateM ε σ)}
  {parse : StreamReader (Option ι)} {handle : ι → EStateM ε σ Bool}
  {stays : κ → ι → Bool} {next : κ → κ} {client : Fd} {count : σ → κ}
  {going post : σ → Prop}

/-- The rule for the loop: what every item keeps, and what follows from it
where the loop is left. -/
theorem readItems_returns
    (handles : ∀ item s, going s → Returns (handle item) s fun goesOn after =>
      post after ∧ (goesOn = true → going after ∧
        count after = next (count s) ∧ stays (count s) item = true))
    (done : ∀ s, going s → post s)
    (closes : ∀ s, going s → Returns (host.close client) s fun _ => post)
    (exits : ∀ s, Returns (host.exit : EStateM ε σ Unit) s fun _ => post)
    {s : σ} (start : going s) {fuel : Nat} {message : Bytes}
    (needs : EndsInside parse stays next (count s) message → ∀ part s, going s →
      Returns (host.needBuf client part true) s fun _ => post) :
    Returns (readItems host parse handle client fuel message) s
      fun _ => post := by
  induction fuel generalizing s message with
  | zero => exact returns_pure (done s start)
  | succ fuel induction =>
      unfold readItems
      cases parsed : parse message with
      | error stop =>
          cases stop with
          | ag =>
              apply returns_bind (needs (.here parsed) message s start)
              intro _ after finished
              exact returns_pure finished
          | ng =>
              apply returns_bind (closes s start)
              intro _ after finished
              exact returns_pure finished
      | ok read =>
          obtain ⟨item, rest⟩ := read
          cases item with
          | none => exact exits s
          | some item =>
              apply returns_bind (handles item s start)
              rintro goesOn between ⟨finished, continues⟩
              split
              · next further =>
                  rw [Bool.and_eq_true] at further
                  obtain ⟨kept, counted, stays⟩ := continues further.1
                  apply induction kept
                  intro inside
                  rw [counted] at inside
                  apply needs
                  exact .later parsed stays (by simpa using further.2) inside
              · exact returns_pure finished

end Loop

end Protocol

namespace Http

open StreamReader

variable {m : Type → Type} [Monad m] [LawfulMonad m] (host : Host m)
  (fire : HttpRequest → HttpResponse → m (HttpRequest × HttpResponse))

/-- A request for the loop that `Soa` has as well. -/
def parseItem (client : Fd) : StreamReader (Option HttpRequest) := do
  let r ← parseRequest client
  return some r

/-- What is done about a request. -/
def answer (client : Fd) (r : HttpRequest) : m Bool := do
  let (r, resp) ← fire r (.ofRequest r)
  let _ ← host.write client resp.toBytes
  let closed ← closeIfNecessary host r
  return !closed

theorem serve_eq_readItems (client : Fd) (fuel : Nat) (message : Bytes) :
    serve host fire client fuel message =
      Protocol.readItems host (parseItem client) (answer host fire client)
        client fuel message := by
  induction fuel generalizing message with
  | zero => rfl
  | succ fuel induction =>
      unfold serve Protocol.readItems
      cases parsed : parseRequest client message with
      | error stop =>
          have same : parseItem client message = .error stop :=
            bind_of_error parsed
          rw [same]
          cases stop with
          | ag => rfl
          | ng => rfl
      | ok read =>
          obtain ⟨r, rest⟩ := read
          have same : parseItem client message = .ok (some r, rest) :=
            bind_of_ok parsed
          rw [same]
          simp only [answer, bind_assoc, pure_bind]
          congr 1
          funext answered
          congr 1
          funext _
          congr 1
          funext closed
          rw [induction]
          cases closed with
          | true => rfl
          | false =>
              cases rest with
              | nil => rfl
              | cons byte rest => rfl

end Http

namespace WebSocket

variable {m : Type → Type} [Monad m] [LawfulMonad m]
  (host : StateHost WebSocketState m)
  (fire : WebSocketMessage → m WebSocketMessage)

/-- What is done about a message. -/
def answer (client : Fd) (read : WebSocketMessage) : m Bool := do
  let answered ← fire read
  respond host client answered

theorem converse_eq_readItems (maxSize : Nat) (client : Fd) (fuel : Nat)
    (message : Bytes) :
    converse host fire maxSize client fuel message =
      Protocol.readItems host.toHost (parseMessage client maxSize)
        (answer host fire client) client fuel message := by
  induction fuel generalizing message with
  | zero => rfl
  | succ fuel induction =>
      unfold converse Protocol.readItems
      cases parseMessage client maxSize message with
      | error stop =>
          cases stop with
          | ag => rfl
          | ng => rfl
      | ok read =>
          obtain ⟨item, rest⟩ := read
          cases item with
          | none => rfl
          | some item => simp only [answer, bind_assoc, induction]

end WebSocket

namespace Server

variable {α η ι κ : Type} {service : Service α η} {erases : Bool}
  {world : Surroundings η} {s : Server α} {depth : Nat} {client : Fd}

/-- A message that breaks off leaves a buffer for a client only. -/
theorem readItems_sound (isLocal : Local service erases)
    (connect : Address → Fd → M α Fd)
    {parse : StreamReader (Option ι)} {handle : ι → M α Bool}
    (stays : κ → ι → Bool) (next : κ → κ) (count : Server α → κ)
    {message : Bytes} {asked : Prop} (going : Going erases world client True s)
    (breaks : Protocol.BreaksOff parse stays next (count s) message → asked)
    (handles : ∀ item (s : Server α), Going erases world client asked s →
      Returns (handle item) s fun goesOn after => Sound after ∧
        (goesOn = true → Going erases world client asked after ∧
          count after = next (count s) ∧ stays (count s) item = true))
    (fuel : Nat) :
    Returns (Protocol.readItems
      (hostWith world (closing world service depth · false) connect).toHost
      parse handle client fuel message) s fun _ after => Sound after := by
  have closes : ∀ {wanted : Prop} (s : Server α),
      Going erases world client wanted s →
      Returns (closing world service depth client false) s
        fun _ after => Sound after := by
    intro wanted s going
    have unasked : Going erases world client False s :=
      ⟨going.sound, False.elim, going.safe⟩
    apply (unasked.close isLocal False.elim (going.safe.imp_right And.left)).weaken
    exact fun _ after kept => kept.1.sound
  cases fuel with
  | zero => exact returns_pure going.sound
  | succ fuel =>
      unfold Protocol.readItems
      cases parsed : parse message with
      | error stop =>
          cases stop with
          | ag =>
              apply returns_modifyGet_bind
              exact returns_pure (going.sound.needed (going.present trivial) message)
          | ng =>
              apply returns_bind (closes s going)
              intro _ after finished
              exact returns_pure finished
      | ok read =>
          obtain ⟨item, rest⟩ := read
          cases item with
          | none => exact returns_throw
          | some item =>
              apply returns_bind (handles item s
                ⟨going.sound, fun _ => going.present trivial, going.safe⟩)
              rintro goesOn between ⟨sound, continues⟩
              split
              · next further =>
                  rw [Bool.and_eq_true] at further
                  obtain ⟨kept, counted, stays⟩ := continues further.1
                  apply Protocol.readItems_returns handles
                    (fun s going => going.sound) closes
                    (fun s => returns_throw) kept
                  intro inside part s going
                  rw [counted] at inside
                  have isAsked := breaks ⟨item, rest, parsed, stays,
                    by simpa using further.2, inside⟩
                  exact returns_modifyGet
                    (going.sound.needed (going.present isAsked) part)
              · exact returns_pure sound

end Server

end Universe
