import Universe.Php

/-!
# Commands that are sent again

`Client\Redis` sends a command a second time over a new connection when
phpredis throws.  The exception does not tell whether the server has executed
the command.
-/

namespace Universe.Php.Redis

/-- The calls of phpredis. -/
inductive Command where
  | setnx (key data : Bytes)
  /-- `set` with the options `nx` and `ex`. -/
  | setNxEx (key data : Bytes) (expire : Int)
  | incrBy (key : Bytes) (amount : Int)
  | decrBy (key : Bytes) (amount : Int)
  | rPush (key data : Bytes)
  | lPop (key : Bytes)

/-- What becomes of a command: it is executed and answered, it is executed and
the reply does not arrive, or it does not reach the server. -/
inductive Fate where
  | answered
  | lost
  | failed
  deriving DecidableEq

/-- The server with all that is still going to happen to this client. -/
structure Server (δ : Type) where
  data : δ
  fates : Nat → Fate
  /-- What other clients do until the next connection has been made. -/
  others : Nat → δ → δ
  /-- The data before and after each command of this client. -/
  effects : List (δ × δ) := []

variable {δ : Type}

/-- The error is `RedisException`. -/
abbrev M (δ : Type) := EStateM Unit (Server δ)

/-- `RETRY_TIMES`. -/
def retryTimes : Nat := 2

def nextFate : M δ Fate :=
  modifyGet fun server =>
    (server.fates 0,
      { server with fates := fun count => server.fates (count + 1) })

/-- Whether the connection comes about shows in what is sent over it. -/
def connect : M δ Unit :=
  modify fun server => { server with
    data := server.others 0 server.data
    others := fun count => server.others (count + 1) }

section

-- what the server does with a command, and what phpredis makes of the reply
variable (perform : Command → δ → Value × δ)

def performed (command : Command) (server : Server δ) : Server δ where
  data := (perform command server.data).2
  fates := server.fates
  others := server.others
  effects := server.effects ++
    [(server.data, (perform command server.data).2)]

def send (command : Command) : M δ Value := do
  match ← nextFate with
  | .answered =>
      modifyGet fun server =>
        ((perform command server.data).1, performed perform command server)
  | .lost =>
      modify (performed perform command)
      throw ()
  | .failed => throw ()

/-- The body of `try`, and nothing where the exception is caught. -/
def attempt (command : Command) : M δ (Option Value) :=
  tryCatch (do return some (← send perform command)) fun _ => return none

/-- The loop of the methods that return any reply. -/
def anyReply (command : Command) : Nat → M δ Value
  | 0 => return .null
  | times + 1 => do
      match ← attempt perform command with
      | some reply => return reply
      | none =>
          connect
          anyReply command times

/-- The loop of the methods that send again what has not succeeded. -/
def untilSuccess (command : Command) : Nat → M δ Value
  | 0 => return .null
  | times + 1 => do
      match ← attempt perform command with
      | some success =>
          if success.truthy then return .bool true
          else
            connect
            untilSuccess command times
      | none =>
          connect
          untilSuccess command times

def setNx (key data : Bytes) : M δ Value :=
  untilSuccess perform (.setnx key data) retryTimes

def setNxEx (key data : Bytes) (expire : Int) : M δ Value :=
  untilSuccess perform (.setNxEx key data expire) retryTimes

def incr (key : Bytes) (amount : Int := 1) : M δ Value :=
  anyReply perform (.incrBy key amount) retryTimes

def decr (key : Bytes) (amount : Int := 1) : M δ Value :=
  anyReply perform (.decrBy key amount) retryTimes

def rPush (key data : Bytes) : M δ Value :=
  anyReply perform (.rPush key data) retryTimes

def lPop (key : Bytes) : M δ Value :=
  anyReply perform (.lPop key) retryTimes

end

end Universe.Php.Redis
