import LanguageSessions.Entries
import LanguageSessions.Log
import LanguageSessions.Message
import LanguageSessions.Number.FloatText

/-!
# Pending requests

The requests that wait for a response. Each one has a promise, which is settled once: by the response, by its timer, by
the end of its session, or by its waiter, who may give up. A waiter's giving up leaves the table alone until the release
that it asks for is carried out.
-/

namespace LanguageSessions

open Text

/-- How a request ends. -/
abbrev Outcome := Except Fault Json

/-- What a waiter holds: the request it waits for, and its outcome once there is one. -/
structure Promise where
  request : RequestId
  outcome : Option Outcome

namespace Promise

/-- Whether the promise has an outcome. -/
def isSettled (promise : Promise) : Bool := promise.outcome.isSome

/-- Gives the promise an outcome unless it has one. -/
def settle (promise : Promise) (outcome : Outcome) : Promise :=
  if promise.isSettled then promise else { promise with outcome := some outcome }

end Promise

/-- A request that waits for a response. -/
structure PendingRequest where
  method : String
  /-- The session that the request was sent to. -/
  session : Option String
  /-- The index of its promise. -/
  promise : Nat
  /-- The handle of its timer. -/
  timer : Nat
  deriving DecidableEq, Repr

/-- A timer that ends a request. -/
structure RequestTimer where
  handle : Nat
  /-- When the timer fires, in billionths of a second; never without a time. -/
  due : Option Int
  request : RequestId
  /-- The time that the request was given, in seconds. -/
  delay : Binary64
  deriving DecidableEq

/-- The pending requests and all that belongs to them. -/
structure Pending where
  /-- The seconds that a request is given if it is not said otherwise. -/
  standardDelay : Binary64
  /-- The identifier that was given out last. -/
  lastId : Int
  /-- The time, in billionths of a second. -/
  now : Int
  /-- The pending requests in the order in which they were registered. -/
  entries : Entries RequestId PendingRequest
  /-- The promises of all requests, by index. -/
  promises : List Promise
  /-- The armed timers in the order in which they were armed. -/
  timers : List RequestTimer
  /-- The number of timers that were ever armed. -/
  armed : Nat
  /-- The requests whose waiters gave up, to be released in this order. -/
  releases : List RequestId

namespace Pending

/-- No pending requests. -/
def empty (standardDelay : Binary64) : Pending := ⟨standardDelay, 0, 0, [], [], [], 0, []⟩

/-! ## Views -/

/-- The method of a pending request. -/
def methodOf? (pending : Pending) (id : RequestId) : Option String := (pending.entries.get? id).map (·.method)

/-- Whether a request is pending. -/
def has (pending : Pending) (id : RequestId) : Bool := pending.entries.has id

/-- The outcome of the promise at an index, if it is settled. -/
def outcome? (pending : Pending) (index : Nat) : Option Outcome := (pending.promises[index]?).bind (·.outcome)

/-! ## Registering -/

/-- Gives out the next identifier. -/
def nextId (pending : Pending) : Pending × RequestId :=
  let id := pending.lastId + 1
  ({ pending with lastId := id }, .number id)

/-- Registers a request and arms its timer; the index of its promise. -/
def register (pending : Pending) (id : RequestId) (method : String) (delay : Option Binary64)
    (session : Option String) : Except Fault (Pending × Nat) :=
  if pending.has id then .error (.alreadyPending id.display)
  else
    let delay := delay.getD pending.standardDelay
    let timer : RequestTimer := ⟨pending.armed, delay.toBillionths?.map (pending.now + ·), id, delay⟩
    let index := pending.promises.length
    .ok
      ({ pending with
          entries := pending.entries.set id ⟨method, session, index, timer.handle⟩
          promises := pending.promises ++ [⟨id, none⟩]
          timers := pending.timers ++ [timer]
          armed := pending.armed + 1 },
        index)

/-! ## Settling -/

/-- Takes a request out of the table and disarms its timer. -/
def take (pending : Pending) (id : RequestId) : Pending :=
  match pending.entries.get? id with
  | none => pending
  | some entry =>
    { pending with
      entries := pending.entries.erase id, timers := pending.timers.filter fun timer => timer.handle != entry.timer }

/-- Gives the promise at an index an outcome unless it has one. -/
def settle (pending : Pending) (index : Nat) (outcome : Outcome) : Pending :=
  { pending with promises := pending.promises.modify index fun promise => promise.settle outcome }

/-- Takes a request out of the table and settles its promise; none if it is not pending. -/
def finish? (pending : Pending) (id : RequestId) (outcome : Outcome) : Option Pending :=
  (pending.entries.get? id).map fun entry => (pending.take id).settle entry.promise outcome

/-- The entry for a response or an error that nobody waits for. -/
def unknown (what : String) (id : RequestId) : LogEntry :=
  .warning ("Received " ++ what ++ " for unknown request: " ++ id.display)

/-- Ends a request with a result; the flag tells whether it was pending. -/
def resolve (pending : Pending) (id : RequestId) (result : Json) : Pending × Bool × Log :=
  match pending.finish? id (.ok result) with
  | some pending => (pending, true, [])
  | none => (pending, false, [unknown "response" id])

/-- Ends a request with a fault; the flag tells whether it was pending. -/
def reject (pending : Pending) (id : RequestId) (fault : Fault) : Pending × Bool × Log :=
  match pending.finish? id (.error fault) with
  | some pending => (pending, true, [])
  | none => (pending, false, [unknown "error" id])

/-- The pending requests of a session, or all of them. -/
def idsOf (pending : Pending) (session : Option String) : List RequestId :=
  match session with
  | none => pending.entries.keys
  | some session => (pending.entries.filter fun entry => entry.2.session == some session).map Prod.fst

/-- Ends the pending requests of a session, or all of them, for a reason; how many there were. -/
def cancelAll (pending : Pending) (reason : String) (session : Option String) : Pending × Nat :=
  let ids := pending.idsOf session
  let cancel := fun (pending : Pending) (id : RequestId) =>
    (pending.finish? id (.error (.requestCancelled reason))).getD pending
  (ids.foldl cancel pending, ids.length)

/-- The indices of the promises that were settled between two states, in order. -/
def newlySettled (before after : Pending) : List Nat :=
  (List.range after.promises.length).filter fun index =>
    (before.outcome? index).isNone && (after.outcome? index).isSome

/-! ## Giving up -/

/-- The waiter of a promise gives up, unless the promise is settled; the flag tells whether it was not. -/
def abandon (pending : Pending) (index : Nat) : Pending × Bool :=
  match pending.promises[index]? with
  | none => (pending, false)
  | some promise =>
    if promise.isSettled then (pending, false)
    else
      ({ pending.settle index (.error .cancelled) with releases := pending.releases ++ [promise.request] }, true)

/-- Carries out the first release that was asked for: it takes out whatever request has the identifier by then. -/
def release (pending : Pending) : Pending :=
  match pending.releases with
  | [] => pending
  | id :: releases => { pending with releases }.take id

/-- Carries out all releases that were asked for. -/
def releaseAll (pending : Pending) : Pending :=
  { pending.releases.foldl take pending with releases := [] }

/-! ## Time -/

/-- Whether a timer is due at a time. -/
def isDue (now : Int) (timer : RequestTimer) : Bool :=
  match timer.due with
  | none => false
  | some due => decide (due ≤ now)

/-- The earlier one of two timers; the first one if they are due together. -/
def earlier (a b : RequestTimer) : RequestTimer :=
  match a.due, b.due with
  | some a', some b' => if b' < a' then b else a
  | none, some _ => b
  | _, none => a

/-- The first one of the armed timers to fire at the latest at a time. -/
def dueTimer? (pending : Pending) (now : Int) : Option RequestTimer :=
  match pending.timers.filter (isDue now) with
  | [] => none
  | timer :: timers => some (timers.foldl earlier timer)

/-- The entry for a request that got no response in time. -/
def timedOut (method : String) (id : RequestId) (delay : Binary64) : LogEntry :=
  .warning ("LSP request " ++ method ++ " (" ++ id.display ++ ") timed out after " ++ String.ofList delay.plain ++ "s")

/-- Moves the clock on to a time, unless it is past. -/
def moveClock (pending : Pending) (time : Option Int) : Pending :=
  { pending with now := max pending.now (time.getD pending.now) }

/-- A timer fires when it is due: its request ends. -/
def expire (pending : Pending) (timer : RequestTimer) : Pending × Log :=
  let pending :=
    { pending.moveClock timer.due with timers := pending.timers.filter fun other => other.handle != timer.handle }
  match pending.entries.get? timer.request with
  | none => (pending, [])
  | some entry =>
    let fault := Fault.requestTimeout entry.method (.float timer.delay)
    ((pending.take timer.request).settle entry.promise (.error fault),
      [timedOut entry.method timer.request timer.delay])

/-- Fires the timers that are due by a time one after the other, at most a number of them, and carries out the releases
behind each one. -/
def fireDue (time : Int) : Nat → Pending → Pending × Log
  | 0, pending => (pending.moveClock time, [])
  | count + 1, pending =>
    match pending.dueTimer? time with
    | none => (pending.moveClock time, [])
    | some timer =>
      let (pending, log) := pending.expire timer
      let (pending, more) := fireDue time count pending.releaseAll
      (pending, log ++ more)

/-- Lets time pass, in billionths of a second: whatever is due by then happens. -/
def elapse (pending : Pending) (time : Int) : Pending × Log :=
  let pending := pending.releaseAll
  fireDue (pending.now + time) pending.timers.length pending

end Pending

end LanguageSessions
