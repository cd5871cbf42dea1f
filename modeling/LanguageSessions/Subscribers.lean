import LanguageSessions.Entries
import LanguageSessions.Json.Basic
import LanguageSessions.Log

/-!
# Subscribers

A registry of subscribers that all hear of every event. Subscribers are told one after the other, each of those that
were there when the event began, whatever the ones before it do; one that fails is reported and passed over.
-/

namespace LanguageSessions

/-- Subscribers in the order in which they subscribed; one may stand there more than once. -/
abbrev Subscribers (α : Type) := List α

namespace Subscribers

variable {α σ : Type}

/-- Adds a subscriber. -/
def subscribe (subscribers : Subscribers α) (subscriber : α) : Subscribers α := subscribers ++ [subscriber]

/-- Takes out the first subscription of a subscriber, if there is one. -/
def unsubscribe [DecidableEq α] (subscribers : Subscribers α) (subscriber : α) : Subscribers α :=
  subscribers.erase subscriber

/-- The entry for a subscriber that failed. -/
def failed (name : String) : LogEntry := .error (name ++ " callback error")

/-- Tells subscribers of an event, where `call` is what one does and whether it then fails, and `report` takes note of a
failure. -/
def emit (call : σ → α → σ × Bool) (report : σ → σ) (state : σ) : Subscribers α → σ
  | [] => state
  | subscriber :: rest =>
    let (state, fails) := call state subscriber
    emit call report (if fails then report state else state) rest

end Subscribers

/-! ## Subscribers that act on their registry -/

/-- What a subscriber does when it is told of an event. -/
inductive SubscriberAction where
  | fail
  /-- Uses the handle of a subscription. -/
  | unsubscribe (handle : String)
  /-- Subscribes somebody, under a handle. -/
  | subscribe (handle subscriber : String)
  /-- Takes out all subscribers. -/
  | clear
  deriving DecidableEq, Repr

/-- A registry, the handles of the subscriptions made in it, and what its subscribers do. -/
structure SubscriberRegistry where
  name : String
  subscribers : Subscribers String
  /-- The subscriber that each handle takes out. -/
  handles : Entries String String
  behaviours : Entries String (List SubscriberAction)

namespace SubscriberRegistry

/-- A registry without subscribers. -/
def empty (name : String) : SubscriberRegistry := ⟨name, [], [], []⟩

/-- Says what a subscriber does. -/
def define (registry : SubscriberRegistry) (subscriber : String) (actions : List SubscriberAction) :
    SubscriberRegistry :=
  { registry with behaviours := registry.behaviours.set subscriber actions }

/-- Adds a subscriber under a handle. -/
def subscribe (registry : SubscriberRegistry) (handle subscriber : String) : SubscriberRegistry :=
  { registry with
    subscribers := registry.subscribers.subscribe subscriber, handles := registry.handles.set handle subscriber }

/-- Uses a handle; none if there is no such handle. -/
def unsubscribe? (registry : SubscriberRegistry) (handle : String) : Option SubscriberRegistry :=
  (registry.handles.get? handle).map fun subscriber =>
    { registry with subscribers := registry.subscribers.unsubscribe subscriber }

/-- Takes out all subscribers. -/
def clear (registry : SubscriberRegistry) : SubscriberRegistry := { registry with subscribers := [] }

/-- Does one thing; none if it fails. -/
def act? (registry : SubscriberRegistry) : SubscriberAction → Option SubscriberRegistry
  | .fail => none
  | .unsubscribe handle => registry.unsubscribe? handle
  | .subscribe handle subscriber =>
    if registry.behaviours.has subscriber then some (registry.subscribe handle subscriber) else none
  | .clear => some registry.clear

/-- Does one thing after the other until one fails; the flag tells whether one did. -/
def perform (registry : SubscriberRegistry) : List SubscriberAction → SubscriberRegistry × Bool
  | [] => (registry, false)
  | action :: rest =>
    match registry.act? action with
    | none => (registry, true)
    | some registry => perform registry rest

/-- A registry on its way through an event: who was told of what up to now, and what was reported. -/
structure Emission where
  registry : SubscriberRegistry
  told : List (String × List Json)
  log : Log

/-- What each subscriber does when it is told of an event, which may depend on all that the event did before. -/
abbrev Behaviour := Emission → String → List SubscriberAction

/-- Tells one subscriber. -/
def Emission.tell (behave : Behaviour) (args : List Json) (emission : Emission) (subscriber : String) :
    Emission × Bool :=
  let (registry, fails) := emission.registry.perform (behave emission subscriber)
  ({ emission with registry, told := emission.told ++ [(subscriber, args)] }, fails)

/-- Takes note of a failure. -/
def Emission.report (emission : Emission) : Emission :=
  { emission with log := emission.log ++ [Subscribers.failed emission.registry.name] }

/-- Tells all subscribers of an event. -/
def emitWith (registry : SubscriberRegistry) (behave : Behaviour) (args : List Json) : Emission :=
  Subscribers.emit (Emission.tell behave args) Emission.report ⟨registry, [], []⟩ registry.subscribers

/-- Each subscriber does what was said of it. -/
def asDefined : Behaviour := fun emission subscriber => (emission.registry.behaviours.get? subscriber).getD []

/-- Tells all subscribers of an event, on which each does what was said of it. -/
def emit (registry : SubscriberRegistry) (args : List Json) : Emission := registry.emitWith asDefined args

end SubscriberRegistry

end LanguageSessions
