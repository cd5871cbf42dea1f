import LanguageSessions.Client.Inbound
import Mathlib.Logic.Function.Iterate

/-!
# Telling those who listen

Telling a topic reaches every subscriber that is there when the telling begins, once and in order, whatever the ones
before it do (`told_tell`): each observer takes note of the event, and the store takes it in once for each of its
subscriptions. Besides that only the subscriptions change, by what the observers do, and the log.
-/

namespace LanguageSessions

/-- What an observer was told, if the effect is that. -/
def Effect.told? : Effect → Option (String × Json × Json)
  | .told observer first second => some (observer, first, second)
  | _ => none

/-- Whether an effect is an entry of the log. -/
def Effect.isLogged : Effect → Bool
  | .logged _ => true
  | _ => false

/-- The observer that a subscriber of a topic is, by name. -/
def Audience.name? (audience : Audience) : Listener → Option String
  | .store => none
  | .observer number => (audience.observers[number]?).map (·.name)

/-- The store after it was told of an event, if the event can be taken in. -/
def DiagnosticStore.takeIn (first second : Json) (store : DiagnosticStore) : DiagnosticStore :=
  match first with
  | .string uri => (store.push uri second).2.toOption.getD store
  | _ => store

namespace Client

variable {σ : Type}

/-- Subscribers were told of an event: each observer took note of it once and in order, and the store took it in once
for each of its subscriptions. Nothing else changed but the log and who is subscribed. -/
structure Told (listeners : List Listener) (first second : Json) (before after : Client σ) : Prop where
  history : ∃ effects, after.history = before.history ++ effects ∧
    effects.filterMap Effect.told? = (listeners.filterMap before.audience.name?).map (·, first, second) ∧
    ∀ effect ∈ effects, effect.told?.isSome ∨ effect.isLogged = true
  store : after.diagnostics =
    (DiagnosticStore.takeIn first second)^[listeners.count .store] before.diagnostics
  observers : after.audience.observers = before.audience.observers
  rest : after = { before with
    audience := after.audience, diagnostics := after.diagnostics, history := after.history }

theorem logAll_eq (client : Client σ) (entries : Log) :
    client.logAll entries = { client with history := client.history ++ entries.map .logged } := by
  induction entries generalizing client with
  | nil => rw [logAll, List.foldl_nil, List.map_nil, List.append_nil]
  | cons entry entries ih =>
    have h := ih (client.log entry)
    rw [logAll, List.foldl_cons] at *
    rw [h, log, note, List.map_cons, List.append_assoc, List.singleton_append]

theorem pending_logAll (client : Client σ) (entries : Log) : (client.logAll entries).pending = client.pending := by
  rw [logAll_eq]

theorem observers_modify (audience : Audience) (topic : Topic) (f : Subscribers Listener → Subscribers Listener) :
    (audience.modify topic f).observers = audience.observers := by
  cases topic <;> rfl

theorem observers_unsubscribe {audience after : Audience} {name : String} (h : audience.unsubscribe? name = some after) :
    after.observers = audience.observers := by
  obtain ⟨number, -, h⟩ := Option.bind_eq_some_iff.1 h
  obtain ⟨observer, -, h⟩ := Option.bind_eq_some_iff.1 h
  cases h
  exact observers_modify _ _ _

section Telling

variable {first second : Json} {before middle after : Client σ} {listener : Listener} {listeners : List Listener}

theorem told_nil (client : Client σ) : Told [] first second client client :=
  ⟨⟨[], (List.append_nil _).symm, rfl, nofun⟩, rfl, rfl, rfl⟩

/-- Those who were told first, and those who were told after them. -/
theorem Told.trans (h : Told [listener] first second before middle) (h' : Told listeners first second middle after) :
    Told (listener :: listeners) first second before after := by
  obtain ⟨effects, hh, ht, hq⟩ := h.history
  obtain ⟨effects', hh', ht', hq'⟩ := h'.history
  have hname : middle.audience.name? = before.audience.name? := by
    funext listener
    cases listener <;> simp only [Audience.name?, h.observers]
  constructor
  case history =>
    refine ⟨effects ++ effects', by rw [hh', hh, List.append_assoc], ?_, fun effect he => ?_⟩
    · rw [List.filterMap_append, ht, ht', hname, ← List.map_append, ← List.filterMap_append, List.singleton_append]
    · exact (List.mem_append.1 he).elim (hq effect) (hq' effect)
  case store =>
    have hc : (listener :: listeners).count .store = listeners.count .store + [listener].count .store := by
      rw [List.count_cons, List.count_cons, List.count_nil, Nat.zero_add]
    rw [h'.store, h.store, hc, Function.iterate_add_apply]
  case observers => rw [h'.observers, h.observers]
  case rest => rw [h'.rest, h.rest]

/-- The log may grow behind it. -/
theorem Told.log (h : Told listeners first second before after) (entry : LogEntry) :
    Told listeners first second before (after.log entry) := by
  obtain ⟨effects, hh, ht, hq⟩ := h.history
  refine ⟨⟨effects ++ [.logged entry], ?_, ?_, fun effect he => ?_⟩, h.store, h.observers, ?_⟩
  · rw [Client.log, note, hh, List.append_assoc]
  · rw [List.filterMap_append, ht]
    exact List.append_nil _
  · rcases List.mem_append.1 he with he | he
    · exact hq effect he
    · rw [List.mem_singleton.1 he]
      exact Or.inr rfl
  · rw [Client.log, note, h.rest]

/-- The store takes an event in; that it may leave entries in the log or fail is no matter. -/
theorem told_tellStore (client : Client σ) (uri : String) (items : Json) :
    Told [.store] (.string uri) items client (client.tellStore uri items).1 := by
  have hlog : ∀ (entries : Log) (diagnostics : DiagnosticStore),
      diagnostics = client.diagnostics.takeIn (.string uri) items →
      Told [.store] (.string uri) items client
        { client with history := client.history ++ entries.map .logged, diagnostics } := by
    intro entries diagnostics hd
    refine ⟨⟨entries.map .logged, rfl, ?_, fun effect he => ?_⟩, hd, rfl, rfl⟩
    · rw [List.filterMap_map]
      exact List.filterMap_eq_nil_iff.2 fun _ _ => rfl
    · obtain ⟨entry, -, rfl⟩ := List.mem_map.1 he
      exact Or.inr rfl
  unfold tellStore
  dsimp only
  rw [logAll_eq]
  split
  · next store hp => exact hlog _ store (by rw [DiagnosticStore.takeIn, hp]; rfl)
  · next error hp => exact hlog _ client.diagnostics (by rw [DiagnosticStore.takeIn, hp]; rfl)

theorem told_tellObserver (client : Client σ) {number : Nat} {observer : Observer}
    (ho : client.audience.observers[number]? = some observer) :
    Told [.observer number] first second client (client.tellObserver observer first second).1 := by
  have hnote : ∀ audience : Audience, audience.observers = client.audience.observers →
      Told [.observer number] first second client
        { client.note (.told observer.name first second) with audience } := by
    intro audience ha
    refine ⟨⟨[.told observer.name first second], rfl, ?_, fun effect he => ?_⟩, rfl, ha, rfl⟩
    · rw [List.filterMap_cons_some (b := observer.name) (by rw [Audience.name?, ho]; rfl)]
      rfl
    · rw [List.mem_singleton.1 he]
      exact Or.inl rfl
  unfold tellObserver
  dsimp only
  split
  · exact hnote _ rfl
  · exact hnote _ rfl
  · split
    · next name _ audience hu => exact hnote audience (observers_unsubscribe hu)
    · exact hnote _ rfl

/-- One subscriber is told. -/
theorem told_tellListener (client : Client σ) (first second : Json) (listener : Listener) :
    Told [listener] first second client (tellListener first second client listener).1 := by
  cases listener with
  | store =>
    cases first with
    | string uri => exact client.told_tellStore uri second
    | _ => exact ⟨⟨[], (List.append_nil _).symm, rfl, nofun⟩, rfl, rfl, rfl⟩
  | observer number =>
    unfold tellListener
    dsimp only
    split
    · next observer ho => exact client.told_tellObserver ho
    · next ho =>
      refine ⟨⟨[], (List.append_nil _).symm, ?_, nofun⟩, rfl, rfl, rfl⟩
      rw [List.filterMap_cons_none (by rw [Audience.name?, ho]; rfl)]
      rfl

/-- **All who are subscribed when the telling begins are told**, each once for each of its subscriptions. -/
theorem told_tell (client : Client σ) (topic : Topic) (first second : Json) :
    Told (client.audience.of topic) first second client (client.tell topic first second) := by
  unfold tell
  generalize client.audience.of topic = listeners
  induction listeners generalizing client with
  | nil => exact told_nil client
  | cons listener listeners ih =>
    have h := client.told_tellListener first second listener
    unfold Subscribers.emit
    dsimp only
    split
    · exact (h.log _).trans (ih _)
    · exact h.trans (ih _)

end Telling

end Client

end LanguageSessions
