import LanguageSessions.Proofs.Engine.Course

/-!
# The order of what servers are told

Everything that is handed over in a course of events is told by letters (`Tells`): what a client says of its own accord
to the server of a session is in order, and all else somebody asked for. The server is told that the session is set up
only after a response to the request that opened the handshake was received (`messages_follow_the_protocol`).

Requests and queries only ask whether their session is registered. So they are handed over during the handshake already
(`hover_during_the_handshake`), and a notification that is passed on does not ask even that. A session is registered, too,
whose handshake cannot be opened, until its process was stopped; requests reach its server though it was never told that
there is a session.
-/

namespace LanguageSessions.Engine

open Client Account

variable {σ : Type}

/-- Letters tell what was handed over in the course of events. Those that the client did not write by itself were asked
for by operations that were called, and the others are for sessions with their identifiers, in order. The server of a
session is told first of all what opens the handshake; if that cannot be written, it is told nothing of its own but the
requests that somebody makes, and at the end to shut down and to exit. -/
structure Tells (setup : Setup σ) (events : List (Event σ)) (engine : Engine (σ × List Exchange))
    (letters : List Letter) : Prop where
  handed : ∀ id, engine.client.handed id =
    letters.filterMap fun letter => if letter.session = id then some letter.text else none
  written : ∀ letter ∈ letters, letter.IsWritten → ∃ operation, .call operation ∈ events ∧ operation.Writes letter
  owned : ∀ id number dispatch, .own id number dispatch ∈ letters →
    ∃ session, engine.client.sessions.session? number = some session ∧ session.id = id
  inOrder : ∀ number, Dispatch.InOrder (letters.filterMap (Letter.dispatch? number))
  opened : ∀ number session, engine.client.sessions.session? number = some session →
    setup.opens session.language = true → ∃ request params rest,
      letters.filterMap (Letter.dispatch? number) = .opening request params :: rest
  unopened : ∀ number session, engine.client.sessions.session? number = some session →
    setup.opens session.language = false → ∀ dispatch ∈ letters.filterMap (Letter.dispatch? number),
      dispatch.IsAsked ∨ dispatch.IsFarewell

theorem Lawful.tells {setup : Setup σ} {events : List (Event σ)} {answers : RequestId → Json → Prop}
    {letters : List Letter} {engine : Engine (σ × List Exchange)}
    (h : Lawful setup.opens (fun operation => .call operation ∈ events) answers letters engine) :
    Tells setup events engine letters where
  handed id := by
    have hsent := h.coherent.sent
    change (engine.client.history.filterMap Effect.called?).filterMap LayerCall.sent? = letters.map _ at hsent
    rw [handed_eq, hsent, List.filterMap_map]
    rfl
  written := h.written
  owned := h.coherent.owned
  inOrder := h.coherent.inOrder
  opened number session found opens := (h.coherent.inOrder number).opened_first ((h.opened number session found).2 opens)
  unopened number session found opens dispatch hm := by
    refine (h.coherent.inOrder number).unopened (fun hopened => ?_) hm
    exact absurd (((h.opened number session found).1 hopened).symm.trans opens) (by decide)

/-- The request that opened the handshake of a session got a result: a response with it was received. -/
theorem Lawful.received {opens : String → Bool} {called : Operation → Prop} {answers : RequestId → Json → Prop}
    {letters : List Letter} {engine : Engine (σ × List Exchange)} (h : Lawful opens called answers letters engine)
    {number : Nat}
    (ha : (engine.client.account letters).Answered number) :
    ∃ id request params result, .own id number (.opening request params) ∈ letters ∧ answers request result := by
  obtain ⟨request, params, index, result, hm, hp⟩ := ha
  obtain ⟨letter, hletter, hdispatch⟩ := List.mem_filterMap.1 hm
  obtain ⟨id, rfl⟩ := Letter.dispatch?_eq_some_iff.1 hdispatch
  exact ⟨id, request, params, result, hletter, h.answered index _ result hp rfl⟩

/-- **What servers are told follows the protocol**, in the course of any events. Apart from notifications that somebody
had passed on, the server of a session is told first of all, and once, the request that opens the handshake, if that can
be written; requests and queries of others come behind it. It is told once that the session is set up, after a response
with a result to that request was received, and only then its settings, and whatever concerns documents. It is asked to
shut down at most once, and hears nothing about documents behind that; and it is told to exit at most once, behind that
too. If the request that opens the handshake cannot be written, all that it hears is requests and queries of others, and
that it is to shut down and to exit. -/
theorem messages_follow_the_protocol (setup : Setup σ) (layer : σ) (settings : Settings) (events : List (Event σ)) :
    ∃ letters, Tells setup events (course setup (fresh layer settings) events) letters ∧
      ∀ id number, .own id number .initialized ∈ letters → ∃ request params result,
        .own id number (.opening request params) ∈ letters ∧
          Received setup (fresh layer settings) events request result := by
  obtain ⟨letters, h⟩ := lawful_course setup layer settings events
  refine ⟨letters, h.tells, fun id number hm => ?_⟩
  have htold : .initialized ∈ ((course setup (fresh layer settings) events).client.account letters).dispatches number :=
    List.mem_filterMap.2 ⟨_, hm, Letter.dispatch?_eq_some_iff.2 ⟨id, rfl⟩⟩
  obtain ⟨id', request, params, result, hopening, hreceived⟩ := h.received (h.coherent.told number htold)
  obtain ⟨session, found, rfl⟩ := h.coherent.owned id number _ hm
  obtain ⟨session', found', rfl⟩ := h.coherent.owned id' number _ hopening
  cases found.symm.trans found'
  exact ⟨request, params, result, hopening, hreceived⟩

/-! ## Queries during the handshake -/

/-- Every call of the process layer returns at once. -/
def prompt : Setup Unit where
  layer :=
    { call := fun _ _ call => ⟨(), .returns (match call with
        | .check _ => true
        | .inspect _ => ⟨true, true, false, none, none⟩
        | .download _ => ""
        | .start _ _ => ⟨"s", true, none⟩
        | .stop _ => ()
        | .send _ _ => ()), []⟩
      resume := fun _ _ _ => ⟨(), .waits, []⟩ }
  surroundings := ⟨"/", "/home", []⟩
  servers := []

/-- Somebody asks about a place while the server is still to answer the request that opens the handshake. -/
def hovering : List (Event Unit) :=
  [.call (.start "python" "/w"), .turn, .turn, .call (.hover "s" "/w/a.py" ⟨0, 0⟩), .turn]

/-- The second message the server is handed is the query, and it has answered nothing: no request has an outcome yet. -/
theorem hover_during_the_handshake :
    ((course prompt (fresh () Settings.standard) hovering).client.handed "s")[1]? =
        some (Dispatch.query (.number 2) "textDocument/hover"
          (.object (Client.placeParameters "/w/a.py" ⟨0, 0⟩))).print ∧
      (course prompt (fresh () Settings.standard) hovering).client.pending.outcome? 0 = none ∧
      (course prompt (fresh () Settings.standard) hovering).client.pending.outcome? 1 = none := by
  refine ⟨by decide +kernel, ?_, ?_⟩ <;> exact Option.isNone_iff_eq_none.1 (by decide +kernel)

end LanguageSessions.Engine
