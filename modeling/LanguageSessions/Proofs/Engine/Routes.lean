import LanguageSessions.Proofs.Engine.Scenes
import LanguageSessions.Proofs.Engine.OneSession

/-!
# Where the routes lead

When a session is taken out, so are all routes to it. A route is put in only when a binding is connected, and then the
session that the binding is connected to is registered, unless the connection is late (`ConnectsLate`): the session was
started, but it was taken out before the call that waited for the start went on.
-/

namespace LanguageSessions

namespace Routes

/-- The identifier of a session occurs in the routes. -/
def LeadsTo (routes : Routes) (id : String) : Prop :=
  (∃ path route, (path, route) ∈ routes.byFile ∧ route.session = id) ∨ ∃ key, (key, id) ∈ routes.byRoot

variable {routes : Routes} {id : String}

theorem not_leadsTo_empty (id : String) : ¬ Routes.empty.LeadsTo id := by
  rintro (⟨path, route, hm, -⟩ | ⟨key, hm⟩)
  · cases hm
  · cases hm

theorem LeadsTo.of_register {path : String} {route : Route} (h : (routes.register path route).LeadsTo id) :
    routes.LeadsTo id ∨ id = route.session := by
  rcases h with ⟨other, found, hm, rfl⟩ | ⟨key, hm⟩
  · rcases Entries.mem_set hm with hm | ⟨-, rfl⟩
    · exact Or.inl (Or.inl ⟨other, found, hm, rfl⟩)
    · exact Or.inr rfl
  · rcases Entries.mem_set hm with hm | ⟨-, rfl⟩
    · exact Or.inl (Or.inr ⟨key, hm⟩)
    · exact Or.inr rfl

theorem LeadsTo.of_unregister {path : String} (h : (routes.unregister path).LeadsTo id) : routes.LeadsTo id := by
  rcases h with ⟨other, found, hm, hid⟩ | ⟨key, hm⟩
  · exact Or.inl ⟨other, found, (Entries.mem_erase.1 hm).1, hid⟩
  · exact Or.inr ⟨key, hm⟩

/-- The routes to a session are dropped, and no others. -/
theorem LeadsTo.of_unregisterSession {session : String} (h : (routes.unregisterSession session).LeadsTo id) :
    routes.LeadsTo id ∧ id ≠ session := by
  rcases h with ⟨other, found, hm, rfl⟩ | ⟨key, hm⟩
  · obtain ⟨hm, hne⟩ := List.mem_filter.1 hm
    exact ⟨Or.inl ⟨other, found, hm, rfl⟩, by simpa using hne⟩
  · obtain ⟨hm, hne⟩ := List.mem_filter.1 hm
    exact ⟨Or.inr ⟨key, hm⟩, by simpa using hne⟩

end Routes

/-! ## Routes in a scene -/

/-- The routes lead to registered sessions, and to some others. -/
def Scene.Routed (others : String → Prop) (scene : Scene) : Prop :=
  ∀ id, scene.routes.LeadsTo id → scene.sessions.has id = true ∨ others id

section Lasting

variable {warrant : Warrant} {others : String → Prop} {before after : Scene}

theorem Scene.Offers.has {scene : Scene} {id : String} (h : scene.Offers id) : scene.sessions.has id = true := by
  obtain ⟨number, session, registered, rfl, -⟩ := h
  refine Option.isSome_iff_ne_none.2 fun hnone => ?_
  exact Entries.get?_eq_none_iff.1 hnone (Entries.mem_keys_of_mem registered.listed)

/-- A route that was not there before leads to a session that a binding was connected to. -/
theorem Change.leadsTo (h : Change warrant before after) {id : String} (hl : after.routes.LeadsTo id) :
    before.routes.LeadsTo id ∨ (∃ number, warrant.connects number id) ∧
      (after.sessions.has id = true ∨ some (.ok id) ∈ before.outcomes) := by
  cases h with
  | @dropped number session found overdue => exact Or.inl hl.of_unregisterSession.1
  | @connected number other path language root connects source =>
    rcases hl.of_register with hl | rfl
    · exact Or.inl hl
    · exact Or.inr ⟨⟨number, connects⟩, source.imp_left (·.has)⟩
  | left path binds => exact Or.inl hl.of_unregister
  | unrouted => exact absurd hl (Routes.not_leadsTo_empty id)
  | _ => exact Or.inl hl

/-- A change leaves the routes leading to registered sessions, and to those that were started and that bindings are
connected to. -/
theorem Change.routed (h : Change warrant before after) (hr : before.Routed others)
    (late : ∀ number id, warrant.connects number id → some (.ok id) ∈ before.outcomes → others id) :
    after.Routed others := by
  intro id hl
  rcases h.leadsTo hl with hbefore | ⟨⟨number, connects⟩, hhas | hstarted⟩
  · rcases hr id hbefore with hhas | hother
    · rcases h.has hhas with hhas | ⟨-, sessions, heq⟩
      · exact Or.inl hhas
      · -- The session was taken out, and the routes to it were dropped.
        rw [heq] at hl
        exact absurd rfl hl.of_unregisterSession.2
    · exact Or.inr hother
  · exact Or.inl hhas
  · exact Or.inr (late number id connects hstarted)

theorem Changes.routed (h : Changes warrant before after) (hr : before.Routed others)
    (late : ∀ number id, warrant.connects number id → some (.ok id) ∈ before.outcomes → others id) :
    after.Routed others := by
  induction h with
  | refl => exact hr
  | tail first last ih =>
    exact last.routed ih fun number id connects hm => late number id connects (Changes.outcomes first hm)

theorem Happens.routed (h : Happens warrant before after) (hr : before.Routed others)
    (late : ∀ number id, warrant.connects number id → some (.ok id) ∈ before.outcomes → others id) :
    after.Routed others := by
  cases h with
  | changes changes => exact changes.routed hr late
  | concludes changes attains => exact changes.routed hr late
  | binds rebinds => exact hr

end Lasting

namespace Engine

variable {σ : Type}

/-! ## Late connections -/

/-- In an event a binding is connected late: an attempt to start a server brought the session to be ready, and behind
the event it is not registered any more. -/
structure ConnectsLate (engine : Engine (σ × List Exchange)) (event : Event σ) (setup : Setup σ) (id : String) :
    Prop where
  connects : ∃ number, engine.Connects event setup number id
  started : ∃ attempt ∈ engine.client.attempts, attempt.outcome = some (.ok id)
  ready : ∃ number session, engine.client.sessions.session? number = some session ∧ session.id = id ∧
    SessionStage.ready.rank ≤ session.stage.rank
  gone : (engine.goes setup event).client.sessions.has id = false

/-- **Every route leads to a session that is registered, or a binding was connected to it late.** -/
theorem routes_lead_to_sessions (setup : Setup σ) (layer : σ) (settings : Settings) (events : List (Event σ)) :
    let client := (course setup (fresh layer settings) events).client
    ∀ id, client.routes.LeadsTo id → client.sessions.has id = true ∨ ∃ before event after,
      events = before ++ event :: after ∧ (course setup (fresh layer settings) before).ConnectsLate event setup id := by
  let others : List (Event σ) → String → Prop := fun events id => ∃ before event after,
    events = before ++ event :: after ∧ (course setup (fresh layer settings) before).ConnectsLate event setup id
  have hcourse := scene_course setup layer settings (fun events scene => scene.Routed (others events))
    (fun id hl => absurd hl (Routes.not_leadsTo_empty id)) ?_ events
  · obtain ⟨letters, -, hrouted⟩ := hcourse
    exact hrouted
  intro events event letters letters' composed hrouted happens id hl
  have hothers : ∀ id, others events id → others (events ++ [event]) id := by
    rintro id ⟨before, other, after, rfl, hlate⟩
    exact ⟨before, other, after ++ [event], by simp, hlate⟩
  let engine := course setup (fresh layer settings) events
  have hwider : (engine.client.scene letters).Routed fun id => others events id ∨
      (∃ number, engine.Connects event setup number id) ∧ some (.ok id) ∈ (engine.client.scene letters).outcomes :=
    fun id hl => (hrouted id hl).imp_right Or.inl
  have hafter := happens.routed hwider fun number id connects hm => Or.inr ⟨⟨number, connects⟩, hm⟩
  cases hhas : (course setup (fresh layer settings) (events ++ [event])).client.sessions.has id with
  | true => exact Or.inl hhas
  | false =>
    right
    rcases hafter id hl with hhas' | hold | ⟨connects, hm⟩
    · exact absurd (hhas.symm.trans hhas') Bool.false_ne_true
    · exact hothers id hold
    · obtain ⟨attempt, hattempt, houtcome⟩ := List.mem_map.1 hm
      refine ⟨events, event, [], rfl, connects, ⟨attempt, hattempt, houtcome⟩, composed.fruitful id hm, ?_⟩
      rw [← course_concat]
      exact hhas

/-! ## A route to a session that is gone -/

/-- Only two messages can be handed over; every other call of the process layer returns at once. -/
def breaking : Setup Nat where
  layer :=
    { call := fun sent _ call => match call with
        | .send _ _ => ⟨sent + 1, if sent < 2 then .returns () else .raises (.connection "closed"), []⟩
        | call => ⟨sent, .returns (willing call), []⟩
      resume := fun sent _ _ => ⟨sent, .waits, []⟩ }
  surroundings := ⟨"/", "/home", []⟩
  servers := [("python", ⟨"Python", "python", [".py"], ["pylsp"], [], [], [], [], none⟩)]

/-- A file is bound, and its binding is to be connected. The server that is started for it answers, and its session is
to be stopped before anything has come of the answer. -/
def hurried : List (Event Nat) :=
  [.bind [⟨"/w/a.py", "/w", some "python", none, none, false⟩], .call (.connect 0), .turn, .turn,
    .hear ⟨"s", "\x7b\"id\": 1, \"result\": \x7b\x7d\x7d"⟩, .call (.stop "s")] ++ List.replicate 6 .turn

/-- The session is ready when its end begins, and gone when its binding is connected to it. -/
theorem route_to_a_session_that_is_gone :
    let client := (course breaking (fresh 0 Settings.standard) hurried).client
    client.sessions.numbers = [] ∧ client.bindings.map (·.session) = [some "s"] ∧
      client.routes.byFile = [("/w/a.py", ⟨"s", "python", "/w"⟩)] ∧
      client.routes.byRoot = [(("/w", "python"), "s")] := by
  refine ⟨?_, ?_, ?_, ?_⟩ <;> decide +kernel

end Engine

end LanguageSessions
