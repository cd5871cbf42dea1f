import LanguageSessions.Proofs.Engine.OneSession
import LanguageSessions.Proofs.Engine.Scenes

/-!
# The sessions of pending requests

A request is registered only for a session that is registered. When a session is taken apart its pending requests end
first, but it stays registered while it is waited for that its process stops, and a request that is made of it meanwhile
is not ended any more. So a request that is pending for a session which is gone is a late one (`LateIn`).
-/

namespace LanguageSessions

/-- Every pending request is for a session, and that is registered if the request is not late. -/
def Scene.Owned (scene : Scene) : Prop :=
  ∀ request entry, (request, entry) ∈ scene.waiting →
    ∃ id, entry.session = some id ∧ (scene.sessions.has id = true ∨ LateIn scene.record id request entry.method)

section Lasting

variable {warrant : Warrant} {before after : Scene}

theorem Change.owned (h : Change warrant before after) (ho : before.Owned) : after.Owned := by
  intro request entry hm
  rcases h.waiting hm with hold | ⟨id, howner, hhas, hsessions, -⟩
  · obtain ⟨id, howner, hhas | hlate⟩ := ho request entry hold
    · refine ⟨id, howner, ?_⟩
      rcases h.has hhas with hhas | ⟨overdue, -⟩
      · exact Or.inl hhas
      · -- The session is taken out, and so all its requests are late.
        exact Or.inr ((overdue request entry hold howner).later h.record)
    · exact ⟨id, howner, Or.inr (hlate.later h.record)⟩
  · exact ⟨id, howner, Or.inl (hsessions ▸ hhas)⟩

theorem Changes.owned (h : Changes warrant before after) (ho : before.Owned) : after.Owned := by
  induction h with
  | refl => exact ho
  | tail _ last ih => exact last.owned ih

theorem Happens.owned (h : Happens warrant before after) (ho : before.Owned) : after.Owned := by
  cases h with
  | changes changes => exact changes.owned ho
  | concludes changes attains => exact changes.owned ho
  | binds rebinds => exact ho

end Lasting

namespace Engine

section Courses

variable {σ : Type} (setup : Setup σ) (layer : σ) (settings : Settings)

/-- **Every pending request is for a session that is registered**, or it was handed over behind a call to stop the
process of its session that did not return at once. -/
theorem pending_requests_have_sessions (events : List (Event σ)) :
    let client := (course setup (fresh layer settings) events).client
    ∀ request entry, (request, entry) ∈ client.pending.entries → ∃ id, entry.session = some id ∧
      (client.sessions.has id = true ∨ LateIn client.layer.2 id request entry.method) := by
  have hcourse := scene_course setup layer settings (fun _ scene => scene.Owned)
    (fun _ _ hm => absurd hm List.not_mem_nil)
    (fun _ _ _ _ _ howned happens => happens.owned howned) events
  obtain ⟨letters, -, howned⟩ := hcourse
  exact howned

/-- **A session that is gone has no pending request**, if no call to stop its process had to be waited for. -/
theorem none_pending_for_absent_sessions (events : List (Event σ)) (id : String)
    (gone : (course setup (fresh layer settings) events).client.sessions.has id = false)
    (atOnce : ⟨.stop id, .waits⟩ ∉ (course setup (fresh layer settings) events).client.layer.2) :
    ∀ request entry, (request, entry) ∈ (course setup (fresh layer settings) events).client.pending.entries →
      entry.session ≠ some id := by
  intro request entry hm howner
  obtain ⟨other, howner', hhas | ⟨front, back, hrecord, hstop, -⟩⟩ :=
    pending_requests_have_sessions setup layer settings events request entry hm
  · cases howner.symm.trans howner'
    exact Bool.false_ne_true (gone.symm.trans hhas)
  · cases howner.symm.trans howner'
    exact atOnce (hrecord ▸ List.mem_append_left _ hstop)

end Courses

/-! ## A request that outlives its session -/

/-- It takes a while to stop a process; every other call of the process layer returns at once. -/
def lingering : Setup Unit where
  layer :=
    { call := fun _ _ call => ⟨(), if call matches .stop _ then .waits else .returns (willing call), []⟩
      resume := fun _ _ call => ⟨(), .returns (willing call), []⟩ }
  surroundings := ⟨"/", "/home", []⟩
  servers := []

/-- A session is ready and is stopped: its server has answered, and its process is to stop. Meanwhile somebody makes a
request, and then the process has stopped. -/
def interposing : List (Event Unit) :=
  [.call (.start "python" "/w"), .turn, .turn, .hear ⟨"s", "\x7b\"id\": 1, \"result\": \x7b\x7d\x7d"⟩, .turn, .turn,
    .turn, .turn, .call (.stop "s"), .turn, .hear ⟨"s", "\x7b\"id\": 2, \"result\": null\x7d"⟩, .turn,
    .call (.request "s" "x/y" .null none), .turn, .layer () [1] [], .turn]

/-- The session is gone, and its request is pending. -/
theorem request_outlives_its_session :
    let client := (course lingering (fresh () Settings.standard) interposing).client
    client.sessions.numbers = [] ∧ client.sessions.sessions.map (·.stage) = [.stopped] ∧
      client.pending.entries.map (fun entry => (entry.1, entry.2.method, entry.2.session)) =
        [(.number 3, "x/y", some "s")] := by
  refine ⟨?_, ?_, ?_⟩ <;> decide +kernel

end Engine

end LanguageSessions
