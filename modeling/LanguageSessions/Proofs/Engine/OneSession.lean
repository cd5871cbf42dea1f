import LanguageSessions.Proofs.Engine.Joins

/-!
# One live session per key

In every state that a run comes to, at most one registered session of a key is about to serve or serves, and at most one
attempt runs for the key. No attempt is launched beside a ready session of its key, and while one runs no session of the
key is ready. Calls that joined the same attempt end alike (`one_live_session_per_key`).
-/

namespace LanguageSessions.Engine

open Client

variable {σ : Type} {engine : Engine σ} {setup : Setup σ}

/-! ## Sessions and attempts of a key -/

/-- Two live sessions of a key are the same one. -/
theorem Sound.one_live (h : engine.Sound) {id id' : String} {session session' : Session}
    (hs : engine.client.sessions.get? id = some session) (hs' : engine.client.sessions.get? id' = some session')
    (hk : session'.key = session.key) (hl : session.stage.isLive = true) (hl' : session'.stage.isLive = true) :
    id' = id := by
  obtain ⟨number, hr, rfl⟩ := h.named.registered_of_get? hs
  obtain ⟨number', hr', rfl⟩ := h.named.registered_of_get? hs'
  have hsame : number' = number :=
    Client.Sound.live_unique h ⟨hl, session, hr, rfl, rfl⟩ ⟨hl', session', hr', hk, rfl⟩
  subst hsame
  cases hr.session.symm.trans hr'.session
  rfl

/-- While an attempt runs for a key, no session of the key is ready. -/
theorem Sound.unready (h : engine.Sound) {number : Nat} {key : String × String} (hr : engine.client.Running number key)
    {id : String} {session : Session} (hs : engine.client.sessions.get? id = some session) (hk : session.key = key) :
    session.stage ≠ .ready := by
  intro hready
  obtain ⟨other, hreg, -⟩ := h.named.registered_of_get? hs
  exact Client.Sound.not_ready h hr other ⟨rfl, session, hreg, hk, hready⟩

/-- Beside a ready session no attempt is launched for its key. -/
theorem Sound.launched (h : engine.Sound) (hlayer : setup.layer.StopsUncancelled) {event : Event σ}
    (ha : engine.Allows event) {number : Nat} {attempt : Attempt} (hn : engine.client.attempts.length ≤ number)
    (hf : (engine.after setup event).client.attempts[number]? = some attempt) {id : String} {session : Session}
    (hs : engine.client.sessions.get? id = some session) (hk : session.key = attempt.key) : session.stage ≠ .ready := by
  intro hready
  obtain ⟨other, hreg, -⟩ := h.named.registered_of_get? hs
  have hlive : engine.client.sessions.Live attempt.key other .ready := ⟨rfl, session, hreg, hk, hready⟩
  by_cases hne : event = .turn
  · subst hne
    rw [Engine.after] at hf
    rcases next_cases engine setup with heq | ⟨turn, queue, hq, heq⟩
    · rw [heq] at hf
      exact absurd (List.getElem?_eq_some_iff.1 hf).1 (Nat.not_lt_of_le hn)
    · rw [heq] at hf
      have hl := (turned_perform h hlayer hq).moves.launched hn hf
      exact Client.Sound.idle_of_launches (h.pop hq) hl other .ready hlive
  · have hlt := (List.getElem?_eq_some_iff.1 hf).1
    rw [(still_after setup ha hne).1.length] at hlt
    omega

/-! ## Calls that joined an attempt -/

/-- In a run a call to start a session joined an attempt, and was not cancelled behind that. -/
def JoinedIn (setup : Setup σ) (first : Engine σ) (events : List (Event σ)) (task number : Nat) : Prop :=
  ∃ before after middle key, events = before ++ .turn :: after ∧ Run setup first before middle ∧
    Joins setup middle task key number ∧ .cancel task ∉ after

/-- A run from a state comes to one state only. -/
theorem Run.unique {first second third : Engine σ} {events : List (Event σ)} (run : Run setup first events second)
    (run' : Run setup first events third) : third = second := by
  induction run with
  | nil _ => cases run'; rfl
  | cons _ _ ih => cases run' with | cons _ run' => exact ih run'

/-- A call that joined an attempt waits for it, or has ended as the attempt has. -/
theorem JoinedIn.awaits {first : Engine σ} {events : List (Event σ)} {task number : Nat}
    (h : JoinedIn setup first events task number) (run : Run setup first events engine)
    (hlayer : setup.layer.StopsUncancelled) (ho : first.Orderly) : engine.Awaits task number := by
  obtain ⟨before, after, middle, key, rfl, hbefore, hjoins, hc⟩ := h
  obtain ⟨middle', hbefore', hafter⟩ := run.split
  cases hbefore.unique hbefore'
  cases hafter with
  | cons allowed hafter =>
    have hs := (hbefore.orderly hlayer ho).sound
    exact hafter.awaits hlayer hc (hs.after hlayer allowed) (hjoins.awaits hs)

/-- **At most one session of a key is live**, and at most one attempt runs for it; no attempt is launched for a key, and
none runs for it, beside a ready session; calls that joined the same attempt and are not cancelled end with its outcome,
and so they all end alike. -/
theorem one_live_session_per_key (hlayer : setup.layer.StopsUncancelled) (layer : σ) (settings : Settings)
    {events : List (Event σ)} (run : Run setup (Engine.new (Client.new layer settings)) events engine) :
    (∀ id id' session session', engine.client.sessions.get? id = some session →
      engine.client.sessions.get? id' = some session' → session'.key = session.key →
      session.stage.isLive = true → session'.stage.isLive = true → id' = id) ∧
    (∀ number number' key, engine.client.Running number key → engine.client.Running number' key → number' = number) ∧
    (∀ event number attempt, engine.Allows event → engine.client.attempts.length ≤ number →
      (engine.after setup event).client.attempts[number]? = some attempt →
      ∀ id session, engine.client.sessions.get? id = some session → session.key = attempt.key →
        session.stage ≠ .ready) ∧
    (∀ number key, engine.client.Running number key →
      ∀ id session, engine.client.sessions.get? id = some session → session.key = key → session.stage ≠ .ready) ∧
    (∀ task number, JoinedIn setup (Engine.new (Client.new layer settings)) events task number →
      ∃ attempt, engine.client.attempts[number]? = some attempt ∧
        (∀ result cancelled, engine.tasks[task]? = some ⟨.finished result, cancelled⟩ →
          ∃ outcome, attempt.outcome = some outcome ∧ result = outcome.map fun session => .session (some session)) ∧
        (∀ outcome, attempt.outcome = some outcome → engine.client.queue = [] →
          engine.tasks[task]? = some ⟨.finished (outcome.map fun session => .session (some session)), false⟩)) ∧
    (∀ task task' number, JoinedIn setup (Engine.new (Client.new layer settings)) events task number →
      JoinedIn setup (Engine.new (Client.new layer settings)) events task' number →
      ∀ result result' cancelled cancelled', engine.tasks[task]? = some ⟨.finished result, cancelled⟩ →
        engine.tasks[task']? = some ⟨.finished result', cancelled'⟩ → result' = result) := by
  have hnew := orderly_new layer settings
  obtain ⟨hs, -, hheard⟩ := run.orderly hlayer hnew
  refine ⟨fun _ _ _ _ hg hg' => hs.one_live hg hg', fun _ _ _ hr hr' => Client.Sound.running_unique hs hr hr',
    fun _ _ _ ha hn hf _ _ hg hk => hs.launched hlayer ha hn hf hg hk, fun _ _ hr _ _ hg hk => hs.unready hr hg hk,
    fun task number hj => ?_, fun task task' number hj hj' result result' _ _ hf hf' => ?_⟩
  · have hawaits := hj.awaits run hlayer hnew
    obtain ⟨attempt, ha⟩ : ∃ attempt, engine.client.attempts[number]? = some attempt := by
      cases hawaits with
      | waits found _ => exact ⟨_, found⟩
      | ended found _ _ => exact ⟨_, found⟩
    refine ⟨attempt, ha, fun result _ hf => ?_, fun outcome ho hq => hawaits.finished hheard hq ha ho⟩
    obtain ⟨attempt', outcome, ha', ho, hresult⟩ := hawaits.outcome hf
    cases ha'.symm.trans ha
    exact ⟨outcome, ho, hresult⟩
  · obtain ⟨attempt, outcome, ha, ho, rfl⟩ := (hj.awaits run hlayer hnew).outcome hf
    obtain ⟨attempt', outcome', ha', ho', rfl⟩ := (hj'.awaits run hlayer hnew).outcome hf'
    cases ha.symm.trans ha'
    cases ho.symm.trans ho'
    rfl

/-! ## Two calls that share an attempt -/

/-- What a process layer answers that can start a server. -/
def willing : (call : LayerCall) → call.Answer
  | .check _ => true
  | .inspect _ => ⟨true, true, false, none, none⟩
  | .download _ => ""
  | .start _ _ => ⟨"s", true, none⟩
  | .stop _ | .send _ _ => ()

/-- The process layer takes a while to start a server, and does all else at once. -/
def slow : Setup Unit where
  layer :=
    { call := fun _ _ call => ⟨(), if call matches .start _ _ then .waits else .returns (willing call), []⟩
      resume := fun _ _ call => ⟨(), .returns (willing call), []⟩ }
  surroundings := ⟨"/", "/home", []⟩
  servers := []

/-- Nothing has happened yet. -/
def untouched : Engine Unit := Engine.new (Client.new () Settings.standard)

/-- A session is started twice, under two spellings of its root, before its server runs. -/
def sharing : List (Event Unit) :=
  [.call (.start "python" "/w"), .call (.start "python" "/w/"), .turn, .turn, .turn, .layer () [2] [], .turn,
    .hear ⟨"s", "\x7b\"jsonrpc\": \"2.0\", \"id\": 1, \"result\": \x7b\x7d\x7d"⟩,
    .turn, .turn, .turn, .turn, .turn, .turn]

theorem allows_sharing : ∀ event ∈ sharing, ∀ engine : Engine Unit, engine.Allows event := by
  simp [sharing, Allows]

theorem joinedIn_first : JoinedIn slow untouched sharing 0 0 := by
  refine ⟨sharing.take 2, sharing.drop 3, _, ("python", "/w"), rfl, run_foldl (fun event he => ?_) _, ?_,
    by simp [sharing]⟩
  · exact allows_sharing event (List.mem_of_mem_take he)
  · exact ⟨⟨[.begin 1], by decide +kernel⟩, ⟨"/w", rfl, by decide +kernel⟩, by decide +kernel, by decide +kernel,
      by decide +kernel⟩

theorem joinedIn_second : JoinedIn slow untouched sharing 1 0 := by
  refine ⟨sharing.take 3, sharing.drop 4, _, ("python", "/w"), rfl, run_foldl (fun event he => ?_) _, ?_,
    by simp [sharing]⟩
  · exact allows_sharing event (List.mem_of_mem_take he)
  · have hq : ((sharing.take 2).foldl (after slow) untouched).client.queue = [.begin 0, .begin 1] := by decide +kernel
    have ht : ((sharing.take 3).foldl (after slow) untouched).tasks[1]? =
        some ⟨.ready (.start "python" "/w/"), false⟩ := by
      have hlast : sharing.take 3 = sharing.take 2 ++ [.turn] := rfl
      rw [hlast, List.foldl_append, List.foldl_cons, List.foldl_nil, after, getElem?_next hq Nat.one_ne_zero]
      rfl
    exact ⟨⟨[.launch 0], by decide +kernel⟩, ⟨"/w/", ht, by decide +kernel⟩, by decide +kernel, by decide +kernel,
      by decide +kernel⟩

/-- Both calls end with the session that the one attempt started. -/
theorem two_starts_share_a_session :
    Run slow untouched sharing (sharing.foldl (after slow) untouched) ∧
      (sharing.foldl (after slow) untouched).tasks[0]? = some ⟨.finished (.ok (.session (some "s"))), false⟩ ∧
      (sharing.foldl (after slow) untouched).tasks[1]? = some ⟨.finished (.ok (.session (some "s"))), false⟩ := by
  have hlayer : slow.layer.StopsUncancelled := fun _ _ _ => ⟨nofun, nofun⟩
  have run : Run slow untouched sharing (sharing.foldl (after slow) untouched) := run_foldl allows_sharing untouched
  obtain ⟨-, -, -, -, hends, -⟩ := one_live_session_per_key hlayer () Settings.standard run
  have hq : (sharing.foldl (after slow) untouched).client.queue = [] := by decide +kernel
  have hs : ((sharing.foldl (after slow) untouched).client.attempts[0]?.bind (·.outcome)).bind (·.toOption) =
      some "s" := by decide +kernel
  have hboth : ∀ task, JoinedIn slow untouched sharing task 0 →
      (sharing.foldl (after slow) untouched).tasks[task]? = some ⟨.finished (.ok (.session (some "s"))), false⟩ := by
    intro task hj
    obtain ⟨attempt, found, -, hfinished⟩ := hends task 0 hj
    rw [found, Option.bind_some] at hs
    obtain ⟨outcome, ho, hs⟩ := Option.bind_eq_some_iff.1 hs
    cases outcome with
    | error fault => cases hs
    | ok session =>
      cases hs
      exact hfinished _ ho hq
  exact ⟨run, hboth 0 joinedIn_first, hboth 1 joinedIn_second⟩

end LanguageSessions.Engine
