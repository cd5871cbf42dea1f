import LanguageSessions.Proofs.Engine.Starts
import LanguageSessions.Proofs.Path

/-!
# Roots as keys

The normal form of a root is one key wherever it is used: a binding keeps it, a start looks for a session and launches an
attempt under it, and a session that is looked for by a root is looked for under it. All of them take the normal form
themselves, of what may be a normal form already, and that changes nothing (`roots_are_one_key`).
-/

namespace LanguageSessions.Engine

open Client

variable {σ : Type} {setup : Setup σ} {path given : String}

/-- A root and its normal form have one normal form. -/
theorem normalizeRoot_of_mem (around : Surroundings) (h : given ∈ [path, normalizeRoot around path]) :
    normalizeRoot around given = normalizeRoot around path := by
  rcases List.mem_pair.1 h with rfl | rfl
  · rfl
  · exact Path.normalizeRoot_normalizeRoot around path

/-- **The normal form of a root is one key.** It begins with a slash and has no needless component and no slash behind
the last one, and it is its own normal form. A binding keeps it and is connected as by a start from the root itself; a
start from the root or from its normal form starts or finds the same session, and so does a search. In the course of
events a call to start a session there waits for an attempt for that key, which is at work on a session for that key, and
gives back no session but one for that key. -/
theorem roots_are_one_key (setup : Setup σ) (path : String) :
    let root := normalizeRoot setup.surroundings path
    (Path.Normal root.toList ∧ (∃ rest, root.toList = '/' :: rest) ∧
      (root.toList.getLast? = some '/' → root.toList = ['/'] ∨ root.toList = ['/', '/'])) ∧
    normalizeRoot setup.surroundings root = root ∧
    (∀ given ∈ [path, root], ∀ (client : Client σ) (file : String), (client.bind setup file given).1.bindings =
      client.bindings ++ [⟨file, root, setup.servers.languageOfPath file, none, none, false⟩]) ∧
    (∀ (client : Client σ) number binding language, binding.root = root →
      binding.language.filter setup.servers.supports = some language → client.settings.enabled = true →
      client.connect setup number binding =
        let begun := client.changeBinding number fun binding => { binding with error := none }
        let started := begun.start setup language path
        started.1.afterConnect number binding language started.2) ∧
    (∀ given ∈ [path, root], ∀ (client : Client σ) (language : String), client.start setup language given =
      if client.isClosing then (client, .ends (.error (closingFault language)))
      else client.listen.startAt language root) ∧
    (∀ given ∈ [path, root], ∀ (client : Client σ) (language : String),
      client.liveSession? setup language given = (client.sessions.find? language root).map (·.id)) ∧
    ∀ layer settings events,
      let engine := course setup (fresh layer settings) events
      (∀ given ∈ [path, root], ∀ task language,
        CalledFor setup (fresh layer settings) events task (.start language given) →
        ∃ state cancelled, engine.tasks[task]? = some ⟨state, cancelled⟩ ∧
          Starting (WasReadyFor setup layer settings events) language given (language, root) engine.client state) ∧
      ∀ number language, engine.client.HasAttempt number (language, root) → ∀ phase session,
        engine.attempts.get? number = some phase → phase.session? = some session →
        engine.client.sessions.Serves session (language, root) := by
  intro root
  have hgiven : ∀ given ∈ [path, root], normalizeRoot setup.surroundings given = root :=
    fun given => normalizeRoot_of_mem setup.surroundings
  have hnormal : Path.Normal root.toList := Path.normal_normalizeRoot setup.surroundings path
  have hstart : ∀ given ∈ [path, root], ∀ (client : Client σ) (language : String), client.start setup language given =
      if client.isClosing then (client, .ends (.error (closingFault language)))
      else client.listen.startAt language root := by
    intro given hm client language
    rw [Client.start, hgiven given hm]
  refine ⟨⟨hnormal, hnormal.starts_with_slash, hnormal.slashes_of_getLast?⟩, hgiven root (by simp),
    ?bound, ?connected, hstart, ?found, ?run⟩
  case bound =>
    intro given hm client file
    rw [Client.bind, hgiven given hm]
  case connected =>
    intro client number binding language hroot hlanguage henabled
    rw [Client.connect, hlanguage, henabled, hroot]
    dsimp only
    rw [hstart root (by simp), hstart path (by simp)]
    rfl
  case found =>
    intro given hm client language
    rw [Client.liveSession?, hgiven given hm]
  case run =>
    intro layer settings events engine
    refine ⟨fun given hm task language called => ?_, fun number language has phase session waits works => ?_⟩
    · obtain ⟨state, cancelled, found, starting⟩ := called.starting
      rw [hgiven given hm] at starting
      exact ⟨state, cancelled, found, starting⟩
    · obtain ⟨attempt, found, hkey⟩ := has
      obtain ⟨attempt', found', serves⟩ := (keyed_course events).attempting number phase session waits works
      cases found.symm.trans found'
      exact hkey ▸ serves

end LanguageSessions.Engine
