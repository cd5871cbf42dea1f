import LanguageSessions.Proofs.Engine.Ahead
import LanguageSessions.Proofs.Engine.Failures

/-!
# A start that fails leaves nothing half-made

An attempt that nobody disturbs acts on its own session only (`own_turns`), and when it has failed nothing is left of the
session (`undone_course`). The session was never ready (`never_ready`), and so no binding was connected to it that would
have left a route behind.

Its server is shown as failed where the end of the attempt is heard of (`shown_as_failed`), since no other session of its
key is added before (`latest_of_expected`). Whoever joins an attempt finds it among those under way, which run or are to
be forgotten (`Client.Minded`); so nobody joins it any more once it is forgotten (`joining_ne`), and a start launches a
new one (`launches_anew`). `failed_start_leaves_nothing` puts this together.
-/

namespace LanguageSessions

variable {σ : Type}

/-! ## The attempts under way -/

namespace Client

/-- Every attempt that is under way runs, or it has ended and is to be forgotten. -/
def Minded (client : Client σ) : Prop :=
  ∀ key number, client.starting.get? key = some number → client.Running number key ∨ .forget number ∈ client.queue

end Client

namespace Engine

open Client SessionRegistry

section Minded

variable {before after : Client σ} {engine : Engine σ} {setup : Setup σ} {key : String × String} {number : Nat}

theorem minded_of_quiet (h : before.Minded) (hq : Quiet before after) : after.Minded := by
  intro key number hs
  rw [hq.starting] at hs
  exact (h key number hs).imp hq.running_iff.2 hq.mem_queue

/-- A turn keeps in mind the attempts under way that were so before. -/
theorem Moves.minded (hm : Moves before after)
    (h : ∀ key number, before.starting.get? key = some number → after.starting.get? key = some number →
      before.Running number key ∨ .forget number ∈ before.queue) : after.Minded := by
  intro key number hs
  rcases hm.underWay hs with hbefore | ⟨rfl, hlaunches⟩
  · have hold := h key number hbefore hs
    cases hm with
    | quiet quiet => exact hold.imp quiet.running_iff.2 quiet.mem_queue
    | launches launches =>
      refine hold.imp launches.running_old fun hm => ?_
      rw [launches.queue]
      exact List.mem_append_left _ hm
    | @ends client n _ joiners quiet _ _ outcome =>
      rcases hold with hr | hm
      · by_cases hn : n = number
        · exact Or.inr (List.mem_append_right _ (hn ▸ List.mem_cons_self))
        · exact Or.inl (running_ended_iff.2 ⟨hn, quiet.running_iff.2 hr⟩)
      · exact Or.inr (List.mem_append_left _ (quiet.mem_queue hm))
    | forget under => exact hold
  · exact Or.inl hlaunches.running_new

/-- When the attempt under way for a key is forgotten, none is under way for it. -/
theorem starting_forget {attempt : Attempt} (found : before.attempts[number]? = some attempt)
    (under : before.starting.get? attempt.key = some number) :
    (forget before number).starting.get? attempt.key = none := by
  have hunder : before.starting.get? (attempt.language, attempt.root) = some number := under
  rw [forget, found]
  dsimp only
  rw [if_pos hunder]
  exact (Entries.get?_erase _ _ _).trans (if_pos rfl)

/-- **A turn keeps in mind every attempt that is under way behind it.** -/
theorem minded_next (h : engine.client.Minded) (hs : engine.Sound) (hlayer : setup.layer.StopsUncancelled) :
    (engine.next setup).client.Minded := by
  rcases next_cases engine setup with heq | ⟨turn, queue, hq, heq⟩
  · rw [heq]
    exact h
  · rw [heq]
    have hmoves : Moves (engine.withQueue queue).client _ := (turned_perform hs hlayer hq).moves
    refine hmoves.minded fun key number hbefore hafter => ?_
    rcases h key number hbefore with hr | hm
    · exact Or.inl hr
    · rw [hq] at hm
      rcases List.mem_cons.1 hm with rfl | hm
      · -- The attempt is forgotten in this turn.
        obtain ⟨attempt, found, rfl⟩ := hs.toBooked.starting key number hbefore
        have found' : (engine.withQueue queue).client.attempts[number]? = some attempt := found
        exact nomatch (starting_forget found' hbefore).symm.trans hafter
      · exact Or.inr hm

/-- **Every event keeps in mind the attempts that are under way behind it.** -/
theorem minded_after {event : Event σ} (h : engine.client.Minded) (hs : engine.Sound)
    (hlayer : setup.layer.StopsUncancelled) (allowed : engine.Allows event) :
    (engine.after setup event).client.Minded := by
  by_cases hne : event = .turn
  · subst hne
    exact minded_next h hs hlayer
  · exact minded_of_quiet h (still_after setup allowed hne).1.toQuiet

theorem minded_course {layer : σ} {settings : Settings} {events : List (Event σ)}
    (hstops : setup.layer.StopsUncancelled) (permitted : Permitted setup (fresh layer settings) events) :
    (course setup (fresh layer settings) events).client.Minded := by
  induction events using List.reverseRecOn with
  | nil =>
    intro key number hs
    cases hs
  | append_singleton events event ih =>
    obtain ⟨permitted, allowed⟩ := permitted.concat
    rw [course_concat]
    exact minded_after (ih permitted) (sound_course hstops permitted) (stopsUncancelled_recorded hstops) allowed

/-- An attempt that has ended and was forgotten is joined by nobody any more. -/
theorem joining_ne {client : Client σ} (h : client.Minded) {attempt : Attempt} {outcome : Except Fault String}
    (found : client.attempts[number]? = some attempt) (ended : attempt.outcome = some outcome)
    (forgotten : .forget number ∉ client.queue) : joining client key ≠ number := by
  unfold joining
  cases hs : client.starting.get? key with
  | none => exact Nat.ne_of_gt (List.getElem?_eq_some_iff.1 found).1
  | some under =>
    rintro rfl
    rcases h key _ hs with ⟨running, hf, -, unended⟩ | hm
    · cases found.symm.trans hf
      exact nomatch ended.symm.trans unended
    · exact forgotten hm

/-- **Right behind the turn in which a failed attempt is forgotten, a start for its key launches a new one.** -/
theorem launches_anew (hs : engine.Sound) {attempt : Attempt} {fault : Fault} {queue : List Turn}
    (hq : engine.client.queue = .forget number :: queue) (found : engine.client.attempts[number]? = some attempt)
    (failed : attempt.outcome = some (.error fault)) :
    (engine.next setup).client.startAt attempt.language attempt.root =
      ((engine.next setup).client.launch attempt.language attempt.root).1.join
        (engine.next setup).client.attempts.length := by
  have hm : .forget number ∈ engine.client.queue := hq ▸ List.mem_cons_self
  obtain ⟨known, outcome, hknown, -, under⟩ := hs.toBooked.forgotten number hm
  cases found.symm.trans hknown
  have hidle : engine.client.sessions.Idle attempt.key := hs.fruitless number attempt fault hm found failed
  have hnext : (engine.next setup).client = forget (engine.withQueue queue).client number := by
    rw [next_of_turn hq]
    rfl
  have hstarting : (engine.next setup).client.starting.get? (attempt.language, attempt.root) = none := by
    have hfound : (engine.withQueue queue).client.attempts[number]? = some attempt := found
    rw [hnext]
    exact starting_forget hfound under
  have hsessions : (engine.next setup).client.sessions = engine.client.sessions := by
    rw [hnext]
    exact sessions_forget _ number
  have hnone : (engine.next setup).client.sessions.find? attempt.language attempt.root = none := by
    rw [hsessions]
    exact hidle.find?_eq_none hs.named
  rw [startAt, hnone]
  dsimp only [Option.filter]
  rw [hstarting]
  rfl

end Minded

/-! ## Sessions behind which none was added -/

section Latest

variable {engine : Engine (σ × List Exchange)} {setup : Setup σ} {event : Event σ} {number n : Nat}

/-- In a turn of its own an attempt adds a session only for its key. -/
theorem Tries.adds (h : engine.Tries event number) (hs : engine.Sound) (setup : Setup σ) :
    ∃ attempt, engine.client.attempts[number]? = some attempt ∧ attempt.outcome = none ∧
      Adds attempt.key engine.client.sessions (engine.goes setup event).client.sessions := by
  obtain ⟨queue, attempt, step, found, unended, hgoes, hstep⟩ := h.cases hs setup
  have running : engine.client.Running number attempt.key := ⟨attempt, found, rfl, unended⟩
  refine ⟨attempt, found, unended, ?_⟩
  rw [hgoes, sessions_afterAttempt]
  rcases hstep with ⟨hnone, rfl⟩ | ⟨phase, hphase, rfl⟩
  · have hidle : (engine.withQueue queue).client.sessions.Idle (attempt.language, attempt.root) :=
      hs.unphased number attempt.key running hnone
    have hadds : Adds (attempt.language, attempt.root) (engine.withQueue queue).client.sessions
        ((engine.withQueue queue).client.attempt setup.recorded attempt.language attempt.root).1.sessions :=
      adds_attempt hidle
    exact hadds
  · have hfits : phase.Fits (attempt.language, attempt.root) (engine.withQueue queue).client.sessions :=
      hs.fits number phase attempt.key hphase running
    have hadds : Adds (attempt.language, attempt.root) (engine.withQueue queue).client.sessions
        ((engine.withQueue queue).client.resumeAttempt setup.recorded false attempt.language attempt.root
          phase).1.sessions := Client.adds_resumeAttempt hfits false
    exact hadds

/-- Where no attempt has a turn no session is added. -/
theorem retains_goes (allowed : engine.Allows (event.recorded engine.client.layer.2))
    (idle : ∀ m, ¬ engine.Tries event m) : Retains engine.client.sessions (engine.goes setup event).client.sessions := by
  by_cases hne : event = .turn
  · subst hne
    change Retains _ (engine.next setup.recorded).client.sessions
    rcases next_cases engine setup.recorded with heq | ⟨turn, queue, hq, heq⟩
    · rw [heq]
      exact .refl _
    · rw [heq]
      rcases (engine.withQueue queue).retains_perform setup.recorded turn with hretains | ⟨m, rfl⟩ |
        ⟨signal, m, phase, rfl, hnone, hf⟩
      · exact hretains
      · exact absurd ⟨rfl, Or.inl ⟨queue, hq⟩⟩ (idle m)
      · exact absurd ⟨rfl, Or.inr ⟨signal, queue, phase, hq, hnone, hf⟩⟩ (idle m)
  · exact (still_after setup.recorded allowed (Event.recorded_ne_turn hne _)).1.sessions.retains

/-- A session stays the last one of its key in an event in which no attempt for this key has a turn. -/
theorem latest_goes (hs : engine.Sound) (allowed : engine.Allows (event.recorded engine.client.layer.2))
    {session : Session} (latest : engine.client.sessions.Latest n session)
    (others : ∀ m, engine.Tries event m → ¬ engine.client.Running m session.key) :
    (engine.goes setup event).client.sessions.Latest n session := by
  by_cases htries : ∃ m, engine.Tries event m
  · obtain ⟨m, tries⟩ := htries
    obtain ⟨attempt, found, unended, hadds⟩ := tries.adds hs setup
    exact hadds.latest_of_ne (fun hk => others m tries ⟨attempt, found, hk.symm, unended⟩) latest
  · exact (retains_goes allowed fun m tries => htries ⟨m, tries⟩).latest latest

end Latest

/-! ## Attempts whose end somebody is still to hear of -/

section Expected

variable {engine : Engine (σ × List Exchange)} {setup : Setup σ} {event : Event σ} {key : String × String}
  {number m : Nat}

/-- An attempt for a key is under way, or somebody waits for it. -/
inductive Expected (engine : Engine σ) (key : String × String) (number : Nat) : Prop where
  | underWay (under : engine.client.starting.get? key = some number)
  | awaited {task ticket : Nat} (attends : engine.Attends task ⟨ticket, number⟩)

/-- As long as the end of an attempt is expected no other attempt for its key has a turn. -/
theorem Expected.alone (h : engine.Expected key number) (hs : engine.Sound) (ahead : engine.AllAhead) {attempt : Attempt}
    (found : engine.client.attempts[number]? = some attempt) (tries : engine.Tries event m)
    (running : engine.client.Running m attempt.key) (same : attempt.key = key) : m = number := by
  cases h with
  | underWay under => exact Option.some.inj ((hs.toBooked.running m _ (same ▸ running)).symm.trans under)
  | awaited attends =>
    obtain ⟨key', hahead⟩ := ahead _ _ attends
    obtain ⟨known, hknown, hkey⟩ := hahead.attempt
    cases found.symm.trans hknown
    exact hahead.alone hs tries (hkey ▸ running)

/-- An attempt that had ended before is expected by nobody anew. -/
theorem Expected.before (h : (engine.goes setup event).Expected key number) (hs : engine.Sound)
    (hstops : setup.layer.StopsUncancelled) (allowed : engine.Allows (event.recorded engine.client.layer.2))
    {attempt : Attempt} {outcome : Except Fault String} (found : engine.client.attempts[number]? = some attempt)
    (ended : attempt.outcome = some outcome) : engine.Expected key number := by
  by_cases hne : event = .turn
  · subst hne
    change (engine.next setup.recorded).Expected key number at h
    rcases next_cases engine setup.recorded with heq | ⟨turn, queue, hq, heq⟩
    · rwa [heq] at h
    · rw [heq] at h
      have hmoves : Moves (engine.withQueue queue).client _ :=
        (turned_perform hs (stopsUncancelled_recorded hstops) hq).moves
      obtain ⟨later, hlater, -, houtcome⟩ := hmoves.lasts found
      cases h with
      | underWay under =>
        rcases hmoves.underWay under with hbefore | ⟨rfl, -⟩
        · exact .underWay hbefore
        · exact absurd (List.getElem?_eq_some_iff.1 found).1 (Nat.lt_irrefl _)
      | awaited attends =>
        rcases attends_perform attends (hs.pop hq) with hbefore | ⟨attempt', henlisted⟩
        · exact .awaited hbefore
        · -- Who begins to wait joins an attempt that runs.
          cases hlater.symm.trans henlisted.found
          exact nomatch (houtcome _ ended).symm.trans henlisted.running
  · cases h with
    | underWay under =>
      exact .underWay ((still_after setup.recorded allowed (Event.recorded_ne_turn hne _)).1.starting ▸ under)
    | awaited attends =>
      obtain ⟨activity, waits, hj⟩ := attends
      exact .awaited ⟨activity, waits_goes hne waits, hj⟩

end Expected

/-! ## Attempts that nobody disturbs -/

section Undisturbed

variable {setup : Setup σ} {layer : σ} {settings : Settings} {events more : List (Event σ)} {event : Event σ}
  {number n : Nat} {id : String} {attempt : Attempt} {fault : Fault} {current : Session}

/-- In the course of events an attempt keeps its key, and its outcome once it has ended. -/
theorem lasts_course (hstops : setup.layer.StopsUncancelled)
    (permitted : Permitted setup (fresh layer settings) (events ++ more))
    (found : (course setup (fresh layer settings) events).client.attempts[number]? = some attempt) :
    ∃ later, (course setup (fresh layer settings) (events ++ more)).client.attempts[number]? = some later ∧
      Lasts attempt later := by
  induction more using List.reverseRecOn with
  | nil =>
    rw [List.append_nil]
    exact ⟨attempt, found, .refl attempt⟩
  | append_singleton more event ih =>
    rw [← List.append_assoc] at permitted ⊢
    obtain ⟨permitted, allowed⟩ := permitted.concat
    obtain ⟨middle, hmiddle, hlasts⟩ := ih permitted
    obtain ⟨later, hlater, hlasts'⟩ := lasts_goes (sound_course hstops permitted) hstops allowed hmiddle
    rw [course_concat]
    exact ⟨later, hlater, hlasts.trans hlasts'⟩

/-- An attempt whose server was started has a session of its key, and stands with it in a known way. -/
theorem Undisturbed.founded (h : Undisturbed setup (fresh layer settings) events number)
    (hstops : setup.layer.StopsUncancelled) (reported : Reported setup (fresh layer settings) events number id) :
    ∃ n session current progress attempt,
      (course setup (fresh layer settings) events).client.sessions.session? n = some current ∧ current.id = id ∧
      (course setup (fresh layer settings) events).client.attempts[number]? = some attempt ∧
      current.key = attempt.key ∧ session.Advances current ∧
      Founded number n session progress (course setup (fresh layer settings) events) := by
  cases fate_course hstops h with
  | unfounded silent _ => exact absurd reported (silent id)
  | @founded n session progress only hattempt _ founded =>
    obtain ⟨attempt, hfound, hlanguage, hroot⟩ := hattempt
    obtain ⟨current, found, advances⟩ := founded.stands.found
    have hkey : session.key = attempt.key := Prod.ext hlanguage hroot
    exact ⟨n, session, current, progress, attempt, found, advances.id.trans ((only id).1 reported).symm, hfound,
      advances.key.trans hkey, advances, founded⟩

/-- The server of an attempt is started once only. -/
theorem Undisturbed.only (h : Undisturbed setup (fresh layer settings) events number)
    (hstops : setup.layer.StopsUncancelled) (reported : Reported setup (fresh layer settings) events number id)
    {other : String} (hother : Reported setup (fresh layer settings) events number other) : other = id := by
  cases fate_course hstops h with
  | unfounded silent _ => exact absurd reported (silent id)
  | founded only _ _ _ => exact ((only other).1 hother).trans ((only id).1 reported).symm

/-- The session of an attempt was added behind all that were there before its server was started. -/
theorem Undisturbed.born (h : Undisturbed setup (fresh layer settings) (events ++ more) number)
    (hstops : setup.layer.StopsUncancelled)
    (reported : Reported setup (fresh layer settings) (events ++ more) number current.id)
    (silent : ∀ id, ¬ Reported setup (fresh layer settings) events number id)
    (found : (course setup (fresh layer settings) (events ++ more)).client.sessions.session? n = some current) :
    (course setup (fresh layer settings) events).client.sessions.sessions.length ≤ n := by
  cases fate_course hstops h with
  | unfounded silent' _ => exact absurd reported (silent' _)
  | founded only _ born founded =>
    obtain ⟨other, hother, advances⟩ := founded.stands.found
    cases h.distinct _ n other current hother found (advances.id.trans ((only _).1 reported).symm)
    exact born events more rfl silent

/-- A session with the identifier of one that is there later on is the same one. -/
theorem Undisturbed.same (h : Undisturbed setup (fresh layer settings) (events ++ more) number) {m : Nat} {old : Session}
    (hold : (course setup (fresh layer settings) events).client.sessions.session? m = some old)
    (found : (course setup (fresh layer settings) (events ++ more)).client.sessions.session? n = some current)
    (hid : old.id = current.id) : m = n := by
  obtain ⟨later, hlater, advances⟩ := session?_course setup layer settings events more hold
  exact h.distinct m n later current hlater found (advances.id.trans hid)

/-- Before an attempt whose server was started has ended, its session is about to serve. -/
theorem Founded.begins {engine : Engine (σ × List Exchange)} {session : Session} {progress : Progress AttemptPhase String}
    (h : Founded number n session progress engine) (found : engine.client.attempts[number]? = some attempt)
    (unended : attempt.outcome = none) (hs : engine.client.sessions.session? n = some current) :
    current.stage = .initializing := by
  obtain ⟨isAt, stands, -⟩ := h
  cases isAt with
  | ends hf ended =>
    cases found.symm.trans hf
    exact nomatch unended.symm.trans ended
  | waits _ =>
    cases stands with
    | shaking hf _ begins _ _ | discarding hf _ begins _ _ =>
      cases hs.symm.trans hf
      exact begins

/-- Behind an event the session of a failed attempt is the last one of its key, if it was so before in case that the
attempt had ended already, and its end was still expected. -/
theorem latest_concat (h : Undisturbed setup (fresh layer settings) (events ++ [event]) number)
    (hstops : setup.layer.StopsUncancelled) (inOrder : InOrder events)
    (reported : Reported setup (fresh layer settings) (events ++ [event]) number current.id)
    (found : (course setup (fresh layer settings) (events ++ [event])).client.sessions.session? n = some current)
    (hattempt : (course setup (fresh layer settings) (events ++ [event])).client.attempts[number]? = some attempt)
    (failed : attempt.outcome = some (.error fault))
    (earlier : ∀ before old, (course setup (fresh layer settings) events).client.attempts[number]? = some before →
      before.key = attempt.key → before.outcome = some (.error fault) →
      (course setup (fresh layer settings) events).client.sessions.session? n = some old →
      Reported setup (fresh layer settings) events number old.id →
      (course setup (fresh layer settings) events).Expected attempt.key number ∧
        (course setup (fresh layer settings) events).client.sessions.Latest n old) :
    (course setup (fresh layer settings) (events ++ [event])).client.sessions.Latest n current := by
  have hs := sound_course hstops h.append.permitted
  obtain ⟨permitted, allowed⟩ := h.permitted.concat
  have hlater := sound_course hstops h.permitted
  by_cases hbefore : Reported setup (fresh layer settings) events number current.id
  · obtain ⟨m, session, old, progress, mine, hold, hid, hmine, hkey, advances, founded⟩ :=
      h.append.founded hstops hbefore
    cases h.same hold found hid
    obtain ⟨later, hl, hcurrent⟩ := session?_course setup layer settings events [event] hold
    cases hl.symm.trans found
    have hlatest : ∀ registry : SessionRegistry, registry.Latest n old → registry.Latest n current :=
      fun registry hlatest m other hother hk => hlatest m other hother (hk.trans hcurrent.key)
    apply hlatest
    rw [course_concat]
    by_cases tries : (course setup (fresh layer settings) events).Tries event number
    · -- The attempt fails in its own turn, in which its session was still about to serve.
      obtain ⟨mine', hmine', unended, hadds⟩ := tries.adds hs setup
      cases hmine.symm.trans hmine'
      have begins := founded.begins hmine unended hold
      have hdistinct := (passes_course setup layer settings events [event]).advances.distinct h.distinct
      obtain ⟨letters, lawful⟩ := lawful_course setup layer settings events
      have hlisted : (course setup (fresh layer settings) events).client.sessions.number? old.id = some n :=
        (lawful.shown hdistinct).registered n old hold (by rw [begins]; nofun)
      have hlive : (course setup (fresh layer settings) events).client.sessions.Live mine.key n .initializing :=
        ⟨rfl, old, ⟨Entries.mem_of_get? hlisted, hold⟩, hkey, begins⟩
      exact (hadds.retains hlive).latest (latest_course hstops permitted hdistinct n old hold (by rw [begins]; rfl))
    · -- It has failed before, and while its end is expected no other session of its key is added.
      obtain ⟨letters, lawful⟩ := lawful_course setup layer settings events
      obtain ⟨letters', conducts⟩ := conducts_goes lawful (covers_all event letters (h.staysOpen.concat).2) setup
      have hsame := conducts.attempts number tries
      cases founded.isAt with
      | waits hphase =>
        rw [← course_concat] at hsame
        exact nomatch (IsAt.waits (hsame.trans hphase)).eq_of_ends hlater hattempt failed
      | @ends before outcome hf ended =>
        cases hmine.symm.trans hf
        obtain ⟨last, hlast, hlasts, houtcome⟩ := lasts_goes hs hstops allowed hmine
        rw [← course_concat] at hlast
        cases hlast.symm.trans hattempt
        cases (houtcome _ ended).symm.trans failed
        obtain ⟨expected, latest⟩ := earlier mine old hmine hlasts.symm ended hold (hid ▸ hbefore)
        refine latest_goes hs allowed latest fun m hm running => tries ?_
        have halone := expected.alone hs (allAhead_course hstops permitted inOrder) hmine hm (hkey ▸ running) hlasts.symm
        exact halone ▸ hm
  · -- The session was added in this event, and so it is the last one of all.
    have hborn := h.born hstops reported (fun id hr => hbefore (h.only hstops reported (hr.append [event]) ▸ hr)) found
    obtain ⟨key, hadds⟩ : ∃ key, Adds key _ ((course setup (fresh layer settings) events).goes setup event).client.sessions :=
      adds_after hs allowed
    have hlength := hadds.length_le
    rw [← course_concat] at hlength
    intro m other hother _
    have hlt := SessionRegistry.lt_length hother
    omega

/-- **While the end of a failed attempt is expected, its session is the last one of its key.** -/
theorem latest_of_expected (h : Undisturbed setup (fresh layer settings) events number)
    (hstops : setup.layer.StopsUncancelled) (inOrder : InOrder events)
    (reported : Reported setup (fresh layer settings) events number current.id)
    (found : (course setup (fresh layer settings) events).client.sessions.session? n = some current)
    (hattempt : (course setup (fresh layer settings) events).client.attempts[number]? = some attempt)
    (failed : attempt.outcome = some (.error fault))
    (expected : (course setup (fresh layer settings) events).Expected attempt.key number) :
    (course setup (fresh layer settings) events).client.sessions.Latest n current := by
  induction events using List.reverseRecOn generalizing attempt current with
  | nil =>
    obtain ⟨before, event, after, heq, -⟩ := reported
    exact absurd heq.symm (by simp)
  | append_singleton events event ih =>
    refine latest_concat h hstops inOrder.concat.1 reported found hattempt failed fun before old hbefore hkey ended hold hr => ?_
    rw [course_concat, ← hkey] at expected
    have hexpected := expected.before (sound_course hstops h.append.permitted) hstops h.permitted.concat.2 hbefore ended
    exact ⟨hkey ▸ hexpected, ih h.append inOrder.concat.1 hr hold hbefore ended hexpected⟩

/-- **Where the end of a failed attempt is heard of, its server is shown as failed.** -/
theorem shown_as_failed (h : Undisturbed setup (fresh layer settings) (events ++ [event]) number)
    (hstops : setup.layer.StopsUncancelled) (inOrder : InOrder events)
    (reported : Reported setup (fresh layer settings) (events ++ [event]) number id)
    (hattempt : (course setup (fresh layer settings) (events ++ [event])).client.attempts[number]? = some attempt)
    (failed : attempt.outcome = some (.error fault))
    (expected : (course setup (fresh layer settings) events).Expected attempt.key number) :
    (course setup (fresh layer settings) (events ++ [event])).client.status.get? id =
      some ⟨id, attempt.language, attempt.root, .error, some fault.message⟩ := by
  obtain ⟨n, session, current, progress, mine, found, rfl, hmine, hkey, advances, isAt, stands, -⟩ :=
    h.founded hstops reported
  cases hmine.symm.trans hattempt
  have hlatest := latest_concat h hstops inOrder reported found hattempt failed fun before old hbefore hkey ended hold hr =>
    ⟨expected, latest_of_expected h.append hstops inOrder hr hold hbefore ended (hkey ▸ expected)⟩
  cases isAt.eq_of_ends (sound_course hstops h.permitted) hattempt failed
  cases (stands.current found).2 with
  | failed _ _ _ _ _ _ shown =>
    obtain ⟨hlanguage, hroot⟩ := Prod.mk.inj hkey
    rw [shown hlatest, hlanguage, hroot]

/-- The session of an attempt that fails is never ready. -/
theorem never_ready (h : Undisturbed setup (fresh layer settings) (events ++ more) number)
    (hstops : setup.layer.StopsUncancelled)
    (reported : Reported setup (fresh layer settings) (events ++ more) number current.id)
    (hattempt : (course setup (fresh layer settings) (events ++ more)).client.attempts[number]? = some attempt)
    (failed : attempt.outcome = some (.error fault))
    (hold : (course setup (fresh layer settings) events).client.sessions.session? n = some current) :
    current.stage ≠ .ready := by
  intro ready
  by_cases hbefore : ∃ id, Reported setup (fresh layer settings) events number id
  · obtain ⟨id, hid⟩ := hbefore
    cases h.only hstops reported (hid.append more)
    obtain ⟨m, session, other, progress, mine, found, hid, hmine, -, -, isAt, stands, -⟩ := h.append.founded hstops hid
    cases h.append.distinct m n other current found hold hid
    cases found.symm.trans hold
    cases stands with
    | shaking hf _ begins _ _ | discarding hf _ begins _ _ =>
      cases found.symm.trans hf
      exact nomatch ready.symm.trans begins
    | failed hf _ ended _ _ _ _ =>
      cases found.symm.trans hf
      exact nomatch ready.symm.trans ended
    | ready _ _ =>
      -- The attempt has ended well, and keeps its outcome.
      cases isAt with
      | ends hf ended =>
        obtain ⟨later, hlater, -, houtcome⟩ := lasts_course hstops h.permitted hf
        cases hlater.symm.trans hattempt
        exact nomatch (houtcome _ ended).symm.trans failed
  · obtain ⟨later, hlater, advances⟩ := session?_course setup layer settings events more hold
    have hborn := h.born hstops (advances.id ▸ reported) (fun id hr => hbefore ⟨id, hr⟩) hlater
    exact absurd (SessionRegistry.lt_length hold) (Nat.not_lt_of_le hborn)

/-- Nothing is left of a session that was being set up: it is not registered, no request of it is pending, no route leads
to it, and its process was to be stopped once. -/
structure Undone (client : Client (σ × List Exchange)) (id : String) : Prop where
  unlisted : client.sessions.has id = false
  free : client.pending.FreeOf id
  unrouted : ¬ client.routes.LeadsTo id
  stopped : client.stopped.count id = 1

/-- **When an attempt has failed nothing is left of its session.** -/
theorem undone_course (h : Undisturbed setup (fresh layer settings) events number)
    (hstops : setup.layer.StopsUncancelled) (reported : Reported setup (fresh layer settings) events number id)
    (hattempt : (course setup (fresh layer settings) events).client.attempts[number]? = some attempt)
    (failed : attempt.outcome = some (.error fault)) :
    Undone (course setup (fresh layer settings) events).client id := by
  obtain ⟨n, session, current, progress, mine, found, rfl, -, -, -, isAt, stands, -⟩ := h.founded hstops reported
  cases isAt.eq_of_ends (sound_course hstops h.permitted) hattempt failed
  cases (stands.current found).2 with
  | failed _ _ _ absent called free _ =>
    have unlisted : (course setup (fresh layer settings) events).client.sessions.has current.id = false := by
      rw [has_eq_isSome, absent]
      rfl
    refine ⟨unlisted, free, fun leads => ?_, called⟩
    rcases routes_lead_to_sessions setup layer settings events current.id leads with hlisted | ⟨before, event, after, rfl, late⟩
    · exact nomatch unlisted.symm.trans hlisted
    · -- Only a session that was ready before is connected late.
      obtain ⟨other, hm, ended⟩ := late.started
      obtain ⟨first, rest, rfl, m, old, hold, hid, ready⟩ := ready_of_ended_well setup layer settings before hm ended
      rw [List.append_assoc] at h hattempt reported
      exact never_ready h hstops (hid ▸ reported) hattempt failed hold ready

/-- Of what a client keeps about its sessions nothing changes but what is known about downloads, and no process is to be
stopped. -/
structure Untouched (before after : Client (σ × List Exchange)) : Prop where
  tables : after.tables = { before.tables with status := after.status }
  servers : after.status.servers = before.status.servers
  stopped : after.stopped = before.stopped

/-- What belongs to other sessions is as it was, and no other process is to be stopped. -/
structure ActsOn (id : String) (before after : Client (σ × List Exchange)) : Prop where
  spares : ({ before.tables with status := after.status } : Tables).Spares id after.tables
  stopped : ∃ stops, (∀ other ∈ stops, other = id) ∧ after.stopped = before.stopped ++ stops

/-- **What an attempt does in its own turns**: as long as its server was not started nothing changes, and from then on only
its session is acted on. -/
theorem own_turns (h : Undisturbed setup (fresh layer settings) (events ++ [event]) number)
    (hstops : setup.layer.StopsUncancelled) (tries : (course setup (fresh layer settings) events).Tries event number) :
    ((∀ id, ¬ Reported setup (fresh layer settings) (events ++ [event]) number id) →
      Untouched (course setup (fresh layer settings) events).client
        (course setup (fresh layer settings) (events ++ [event])).client) ∧
    ∀ id, Reported setup (fresh layer settings) (events ++ [event]) number id →
      ActsOn id (course setup (fresh layer settings) events).client
        (course setup (fresh layer settings) (events ++ [event])).client := by
  have hs := sound_course hstops h.append.permitted
  obtain ⟨-, allowed⟩ := h.permitted.concat
  obtain ⟨-, isOpen⟩ := h.staysOpen.concat
  rw [course_concat]
  by_cases hbefore : ∃ id, Reported setup (fresh layer settings) events number id
  · obtain ⟨id, hr⟩ := hbefore
    have hreported := hr.append [event]
    refine ⟨fun silent => absurd hreported (silent id), fun other hother => ?_⟩
    cases h.only hstops hreported hother
    obtain ⟨n, session, current, progress, mine, found, rfl, -, -, advances, founded⟩ := h.append.founded hstops hr
    obtain ⟨later, -, spares, ⟨stops, own, calls⟩, -⟩ :=
      fares_of_tries hs hstops allowed tries founded found (h.append.hosts found)
    rw [← advances.id] at spares own
    exact ⟨spares.withStatus, stops, own, calls.stopped⟩
  · have silent : ∀ id, ¬ Reported setup (fresh layer settings) events number id := fun id hr => hbefore ⟨id, hr⟩
    have unfounded : ∀ phase, (course setup (fresh layer settings) events).attempts.get? number = some phase →
        phase.session? = none := by
      cases fate_course hstops h.append with
      | unfounded _ phase => exact phase
      | founded only _ _ _ => exact absurd ((only _).2 rfl) (silent _)
    obtain ⟨attempt, progress, -, -, goes⟩ :=
      goes_of_tries hs hstops allowed isOpen (pledged_course setup layer settings events).apart tries unfounded
    rcases goes with ⟨tables, servers, calls, -⟩ | ⟨id, spares, ⟨stops, own, calls⟩, -⟩
    · refine ⟨fun _ => ⟨tables, servers, calls.stopped.trans (List.append_nil _)⟩, fun id hr => ?_⟩
      have hstarted := (hr.concat.resolve_left (silent id)).started.symm.trans calls.started
      exact absurd (List.append_cancel_left hstarted) (List.cons_ne_nil _ _)
    · have hreported : Reported setup (fresh layer settings) (events ++ [event]) number id :=
        ⟨events, event, [], rfl, tries, calls.started⟩
      refine ⟨fun silent => absurd hreported (silent id), fun other hother => ?_⟩
      cases h.only hstops hreported hother
      exact ⟨spares, stops, own, calls.stopped⟩

/-- **A start that fails leaves nothing half-made.** An attempt has failed that nobody has disturbed. In its own turns it
left alone whatever belongs to other sessions: nothing changed and no process was to be stopped as long as its server was
not started, and then only its session was acted on. If its server was started, nothing is left of the session, whose
process was to be stopped once; and where the end of the attempt is heard of, its server is shown as failed. Once the
attempt is forgotten nobody joins it any more, and right behind that a start for its key launches a new one. -/
theorem failed_start_leaves_nothing (hstops : setup.layer.StopsUncancelled)
    (undisturbed : Undisturbed setup (fresh layer settings) events number)
    (found : (course setup (fresh layer settings) events).client.attempts[number]? = some attempt)
    (failed : attempt.outcome = some (.error fault)) :
    let client := (course setup (fresh layer settings) events).client
    (∀ before event after, events = before ++ event :: after →
      (course setup (fresh layer settings) before).Tries event number →
      let earlier := (course setup (fresh layer settings) before).client
      let later := (course setup (fresh layer settings) (before ++ [event])).client
      ((∀ id, ¬ Reported setup (fresh layer settings) (before ++ [event]) number id) → Untouched earlier later) ∧
        ∀ id, Reported setup (fresh layer settings) (before ++ [event]) number id → ActsOn id earlier later) ∧
    ((∀ id, ¬ Reported setup (fresh layer settings) events number id) ∨
      ∃ id, (∀ other, Reported setup (fresh layer settings) events number other ↔ other = id) ∧ Undone client id ∧
        ∀ before event, events = before ++ [event] → InOrder before →
          (course setup (fresh layer settings) before).Expected attempt.key number →
          client.status.get? id = some ⟨id, attempt.language, attempt.root, .error, some fault.message⟩) ∧
    (.forget number ∉ client.queue → ∀ key, joining client key ≠ number) ∧
    ∀ before queue, events = before ++ [.turn] →
      (course setup (fresh layer settings) before).client.queue = .forget number :: queue →
      client.startAt attempt.language attempt.root =
        (client.launch attempt.language attempt.root).1.join client.attempts.length := by
  refine ⟨?_, ?_, fun forgotten key => ?_, ?_⟩
  · rintro before event after rfl tries
    have hextends : before ++ event :: after = (before ++ [event]) ++ after := by simp
    rw [hextends] at undisturbed
    exact own_turns undisturbed.append hstops tries
  · by_cases hreported : ∃ id, Reported setup (fresh layer settings) events number id
    · obtain ⟨id, reported⟩ := hreported
      refine Or.inr ⟨id, fun other => ⟨undisturbed.only hstops reported, ?_⟩,
        undone_course undisturbed hstops reported found failed, ?_⟩
      · rintro rfl
        exact reported
      · rintro before event rfl inOrder expected
        exact shown_as_failed undisturbed hstops inOrder reported found failed expected
    · exact Or.inl fun id reported => hreported ⟨id, reported⟩
  · exact joining_ne (minded_course hstops undisturbed.permitted) found failed forgotten
  · rintro before queue rfl hq
    have hs := sound_course hstops undisturbed.append.permitted
    obtain ⟨known, outcome, hknown, ended, -⟩ := hs.toBooked.forgotten number (hq ▸ List.mem_cons_self)
    obtain ⟨later, hlater, hkey, houtcome⟩ := lasts_goes hs hstops undisturbed.permitted.concat.2 hknown
    rw [course_concat] at found ⊢
    cases hlater.symm.trans found
    cases (houtcome _ ended).symm.trans failed
    obtain ⟨hlanguage, hroot⟩ := Prod.mk.inj hkey
    rw [hlanguage, hroot]
    exact launches_anew hs hq hknown ended

end Undisturbed

/-! ## A server that answers the handshake with an error -/

/-- What an attempt has failed with. -/
def fault? (attempt : Attempt) : Option Fault :=
  match attempt.outcome with
  | some (.error fault) => some fault
  | _ => none

theorem outcome_of_fault? {attempt : Attempt} {fault : Fault} (h : fault? attempt = some fault) :
    attempt.outcome = some (.error fault) := by
  unfold fault? at h
  split at h
  · next failed => exact failed.trans (congrArg _ (congrArg _ (Option.some.inj h)))
  · cases h

/-- A session is started, and its server answers the request that opens the handshake with an error. The attempt fails in
the next turn, and is forgotten in the one behind that. -/
def snubbed : List (Event Unit) :=
  [.call (.start "python" "/w"), .turn, .turn,
    .hear ⟨"s", "\x7b\"id\": 1, \"error\": \x7b\"code\": -32603, \"message\": \"no\"\x7d\x7d"⟩, .turn, .turn]

theorem begins_snubbed {before after : List (Event Unit)} {event : Event Unit} {task : Nat} {operation : Operation}
    (heq : snubbed = before ++ event :: after)
    (begins : (course prompt (fresh () Settings.standard) before).Begins event task operation) :
    operation = .start "python" "/w" := by
  obtain ⟨-, -, ready⟩ := begins
  obtain ⟨letters, lawful⟩ := lawful_course prompt () Settings.standard before
  have hm : .call operation ∈ snubbed :=
    heq ▸ List.mem_append_left _ (lawful.ready _ (List.mem_of_getElem? ready) operation rfl)
  simpa [snubbed] using hm

theorem undisturbed_snubbed : Undisturbed prompt (fresh () Settings.standard) snubbed 0 where
  permitted before event after heq := by
    have hm : event ∈ snubbed := heq ▸ List.mem_append_right _ List.mem_cons_self
    have hall : ∀ event ∈ snubbed, ∀ (record : List Exchange) (engine : Engine (Unit × List Exchange)),
        engine.Allows (event.recorded record) := by simp [snubbed, Event.recorded, Allows]
    exact hall event hm _ _
  staysOpen before after heq := by
    have hall : ∀ k < 7, (course prompt (fresh () Settings.standard) (snubbed.take k)).client.isClosing = false := by
      decide +kernel
    have hlength : before.length + after.length = 6 := (List.length_append.symm.trans (congrArg List.length heq.symm))
    have hopen := hall before.length (by omega)
    rwa [heq, List.take_left' rfl] at hopen
  distinct := by
    have hone : (course prompt (fresh () Settings.standard) snubbed).client.sessions.sessions.length = 1 := by
      decide +kernel
    intro m n first second hm hn _
    have := SessionRegistry.lt_length hm
    have := SessionRegistry.lt_length hn
    omega
  unended id _ before event after heq task operation begins ends := by
    cases begins_snubbed heq begins
    cases ends
  unasked id _ before event after heq _ task operation begins := by
    cases begins_snubbed heq begins
    intro hasked
    cases hasked

/-- Nothing is left of the session, its server is shown as failed, and another start launches another attempt. -/
theorem snubbed_start_leaves_nothing :
    let client := (course prompt (fresh () Settings.standard) snubbed).client
    Undone client "s" ∧ client.status.get? "s" = some ⟨"s", "python", "/w", .error, some "LSP error: no"⟩ ∧
      client.startAt "python" "/w" = (client.launch "python" "/w").1.join 1 := by
  have hattempt : (course prompt (fresh () Settings.standard) snubbed).client.attempts[0]?.map (fun attempt =>
      (attempt.language, attempt.root, (fault? attempt).map Fault.message)) =
        some ("python", "/w", some "LSP error: no") := by decide +kernel
  have hlength : (course prompt (fresh () Settings.standard) snubbed).client.attempts.length = 1 := by decide +kernel
  have hstops : prompt.layer.StopsUncancelled := fun _ _ _ => ⟨nofun, nofun⟩
  have hlaunched : (course prompt (fresh () Settings.standard) (snubbed.take 2)).client.queue = [.launch 0] := by
    decide +kernel
  have hstarted : startedBy (course prompt (fresh () Settings.standard) (snubbed.take 3)).client.layer.2 =
      startedBy (course prompt (fresh () Settings.standard) (snubbed.take 2)).client.layer.2 ++ ["s"] := by
    decide +kernel
  have hforgotten : (course prompt (fresh () Settings.standard) (snubbed.take 5)).client.queue =
      [.forget 0, .joined 0] := by decide +kernel
  have hunder : (course prompt (fresh () Settings.standard) (snubbed.take 5)).client.starting.get? ("python", "/w") =
      some 0 := by decide +kernel
  have htries : (course prompt (fresh () Settings.standard) (snubbed.take 2)).Tries (.turn : Event Unit) 0 :=
    ⟨rfl, Or.inl ⟨[], hlaunched⟩⟩
  have hreported : Reported prompt (fresh () Settings.standard) snubbed 0 "s" :=
    ⟨snubbed.take 2, .turn, snubbed.drop 3, rfl, htries, hstarted⟩
  have hinOrder : InOrder (snubbed.take 5) := by
    intro queue hm
    simp [snubbed] at hm
  obtain ⟨attempt, found, hattempt⟩ := Option.map_eq_some_iff.1 hattempt
  obtain ⟨hlanguage, hattempt⟩ := Prod.mk.inj hattempt
  obtain ⟨hroot, hfault⟩ := Prod.mk.inj hattempt
  obtain ⟨fault, hfault, hmessage⟩ := Option.map_eq_some_iff.1 hfault
  obtain ⟨-, hleft, -, hanew⟩ := failed_start_leaves_nothing hstops undisturbed_snubbed found
    (outcome_of_fault? hfault)
  have hnext := hanew (snubbed.take 5) [.joined 0] rfl hforgotten
  rw [hlanguage, hroot, hlength] at hnext
  obtain ⟨id, only, undone, hshown⟩ := hleft.resolve_left fun silent => silent "s" hreported
  cases (only "s").1 hreported
  have hexpected : (course prompt (fresh () Settings.standard) (snubbed.take 5)).Expected attempt.key 0 :=
    .underWay ((Prod.ext hlanguage hroot : attempt.key = ("python", "/w")) ▸ hunder)
  have hfailed := hshown (snubbed.take 5) .turn rfl hinOrder hexpected
  rw [hlanguage, hroot, hmessage] at hfailed
  exact ⟨undone, hfailed, hnext⟩

/-- Another session is started when that of the first greeting is ready. The process layer gives it the same identifier, and
its server answers the request that opens the handshake with an error. -/
def doubled : List (Event Unit) :=
  greeting.take 8 ++ [.call (.start "python" "/x"), .turn, .turn,
    .hear ⟨"s", "\x7b\"id\": 2, \"error\": \x7b\"code\": -32603, \"message\": \"no\"\x7d\x7d"⟩, .turn, .turn,
    .turn, .turn]

/-- A start that fails may leave something behind, or take something along. If the process layer has given its session
the identifier of another one that is ready, then that one is not registered any more either. And if the process layer
breaks off the call in which it is to stop the server, then the session stays registered, about to serve. -/
theorem failed_start_takes_another_session_along :
    ((course prompt (fresh () Settings.standard) (doubled.take 8)).client.sessions.numbers = [("s", 0)] ∧
      (course prompt (fresh () Settings.standard) doubled).tasks.map failed? = [some false, some true] ∧
      (course prompt (fresh () Settings.standard) doubled).client.sessions.numbers = [] ∧
      (course prompt (fresh () Settings.standard) doubled).client.sessions.sessions.map
        (fun session => (session.root, session.stage)) = [("/w", .ready), ("/x", .stopped)]) ∧
    let engine := course (quitting (.stop "s")) (fresh () Settings.standard) (snubbed ++ [.turn, .turn])
    engine.tasks.map failed? = [some true] ∧ engine.client.sessions.numbers = [("s", 0)] ∧
      engine.client.sessions.sessions.map (·.stage) = [.initializing] := by
  decide +kernel

end Engine

end LanguageSessions
