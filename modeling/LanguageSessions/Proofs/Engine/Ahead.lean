import LanguageSessions.Proofs.Engine.Joins
import LanguageSessions.Proofs.Engine.Pledges
import LanguageSessions.Proofs.Engine.Statuses
import LanguageSessions.Proofs.Engine.Conduct
import LanguageSessions.Proofs.Engine.Owing

/-!
# Whoever joined an attempt hears of its end before the next one begins

Turns are carried out in the order in which they came about. At the end of an attempt comes the turn in which it is
forgotten, and behind that come those of all who joined it; the turn of a new attempt for the same key comes about no
sooner than the first of these is carried out, and so it stands behind all of them (`Ahead`). Hence as long as somebody
waits for an attempt no other one for its key has a turn (`Ahead.alone`).
-/

namespace LanguageSessions.Engine

open Client SessionRegistry

variable {σ : Type}

/-! ## In the queue -/

/-- The call with a ticket that joined an attempt for a key hears of its end before another attempt for the key begins. -/
inductive Ahead (client : Client σ) (key : String × String) (number ticket : Nat) : Prop where
  /-- The attempt runs. -/
  | runs {attempt : Attempt} (found : client.attempts[number]? = some attempt) (same : attempt.key = key)
      (running : attempt.outcome = none) (joined : .caller ticket ∈ attempt.joiners)
  /-- The attempt has ended. It is to be forgotten, and behind that all who joined it are to hear of it. -/
  | ends {attempt : Attempt} {outcome : Except Fault String} {front back : List Turn} {joiners : List Joiner}
      (found : client.attempts[number]? = some attempt) (same : attempt.key = key)
      (ended : attempt.outcome = some outcome)
      (queue : client.queue = front ++ .forget number :: joiners.map hearing ++ back) (joined : .caller ticket ∈ joiners)
  /-- The attempt is forgotten, and no other one for the key runs before all who joined it have heard of it. -/
  | hears {attempt : Attempt} {outcome : Except Fault String} {back : List Turn} {joiners : List Joiner}
      (found : client.attempts[number]? = some attempt) (same : attempt.key = key)
      (ended : attempt.outcome = some outcome) (queue : client.queue = joiners.map hearing ++ back)
      (joined : .caller ticket ∈ joiners) (idle : ∀ n, ¬ client.Running n key)
  /-- The call is to go on, before any attempt for the key begins. -/
  | called {attempt : Attempt} {outcome : Except Fault String} {front back : List Turn}
      (found : client.attempts[number]? = some attempt) (same : attempt.key = key)
      (ended : attempt.outcome = some outcome) (queue : client.queue = front ++ back)
      (wakes : .wake (.ticket ticket) ∈ front) (launches : ∀ n, client.Running n key → .launch n ∈ back)

/-- An attempt that runs behind a turn ran before, or its own turn is the last one to come. -/
theorem Moves.running {before after : Client σ} (h : Moves before after) {n : Nat} {key : String × String}
    (hr : after.Running n key) : before.Running n key ∨ after.queue = before.queue ++ [.launch n] := by
  cases h with
  | quiet quiet => exact Or.inl (quiet.running_iff.1 hr)
  | launches launches =>
    rcases launches.running hr with hold | ⟨rfl, -⟩
    · exact Or.inl hold
    · exact Or.inr launches.queue
  | ends quiet _ _ _ => exact Or.inl (quiet.running_iff.1 (running_ended_iff.1 hr).2)
  | forget _ => exact Or.inl hr

/-- An attempt that runs when another one was forgotten ran before. -/
theorem running_forget {client : Client σ} {number n : Nat} {key : String × String}
    (h : (forget client number).Running n key) : client.Running n key := by
  unfold forget at h
  split at h
  · exact h
  · dsimp only at h
    split at h <;> exact h

section Ahead

variable {client next : Client σ} {engine : Engine σ} {setup : Setup σ} {key : String × String} {number ticket : Nat}
  {turn : Turn} {queue : List Turn}

theorem Ahead.attempt (h : Ahead client key number ticket) :
    ∃ attempt, client.attempts[number]? = some attempt ∧ attempt.key = key := by
  cases h with
  | runs found same _ _ | ends found same _ _ _ | hears found same _ _ _ _ | called found same _ _ _ _ =>
    exact ⟨_, found, same⟩

/-- What happens between two turns does not get in between. -/
theorem Ahead.calm (h : Ahead client key number ticket) (hc : Calm client next) : Ahead next key number ticket := by
  obtain ⟨more, horder⟩ := hc.order
  cases h with
  | runs found same running joined =>
    obtain ⟨later, hl, hj⟩ := hc.attempt _ _ found
    exact .runs hl (hj.key.trans same) (hj.outcome.trans running) (hj.joiners _ joined)
  | ends found same ended queue joined =>
    obtain ⟨later, hl, hj⟩ := hc.attempt _ _ found
    exact .ends hl (hj.key.trans same) (hj.outcome.trans ended) (by rw [← horder, queue, List.append_assoc]) joined
  | hears found same ended queue joined idle =>
    obtain ⟨later, hl, hj⟩ := hc.attempt _ _ found
    exact .hears hl (hj.key.trans same) (hj.outcome.trans ended) (by rw [← horder, queue, List.append_assoc]) joined
      fun n hr => idle n (hc.running_iff.1 hr)
  | called found same ended queue wakes launches =>
    obtain ⟨later, hl, hj⟩ := hc.attempt _ _ found
    exact .called hl (hj.key.trans same) (hj.outcome.trans ended) (by rw [← horder, queue, List.append_assoc]) wakes
      fun n hr => List.mem_append_left _ (launches n (hc.running_iff.1 hr))

/-- Somebody hears of the end of an attempt: that is calm. -/
theorem calm_hearing (engine : Engine σ) (setup : Setup σ) (joiner : Joiner) :
    Calm engine.client (engine.perform setup (hearing joiner)).client := by
  cases joiner with
  | caller ticket => exact engine.client.calm_push rfl
  | gatherer ticket => exact calm_countGathered engine.client ticket

/-- An attempt that runs may end in a turn: then its own turns come behind all others. -/
theorem Ahead.moves_of_runs {attempt : Attempt} (found : client.attempts[number]? = some attempt)
    (same : attempt.key = key) (running : attempt.outcome = none) (joined : .caller ticket ∈ attempt.joiners)
    (hm : Moves client next) : Ahead next key number ticket := by
  cases hm with
  | quiet quiet =>
    obtain ⟨later, hl, hj⟩ := quiet.attempt _ _ found
    exact .runs hl (hj.key.trans same) (hj.outcome.trans running) (hj.joiners _ joined)
  | launches launches => exact .runs (launches.attempt found) same running joined
  | @ends middle n _ joiners quiet _ hjoined outcome =>
    obtain ⟨later, hl, hj⟩ := quiet.attempt _ _ found
    by_cases hn : n = number
    · subst hn
      have hjoiners := hjoined _ hl
      have hfound : (middle.ended n outcome joiners).attempts[n]? =
          some { later with outcome := some outcome, joiners := [] } := by
        rw [getElem?_ended, if_pos rfl, hl]
        rfl
      have hqueue : (middle.ended n outcome joiners).queue =
          middle.queue ++ .forget n :: joiners.map hearing ++ [] := (List.append_nil _).symm
      exact .ends hfound (hj.key.trans same) rfl hqueue (hjoiners ▸ hj.joiners _ joined)
    · exact .runs (by rw [getElem?_ended, if_neg hn, hl]) (hj.key.trans same) (hj.outcome.trans running)
        (hj.joiners _ joined)
  | forget _ => exact .runs found same running joined

/-- Where nobody else runs for the key, the turns of those who joined come one after the other. -/
theorem Ahead.perform_of_hears {attempt : Attempt} {outcome : Except Fault String} {back : List Turn}
    {joiners : List Joiner} (found : engine.client.attempts[number]? = some attempt) (same : attempt.key = key)
    (ended : attempt.outcome = some outcome) (hq : turn :: queue = joiners.map hearing ++ back)
    (joined : .caller ticket ∈ joiners) (idle : ∀ n, ¬ engine.client.Running n key) :
    Ahead ((engine.withQueue queue).perform setup turn).client key number ticket := by
  cases joiners with
  | nil => cases joined
  | cons joiner joiners =>
    obtain ⟨rfl, rfl⟩ := List.cons.inj hq
    have hcalm := calm_hearing (engine.withQueue (joiners.map hearing ++ back)) setup joiner
    obtain ⟨later, hl, hj⟩ := hcalm.attempt number attempt found
    have hidle : ∀ n, ¬ ((engine.withQueue (joiners.map hearing ++ back)).perform setup (hearing joiner)).client.Running
        n key := fun n hr => idle n (hcalm.running_iff.1 hr)
    rcases List.mem_cons.1 joined with rfl | joined
    · -- The call itself hears of the end, and is to go on.
      have hqueue : ((engine.withQueue (joiners.map hearing ++ back)).perform setup (.joined ticket)).client.queue =
          (joiners.map hearing ++ back ++ [.wake (.ticket ticket)]) ++ [] := (List.append_nil _).symm
      exact .called hl (hj.key.trans same) (hj.outcome.trans ended) hqueue
        (List.mem_append_right _ (List.mem_singleton_self _)) fun n hr => absurd hr (hidle n)
    · obtain ⟨more, horder⟩ := hcalm.order
      have hqueue := horder.symm.trans (List.append_assoc (joiners.map hearing) back more)
      exact .hears hl (hj.key.trans same) (hj.outcome.trans ended) hqueue joined hidle

/-- **In each turn a call stays ahead of the attempts to come, or it goes on.** -/
theorem Ahead.perform (h : Ahead engine.client key number ticket) (hs : engine.Sound)
    (hlayer : setup.layer.StopsUncancelled) (hq : engine.client.queue = turn :: queue)
    (order : queue <+: ((engine.withQueue queue).perform setup turn).client.queue) :
    turn = .wake (.ticket ticket) ∧ (engine.client.attempts[number]?.bind (·.outcome)).isSome = true ∨
      Ahead ((engine.withQueue queue).perform setup turn).client key number ticket := by
  have hmoves : Moves (engine.withQueue queue).client _ := (turned_perform hs hlayer hq).moves
  obtain ⟨more, horder⟩ := order
  cases h with
  | @runs attempt found same running joined =>
    have hfound : (engine.withQueue queue).client.attempts[number]? = some attempt := found
    exact Or.inr (Ahead.moves_of_runs hfound same running joined hmoves)
  | @ends attempt outcome front back joiners found same ended hqueue joined =>
    right
    obtain ⟨later, hl, hkey, houtcome⟩ := hmoves.lasts found
    rw [hq] at hqueue
    cases front with
    | cons first front =>
      obtain ⟨rfl, rfl⟩ := List.cons.inj hqueue
      have hlater := horder.symm.trans (List.append_assoc (front ++ .forget number :: joiners.map hearing) back more)
      exact .ends hl (hkey.trans same) (houtcome _ ended) hlater joined
    | nil =>
      -- The attempt is forgotten; it was the one under way for the key, and it does not run.
      obtain ⟨rfl, rfl⟩ := List.cons.inj hqueue
      obtain ⟨known, result, hknown, -, hstarting⟩ := hs.toBooked.forgotten number (hq ▸ List.mem_cons_self)
      cases found.symm.trans hknown
      have hidle : ∀ n, ¬ engine.client.Running n key := by
        intro n hr
        have hsame := (hs.toBooked.running n key hr).symm.trans (same ▸ hstarting)
        obtain ⟨running, hf, -, hnone⟩ := hr
        cases found.symm.trans (Option.some.inj hsame ▸ hf)
        exact nomatch ended.symm.trans hnone
      have hlater := horder.symm.trans (List.append_assoc (joiners.map hearing) back more)
      have hpopped : ∀ n, ¬ (engine.withQueue (joiners.map hearing ++ back)).client.Running n key := hidle
      exact .hears hl (hkey.trans same) (houtcome _ ended) hlater joined fun n hr => hpopped n (running_forget hr)
  | hears found same ended hqueue joined idle =>
    exact Or.inr (Ahead.perform_of_hears found same ended (hq.symm.trans hqueue) joined idle)
  | @called attempt outcome front back found same ended hqueue wakes launches =>
    obtain ⟨later, hl, hkey, houtcome⟩ := hmoves.lasts found
    rw [hq] at hqueue
    cases front with
    | nil => cases wakes
    | cons first front =>
      obtain ⟨rfl, rfl⟩ := List.cons.inj hqueue
      rcases List.mem_cons.1 wakes with hnow | wakes
      · exact Or.inl ⟨hnow.symm, by rw [found, Option.bind_some, ended]; rfl⟩
      · have hlater := horder.symm.trans (List.append_assoc front back more)
        refine Or.inr (.called hl (hkey.trans same) (houtcome _ ended) hlater wakes fun n hr => ?_)
        · rcases hmoves.running hr with hold | hlast
          · exact List.mem_append_left _ (launches n hold)
          · rw [List.append_cancel_left (horder.trans hlast)]
            exact List.mem_append_right _ (List.mem_singleton_self _)

end Ahead

/-! ## Who waits -/

section Waiting

variable {engine : Engine (σ × List Exchange)} {setup : Setup σ} {event : Event σ} {key : String × String}
  {number ticket m : Nat}

/-- All calls that wait for attempts stay ahead of the next ones. -/
def AllAhead (engine : Engine σ) : Prop :=
  ∀ task phase, engine.Attends task phase → ∃ key, Ahead engine.client key phase.attempt phase.ticket

/-- **As long as a call waits for an attempt, no other attempt for its key has a turn.** -/
theorem Ahead.alone (h : Ahead engine.client key number ticket) (hs : engine.Sound) (tries : engine.Tries event m)
    (running : engine.client.Running m key) : m = number := by
  have hunder : engine.client.starting.get? key = some m := hs.toBooked.running m key running
  cases h with
  | runs found same outcome joined =>
    have hrun : engine.client.Running number key := ⟨_, found, same, outcome⟩
    exact Option.some.inj (hunder.symm.trans (hs.toBooked.running number key hrun))
  | ends found same ended hqueue joined =>
    have hforget : .forget number ∈ engine.client.queue := by simp [hqueue]
    obtain ⟨known, result, hknown, -, hstarting⟩ := hs.toBooked.forgotten number hforget
    cases found.symm.trans hknown
    rw [same, hunder] at hstarting
    exact Option.some.inj hstarting
  | hears found same ended hqueue joined idle => exact absurd running (idle m)
  | @called attempt outcome front back found same ended hqueue wakes launches =>
    exfalso
    -- The turn in which the other attempt begins is still to come, behind this one.
    have hback := launches m running
    obtain ⟨hunphased, -⟩ := hs.toBooked.launched m (hqueue ▸ List.mem_append_right _ hback)
    obtain ⟨-, ⟨queue, hq⟩ | ⟨signal, queue, phase, -, -, hf⟩⟩ := tries
    · refine hs.launch_not_mem hq ?_
      rw [hq] at hqueue
      cases front with
      | nil => cases wakes
      | cons first front =>
        obtain ⟨-, rfl⟩ := List.cons.inj hqueue
        exact List.mem_append_right _ hback
    · exact Entries.get?_eq_none_iff.1 hunphased (Entries.mem_keys_of_mem (List.mem_of_find?_eq_some hf))

theorem AllAhead.next (h : engine.AllAhead) (hs : engine.Sound) (htickets : engine.Tickets)
    (hstops : setup.layer.StopsUncancelled) : (engine.next setup.recorded).AllAhead := by
  rcases next_cases engine setup.recorded with heq | ⟨turn, queue, hq, heq⟩
  · rw [heq]
    exact h
  · have hhonours : Honours (fun _ => False) (engine.withQueue queue)
        ((engine.withQueue queue).perform setup.recorded turn) := honours_perform setup turn
    have horder : queue <+: ((engine.withQueue queue).perform setup.recorded turn).client.queue := hhonours.keeps.turns
    have hpopped : (engine.withQueue queue).Tickets := htickets.of_awaited (fun _ _ => id) (Nat.le_refl _)
    have hsound : (engine.withQueue queue).Sound := hs.pop hq
    rw [heq]
    intro task phase hw
    by_cases hb : (engine.withQueue queue).Attends task phase
    · obtain ⟨key, hahead⟩ := h task phase hb
      rcases hahead.perform hs (stopsUncancelled_recorded hstops) hq horder with ⟨rfl, ended⟩ | hlater
      · -- The call goes on and does not wait any more, since its attempt has ended.
        rw [perform_wake hpopped hb] at hw
        have hrunning : engine.client.attempts[phase.attempt]?.bind (·.outcome) = none := (attends_resumeTask hw).2
        rw [hrunning] at ended
        cases ended
      · exact ⟨key, hlater⟩
    · obtain ⟨attempt, henlisted⟩ := (attends_perform hw hsound).resolve_left hb
      exact ⟨attempt.key, .runs henlisted.found rfl henlisted.running henlisted.joined⟩

theorem AllAhead.goes (h : engine.AllAhead) (hs : engine.Sound) (htickets : engine.Tickets)
    (hstops : setup.layer.StopsUncancelled) (allowed : engine.Allows (event.recorded engine.client.layer.2))
    (ordered : ∀ queue, event ≠ .reorder queue) : (engine.goes setup event).AllAhead := by
  by_cases hne : event = .turn
  · subst hne
    exact h.next hs htickets hstops
  · have hordered : ∀ queue, event.recorded engine.client.layer.2 ≠ .reorder queue := by
      intro queue heq
      cases event with
      | reorder other => exact ordered other rfl
      | _ => cases heq
    rintro task phase ⟨activity, hw, hj⟩
    obtain ⟨key, hahead⟩ := h task phase ⟨activity, waits_goes hne hw, hj⟩
    exact ⟨key, hahead.calm (calm_after setup.recorded allowed (Event.recorded_ne_turn hne _) hordered).1⟩

end Waiting

/-- The turns to come are left in the order in which they came about. -/
def InOrder (events : List (Event σ)) : Prop := ∀ queue, .reorder queue ∉ events

theorem InOrder.concat {events : List (Event σ)} {event : Event σ} (h : InOrder (events ++ [event])) :
    InOrder events ∧ ∀ queue, event ≠ .reorder queue :=
  ⟨fun queue hm => h queue (List.mem_append_left _ hm), fun queue heq => h queue (heq ▸ List.mem_concat_self)⟩

/-- **In the course of events whoever waits for an attempt stays ahead of the next ones**, if turns are carried out in
the order in which they came about. -/
theorem allAhead_course {setup : Setup σ} {layer : σ} {settings : Settings} {events : List (Event σ)}
    (hstops : setup.layer.StopsUncancelled) (permitted : Permitted setup (fresh layer settings) events)
    (inOrder : InOrder events) : (course setup (fresh layer settings) events).AllAhead := by
  induction events using List.reverseRecOn with
  | nil =>
    rintro task phase ⟨activity, ⟨cancelled, found⟩, -⟩
    cases found
  | append_singleton events event ih =>
    obtain ⟨permitted, allowed⟩ := permitted.concat
    obtain ⟨inOrder, ordered⟩ := inOrder.concat
    rw [course_concat]
    exact (ih permitted inOrder).goes (sound_course hstops permitted) (tickets_course setup layer settings events) hstops
      allowed ordered

end LanguageSessions.Engine
