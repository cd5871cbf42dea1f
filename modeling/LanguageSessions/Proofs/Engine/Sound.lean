import LanguageSessions.Engine
import LanguageSessions.Proofs.Client.Attempt
import LanguageSessions.Proofs.Client.Operation
import Mathlib.Data.List.Nodup

/-!
# The starts under way and the live sessions of their keys

`Sound` ties together what the client holds about starts: the attempts that run, the table of starts under way, the
turns that begin and forget attempts, the phases of attempts, and the live sessions of each key. It is kept by calm
changes and by launches (`Sound.advances`), by each step of an attempt (`Sound.waits`, `Sound.ends`), and when an
attempt that has ended is forgotten (`Sound.forget`).
-/

namespace LanguageSessions

open SessionRegistry

/-- The attempt that a turn begins. -/
def Turn.launch? : Turn → Option Nat
  | .launch attempt => some attempt
  | _ => none

theorem Turn.launch?_eq_some_iff {turn : Turn} {number : Nat} :
    turn.launch? = some number ↔ turn = .launch number := by
  cases turn <;> simp [launch?]

/-- The attempt that a turn forgets. -/
def Turn.forget? : Turn → Option Nat
  | .forget attempt => some attempt
  | _ => none

theorem Turn.forget?_eq_some_iff {turn : Turn} {number : Nat} :
    turn.forget? = some number ↔ turn = .forget number := by
  cases turn <;> simp [forget?]

namespace Client

variable {σ : Type}

/-- An attempt runs for a key: it has been launched and has not ended. -/
def Running (client : Client σ) (number : Nat) (key : String × String) : Prop :=
  ∃ attempt, client.attempts[number]? = some attempt ∧ attempt.key = key ∧ attempt.outcome = none

theorem Quiet.running_iff {before after : Client σ} (h : Quiet before after) {number : Nat} {key : String × String} :
    after.Running number key ↔ before.Running number key := by
  constructor
  · rintro ⟨later, ha, hk, ho⟩
    obtain ⟨attempt, hb, hj⟩ := h.attempt_before ha
    exact ⟨attempt, hb, hj.key.symm.trans hk, hj.outcome.symm.trans ho⟩
  · rintro ⟨attempt, hb, hk, ho⟩
    obtain ⟨later, ha, hj⟩ := h.attempt number attempt hb
    exact ⟨later, ha, hj.key.trans hk, hj.outcome.trans ho⟩

theorem Quiet.mem_queue_iff {before after : Client σ} (h : Quiet before after) {turn : Turn}
    (ht : turn.isCalm = false) :
    turn ∈ after.queue ↔ turn ∈ before.queue := by
  obtain ⟨turns, hq, hc⟩ := h.queue
  rw [hq.mem_iff, List.mem_append]
  refine ⟨fun hm => hm.resolve_right fun hm => ?_, Or.inl⟩
  rw [hc turn hm] at ht
  cases ht

/-- The turns of a kind that is not calm are the same ones. -/
theorem Quiet.turns_perm {before after : Client σ} (h : Quiet before after) {kind : Turn → Option Nat}
    (hk : ∀ turn : Turn, turn.isCalm = true → kind turn = none) :
    (after.queue.filterMap kind).Perm (before.queue.filterMap kind) := by
  obtain ⟨turns, hq, hc⟩ := h.queue
  have hn : turns.filterMap kind = [] := List.filterMap_eq_nil_iff.2 fun turn ht => hk turn (hc turn ht)
  have hperm := hq.filterMap kind
  rw [List.filterMap_append, hn, List.append_nil] at hperm
  exact hperm

theorem launch?_of_isCalm {turn : Turn} (h : turn.isCalm = true) : turn.launch? = none := by
  cases turn <;> first | rfl | cases h

theorem forget?_of_isCalm {turn : Turn} (h : turn.isCalm = true) : turn.forget? = none := by
  cases turn <;> first | rfl | cases h

/-- What the client holds about starts agrees with the phases of the attempts. -/
structure Booked (client : Client σ) (phases : Entries Nat AttemptPhase) : Prop where
  running : ∀ number key, client.Running number key → client.starting.get? key = some number
  starting : ∀ key number, client.starting.get? key = some number →
    ∃ attempt, client.attempts[number]? = some attempt ∧ attempt.key = key
  uncancelled : ∀ (number : Nat) attempt, client.attempts[number]? = some attempt → attempt.isCancelled = false
  forgotten : ∀ number, .forget number ∈ client.queue →
    ∃ attempt outcome, client.attempts[number]? = some attempt ∧ attempt.outcome = some outcome ∧
      client.starting.get? attempt.key = some number
  launched : ∀ number, .launch number ∈ client.queue → phases.get? number = none ∧ ∃ key, client.Running number key
  once : (client.queue.filterMap Turn.launch?).Nodup
  forgottenOnce : (client.queue.filterMap Turn.forget?).Nodup
  phased : ∀ number phase, phases.get? number = some phase → ∃ key, client.Running number key

/-- What the client holds about starts agrees with the phases of the attempts and with the live sessions of each key. -/
structure Sound (client : Client σ) (phases : Entries Nat AttemptPhase) : Prop extends Booked client phases where
  named : client.sessions.Named
  fits : ∀ number phase key, phases.get? number = some phase → client.Running number key →
    phase.Fits key client.sessions
  unphased : ∀ number key, client.Running number key → phases.get? number = none → client.sessions.Idle key
  settled : ∀ key, (∀ number, ¬ client.Running number key) → client.sessions.Settled key
  fruitless : ∀ number attempt fault, .forget number ∈ client.queue → client.attempts[number]? = some attempt →
    attempt.outcome = some (.error fault) → client.sessions.Idle attempt.key

theorem not_running_new (layer : σ) (settings : Settings) (number : Nat) (key : String × String) :
    ¬ (Client.new layer settings).Running number key := fun h => nomatch h.choose_spec.1

theorem sound_new (layer : σ) (settings : Settings) : Sound (Client.new layer settings) [] where
  running _ _ h := absurd h (not_running_new layer settings _ _)
  starting _ _ h := nomatch h
  uncancelled _ _ h := nomatch h
  forgotten _ h := nomatch h
  launched _ h := nomatch h
  once := List.nodup_nil
  forgottenOnce := List.nodup_nil
  phased _ _ h := nomatch h
  named := named_empty
  fits _ _ _ h := nomatch h
  unphased _ _ h := absurd h (not_running_new layer settings _ _)
  settled key _ := (idle_empty key).settled
  fruitless _ _ _ h := nomatch h

section Sound

variable {client later : Client σ} {phases : Entries Nat AttemptPhase} {key : String × String} {number : Nat}

/-! ## What follows -/

theorem Running.key_eq {other : String × String} (h : client.Running number key) (h' : client.Running number other) :
    other = key := by
  obtain ⟨attempt, ha, rfl, -⟩ := h
  obtain ⟨attempt', ha', rfl, -⟩ := h'
  cases ha.symm.trans ha'
  rfl

/-- At most one attempt runs for a key. -/
theorem Sound.running_unique (h : Sound client phases) {other : Nat} (hr : client.Running number key)
    (ho : client.Running other key) : other = number :=
  Option.some.inj ((h.running other key ho).symm.trans (h.running number key hr))

/-- While an attempt runs for a key, no session of the key is live but its own one. -/
theorem Sound.idle_or_only (h : Sound client phases) (hr : client.Running number key) :
    client.sessions.Idle key ∨ ∃ session, client.sessions.Only key session := by
  cases hp : phases.get? number with
  | none => exact Or.inl (h.unphased number key hr hp)
  | some phase =>
    have hf := h.fits number phase key hp hr
    cases phase with
    | shaking session _ | discarding _ session _ => exact Or.inr ⟨session, hf⟩
    | checking _ | inspecting _ | starting _ | aborting _ _ => exact Or.inl hf

/-- While an attempt runs for a key, no session of the key is ready. -/
theorem Sound.not_ready (h : Sound client phases) (hr : client.Running number key) (session : Nat) :
    ¬ client.sessions.Live key session .ready := by
  intro hl
  rcases h.idle_or_only hr with hidle | ⟨other, honly⟩
  · exact hidle session .ready hl
  · exact nomatch (honly.live session .ready hl).2

/-- **At most one registered session of a key is live.** -/
theorem Sound.live_unique (h : Sound client phases) {first second : Nat} {stage stage' : SessionStage}
    (hl : client.sessions.Live key first stage) (hl' : client.sessions.Live key second stage') : second = first := by
  by_cases hr : ∃ number, client.Running number key
  · obtain ⟨number, hr⟩ := hr
    rcases h.idle_or_only hr with hidle | ⟨session, honly⟩
    · exact absurd hl (hidle first stage)
    · exact honly.unique hl hl'
  · exact (h.settled key fun number hr' => hr ⟨number, hr'⟩).unique _ _ _ _ hl hl'

/-! ## Calm changes and launches -/

theorem fits_of_live {registry next : SessionRegistry} {phase : AttemptPhase} (h : phase.Fits key registry)
    (hs : ∀ number session, registry.session? number = some session →
      ∃ session', next.session? number = some session' ∧ session'.key = session.key)
    (hl : ∀ number stage, next.Live key number stage → registry.Live key number stage) : phase.Fits key next := by
  cases phase with
  | shaking _ _ | discarding _ _ _ => exact h.of_live hs hl
  | checking _ | inspecting _ | starting _ | aborting _ _ => exact h.of_live hl

theorem Booked.quiet (h : Booked client phases) (hc : Quiet client later) : Booked later phases where
  running n k hr := by
    rw [hc.starting]
    exact h.running n k (hc.running_iff.1 hr)
  starting k n hs := by
    rw [hc.starting] at hs
    obtain ⟨attempt, ha, hk⟩ := h.starting k n hs
    obtain ⟨attempt', ha', hj⟩ := hc.attempt n attempt ha
    exact ⟨attempt', ha', hj.key.trans hk⟩
  uncancelled n attempt' ha' := by
    obtain ⟨attempt, ha, hj⟩ := hc.attempt_before ha'
    exact hj.isCancelled.trans (h.uncancelled n attempt ha)
  forgotten n hm := by
    obtain ⟨attempt, outcome, ha, ho, hs⟩ := h.forgotten n ((hc.mem_queue_iff rfl).1 hm)
    obtain ⟨attempt', ha', hj⟩ := hc.attempt n attempt ha
    exact ⟨attempt', outcome, ha', hj.outcome.trans ho, by rw [hc.starting, hj.key, hs]⟩
  launched n hm := by
    obtain ⟨hp, k, hr⟩ := h.launched n ((hc.mem_queue_iff rfl).1 hm)
    exact ⟨hp, k, hc.running_iff.2 hr⟩
  once := (hc.turns_perm fun _ => launch?_of_isCalm).nodup_iff.2 h.once
  forgottenOnce := (hc.turns_perm fun _ => forget?_of_isCalm).nodup_iff.2 h.forgottenOnce
  phased n phase hp := by
    obtain ⟨k, hr⟩ := h.phased n phase hp
    exact ⟨k, hc.running_iff.2 hr⟩

theorem Sound.still (h : Sound client phases) (hc : Still client later) : Sound later phases where
  toBooked := h.toBooked.quiet hc.toQuiet
  named := hc.sessions.named h.named
  fits n phase k hp hr :=
    fits_of_live (h.fits n phase k hp (hc.running_iff.1 hr)) (hc.sessions.spares k).session fun _ _ => hc.sessions.live
  unphased n k hr hp := (h.unphased n k (hc.running_iff.1 hr) hp).of_wanes hc.sessions
  settled k hk := (h.settled k fun n hr => hk n (hc.running_iff.2 hr)).of_live fun _ _ => hc.sessions.live
  fruitless n attempt' fault hm ha' ho := by
    obtain ⟨attempt, ha, hj⟩ := hc.attempt_before ha'
    have hidle := h.fruitless n attempt fault ((hc.mem_queue_iff rfl).1 hm) ha (hj.outcome.symm.trans ho)
    exact hj.key ▸ hidle.of_wanes hc.sessions

/-- An attempt that runs after another one was launched ran before, or is the launched one. -/
theorem Launches.running (hl : Launches key client later) {n : Nat} {k : String × String}
    (hr : later.Running n k) : client.Running n k ∨ (n = client.attempts.length ∧ k = key) := by
  obtain ⟨attempt, hattempts, hk, ho, -⟩ := hl.attempts
  obtain ⟨found, hf, rfl, hfo⟩ := hr
  rw [hattempts, List.getElem?_append] at hf
  split at hf
  · exact Or.inl ⟨found, hf, rfl, hfo⟩
  · next hlt =>
    have hn : n - client.attempts.length = 0 := by
      have := (List.getElem?_eq_some_iff.1 hf).1
      simpa using this
    rw [hn] at hf
    cases hf
    exact Or.inr ⟨by omega, hk⟩

theorem Launches.running_new (hl : Launches key client later) : later.Running client.attempts.length key := by
  obtain ⟨attempt, hattempts, hk, ho, -⟩ := hl.attempts
  exact ⟨attempt, by rw [hattempts, List.getElem?_concat_length], hk, ho⟩

/-- The attempts that were there stay as they are. -/
theorem Launches.attempt (hl : Launches key client later) {n : Nat} {attempt : Attempt}
    (ha : client.attempts[n]? = some attempt) : later.attempts[n]? = some attempt := by
  obtain ⟨new, hattempts, -⟩ := hl.attempts
  rw [hattempts, List.getElem?_append_left (List.getElem?_eq_some_iff.1 ha).1]
  exact ha

theorem Launches.running_old (hl : Launches key client later) {n : Nat} {k : String × String}
    (hr : client.Running n k) : later.Running n k := by
  obtain ⟨attempt, ha, hk, ho⟩ := hr
  exact ⟨attempt, hl.attempt ha, hk, ho⟩

/-- Where an attempt may be launched no session of the key is live. -/
theorem Sound.idle_of_launches (h : Sound client phases) (hl : Launches key client later) :
    client.sessions.Idle key := by
  refine (h.settled key fun n hr => ?_).idle_of_find? h.named hl.unready
  have := h.running n key hr
  rw [hl.free] at this
  cases this

theorem Booked.launches (h : Booked client phases) (hl : Launches key client later) : Booked later phases where
  running n k hr := by
    rw [hl.starting, Entries.get?_set]
    rcases hl.running hr with hr | ⟨rfl, rfl⟩
    · have hs := h.running n k hr
      split
      · next hk =>
        rw [← hk, hl.free] at hs
        cases hs
      · exact hs
    · exact if_pos rfl
  starting k n hs := by
    rw [hl.starting, Entries.get?_set] at hs
    split at hs
    · next hk =>
      cases hs
      obtain ⟨attempt, ha, hk', -⟩ := hl.running_new
      exact ⟨attempt, ha, hk'.trans hk⟩
    · obtain ⟨attempt, ha, hk⟩ := h.starting k n hs
      exact ⟨attempt, hl.attempt ha, hk⟩
  uncancelled n attempt ha := by
    obtain ⟨new, hattempts, -, -, hnew⟩ := hl.attempts
    rw [hattempts] at ha
    rcases List.mem_append.1 (List.mem_of_getElem? ha) with hm | hm
    · obtain ⟨n', hn'⟩ := List.mem_iff_getElem?.1 hm
      exact h.uncancelled n' attempt hn'
    · rw [List.mem_singleton.1 hm]
      exact hnew
  forgotten n hm := by
    rw [hl.queue] at hm
    rcases List.mem_append.1 hm with hm | hm
    · obtain ⟨attempt, outcome, ha, ho, hs⟩ := h.forgotten n hm
      refine ⟨attempt, outcome, hl.attempt ha, ho, ?_⟩
      rw [hl.starting, Entries.get?_set, if_neg, hs]
      rintro rfl
      cases hl.free.symm.trans hs
    · cases List.mem_singleton.1 hm
  launched n hm := by
    rw [hl.queue] at hm
    rcases List.mem_append.1 hm with hm | hm
    · obtain ⟨hp, k, hr⟩ := h.launched n hm
      exact ⟨hp, k, hl.running_old hr⟩
    · cases List.mem_singleton.1 hm
      refine ⟨?_, key, hl.running_new⟩
      cases hp : phases.get? client.attempts.length with
      | none => rfl
      | some phase =>
        obtain ⟨_, _, ha, -⟩ := h.phased _ phase hp
        exact absurd (List.getElem?_eq_some_iff.1 ha).1 (Nat.lt_irrefl _)
  once := by
    rw [hl.queue, List.filterMap_append, List.nodup_append]
    refine ⟨h.once, List.nodup_singleton _, fun n hn m hm hnm => ?_⟩
    subst hnm
    cases List.mem_singleton.1 hm
    obtain ⟨turn, ht, hturn⟩ := List.mem_filterMap.1 hn
    rw [Turn.launch?_eq_some_iff.1 hturn] at ht
    obtain ⟨-, _, _, ha, -⟩ := h.launched _ ht
    exact absurd (List.getElem?_eq_some_iff.1 ha).1 (Nat.lt_irrefl _)
  forgottenOnce := by
    rw [hl.queue, List.filterMap_append]
    exact (List.append_nil _).symm ▸ h.forgottenOnce
  phased n phase hp := by
    obtain ⟨k, hr⟩ := h.phased n phase hp
    exact ⟨k, hl.running_old hr⟩

theorem Sound.launches (h : Sound client phases) (hl : Launches key client later) : Sound later phases where
  toBooked := h.toBooked.launches hl
  named := hl.sessions ▸ h.named
  fits n phase k hp hr := by
    rw [hl.sessions]
    obtain ⟨k', hr'⟩ := h.phased n phase hp
    cases hr.key_eq (hl.running_old hr')
    exact h.fits n phase _ hp hr'
  unphased n k hr hp := by
    rw [hl.sessions]
    rcases hl.running hr with hr | ⟨rfl, rfl⟩
    · exact h.unphased n k hr hp
    · exact h.idle_of_launches hl
  settled k hk := by
    rw [hl.sessions]
    exact h.settled k fun n hr => hk n (hl.running_old hr)
  fruitless n attempt fault hm ha ho := by
    have hm : .forget n ∈ client.queue := by
      rw [hl.queue] at hm
      exact (List.mem_append.1 hm).resolve_right fun hm => nomatch List.mem_singleton.1 hm
    obtain ⟨found, -, hf, -⟩ := h.forgotten n hm
    cases ha.symm.trans (hl.attempt hf)
    exact hl.sessions ▸ h.fruitless n attempt fault hm hf ho

/-- A turn of an operation keeps the agreement. -/
theorem Sound.advances {φ α : Type} {signal : φ → Signal} {old : Option Signal} {step : Client σ × Progress φ α}
    (h : Sound client phases) (ha : Advances signal old client step) : Sound step.1 phases := by
  rcases ha.change with hc | ⟨-, key, hl⟩
  · exact h.still hc.toStill
  · exact h.launches hl

/-! ## Turns -/

/-- A turn is taken from the front of the queue. -/
theorem Sound.pop (h : Sound client phases) {turn : Turn} {queue : List Turn} (hq : client.queue = turn :: queue) :
    Sound { client with queue } phases where
  running := h.running
  starting := h.starting
  uncancelled := h.uncancelled
  forgotten n hm := h.forgotten n (hq ▸ List.mem_cons_of_mem _ hm)
  launched n hm := h.launched n (hq ▸ List.mem_cons_of_mem _ hm)
  once := by
    have ho := h.once
    rw [hq] at ho
    exact ho.sublist ((List.sublist_cons_self turn queue).filterMap _)
  forgottenOnce := by
    have ho := h.forgottenOnce
    rw [hq] at ho
    exact ho.sublist ((List.sublist_cons_self turn queue).filterMap _)
  phased := h.phased
  named := h.named
  fits := h.fits
  unphased := h.unphased
  settled := h.settled
  fruitless n attempt fault hm := h.fruitless n attempt fault (hq ▸ List.mem_cons_of_mem _ hm)

/-- The turn that begins an attempt was the only one. -/
theorem Sound.launch_not_mem (h : Sound client phases) {queue : List Turn}
    (hq : client.queue = .launch number :: queue) : .launch number ∉ queue := by
  intro hm
  have ho := h.once
  rw [hq] at ho
  exact (List.nodup_cons.1 ho).1 (List.mem_filterMap.2 ⟨_, hm, rfl⟩)

/-- The turn that forgets an attempt was the only one. -/
theorem Sound.forget_not_mem (h : Sound client phases) {queue : List Turn}
    (hq : client.queue = .forget number :: queue) : .forget number ∉ queue := by
  intro hm
  have ho := h.forgottenOnce
  rw [hq] at ho
  exact (List.nodup_cons.1 ho).1 (List.mem_filterMap.2 ⟨_, hm, rfl⟩)

/-- An attempt that has ended is forgotten. -/
theorem Sound.forget (h : Sound client phases) {attempt : Attempt} {outcome : Except Fault String}
    (ha : client.attempts[number]? = some attempt) (ho : attempt.outcome = some outcome)
    (hlast : .forget number ∉ client.queue) : Sound (Engine.forget client number) phases := by
  rw [Engine.forget, ha]
  dsimp only
  split
  · next hs =>
    refine { h with running := fun n k hr => ?_, starting := fun k n hk => ?_, forgotten := fun n hm => ?_ }
    · rw [Entries.get?_erase]
      have hk := h.running n k hr
      split
      · next hkey =>
        -- The attempt that is forgotten does not run any more.
        rw [← hkey, hs] at hk
        cases hk
        obtain ⟨_, ha', -, hn⟩ := hr
        cases ha.symm.trans ha'
        rw [ho] at hn
        cases hn
      · exact hk
    · rw [Entries.get?_erase] at hk
      split at hk
      · cases hk
      · exact h.starting k n hk
    · obtain ⟨other, result, hother, hresult, hstarting⟩ := h.forgotten n hm
      refine ⟨other, result, hother, hresult, ?_⟩
      rw [Entries.get?_erase, if_neg, hstarting]
      intro hkey
      -- Another attempt would be under way for the same key.
      rw [← hkey, hs] at hstarting
      exact hlast (Option.some.inj hstarting ▸ hm)
  · exact h

end Sound

/-! ## Steps of attempts -/

/-- The end of an attempt: it is to be forgotten, and whoever joined it hears of it. -/
def ended (client : Client σ) (number : Nat) (outcome : Except Fault String) (joiners : List Joiner) : Client σ :=
  { client with
    attempts := client.attempts.modify number fun attempt => { attempt with outcome := some outcome, joiners := [] }
  }.pushAll (.forget number :: joiners.map Engine.hearing)

section Steps

variable {client later : Client σ} {phases : Entries Nat AttemptPhase} {key : String × String} {number : Nat}

theorem Booked.set (h : Booked client phases) (hr : client.Running number key) (hq : .launch number ∉ client.queue)
    (phase : AttemptPhase) : Booked client (phases.set number phase) where
  running := h.running
  starting := h.starting
  uncancelled := h.uncancelled
  forgotten := h.forgotten
  launched n hm := by
    have hne : number ≠ n := fun hn => hq (hn ▸ hm)
    rw [Entries.get?_set, if_neg hne]
    exact h.launched n hm
  once := h.once
  forgottenOnce := h.forgottenOnce
  phased n phase hp := by
    rw [Entries.get?_set] at hp
    split at hp
    · next hn => exact ⟨key, hn ▸ hr⟩
    · exact h.phased n phase hp

theorem getElem?_ended (client : Client σ) (number n : Nat) (outcome : Except Fault String) (joiners : List Joiner) :
    (client.ended number outcome joiners).attempts[n]? =
      if number = n then client.attempts[n]?.map fun attempt => { attempt with outcome := some outcome, joiners := [] }
      else client.attempts[n]? := by
  rw [ended, pushAll, List.getElem?_modify]
  split <;> simp

theorem running_ended_iff {outcome : Except Fault String} {joiners : List Joiner} {n : Nat} {k : String × String} :
    (client.ended number outcome joiners).Running n k ↔ number ≠ n ∧ client.Running n k := by
  rw [Running, getElem?_ended]
  split
  · next hn =>
    refine ⟨fun ⟨attempt, ha, _, ho⟩ => ?_, fun h => absurd hn h.1⟩
    obtain ⟨before, -, rfl⟩ := Option.map_eq_some_iff.1 ha
    cases ho
  · next hn => exact ⟨fun h => ⟨hn, h⟩, fun h => h.2⟩

theorem mem_queue_ended {outcome : Except Fault String} {joiners : List Joiner} {turn : Turn}
    (h : turn ∈ (client.ended number outcome joiners).queue) :
    turn ∈ client.queue ∨ turn = .forget number ∨ ∃ joiner ∈ joiners, turn = Engine.hearing joiner := by
  rcases List.mem_append.1 h with h | h
  · exact Or.inl h
  rcases List.mem_cons.1 h with h | h
  · exact Or.inr (Or.inl h)
  · obtain ⟨joiner, hj, rfl⟩ := List.mem_map.1 h
    exact Or.inr (Or.inr ⟨joiner, hj, rfl⟩)

theorem launch?_hearing (joiner : Joiner) : (Engine.hearing joiner).launch? = none := by cases joiner <;> rfl

theorem forget?_hearing (joiner : Joiner) : (Engine.hearing joiner).forget? = none := by cases joiner <;> rfl

theorem launches_ended (client : Client σ) (number : Nat) (outcome : Except Fault String) (joiners : List Joiner) :
    (client.ended number outcome joiners).queue.filterMap Turn.launch? = client.queue.filterMap Turn.launch? := by
  have hn : (Turn.forget number :: joiners.map Engine.hearing).filterMap Turn.launch? = [] := by
    rw [List.filterMap_eq_nil_iff]
    intro turn ht
    rcases List.mem_cons.1 ht with rfl | ht
    · rfl
    · obtain ⟨joiner, -, rfl⟩ := List.mem_map.1 ht
      exact launch?_hearing joiner
  rw [Client.ended, pushAll]
  dsimp only
  rw [List.filterMap_append, hn, List.append_nil]

theorem forgets_ended (client : Client σ) (number : Nat) (outcome : Except Fault String) (joiners : List Joiner) :
    (client.ended number outcome joiners).queue.filterMap Turn.forget? =
      client.queue.filterMap Turn.forget? ++ [number] := by
  have hn : (Turn.forget number :: joiners.map Engine.hearing).filterMap Turn.forget? = [number] := by
    rw [List.filterMap_cons]
    refine congrArg (number :: ·) (List.filterMap_eq_nil_iff.2 fun turn ht => ?_)
    obtain ⟨joiner, -, rfl⟩ := List.mem_map.1 ht
    exact forget?_hearing joiner
  rw [Client.ended, pushAll]
  dsimp only
  rw [List.filterMap_append, hn]

/-- An attempt that runs is not to be forgotten yet. -/
theorem Booked.forget_not_mem_of_running (h : Booked client phases) (hr : client.Running number key) :
    .forget number ∉ client.queue := by
  intro hm
  obtain ⟨attempt, result, ha, ho, -⟩ := h.forgotten number hm
  obtain ⟨running, hf, -, hnone⟩ := hr
  cases ha.symm.trans hf
  cases ho.symm.trans hnone

/-- What is to be forgotten has ended, the attempt that ends now included. -/
theorem Booked.forgotten_ended (h : Booked client phases) (hr : client.Running number key)
    {outcome : Except Fault String} {joiners : List Joiner} {n : Nat}
    (hm : .forget n ∈ (client.ended number outcome joiners).queue) :
    ∃ attempt result, (client.ended number outcome joiners).attempts[n]? = some attempt ∧
      attempt.outcome = some result ∧ client.starting.get? attempt.key = some n := by
  rw [getElem?_ended]
  rcases mem_queue_ended hm with hm | hm | ⟨joiner, -, hm⟩
  · obtain ⟨attempt, result, ha, ho, hs⟩ := h.forgotten n hm
    rw [ha]
    split
    · exact ⟨_, _, rfl, rfl, hs⟩
    · exact ⟨attempt, result, rfl, ho, hs⟩
  · cases hm
    have hs := h.running number key hr
    obtain ⟨attempt, ha, rfl, -⟩ := hr
    rw [if_pos rfl, ha]
    exact ⟨_, _, rfl, rfl, hs⟩
  · cases joiner <;> cases hm

theorem Booked.ended (h : Booked client phases) (hr : client.Running number key) (hq : .launch number ∉ client.queue)
    (outcome : Except Fault String) (joiners : List Joiner) :
    Booked (client.ended number outcome joiners) (phases.erase number) where
  running n k hrun := h.running n k (running_ended_iff.1 hrun).2
  starting k n hs := by
    obtain ⟨attempt, ha, hk⟩ := h.starting k n hs
    rw [getElem?_ended, ha]
    split
    · exact ⟨_, rfl, hk⟩
    · exact ⟨attempt, rfl, hk⟩
  uncancelled n attempt ha := by
    rw [getElem?_ended] at ha
    split at ha
    · obtain ⟨before, hb, rfl⟩ := Option.map_eq_some_iff.1 ha
      exact h.uncancelled n before hb
    · exact h.uncancelled n attempt ha
  forgotten n hm := h.forgotten_ended hr hm
  launched n hm := by
    rcases mem_queue_ended hm with hm | hm | ⟨joiner, -, hm⟩
    · have hne : number ≠ n := fun hn => hq (hn ▸ hm)
      obtain ⟨hp, k, hrun⟩ := h.launched n hm
      exact ⟨by rw [Entries.get?_erase, if_neg hne, hp], k, running_ended_iff.2 ⟨hne, hrun⟩⟩
    · cases hm
    · cases joiner <;> cases hm
  once := by
    rw [launches_ended]
    exact h.once
  forgottenOnce := by
    rw [forgets_ended, List.nodup_append]
    refine ⟨h.forgottenOnce, List.nodup_singleton number, fun n hbefore m hm hnm => ?_⟩
    subst hnm
    cases List.mem_singleton.1 hm
    obtain ⟨turn, ht, hturn⟩ := List.mem_filterMap.1 hbefore
    rw [Turn.forget?_eq_some_iff.1 hturn] at ht
    exact h.forget_not_mem_of_running hr ht
  phased n phase hp := by
    rw [Entries.get?_erase] at hp
    split at hp
    · cases hp
    · next hn =>
      obtain ⟨k, hrun⟩ := h.phased n phase hp
      exact ⟨k, running_ended_iff.2 ⟨hn, hrun⟩⟩

/-- A step of an attempt leaves the other attempts with what fits their phases. -/
theorem Sound.fits_others (h : Sound client phases) (hr : client.Running number key)
    (hs : Spares key client.sessions later.sessions) {n : Nat} {phase : AttemptPhase} {k : String × String}
    (hn : number ≠ n) (hp : phases.get? n = some phase) (hrun : client.Running n k) : phase.Fits k later.sessions := by
  have hk : k ≠ key := fun hk => hn (h.running_unique (hk ▸ hrun) hr)
  exact fits_of_live (h.fits n phase k hp hrun) hs.session (hs.live k hk)

theorem Sound.idle_others (h : Sound client phases) (hr : client.Running number key)
    (hs : Spares key client.sessions later.sessions) {n : Nat} {k : String × String} (hn : number ≠ n)
    (hp : phases.get? n = none) (hrun : client.Running n k) : later.sessions.Idle k := by
  have hk : k ≠ key := fun hk => hn (h.running_unique (hk ▸ hrun) hr)
  exact (h.unphased n k hrun hp).of_live (hs.live k hk)

/-- A step of an attempt leaves the keys of other attempts without live sessions that failed and are to be forgotten. -/
theorem Sound.fruitless_others (h : Sound client phases) (hr : client.Running number key) (hq : Quiet client later)
    (hs : Spares key client.sessions later.sessions) {n : Nat} {attempt : Attempt} {fault : Fault}
    (hm : .forget n ∈ later.queue) (ha : later.attempts[n]? = some attempt)
    (ho : attempt.outcome = some (.error fault)) : later.sessions.Idle attempt.key := by
  have hm := (hq.mem_queue_iff rfl).1 hm
  obtain ⟨before, hb, hj⟩ := hq.attempt_before ha
  have hbefore := hj.outcome.symm.trans ho
  rw [hj.key]
  refine (h.fruitless n before fault hm hb hbefore).of_live (hs.live before.key fun hk => ?_)
  -- The attempt that gets on would be the one that has failed.
  obtain ⟨found, _, hf, -, hstarting⟩ := h.forgotten n hm
  cases hb.symm.trans hf
  have hsame := hstarting.symm.trans (hk ▸ h.running number key hr)
  obtain ⟨running, hrunning, -, hnone⟩ := hr
  cases (Option.some.inj hsame ▸ hb).symm.trans hrunning
  exact nomatch hbefore.symm.trans hnone

/-- An attempt has come to a phase. -/
theorem Sound.waits (h : Sound client phases) (hr : client.Running number key) (hq : .launch number ∉ client.queue)
    {phase : AttemptPhase} (ha : Attempts key client (later, .waits phase)) :
    Sound later (phases.set number phase) where
  toBooked := (h.toBooked.quiet ha.quiet).set (ha.quiet.running_iff.2 hr) (mt (ha.quiet.mem_queue_iff rfl).1 hq) phase
  named := ha.spares.named h.named
  fits n p k hp hrun := by
    rw [Entries.get?_set] at hp
    split at hp
    · next hn =>
      subst hn
      cases hp
      cases hr.key_eq (ha.quiet.running_iff.1 hrun)
      exact ha.fits
    · next hn => exact h.fits_others hr ha.spares hn hp (ha.quiet.running_iff.1 hrun)
  unphased n k hrun hp := by
    rw [Entries.get?_set] at hp
    split at hp
    · cases hp
    · next hn => exact h.idle_others hr ha.spares hn hp (ha.quiet.running_iff.1 hrun)
  settled k hk := by
    have hne : k ≠ key := fun hk' => hk number (ha.quiet.running_iff.2 (hk' ▸ hr))
    exact (h.settled k fun n hrun => hk n (ha.quiet.running_iff.2 hrun)).of_live (ha.spares.live k hne)
  fruitless n attempt fault := h.fruitless_others hr ha.quiet ha.spares

/-- An attempt has ended. -/
theorem Sound.ends (h : Sound client phases) (hr : client.Running number key) (hq : .launch number ∉ client.queue)
    {outcome : Except Fault String} (ha : Attempts key client (later, .ends outcome)) (joiners : List Joiner) :
    Sound (later.ended number outcome joiners) (phases.erase number) where
  toBooked :=
    (h.toBooked.quiet ha.quiet).ended (ha.quiet.running_iff.2 hr) (mt (ha.quiet.mem_queue_iff rfl).1 hq) outcome joiners
  named := ha.spares.named h.named
  fits n p k hp hrun := by
    obtain ⟨hn, hrun⟩ := running_ended_iff.1 hrun
    rw [Entries.get?_erase, if_neg hn] at hp
    exact h.fits_others hr ha.spares hn hp (ha.quiet.running_iff.1 hrun)
  unphased n k hrun hp := by
    obtain ⟨hn, hrun⟩ := running_ended_iff.1 hrun
    rw [Entries.get?_erase, if_neg hn] at hp
    exact h.idle_others hr ha.spares hn hp (ha.quiet.running_iff.1 hrun)
  settled k hk := by
    by_cases hkey : k = key
    · subst hkey
      have hf := ha.fits
      cases outcome with
      | error fault => exact Idle.settled hf
      | ok session => exact hf
    · refine (h.settled k fun n hrun => ?_).of_live (ha.spares.live k hkey)
      have hn : number ≠ n := fun hn => hkey (hr.key_eq (hn ▸ hrun))
      exact hk n (running_ended_iff.2 ⟨hn, ha.quiet.running_iff.2 hrun⟩)
  fruitless n attempt fault hm hattempt ho := by
    rw [getElem?_ended] at hattempt
    split at hattempt
    · next hn =>
      -- The attempt that ends, and fails.
      subst hn
      obtain ⟨before, hb, rfl⟩ := Option.map_eq_some_iff.1 hattempt
      cases ho
      have hrun := ha.quiet.running_iff.2 hr
      obtain ⟨running, hf, rfl, -⟩ := hrun
      cases hb.symm.trans hf
      exact ha.fits
    · next hn =>
      refine h.fruitless_others hr ha.quiet ha.spares ?_ hattempt ho
      rcases mem_queue_ended hm with hm | hm | ⟨joiner, -, hm⟩
      · exact hm
      · cases hm
        exact absurd rfl hn
      · cases joiner <;> cases hm

end Steps

end Client

end LanguageSessions
