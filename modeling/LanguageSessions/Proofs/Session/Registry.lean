import LanguageSessions.Proofs.Entries
import LanguageSessions.Session.Registry

/-!
# The live sessions of a key

A key is a language and a root. `Live` says which registered sessions of a key are live, and at what stage; all that is
said about a key is said of them:

- `Idle`: there is none;
- `Only`: there is none but the one with a number, and it is initializing;
- `Settled`: there is one at most, and it is ready.

A registry that wanes (`Wanes`) gets no live session, so it keeps all three (`Idle.of_wanes`, `Only.of_wanes`,
`Settled.of_wanes`); a new session changes its own key alone (`spares_add`).
-/

namespace LanguageSessions

/-- What a session serves. -/
def Session.key (session : Session) : String × String := (session.language, session.root)

/-- A session as it may be later on: at the same stage, or being ended. -/
structure Session.Wanes (before after : Session) : Prop where
  id : after.id = before.id
  key : after.key = before.key
  stage : after.stage = before.stage ∨ after.stage.isEnding = true

theorem Session.Wanes.refl (session : Session) : session.Wanes session := ⟨rfl, rfl, Or.inl rfl⟩

theorem Session.Wanes.trans {first second third : Session} (h : first.Wanes second) (h' : second.Wanes third) :
    first.Wanes third where
  id := h'.id.trans h.id
  key := h'.key.trans h.key
  stage := by
    rcases h'.stage with hs | hs
    · rw [hs]
      exact h.stage
    · exact Or.inr hs

namespace SessionRegistry

/-! ## Registered sessions -/

theorem has_eq_isSome (registry : SessionRegistry) (id : String) : registry.has id = (registry.number? id).isSome := rfl

/-- The session with a number is registered under its identifier. -/
structure Registered (registry : SessionRegistry) (number : Nat) (session : Session) : Prop where
  listed : (session.id, number) ∈ registry.numbers
  session : registry.session? number = some session

/-- Every registered number is that of a session with the identifier that it is registered under. -/
def Named (registry : SessionRegistry) : Prop :=
  ∀ id number, (id, number) ∈ registry.numbers → ∃ session, registry.session? number = some session ∧ session.id = id

/-- A registered session of a key is live, at a stage. -/
def Live (registry : SessionRegistry) (key : String × String) (number : Nat) (stage : SessionStage) : Prop :=
  stage.isLive = true ∧ ∃ session, registry.Registered number session ∧ session.key = key ∧ session.stage = stage

/-- No registered session of a key is live. -/
def Idle (registry : SessionRegistry) (key : String × String) : Prop := ∀ number stage, ¬ registry.Live key number stage

/-- No registered session of a key is live but the one with a number, which is initializing. -/
structure Only (registry : SessionRegistry) (key : String × String) (number : Nat) : Prop where
  session : ∃ session, registry.session? number = some session ∧ session.key = key
  live : ∀ other stage, registry.Live key other stage → other = number ∧ stage = .initializing

/-- At most one registered session of a key is live, and it is ready. -/
structure Settled (registry : SessionRegistry) (key : String × String) : Prop where
  ready : ∀ number stage, registry.Live key number stage → stage = .ready
  unique : ∀ number other stage stage', registry.Live key number stage → registry.Live key other stage' → other = number

theorem named_empty : empty.Named := fun _ _ h => nomatch h

theorem idle_empty (key : String × String) : empty.Idle key := fun _ _ h => nomatch h.2.choose_spec.1.listed

theorem Idle.settled {registry : SessionRegistry} {key : String × String} (h : registry.Idle key) :
    registry.Settled key :=
  ⟨fun number stage l => absurd l (h number stage), fun number _ stage _ l => absurd l (h number stage)⟩

theorem isEnding_of_isLive {stage : SessionStage} (h : stage.isLive = true) : stage.isEnding = false := by
  cases stage <;> first | rfl | cases h

/-! ## Finding -/

section Finding

variable {registry : SessionRegistry} {number : Nat} {session : Session} {key : String × String}

/-- A registered number is that of a session which is registered. -/
theorem Named.registered (h : registry.Named) {id : String} (hm : (id, number) ∈ registry.numbers)
    (hs : registry.session? number = some session) : registry.Registered number session ∧ session.id = id := by
  obtain ⟨named, hn, rfl⟩ := h id number hm
  cases hn.symm.trans hs
  exact ⟨⟨hm, hs⟩, rfl⟩

/-- The session that is found under an identifier has the number that is listed for it. -/
theorem session?_of_get? {id : String} (hs : registry.get? id = some session)
    (listed : registry.number? id = some number) : registry.session? number = some session := by
  rw [get?, listed, Option.bind_some] at hs
  exact hs

theorem Named.registered_of_get? (h : registry.Named) {id : String} (hs : registry.get? id = some session) :
    ∃ number, registry.Registered number session ∧ session.id = id := by
  obtain ⟨number, hn, hs⟩ := Option.bind_eq_some_iff.1 hs
  exact ⟨number, h.registered (Entries.mem_of_get? hn) hs⟩

theorem Named.mem_registered (h : registry.Named) :
    session ∈ registry.registered ↔ ∃ number, registry.Registered number session := by
  constructor
  · intro hm
    obtain ⟨number, hn, hs⟩ := List.mem_filterMap.1 hm
    obtain ⟨⟨id, _⟩, hm, rfl⟩ := List.mem_map.1 hn
    exact ⟨_, (h.registered hm hs).1⟩
  · rintro ⟨number, hr⟩
    exact List.mem_filterMap.2 ⟨number, List.mem_map_of_mem (f := Prod.snd) hr.listed, hr.session⟩

/-- Where the sessions that are live are ready, a key that none is found for has none. -/
theorem Settled.idle_of_find? (h : registry.Settled key) (hn : registry.Named)
    (hf : (registry.find? key.1 key.2).filter Session.isReady = none) : registry.Idle key := by
  rintro number stage ⟨hl, session, hr, rfl, rfl⟩
  cases hfound : registry.find? session.key.1 session.key.2 with
  | none =>
    have := List.find?_eq_none.1 hfound session (hn.mem_registered.2 ⟨number, hr⟩)
    simp [Session.key, hl] at this
  | some found =>
    -- What is found is registered and live too, and so it is ready.
    obtain ⟨other, ho⟩ := hn.mem_registered.1 (List.mem_of_find?_eq_some hfound)
    have hlive := List.find?_some hfound
    simp only [Bool.and_eq_true, beq_iff_eq] at hlive
    have hready := h.ready other found.stage ⟨hlive.2, found, ho, Prod.ext hlive.1.1 hlive.1.2, rfl⟩
    rw [hfound] at hf
    simp [Session.isReady, hready] at hf

/-- None is found for a key of which no session is live. -/
theorem Idle.find?_eq_none (h : registry.Idle key) (hn : registry.Named) : registry.find? key.1 key.2 = none := by
  refine List.find?_eq_none.2 fun session hm hlive => ?_
  obtain ⟨number, hr⟩ := hn.mem_registered.1 hm
  simp only [Bool.and_eq_true, beq_iff_eq] at hlive
  exact h number session.stage ⟨hlive.2, session, hr, Prod.ext hlive.1.1 hlive.1.2, rfl⟩

end Finding

/-! ## Waning -/

/-- A registry without new sessions: its sessions are at the same stages, or being ended, and some are taken out. -/
structure Wanes (before after : SessionRegistry) : Prop where
  length : after.sessions.length = before.sessions.length
  session : ∀ number session, before.session? number = some session →
    ∃ later, after.session? number = some later ∧ session.Wanes later
  numbers : ∀ entry ∈ after.numbers, entry ∈ before.numbers

theorem Wanes.refl (registry : SessionRegistry) : registry.Wanes registry :=
  ⟨rfl, fun _ session h => ⟨session, h, .refl session⟩, fun _ h => h⟩

theorem Wanes.trans {first second third : SessionRegistry} (h : first.Wanes second) (h' : second.Wanes third) :
    first.Wanes third where
  length := h'.length.trans h.length
  session number session hs := by
    obtain ⟨session', hs', hw⟩ := h.session number session hs
    obtain ⟨session'', hs'', hw'⟩ := h'.session number session' hs'
    exact ⟨session'', hs'', hw.trans hw'⟩
  numbers entry he := h.numbers entry (h'.numbers entry he)

theorem session?_modify (registry : SessionRegistry) (number other : Nat) (f : Session → Session) :
    (registry.modify number f).session? other =
      if number = other then (registry.session? other).map f else registry.session? other := by
  rw [session?, modify, List.getElem?_modify]
  split <;> simp [session?]

/-- What may be done to a session at any time. -/
theorem wanes_modify (registry : SessionRegistry) (number : Nat) {f : Session → Session}
    (hf : ∀ session : Session, session.Wanes (f session)) : registry.Wanes (registry.modify number f) where
  length := List.length_modify ..
  session other session hs := by
    rw [session?_modify, hs]
    split
    · exact ⟨f session, rfl, hf session⟩
    · exact ⟨session, rfl, .refl session⟩
  numbers _ he := he

/-- A session is taken out. -/
theorem wanes_remove (registry : SessionRegistry) (id : String) : registry.Wanes (registry.remove id) := by
  rw [remove]
  split
  · exact .refl registry
  · next number _ =>
    have h := registry.wanes_modify number (f := Session.closeAll) fun session => ⟨rfl, rfl, Or.inl rfl⟩
    exact ⟨h.length, h.session, fun entry he => (Entries.mem_erase.1 he).1⟩

section Waning

variable {registry later : SessionRegistry} {key : String × String} {number : Nat} {stage : SessionStage}

theorem Wanes.named (h : registry.Wanes later) (hn : registry.Named) : later.Named := by
  intro id number hm
  obtain ⟨session, hs, rfl⟩ := hn id number (h.numbers _ hm)
  obtain ⟨session', hs', hw⟩ := h.session number session hs
  exact ⟨session', hs', hw.id⟩

/-- What is live was live before. -/
theorem Wanes.live (h : registry.Wanes later) (hl : later.Live key number stage) : registry.Live key number stage := by
  obtain ⟨hlive, session', hr, rfl, rfl⟩ := hl
  have hlt := (List.getElem?_eq_some_iff.1 hr.session).1
  rw [h.length] at hlt
  obtain ⟨session, hs, hw⟩ := h.session number _ (List.getElem?_eq_getElem hlt)
  cases hs.symm.trans hr.session
  refine ⟨hlive, _, ⟨?_, List.getElem?_eq_getElem hlt⟩, hw.key.symm, ?_⟩
  · rw [← hw.id]
    exact h.numbers _ hr.listed
  · rcases hw.stage with hst | hst
    · exact hst.symm
    · rw [isEnding_of_isLive hlive] at hst
      cases hst

/-! ## Other keys -/

/-- A registry after something that concerns one key: sessions stay what they serve, and other keys get none. -/
structure Spares (key : String × String) (before after : SessionRegistry) : Prop where
  named : before.Named → after.Named
  session : ∀ number session, before.session? number = some session →
    ∃ later, after.session? number = some later ∧ later.key = session.key
  live : ∀ other, other ≠ key → ∀ number stage, after.Live other number stage → before.Live other number stage

theorem Wanes.spares (h : registry.Wanes later) (key : String × String) : Spares key registry later where
  named := h.named
  session number session hs := by
    obtain ⟨session', hs', hw⟩ := h.session number session hs
    exact ⟨session', hs', hw.key⟩
  live _ _ _ _ hl := h.live hl

theorem Spares.trans {first second third : SessionRegistry} (h : Spares key first second)
    (h' : Spares key second third) : Spares key first third where
  named hn := h'.named (h.named hn)
  session number session hs := by
    obtain ⟨session', hs', hk⟩ := h.session number session hs
    obtain ⟨session'', hs'', hk'⟩ := h'.session number session' hs'
    exact ⟨session'', hs'', hk'.trans hk⟩
  live other ho number stage hl := h.live other ho number stage (h'.live other ho number stage hl)

/-! ## What is said of a key -/

theorem Idle.of_live (h : registry.Idle key) (hl : ∀ number stage, later.Live key number stage →
    registry.Live key number stage) : later.Idle key := fun number stage l => h number stage (hl number stage l)

theorem Settled.of_live (h : registry.Settled key) (hl : ∀ number stage, later.Live key number stage →
    registry.Live key number stage) : later.Settled key where
  ready number stage l := h.ready number stage (hl number stage l)
  unique number other stage stage' l l' := h.unique number other stage stage' (hl _ _ l) (hl _ _ l')

theorem Only.of_live (h : registry.Only key number) (hs : ∀ number session, registry.session? number = some session →
      ∃ session', later.session? number = some session' ∧ session'.key = session.key)
    (hl : ∀ number stage, later.Live key number stage → registry.Live key number stage) : later.Only key number where
  session := by
    obtain ⟨session, hsession, hk⟩ := h.session
    obtain ⟨session', hs', hk'⟩ := hs number session hsession
    exact ⟨session', hs', hk'.trans hk⟩
  live other stage l := h.live other stage (hl other stage l)

theorem Idle.of_wanes (h : registry.Idle key) (hw : registry.Wanes later) : later.Idle key :=
  h.of_live fun _ _ => hw.live

theorem Only.of_wanes (h : registry.Only key number) (hw : registry.Wanes later) : later.Only key number :=
  h.of_live (hw.spares key).session fun _ _ => hw.live

/-- The one session of a key that may be live is being ended. -/
theorem Only.idle (h : registry.Only key number)
    (he : ∀ session, registry.session? number = some session → session.stage ≠ .initializing) : registry.Idle key := by
  intro other stage hl
  obtain ⟨rfl, rfl⟩ := h.live other stage hl
  obtain ⟨-, session, hr, -, hs⟩ := hl
  exact he session hr.session hs

/-- At most one session of a key is live in any case. -/
theorem Only.unique (h : registry.Only key number) {first second : Nat} {stage stage' : SessionStage}
    (hl : registry.Live key first stage) (hl' : registry.Live key second stage') : second = first :=
  (h.live _ _ hl').1.trans (h.live _ _ hl).1.symm

/-- The one session of a key that may be live becomes ready. -/
theorem Only.settled (h : registry.Only key number) :
    (registry.modify number fun session => { session with stage := .ready }).Settled key := by
  have hlive : ∀ other stage, (registry.modify number fun session => { session with stage := .ready }).Live key other
      stage → other = number ∧ stage = .ready := by
    rintro other stage ⟨hl, session, hr, rfl, rfl⟩
    have hs := hr.session
    rw [session?_modify] at hs
    split at hs
    · next ho =>
      obtain ⟨before, -, rfl⟩ := Option.map_eq_some_iff.1 hs
      exact ⟨ho.symm, rfl⟩
    · next ho =>
      exact absurd (h.live other session.stage ⟨hl, session, ⟨hr.listed, hs⟩, rfl, rfl⟩).1.symm ho
  refine ⟨fun other stage l => (hlive other stage l).2, fun first second stage stage' l l' => ?_⟩
  rw [(hlive _ _ l).1, (hlive _ _ l').1]

theorem Only.spares (h : registry.Only key number) :
    Spares key registry (registry.modify number fun session => { session with stage := .ready }) where
  named hn id other hm := by
    obtain ⟨session, hs, hid⟩ := hn id other hm
    rw [session?_modify, hs]
    split
    · exact ⟨_, rfl, hid⟩
    · exact ⟨session, rfl, hid⟩
  session other session hs := by
    rw [session?_modify, hs]
    split
    · exact ⟨_, rfl, rfl⟩
    · exact ⟨session, rfl, rfl⟩
  live other ho second stage hl := by
    obtain ⟨hlive, session, hr, rfl, rfl⟩ := hl
    have hs := hr.session
    rw [session?_modify] at hs
    split at hs
    · next hn =>
      subst hn
      obtain ⟨before, hb, rfl⟩ := Option.map_eq_some_iff.1 hs
      obtain ⟨mine, hm, rfl⟩ := h.session
      cases hm.symm.trans hb
      exact absurd rfl ho
    · exact ⟨hlive, session, ⟨hr.listed, hs⟩, rfl, rfl⟩

end Waning

/-! ## A new session -/

section Adding

variable {registry : SessionRegistry} {session : Session}

theorem session?_add (registry : SessionRegistry) (session : Session) (number : Nat) :
    (registry.add session).session? number =
      if number = registry.sessions.length then some session else registry.session? number := by
  rw [session?, add]
  split
  · next h => rw [h, List.getElem?_append_right (Nat.le_refl _), Nat.sub_self]; rfl
  · rw [List.getElem?_append, session?]; grind

theorem session?_added (registry : SessionRegistry) (session : Session) :
    (registry.add session).session? registry.sessions.length = some session := by
  rw [session?_add, if_pos rfl]

/-- What is registered besides a new session was registered before. -/
theorem registered_of_add {number : Nat} {other : Session}
    (hr : (registry.add session).Registered number other) :
    (number = registry.sessions.length ∧ other = session) ∨ registry.Registered number other := by
  have hs := hr.session
  rw [session?_add] at hs
  split at hs
  · next hn =>
    cases hs
    exact Or.inl ⟨hn, rfl⟩
  · next hn =>
    rcases Entries.mem_set hr.listed with hm | ⟨-, hm⟩
    · exact Or.inr ⟨hm, hs⟩
    · exact absurd hm hn

theorem spares_add (hn : registry.Named) (session : Session) : Spares session.key registry (registry.add session) where
  named _ id number hm := by
    rw [session?_add]
    rcases Entries.mem_set hm with hm | ⟨rfl, rfl⟩
    · obtain ⟨other, hs, hid⟩ := hn id number hm
      have := (List.getElem?_eq_some_iff.1 hs).1
      rw [if_neg (by omega)]
      exact ⟨other, hs, hid⟩
    · exact ⟨session, if_pos rfl, rfl⟩
  session number other hs := by
    have := (List.getElem?_eq_some_iff.1 hs).1
    rw [session?_add, if_neg (by omega)]
    exact ⟨other, hs, rfl⟩
  live other ho number stage hl := by
    obtain ⟨hlive, found, hr, rfl, rfl⟩ := hl
    rcases registered_of_add hr with ⟨-, rfl⟩ | hr
    · exact absurd rfl ho
    · exact ⟨hlive, found, hr, rfl, rfl⟩

/-- A new session is the only one of a key that had none. -/
theorem Idle.add (h : registry.Idle session.key) (hs : session.stage = .initializing) :
    (registry.add session).Only session.key registry.sessions.length where
  session := ⟨session, registry.session?_added session, rfl⟩
  live other stage hl := by
    obtain ⟨hlive, found, hr, hk, rfl⟩ := hl
    rcases registered_of_add hr with ⟨ho, rfl⟩ | hr
    · exact ⟨ho, hs⟩
    · exact absurd ⟨hlive, found, hr, hk, rfl⟩ (h other found.stage)

end Adding

end SessionRegistry

end LanguageSessions
