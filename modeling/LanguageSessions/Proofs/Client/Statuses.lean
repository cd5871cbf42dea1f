import LanguageSessions.Proofs.Client.Deeds
import LanguageSessions.Proofs.Entries.Totals

/-!
# What is shown about servers

If no two sessions have the same identifier (`Distinct`), then what is shown about servers fits the sessions (`Shown`):
there is one status for each identifier, it fits the stage of the session that has the identifier, and a session whose
end has not begun has one, unless another session was added for its language and root later on. Every deed keeps this
up (`Deed.shown`).

A session that is added takes the place of the first status for its language and root only, and one that stops puts up
its own status again. So there may be several statuses for a language and root.
-/

namespace LanguageSessions

/-- A state that may be shown while a session is at a stage. -/
def RunState.Fits (stage : SessionStage) : RunState → Prop
  | .starting => stage = .initializing ∨ stage.isEnding = true
  | .running => stage = .ready ∨ stage.isEnding = true
  | .stopped | .error => stage = .stopped

/-- What was shown still fits when the end of a session has begun, and while its stage is the same. -/
theorem RunState.Fits.later {state : RunState} {before after : Session} (h : state.Fits before.stage)
    (ha : before.Advances after) (hs : after.stage = before.stage ∨ after.stage.isEnding = true) :
    state.Fits after.stage := by
  rcases hs with hs | he
  · rw [hs]
    exact h
  · cases state with
    | starting => exact Or.inr he
    | running => exact Or.inr he
    | stopped | error => exact ha.stopped h

theorem Session.Advances.key {before after : Session} (h : before.Advances after) : after.key = before.key :=
  Prod.ext h.language h.root

namespace SessionRegistry

/-- No two sessions have the same identifier. -/
def Distinct (registry : SessionRegistry) : Prop :=
  ∀ m n session session', registry.session? m = some session → registry.session? n = some session' →
    session.id = session'.id → m = n

/-- No session for the same language and root was added behind a session. -/
def Latest (registry : SessionRegistry) (number : Nat) (session : Session) : Prop :=
  ∀ n session', registry.session? n = some session' → session'.key = session.key → n ≤ number

section Registries

variable {before after : SessionRegistry} {number : Nat} {session session' : Session}

theorem Advances.distinct (h : before.Advances after) (hd : after.Distinct) : before.Distinct := by
  intro m n first second hm hn hid
  obtain ⟨first', hm', ha⟩ := h m first hm
  obtain ⟨second', hn', ha'⟩ := h n second hn
  apply hd m n first' second' hm' hn'
  rw [ha.id, ha'.id, hid]

/-- A session that is added has an identifier of its own. -/
theorem Distinct.id_ne_of_add {added : Session} (h : (before.add added).Distinct)
    (found : before.session? number = some session) : added.id ≠ session.id := by
  intro hid
  obtain ⟨kept, hkept, advances⟩ := before.advances_add added number session found
  have hn := h _ number added kept (before.session?_added added) hkept (hid.trans advances.id.symm)
  exact absurd (lt_length found) (Nat.not_lt_of_le (Nat.le_of_eq hn))

/-- A session behind which none was added was such a one before. -/
theorem Advances.latest (h : before.Advances after) (ha : session.Advances session')
    (hl : after.Latest number session') : before.Latest number session := by
  intro n other hn hk
  obtain ⟨other', hn', ho⟩ := h n other hn
  exact hl n other' hn' (ho.key.trans (hk.trans ha.key.symm))

theorem number?_remove (registry : SessionRegistry) (id other : String) :
    (registry.remove id).number? other = if id = other then none else registry.number? other := by
  unfold remove
  split
  · next hn =>
    split
    · next hid =>
      subst hid
      exact hn
    · rfl
  · exact Entries.get?_erase id other registry.numbers

end Registries

end SessionRegistry

namespace Account

/-- What is shown about servers fits the sessions. -/
structure Shown (account : Account) : Prop where
  registered : ∀ number session, account.sessions.session? number = some session → session.stage ≠ .stopped →
    account.sessions.number? session.id = some number
  once : account.servers.keys.Nodup
  fits : ∀ id status, account.servers.get? id = some status →
    status.session = id ∧ ∃ number session, account.sessions.session? number = some session ∧ session.id = id ∧
      status.language = session.language ∧ status.root = session.root ∧ status.state.Fits session.stage
  live : ∀ number session, account.sessions.session? number = some session → session.stage.isEnding = false →
    account.sessions.Latest number session → ∃ status, account.servers.get? session.id = some status

section Shown

variable {account : Account} {sessions : SessionRegistry} {number : Nat} {session session' : Session}

/-- No status is put up or taken down, sessions keep their stages or come to their ends, and none is taken out but one
that has stopped. -/
theorem Shown.unchanged (h : account.Shown) {later : Account} (servers : later.servers = account.servers)
    (advances : account.sessions.Advances later.sessions)
    (before : ∀ number session', later.sessions.session? number = some session' →
      ∃ session, account.sessions.session? number = some session ∧ session.Advances session' ∧
        (session'.stage = session.stage ∨ session'.stage.isEnding = true))
    (numbers : ∀ id number, account.sessions.number? id = some number → later.sessions.number? id = some number ∨
      ∀ session', later.sessions.session? number = some session' → session'.stage = .stopped) : later.Shown where
  registered number session' found' hne := by
    obtain ⟨session, found, ha, -⟩ := before number session' found'
    have hlisted := h.registered number session found fun hs => hne (ha.stopped hs)
    rw [ha.id]
    exact (numbers session.id number hlisted).resolve_right fun hs => hne (hs session' found')
  once := by
    rw [servers]
    exact h.once
  fits id status hg := by
    rw [servers] at hg
    obtain ⟨hid, number, session, found, rfl, hlanguage, hroot, hfits⟩ := h.fits id status hg
    obtain ⟨session', found', ha⟩ := advances number session found
    obtain ⟨old, hold, -, hstage⟩ := before number session' found'
    cases hold.symm.trans found
    exact ⟨hid, number, session', found', ha.id, hlanguage.trans ha.language.symm, hroot.trans ha.root.symm,
      hfits.later ha hstage⟩
  live number session' found' hlive hlatest := by
    obtain ⟨session, found, ha, hstage⟩ := before number session' found'
    rcases hstage with hstage | hending
    · rw [hstage] at hlive
      rw [servers, ha.id]
      exact h.live number session found hlive (advances.latest ha hlatest)
    · rw [hending] at hlive
      cases hlive

/-- The status of one session is put up, and the other sessions are as they were. -/
theorem Shown.putUp (h : account.Shown) (found : account.sessions.session? number = some session)
    (found' : sessions.session? number = some session') (ha : session.Advances session')
    (others : ∀ n, n ≠ number → sessions.session? n = account.sessions.session? n)
    (numbers : sessions.numbers = account.sessions.numbers) {state : RunState} (hs : state.Fits session'.stage) {status : ServerStatus}
    (hstatus : status = ⟨session.id, session.language, session.root, state, status.error⟩) :
    Shown { account with sessions, servers := account.servers.set session.id status } := by
  have hadvances : account.sessions.Advances sessions := by
    intro n other hn
    by_cases heq : n = number
    · subst heq
      cases found.symm.trans hn
      exact ⟨session', found', ha⟩
    · exact ⟨other, (others n heq).trans hn, .refl other⟩
  constructor
  case registered =>
    intro n other hn hne
    change sessions.numbers.get? other.id = some n
    rw [numbers]
    by_cases heq : n = number
    · subst heq
      cases found'.symm.trans hn
      rw [ha.id]
      exact h.registered n session found fun hs => hne (ha.stopped hs)
    · exact h.registered n other ((others n heq).symm.trans hn) hne
  case once => exact Entries.nodup_keys_set h.once _ _
  case fits =>
    intro id shown hg
    rw [Entries.get?_set] at hg
    split at hg
    · next hid =>
      cases hg
      rw [hstatus]
      exact ⟨hid, number, session', found', ha.id.trans hid, ha.language.symm, ha.root.symm, hs⟩
    · next hid =>
      obtain ⟨hsession, n, other, hn, rfl, hlanguage, hroot, hfits⟩ := h.fits id shown hg
      have hne : n ≠ number := by
        rintro rfl
        cases found.symm.trans hn
        exact hid rfl
      exact ⟨hsession, n, other, (others n hne).trans hn, rfl, hlanguage, hroot, hfits⟩
  case live =>
    intro n other hn hlive hlatest
    change ∃ status', (account.servers.set session.id status).get? other.id = some status'
    rw [Entries.get?_set]
    split
    · exact ⟨_, rfl⟩
    · next hid =>
      have hne : n ≠ number := by
        rintro rfl
        cases found'.symm.trans hn
        exact hid ha.id.symm
      have hn' : account.sessions.session? n = some other := (others n hne).symm.trans hn
      exact h.live n other hn' hlive (hadvances.latest (.refl other) hlatest)

/-- Before the status of a session that is added is put up, one may be taken down: it is that of an earlier session for
the same language and root. -/
theorem Shown.servers_enrol (h : account.Shown) (session : Session) :
    ∃ servers : Entries String ServerStatus,
      (account.enrol session).servers =
        servers.set session.id ⟨session.id, session.language, session.root, .starting, none⟩ ∧
      servers.keys.Nodup ∧
      (∀ id status, servers.get? id = some status → account.servers.get? id = some status) ∧
      ∀ id status, account.servers.get? id = some status → servers.get? id = some status ∨
        status.language = session.language ∧ status.root = session.root := by
  refine ⟨_, rfl, ?_⟩
  split
  · next stale hstale =>
    have hmatch := List.find?_some hstale
    simp only [Bool.and_eq_true, beq_iff_eq] at hmatch
    refine ⟨Entries.nodup_keys_erase h.once _, fun id status hg => ?_, fun id status hg => ?_⟩
    · rw [Entries.get?_erase] at hg
      split at hg
      · cases hg
      · exact hg
    · rw [Entries.get?_erase]
      split
      · next hid =>
        -- A status is found at the identifier of its session only.
        obtain ⟨⟨key, value⟩, hm, rfl⟩ := List.mem_map.1 (List.mem_of_find?_eq_some hstale)
        have hstored := Entries.get?_of_mem h.once hm
        have hkey : value.session = key := (h.fits key value hstored).1
        rw [← hkey, hid] at hstored
        cases hstored.symm.trans hg
        exact Or.inr hmatch
      · exact Or.inl hg
  · exact ⟨h.once, fun _ _ hg => hg, fun _ _ hg => Or.inl hg⟩

/-- A session is added: its status takes the place of one for the same language and root. -/
theorem Shown.enrol (h : account.Shown) (begins : session.stage = .initializing)
    (distinct : (account.sessions.add session).Distinct) : (account.enrol session).Shown := by
  have hadvances := account.sessions.advances_add session
  have hnew := account.sessions.session?_added session
  obtain ⟨servers, hservers, honce, hkept, hold⟩ := h.servers_enrol session
  constructor
  case registered =>
    intro number other found hne
    change (account.sessions.numbers.set session.id account.sessions.sessions.length).get? other.id = some number
    rw [Entries.get?_set]
    split
    · next hid => exact congrArg some (distinct _ number session other hnew found hid)
    · next hid =>
      rcases SessionRegistry.session?_of_add found with ⟨-, rfl⟩ | found
      · exact absurd rfl hid
      · exact h.registered number other found hne
  case once =>
    rw [hservers]
    exact Entries.nodup_keys_set honce _ _
  case fits =>
    intro id status hg
    rw [hservers, Entries.get?_set] at hg
    split at hg
    · next hid =>
      cases hg
      exact ⟨hid, _, session, hnew, hid, rfl, rfl, Or.inl begins⟩
    · obtain ⟨hsession, number, other, found, hid, hrest⟩ := h.fits id status (hkept id status hg)
      have hlt := SessionRegistry.lt_length found
      refine ⟨hsession, number, other, ?_, hid, hrest⟩
      change (account.sessions.add session).session? number = some other
      rw [SessionRegistry.session?_add, if_neg (by omega)]
      exact found
  case live =>
    intro number other found hlive hlatest
    rw [hservers, Entries.get?_set]
    split
    · exact ⟨_, rfl⟩
    · next hid =>
      rcases SessionRegistry.session?_of_add found with ⟨-, rfl⟩ | found
      · exact absurd rfl hid
      · have hlt := SessionRegistry.lt_length found
        obtain ⟨status, hg⟩ := h.live number other found hlive (hadvances.latest (.refl other) hlatest)
        refine ⟨status, (hold other.id status hg).resolve_right ?_⟩
        rintro ⟨hlanguage, hroot⟩
        -- The session was the latest one for its language and root.
        obtain ⟨-, n, owner, hn, hid', hlanguage', hroot', -⟩ := h.fits other.id status hg
        have hsame : n = number :=
          hadvances.distinct distinct n number owner other hn found hid'
        subst hsame
        cases found.symm.trans hn
        have hle := hlatest _ session hnew (Prod.ext (hlanguage.symm.trans hlanguage') (hroot.symm.trans hroot'))
        omega

/-- A session is ready, and is shown as running. -/
theorem Shown.ready (h : account.Shown) (found : account.sessions.session? number = some session)
    (begins : session.stage = .initializing) : ((account.reach number .ready).display session .running none).Shown := by
  have found' : (account.reach number .ready).sessions.session? number = some { session with stage := .ready } := by
    rw [Account.reach, SessionRegistry.session?_modify, if_pos rfl, found]
    rfl
  have hrank : session.stage.rank ≤ SessionStage.ready.rank := by
    rw [begins]
    decide
  have hfits : RunState.running.Fits .ready := Or.inl rfl
  refine h.putUp found found' ⟨rfl, rfl, rfl, hrank⟩ (fun n hn => ?_) rfl hfits rfl
  rw [Account.reach, SessionRegistry.session?_modify, if_neg (Ne.symm hn)]

/-- A session comes to its end, or has stopped: the stages of the others are what they were. -/
theorem before_ending {stage : SessionStage} (found : account.sessions.session? number = some session)
    (hending : stage.isEnding = true) (hrank : session.stage.rank ≤ stage.rank) {other : Nat} {after : Session}
    (found' : (account.reach number stage).sessions.session? other = some after) :
    ∃ before, account.sessions.session? other = some before ∧ before.Advances after ∧
      (after.stage = before.stage ∨ after.stage.isEnding = true) := by
  rcases session?_reach found found' with ⟨rfl, rfl⟩ | ⟨-, found'⟩
  · exact ⟨session, found, ⟨rfl, rfl, rfl, hrank⟩, Or.inr hending⟩
  · exact ⟨after, found', .refl after, Or.inl rfl⟩

/-- A session is taken out, and has stopped. -/
theorem Shown.drop (h : account.Shown) (named : account.sessions.Named) (distinct : account.sessions.Distinct)
    (found : account.sessions.session? number = some session) :
    ({ account with sessions := account.sessions.remove session.id }.reach number .stopped).Shown := by
  let removed : Account := { account with sessions := account.sessions.remove session.id }
  have hremoves := account.sessions.advances_remove session.id
  obtain ⟨taken, htaken, -⟩ := hremoves number session found
  have found' : removed.sessions.session? number = some taken := htaken
  have hrank := taken.stage.rank_le_stopped
  refine h.unchanged rfl (hremoves.trans (advances_reach found' hrank)) (fun n after hafter => ?_) fun id n hn => ?_
  · obtain ⟨middle, hmiddle, ha, hstage⟩ := before_ending found' rfl hrank hafter
    obtain ⟨before, hbefore, hb, hsame⟩ := SessionRegistry.stage_of_remove hmiddle
    exact ⟨before, hbefore, hb.trans ha, hsame ▸ hstage⟩
  · change (account.sessions.remove session.id).number? id = some n ∨ _
    rw [SessionRegistry.number?_remove]
    split
    · next hid =>
      -- The identifier is that of the session that has stopped.
      obtain ⟨owner, howner, hid'⟩ := named id n (Entries.mem_of_get? hn)
      have hsame : n = number := distinct n number owner session howner found (hid'.trans hid.symm)
      subst hsame
      refine Or.inr fun after hafter => ?_
      rcases session?_reach found' hafter with ⟨-, rfl⟩ | ⟨hne, -⟩
      · rfl
      · exact absurd rfl hne
    · exact Or.inl hn

/-- The status of a session that has stopped is put up. -/
theorem Shown.display (h : account.Shown) {stopped : Session} (found : account.sessions.session? number = some stopped)
    (same : session.Advances stopped) (stage : stopped.stage = .stopped) {state : RunState} {error : Option String}
    (ended : state = .stopped ∨ state = .error) : (account.display session state error).Shown := by
  have hfits : state.Fits stopped.stage := by
    rcases ended with rfl | rfl <;> exact stage
  have hstatus : (⟨session.id, session.language, session.root, state, error⟩ : ServerStatus) =
      ⟨stopped.id, stopped.language, stopped.root, state, error⟩ := by
    rw [same.id, same.language, same.root]
  have hput := h.putUp found found (.refl stopped) (fun _ _ => rfl) rfl hfits hstatus
  rw [same.id] at hput
  exact hput

end Shown

end Account

/-! ## What deeds leave shown -/

section Deeds

variable {role : Role} {account later : Account}

/-- **After a deed, what is shown about servers fits the sessions again.** -/
theorem Deed.shown (d : Deed role account later) (h : account.Coherent) (distinct : later.sessions.Distinct)
    (hs : account.Shown) : later.Shown := by
  have hadvances := (d.since h).sessions
  have hsame : ∀ number session', account.sessions.session? number = some session' →
      ∃ session, account.sessions.session? number = some session ∧ session.Advances session' ∧
        (session'.stage = session.stage ∨ session'.stage.isEnding = true) :=
    fun number session found => ⟨session, found, .refl session, Or.inl rfl⟩
  have hlisted : ∀ id number, account.sessions.number? id = some number → account.sessions.number? id = some number ∨
      ∀ session', account.sessions.session? number = some session' → session'.stage = .stopped :=
    fun id number hn => Or.inl hn
  cases d with
  | pending _ => exact hs.unchanged rfl hadvances hsame hlisted
  | call _ _ => exact hs.unchanged rfl hadvances hsame hlisted
  | goOn _ => exact hs.unchanged rfl hadvances hsame hlisted
  | hand _ _ => exact hs.unchanged rfl hadvances hsame hlisted
  | greet _ _ _ _ begins _ _ | enrol _ begins _ _ =>
    have henrol := hs.enrol begins distinct
    exact henrol.unchanged rfl (.refl _) (fun n session found => ⟨session, found, .refl session, Or.inl rfl⟩)
      fun id n hn => Or.inl hn
  | @change number f same =>
    refine hs.unchanged rfl hadvances (fun n session' found' => ?_) fun id n hn => Or.inl hn
    obtain ⟨session, found, ha, hstage⟩ := SessionRegistry.stage_of_modify same found'
    exact ⟨session, found, ha, Or.inl hstage⟩
  | ready found begins greets greeted => exact hs.ready found begins
  | shut found live ends =>
    have hrank := Nat.le_of_lt (SessionStage.rank_lt_of_live live)
    exact hs.unchanged rfl hadvances (fun _ _ => Account.before_ending found rfl hrank) fun id n hn => Or.inl hn
  | drop found called => exact hs.drop h.named (hadvances.distinct distinct) found
  | display state error found same stage ended => exact hs.display found same stage ended

/-- Deeds leave what is shown fitting, if all sessions have identifiers of their own in the end. -/
theorem Deeds.shown (d : Deeds role account later) (h : account.Coherent) (distinct : later.sessions.Distinct)
    (hs : account.sessions.Distinct → account.Shown) : later.Shown := by
  induction d with
  | refl => exact hs distinct
  | @tail middle later d last ih =>
    have hc : middle.Coherent := (Deeds.since_coherent d h).2
    have hmiddle : middle.sessions.Distinct := (last.since hc).sessions.distinct distinct
    exact last.shown hc distinct (ih hmiddle)

end Deeds

end LanguageSessions
