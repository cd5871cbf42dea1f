import LanguageSessions.Proofs.Client.Statuses

/-!
# Sessions that are left alone

Whoever is not in charge of a session leaves it alone (`Account.Leaves`): it stays at its stage and registered or not as
it was, nobody has its process stopped, and what is shown of its server stays, unless a newer session for the same
language and root takes the place. So it is with every deed (`Deed.leaves`) and hence with all that somebody does
(`Deeds.leaves`), as long as all sessions have identifiers of their own.
-/

namespace LanguageSessions

open SessionRegistry

/-- The session whose process a call is to stop, if it is such a call. -/
def LayerCall.stop? : LayerCall → Option String
  | .stop session => some session
  | _ => none

theorem LayerCall.stop?_eq_some_iff {call : LayerCall} {id : String} : call.stop? = some id ↔ call = .stop id := by
  cases call <;> simp [stop?]

namespace Account

/-- The sessions whose processes were to be stopped, one for each call. -/
def stopped (account : Account) : List String := account.calls.filterMap LayerCall.stop?

/-- What somebody who acts leaves of a session that it is not in charge of. -/
structure Leaves (number : Nat) (session : Session) (before after : Account) : Prop where
  stage : ∃ later, after.sessions.session? number = some later ∧ session.Advances later ∧ later.stage = session.stage
  listed : after.sessions.number? session.id = before.sessions.number? session.id
  stopped : after.stopped.count session.id = before.stopped.count session.id
  shown : after.sessions.Latest number session → after.servers.get? session.id = before.servers.get? session.id

variable {number : Nat} {session : Session} {account later : Account}

/-- Nothing happens to the sessions and to what is shown of their servers, and the process of this one is not stopped. -/
theorem leaves_of_eq (found : account.sessions.session? number = some session)
    (sessions : later.sessions = account.sessions) (servers : later.servers = account.servers)
    (stopped : later.stopped.count session.id = account.stopped.count session.id) :
    Leaves number session account later where
  stage := ⟨session, sessions ▸ found, .refl session, rfl⟩
  listed := by rw [sessions]
  stopped := stopped
  shown _ := by rw [servers]

/-- A call that is not to stop the process of the session is one more. -/
theorem count_stopped_concat {call : LayerCall} {id : String} (h : call ≠ .stop id) {calls : List LayerCall} :
    ((calls ++ [call]).filterMap LayerCall.stop?).count id = (calls.filterMap LayerCall.stop?).count id := by
  rw [List.filterMap_append, List.count_append, Nat.add_eq_left]
  refine List.count_eq_zero.2 fun hm => h ?_
  obtain ⟨_, hcall, hid⟩ := List.mem_filterMap.1 hm
  cases List.mem_singleton.1 hcall
  exact LayerCall.stop?_eq_some_iff.1 hid

theorem Leaves.handOver (h : Leaves number session account later) (letter : Letter) (reply : Reply Unit) :
    Leaves number session account (later.handOver letter reply) := by
  have hcall : letter.call ≠ .stop session.id := nofun
  exact ⟨h.stage, h.listed, (count_stopped_concat hcall).trans h.stopped, h.shown⟩

/-- Another session comes to a stage. -/
theorem leaves_reach (found : account.sessions.session? number = some session) {other : Nat} (hn : other ≠ number)
    (stage : SessionStage) : Leaves number session account (account.reach other stage) where
  stage := ⟨session, by rw [reach, session?_modify, if_neg hn, found], .refl session, rfl⟩
  listed := rfl
  stopped := rfl
  shown _ := rfl

/-- The status of another session's server is shown. -/
theorem Leaves.display (h : Leaves number session account later) {other : Session} (hid : other.id ≠ session.id)
    (state : RunState) (error : Option String) : Leaves number session account (later.display other state error) where
  stage := h.stage
  listed := h.listed
  stopped := h.stopped
  shown hlatest := by
    change (later.servers.set other.id _).get? session.id = _
    rw [Entries.get?_set, if_neg hid]
    exact h.shown hlatest

/-- Another session is added. -/
theorem leaves_enrol (h : account.Shown) (distinct : account.sessions.Distinct)
    (found : account.sessions.session? number = some session) {added : Session} (hid : added.id ≠ session.id) :
    Leaves number session account (account.enrol added) where
  stage := by
    refine ⟨session, ?_, .refl session, rfl⟩
    change (account.sessions.add added).session? number = some session
    rw [session?_add, if_neg (Nat.ne_of_lt (lt_length found))]
    exact found
  listed := by
    change (account.sessions.numbers.set added.id _).get? session.id = _
    rw [Entries.get?_set, if_neg hid]
    rfl
  stopped := rfl
  shown hlatest := by
    obtain ⟨servers, hservers, -, hkept, hold⟩ := h.servers_enrol added
    rw [hservers, Entries.get?_set, if_neg hid]
    cases hbefore : account.servers.get? session.id with
    | none =>
      cases hafter : servers.get? session.id with
      | none => rfl
      | some status => exact hbefore.symm.trans (hkept _ _ hafter) ▸ rfl
    | some status =>
      refine (hold session.id status hbefore).resolve_right ?_
      rintro ⟨hlanguage, hroot⟩
      -- The session that is added would be a newer one for the same language and root.
      obtain ⟨-, owner, other, hother, hid', hlanguage', hroot', -⟩ := h.fits session.id status hbefore
      cases distinct owner number other session hother found hid'
      cases hother.symm.trans found
      have hnew := account.sessions.session?_added added
      have hkey : added.key = session.key := Prod.ext (hlanguage.symm.trans hlanguage') (hroot.symm.trans hroot')
      exact absurd (lt_length found) (Nat.not_lt_of_le (hlatest _ added hnew hkey))

theorem stage_drop (found : account.sessions.session? number = some session) {other : Nat} (hn : other ≠ number)
    (id : String) :
    ∃ later, ({ account with sessions := account.sessions.remove id }.reach other .stopped).sessions.session? number =
      some later ∧ session.Advances later ∧ later.stage = session.stage := by
  obtain ⟨later, hlater, advances⟩ := account.sessions.advances_remove id number session found
  obtain ⟨before, hbefore, -, hstage⟩ := stage_of_remove hlater
  cases found.symm.trans hbefore
  refine ⟨later, ?_, advances, hstage⟩
  rw [reach, session?_modify, if_neg hn, hlater]

/-- Another session is taken out, and has stopped. -/
theorem leaves_drop (found : account.sessions.session? number = some session) {other : Nat} {dropped : Session}
    (hn : other ≠ number) (hid : dropped.id ≠ session.id) :
    Leaves number session account
      ({ account with sessions := account.sessions.remove dropped.id }.reach other .stopped) where
  stage := stage_drop found hn dropped.id
  listed := by
    change (account.sessions.remove dropped.id).number? session.id = _
    rw [number?_remove, if_neg hid]
  stopped := rfl
  shown _ := rfl

end Account

open Account

section Deeds

variable {role : Role} {account later : Account} {number : Nat} {session : Session}

/-- **A deed leaves a session alone** that the role is not in charge of. -/
theorem Deed.leaves (d : Deed role account later) (h : account.Coherent) (shown : account.Shown)
    (distinct : later.sessions.Distinct) (found : account.sessions.session? number = some session)
    (minds : ¬ role.Minds number) (aborts : ¬ role.aborts session.id) : Leaves number session account later := by
  have hdistinct := (d.since h).sessions.distinct distinct
  -- Whom the role is in charge of has another number, and so another identifier.
  have hothers : ∀ n other, account.sessions.session? n = some other → role.Minds n →
      n ≠ number ∧ other.id ≠ session.id := by
    intro n other hother hminds
    have hn : n ≠ number := fun heq => minds (heq ▸ hminds)
    exact ⟨hn, fun hid => hn (hdistinct n number other session hother found hid)⟩
  cases d with
  | pending _ => exact leaves_of_eq found rfl rfl rfl
  | goOn _ => exact leaves_of_eq found rfl rfl rfl
  | call exchange _ stops =>
    refine leaves_of_eq found rfl rfl (count_stopped_concat fun hcall => ?_)
    rcases stops session.id hcall with haborts | ⟨n, other, hother, hid, hminds⟩
    · exact aborts haborts
    · exact (hothers n other hother hminds).2 hid
  | hand reply _ => exact (leaves_of_eq found rfl rfl rfl).handOver _ reply
  | @greet added pending _ _ reply _ _ _ _ =>
    obtain ⟨stage, listed, stops, status⟩ := leaves_enrol shown hdistinct found (distinct.id_ne_of_add found)
    have hentered : Leaves number session account { account.enrol added with pending } := ⟨stage, listed, stops, status⟩
    exact hentered.handOver _ reply
  | enrol _ _ _ _ =>
    obtain ⟨stage, listed, stops, status⟩ := leaves_enrol shown hdistinct found (distinct.id_ne_of_add found)
    exact ⟨stage, listed, stops, status⟩
  | @change n f same =>
    refine ⟨?_, rfl, rfl, fun _ => rfl⟩
    change ∃ later, (account.sessions.modify n f).session? number = some later ∧ _
    rw [session?_modify, found]
    split
    · exact ⟨_, rfl, same session⟩
    · exact ⟨session, rfl, .refl session, rfl⟩
  | ready hready _ greets _ =>
    obtain ⟨hn, hid⟩ := hothers _ _ hready (Or.inl greets)
    exact (leaves_reach found hn .ready).display hid .running none
  | shut hshut _ ends => exact leaves_reach found (hothers _ _ hshut (Or.inr ends)).1 .shuttingDown
  | drop hdropped _ minds =>
    obtain ⟨hn, hid⟩ := hothers _ _ hdropped minds
    exact leaves_drop found hn hid
  | display state error hstopped same _ _ minds =>
    obtain ⟨-, hid⟩ := hothers _ _ hstopped minds
    exact (leaves_of_eq found rfl rfl rfl).display (same.id ▸ hid) state error

/-- **Whoever is not in charge of a session leaves it alone.** -/
theorem Deeds.leaves (d : Deeds role account later) (h : account.Coherent)
    (shown : account.sessions.Distinct → account.Shown) (distinct : later.sessions.Distinct)
    (found : account.sessions.session? number = some session) (minds : ¬ role.Minds number)
    (aborts : ¬ role.aborts session.id) : Leaves number session account later := by
  induction d with
  | refl => exact leaves_of_eq found rfl rfl rfl
  | @tail middle later d last ih =>
    have hc : middle.Coherent := (Deeds.since_coherent d h).2
    have hadvances := (last.since hc).sessions
    have hdistinct := hadvances.distinct distinct
    obtain ⟨⟨current, hcurrent, advances, hstage⟩, hlisted, hstops, hshown⟩ := ih hdistinct
    have hlast := last.leaves hc (Deeds.shown d h hdistinct shown) distinct hcurrent minds (advances.id.symm ▸ aborts)
    obtain ⟨⟨final, hfinal, advances', hstage'⟩, hlisted', hstops', hshown'⟩ := hlast
    rw [advances.id] at hlisted' hstops' hshown'
    refine ⟨⟨final, hfinal, advances.trans advances', hstage'.trans hstage⟩, hlisted'.trans hlisted,
      hstops'.trans hstops, fun hlatest => (hshown' fun n other hother hkey => ?_).trans (hshown ?_)⟩
    · exact hlatest n other hother (hkey.trans advances.key)
    · exact hadvances.latest (.refl session) hlatest

/-- **A session stays at its stage** while those act who are not in charge of it, whatever identifiers others have. -/
theorem Deed.stage (d : Deed role account later) (found : account.sessions.session? number = some session)
    (minds : ¬ role.Minds number) :
    ∃ current, later.sessions.session? number = some current ∧ session.Advances current ∧
      current.stage = session.stage := by
  have hsame : ∀ after : SessionRegistry, after = account.sessions → ∃ current, after.session? number = some current ∧
      session.Advances current ∧ current.stage = session.stage :=
    fun after heq => ⟨session, heq ▸ found, .refl session, rfl⟩
  have hreach : ∀ n stage, role.Minds n → ∃ current, (account.reach n stage).sessions.session? number = some current ∧
      session.Advances current ∧ current.stage = session.stage :=
    fun n stage hminds => (leaves_reach found (fun heq => minds (heq ▸ hminds)) stage).stage
  cases d with
  | pending _ | goOn _ | call _ _ _ | hand _ _ | display _ _ _ _ _ _ _ => exact hsame _ rfl
  | @greet added _ _ _ _ _ _ _ _ | @enrol added _ _ _ _ _ =>
    refine ⟨session, ?_, .refl session, rfl⟩
    change (account.sessions.add added).session? number = some session
    rw [session?_add, if_neg (Nat.ne_of_lt (lt_length found))]
    exact found
  | @change n f same =>
    change ∃ current, (account.sessions.modify n f).session? number = some current ∧ _
    rw [session?_modify, found]
    split
    · exact ⟨_, rfl, same session⟩
    · exact ⟨session, rfl, .refl session, rfl⟩
  | ready _ _ greets _ => exact hreach _ _ (Or.inl greets)
  | shut _ _ ends => exact hreach _ _ (Or.inr ends)
  | drop _ _ dropping => exact stage_drop found (fun heq => minds (heq ▸ dropping)) _

theorem Deeds.stage (d : Deeds role account later) (found : account.sessions.session? number = some session)
    (minds : ¬ role.Minds number) :
    ∃ current, later.sessions.session? number = some current ∧ session.Advances current ∧
      current.stage = session.stage := by
  induction d with
  | refl => exact ⟨session, found, .refl session, rfl⟩
  | tail _ last ih =>
    obtain ⟨middle, hmiddle, advances, hstage⟩ := ih
    obtain ⟨current, hcurrent, advances', hstage'⟩ := last.stage hmiddle minds
    exact ⟨current, hcurrent, advances.trans advances', hstage'.trans hstage⟩

/-! ## Sessions whose processes are stopped -/

/-- A deed has a process stopped only for a session that is there, or as the role is free to do. -/
theorem Deed.stopped (d : Deed role account later) :
    ∀ id ∈ later.stopped, id ∈ account.stopped ∨ account.MayStop role id := by
  intro id hm
  cases d with
  | call exchange _ stops =>
    change id ∈ (account.calls ++ [exchange.call]).filterMap LayerCall.stop? at hm
    rw [List.filterMap_append, List.mem_append] at hm
    refine hm.imp_right fun hm => stops id ?_
    obtain ⟨_, hcall, hid⟩ := List.mem_filterMap.1 hm
    cases List.mem_singleton.1 hcall
    exact LayerCall.stop?_eq_some_iff.1 hid
  | @hand letter reply permits =>
    refine Or.inl ?_
    change id ∈ (account.calls ++ [letter.call]).filterMap LayerCall.stop? at hm
    rw [List.filterMap_append, List.mem_append] at hm
    exact hm.resolve_right List.not_mem_nil
  | greet _ _ _ _ _ _ _ =>
    refine Or.inl ?_
    change id ∈ (account.calls ++ [Letter.call _]).filterMap LayerCall.stop? at hm
    rw [List.filterMap_append, List.mem_append] at hm
    exact hm.resolve_right List.not_mem_nil
  | _ => exact Or.inl hm

/-- Whoever is in charge of no session and aborts nothing has no process stopped. -/
theorem Deed.stopped_eq (d : Deed role account later) (minds : ∀ n, ¬ role.Minds n) (aborts : ∀ id, ¬ role.aborts id) :
    later.stopped = account.stopped := by
  have hcalls : ∀ call : LayerCall, call.stop? = none →
      (account.calls ++ [call]).filterMap LayerCall.stop? = account.stopped := by
    intro call hnone
    rw [List.filterMap_append, List.filterMap_cons_none hnone]
    exact List.append_nil _
  cases d with
  | call exchange _ stops =>
    refine hcalls exchange.call (Option.eq_none_iff_forall_ne_some.2 fun id hid => ?_)
    rcases stops id (LayerCall.stop?_eq_some_iff.1 hid) with haborts | ⟨n, _, _, _, hminds⟩
    · exact aborts id haborts
    · exact minds n hminds
  | hand _ _ => exact hcalls _ rfl
  | greet _ _ _ _ _ _ _ => exact hcalls _ rfl
  | _ => rfl

theorem Deeds.stopped_eq (d : Deeds role account later) (minds : ∀ n, ¬ role.Minds n)
    (aborts : ∀ id, ¬ role.aborts id) : later.stopped = account.stopped := by
  induction d with
  | refl => rfl
  | tail _ last ih => exact (last.stopped_eq minds aborts).trans ih

/-- **Whoever aborts nothing has only the processes of sessions stopped that are there.** -/
theorem Deeds.stopped_has_session (d : Deeds role account later) (h : account.Coherent) (aborts : ∀ id, ¬ role.aborts id)
    (stopped : ∀ id ∈ account.stopped, ∃ number session, account.sessions.session? number = some session ∧
      session.id = id) :
    ∀ id ∈ later.stopped, ∃ number session, later.sessions.session? number = some session ∧ session.id = id := by
  induction d with
  | refl => exact stopped
  | @tail middle later d last ih =>
    intro id hm
    have hadvances := (last.since (Deeds.since_coherent d h).2).sessions
    have hthere : ∃ number session, middle.sessions.session? number = some session ∧ session.id = id := by
      rcases last.stopped id hm with hm | haborts | ⟨number, session, found, hid, -⟩
      · exact ih id hm
      · exact absurd haborts (aborts id)
      · exact ⟨number, session, found, hid⟩
    obtain ⟨number, session, found, hid⟩ := hthere
    obtain ⟨current, hcurrent, advances⟩ := hadvances number session found
    exact ⟨number, current, hcurrent, advances.id.trans hid⟩

end Deeds

end LanguageSessions
