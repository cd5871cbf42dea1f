import LanguageSessions.Proofs.Client.Letters
import LanguageSessions.Proofs.Entries.Totals
import LanguageSessions.Proofs.Pending.Moves

/-!
# Deeds

Whatever a client does to its sessions and says to their servers is a chain of deeds (`Deeds`), each of which says under
what conditions it is done. Whoever does it acts in a role: it carries out the handshakes of some sessions and the ends
of some, and writes letters for somebody.

All deeds leave a coherent account behind (`Deeds.coherent`), in which the dispatches of every session are in order, a
ready session was greeted, and none that is registered has stopped. What is said `Since` an earlier account is what lasts
through deeds of a role: sessions advance, promises keep their outcomes, letters stay, and of the sessions that the role
is not in charge of no other is told that it is set up, or to exit (`Deeds.since`).
-/

namespace LanguageSessions

/-! ## Sessions that advance -/

/-- The place of a stage in the course of a session. -/
def SessionStage.rank : SessionStage → Nat
  | .starting => 0
  | .initializing => 1
  | .ready => 2
  | .shuttingDown => 3
  | .stopped => 4

theorem SessionStage.isEnding_iff {stage : SessionStage} : stage.isEnding = true ↔ 3 ≤ stage.rank := by
  cases stage <;> simp [isEnding, rank]

theorem SessionStage.rank_lt_of_live {stage : SessionStage} (h : stage.isEnding = false) :
    stage.rank < SessionStage.shuttingDown.rank := by
  cases stage <;> first | decide | cases h

theorem SessionStage.rank_le_stopped (stage : SessionStage) : stage.rank ≤ SessionStage.stopped.rank := by
  cases stage <;> decide

/-- A session as it may be later on. -/
structure Session.Advances (before after : Session) : Prop where
  id : after.id = before.id
  language : after.language = before.language
  root : after.root = before.root
  stage : before.stage.rank ≤ after.stage.rank

theorem Session.Advances.refl (session : Session) : session.Advances session := ⟨rfl, rfl, rfl, Nat.le_refl _⟩

theorem Session.Advances.trans {first second third : Session} (h : first.Advances second) (h' : second.Advances third) :
    first.Advances third :=
  ⟨h'.id.trans h.id, h'.language.trans h.language, h'.root.trans h.root, Nat.le_trans h.stage h'.stage⟩

theorem Session.Advances.isEnding {before after : Session} (h : before.Advances after)
    (he : before.stage.isEnding = true) : after.stage.isEnding = true := by
  have hstage := h.stage
  rw [SessionStage.isEnding_iff] at he ⊢
  omega

theorem Session.Advances.begun {before after : Session} (h : before.Advances after) (hb : before.stage ≠ .starting) :
    after.stage ≠ .starting := by
  intro ha
  have hstage := h.stage
  rw [ha] at hstage
  cases hs : before.stage <;> simp_all [SessionStage.rank]

theorem Session.Advances.stopped {before after : Session} (h : before.Advances after)
    (hs : before.stage = .stopped) : after.stage = .stopped := by
  have hstage := h.stage
  rw [hs] at hstage
  cases ha : after.stage <;> simp_all [SessionStage.rank]

namespace SessionRegistry

/-- The sessions are there still, and have advanced. -/
def Advances (before after : SessionRegistry) : Prop :=
  ∀ number session, before.session? number = some session →
    ∃ later, after.session? number = some later ∧ session.Advances later

section Advancing

variable {registry first second third : SessionRegistry} {number : Nat} {session added : Session}

theorem Advances.refl (registry : SessionRegistry) : registry.Advances registry :=
  fun _ session h => ⟨session, h, .refl session⟩

theorem Advances.trans (h : first.Advances second) (h' : second.Advances third) : first.Advances third := by
  intro number session hs
  obtain ⟨later, hl, ha⟩ := h number session hs
  obtain ⟨last, hlast, ha'⟩ := h' number later hl
  exact ⟨last, hlast, ha.trans ha'⟩

/-- A session that is changed advances. -/
theorem advances_modify (hs : registry.session? number = some session) {f : Session → Session}
    (hf : session.Advances (f session)) : registry.Advances (registry.modify number f) := by
  intro other found hfound
  rw [session?_modify, hfound]
  split
  · next ho =>
    subst ho
    cases hs.symm.trans hfound
    exact ⟨_, rfl, hf⟩
  · exact ⟨found, rfl, .refl found⟩

theorem advances_remove (registry : SessionRegistry) (id : String) : registry.Advances (registry.remove id) := by
  intro number session hs
  unfold remove
  split
  · exact ⟨session, hs, .refl session⟩
  · next other _ =>
    change ∃ later, (registry.modify other Session.closeAll).session? number = some later ∧ session.Advances later
    rw [session?_modify, hs]
    split
    · exact ⟨_, rfl, rfl, rfl, rfl, Nat.le_refl _⟩
    · exact ⟨session, rfl, .refl session⟩

/-- A session had its stage before what the sessions remember changed. -/
theorem stage_of_modify {f : Session → Session}
    (same : ∀ session : Session, session.Advances (f session) ∧ (f session).stage = session.stage) {other : Nat}
    {after : Session} (hs : (registry.modify number f).session? other = some after) :
    ∃ before, registry.session? other = some before ∧ before.Advances after ∧ after.stage = before.stage := by
  rw [session?_modify] at hs
  split at hs
  · obtain ⟨before, hbefore, rfl⟩ := Option.map_eq_some_iff.1 hs
    exact ⟨before, hbefore, same before⟩
  · exact ⟨after, hs, .refl after, rfl⟩

/-- A session keeps its stage when one is taken out. -/
theorem stage_of_remove {id : String} (hs : (registry.remove id).session? number = some session) :
    ∃ before, registry.session? number = some before ∧ before.Advances session ∧ session.stage = before.stage := by
  unfold remove at hs
  split at hs
  · exact ⟨session, hs, .refl session, rfl⟩
  · next other _ =>
    have hsame : ∀ session : Session, session.Advances session.closeAll ∧ session.closeAll.stage = session.stage :=
      fun session => ⟨⟨rfl, rfl, rfl, Nat.le_refl _⟩, rfl⟩
    exact stage_of_modify hsame hs

theorem not_mem_remove (registry : SessionRegistry) (id : String) (number : Nat) :
    (id, number) ∉ (registry.remove id).numbers := by
  unfold remove
  split
  · next hn =>
    intro hm
    exact Entries.get?_eq_none_iff.1 hn (Entries.mem_keys_of_mem hm)
  · intro hm
    exact (Entries.mem_erase.1 hm).2 rfl

theorem advances_add (registry : SessionRegistry) (session : Session) : registry.Advances (registry.add session) := by
  intro number found hfound
  have hlt := (List.getElem?_eq_some_iff.1 hfound).1
  rw [session?_add, if_neg (by omega)]
  exact ⟨found, hfound, .refl found⟩

/-- A session that is there after one was added is that one, or was there before. -/
theorem session?_of_add (hs : (registry.add added).session? number = some session) :
    number = registry.sessions.length ∧ session = added ∨ registry.session? number = some session := by
  rw [session?_add] at hs
  split at hs
  · next hn =>
    cases hs
    exact Or.inl ⟨hn, rfl⟩
  · exact Or.inr hs

theorem lt_length (hs : registry.session? number = some session) : number < registry.sessions.length :=
  (List.getElem?_eq_some_iff.1 hs).1

theorem Advances.length_le (h : first.Advances second) : first.sessions.length ≤ second.sessions.length := by
  by_contra hlt
  obtain ⟨later, hl, -⟩ := h second.sessions.length _ (List.getElem?_eq_getElem (by omega))
  exact Nat.lt_irrefl _ (lt_length hl)

/-- The registry later on: its sessions have advanced, and of those that were there none is registered anew. -/
structure Passes (before after : SessionRegistry) : Prop where
  advances : before.Advances after
  listed : ∀ entry ∈ after.numbers, entry ∈ before.numbers ∨ before.sessions.length ≤ entry.2

theorem Passes.refl (registry : SessionRegistry) : registry.Passes registry := ⟨.refl registry, fun _ => Or.inl⟩

theorem Passes.trans (h : first.Passes second) (h' : second.Passes third) : first.Passes third where
  advances := h.advances.trans h'.advances
  listed entry hm := by
    rcases h'.listed entry hm with hm | hle
    · exact h.listed entry hm
    · exact Or.inr (Nat.le_trans h.advances.length_le hle)

theorem nodup_remove (h : registry.numbers.keys.Nodup) (id : String) : (registry.remove id).numbers.keys.Nodup := by
  unfold remove
  split
  · exact h
  · exact Entries.nodup_keys_erase h id

/-- Where the sessions advance and none is registered anew, the registered ones keep their identifiers. -/
theorem Named.advances (h : first.Named) (ha : first.Advances second)
    (hn : ∀ entry ∈ second.numbers, entry ∈ first.numbers) : second.Named := by
  intro id number hm
  obtain ⟨session, hs, rfl⟩ := h id number (hn _ hm)
  obtain ⟨later, hl, hadvances⟩ := ha number session hs
  exact ⟨later, hl, hadvances.id⟩

theorem Named.id_of_number? (h : registry.Named) {id : String} (hn : registry.number? id = some number)
    (hs : registry.session? number = some session) : session.id = id :=
  (h.registered (Entries.mem_of_get? hn) hs).2

end Advancing

end SessionRegistry

/-! ## Roles -/

/-- What somebody who acts is in charge of. -/
structure Role where
  /-- The sessions whose handshake it carries out. -/
  greets : Nat → Prop
  /-- Whether it may open the handshake of a session that it adds, or leave it unopened, by the language. -/
  opens : String → Bool → Prop
  /-- The sessions that it ends. -/
  ends : Nat → Prop
  /-- The processes that it stops though no session was added for them, by identifier. -/
  aborts : String → Prop
  /-- The results that it brings to requests. -/
  answers : RequestId → Json → Prop
  /-- The letters that somebody asked it for. -/
  writes : Letter → Prop

/-- Somebody is in charge of the session with a number. -/
def Role.Minds (role : Role) (number : Nat) : Prop := role.greets number ∨ role.ends number

namespace Account

/-- Somebody may have the process of a session stopped, by its identifier. -/
def MayStop (role : Role) (account : Account) (id : String) : Prop :=
  role.aborts id ∨ ∃ number session, account.sessions.session? number = some session ∧ session.id = id ∧ role.Minds number

/-- The request that opens the handshake of a session got a result. -/
def Answered (account : Account) (number : Nat) : Prop :=
  ∃ id params, ∃ index : Nat, ∃ result, .opening id params ∈ account.dispatches number ∧
    account.pending.promises[index]? = some ⟨id, some (.ok result)⟩

theorem Answered.opened {account : Account} {number : Nat} (h : account.Answered number) :
    Dispatch.IsOpened (account.dispatches number) := by
  obtain ⟨id, params, -, -, hm, -⟩ := h
  exact ⟨id, params, hm⟩

theorem mem_dispatches_handOver {account : Account} {number : Nat} {dispatch : Dispatch}
    (hm : dispatch ∈ account.dispatches number) (letter : Letter) (reply : Reply Unit) :
    dispatch ∈ (account.handOver letter reply).dispatches number := by
  rw [dispatches_handOver]
  exact List.mem_append_left _ hm

theorem Answered.handOver {account : Account} {number : Nat} (h : account.Answered number) (letter : Letter)
    (reply : Reply Unit) : (account.handOver letter reply).Answered number := by
  obtain ⟨id, params, index, result, hm, hp⟩ := h
  exact ⟨id, params, index, result, mem_dispatches_handOver hm letter reply, hp⟩

/-- The server of a session answered, and was then told that the session is set up, which did not fail. -/
structure Greeted (account : Account) (number : Nat) (id : String) : Prop where
  answered : account.Answered number
  told : .initialized ∈ account.dispatches number
  delivered : account.Delivered (.own id number .initialized)

/-- A letter may be handed over now. -/
inductive Permits (role : Role) (account : Account) : Letter → Prop
  | initialized {number : Nat} {session : Session} (found : account.sessions.session? number = some session)
      (greets : role.greets number) (answered : account.Answered number)
      (first : .initialized ∉ account.dispatches number) : Permits role account (.own session.id number .initialized)
  | configuration {number : Nat} {session : Session} (settings : Members)
      (found : account.sessions.session? number = some session) (told : .initialized ∈ account.dispatches number) :
      Permits role account (.own session.id number (.configuration settings))
  | document {id : String} {number : Nat} {session : Session} (notice : DocumentNotice)
      (listed : account.sessions.number? id = some number) (found : account.sessions.session? number = some session)
      (ready : session.stage = .ready) : Permits role account (.own id number (.document notice))
  | query {id : String} {number : Nat} {request : RequestId} {method : String} {params : Json}
      (listed : account.sessions.number? id = some number)
      (writes : role.writes (.own id number (.query request method params))) :
      Permits role account (.own id number (.query request method params))
  | shutdown {number : Nat} {session : Session} (request : RequestId)
      (found : account.sessions.session? number = some session) (ending : session.stage.isEnding = true)
      (first : ¬ Dispatch.IsShutDown (account.dispatches number)) :
      Permits role account (.own session.id number (.shutdown request))
  | exit {number : Nat} {session : Session} (found : account.sessions.session? number = some session)
      (ends : role.ends number) (shut : Dispatch.IsShutDown (account.dispatches number))
      (first : .exit ∉ account.dispatches number) : Permits role account (.own session.id number .exit)
  | passed {id method : String} {params : Json} (writes : role.writes (.passed id method params)) :
      Permits role account (.passed id method params)

/-- A session is added, in place of what is shown of an earlier one for the same language and root. -/
def enrol (account : Account) (session : Session) : Account :=
  { account with
    sessions := account.sessions.add session
    servers :=
      (match account.servers.values.find? fun status : ServerStatus =>
          status.language == session.language && status.root == session.root with
        | some stale => account.servers.erase stale.session
        | none => account.servers).set session.id ⟨session.id, session.language, session.root, .starting, none⟩ }

/-- The session with a number comes to a stage. -/
def reach (account : Account) (number : Nat) (stage : SessionStage) : Account :=
  { account with sessions := account.sessions.modify number fun session => { session with stage } }

/-- The status of the server of a session is shown. -/
def display (account : Account) (session : Session) (state : RunState) (error : Option String) : Account :=
  { account with
    servers := account.servers.set session.id ⟨session.id, session.language, session.root, state, error⟩ }

end Account

/-! ## Deeds -/

/-- One thing that a client does, in a role. -/
inductive Deed (role : Role) : Account → Account → Prop
  | pending {account : Account} {pending : Pending} (moves : Pending.Moves role.answers account.pending pending) :
      Deed role account { account with pending }
  /-- The process layer is called, and not to hand something over. -/
  | call {account : Account} (exchange : Exchange) (silent : exchange.call.sent? = none)
      (stops : ∀ id, exchange.call = .stop id → account.MayStop role id) :
      Deed role account
        { account with calls := account.calls ++ [exchange.call], record := account.record ++ [exchange] }
  /-- A call of the process layer goes on. -/
  | goOn {account : Account} (exchange : Exchange) :
      Deed role account { account with record := account.record ++ [exchange] }
  | hand {account : Account} {letter : Letter} (reply : Reply Unit) (permits : account.Permits role letter) :
      Deed role account (account.handOver letter reply)
  /-- A session is added, and its handshake is opened. -/
  | greet {account : Account} {session : Session} {pending : Pending} (id : RequestId) (params : Json)
      (reply : Reply Unit) (greets : role.greets account.sessions.sessions.length)
      (begins : session.stage = .initializing) (opens : role.opens session.language true)
      (moves : Pending.Moves role.answers account.pending pending) :
      Deed role account
        ({ account.enrol session with pending }.handOver
          (.own session.id account.sessions.sessions.length (.opening id params)) reply)
  /-- A session is added whose handshake cannot be opened. -/
  | enrol {account : Account} {session : Session} {pending : Pending}
      (greets : role.greets account.sessions.sessions.length) (begins : session.stage = .initializing)
      (opens : role.opens session.language false) (moves : Pending.Moves role.answers account.pending pending) :
      Deed role account { account.enrol session with pending }
  /-- What a session remembers changes. -/
  | change {account : Account} {number : Nat} {f : Session → Session}
      (same : ∀ session : Session, session.Advances (f session) ∧ (f session).stage = session.stage) :
      Deed role account { account with sessions := account.sessions.modify number f }
  /-- A session that was greeted is ready. -/
  | ready {account : Account} {number : Nat} {session : Session}
      (found : account.sessions.session? number = some session) (begins : session.stage = .initializing)
      (greets : role.greets number) (greeted : account.Greeted number session.id) :
      Deed role account ((account.reach number .ready).display session .running none)
  /-- The end of a session begins. -/
  | shut {account : Account} {number : Nat} {session : Session}
      (found : account.sessions.session? number = some session) (live : session.stage.isEnding = false)
      (ends : role.ends number) : Deed role account (account.reach number .shuttingDown)
  /-- A session whose process was to be stopped is taken out, and has stopped. -/
  | drop {account : Account} {number : Nat} {session : Session}
      (found : account.sessions.session? number = some session) (called : .stop session.id ∈ account.calls)
      (minds : role.Minds number) :
      Deed role account ({ account with sessions := account.sessions.remove session.id }.reach number .stopped)
  /-- The status of the server of a session that has stopped is shown. -/
  | display {account : Account} {number : Nat} {session stopped : Session} (state : RunState) (error : Option String)
      (found : account.sessions.session? number = some stopped) (same : session.Advances stopped)
      (stage : stopped.stage = .stopped) (ended : state = .stopped ∨ state = .error) (minds : role.Minds number) :
      Deed role account (account.display session state error)

/-- Deeds one after the other. -/
def Deeds (role : Role) : Account → Account → Prop := Relation.ReflTransGen (Deed role)

/-! ## Coherent accounts -/

namespace Account

/-- What the sessions of an account, its pending requests and its letters have to do with each other. -/
structure Coherent (account : Account) : Prop where
  named : account.sessions.Named
  unique : account.sessions.numbers.keys.Nodup
  numbered : account.pending.Numbered
  sent : account.calls.filterMap LayerCall.sent? = account.letters.map fun letter => (letter.session, letter.text)
  owned : ∀ id number dispatch, .own id number dispatch ∈ account.letters →
    ∃ session, account.sessions.session? number = some session ∧ session.id = id
  begun : ∀ number session, account.sessions.session? number = some session → session.stage ≠ .starting
  inOrder : ∀ number, Dispatch.InOrder (account.dispatches number)
  told : ∀ number, .initialized ∈ account.dispatches number → account.Answered number
  greeted : ∀ number session, account.sessions.session? number = some session → session.stage = .ready →
    account.Greeted number session.id
  shut : ∀ number session, Dispatch.IsShutDown (account.dispatches number) →
    account.sessions.session? number = some session → session.stage.isEnding = true
  live : ∀ number session, account.sessions.Registered number session → session.stage ≠ .stopped

/-- What has happened since an earlier account, through deeds of a role. -/
structure Since (role : Role) (before after : Account) : Prop where
  sessions : before.sessions.Advances after.sessions
  pending : Pending.Moves role.answers before.pending after.pending
  calls : before.calls <+: after.calls
  record : before.record <+: after.record
  letters : before.letters <+: after.letters
  greeted : ∀ number, ¬ role.greets number → .initialized ∈ after.dispatches number →
    .initialized ∈ before.dispatches number
  ended : ∀ number, ¬ role.ends number → .exit ∈ after.dispatches number → .exit ∈ before.dispatches number
  written : ∀ letter ∈ after.letters, letter.IsWritten → letter ∈ before.letters ∨ role.writes letter

section Since

variable {role : Role} {first second third account later : Account} {number : Nat}

theorem Since.trans (h : Since role first second) (h' : Since role second third) : Since role first third where
  sessions := h.sessions.trans h'.sessions
  pending := h.pending.trans h'.pending
  calls := h.calls.trans h'.calls
  record := h.record.trans h'.record
  letters := h.letters.trans h'.letters
  greeted number hn hm := h.greeted number hn (h'.greeted number hn hm)
  ended number hn hm := h.ended number hn (h'.ended number hn hm)
  written letter hm hw := (h'.written letter hm hw).elim (fun hm => h.written letter hm hw) Or.inr

/-- Nothing is handed over. -/
theorem since_of_letters (sessions : account.sessions.Advances later.sessions)
    (pending : Pending.Moves role.answers account.pending later.pending) (calls : account.calls <+: later.calls)
    (record : account.record <+: later.record) (letters : later.letters = account.letters) :
    Since role account later where
  sessions := sessions
  pending := pending
  calls := calls
  record := record
  letters := by rw [letters]
  greeted number _ hm := by
    rw [dispatches, letters] at hm
    exact hm
  ended number _ hm := by
    rw [dispatches, letters] at hm
    exact hm
  written letter hm _ := Or.inl (letters ▸ hm)

theorem Since.refl (h : account.pending.Numbered) : Since role account account :=
  since_of_letters (.refl _) (.refl h) (List.prefix_refl _) (List.prefix_refl _) rfl

/-- A letter is handed over that the role may hand over. -/
theorem since_handOver (h : account.pending.Numbered) (letter : Letter) (reply : Reply Unit)
    (greets : ∀ number, letter.dispatch? number = some .initialized → role.greets number)
    (ends : ∀ number, letter.dispatch? number = some .exit → role.ends number)
    (writes : letter.IsWritten → role.writes letter) : Since role account (account.handOver letter reply) where
  sessions := .refl _
  pending := .refl h
  calls := List.prefix_append _ _
  record := List.prefix_append _ _
  letters := List.prefix_append _ _
  greeted number hn hm := by
    rw [dispatches_handOver] at hm
    rcases List.mem_append.1 hm with hm | hm
    · exact hm
    · exact absurd (greets number (Option.mem_toList.1 hm)) hn
  ended number hn hm := by
    rw [dispatches_handOver] at hm
    rcases List.mem_append.1 hm with hm | hm
    · exact hm
    · exact absurd (ends number (Option.mem_toList.1 hm)) hn
  written other hm hw := by
    rcases List.mem_append.1 hm with hm | hm
    · exact Or.inl hm
    · rw [List.mem_singleton.1 hm] at hw ⊢
      exact Or.inr (writes hw)

theorem Since.dispatches (h : Since role account later) (number : Nat) :
    account.dispatches number <+: later.dispatches number := h.letters.filterMap _

theorem Since.mem (h : Since role account later) {dispatch : Dispatch} (hm : dispatch ∈ account.dispatches number) :
    dispatch ∈ later.dispatches number := (h.dispatches number).subset hm

theorem Since.answered (h : Since role account later) (ha : account.Answered number) : later.Answered number := by
  obtain ⟨id, params, index, result, hm, hp⟩ := ha
  obtain ⟨promise, hl, hr, ho⟩ := h.pending.promise index _ hp
  have hpromise : promise = ⟨id, some (.ok result)⟩ := by
    cases promise
    simp only at hr ho
    rw [hr, ho rfl]
  exact ⟨id, params, index, result, h.mem hm, hpromise ▸ hl⟩

theorem Since.greetedStill (h : Since role account later) {id : String} (hg : account.Greeted number id) :
    later.Greeted number id := ⟨h.answered hg.answered, h.mem hg.told, h.record.subset hg.delivered⟩

/-- No letter is written and no session added: what is said of the letters still holds. -/
theorem Coherent.since (h : account.Coherent) (hs : Since role account later) (named : later.sessions.Named)
    (unique : later.sessions.numbers.keys.Nodup)
    (sent : later.calls.filterMap LayerCall.sent? = account.calls.filterMap LayerCall.sent?)
    (letters : later.letters = account.letters)
    (before : ∀ number session, later.sessions.session? number = some session →
      ∃ old, account.sessions.session? number = some old ∧ old.Advances session ∧
        (session.stage = .ready → old.stage = .ready ∨ account.Greeted number old.id))
    (live : ∀ number session, later.sessions.Registered number session → session.stage ≠ .stopped) :
    later.Coherent where
  named := named
  unique := unique
  numbered := hs.pending.numbered
  sent := by rw [sent, h.sent, letters]
  owned id number dispatch hm := by
    rw [letters] at hm
    obtain ⟨session, hfound, rfl⟩ := h.owned id number dispatch hm
    obtain ⟨session', hfound', ha⟩ := hs.sessions number session hfound
    exact ⟨session', hfound', ha.id⟩
  begun number session hfound := by
    obtain ⟨old, hold, ha, -⟩ := before number session hfound
    exact ha.begun (h.begun number old hold)
  inOrder number := by
    rw [Account.dispatches, letters]
    exact h.inOrder number
  told number hm := by
    rw [Account.dispatches, letters] at hm
    exact hs.answered (h.told number hm)
  greeted number session hfound hready := by
    obtain ⟨old, hold, ha, hg⟩ := before number session hfound
    rw [ha.id]
    rcases hg hready with hready | hg
    · exact hs.greetedStill (h.greeted number old hold hready)
    · exact hs.greetedStill hg
  shut number session hshut hfound := by
    obtain ⟨old, hold, ha, -⟩ := before number session hfound
    rw [Account.dispatches, letters] at hshut
    exact ha.isEnding (h.shut number old hshut hold)
  live := live

end Since

end Account

/-! ## What deeds do -/

section Deeds

open Account

variable {role : Role} {account later : Account} {letter : Letter}

/-- A letter that may be handed over follows those before it. -/
theorem Account.Permits.follows (h : account.Coherent) {id : String} {number : Nat} {dispatch : Dispatch}
    (hp : account.Permits role (.own id number dispatch)) : dispatch.Follows (account.dispatches number) := by
  cases hp with
  | initialized found greets answered first => exact ⟨answered.opened, first⟩
  | configuration settings found told => exact told
  | @document _ _ session notice listed found ready =>
    refine ⟨(h.greeted _ session found ready).told, fun hshut => ?_⟩
    have hending := h.shut _ session hshut found
    rw [ready] at hending
    cases hending
  | query listed writes => trivial
  | shutdown request found ending first => exact first
  | exit found ends shut first => exact ⟨shut, first⟩

/-- A letter that may be handed over is for a session with its identifier. -/
theorem Account.Permits.owned (h : account.Coherent) {id : String} {number : Nat} {dispatch : Dispatch}
    (hp : account.Permits role (.own id number dispatch)) :
    ∃ session, account.sessions.session? number = some session ∧ session.id = id := by
  cases hp with
  | initialized found _ _ _ | configuration _ found _ | shutdown _ found _ _ | exit found _ _ _ =>
    exact ⟨_, found, rfl⟩
  | document notice listed found ready => exact ⟨_, found, h.named.id_of_number? listed found⟩
  | query listed writes => exact h.named _ _ (Entries.mem_of_get? listed)

theorem Account.Permits.since (h : account.Coherent) (hp : account.Permits role letter) (reply : Reply Unit) :
    Since role account (account.handOver letter reply) := by
  refine since_handOver h.numbered letter reply (fun number hd => ?_) (fun number hd => ?_) fun hw => ?_
  · obtain ⟨id, rfl⟩ := Letter.dispatch?_eq_some_iff.1 hd
    cases hp
    assumption
  · obtain ⟨id, rfl⟩ := Letter.dispatch?_eq_some_iff.1 hd
    cases hp
    assumption
  · cases hp <;> first | assumption | cases hw

/-- A letter is handed over that is for a session with its identifier and follows those before it: the account stays
coherent. The server is told that the session is set up only after it answered, and is asked to shut down only once the
end of the session has begun. -/
theorem Account.Coherent.handOver (h : account.Coherent) (letter : Letter) (reply : Reply Unit)
    (owned : ∀ id number dispatch, letter = .own id number dispatch →
      ∃ session, account.sessions.session? number = some session ∧ session.id = id)
    (follows : ∀ id number dispatch, letter = .own id number dispatch → dispatch.Follows (account.dispatches number))
    (answered : ∀ id number, letter = .own id number .initialized → account.Answered number)
    (ending : ∀ id number request session, letter = .own id number (.shutdown request) →
      account.sessions.session? number = some session → session.stage.isEnding = true) :
    (account.handOver letter reply).Coherent where
  named := h.named
  unique := h.unique
  numbered := h.numbered
  sent := by
    have hs := h.sent
    simp only [Account.handOver, List.filterMap_append, List.map_append, hs]
    rfl
  owned id number dispatch hm := by
    rcases List.mem_append.1 hm with hm | hm
    · exact h.owned id number dispatch hm
    · exact owned id number dispatch (List.mem_singleton.1 hm).symm
  begun := h.begun
  inOrder number := by
    rw [dispatches_handOver]
    cases hd : letter.dispatch? number with
    | none =>
      rw [Option.toList_none, List.append_nil]
      exact h.inOrder number
    | some dispatch =>
      obtain ⟨id, hl⟩ := Letter.dispatch?_eq_some_iff.1 hd
      exact (h.inOrder number).concat (follows id number dispatch hl)
  told number hm := by
    refine Answered.handOver ?_ letter reply
    rw [dispatches_handOver] at hm
    rcases List.mem_append.1 hm with hm | hm
    · exact h.told number hm
    · obtain ⟨id, hl⟩ := Letter.dispatch?_eq_some_iff.1 (Option.mem_toList.1 hm)
      exact answered id number hl
  greeted number session hfound hready := by
    obtain ⟨hanswered, told, delivered⟩ := h.greeted number session hfound hready
    exact ⟨hanswered.handOver letter reply, mem_dispatches_handOver told letter reply, List.mem_append_left _ delivered⟩
  shut number session hshut hfound := by
    obtain ⟨request, hm⟩ := hshut
    rw [dispatches_handOver] at hm
    rcases List.mem_append.1 hm with hm | hm
    · exact h.shut number session ⟨request, hm⟩ hfound
    · obtain ⟨id, hl⟩ := Letter.dispatch?_eq_some_iff.1 (Option.mem_toList.1 hm)
      exact ending id number request session hl hfound
  live := h.live

/-- A letter may be handed over: the account stays coherent. -/
theorem Account.Permits.coherent (h : account.Coherent) (hp : account.Permits role letter) (reply : Reply Unit) :
    (account.handOver letter reply).Coherent := by
  refine h.handOver letter reply ?_ ?_ ?_ ?_
  · rintro id number dispatch rfl
    exact hp.owned h
  · rintro id number dispatch rfl
    exact hp.follows h
  · rintro id number rfl
    cases hp
    assumption
  · rintro id number request session rfl hfound
    cases hp with
    | shutdown request found ending first =>
      cases hfound.symm.trans found
      exact ending

/-- There are no letters for a session that is still to come. -/
theorem Account.Coherent.dispatches_eq_nil (h : account.Coherent) :
    account.dispatches account.sessions.sessions.length = [] := by
  refine List.filterMap_eq_nil_iff.2 fun letter hm => ?_
  cases hd : letter.dispatch? account.sessions.sessions.length with
  | none => rfl
  | some dispatch =>
    obtain ⟨id, rfl⟩ := Letter.dispatch?_eq_some_iff.1 hd
    obtain ⟨session, found, -⟩ := h.owned id _ dispatch hm
    have hlt := SessionRegistry.lt_length found
    omega

section Greeting

variable {session : Session} {pending : Pending}

theorem since_enrol (moves : Pending.Moves role.answers account.pending pending) :
    Since role account { account.enrol session with pending } :=
  since_of_letters (SessionRegistry.advances_add _ _) moves (List.prefix_refl _) (List.prefix_refl _) rfl

theorem since_greet (id : RequestId) (params : Json) (reply : Reply Unit)
    (moves : Pending.Moves role.answers account.pending pending) :
    Since role account
      ({ account.enrol session with pending }.handOver
        (.own session.id account.sessions.sessions.length (.opening id params)) reply) := by
  refine (since_enrol moves).trans (since_handOver moves.numbered _ reply (fun number hd => ?_) (fun number hd => ?_) nofun)
  all_goals
    obtain ⟨_, heq⟩ := Letter.dispatch?_eq_some_iff.1 hd
    cases heq

/-- A session is added: the account stays coherent. -/
theorem coherent_enrol (h : account.Coherent) (begins : session.stage = .initializing)
    (moves : Pending.Moves role.answers account.pending pending) :
    Coherent { account.enrol session with pending } := by
  have hsince : Since role account { account.enrol session with pending } := since_enrol moves
  constructor
  case named => exact (SessionRegistry.spares_add h.named session).named h.named
  case unique => exact Entries.nodup_keys_set h.unique _ _
  case numbered => exact moves.numbered
  case sent => exact h.sent
  case owned =>
    intro other number dispatch hm
    obtain ⟨found, hfound, rfl⟩ := h.owned other number dispatch hm
    obtain ⟨later, hl, ha⟩ := hsince.sessions number found hfound
    exact ⟨later, hl, ha.id⟩
  case begun =>
    intro number found hfound
    rcases SessionRegistry.session?_of_add hfound with ⟨rfl, rfl⟩ | hfound
    · rw [begins]
      decide
    · exact h.begun number found hfound
  case inOrder => exact h.inOrder
  case told => exact fun number hm => hsince.answered (h.told number hm)
  case greeted =>
    intro number found hfound hready
    rcases SessionRegistry.session?_of_add hfound with ⟨rfl, rfl⟩ | hfound
    · rw [begins] at hready
      cases hready
    · exact hsince.greetedStill (h.greeted number found hfound hready)
  case shut =>
    intro number found hshut hfound
    rcases SessionRegistry.session?_of_add hfound with ⟨rfl, rfl⟩ | hfound
    · obtain ⟨request, hm⟩ := hshut
      have hnil : account.dispatches account.sessions.sessions.length = [] := h.dispatches_eq_nil
      exact absurd (hnil ▸ hm) List.not_mem_nil
    · exact h.shut number found hshut hfound
  case live =>
    intro number found hr
    rcases SessionRegistry.registered_of_add hr with ⟨-, rfl⟩ | hr
    · rw [begins]
      decide
    · exact h.live number found hr

/-- A session is added and its handshake is opened: the account stays coherent. -/
theorem coherent_greet (h : account.Coherent) (id : RequestId) (params : Json) (reply : Reply Unit)
    (begins : session.stage = .initializing) (moves : Pending.Moves role.answers account.pending pending) :
    ({ account.enrol session with pending }.handOver
      (.own session.id account.sessions.sessions.length (.opening id params)) reply).Coherent := by
  refine (coherent_enrol h begins moves).handOver _ reply ?_ ?_ (fun _ _ heq => ?_) fun _ _ _ _ heq => ?_
  · intro _ _ _ heq
    cases heq
    exact ⟨session, account.sessions.session?_added session, rfl⟩
  · intro _ _ _ heq
    cases heq
    exact h.dispatches_eq_nil
  all_goals cases heq

end Greeting

section Stages

variable {number : Nat} {session : Session} {stage : SessionStage}

/-- A session comes to a stage that is not before its own. -/
theorem advances_reach (found : account.sessions.session? number = some session) (hs : session.stage.rank ≤ stage.rank) :
    account.sessions.Advances (account.reach number stage).sessions :=
  SessionRegistry.advances_modify found ⟨rfl, rfl, rfl, hs⟩

theorem session?_reach (found : account.sessions.session? number = some session) {other : Nat} {after : Session}
    (hs : (account.reach number stage).sessions.session? other = some after) :
    other = number ∧ after = { session with stage } ∨
      other ≠ number ∧ account.sessions.session? other = some after := by
  change (account.sessions.modify number _).session? other = some after at hs
  rw [SessionRegistry.session?_modify] at hs
  split at hs
  · next hn =>
    subst hn
    rw [found] at hs
    cases hs
    exact Or.inl ⟨rfl, rfl⟩
  · next hn => exact Or.inr ⟨fun h => hn h.symm, hs⟩

/-- What every session was before one of them came to a stage. -/
theorem before_reach (found : account.sessions.session? number = some session)
    (hs : session.stage.rank ≤ stage.rank) (hg : stage = .ready → account.Greeted number session.id) {other : Nat}
    {after : Session} (hafter : (account.reach number stage).sessions.session? other = some after) :
    ∃ old, account.sessions.session? other = some old ∧ old.Advances after ∧
      (after.stage = .ready → old.stage = .ready ∨ account.Greeted other old.id) := by
  rcases session?_reach found hafter with ⟨rfl, rfl⟩ | ⟨-, hafter⟩
  · exact ⟨session, found, ⟨rfl, rfl, rfl, hs⟩, fun hready => Or.inr (hg hready)⟩
  · exact ⟨after, hafter, .refl after, Or.inl⟩

/-- What every session was before one of them was taken out. -/
theorem before_drop (found : account.sessions.session? number = some session) {other : Nat} {after : Session}
    (hafter : ({ account with sessions := account.sessions.remove session.id }.reach number .stopped).sessions.session?
      other = some after) :
    ∃ old, account.sessions.session? other = some old ∧ old.Advances after ∧
      (after.stage = .ready → old.stage = .ready ∨ account.Greeted other old.id) := by
  obtain ⟨kept, hkept, -⟩ := account.sessions.advances_remove session.id number session found
  let removed : Account := { account with sessions := account.sessions.remove session.id }
  have hkept : removed.sessions.session? number = some kept := hkept
  obtain ⟨middle, hmiddle, advances, greeted⟩ := before_reach hkept kept.stage.rank_le_stopped nofun hafter
  obtain ⟨old, hold, advances', hstage⟩ := SessionRegistry.stage_of_remove hmiddle
  refine ⟨old, hold, advances'.trans advances, fun hready => (greeted hready).imp (fun h => hstage ▸ h) fun hg => ?_⟩
  rw [advances'.id] at hg
  exact ⟨hg.answered, hg.told, hg.delivered⟩

/-- A session came to a stage at which it has not stopped. -/
theorem live_reach (h : account.Coherent) (found : account.sessions.session? number = some session)
    (hstage : stage ≠ .stopped) {other : Nat} {after : Session}
    (hr : (account.reach number stage).sessions.Registered other after) : after.stage ≠ .stopped := by
  rcases session?_reach found hr.session with ⟨-, rfl⟩ | ⟨-, hafter⟩
  · exact hstage
  · exact h.live other after ⟨hr.listed, hafter⟩

end Stages

theorem Deed.since (d : Deed role account later) (h : account.Coherent) : Since role account later := by
  have hkeep : Pending.Moves role.answers account.pending account.pending := .refl h.numbered
  cases d with
  | pending moves => exact since_of_letters (.refl _) moves (List.prefix_refl _) (List.prefix_refl _) rfl
  | call exchange silent =>
    exact since_of_letters (.refl _) hkeep (List.prefix_append _ _) (List.prefix_append _ _) rfl
  | goOn exchange => exact since_of_letters (.refl _) hkeep (List.prefix_refl _) (List.prefix_append _ _) rfl
  | hand reply permits => exact permits.since h reply
  | greet id params reply greets begins opens moves => exact since_greet id params reply moves
  | enrol greets begins opens moves => exact since_enrol moves
  | @change number f same =>
    refine since_of_letters (fun other session found => ?_) hkeep (List.prefix_refl _) (List.prefix_refl _) rfl
    rw [SessionRegistry.session?_modify, found]
    split
    · exact ⟨_, rfl, (same session).1⟩
    · exact ⟨session, rfl, .refl session⟩
  | ready found begins greets greeted =>
    exact since_of_letters (advances_reach found (by rw [begins]; decide)) hkeep (List.prefix_refl _)
      (List.prefix_refl _) rfl
  | @shut number session found live ends =>
    exact since_of_letters (advances_reach found (Nat.le_of_lt (SessionStage.rank_lt_of_live live))) hkeep
      (List.prefix_refl _) (List.prefix_refl _) rfl
  | @drop number session found called =>
    have hremove := account.sessions.advances_remove session.id
    obtain ⟨session', found', -⟩ := hremove number session found
    refine since_of_letters (hremove.trans ?_) hkeep (List.prefix_refl _) (List.prefix_refl _) rfl
    exact SessionRegistry.advances_modify found' ⟨rfl, rfl, rfl, session'.stage.rank_le_stopped⟩
  | display state error found same stage ended =>
    exact since_of_letters (.refl _) hkeep (List.prefix_refl _) (List.prefix_refl _) rfl

/-- **A deed leaves a coherent account behind.** -/
theorem Deed.coherent (d : Deed role account later) (h : account.Coherent) : later.Coherent := by
  have hs := d.since h
  -- Where no session is changed, all that is said of the sessions still holds.
  have hsame : ∀ number session, account.sessions.session? number = some session →
      ∃ old, account.sessions.session? number = some old ∧ old.Advances session ∧
        (session.stage = .ready → old.stage = .ready ∨ account.Greeted number old.id) :=
    fun number session found => ⟨session, found, .refl session, Or.inl⟩
  cases d with
  | pending moves => exact h.since hs h.named h.unique rfl rfl hsame h.live
  | call exchange silent =>
    refine h.since hs h.named h.unique ?_ rfl hsame h.live
    simp [silent]
  | goOn exchange => exact h.since hs h.named h.unique rfl rfl hsame h.live
  | hand reply permits => exact permits.coherent h reply
  | greet id params reply greets begins opens moves => exact coherent_greet h id params reply begins moves
  | enrol greets begins opens moves => exact coherent_enrol h begins moves
  | @change number f same =>
    refine h.since hs (h.named.advances hs.sessions fun _ hm => hm) h.unique rfl rfl (fun other session found => ?_) ?_
    · obtain ⟨old, hold, ha, hstage⟩ := SessionRegistry.stage_of_modify same found
      exact ⟨old, hold, ha, fun hready => Or.inl (hstage ▸ hready)⟩
    · intro other session hr
      obtain ⟨old, hold, ha, hstage⟩ := SessionRegistry.stage_of_modify same hr.session
      rw [hstage]
      exact h.live other old ⟨ha.id ▸ hr.listed, hold⟩
  | @ready number session found begins greets greeted =>
    have hrank : session.stage.rank ≤ SessionStage.ready.rank := by
      rw [begins]
      decide
    exact h.since hs (h.named.advances hs.sessions fun _ hm => hm) h.unique rfl rfl
      (fun _ _ => before_reach found hrank fun _ => greeted) fun _ _ => live_reach h found (by decide)
  | shut found live ends =>
    have hrank := Nat.le_of_lt (SessionStage.rank_lt_of_live live)
    exact h.since hs (h.named.advances hs.sessions fun _ hm => hm) h.unique rfl rfl
      (fun _ _ => before_reach found hrank nofun) fun _ _ => live_reach h found (by decide)
  | @drop number session found called =>
    obtain ⟨session', found', hadvances⟩ := account.sessions.advances_remove session.id number session found
    have hnumbers : ∀ entry ∈ (account.sessions.remove session.id).numbers, entry ∈ account.sessions.numbers :=
      (account.sessions.wanes_remove session.id).numbers
    let removed : Account := { account with sessions := account.sessions.remove session.id }
    have found' : removed.sessions.session? number = some session' := found'
    refine h.since hs (h.named.advances hs.sessions hnumbers) (SessionRegistry.nodup_remove h.unique session.id) rfl rfl
      (fun _ _ => before_drop found) ?_
    · intro other after hr
      rcases session?_reach found' hr.session with ⟨rfl, rfl⟩ | ⟨-, hafter⟩
      · -- The one that has stopped is not registered any more.
        have hlisted : (session.id, other) ∈ (account.sessions.remove session.id).numbers :=
          hadvances.id ▸ hr.listed
        exact absurd hlisted (account.sessions.not_mem_remove session.id other)
      · obtain ⟨old, hold, ha, hstage⟩ := SessionRegistry.stage_of_remove hafter
        rw [hstage]
        exact h.live other old ⟨ha.id ▸ hnumbers _ hr.listed, hold⟩
  | display state error found same stage ended => exact h.since hs h.named h.unique rfl rfl hsame h.live

/-- Only a session that is added is registered by a deed. -/
theorem Deed.passes (d : Deed role account later) (h : account.Coherent) : account.sessions.Passes later.sessions where
  advances := (d.since h).sessions
  listed := by
    cases d with
    | greet _ _ _ _ _ _ _ | enrol _ _ _ _ =>
      intro entry hm
      rcases Entries.mem_set hm with hm | ⟨-, hnumber⟩
      · exact Or.inl hm
      · exact Or.inr (Nat.le_of_eq hnumber.symm)
    | @drop number session found called =>
      exact fun entry hm => Or.inl ((account.sessions.wanes_remove session.id).numbers entry hm)
    | _ => exact fun entry hm => Or.inl hm

/-- Deeds leave a coherent account behind, and what lasts since the first of them. -/
theorem Deeds.since_coherent (d : Deeds role account later) (h : account.Coherent) :
    Since role account later ∧ later.Coherent := by
  induction d with
  | refl => exact ⟨.refl h.numbered, h⟩
  | tail _ last ih => exact ⟨ih.1.trans (last.since ih.2), last.coherent ih.2⟩

theorem Deeds.passes (d : Deeds role account later) (h : account.Coherent) :
    account.sessions.Passes later.sessions := by
  induction d with
  | refl => exact .refl _
  | tail d last ih => exact ih.trans (last.passes (Deeds.since_coherent d h).2)

/-! ## Handshakes that are opened -/

section Opening

variable {opens : String → Bool}

/-- The handshakes of the sessions have been opened for the languages for which they can be, and no others. -/
def Account.Opened (opens : String → Bool) (account : Account) : Prop :=
  ∀ number session, account.sessions.session? number = some session →
    (Dispatch.IsOpened (account.dispatches number) ↔ opens session.language = true)

/-- No session is added, and no handshake opened. -/
theorem Account.Opened.unchanged (ho : account.Opened opens)
    (before : ∀ number session, later.sessions.session? number = some session →
      ∃ old, account.sessions.session? number = some old ∧ old.Advances session)
    (dispatches : ∀ number, Dispatch.IsOpened (later.dispatches number) ↔ Dispatch.IsOpened (account.dispatches number)) :
    later.Opened opens := by
  intro number session found
  obtain ⟨old, hold, advances⟩ := before number session found
  rw [dispatches, advances.language]
  exact ho number old hold

/-- A letter that may be handed over does not open a handshake. -/
theorem Account.Permits.isOpened (hp : account.Permits role letter) (reply : Reply Unit) (number : Nat) :
    Dispatch.IsOpened ((account.handOver letter reply).dispatches number) ↔
      Dispatch.IsOpened (account.dispatches number) := by
  rw [dispatches_handOver]
  constructor
  · rintro ⟨request, params, hm⟩
    rcases List.mem_append.1 hm with hm | hm
    · exact ⟨request, params, hm⟩
    · obtain ⟨id, rfl⟩ := Letter.dispatch?_eq_some_iff.1 (Option.mem_toList.1 hm)
      cases hp
  · rintro ⟨request, params, hm⟩
    exact ⟨request, params, List.mem_append_left _ hm⟩

/-- A session is added whose handshake is opened. -/
theorem Account.Opened.greet (ho : account.Opened opens) {session : Session} (hs : opens session.language = true)
    (id : RequestId) (params : Json) (reply : Reply Unit) {pending : Pending} :
    ({ account.enrol session with pending }.handOver
      (.own session.id account.sessions.sessions.length (.opening id params)) reply).Opened opens := by
  intro number other found
  rw [dispatches_handOver_own]
  rcases SessionRegistry.session?_of_add found with ⟨rfl, rfl⟩ | found
  · rw [if_pos rfl]
    exact ⟨fun _ => hs, fun _ => ⟨id, params, List.mem_append_right _ (List.mem_singleton_self _)⟩⟩
  · rw [if_neg (Nat.ne_of_gt (SessionRegistry.lt_length found)), List.append_nil]
    exact ho number other found

/-- A session is added whose handshake cannot be opened. -/
theorem Account.Opened.enrol (ho : account.Opened opens) (h : account.Coherent) {session : Session}
    (hs : opens session.language = false) {pending : Pending} :
    Account.Opened opens { account.enrol session with pending } := by
  intro number other found
  rcases SessionRegistry.session?_of_add found with ⟨rfl, rfl⟩ | found
  · have hnil : account.dispatches account.sessions.sessions.length = [] := h.dispatches_eq_nil
    refine ⟨fun ⟨_, _, hm⟩ => absurd (hnil ▸ hm) List.not_mem_nil, fun hopens => ?_⟩
    exact absurd (hopens.symm.trans hs) (by decide)
  · exact ho number other found

/-- **A deed opens the handshakes that can be opened**, if the role opens no others. -/
theorem Deed.opened (d : Deed role account later) (h : account.Coherent)
    (hr : ∀ language opened, role.opens language opened → opens language = opened) (ho : account.Opened opens) :
    later.Opened opens := by
  have hsame : ∀ number session, account.sessions.session? number = some session →
      ∃ old, account.sessions.session? number = some old ∧ old.Advances session :=
    fun number session found => ⟨session, found, .refl session⟩
  cases d with
  | pending _ | call _ _ _ | goOn _ | display _ _ _ _ _ _ _ => exact ho.unchanged hsame fun _ => Iff.rfl
  | hand reply permits => exact ho.unchanged hsame (permits.isOpened reply)
  | greet id params reply _ _ opened _ => exact ho.greet (hr _ _ opened) id params reply
  | enrol _ _ opened _ => exact ho.enrol h (hr _ _ opened)
  | change same =>
    refine ho.unchanged (fun number session found => ?_) fun _ => Iff.rfl
    obtain ⟨old, hold, advances, -⟩ := SessionRegistry.stage_of_modify same found
    exact ⟨old, hold, advances⟩
  | ready found begins greets greeted =>
    refine ho.unchanged (fun number session hlater => ?_) fun _ => Iff.rfl
    obtain ⟨old, hold, advances, -⟩ := before_reach found (by rw [begins]; decide) (fun _ => greeted) hlater
    exact ⟨old, hold, advances⟩
  | shut found live ends =>
    refine ho.unchanged (fun number session hlater => ?_) fun _ => Iff.rfl
    obtain ⟨old, hold, advances, -⟩ :=
      before_reach found (Nat.le_of_lt (SessionStage.rank_lt_of_live live)) nofun hlater
    exact ⟨old, hold, advances⟩
  | drop found called =>
    refine ho.unchanged (fun other after hlater => ?_) fun _ => Iff.rfl
    obtain ⟨old, hold, advances, -⟩ := before_drop found hlater
    exact ⟨old, hold, advances⟩

theorem Deeds.opened (d : Deeds role account later) (h : account.Coherent)
    (hr : ∀ language opened, role.opens language opened → opens language = opened) (ho : account.Opened opens) :
    later.Opened opens := by
  induction d with
  | refl => exact ho
  | tail d last ih => exact last.opened (Deeds.since_coherent d h).2 hr ih

end Opening

end Deeds

end LanguageSessions
