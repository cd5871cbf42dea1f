import LanguageSessions.Proofs.Client.Scenes
import LanguageSessions.Proofs.Client.Servings
import LanguageSessions.Proofs.Client.Teardown
import LanguageSessions.Proofs.Client.Undisturbed

/-!
# Sessions that nobody asks

A request becomes pending only together with a call that hands it over (`Changes.waiting_calls`), and none becomes so
for a session that is not registered (`Changes.unregistered`). Whoever is not in charge of a session that is being set
up hands nothing over to its server but notifications and the queries that somebody makes (`Deeds.unasked`), and who
makes a query asks one session (`Client.asked?`).
-/

namespace LanguageSessions

/-! ## Requests and notifications -/

/-- The text of a request is not that of a notification. -/
theorem Message.print_request_ne_notice (id params params' : Json) (method method' : String) :
    (Message.request id method params).print ≠ (Message.notice method' params').print := by
  intro h
  have hwrite : (Message.request id method params).write = (Message.notice method' params').write :=
    String.ofList_injective h
  -- The second member is called otherwise.
  simp only [Message.request, Message.notice, Json.write, Json.writeMembers, List.append_assoc, List.cons_append] at hwrite
  have hmembers := List.append_cancel_left (List.cons.inj hwrite).2
  have hkeys := List.append_cancel_left (List.cons.inj (List.cons.inj hmembers).2).2
  have hquoted := (List.cons.inj (List.cons.inj hkeys).2).2
  rw [show Json.quote "id" = ['"', 'i', 'd', '"'] from rfl,
    show Json.quote "method" = ['"', 'm', 'e', 't', 'h', 'o', 'd', '"'] from rfl] at hquoted
  exact absurd (List.cons.inj (List.cons.inj hquoted).2).1 (by decide)

/-- No request of a session is pending. -/
def Pending.FreeOf (pending : Pending) (id : String) : Prop := ∀ entry ∈ pending.entries, entry.2.session ≠ some id

theorem Pending.FreeOf.spares {first second : Pending} {id other : String} (h : first.FreeOf id)
    (hs : first.Spares other second) (hne : other ≠ id) : second.FreeOf id := by
  intro entry hm howner
  have hkept : entry ∈ second.entries.filter fun entry => entry.2.session != some other := by
    refine List.mem_filter.2 ⟨hm, bne_iff_ne.2 ?_⟩
    rw [howner]
    exact fun heq => hne (Option.some.inj heq).symm
  rw [hs.entries] at hkept
  exact h entry (List.mem_of_mem_filter hkept) howner

/-! ## In a scene -/

section Scenes

variable {warrant : Warrant} {before after : Scene} {id : String}

theorem Change.waiting_calls (h : Change warrant before after) (id : String) :
    ∃ calls, after.calls = before.calls ++ calls ∧ ∀ request entry, (request, entry) ∈ after.waiting →
      entry.session = some id → (request, entry) ∈ before.waiting ∨
        ∃ params, .send id (Message.request request.toJson entry.method params).print ∈ calls := by
  have hquiet : after.calls = before.calls → (∀ entry ∈ after.waiting, entry ∈ before.waiting) →
      ∃ calls, after.calls = before.calls ++ calls ∧ ∀ request entry, (request, entry) ∈ after.waiting →
        entry.session = some id → (request, entry) ∈ before.waiting ∨
          ∃ params, .send id (Message.request request.toJson entry.method params).print ∈ calls := fun hc hw =>
    ⟨[], by rw [hc, List.append_nil], fun request entry hm _ => Or.inl (hw _ hm)⟩
  cases h with
  | called exchange silent => exact ⟨_, rfl, fun _ _ hm _ => Or.inl hm⟩
  | handed reply plain passes => exact ⟨_, rfl, fun _ _ hm _ => Or.inl hm⟩
  | noticed reply listed found ready tells => exact ⟨_, rfl, fun _ _ hm _ => Or.inl hm⟩
  | settled fewer => exact hquiet rfl fewer
  | @asked letter _ _ params reply plain own registered owner text =>
    refine ⟨_, rfl, fun request entry hm hid => ?_⟩
    rcases Entries.mem_set hm with hm | ⟨rfl, rfl⟩
    · exact Or.inl hm
    · cases Option.some.inj (owner.symm.trans hid)
      refine Or.inr ⟨params, ?_⟩
      rw [← text]
      exact List.mem_singleton_self _
  | _ => exact hquiet rfl fun _ hm => hm

/-- **A request of a session that is pending behind changes was pending before, or was handed over in a call.** -/
theorem Changes.waiting_calls (h : Changes warrant before after) (id : String) :
    ∃ calls, after.calls = before.calls ++ calls ∧ ∀ request entry, (request, entry) ∈ after.waiting →
      entry.session = some id → (request, entry) ∈ before.waiting ∨
        ∃ params, .send id (Message.request request.toJson entry.method params).print ∈ calls := by
  induction h with
  | refl => exact ⟨[], (List.append_nil _).symm, fun _ _ hm _ => Or.inl hm⟩
  | tail _ last ih =>
    obtain ⟨first, hfirst, hwaiting⟩ := ih
    obtain ⟨second, hsecond, hwaiting'⟩ := last.waiting_calls id
    refine ⟨first ++ second, by rw [hsecond, hfirst, List.append_assoc], fun request entry hm hid => ?_⟩
    rcases hwaiting' request entry hm hid with hm | ⟨params, hsent⟩
    · refine (hwaiting request entry hm hid).imp_right fun ⟨params, hsent⟩ => ⟨params, ?_⟩
      exact List.mem_append_left _ hsent
    · exact Or.inr ⟨params, List.mem_append_right _ hsent⟩

theorem Change.unregistered (h : Change warrant before after) (absent : before.sessions.has id = false)
    (new : ∀ session, after.sessions.session? before.sessions.sessions.length = some session → session.id ≠ id) :
    after.sessions.has id = false ∧ ∀ request entry, (request, entry) ∈ after.waiting → entry.session = some id →
      (request, entry) ∈ before.waiting := by
  constructor
  · cases h with
    | @enrolled session begins untold =>
      have hid : session.id ≠ id := new session ((before.sessions.session?_add session _).trans (if_pos rfl))
      change ((before.sessions.numbers.set session.id before.sessions.sessions.length).get? id).isSome = false
      rw [Entries.get?_set, if_neg hid]
      exact absent
    | @dropped number session found overdue =>
      change ((before.sessions.remove session.id).number? id).isSome = false
      rw [SessionRegistry.number?_remove]
      split
      · rfl
      · exact absent
    | _ => exact absent
  · intro request entry hm hid
    refine (h.waiting hm).resolve_right ?_
    rintro ⟨owner, howner, hhas, -⟩
    cases Option.some.inj (howner.symm.trans hid)
    exact Bool.false_ne_true (absent.symm.trans hhas)

/-- **No request becomes pending for a session that is not registered**, if none is added for its identifier. -/
theorem Changes.unregistered (h : Changes warrant before after) (absent : before.sessions.has id = false)
    (new : ∀ number session, after.sessions.session? number = some session → session.id = id →
      number < before.sessions.sessions.length) :
    after.sessions.has id = false ∧ ∀ request entry, (request, entry) ∈ after.waiting → entry.session = some id →
      (request, entry) ∈ before.waiting := by
  induction h with
  | refl => exact ⟨absent, fun _ _ hm _ => hm⟩
  | @tail middle after first last ih =>
    have hfirst : before.sessions.Advances middle.sessions := Changes.advances first
    have hmiddle : ∀ number session, middle.sessions.session? number = some session → session.id = id →
        number < before.sessions.sessions.length := by
      intro number session found hid
      obtain ⟨later, hlater, advances⟩ := last.advances number session found
      exact new number later hlater (advances.id.trans hid)
    obtain ⟨habsent, hwaiting⟩ := ih hmiddle
    obtain ⟨habsent', hwaiting'⟩ := last.unregistered habsent fun session found hid =>
      absurd (new _ session found hid) (Nat.not_lt_of_le hfirst.length_le)
    exact ⟨habsent', fun request entry hm hid => hwaiting request entry (hwaiting' request entry hm hid) hid⟩

end Scenes

/-! ## In an account -/

section Deeds

open Account

variable {role : Role} {account later : Account} {number : Nat} {session : Session}

/-- Somebody makes a query. -/
def Role.Queries (role : Role) : Prop :=
  ∃ id number request method params, role.writes (.own id number (.query request method params))

/-- In some calls the server of a session was handed over only notifications, and queries that somebody makes. -/
def Role.Spoke (role : Role) (id : String) (calls : List LayerCall) : Prop :=
  ∀ text, .send id text ∈ calls → role.Queries ∨ ∃ method params, text = (Message.notice method params).print

theorem Letter.spoke_of_permits {letter : Letter} (permits : account.Permits role letter)
    (distinct : account.sessions.Distinct) (found : account.sessions.session? number = some session)
    (begins : session.stage = .initializing) : role.Spoke session.id [letter.call] := by
  intro text hm
  obtain ⟨hid, htext⟩ := LayerCall.send.inj (List.mem_singleton.1 hm)
  cases permits with
  | initialized _ _ _ _ | configuration _ _ _ | passed _ => exact Or.inr ⟨_, _, htext⟩
  | exit _ _ _ _ => exact Or.inr ⟨_, _, htext⟩
  | document notice _ _ _ =>
    right
    cases notice <;> exact ⟨_, _, htext⟩
  | query _ writes => exact Or.inl ⟨_, _, _, _, _, writes⟩
  | @shutdown other parted request hparted ending first =>
    -- The session would be being shut down.
    cases distinct number other session parted found hparted hid
    cases found.symm.trans hparted
    rw [begins] at ending
    cases ending

theorem Deed.unasked (d : Deed role account later) (distinct : later.sessions.Distinct) (h : account.Coherent)
    (found : account.sessions.session? number = some session) (begins : session.stage = .initializing) :
    ∃ calls, later.calls = account.calls ++ calls ∧ role.Spoke session.id calls := by
  have hquiet : later.calls = account.calls →
      ∃ calls, later.calls = account.calls ++ calls ∧ role.Spoke session.id calls := fun hc =>
    ⟨[], by rw [hc, List.append_nil], fun text hm => absurd hm List.not_mem_nil⟩
  have hdistinct := (d.since h).sessions.distinct distinct
  cases d with
  | call exchange silent stops =>
    refine ⟨_, rfl, fun text hm => ?_⟩
    rw [← List.mem_singleton.1 hm] at silent
    cases silent
  | hand reply permits => exact ⟨_, rfl, Letter.spoke_of_permits permits hdistinct found begins⟩
  | greet _ _ _ _ _ _ _ =>
    refine ⟨_, rfl, fun text hm => ?_⟩
    -- The session that is added has an identifier of its own.
    exact absurd (LayerCall.send.inj (List.mem_singleton.1 hm)).1.symm (SessionRegistry.Distinct.id_ne_of_add distinct found)
  | _ => exact hquiet rfl

/-- **Whoever is not in charge of a session that is being set up only notifies its server**, or somebody makes a
query. -/
theorem Deeds.unasked (d : Deeds role account later) (h : account.Coherent)
    (shown : account.sessions.Distinct → account.Shown) (distinct : later.sessions.Distinct)
    (found : account.sessions.session? number = some session) (begins : session.stage = .initializing)
    (minds : ¬ role.Minds number) (aborts : ¬ role.aborts session.id) :
    ∃ calls, later.calls = account.calls ++ calls ∧ role.Spoke session.id calls := by
  induction d with
  | refl => exact ⟨[], (List.append_nil _).symm, fun text hm => absurd hm List.not_mem_nil⟩
  | @tail middle later d last ih =>
    have hc : middle.Coherent := (Deeds.since_coherent d h).2
    have hdistinct := (last.since hc).sessions.distinct distinct
    obtain ⟨first, hfirst, hspoke⟩ := ih hdistinct
    obtain ⟨⟨current, hcurrent, advances, hstage⟩, -⟩ := Deeds.leaves d h shown hdistinct found minds aborts
    obtain ⟨second, hsecond, hspoke'⟩ := last.unasked distinct hc hcurrent (hstage.trans begins)
    rw [advances.id] at hspoke'
    refine ⟨first ++ second, by rw [hsecond, hfirst, List.append_assoc], fun text hm => ?_⟩
    exact (List.mem_append.1 hm).elim (hspoke text) (hspoke' text)

end Deeds

/-! ## Who asks -/

/-- Whether an operation makes a request that is none of the client's own. -/
def Operation.asks : Operation → Bool
  | .request _ _ _ _ => true
  | operation => operation.question?.isSome

theorem Operation.Writes.asks {operation : Operation} {id method : String} {number : Nat} {request : RequestId}
    {params : Json} (h : operation.Writes (.own id number (.query request method params))) : operation.asks = true := by
  cases h with
  | request => rfl
  | query asks =>
    unfold Operation.asks
    split
    · rfl
    · rw [asks, Option.isSome_some]

namespace Client

variable {σ τ : Type}

/-- The session that an operation makes a request of, if it makes one. -/
def asked? (client : Client σ) (setup : Setup τ) : Operation → Option String
  | .request session _ _ _ | .hover session _ _ | .definition session _ _ | .references session _ _ _
  | .symbols session _ => some session
  | .lookupDefinition path _ | .lookupReferences path _ =>
    (client.routes.resolve setup.servers path).map (·.session)
  | .bindingHover number _ => client.bindings[number]?.bind (·.session)
  | .bindingDefinition number _ | .bindingReferences number _ =>
    client.bindings[number]?.bind fun binding =>
      binding.session <|> (client.routes.resolve setup.servers binding.path).map (·.session)
  | _ => none

section Asking

variable {client : Client (σ × List Exchange)} {setup : Setup σ} {id session : String}

theorem freeOf_requestIfPrintable (ha : client.pending.Apart) (hne : session ≠ id) (free : client.pending.FreeOf id)
    (method : String) (params : Json) (delay : Option Binary64) :
    (client.requestIfPrintable setup.recorded session method params delay).1.pending.FreeOf id :=
  free.spares (poses_requestIfPrintable ha method params delay).spares hne

theorem freeOf_query (ha : client.pending.Apart) (hne : session ≠ id) (free : client.pending.FreeOf id) (query : Query)
    (method : String) (params : Members) :
    (client.query setup.recorded query session method params).1.pending.FreeOf id := by
  have hasked : (client.requestIfPrintable setup.recorded session method (.object params) none).1.pending.FreeOf id :=
    freeOf_requestIfPrintable ha hne free method (.object params) none
  have hafter : ∀ (next : Client (σ × List Exchange)) (asked : Progress RequestPhase Json),
      (next.afterQuery query asked).1.pending = next.pending := by
    intro next asked
    unfold afterQuery
    split
    · rfl
    · split
      · rfl
      · exact congrArg Tables.pending (tables_logAll next _)
  unfold Client.query
  rw [hafter]
  exact hasked

theorem freeOf_lookupDefinition (ha : client.pending.Apart) {path : String}
    (unasked : (client.routes.resolve setup.servers path).map (·.session) ≠ some id) (free : client.pending.FreeOf id)
    (position : Position) : (client.lookupDefinition setup.recorded path position).1.pending.FreeOf id := by
  unfold lookupDefinition
  split
  · exact free
  · next route hroute =>
    rw [show client.routes.resolve setup.servers path = some route from hroute] at unasked
    have hlogged : (client.log (lookingUp "definition" path position)).pending = client.pending := rfl
    exact freeOf_query (hlogged ▸ ha) (fun heq => unasked (congrArg some heq)) (hlogged ▸ free) _ _ _

theorem freeOf_lookupReferences (ha : client.pending.Apart) {path : String}
    (unasked : (client.routes.resolve setup.servers path).map (·.session) ≠ some id) (free : client.pending.FreeOf id)
    (position : Position) : (client.lookupReferences setup.recorded path position).1.pending.FreeOf id := by
  unfold lookupReferences
  split
  · exact free
  · next route hroute =>
    rw [show client.routes.resolve setup.servers path = some route from hroute] at unasked
    have hlogged : (client.log (lookingUp "references" path position)).pending = client.pending := rfl
    exact freeOf_query (hlogged ▸ ha) (fun heq => unasked (congrArg some heq)) (hlogged ▸ free) _ _ _

theorem freeOf_withBinding {number : Nat} {f : Binding → Client (σ × List Exchange) × Progress Activity Answer}
    (free : client.pending.FreeOf id)
    (h : ∀ binding, client.bindings[number]? = some binding → (f binding).1.pending.FreeOf id) :
    (client.withBinding number f).1.pending.FreeOf id := by
  unfold withBinding
  split
  · next binding found => exact h binding found
  · exact free

/-- **Who makes a request makes it of one session**: no request of another one becomes pending. -/
theorem freeOf_beginOperation (ha : client.pending.Apart) {operation : Operation} (asks : operation.asks = true)
    (unasked : client.asked? setup operation ≠ some id) (free : client.pending.FreeOf id) :
    (client.beginOperation setup.recorded operation).1.pending.FreeOf id := by
  have hne : ∀ session, client.asked? setup operation = some session → session ≠ id := by
    rintro session heq rfl
    exact unasked heq
  cases operation with
  | request session method params delay => exact freeOf_requestIfPrintable ha (hne session rfl) free _ _ _
  | hover session _ _ | definition session _ _ | references session _ _ _ | symbols session _ =>
    exact freeOf_query ha (hne session rfl) free _ _ _
  | lookupDefinition path position => exact freeOf_lookupDefinition ha unasked free position
  | lookupReferences path position => exact freeOf_lookupReferences ha unasked free position
  | bindingHover number position =>
    refine freeOf_withBinding free fun binding found => ?_
    change (client.bindingHover setup.recorded binding position).1.pending.FreeOf id
    unfold bindingHover
    split
    · next session hs =>
      refine freeOf_query ha (hne session ?_) free _ _ _
      rw [asked?, found, Option.bind_some, hs]
    · exact free
  | bindingDefinition number position =>
    refine freeOf_withBinding free fun binding found => ?_
    change (client.bindingDefinition setup.recorded binding position).1.pending.FreeOf id
    rw [asked?, found, Option.bind_some] at unasked
    unfold bindingDefinition
    split
    · next session hs =>
      rw [hs] at unasked
      exact freeOf_query ha (fun heq => unasked (congrArg some heq)) free _ _ _
    · next hs =>
      rw [hs] at unasked
      exact freeOf_lookupDefinition ha unasked free position
  | bindingReferences number position =>
    refine freeOf_withBinding free fun binding found => ?_
    change (client.bindingReferences setup.recorded binding position).1.pending.FreeOf id
    rw [asked?, found, Option.bind_some] at unasked
    unfold bindingReferences
    split
    · next session hs =>
      rw [hs] at unasked
      exact freeOf_query ha (fun heq => unasked (congrArg some heq)) free _ _ _
    · next hs =>
      rw [hs] at unasked
      exact freeOf_lookupReferences ha unasked free position
  | _ => cases asks

end Asking

end Client

end LanguageSessions
