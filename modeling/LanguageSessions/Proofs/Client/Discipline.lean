import LanguageSessions.Proofs.Client.AtOnce
import LanguageSessions.Proofs.Client.Errands

/-!
# Opening and closing through a binding

What a server is told about one document keeps the discipline (`openBehind?`) if the document is not opened while it is
open, and neither changed nor closed while it is not. A binding knows only whether it opened its document, and not in
which session. So a document that is used through one binding keeps the discipline as long as the binding is open in a
session if and only if the document is (`Scene.Keeps`). Whatever others do keeps that up, if they leave the document
alone and the binding stays with its session while it is open (`Change.keeps`); and so does every call of the binding
itself, if it is not to open the document again (`Scene.Keeps.tell`).
-/

namespace LanguageSessions

namespace DocumentNotice

/-- Whether a document is open behind one more notice about it; none if that notice may not come then. -/
def moves? : Bool → DocumentNotice → Option Bool
  | false, .opened _ _ _ _ => some true
  | true, .changed _ _ _ => some true
  | true, .closed _ => some false
  | _, _ => none

/-- Whether a document is open behind notices; none if one of them may not come where it does. -/
def openBehind? (notices : List DocumentNotice) (uri : String) : Option Bool :=
  (notices.filter fun notice => notice.uri = uri).foldlM moves? false

theorem openBehind?_concat (notices : List DocumentNotice) (notice : DocumentNotice) (uri : String) :
    openBehind? (notices ++ [notice]) uri =
      if notice.uri = uri then (openBehind? notices uri).bind (moves? · notice) else openBehind? notices uri := by
  unfold openBehind?
  rw [List.filter_append]
  split
  · next h =>
    rw [List.filter_cons_of_pos (by simpa using h), List.filter_nil, List.foldlM_append]
    cases List.foldlM moves? false (notices.filter fun notice => notice.uri = uri) <;> simp
  · next h => rw [List.filter_cons_of_neg (by simpa using h), List.filter_nil, List.append_nil]

end DocumentNotice

open DocumentNotice

/-- The notice that a letter is for the session with an identifier. -/
def Letter.noticeFor? (id : String) : Letter → Option DocumentNotice
  | .own session _ (.document notice) => if session = id then some notice else none
  | _ => none

namespace Scene

/-- The notices for the session with an identifier, in order. -/
def notices (scene : Scene) (id : String) : List DocumentNotice := scene.letters.filterMap (Letter.noticeFor? id)

/-- The session that a binding is open in. -/
def openSession? (scene : Scene) (number : Nat) : Option String := scene.bindings[number]?.bind Client.openSession?

/-- A binding of a path keeps the discipline. What was said about its document is in order, and in a session that is
ready the document is open if the binding is open in that session. -/
structure Keeps (scene : Scene) (number : Nat) (path : String) : Prop where
  bound : ∀ binding, scene.bindings[number]? = some binding → binding.path = path
  disciplined : ∀ id, openBehind? (scene.notices id) (Uri.ofPath path) ≠ none
  opened : ∀ n session, scene.sessions.Registered n session → session.stage = .ready →
    openBehind? (scene.notices session.id) (Uri.ofPath path) = some (scene.openSession? number == some session.id)
  /-- No session was told anything before it was ready. -/
  untold : ∀ id, ¬ scene.Reached id → scene.notices id = []
  reached : ∀ id, scene.openSession? number = some id → scene.Reached id

theorem notices_handOver (scene : Scene) (letter : Letter) (reply : Reply Unit) (id : String) :
    (scene.handOver letter reply).notices id = scene.notices id ++ (letter.noticeFor? id).toList := by
  unfold notices handOver
  rw [List.filterMap_append]
  cases h : letter.noticeFor? id <;> simp [h]

theorem notices_handOver_plain (scene : Scene) {letter : Letter} (reply : Reply Unit) (plain : letter.notice? = none)
    (id : String) : (scene.handOver letter reply).notices id = scene.notices id := by
  have hnone : letter.noticeFor? id = none := by
    cases letter with
    | passed session method params => rfl
    | own session number dispatch => cases dispatch <;> first | rfl | cases plain
  rw [notices_handOver, hnone, Option.toList_none, List.append_nil]

theorem notices_tell (scene : Scene) (id : String) (number : Nat) (notice : DocumentNotice) (reply : Reply Unit)
    (other : String) :
    (scene.tell id number notice reply).notices other = scene.notices other ++ if id = other then [notice] else [] := by
  unfold tell
  rw [notices_handOver, Letter.noticeFor?]
  split <;> rfl

/-- A notice for a session moves only its own document, and only in that session. -/
theorem openBehind?_tell (scene : Scene) (id : String) (number : Nat) (notice : DocumentNotice) (reply : Reply Unit)
    (other uri : String) :
    openBehind? ((scene.tell id number notice reply).notices other) uri =
      if id = other ∧ notice.uri = uri then (openBehind? (scene.notices other) uri).bind (moves? · notice)
      else openBehind? (scene.notices other) uri := by
  rw [notices_tell]
  by_cases hid : id = other
  · rw [if_pos hid, openBehind?_concat]
    simp only [hid, true_and]
  · rw [if_neg hid, List.append_nil, if_neg fun h => hid h.1]

end Scene

/-! ## Registered sessions later on -/

namespace SessionRegistry

variable {before after : SessionRegistry}

theorem Named.later (h : before.Named) (advances : before.Advances after)
    (fewer : ∀ entry ∈ after.numbers, entry ∈ before.numbers) : after.Named := by
  intro id number hm
  obtain ⟨session, found, rfl⟩ := h id number (fewer _ hm)
  obtain ⟨later, hlater, hadvances⟩ := advances number session found
  exact ⟨later, hlater, hadvances.id⟩

/-- A session that is registered was so before, if no other one was registered. -/
theorem Registered.earlier (named : before.Named) (advances : before.Advances after)
    (fewer : ∀ entry ∈ after.numbers, entry ∈ before.numbers) {number : Nat} {session : Session}
    (h : after.Registered number session) : ∃ earlier, before.Registered number earlier ∧ earlier.Advances session := by
  have hlisted := fewer _ h.listed
  obtain ⟨earlier, found, hid⟩ := named session.id number hlisted
  obtain ⟨later, hlater, hadvances⟩ := advances number earlier found
  cases hlater.symm.trans h.session
  exact ⟨earlier, ⟨hid ▸ hlisted, found⟩, hadvances⟩

end SessionRegistry

section Lasting

variable {warrant : Warrant} {before after : Scene} {number : Nat} {path : String}

/-- Either no identifier is registered in a change, or a session is added that is not ready. -/
theorem Change.numbers (h : Change warrant before after) :
    (∀ entry ∈ after.sessions.numbers, entry ∈ before.sessions.numbers) ∨
      ∃ session, session.stage = .initializing ∧ after = { before with sessions := before.sessions.add session } := by
  cases h with
  | @enrolled session begins untold => exact Or.inr ⟨session, begins, rfl⟩
  | @dropped n session found overdue =>
    refine Or.inl fun entry hm => ?_
    change entry ∈ (before.sessions.remove session.id).numbers at hm
    unfold SessionRegistry.remove at hm
    split at hm
    · exact hm
    · rw [Entries.erase_eq_filter] at hm
      exact List.mem_of_mem_filter hm
  | _ => exact Or.inl fun _ => id

theorem Change.named (h : Change warrant before after) (named : before.sessions.Named) : after.sessions.Named := by
  rcases h.numbers with fewer | ⟨session, -, rfl⟩
  · exact named.later h.advances fewer
  · exact (SessionRegistry.spares_add named session).named named

/-- A session that is registered and ready was registered before. -/
theorem Change.registered (h : Change warrant before after) (named : before.sessions.Named) {n : Nat}
    {session : Session} (registered : after.sessions.Registered n session) (ready : session.stage = .ready) :
    ∃ earlier, before.sessions.Registered n earlier ∧ earlier.Advances session := by
  rcases h.numbers with fewer | ⟨added, hstage, rfl⟩
  · exact registered.earlier named h.advances fewer
  · rcases SessionRegistry.registered_of_add registered with ⟨-, rfl⟩ | hbefore
    · rw [hstage] at ready
      cases ready
    · exact ⟨session, hbefore, .refl session⟩

section Tell

variable {id : String} {n : Nat} {session : Session} {notice : DocumentNotice}

theorem Scene.advances_tell (found : before.sessions.session? n = some session) (reply : Reply Unit) :
    before.sessions.Advances (before.tell id n notice reply).sessions :=
  SessionRegistry.advances_modify found ⟨rfl, rfl, rfl, Nat.le_refl _⟩

/-- A ready session that is told something has come so far. -/
theorem Scene.reached_tell (named : before.sessions.Named) (reply : Reply Unit)
    (listed : before.sessions.number? id = some n) (found : before.sessions.session? n = some session)
    (ready : session.stage = .ready) : (before.tell id n notice reply).Reached id := by
  obtain ⟨session', found', hid⟩ := named id n (Entries.mem_of_get? listed)
  cases found.symm.trans found'
  have hreached : before.Reached id := ⟨n, session, found, hid, Nat.le_of_eq (by rw [ready])⟩
  exact hreached.advances (Scene.advances_tell found reply)

/-- What is registered behind a notice for another session was so before. -/
theorem Scene.registered_tell (found : before.sessions.session? n = some session) {reply : Reply Unit} {m : Nat}
    {other : Session} (h : (before.tell id n notice reply).sessions.Registered m other) (hne : session.id ≠ other.id) :
    before.sessions.Registered m other := by
  have hother := h.session
  change (before.sessions.modify n (·.takeDown notice)).session? m = some other at hother
  rw [SessionRegistry.session?_modify] at hother
  split at hother
  · next hm =>
    -- That is the session itself.
    rw [← hm, found] at hother
    cases hother
    exact absurd rfl hne
  · exact ⟨h.listed, hother⟩

end Tell

/-- The binding is as it was, and so is what was said about its document. -/
theorem Scene.Keeps.later (h : before.Keeps number path) (named : before.sessions.Named)
    (change : Change warrant before after) (distinct : after.sessions.Distinct)
    (paths : ∀ binding, after.bindings[number]? = some binding → binding.path = path)
    (same : after.openSession? number = before.openSession? number)
    (behind : ∀ id,
      openBehind? (after.notices id) (Uri.ofPath path) = openBehind? (before.notices id) (Uri.ofPath path))
    (untold : ∀ id, ¬ after.Reached id → after.notices id = before.notices id) : after.Keeps number path where
  bound := paths
  disciplined id := by
    rw [behind]
    exact h.disciplined id
  opened n session registered ready := by
    obtain ⟨earlier, hearlier, hadvances⟩ := change.registered named registered ready
    rw [behind, same, hadvances.id]
    by_cases hready : earlier.stage = .ready
    · exact h.opened n earlier hearlier hready
    · -- The session has just got to be ready: it was told nothing, and the binding is not open in it.
      have hrank : earlier.stage.rank < SessionStage.ready.rank := by
        have hle := hadvances.stage
        rw [ready] at hle
        cases hs : earlier.stage <;> simp_all [SessionStage.rank]
      have hunreached : ¬ before.Reached earlier.id := by
        rintro ⟨m, other, hother, hid, hle⟩
        cases change.advances.distinct distinct m n other earlier hother hearlier.session hid
        cases hother.symm.trans hearlier.session
        exact absurd hle (Nat.not_le_of_lt hrank)
      have hclosed : (before.openSession? number == some earlier.id) = false :=
        beq_eq_false_iff_ne.2 fun hopen => hunreached (h.reached _ hopen)
      rw [h.untold _ hunreached, hclosed]
      rfl
  untold id hunreached := by
    rw [untold id hunreached]
    exact h.untold id fun hr => hunreached (hr.advances change.advances)
  reached id hopen := by
    rw [same] at hopen
    exact (h.reached id hopen).advances change.advances

/-- While a binding is open it is connected to no other session. -/
def Scene.Stays (warrant : Warrant) (number : Nat) (scene : Scene) : Prop :=
  ∀ id binding, warrant.connects number id → scene.bindings[number]? = some binding → binding.isOpen = true →
    binding.session = some id

/-- A binding is changed: it keeps its path, and is open in the same session. -/
theorem Scene.Keeps.rebind (h : before.Keeps number path) (named : before.sessions.Named)
    (change : Change warrant before after) (distinct : after.sessions.Distinct) {other : Nat} {f : Binding → Binding}
    (bindings : after.bindings = before.bindings.modify other f) (letters : after.letters = before.letters)
    (same : ∀ binding, other = number → before.bindings[number]? = some binding →
      (f binding).path = binding.path ∧ Client.openSession? (f binding) = Client.openSession? binding) :
    after.Keeps number path := by
  have hfound : after.bindings[number]? =
      if other = number then before.bindings[number]?.map f else before.bindings[number]? := by
    rw [bindings, List.getElem?_modify]
    split <;> simp
  have hnotices : ∀ id, after.notices id = before.notices id := fun id => by rw [notices, letters, notices]
  refine h.later named change distinct (fun binding hb => ?_) ?_ (fun id => by rw [hnotices]) fun id _ => hnotices id
  · rw [hfound] at hb
    split at hb
    · next ho =>
      obtain ⟨old, hold, rfl⟩ := Option.map_eq_some_iff.1 hb
      rw [(same old ho hold).1]
      exact h.bound old hold
    · exact h.bound binding hb
  · unfold openSession?
    rw [hfound]
    split
    · next ho =>
      cases hold : before.bindings[number]? with
      | none => rfl
      | some old => exact (same old ho hold).2
    · rfl

/-- **Whatever others do keeps the discipline of a binding**, if they leave its document alone, and it stays with its
session while it is open. -/
theorem Change.keeps (h : Change warrant before after) (hk : before.Keeps number path) (named : before.sessions.Named)
    (distinct : after.sessions.Distinct) (tells : ∀ uri, warrant.tells uri → uri ≠ Uri.ofPath path)
    (binds : ¬ warrant.binds number) (stays : before.Stays warrant number) : after.Keeps number path := by
  have hplain : ∀ (letter : Letter) (reply : Reply Unit) (scene : Scene), letter.notice? = none →
      scene.letters = before.letters → scene.bindings = before.bindings → after = scene.handOver letter reply →
      after.Keeps number path := by
    rintro letter reply scene plain hletters hbindings rfl
    have hnotices : ∀ id, (scene.handOver letter reply).notices id = before.notices id := fun id => by
      rw [Scene.notices_handOver_plain scene reply plain, Scene.notices, hletters, Scene.notices]
    refine hk.later named h distinct (fun binding hb => hk.bound binding (hbindings ▸ hb)) ?_
      (fun id => by rw [hnotices]) fun id _ => hnotices id
    unfold Scene.openSession?
    exact congrArg (fun bindings : List Binding => bindings[number]?.bind Client.openSession?) hbindings
  have hne : ∀ other, warrant.binds other → other ≠ number := fun other hb heq => binds (heq ▸ hb)
  cases id h with
  | handed reply plain passes => exact hplain _ reply before plain rfl rfl rfl
  | @asked letter request entry params reply plain own registered owner text =>
    exact hplain letter reply { before with waiting := before.waiting.set request entry } plain rfl rfl rfl
  | @noticed id n session notice reply listed found ready told =>
    refine hk.later named h distinct hk.bound rfl (fun other => ?_) fun other hunreached => ?_
    · exact (before.openBehind?_tell id n notice reply other _).trans (if_neg fun hsame => tells _ told hsame.2)
    · have hother : id ≠ other := by
        rintro rfl
        exact hunreached (Scene.reached_tell named reply listed found ready)
      change (before.tell id n notice reply).notices other = _
      rw [Scene.notices_tell, if_neg hother, List.append_nil]
  | @connected other id path' language root connects source =>
    refine hk.rebind named h distinct (f := fun binding => { binding with session := some id }) rfl rfl ?_
    rintro binding rfl hb
    refine ⟨rfl, ?_⟩
    unfold Client.openSession?
    dsimp only
    split
    · next hopen => exact (stays id binding connects hb hopen).symm
    · rfl
  | @left other path' bound =>
    exact hk.rebind named h distinct (f := fun binding => { binding with session := none }) rfl rfl
      fun _ heq => absurd heq (hne other bound)
  | @flagged other isOpen bound =>
    exact hk.rebind named h distinct (f := fun binding => { binding with isOpen }) rfl rfl
      fun _ heq => absurd heq (hne other bound)
  | excused other error =>
    exact hk.rebind named h distinct (f := fun binding => { binding with error }) rfl rfl fun _ _ _ => ⟨rfl, rfl⟩
  | _ => exact hk.later named h distinct hk.bound rfl (fun _ => rfl) fun _ _ => rfl

/-- A binding stays with its session through what others do. -/
theorem Change.stays (h : Change warrant before after) (stays : before.Stays warrant number)
    (binds : ¬ warrant.binds number) : after.Stays warrant number := by
  have hmodify : ∀ (other : Nat) (f : Binding → Binding), after.bindings = before.bindings.modify other f →
      (∀ binding, other = number → before.bindings[number]? = some binding → (f binding).isOpen = binding.isOpen ∧
        ∀ id, warrant.connects number id → binding.isOpen = true → (f binding).session = some id) →
      after.Stays warrant number := by
    intro other f hbindings hf id binding connects found hopen
    rw [hbindings, List.getElem?_modify] at found
    split at found
    · next ho =>
      obtain ⟨old, hold, rfl⟩ := Option.map_eq_some_iff.1 found
      obtain ⟨hsame, hsession⟩ := hf old ho hold
      exact hsession id connects (hsame ▸ hopen)
    · exact stays id binding connects (by simpa using found) hopen
  have hne : ∀ other, warrant.binds other → other ≠ number := fun other hb heq => binds (heq ▸ hb)
  cases h with
  | @connected other id path' language root connects source =>
    refine hmodify other (fun binding => { binding with session := some id }) rfl ?_
    rintro binding rfl hb
    refine ⟨rfl, fun id' connects' hopen => ?_⟩
    rw [← stays id binding connects hb hopen, ← stays id' binding connects' hb hopen]
  | left path' bound =>
    exact hmodify _ (fun binding => { binding with session := none }) rfl fun _ heq => absurd heq (hne _ bound)
  | flagged isOpen bound =>
    exact hmodify _ (fun binding => { binding with isOpen }) rfl fun _ heq => absurd heq (hne _ bound)
  | excused other error =>
    exact hmodify other (fun binding => { binding with error }) rfl fun binding _ hb =>
      ⟨rfl, fun id connects hopen => stays id binding connects hb hopen⟩
  | _ => exact stays

theorem Changes.keeps (h : Changes warrant before after) (hk : before.Keeps number path) (named : before.sessions.Named)
    (distinct : after.sessions.Distinct) (tells : ∀ uri, warrant.tells uri → uri ≠ Uri.ofPath path)
    (binds : ¬ warrant.binds number) (stays : before.Stays warrant number) : after.Keeps number path := by
  have hall : after.Keeps number path ∧ after.sessions.Named ∧ after.Stays warrant number := by
    induction h with
    | refl => exact ⟨hk, named, stays⟩
    | tail first last ih =>
      obtain ⟨hk, named, stays⟩ := ih (last.advances.distinct distinct)
      exact ⟨last.keeps hk named distinct tells binds stays, last.named named, last.stays stays binds⟩
  exact hall.1

end Lasting

/-! ## Calls of the binding itself -/

namespace Scene

variable {scene : Scene} {number : Nat} {path id : String}

/-- The binding is not open behind a change, and no session is ready that it was open in. -/
theorem Keeps.shut (h : scene.Keeps number path) {routes : Routes} {bindings : List Binding}
    (paths : ∀ binding, bindings[number]? = some binding → binding.path = path)
    (closed : bindings[number]?.bind Client.openSession? = none)
    (unready : ∀ n session, scene.sessions.Registered n session → session.stage = .ready →
      scene.openSession? number ≠ some session.id) : ({ scene with routes, bindings } : Scene).Keeps number path where
  bound := paths
  disciplined := h.disciplined
  opened n session registered ready := by
    have hclosed : (scene.openSession? number == some session.id) = false :=
      beq_eq_false_iff_ne.2 (unready n session registered ready)
    refine (h.opened n session registered ready).trans ?_
    rw [hclosed, openSession?, closed]
    rfl
  untold := h.untold
  reached id hopen := by
    unfold openSession? at hopen
    rw [closed] at hopen
    cases hopen

/-- **The binding tells a ready session about its document**, and is open in it as the notice has it: the discipline is
kept if the notice may come. -/
theorem Keeps.tell (h : scene.Keeps number path) (named : scene.sessions.Named) {n : Nat} {session : Session}
    {notice : DocumentNotice} (reply : Reply Unit) (listed : scene.sessions.number? id = some n)
    (found : scene.sessions.session? n = some session) (ready : session.stage = .ready)
    (about : notice.uri = Uri.ofPath path) {routes : Routes} {bindings : List Binding}
    (paths : ∀ binding, bindings[number]? = some binding → binding.path = path)
    (own : scene.openSession? number = none ∨ scene.openSession? number = some id) (later : Option String)
    (opens : bindings[number]?.bind Client.openSession? = later) (own' : later = none ∨ later = some id)
    (moves : moves? (scene.openSession? number).isSome notice = some later.isSome) :
    ({ scene.tell id n notice reply with routes, bindings } : Scene).Keeps number path := by
  obtain ⟨session', found', hid⟩ := named id n (Entries.mem_of_get? listed)
  cases found.symm.trans found'
  have registered : scene.sessions.Registered n session := ⟨hid ▸ Entries.mem_of_get? listed, found⟩
  have hreached : (scene.tell id n notice reply).Reached id := reached_tell named reply listed found ready
  -- The binding is open in no session but that one.
  have hown : ∀ open? : Option String, open? = none ∨ open? = some id → (open? == some id) = open?.isSome := by
    rintro open? (rfl | rfl) <;> simp
  have hnot : ∀ open? : Option String, open? = none ∨ open? = some id → ∀ other, id ≠ other →
      (open? == some other) = false := by
    rintro open? (rfl | rfl) other hne <;> simp [hne]
  -- In that session the notice moves what was said before.
  have hmoved : (openBehind? (scene.notices id) (Uri.ofPath path)).bind (moves? · notice) = some later.isSome := by
    rw [← hid, h.opened n session registered ready, Option.bind_some, hid, hown _ own, moves]
  have hbehind := fun other => scene.openBehind?_tell id n notice reply other (Uri.ofPath path)
  constructor
  case bound => exact paths
  case disciplined =>
    intro other
    change openBehind? ((scene.tell id n notice reply).notices other) _ ≠ none
    rw [hbehind]
    split
    · next hsame =>
      rw [← hsame.1, hmoved]
      exact Option.some_ne_none _
    · exact h.disciplined other
  case opened =>
    intro m other hother hready
    change openBehind? ((scene.tell id n notice reply).notices other.id) _ =
      some ((bindings[number]?.bind Client.openSession?) == some other.id)
    rw [hbehind, opens]
    by_cases hne : id = other.id
    · rw [if_pos ⟨hne, about⟩, ← hne, hmoved, hown _ own']
    · have htold : (scene.tell id n notice reply).sessions.Registered m other := hother
      have hbefore := registered_tell found htold fun heq => hne (hid.symm.trans heq)
      rw [if_neg fun hsame => hne hsame.1, h.opened m other hbefore hready, hnot _ own _ hne, hnot _ own' _ hne]
  case untold =>
    intro other hunreached
    have hother : id ≠ other := by
      rintro rfl
      exact hunreached hreached
    change (scene.tell id n notice reply).notices other = []
    rw [notices_tell, if_neg hother, List.append_nil]
    have hadvances : scene.sessions.Advances (scene.tell id n notice reply).sessions := advances_tell found reply
    exact h.untold other fun hr => hunreached (hr.advances hadvances)
  case reached =>
    intro other hopen
    change bindings[number]?.bind Client.openSession? = some other at hopen
    rw [opens] at hopen
    rcases own' with hnone | hsome
    · rw [hnone] at hopen
      cases hopen
    · rw [hsome] at hopen
      cases hopen
      exact hreached

end Scene

/-- An operation is a call of a binding that opens, changes or closes its document. -/
def Operation.IsOf (number : Nat) : Operation → Prop
  | .openBinding other _ | .updateBinding other _ | .closeBinding other | .disconnect other => other = number
  | _ => False

namespace Client

variable {σ : Type}

section Own

variable {client : Client (σ × List Exchange)} {setup : Setup σ} {letters : List Letter} {warrant : Warrant}
  {number : Nat} {binding : Binding} {path : String}

theorem openSession?_scene (found : client.bindings[number]? = some binding) :
    (client.scene letters).openSession? number = openSession? binding := by
  change client.bindings[number]?.bind openSession? = _
  rw [found]
  rfl

/-- The binding has another flag or session. -/
theorem bound_modify (keeps : (client.scene letters).Keeps number path) {f : Binding → Binding}
    (same : ∀ binding, (f binding).path = binding.path) :
    ∀ binding, (client.bindings.modify number f)[number]? = some binding → binding.path = path := by
  intro later hlater
  rw [List.getElem?_modify_eq, Option.map_eq_map] at hlater
  obtain ⟨old, hold, rfl⟩ := Option.map_eq_some_iff.1 hlater
  rw [same]
  exact keeps.bound old hold

/-- How a call of the binding ends: at once, and the discipline is kept. -/
def KeptAtOnce {φ α : Type} (number : Nat) (path : String) (scene : Scene) (progress : Progress φ α) : Prop :=
  (∃ outcome, progress = .ends outcome) ∧ scene.Keeps number path

/-- A ready session is told something about the document of a binding, which then changes: the discipline is kept if the
notice may come, and the binding is open in that session as the notice has it. -/
theorem keeps_documentCall (setup : Setup σ) (named : client.sessions.Named)
    (keeps : (client.scene letters).Keeps number path) {id : String} {n : Nat} {session : Session}
    (ready : client.ready? id = some (n, session)) (call : DocumentCall)
    (about : (call.notice session.versions.get?).uri = Uri.ofPath path) (tells : warrant.tells (Uri.ofPath path))
    (f : Binding → Binding) (same : ∀ binding, (f binding).path = binding.path)
    (own : (client.scene letters).openSession? number = none ∨ (client.scene letters).openSession? number = some id)
    (later : Option String) (opens : (client.bindings.modify number f)[number]?.bind openSession? = later)
    (own' : later = none ∨ later = some id)
    (moves : moves? ((client.scene letters).openSession? number).isSome (call.notice session.versions.get?) =
      some later.isSome) :
    let step := client.beginOperation setup.recorded (call.operation id)
    ∃ letters', Change warrant (client.scene letters) (step.1.scene letters') ∧
      ((step.1.changeBinding number f).scene letters').Keeps number path := by
  intro step
  obtain ⟨listed, found, hstage⟩ := client.ready?_eq_some_iff.1 ready
  obtain ⟨reply, hscene⟩ := client.scene_documentCall setup letters ready call
  refine ⟨letters ++ [.own id n (.document (call.notice session.versions.get?))], ?_, ?_⟩
  · rw [hscene]
    exact client.change_tell letters ready (about ▸ tells) reply
  · have hlater : (step.1.changeBinding number f).scene
        (letters ++ [.own id n (.document (call.notice session.versions.get?))]) =
        { (client.scene letters).tell id n (call.notice session.versions.get?) reply with
          bindings := client.bindings.modify number f } := by
      unfold changeBinding scene
      exact congrArg (fun scene : Scene => { scene with bindings := scene.bindings.modify number f }) hscene
    rw [hlater]
    exact keeps.tell named reply listed found (beq_iff_eq.1 hstage) about (bound_modify keeps same) own later opens own'
      moves

/-- A binding that is not open is to open its document. -/
theorem keeps_openBinding (atOnce : setup.layer.SendsAtOnce) (named : client.sessions.Named)
    (keeps : (client.scene letters).Keeps number path) (found : client.bindings[number]? = some binding)
    (closed : binding.isOpen = false) (tells : warrant.tells (Uri.ofPath path)) (binds : warrant.binds number)
    (text : String) :
    Makes warrant (client.scene letters) (KeptAtOnce number path)
      (client.openBinding setup.recorded number binding text) := by
  have hpath := keeps.bound binding found
  subst hpath
  unfold openBinding
  split
  · next id language hid _ =>
    cases hready : client.ready? id with
    | none =>
      rw [openDocument, hready]
      exact makes_nothing rfl ⟨⟨_, rfl⟩, keeps⟩
    | some pair =>
      let call := DocumentCall.opening binding.path ((Language.ofEditor language).getD language) text
      have hbefore : (client.scene letters).openSession? number = none := by
        rw [openSession?_scene found, openSession?, closed]
        rfl
      let flagged := fun binding : Binding => { binding with isOpen := true }
      have hopens : (client.bindings.modify number flagged)[number]?.bind openSession? = some id := by
        rw [List.getElem?_modify_eq, found]
        exact hid
      obtain ⟨letters', hchange, hkept⟩ := keeps_documentCall setup named keeps hready call rfl tells
        flagged (fun _ => rfl) (Or.inl hbefore) (some id) hopens (Or.inr rfl) (by rw [hbefore]; rfl)
      dsimp only
      rw [client.openDocument_atOnce atOnce hready]
      exact ⟨letters', .tail (.single hchange) (.flagged true binds), ⟨_, rfl⟩, hkept⟩
  · exact makes_nothing rfl ⟨⟨_, rfl⟩, keeps⟩

theorem keeps_updateBinding (atOnce : setup.layer.SendsAtOnce) (named : client.sessions.Named)
    (keeps : (client.scene letters).Keeps number path) (found : client.bindings[number]? = some binding)
    (tells : warrant.tells (Uri.ofPath path)) (text : String) :
    Makes warrant (client.scene letters) (KeptAtOnce number path)
      (client.updateBinding setup.recorded binding text) := by
  have hpath := keeps.bound binding found
  subst hpath
  unfold updateBinding
  split
  · exact makes_nothing rfl ⟨⟨_, rfl⟩, keeps⟩
  · next id hid =>
    cases hready : client.ready? id with
    | none =>
      rw [changeDocument, hready]
      exact makes_nothing rfl ⟨⟨_, rfl⟩, keeps⟩
    | some pair =>
      obtain ⟨n, session⟩ := pair
      obtain ⟨listed, hsession, hstage⟩ := client.ready?_eq_some_iff.1 hready
      let notice := (DocumentCall.changing binding.path text).notice session.versions.get?
      obtain ⟨reply, hscene⟩ := client.scene_documentCall setup letters hready (.changing binding.path text)
      have htold : Change warrant (client.scene letters) ((client.scene letters).tell id n notice reply) :=
        client.change_tell letters hready tells reply
      have hbefore : (client.scene letters).openSession? number = some id := (openSession?_scene found).trans hid
      have hkept : ((client.scene letters).tell id n notice reply).Keeps number binding.path :=
        keeps.tell named reply listed hsession (beq_iff_eq.1 hstage) rfl keeps.bound (Or.inr hbefore) (some id) hbefore
          (Or.inr rfl) (by rw [hbefore]; rfl)
      refine ⟨letters ++ [.own id n (.document notice)], ?_,
        ⟨_, client.changeDocument_atOnce atOnce hready binding.path text⟩, ?_⟩
      · exact Eq.subst (motive := Changes warrant _) hscene.symm (.single htold)
      · exact Eq.subst (motive := fun scene : Scene => scene.Keeps number binding.path) hscene.symm hkept

/-- A binding that is not open may leave. -/
theorem keeps_leave (keeps : (client.scene letters).Keeps number path)
    (closed : (client.scene letters).openSession? number = none) (binds : warrant.binds number) (leaving : Bool) :
    Makes warrant (client.scene letters) (KeptAtOnce number path)
      ((if leaving then client.leave number binding else client, .ends (.ok ())) :
        Client (σ × List Exchange) × Progress NoticePhase Unit) := by
  split
  · refine makes_change (.left binding.path binds) ⟨⟨_, rfl⟩, ?_⟩
    let left := fun binding : Binding => { binding with session := none }
    have hclosed : (client.bindings.modify number left)[number]?.bind openSession? = none := by
      rw [List.getElem?_modify_eq]
      cases client.bindings[number]? with
      | none => rfl
      | some old => exact ite_self none
    exact keeps.shut (bound_modify keeps fun _ => rfl) hclosed fun n session _ _ hopen => by
      rw [closed] at hopen
      cases hopen
  · exact makes_nothing rfl ⟨⟨_, rfl⟩, keeps⟩

/-- The document of a binding was closed, or its session is not ready: behind that the binding is not open. -/
theorem keeps_afterBindingClose
    (keeps : ((client.changeBinding number fun binding => { binding with isOpen := false }).scene letters).Keeps number
      path) (binds : warrant.binds number) (leaving : Bool) :
    Makes warrant (client.scene letters) (KeptAtOnce number path)
      (client.afterBindingClose number binding leaving (.ends (.ok ()))) := by
  let shut := fun binding : Binding => { binding with isOpen := false }
  have hclosed : ((client.changeBinding number shut).scene letters).openSession? number = none := by
    change (client.bindings.modify number shut)[number]?.bind openSession? = none
    rw [List.getElem?_modify_eq]
    cases client.bindings[number]? <;> rfl
  have hchange : Change warrant (client.scene letters) ((client.changeBinding number shut).scene letters) :=
    .flagged false binds
  exact (keeps_leave keeps hclosed binds leaving).after (.single hchange)

theorem keeps_closeBinding (atOnce : setup.layer.SendsAtOnce) (named : client.sessions.Named)
    (unique : client.sessions.numbers.keys.Nodup) (keeps : (client.scene letters).Keeps number path)
    (found : client.bindings[number]? = some binding) (tells : warrant.tells (Uri.ofPath path))
    (binds : warrant.binds number) (leaving : Bool) :
    Makes warrant (client.scene letters) (KeptAtOnce number path)
      (client.closeBinding setup.recorded number binding leaving) := by
  have hpath := keeps.bound binding found
  subst hpath
  have hopen : (client.scene letters).openSession? number = openSession? binding := openSession?_scene found
  let shut := fun binding : Binding => { binding with isOpen := false }
  have hshut : (client.bindings.modify number shut)[number]?.bind openSession? = none := by
    rw [List.getElem?_modify_eq, found]
    rfl
  unfold closeBinding
  split
  · next hclosed => exact keeps_leave keeps (hopen.trans hclosed) binds leaving
  · next id hid =>
    dsimp only
    rw [client.closeDocument_atOnce atOnce]
    cases hready : client.ready? id with
    | none =>
      rw [closeDocument, hready]
      refine keeps_afterBindingClose ?_ binds leaving
      refine keeps.shut (bound_modify keeps fun _ => rfl) hshut fun n session registered ready hsession => ?_
      -- The session would be found, and be ready.
      rw [hopen, hid] at hsession
      cases hsession
      have hfound : client.ready? session.id = some (n, session) :=
        client.ready?_eq_some_iff.2
          ⟨Entries.get?_of_mem unique registered.listed, registered.session, beq_iff_eq.2 ready⟩
      rw [hready] at hfound
      cases hfound
    | some pair =>
      have hbefore : (client.scene letters).openSession? number = some id := hopen.trans hid
      obtain ⟨letters', hchange, hkept⟩ := keeps_documentCall setup named keeps hready
        (.closing binding.path) rfl tells shut (fun _ => rfl) (Or.inr hbefore) none hshut (Or.inl rfl)
        (by rw [hbefore]; rfl)
      exact Makes.after (.single hchange) (keeps_afterBindingClose hkept binds leaving)

theorem KeptAtOnce.silently {φ : Type} {origin : Scene} {step : Client (σ × List Exchange) × Progress φ Unit}
    (h : Makes warrant origin (KeptAtOnce number path) step) (activity : φ → Activity) :
    Makes warrant origin (KeptAtOnce number path) (Client.silently activity step) := by
  refine h.translate (fun scene phase _ hp => ?_) fun scene outcome _ hp => ⟨⟨_, rfl⟩, hp.2⟩
  obtain ⟨⟨outcome, houtcome⟩, -⟩ := hp
  cases houtcome

/-- **Every call of a binding keeps its discipline**, if it is not to open a document that is open. -/
theorem keeps_beginOperation (atOnce : setup.layer.SendsAtOnce) (named : client.sessions.Named)
    (unique : client.sessions.numbers.keys.Nodup) (keeps : (client.scene letters).Keeps number path)
    {operation : Operation} (own : operation.IsOf number)
    (closed : ∀ text binding, operation = .openBinding number text → client.bindings[number]? = some binding →
      binding.isOpen = false)
    (tells : warrant.tells (Uri.ofPath path)) (binds : warrant.binds number) :
    Makes warrant (client.scene letters) (KeptAtOnce number path)
      (client.beginOperation setup.recorded operation) := by
  have hbinding : ∀ f : Binding → Client (σ × List Exchange) × Progress Activity Answer,
      (∀ binding, client.bindings[number]? = some binding →
        Makes warrant (client.scene letters) (KeptAtOnce number path) (f binding)) →
      Makes warrant (client.scene letters) (KeptAtOnce number path) (client.withBinding number f) := by
    intro f hf
    unfold withBinding
    split
    · next binding found => exact hf binding found
    · exact makes_nothing rfl ⟨⟨_, rfl⟩, keeps⟩
  cases operation with
  | openBinding other text =>
    cases own
    refine hbinding _ fun binding found => KeptAtOnce.silently ?_ _
    exact keeps_openBinding atOnce named keeps found (closed text binding rfl found) tells binds text
  | updateBinding other text =>
    cases own
    exact hbinding _ fun binding found =>
      KeptAtOnce.silently (keeps_updateBinding atOnce named keeps found tells text) _
  | closeBinding other =>
    cases own
    exact hbinding _ fun binding found =>
      KeptAtOnce.silently (keeps_closeBinding atOnce named unique keeps found tells binds false) _
  | disconnect other =>
    cases own
    exact hbinding _ fun binding found =>
      KeptAtOnce.silently (keeps_closeBinding atOnce named unique keeps found tells binds true) _
  | _ => cases own

end Own

end Client

end LanguageSessions
