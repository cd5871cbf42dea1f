import LanguageSessions.Proofs.Client.Letters

/-!
# Handing over at once

If a process layer hands over at once whatever is to be handed over (`Layer.SendsAtOnce`), then a notification is sent
within one step, and so is all that is done for one: a call about a document ends at once, and so does a call of a
binding that opens, changes or closes its document. No operation waits for a notification then
(`isNoticing_beginOperation`), and none begins to later on (`isNoticing_resumeActivity`).
-/

namespace LanguageSessions

/-- Whether an activity sends a notification. -/
def Activity.isNoticing : Activity → Bool
  | .noticing _ _ => true
  | _ => false

/-- Whatever is to be handed over is handed over at once. -/
def Layer.SendsAtOnce {σ : Type} (layer : Layer σ) : Prop :=
  ∀ state ticket session text, (layer.call state ticket (.send session text)).reply = .returns ()

namespace Client

variable {σ : Type}

/-! ## What ends at once -/

section AtOnce

variable (client : Client (σ × List Exchange)) {setup : Setup σ} (atOnce : setup.layer.SendsAtOnce)
include atOnce

theorem notify_atOnce (session method : String) (params : Json) :
    (client.notify setup.recorded session method params).2 = .ends (.ok ()) := by
  have hreply : ∀ (client : Client (σ × List Exchange)) (text : String),
      (setup.recorded.layer.call client.layer client.tickets (.send session text)).reply = .returns () :=
    fun client text => atOnce _ _ session text
  unfold notify ask afterCall Outgoing.call
  dsimp only
  rw [hreply]
  rfl

theorem notifyIfPrintable_ends (session method : String) (params : Json) :
    ∃ outcome, (client.notifyIfPrintable setup.recorded session method params).2 = .ends outcome := by
  unfold notifyIfPrintable
  split
  · exact ⟨_, client.notify_atOnce atOnce session method params⟩
  · exact ⟨_, rfl⟩

theorem openDocument_atOnce {id : String} {found : Nat × Session} (ready : client.ready? id = some found)
    (path language text : String) :
    (client.openDocument setup.recorded id path language text).2 = .ends (.ok ()) := by
  rw [openDocument, ready]
  exact notify_atOnce _ atOnce id _ _

theorem changeDocument_atOnce {id : String} {found : Nat × Session} (ready : client.ready? id = some found)
    (path text : String) : (client.changeDocument setup.recorded id path text).2 = .ends (.ok ()) := by
  rw [changeDocument, ready]
  exact notify_atOnce _ atOnce id _ _

theorem closeDocument_atOnce (id path : String) :
    (client.closeDocument setup.recorded id path).2 = .ends (.ok ()) := by
  unfold closeDocument
  split
  · rfl
  · dsimp only
    rw [notify_atOnce _ atOnce]
    rfl

theorem openDocument_ends (id path language text : String) :
    ∃ outcome, (client.openDocument setup.recorded id path language text).2 = .ends outcome := by
  cases hready : client.ready? id with
  | none => exact ⟨_, by rw [openDocument, hready]⟩
  | some found => exact ⟨_, client.openDocument_atOnce atOnce hready path language text⟩

theorem changeDocument_ends (id path text : String) :
    ∃ outcome, (client.changeDocument setup.recorded id path text).2 = .ends outcome := by
  cases hready : client.ready? id with
  | none => exact ⟨_, by rw [changeDocument, hready]⟩
  | some found => exact ⟨_, client.changeDocument_atOnce atOnce hready path text⟩

theorem openBinding_ends (number : Nat) (binding : Binding) (text : String) :
    ∃ outcome, (client.openBinding setup.recorded number binding text).2 = .ends outcome := by
  unfold openBinding
  split
  · next id language _ _ =>
    obtain ⟨outcome, hends⟩ :=
      client.openDocument_ends atOnce id binding.path ((Language.ofEditor language).getD language) text
    dsimp only
    rw [hends]
    obtain fault | ⟨⟩ := outcome <;> exact ⟨_, rfl⟩
  · exact ⟨_, rfl⟩

theorem updateBinding_ends (binding : Binding) (text : String) :
    ∃ outcome, (client.updateBinding setup.recorded binding text).2 = .ends outcome := by
  unfold updateBinding
  split
  · exact ⟨_, rfl⟩
  · exact client.changeDocument_ends atOnce _ _ _

theorem closeBinding_ends (number : Nat) (binding : Binding) (leaving : Bool) :
    ∃ outcome, (client.closeBinding setup.recorded number binding leaving).2 = .ends outcome := by
  unfold closeBinding
  split
  · exact ⟨_, rfl⟩
  · dsimp only
    rw [client.closeDocument_atOnce atOnce]
    exact ⟨_, rfl⟩

end AtOnce

/-! ## What is waited for -/

section Waiting

variable {client : Client (σ × List Exchange)} {setup : Setup σ}

/-- A part of an operation that sends no notification waits for none. -/
theorem isNoticing_inPhase {φ α β : Type} {f : φ → Activity} {g : α → β} {progress : Progress φ α} {activity : Activity}
    (hf : ∀ phase, (f phase).isNoticing = false) (h : (progress.inPhase f).map g = .waits activity) :
    activity.isNoticing = false := by
  cases progress with
  | waits phase =>
    cases h
    exact hf phase
  | ends outcome => cases h

/-- A part of an operation that ends at once is not waited for. -/
theorem not_waits_silently {φ : Type} {f : φ → Activity} {part : Client (σ × List Exchange) × Progress φ Unit}
    (h : ∃ outcome, part.2 = .ends outcome) {activity : Activity} : (silently f part).2 ≠ .waits activity := by
  obtain ⟨outcome, hends⟩ := h
  rw [silently, hends]
  nofun

theorem isNoticing_afterDeparture {scope : Scope} {started : Except Fault String} {closed : Progress ClosePhase Unit}
    {activity : Activity} (h : (client.afterDeparture scope started closed).2 = .waits activity) :
    activity.isNoticing = false := by
  unfold afterDeparture at h
  split at h
  · cases h
    rfl
  · cases h
  · cases h

theorem isNoticing_afterArrival {scope : Scope} {started : Progress JoinPhase String} {activity : Activity}
    (h : (client.afterArrival setup.recorded scope started).2 = .waits activity) : activity.isNoticing = false := by
  cases started with
  | waits phase =>
    cases h
    rfl
  | ends started => exact isNoticing_afterDeparture h

theorem isNoticing_afterServerInspection {language : String} {known : Progress Nat Availability} {activity : Activity}
    (h : (client.afterServerInspection language known).2 = .waits activity) : activity.isNoticing = false := by
  cases known <;> cases h
  rfl

theorem isNoticing_afterDownload {language : String} {got : Progress Nat String} {activity : Activity}
    (h : (client.afterDownload language got).2 = .waits activity) : activity.isNoticing = false := by
  obtain ticket | fault | path := got <;> cases h
  rfl

theorem isNoticing_queried {part : Client (σ × List Exchange) × Progress QueryPhase Answer} {activity : Activity}
    (h : (queried part).2 = .waits activity) : activity.isNoticing = false := by
  obtain ⟨client, phase | outcome⟩ := part <;> cases h
  rfl

theorem isNoticing_withBinding {number : Nat} {f : Binding → Client (σ × List Exchange) × Progress Activity Answer}
    {activity : Activity} (h : (client.withBinding number f).2 = .waits activity)
    (hf : ∀ binding, (f binding).2 = .waits activity → activity.isNoticing = false) : activity.isNoticing = false := by
  unfold withBinding at h
  split at h
  · exact hf _ h
  · cases h

/-- **No operation waits for a notification**, if whatever is to be handed over is handed over at once. -/
theorem isNoticing_beginOperation (atOnce : setup.layer.SendsAtOnce) {operation : Operation} {activity : Activity}
    (h : (client.beginOperation setup.recorded operation).2 = .waits activity) : activity.isNoticing = false := by
  cases operation with
  | enter scope => cases h
  | visit scope language root => exact isNoticing_afterArrival h
  | openDocument id path language text =>
    exact absurd h (not_waits_silently (client.openDocument_ends atOnce id path language text))
  | changeDocument id path text => exact absurd h (not_waits_silently (client.changeDocument_ends atOnce id path text))
  | closeDocument id path => exact absurd h (not_waits_silently ⟨_, client.closeDocument_atOnce atOnce id path⟩)
  | notify id method params => exact absurd h (not_waits_silently (client.notifyIfPrintable_ends atOnce id method params))
  | hover _ _ _ | definition _ _ _ | references _ _ _ _ | symbols _ _ | lookupDefinition _ _ | lookupReferences _ _ =>
    exact isNoticing_queried h
  | inspect language => exact isNoticing_afterServerInspection h
  | download language => exact isNoticing_afterDownload h
  | bindingHover _ _ | bindingDefinition _ _ | bindingReferences _ _ =>
    exact isNoticing_withBinding h fun _ h => isNoticing_queried h
  | connect number => exact isNoticing_withBinding h fun _ h => isNoticing_inPhase (fun _ => rfl) h
  | openBinding number text =>
    exact isNoticing_withBinding h fun binding h =>
      absurd h (not_waits_silently (client.openBinding_ends atOnce number binding text))
  | updateBinding number text =>
    exact isNoticing_withBinding h fun binding h =>
      absurd h (not_waits_silently (client.updateBinding_ends atOnce binding text))
  | closeBinding number =>
    exact isNoticing_withBinding h fun binding h =>
      absurd h (not_waits_silently (client.closeBinding_ends atOnce number binding false))
  | disconnect number =>
    exact isNoticing_withBinding h fun binding h =>
      absurd h (not_waits_silently (client.closeBinding_ends atOnce number binding true))
  | _ => exact isNoticing_inPhase (fun _ => rfl) h

/-- An activity that waits for no notification goes on to wait for none. -/
theorem isNoticing_resumeActivity {cancelled : Bool} {activity later : Activity} (quiet : activity.isNoticing = false)
    (h : (client.resumeActivity setup.recorded cancelled activity).2 = .waits later) : later.isNoticing = false := by
  cases activity with
  | noticing use phase => cases quiet
  | connecting number phase => exact isNoticing_withBinding h fun _ h => isNoticing_inPhase (fun _ => rfl) h
  | arriving scope phase => exact isNoticing_afterArrival h
  | departing scope started phase => exact isNoticing_afterDeparture h
  | querying phase => exact isNoticing_queried h
  | inspecting ticket language => exact isNoticing_afterServerInspection h
  | downloading ticket language => exact isNoticing_afterDownload h
  | _ => exact isNoticing_inPhase (fun _ => rfl) h

end Waiting

end Client

end LanguageSessions
