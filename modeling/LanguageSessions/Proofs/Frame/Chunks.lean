import LanguageSessions.Frame
import Mathlib.Data.List.TakeWhile

/-!
# Chunks of a stream

A stream arrives in chunks that may end anywhere: in a header line, in the end of the header lines, in a character.

- What the reader takes from the front of a stream it takes in the same way when more comes behind it
  (`front_append_unusable`, `front_append_frame`).
- The loop that reads until nothing is taken any more, `Reads`, ends on every stream, with the result of `drain`
  (`reads_iff`); what it leaves cannot be read yet (`front_drain`).
- So reading on with what comes later is the same as reading everything at once (`drain_append`, `readChunks_eq`), and
  the chunks do not matter (`same_texts_in_any_chunks`).
-/

namespace LanguageSessions.Frame

/-! ## More behind a stream -/

/-- The end of header lines has four octets. -/
theorem four_le_of_splitHeader {stream : List UInt8} {parts : List UInt8 × List UInt8}
    (h : splitHeader stream = some parts) : 4 ≤ stream.length := by
  induction stream using splitHeader.induct generalizing parts with
  | case1 rest => simp only [List.length_cons]; omega
  | case2 => cases h
  | case3 octet rest hne ih =>
    rw [splitHeader] at h
    · obtain ⟨parts, h, -⟩ := Option.map_eq_some_iff.1 h
      have := ih h
      simp only [List.length_cons]; omega
    · exact hne

/-- More behind a stream does not move the first end of header lines. -/
theorem splitHeader_append {stream header body : List UInt8} (more : List UInt8)
    (h : splitHeader stream = some (header, body)) : splitHeader (stream ++ more) = some (header, body ++ more) := by
  induction stream using splitHeader.induct generalizing header with
  | case1 rest =>
    simp only [splitHeader, Option.some.injEq, Prod.mk.injEq] at h
    obtain ⟨rfl, rfl⟩ := h
    rfl
  | case2 => cases h
  | case3 octet rest hne ih =>
    rw [splitHeader] at h
    · obtain ⟨⟨header', body'⟩, h, heq⟩ := Option.map_eq_some_iff.1 h
      cases heq
      rw [List.cons_append, splitHeader]
      · rw [ih h]
        rfl
      · -- The rest is too long for an end of header lines that reaches into what comes behind it.
        intro rest' ho hr
        have hlength := four_le_of_splitHeader h
        obtain _ | ⟨a, _ | ⟨b, _ | ⟨c, rest⟩⟩⟩ := rest
        · simp at hlength
        · simp at hlength
        · simp at hlength
        · simp only [List.cons_append, List.cons.injEq] at hr
          obtain ⟨rfl, rfl, rfl, -⟩ := hr
          exact hne rest ho rfl
    · exact hne

theorem front_of_splitHeader {stream header body : List UInt8} (h : splitHeader stream = some (header, body)) :
    front stream = frontOf header body := by
  rw [front, h]

/-- What is at the front and can be read has an end of header lines, and what comes behind it is behind that end. -/
theorem front_append {stream : List UInt8} (more : List UInt8) (h : front stream ≠ .partly) :
    ∃ header body, front stream = frontOf header body ∧ front (stream ++ more) = frontOf header (body ++ more) := by
  cases hs : splitHeader stream with
  | none => exact absurd (by rw [front, hs]) h
  | some parts =>
    exact ⟨parts.1, parts.2, front_of_splitHeader hs, front_of_splitHeader (splitHeader_append more hs)⟩

/-- An unusable header block stays one when more comes behind it. -/
theorem front_append_unusable {stream rest : List UInt8} (more : List UInt8) (h : front stream = .unusable rest) :
    front (stream ++ more) = .unusable (rest ++ more) := by
  have hne : front stream ≠ .partly := by rw [h]; nofun
  obtain ⟨header, body, hf, hmore⟩ := front_append more hne
  rw [hmore]
  rw [hf] at h
  unfold frontOf at h ⊢
  split at h
  · split at h <;> cases h
  · cases h
    rfl

/-- A whole frame stays one when more comes behind it. -/
theorem front_append_frame {stream rest : List UInt8} {text : List Char} (more : List UInt8)
    (h : front stream = .frame text rest) : front (stream ++ more) = .frame text (rest ++ more) := by
  have hne : front stream ≠ .partly := by rw [h]; nofun
  obtain ⟨header, body, hf, hmore⟩ := front_append more hne
  rw [hmore]
  rw [hf] at h
  unfold frontOf at h ⊢
  split at h
  · next length _ =>
    split at h
    · cases h
    · next hl =>
      cases h
      have hl' : ¬ (body ++ more).length < length + 1 := by rw [List.length_append]; omega
      simp only [hl', if_false, List.take_append_of_le_length (Nat.le_of_not_lt hl),
        List.drop_append_of_le_length (Nat.le_of_not_lt hl)]
  · cases h

/-! ## The reading loop -/

theorem drain_of_partly {stream : List UInt8} (h : front stream = .partly) : drain stream = ([], stream) := by
  rw [drain.eq_def]
  split <;> simp_all

theorem drain_of_unusable {stream rest : List UInt8} (h : front stream = .unusable rest) :
    drain stream = drain rest := by
  rw [drain.eq_def]
  split <;> simp_all

theorem drain_of_frame {stream rest : List UInt8} {text : List Char} (h : front stream = .frame text rest) :
    drain stream = (text :: (drain rest).1, (drain rest).2) := by
  rw [drain.eq_def]
  split <;> simp_all

/-- One attempt to read: the text at the front, if there is one, and what is left of the stream. -/
def read (stream : List UInt8) : Option (List Char) × List UInt8 :=
  match front stream with
  | .partly => (none, stream)
  | .unusable rest => (none, rest)
  | .frame text rest => (some text, rest)

/-- The loop that reads again and again: it stops when there is neither a text nor less left than before. The texts it
came upon and what it left stand at the end. -/
inductive Reads : List UInt8 → List (List Char) → List UInt8 → Prop where
  | stop {stream : List UInt8} (h : read stream = (none, stream)) : Reads stream [] stream
  | go {stream left : List UInt8} {texts : List (List Char)} (h : read stream ≠ (none, stream))
      (further : Reads (read stream).2 texts left) : Reads stream ((read stream).1.toList ++ texts) left

/-- The loop stops only where nothing can be read yet. -/
theorem read_eq_self_iff {stream : List UInt8} : read stream = (none, stream) ↔ front stream = .partly := by
  rw [read]
  cases hf : front stream with
  | partly => exact iff_of_true rfl rfl
  | unusable rest =>
    refine iff_of_false (fun h => ?_) nofun
    have := length_of_unusable hf
    rw [(Prod.mk.inj h).2] at this
    omega
  | frame text rest => exact iff_of_false nofun nofun

/-- Each turn of the loop that goes on leaves less to read. -/
theorem length_read_lt {stream : List UInt8} (h : read stream ≠ (none, stream)) :
    (read stream).2.length < stream.length := by
  rw [Ne, read_eq_self_iff] at h
  rw [read]
  cases hf : front stream with
  | partly => exact absurd hf h
  | unusable rest => exact length_of_unusable hf
  | frame text rest => exact length_of_frame hf

theorem drain_read {stream : List UInt8} (h : read stream ≠ (none, stream)) :
    drain stream = ((read stream).1.toList ++ (drain (read stream).2).1, (drain (read stream).2).2) := by
  rw [Ne, read_eq_self_iff] at h
  rw [read]
  cases hf : front stream with
  | partly => exact absurd hf h
  | unusable rest => exact drain_of_unusable hf
  | frame text rest => exact drain_of_frame hf

/-- The loop comes to its end on every stream. -/
theorem reads_drain (stream : List UInt8) : Reads stream (drain stream).1 (drain stream).2 := by
  by_cases h : read stream = (none, stream)
  · rw [drain_of_partly (read_eq_self_iff.1 h)]
    exact .stop h
  · rw [drain_read h]
    exact .go h (reads_drain (read stream).2)
  termination_by stream.length
  decreasing_by exact length_read_lt h

/-- **The loop ends with one result**, which is the one of `drain`. -/
theorem reads_iff {stream left : List UInt8} {texts : List (List Char)} :
    Reads stream texts left ↔ drain stream = (texts, left) := by
  constructor
  · intro h
    induction h with
    | stop h => exact drain_of_partly (read_eq_self_iff.1 h)
    | go h _ ih => rw [drain_read h, ih]
  · intro h
    have := reads_drain stream
    rwa [h] at this

/-- What the loop leaves cannot be read yet. -/
theorem front_drain (stream : List UInt8) : front (drain stream).2 = .partly := by
  have h := reads_drain stream
  generalize (drain stream).1 = texts, (drain stream).2 = left at h
  induction h with
  | stop h => exact read_eq_self_iff.1 h
  | go _ _ ih => exact ih

/-! ## Chunks -/

/-- Reading what stands there first, and then what is left of it with more behind it, is reading all of it. -/
theorem drain_append (stream more : List UInt8) :
    drain (stream ++ more) =
      ((drain stream).1 ++ (drain ((drain stream).2 ++ more)).1, (drain ((drain stream).2 ++ more)).2) := by
  cases hf : front stream with
  | partly =>
    rw [drain_of_partly hf]
    rfl
  | unusable rest =>
    have := length_of_unusable hf
    rw [drain_of_unusable hf, drain_of_unusable (front_append_unusable more hf), drain_append rest more]
  | frame text rest =>
    have := length_of_frame hf
    rw [drain_of_frame hf, drain_of_frame (front_append_frame more hf), drain_append rest more]
    rfl
  termination_by stream.length

theorem readChunks_cons (left chunk : List UInt8) (chunks : List (List UInt8)) :
    readChunks left (chunk :: chunks) =
      ((drain (left ++ chunk)).1 ++ (readChunks (drain (left ++ chunk)).2 chunks).1,
        (readChunks (drain (left ++ chunk)).2 chunks).2) := rfl

/-- The chunks are read like what they make up together. -/
theorem readChunks_eq : ∀ {left : List UInt8} (chunks : List (List UInt8)), front left = .partly →
    readChunks left chunks = drain (left ++ chunks.flatten)
  | left, [], h => by
    rw [List.flatten_nil, List.append_nil, drain_of_partly h]
    rfl
  | left, chunk :: chunks, _ => by
    rw [readChunks_cons, readChunks_eq chunks (front_drain _), List.flatten_cons, ← List.append_assoc,
      drain_append (left ++ chunk)]

theorem readChunks_nil (chunks : List (List UInt8)) : readChunks [] chunks = drain chunks.flatten := by
  rw [readChunks_eq chunks rfl, List.nil_append]

/-- A stream whose chunks are not empty is read to its end. -/
theorem readStream_eq {chunks : List (List UInt8)} (h : ∀ chunk ∈ chunks, chunk ≠ []) :
    readStream chunks = (drain chunks.flatten).1 := by
  have ht : ∀ chunk ∈ chunks, (!chunk.isEmpty) = true := fun chunk hc => by
    rw [Bool.not_eq_true', List.isEmpty_eq_false_iff]
    exact h chunk hc
  rw [readStream, List.takeWhile_eq_self_iff.2 ht, readChunks_nil]

/-- **The chunks do not matter.** After each chunk the loop comes to its end with one result, and two streams of the
same octets give the same texts and leave the same octets, however they are cut into chunks. -/
theorem same_texts_in_any_chunks {chunks others : List (List UInt8)} (h : chunks.flatten = others.flatten)
    (hc : ∀ chunk ∈ chunks, chunk ≠ []) (ho : ∀ chunk ∈ others, chunk ≠ []) :
    (∀ stream texts left, Reads stream texts left ↔ drain stream = (texts, left)) ∧
      readChunks [] chunks = readChunks [] others ∧ readStream chunks = readStream others := by
  refine ⟨fun stream texts left => reads_iff, ?_, ?_⟩
  · rw [readChunks_nil, readChunks_nil, h]
  · rw [readStream_eq hc, readStream_eq ho, h]

/-- A frame that is cut inside the end of its header lines and inside its one character of two octets. -/
theorem frame_cut_inside_a_character :
    readStream [[67, 111, 110, 116, 101, 110, 116, 45, 76, 101, 110, 103, 116, 104, 58, 50, 13, 10, 13],
        [10, 195], [169]] =
      readStream [[67, 111, 110, 116, 101, 110, 116, 45, 76, 101, 110, 103, 116, 104, 58, 50, 13, 10, 13,
        10, 195, 169]] :=
  (same_texts_in_any_chunks (by decide) (by decide) (by decide)).2.2

end LanguageSessions.Frame
