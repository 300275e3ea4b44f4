import Mathlib.Data.List.Basic

set_option relaxedAutoImplicit false
set_option autoImplicit false

/-!
# Messages over a stream

A connection carries bytes, and they arrive in pieces of any length. A reader that is not misled by
what comes behind its message reads the same from a piece as from the whole stream, so a stream does
what a queue of messages does, as long as each message can be told from what follows it.

## Main definitions

* `Steady` — a reader whose result does not depend on what comes behind.
* `Coding`, `Coding.ReadBy` — how messages are sent, and a reader that understands them.
* `ByteStream` — the bytes that are under way and those that have arrived.
* `ByteStream.Carries` — the bytes of a stream are those of some messages.

## Main results

* `Steady.bind`, `Steady.map`, `Steady.ite` — readers made of steady readers are steady.
* `ByteStream.Carries.receive` — what is received is the first message.
* `ByteStream.Carries.exists_receive` — once it has arrived, it is received.
-/

namespace OsSimulator

universe u v w

variable {β : Type u}

/-! ## Steady readers -/

/-- More bytes behind change neither what is read nor that it is read. -/
def Steady {ρ : Type v} (read : List β → Option (ρ × List β)) : Prop :=
  ∀ bytes result rest more, read bytes = some (result, rest) →
    read (bytes ++ more) = some (result, rest ++ more)

section Readers

variable {ρ : Type v} {τ : Type w} {read : List β → Option (ρ × List β)}

/-- A reader that reads nothing more. -/
lemma steady_some (result : ρ) : Steady fun bytes : List β => some (result, bytes) := by
  intro bytes result' rest more h
  obtain ⟨rfl, rfl⟩ := Prod.mk.inj (Option.some.inj h)
  rfl

/-- A reader that fails. -/
lemma steady_none : Steady fun _ : List β => (none : Option (ρ × List β)) :=
  fun _ _ _ _ h => absurd h (by simp)

/-- A reader that reads nothing more, and fails if there is no result. -/
lemma steady_option (result : Option ρ) (f : ρ → τ) :
    Steady fun bytes : List β => result.map fun value => (f value, bytes) := by
  cases result with
  | none => exact steady_none
  | some result => exact steady_some (f result)

/-- **One reader behind another.** -/
lemma Steady.bind {next : ρ → List β → Option (τ × List β)} (h : Steady read)
    (hnext : ∀ result, Steady (next result)) :
    Steady fun bytes => (read bytes).bind fun received => next received.1 received.2 := by
  intro bytes result rest more hread
  obtain ⟨⟨first, behind⟩, hfirst, hsecond⟩ := Option.bind_eq_some_iff.1 hread
  show (read (bytes ++ more)).bind _ = _
  rw [h bytes first behind more hfirst, Option.bind_some]
  exact hnext first behind result rest more hsecond

/-- What was read is turned into something else. -/
lemma Steady.map (f : ρ → τ) (h : Steady read) :
    Steady fun bytes => (read bytes).map fun received => (f received.1, received.2) := by
  intro bytes result rest more hread
  obtain ⟨⟨first, behind⟩, hfirst, heq⟩ := Option.map_eq_some_iff.1 hread
  obtain ⟨rfl, rfl⟩ := Prod.mk.inj heq
  show (read (bytes ++ more)).map _ = _
  rw [h bytes first behind more hfirst, Option.map_some]

/-- Two readers that are chosen from by what was read before. -/
lemma Steady.ite {p : Prop} [Decidable p] {read' : List β → Option (ρ × List β)} (h : Steady read)
    (h' : Steady read') : Steady fun bytes => if p then read bytes else read' bytes := by
  split
  · exact h
  · exact h'

end Readers

/-! ## The coding of a message -/

/-- How messages are sent, and which ones can be. -/
structure Coding (β : Type u) (μ : Type v) where
  encode : μ → List β
  Valid : μ → Prop

namespace Coding

variable {μ : Type v}

/-- The bytes of messages that follow one another. -/
def encodeAll (coding : Coding β μ) (messages : List μ) : List β := messages.flatMap coding.encode

/-- A reader that understands the messages: it takes one of them and no byte behind it. -/
structure ReadBy {ρ : Type w} (coding : Coding β μ) (read : List β → Option (ρ × List β))
    (result : μ → ρ) : Prop where
  steady : Steady read
  read_nil : read [] = none
  read_encode : ∀ message rest, coding.Valid message →
    read (coding.encode message ++ rest) = some (result message, rest)

end Coding

/-! ## The stream -/

/-- One direction of a connection: the bytes that are under way, and those that have arrived and not
been read. -/
structure ByteStream (β : Type u) where
  underWay : List β
  arrived : List β
  deriving DecidableEq, Repr

namespace ByteStream

/-- Nothing was sent. -/
def empty : ByteStream β := ⟨[], []⟩

/-- All bytes that have not been read. -/
def bytes (s : ByteStream β) : List β := s.arrived ++ s.underWay

/-- Bytes are sent. -/
def send (sent : List β) (s : ByteStream β) : ByteStream β :=
  { s with underWay := s.underWay ++ sent }

/-- The first bytes under way arrive. -/
def arrive (n : ℕ) (s : ByteStream β) : ByteStream β :=
  ⟨s.underWay.drop n, s.arrived ++ s.underWay.take n⟩

/-- What is sent comes behind what is under way. -/
@[simp] lemma bytes_send (sent : List β) (s : ByteStream β) :
    (s.send sent).bytes = s.bytes ++ sent := by
  simp [send, bytes]

/-- What arrives was under way. -/
@[simp] lemma bytes_arrive (n : ℕ) (s : ByteStream β) : (s.arrive n).bytes = s.bytes := by
  simp [arrive, bytes]

/-- What a steady reader finds in the part that has arrived, it would find in the whole. -/
lemma read_bytes {ρ : Type w} {read : List β → Option (ρ × List β)} (h : Steady read)
    {s : ByteStream β} {result : ρ} {rest : List β} (hread : read s.arrived = some (result, rest)) :
    read s.bytes = some (result, (⟨s.underWay, rest⟩ : ByteStream β).bytes) :=
  h s.arrived result rest s.underWay hread

/-- What is read of the only message of a stream is all of it, and nothing is left. -/
lemma read_only {ρ : Type w} {read : List β → Option (ρ × List β)} (h : Steady read)
    {s : ByteStream β} {result result' : ρ} {rest : List β} {sent : List β}
    (hread : read s.arrived = some (result, rest)) (hbytes : s.bytes = sent)
    (hsent : read sent = some (result', [])) :
    result = result' ∧ (⟨s.underWay, rest⟩ : ByteStream β).bytes = [] := by
  have hwhole := read_bytes h hread
  rw [hbytes, hsent] at hwhole
  obtain ⟨hresult, hrest⟩ := Prod.mk.inj (Option.some.inj hwhole)
  exact ⟨hresult.symm, hrest.symm⟩

/-- When everything has arrived, a reader finds what is in the whole. -/
lemma read_arrived {ρ : Type w} {read : List β → Option (ρ × List β)} {s : ByteStream β}
    {result : ρ} {rest : List β} (hread : read s.bytes = some (result, rest)) :
    read (s.arrive s.underWay.length).arrived = some (result, rest) := by
  simpa [arrive, bytes] using hread

variable {μ : Type v} {coding : Coding β μ} {s : ByteStream β} {messages : List μ}

/-- **The stream stands for a queue of messages.** -/
structure Carries (coding : Coding β μ) (s : ByteStream β) (messages : List μ) : Prop where
  bytes : s.bytes = coding.encodeAll messages
  valid : ∀ message ∈ messages, coding.Valid message

/-- An empty stream carries nothing. -/
lemma carries_empty : (empty : ByteStream β).Carries coding [] := ⟨rfl, by simp⟩

/-- Messages are sent. -/
lemma Carries.send (h : s.Carries coding messages) {more : List μ}
    (hmore : ∀ message ∈ more, coding.Valid message) :
    (s.send (coding.encodeAll more)).Carries coding (messages ++ more) := by
  refine ⟨?_, fun message hmem => ?_⟩
  · rw [bytes_send, h.bytes, Coding.encodeAll, Coding.encodeAll, Coding.encodeAll,
      List.flatMap_append]
  · rcases List.mem_append.1 hmem with hold | hnew
    · exact h.valid message hold
    · exact hmore message hnew

/-- Bytes arrive. -/
lemma Carries.arrive (h : s.Carries coding messages) (n : ℕ) :
    (s.arrive n).Carries coding messages :=
  ⟨by rw [bytes_arrive, h.bytes], h.valid⟩

/-- What is in the stream when a message is the first one. -/
lemma Carries.bytes_cons {message : μ} {rest : List μ} (h : s.Carries coding (message :: rest)) :
    s.bytes = coding.encode message ++ coding.encodeAll rest := by
  rw [h.bytes, Coding.encodeAll, List.flatMap_cons, Coding.encodeAll]

/-- **What is received is the first message**, and the stream stands for the others. -/
lemma Carries.receive {ρ : Type w} {read : List β → Option (ρ × List β)} {result : μ → ρ}
    (h : s.Carries coding messages) (hreader : coding.ReadBy read result) {received : ρ}
    {behind : List β} (hread : read s.arrived = some (received, behind)) :
    ∃ message rest, messages = message :: rest ∧ received = result message ∧
      (⟨s.underWay, behind⟩ : ByteStream β).Carries coding rest := by
  have hwhole := read_bytes hreader.steady hread
  cases messages with
  | nil =>
    rw [h.bytes, show coding.encodeAll [] = [] from rfl, hreader.read_nil] at hwhole
    exact absurd hwhole (by simp)
  | cons first rest =>
    rw [h.bytes_cons, hreader.read_encode first _ (h.valid first List.mem_cons_self)] at hwhole
    obtain ⟨rfl, hrest⟩ := Prod.mk.inj (Option.some.inj hwhole)
    exact ⟨first, rest, rfl, rfl, hrest.symm, fun m hm => h.valid m (List.mem_cons_of_mem _ hm)⟩

/-- **A message that was sent is received** as soon as all of it has arrived. -/
lemma Carries.exists_receive {ρ : Type w} {read : List β → Option (ρ × List β)} {result : μ → ρ}
    {message : μ} {rest : List μ} (h : s.Carries coding (message :: rest))
    (hreader : coding.ReadBy read result) :
    ∃ behind, read (s.arrive s.underWay.length).arrived = some (result message, behind) := by
  refine ⟨_, read_arrived (h.bytes_cons ▸ hreader.read_encode message _ ?_)⟩
  exact h.valid message List.mem_cons_self

end ByteStream

end OsSimulator
