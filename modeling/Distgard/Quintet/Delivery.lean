import Distgard.Lib.Family
import Distgard.Lib.Run
import Distgard.Quintet.Codec
import Mathlib.Algebra.Order.BigOperators.Group.Multiset
import Mathlib.Algebra.BigOperators.Intervals

/-!
# What arrives of what is sent

One direction of a connection. A message that is sent waits in the queue of its channel. The task of
the channel takes it from there: one of an ordered channel writes it to its stream, one of an
unordered channel to a stream of its own, and one of an unreliable channel sends it as a datagram. The
tasks of the other end read the streams, each by itself, and the datagrams, and put what they read in
one queue, from which it is received. A task that reads waits while this queue is full.

## The model

The events of a connection are what its ends and their tasks do, and what the network does: any
bytes of a stream may arrive, in its order; a datagram may be lost, or arrive. They happen in any
order. A task whose message is too long, or whose stream is not read any more, reports that the
connection is lost, and the end that sends disconnects when it hears of that. It accepts no message
then; the tasks may still do their work, as long as the connection is there.

The channels are those of the configuration, and none is opened later. A stream can be opened whenever
a task wants one, and neither the network nor the other end breaks the connection off. `accepted` and
`received` are records: what each channel was given, and what was received.

## What is proved

* `received_spec` — in every run, of an ordered channel a first part of what arrives of its messages
  has been received, in their order; of an unordered one some of those that are not too long; and
  of an unreliable one some of those that are not empty. None is received more often than it was sent.
* `unbroken_of_short` — the connection is lost only if a reliable channel was given a message that is
  too long.
* `delivery_completes` — unless something is sent or closed, only so much can happen; and when nothing
  has to happen any more and the connection is not lost, all that arrives of the messages of the
  reliable channels has been received.
-/

namespace Distgard.Quintet

open Lib

/-- A stream, and the task that reads it. -/
structure Stream where
  /-- What the task has got and not used, unless it has given up. -/
  reader : Except Ending (DecodeState × Bytes)
  /-- What has been written and has not arrived. -/
  inFlight : Bytes

namespace Stream

/-- A stream that has been opened. -/
def fresh : Stream := ⟨.ok (.Head, []), []⟩

/-- Write to a stream. -/
def write (t : Stream) (bytes : Bytes) : Stream := { t with inFlight := t.inFlight ++ bytes }

/-- The task waits for bytes, and the next `n + 1` arrive. -/
def arrive (t : Stream) (n : ℕ) : Option Stream :=
  match t.reader with
  | .ok (state, buffer) =>
    match receiver.decode state buffer with
    | .wait state rest =>
      if n < t.inFlight.length then
        some ⟨.ok (state, rest ++ t.inFlight.take (n + 1)), t.inFlight.drop (n + 1)⟩
      else
        none
    | _ => none
  | .error _ => none

/-- The task has got a message, or gives up. -/
def next (t : Stream) : Option (Option (ChannelId × Bytes) × Stream) :=
  match t.reader with
  | .ok (state, buffer) =>
    match receiver.decode state buffer with
    | .item msg state rest => some (some msg, { t with reader := .ok (state, rest) })
    | .fail e => some (none, { t with reader := .error e })
    | .wait _ _ => none
  | .error _ => none

end Stream

/-- The streams of a connection. -/
inductive StreamId where
  /-- The one of an ordered channel. -/
  | ordered (id : ChannelId)
  /-- One of those that carry one message. -/
  | single (i : ℕ)
  deriving DecidableEq

/-- One direction of a connection. -/
structure Link where
  /-- The channels that have been closed. -/
  closed : ChannelId → Bool
  /-- What waits for the tasks of the channels. -/
  queue : ChannelId → List Bytes
  /-- The streams. -/
  streams : StreamId → Stream
  /-- How many streams for one message have been opened. -/
  opened : ℕ
  /-- The datagrams on their way. -/
  datagrams : List Bytes
  /-- What has been read and not received. -/
  incoming : List (ChannelId × Bytes)
  /-- A task has reported that the connection is lost. -/
  lostConnection : Bool
  /-- The end that sends has disconnected. -/
  ended : Bool
  /-- What the channels were given. -/
  accepted : ChannelId → List Bytes
  /-- What was received. -/
  received : List (ChannelId × Bytes)

namespace Link

/-- A connection that has been opened. -/
def fresh : Link where
  closed _ := false
  queue _ := []
  streams _ := .fresh
  opened := 0
  datagrams := []
  incoming := []
  lostConnection := false
  ended := false
  accepted _ := []
  received := []

/-- What happens. -/
inductive Event where
  /-- A message is sent. -/
  | send (id : ChannelId) (payload : Bytes)
  /-- A channel is closed. -/
  | close (id : ChannelId)
  /-- The task of a channel takes a message; if it is to be a datagram, it may be refused. The task may have
  been told that the channel is closed. -/
  | work (id : ChannelId) (fits closing : Bool)
  /-- A task hears that its stream is not read any more. -/
  | stopped (stream : StreamId)
  /-- The end that sends hears that the connection is lost. -/
  | lose
  /-- Bytes of a stream arrive. -/
  | arrive (stream : StreamId) (n : ℕ)
  /-- The task that reads a stream goes on. -/
  | next (stream : StreamId)
  /-- A datagram is lost. -/
  | loseDatagram (i : ℕ)
  /-- A datagram arrives. -/
  | readDatagram (i : ℕ)
  /-- A message is received. -/
  | receive

variable (config : ChannelsConfiguration)

/-- The type of a channel. -/
def kind (id : ChannelId) : Option ChannelType := config.channels[id.toNat]?

/-- Send a message on a channel. -/
def sendPayloadOn (s : Link) (id : ChannelId) (payload : Bytes) : Except QuintetError Link :=
  match kind config id with
  | none => .error (.UnknownChannel id)
  | some _ =>
    if s.ended then
      .error .ConnectionClosed
    else if s.closed id then
      .error .ChannelClosed
    else if DEFAULT_MESSAGE_QUEUE_SIZE ≤ (s.queue id).length then
      .error .FullQueue
    else
      .ok { s with
        queue := Function.update s.queue id (s.queue id ++ [payload])
        accepted := Function.update s.accepted id (s.accepted id ++ [payload]) }

/-- A task passes on what it has read, if there is room. -/
def push (s : Link) (msg : ChannelId × Bytes) : Option Link :=
  if s.incoming.length < DEFAULT_MESSAGE_QUEUE_SIZE then some { s with incoming := s.incoming ++ [msg] } else none

/-- What a task does with the message that it has taken; one that has been told that its channel is closed
reports nothing. -/
def sendMessage (s : Link) (id : ChannelId) (fits closing : Bool) (msg : Bytes) : ChannelType → Link
  | .OrderedReliable =>
    match encode id DEFAULT_MAX_RELIABLE_FRAME_LEN msg [] with
    | .ok bytes => { s with streams := Function.update s.streams (.ordered id) ((s.streams (.ordered id)).write bytes) }
    | .error _ => { s with lostConnection := s.lostConnection || !closing }
  | .UnorderedReliable =>
    match encode id DEFAULT_MAX_RELIABLE_FRAME_LEN msg [] with
    | .ok bytes => { s with
        streams := Function.update s.streams (.single s.opened) ((s.streams (.single s.opened)).write bytes)
        opened := s.opened + 1 }
    | .error _ => { s with opened := s.opened + 1, lostConnection := s.lostConnection || !closing }
  | .Unreliable => if fits then { s with datagrams := s.datagrams ++ [id :: msg] } else s

/-- The task that reads datagrams has got one. -/
def readDatagram (s : Link) (msgBytes : Bytes) : Option Link :=
  match msgBytes with
  | channelId :: b :: payload => s.push (channelId, b :: payload)
  | _ => some s

/-- What an event does. -/
def step (s : Link) : Event → Option Link
  | .send id payload => (sendPayloadOn config s id payload).toOption
  | .close id => some { s with closed := Function.update s.closed id true }
  | .work id fits closing =>
    match kind config id, s.queue id with
    | some channelType, msg :: msgs =>
      if closing && !s.closed id && !s.ended then none
      else some (sendMessage { s with queue := Function.update s.queue id msgs } id fits closing msg channelType)
    | _, _ => none
  | .stopped stream =>
    match (s.streams stream).reader with
    | .error _ => if s.lostConnection then none else some { s with lostConnection := true }
    | .ok _ => none
  | .lose => if s.lostConnection && !s.ended then some { s with ended := true } else none
  | .arrive stream n =>
    (s.streams stream).arrive n |>.map fun t => { s with streams := Function.update s.streams stream t }
  | .next stream =>
    (s.streams stream).next.bind fun r =>
      let s := { s with streams := Function.update s.streams stream r.2 }
      match r.1 with
      | some msg => s.push msg
      | none => some s
  | .loseDatagram i => if i < s.datagrams.length then some { s with datagrams := s.datagrams.eraseIdx i } else none
  | .readDatagram i =>
    s.datagrams[i]?.bind fun msgBytes => { s with datagrams := s.datagrams.eraseIdx i }.readDatagram msgBytes
  | .receive =>
    match s.incoming with
    | msg :: msgs => some { s with incoming := msgs, received := s.received ++ [msg] }
    | [] => none

end Link

/-! ### Streams -/

namespace Stream

variable {t t' : Stream}

/-- The messages that will be read of a stream, if nothing but `more` is written to it. -/
def future (t : Stream) (more : Bytes) : List (ChannelId × Bytes) :=
  match t.reader with
  | .ok (state, buffer) => (receiver.readAll state (buffer ++ (t.inFlight ++ more))).1
  | .error _ => []

@[simp] theorem future_fresh : fresh.future [] = [] :=
  congrArg Prod.fst readAll_nil

theorem future_write (t : Stream) (bytes more : Bytes) : (t.write bytes).future more = t.future (bytes ++ more) := by
  unfold future write
  rw [List.append_assoc]

/-- It does not matter when bytes arrive. -/
theorem future_arrive {n : ℕ} (h : t.arrive n = some t') (more : Bytes) : t'.future more = t.future more := by
  unfold arrive at h
  split at h
  · next state buffer hreader =>
    split at h
    · next state' rest hdecode =>
      split at h
      · cases h
        simp only [future, hreader]
        rw [Decoder.readAll_of_wait hdecode, List.append_assoc, ← List.append_assoc (t.inFlight.take _),
          List.take_append_drop]
      · cases h
    · cases h
  · cases h

/-- What is read is the first message of those that will be read. -/
theorem future_next {r : Option (ChannelId × Bytes)} (h : t.next = some (r, t')) (more : Bytes) :
    t.future more = r.toList ++ t'.future more := by
  unfold next at h
  split at h
  · next state buffer hreader =>
    split at h
    · next msg state' rest hdecode =>
      cases h
      simp only [future, hreader]
      rw [Decoder.readAll_item (Decoder.item_append _ hdecode _)]
      rfl
    · next e hdecode =>
      cases h
      simp only [future, hreader]
      rw [Decoder.readAll_fail (Decoder.fail_append _ hdecode _)]
      rfl
    · cases h
  · cases h

/-- The task that reads a stream will read all messages that are written to it and are not too long. -/
def Alive (t : Stream) : Prop :=
  ∀ msgs : List (ChannelId × Bytes), (∀ msg ∈ msgs, msg.2.length < DEFAULT_MAX_RELIABLE_FRAME_LEN) →
    t.future (msgs.flatMap frame) = t.future [] ++ msgs

theorem Alive.write (h : t.Alive) {msg : ChannelId × Bytes} (hmsg : msg.2.length < DEFAULT_MAX_RELIABLE_FRAME_LEN) :
    (t.write (frame msg)).Alive := by
  intro msgs hmsgs
  have hall := h (msg :: msgs) (List.forall_mem_cons.mpr ⟨hmsg, hmsgs⟩)
  have hone := h [msg] (by simpa using hmsg)
  rw [List.flatMap_cons] at hall
  rw [List.flatMap_singleton] at hone
  rw [future_write, future_write, hall, List.append_nil, hone, List.append_assoc]
  rfl

theorem Alive.arrive (h : t.Alive) {n : ℕ} (harrive : t.arrive n = some t') : t'.Alive := by
  intro msgs hmsgs
  rw [future_arrive harrive, future_arrive harrive]
  exact h msgs hmsgs

theorem Alive.next (h : t.Alive) {r : Option (ChannelId × Bytes)} (hnext : t.next = some (r, t')) : t'.Alive := by
  intro msgs hmsgs
  have hall := h msgs hmsgs
  rw [future_next hnext, future_next hnext [], List.append_assoc] at hall
  exact List.append_cancel_left hall

/-- It has not given up. -/
theorem Alive.reader_ne_error (h : t.Alive) (e : Ending) : t.reader ≠ .error e := by
  intro hreader
  have hone := h [(0, [])] (by decide)
  simp [future, hreader] at hone

/-- What is left to be done with a stream. -/
def load (t : Stream) : ℕ :=
  3 * t.inFlight.length +
    match t.reader with
    | .ok (state, buffer) => 2 * (buffer.length + state.weight) + 1
    | .error _ => 0

end Stream

/-! ### What an event can do -/

namespace Link

variable {config : ChannelsConfiguration} {s s' : Link} {id : ChannelId}

/-- The message of a datagram: one without bytes is left out. -/
def ofDatagram : Bytes → Option (ChannelId × Bytes)
  | channelId :: b :: payload => some (channelId, b :: payload)
  | _ => none

theorem push_eq_some {msg : ChannelId × Bytes} (h : s.push msg = some s') :
    s' = { s with incoming := s.incoming ++ [msg] } := by
  unfold push at h
  split at h
  · exact (Option.some.inj h).symm
  · cases h

theorem step_send {payload : Bytes} (h : step config s (.send id payload) = some s') :
    kind config id ≠ none ∧ s' = { s with
      queue := Function.update s.queue id (s.queue id ++ [payload])
      accepted := Function.update s.accepted id (s.accepted id ++ [payload]) } := by
  unfold step sendPayloadOn at h
  dsimp only at h
  split at h
  · cases h
  · next hkind =>
    split at h
    · cases h
    · split at h
      · cases h
      · split at h
        · cases h
        · cases h
          exact ⟨by rw [hkind]; simp, rfl⟩

theorem step_work {fits closing : Bool} (h : step config s (.work id fits closing) = some s') :
    ∃ channelType msg msgs, kind config id = some channelType ∧ s.queue id = msg :: msgs ∧
      s' = sendMessage { s with queue := Function.update s.queue id msgs } id fits closing msg channelType := by
  unfold step at h
  dsimp only at h
  split at h
  · next channelType msg msgs hkind hqueue =>
    split at h
    · cases h
    · cases h
      exact ⟨channelType, msg, msgs, hkind, hqueue, rfl⟩
  · cases h

theorem step_stopped {stream : StreamId} (h : step config s (.stopped stream) = some s') :
    (∃ e, (s.streams stream).reader = .error e) ∧ s.lostConnection = false ∧ s' = { s with lostConnection := true } := by
  unfold step at h
  dsimp only at h
  split at h
  · next e hreader =>
    split at h
    · cases h
    · next hlost => exact ⟨⟨e, hreader⟩, Bool.eq_false_iff.mpr hlost, (Option.some.inj h).symm⟩
  · cases h

theorem step_lose (h : step config s .lose = some s') :
    s.lostConnection = true ∧ s.ended = false ∧ s' = { s with ended := true } := by
  unfold step at h
  dsimp only at h
  split at h
  · next hlost =>
    rw [Bool.and_eq_true, Bool.not_eq_true'] at hlost
    exact ⟨hlost.1, hlost.2, (Option.some.inj h).symm⟩
  · cases h

theorem step_arrive {stream : StreamId} {n : ℕ} (h : step config s (.arrive stream n) = some s') :
    ∃ t, (s.streams stream).arrive n = some t ∧ s' = { s with streams := Function.update s.streams stream t } := by
  obtain ⟨t, ht, rfl⟩ := Option.map_eq_some_iff.mp h
  exact ⟨t, ht, rfl⟩

theorem step_next {stream : StreamId} (h : step config s (.next stream) = some s') :
    ∃ r t, (s.streams stream).next = some (r, t) ∧
      s' = { s with streams := Function.update s.streams stream t, incoming := s.incoming ++ r.toList } := by
  obtain ⟨⟨r, t⟩, hnext, hpush⟩ := Option.bind_eq_some_iff.mp h
  rcases r with _ | msg
  · cases hpush
    exact ⟨none, t, hnext, by simp⟩
  · exact ⟨some msg, t, hnext, push_eq_some hpush⟩

theorem step_loseDatagram {i : ℕ} (h : step config s (.loseDatagram i) = some s') :
    i < s.datagrams.length ∧ s' = { s with datagrams := s.datagrams.eraseIdx i } := by
  unfold step at h
  dsimp only at h
  split at h
  · next hi => exact ⟨hi, (Option.some.inj h).symm⟩
  · cases h

theorem step_readDatagram {i : ℕ} (h : step config s (.readDatagram i) = some s') :
    ∃ msgBytes, s.datagrams[i]? = some msgBytes ∧
      s' = { s with datagrams := s.datagrams.eraseIdx i, incoming := s.incoming ++ (ofDatagram msgBytes).toList } := by
  obtain ⟨msgBytes, hi, hread⟩ := Option.bind_eq_some_iff.mp h
  refine ⟨msgBytes, hi, ?_⟩
  unfold readDatagram at hread
  unfold ofDatagram
  split at hread
  · exact push_eq_some hread
  · next hne =>
    cases hread
    simp

theorem step_receive (h : step config s .receive = some s') :
    ∃ msg msgs, s.incoming = msg :: msgs ∧ s' = { s with incoming := msgs, received := s.received ++ [msg] } := by
  unfold step at h
  dsimp only at h
  split at h
  · next msg msgs hincoming =>
    cases h
    exact ⟨msg, msgs, hincoming, rfl⟩
  · cases h

/-! ### Where the messages are -/

/-- The messages of a channel that have been read. -/
def got (s : Link) (id : ChannelId) : List (ChannelId × Bytes) := (s.received ++ s.incoming).filter fun msg => msg.1 = id

/-- Those that will be read of the streams for one message. -/
def ofSingles (s : Link) (id : ChannelId) : Multiset (ChannelId × Bytes) :=
  ∑ i ∈ Finset.range s.opened, ↑(((s.streams (.single i)).future []).filter fun msg => msg.1 = id)

/-- Those that are in datagrams. -/
def ofDatagrams (s : Link) (id : ChannelId) : List (ChannelId × Bytes) :=
  (s.datagrams.filterMap ofDatagram).filter fun msg => msg.1 = id

/-- What has become of the messages that the task of a channel has taken. -/
def Sent (config : ChannelsConfiguration) (s : Link) (id : ChannelId) (taken : List Bytes) : Prop :=
  match kind config id with
  | some .OrderedReliable => ∀ more,
      (receiver.readAll .Head (written id DEFAULT_MAX_RELIABLE_FRAME_LEN taken [] ++ more)).1 =
        s.got id ++ (s.streams (.ordered id)).future more
  | some .UnorderedReliable =>
      ↑(s.got id) + s.ofSingles id =
        (↑((taken.filter fun msg => msg.length < DEFAULT_MAX_RELIABLE_FRAME_LEN).map fun msg => (id, msg)) :
          Multiset (ChannelId × Bytes))
  | some .Unreliable =>
      (↑(s.got id ++ s.ofDatagrams id) : Multiset (ChannelId × Bytes)) ≤
        ↑((taken.filter fun msg => msg ≠ []).map fun msg => (id, msg))
  | none => s.got id = []

/-- What holds in every run. -/
structure Inv (config : ChannelsConfiguration) (s : Link) : Prop where
  /-- What a channel was given has been taken by its task, in order, or waits. -/
  taken : ∀ id, ∃ taken, s.accepted id = taken ++ s.queue id ∧ Sent config s id taken
  /-- Only ordered channels write to their streams. -/
  idle : ∀ id, kind config id ≠ some .OrderedReliable → s.streams (.ordered id) = .fresh
  /-- The streams for one message are opened in order. -/
  unopened : ∀ i, s.opened ≤ i → s.streams (.single i) = .fresh
  /-- They are those of unordered channels. -/
  single : ∀ i, ∀ msg ∈ (s.streams (.single i)).future [], kind config msg.1 = some .UnorderedReliable
  /-- Datagrams are those of unreliable channels. -/
  datagram : ∀ msgBytes ∈ s.datagrams, ∃ id payload, msgBytes = id :: payload ∧ kind config id = some .Unreliable

theorem sent_fresh (config : ChannelsConfiguration) (id : ChannelId) : Sent config fresh id [] := by
  unfold Sent
  split
  · intro more
    rfl
  · rfl
  · exact le_refl _
  · rfl

theorem inv_fresh (config : ChannelsConfiguration) : Inv config fresh where
  taken id := ⟨[], rfl, sent_fresh config id⟩
  idle _ _ := rfl
  unopened _ _ := rfl
  single i msg hmsg := by
    rw [show fresh.streams (.single i) = .fresh from rfl, Stream.future_fresh] at hmsg
    exact (List.not_mem_nil hmsg).elim
  datagram msgBytes h := (List.not_mem_nil h).elim

/-- What has become of the messages of a channel does not depend on the others. -/
theorem sent_congr {taken : List Bytes} (h : Sent config s id taken) (hgot : s'.got id = s.got id)
    (hstream : kind config id = some .OrderedReliable →
      ∀ more, (s'.streams (.ordered id)).future more = (s.streams (.ordered id)).future more)
    (hsingles : kind config id = some .UnorderedReliable → s'.ofSingles id = s.ofSingles id)
    (hdatagrams : kind config id = some .Unreliable → s'.ofDatagrams id = s.ofDatagrams id) :
    Sent config s' id taken := by
  unfold Sent at h ⊢
  rw [hgot]
  split at h
  · next hkind =>
    intro more
    rw [hstream hkind more]
    exact h more
  · next hkind =>
    rw [hsingles hkind]
    exact h
  · next hkind =>
    rw [hdatagrams hkind]
    exact h
  · exact h

/-- The messages that are still to be read of a stream are those of its channel. -/
theorem Inv.ordered_future (h : Inv config s) (hkind : kind config id = some .OrderedReliable) :
    ∀ msg ∈ (s.streams (.ordered id)).future [], msg.1 = id := by
  intro msg hmsg
  obtain ⟨taken, -, hsent⟩ := h.taken id
  unfold Sent at hsent
  rw [hkind] at hsent
  have hall := hsent []
  rw [List.append_nil, readAll_written] at hall
  have hmem : msg ∈ (arriving taken).map fun msg => (id, msg) := by
    rw [hall]
    exact List.mem_append_right _ hmsg
  obtain ⟨payload, -, rfl⟩ := List.mem_map.mp hmem
  rfl

/-- A message that is read of a stream is one of the channels that use it. -/
theorem Inv.next_kind (h : Inv config s) {stream : StreamId} {msg : ChannelId × Bytes} {t : Stream}
    (hnext : (s.streams stream).next = some (some msg, t)) :
    match stream with
    | .ordered id => msg.1 = id ∧ kind config id = some .OrderedReliable
    | .single i => kind config msg.1 = some .UnorderedReliable ∧ i < s.opened := by
  have hfuture : msg ∈ (s.streams stream).future [] := by
    rw [Stream.future_next hnext]
    exact List.mem_cons_self
  cases stream with
  | ordered id =>
    by_cases hkind : kind config id = some .OrderedReliable
    · exact ⟨h.ordered_future hkind msg hfuture, hkind⟩
    · rw [h.idle id hkind] at hnext
      cases hnext
  | single i =>
    refine ⟨h.single i msg hfuture, ?_⟩
    by_contra hi
    rw [h.unopened i (Nat.le_of_not_lt hi)] at hnext
    cases hnext

/-! ### What every event keeps -/

theorem inv_send {payload : Bytes} (h : Inv config s) (hstep : step config s (.send id payload) = some s') :
    Inv config s' := by
  obtain ⟨-, rfl⟩ := step_send hstep
  refine ⟨fun id' => ?_, h.idle, h.unopened, h.single, h.datagram⟩
  obtain ⟨taken, haccepted, hsent⟩ := h.taken id'
  refine ⟨taken, ?_, sent_congr hsent rfl (fun _ _ => rfl) (fun _ => rfl) fun _ => rfl⟩
  dsimp only
  by_cases hid : id' = id
  · subst hid
    rw [Function.update_self, Function.update_self, haccepted, List.append_assoc]
  · rw [Function.update_of_ne hid, Function.update_of_ne hid]
    exact haccepted

theorem inv_close (h : Inv config s) (hstep : step config s (.close id) = some s') : Inv config s' := by
  cases hstep
  refine ⟨fun id' => ?_, h.idle, h.unopened, h.single, h.datagram⟩
  obtain ⟨taken, haccepted, hsent⟩ := h.taken id'
  exact ⟨taken, haccepted, sent_congr hsent rfl (fun _ _ => rfl) (fun _ => rfl) fun _ => rfl⟩

theorem inv_receive (h : Inv config s) (hstep : step config s .receive = some s') : Inv config s' := by
  obtain ⟨msg, msgs, hincoming, rfl⟩ := step_receive hstep
  refine ⟨fun id' => ?_, h.idle, h.unopened, h.single, h.datagram⟩
  obtain ⟨taken, haccepted, hsent⟩ := h.taken id'
  refine ⟨taken, haccepted, sent_congr hsent ?_ (fun _ _ => rfl) (fun _ => rfl) fun _ => rfl⟩
  unfold got
  rw [hincoming, List.append_assoc]
  rfl

theorem ofSingles_update_ordered (s : Link) (id id' : ChannelId) (t : Stream) :
    ({ s with streams := Function.update s.streams (.ordered id') t } : Link).ofSingles id = s.ofSingles id := by
  unfold ofSingles
  refine Finset.sum_congr rfl fun i _ => ?_
  simp only [Function.update_of_ne, ne_eq, reduceCtorEq, not_false_eq_true]

/-- What is read of a stream for one message is no longer to be read. -/
theorem ofSingles_update_single (s : Link) (id : ChannelId) {i : ℕ} (hi : i < s.opened) (t : Stream) :
    ({ s with streams := Function.update s.streams (.single i) t } : Link).ofSingles id +
        ↑(((s.streams (.single i)).future []).filter fun msg => msg.1 = id) =
      s.ofSingles id + ↑((t.future []).filter fun msg => msg.1 = id) := by
  have hupdate : ∀ j, Function.update s.streams (.single i) t (.single j) =
      Function.update (fun j => s.streams (.single j)) i t j := by
    intro j
    by_cases hj : j = i
    · subst hj
      rw [Function.update_self, Function.update_self]
    · rw [Function.update_of_ne hj, Function.update_of_ne fun h => hj (StreamId.single.inj h)]
  unfold ofSingles
  simp only [hupdate]
  exact sum_update_add (Finset.mem_range.mpr hi) (fun j => s.streams (.single j))
    (fun t => (↑((t.future []).filter fun msg => msg.1 = id) : Multiset (ChannelId × Bytes))) t

theorem inv_arrive {stream : StreamId} {n : ℕ} (h : Inv config s) (hstep : step config s (.arrive stream n) = some s') :
    Inv config s' := by
  obtain ⟨t, harrive, rfl⟩ := step_arrive hstep
  -- what will be read of a stream stays the same
  have hsame : ∀ other more, (Function.update s.streams stream t other).future more = (s.streams other).future more := by
    intro other more
    by_cases hother : other = stream
    · subst hother
      rw [Function.update_self, Stream.future_arrive harrive]
    · rw [Function.update_of_ne hother]
  have hfresh : ∀ other, s.streams other = .fresh → Function.update s.streams stream t other = .fresh := by
    intro other hother
    rw [Function.update_of_ne, hother]
    rintro rfl
    rw [hother] at harrive
    cases harrive
  refine ⟨fun id' => ?_, fun id' hkind => hfresh _ (h.idle id' hkind), fun i hi => hfresh _ (h.unopened i hi), ?_, h.datagram⟩
  · obtain ⟨taken, haccepted, hsent⟩ := h.taken id'
    refine ⟨taken, haccepted, sent_congr hsent rfl (fun _ more => hsame _ more) (fun _ => ?_) fun _ => rfl⟩
    unfold ofSingles
    simp only [hsame]
  · intro i msg hmsg
    rw [show ({ s with streams := Function.update s.streams stream t } : Link).streams (.single i) =
      Function.update s.streams stream t (.single i) from rfl, hsame] at hmsg
    exact h.single i msg hmsg

theorem got_push (s : Link) (id : ChannelId) (msgs : List (ChannelId × Bytes)) :
    ({ s with incoming := s.incoming ++ msgs } : Link).got id = s.got id ++ msgs.filter fun msg => msg.1 = id := by
  unfold got
  rw [← List.append_assoc, List.filter_append]

theorem sent_next_ordered {id' : ChannelId} {r : Option (ChannelId × Bytes)} {t : Stream} {taken : List Bytes}
    (h : Inv config s) (hnext : (s.streams (.ordered id)).next = some (r, t)) (hsent : Sent config s id' taken) :
    Sent config { s with streams := Function.update s.streams (.ordered id) t, incoming := s.incoming ++ r.toList } id'
      taken := by
  have hgot := got_push ({ s with streams := Function.update s.streams (.ordered id) t } : Link) id' r.toList
  have hall : ∀ msg ∈ r.toList, msg.1 = id := by
    intro msg hmsg
    rw [Option.mem_toList] at hmsg
    cases hmsg
    exact (h.next_kind hnext).1
  by_cases hid : id' = id
  · -- the message is the first of those that will be read
    subst hid
    have hfilter : r.toList.filter (fun msg => msg.1 = id') = r.toList :=
      List.filter_eq_self.mpr fun msg hmsg => decide_eq_true (hall msg hmsg)
    have hkind : kind config id' = some .OrderedReliable := by
      by_contra hkind
      rw [h.idle id' hkind] at hnext
      cases hnext
    unfold Sent at hsent ⊢
    rw [hkind] at hsent ⊢
    intro more
    rw [hsent more, Stream.future_next hnext more, hgot, hfilter, ← List.append_assoc]
    show s.got id' ++ r.toList ++ t.future more = s.got id' ++ r.toList ++
      (Function.update s.streams (.ordered id') t (.ordered id')).future more
    rw [Function.update_self]
  · have hfilter : r.toList.filter (fun msg => msg.1 = id') = [] :=
      List.filter_eq_nil_iff.mpr fun msg hmsg hsame => hid ((of_decide_eq_true hsame).symm.trans (hall msg hmsg))
    rw [hfilter, List.append_nil] at hgot
    refine sent_congr hsent hgot (fun _ more => ?_) (fun _ => ofSingles_update_ordered s id' id t) fun _ => rfl
    dsimp only
    rw [Function.update_of_ne fun h => hid (StreamId.ordered.inj h)]

theorem sent_next_single {i : ℕ} {r : Option (ChannelId × Bytes)} {t : Stream} {taken : List Bytes} (h : Inv config s)
    (hnext : (s.streams (.single i)).next = some (r, t)) (hsent : Sent config s id taken) :
    Sent config { s with streams := Function.update s.streams (.single i) t, incoming := s.incoming ++ r.toList } id
      taken := by
  have hgot := got_push ({ s with streams := Function.update s.streams (.single i) t } : Link) id r.toList
  have hi : i < s.opened := by
    by_contra hge
    rw [h.unopened i (Nat.le_of_not_lt hge)] at hnext
    cases hnext
  by_cases hkind : kind config id = some .UnorderedReliable
  · have hsingles := ofSingles_update_single s id hi t
    rw [Stream.future_next hnext, List.filter_append, ← Multiset.coe_add, ← add_assoc, add_left_inj] at hsingles
    unfold Sent at hsent ⊢
    rw [hkind] at hsent ⊢
    dsimp only at hsent ⊢
    rw [← hsent, ← hsingles, hgot, ← Multiset.coe_add, add_assoc, add_comm (Multiset.ofList (List.filter _ r.toList))]
    rfl
  · have hfilter : r.toList.filter (fun msg => msg.1 = id) = [] := by
      refine List.filter_eq_nil_iff.mpr fun msg hmsg hsame => hkind ?_
      rw [Option.mem_toList] at hmsg
      cases hmsg
      rw [← of_decide_eq_true hsame]
      exact (h.next_kind hnext).1
    rw [hfilter, List.append_nil] at hgot
    refine sent_congr hsent hgot (fun _ more => ?_) (fun h => absurd h hkind) fun _ => rfl
    simp only [Function.update_of_ne, ne_eq, reduceCtorEq, not_false_eq_true]

theorem inv_next {stream : StreamId} (h : Inv config s) (hstep : step config s (.next stream) = some s') :
    Inv config s' := by
  obtain ⟨r, t, hnext, rfl⟩ := step_next hstep
  have hfresh : ∀ other, s.streams other = .fresh → Function.update s.streams stream t other = .fresh := by
    intro other hother
    rw [Function.update_of_ne, hother]
    rintro rfl
    rw [hother] at hnext
    cases hnext
  refine ⟨fun id' => ?_, fun id' hkind => hfresh _ (h.idle id' hkind), fun i hi => hfresh _ (h.unopened i hi), ?_, h.datagram⟩
  · obtain ⟨taken, haccepted, hsent⟩ := h.taken id'
    refine ⟨taken, haccepted, ?_⟩
    cases stream with
    | ordered id => exact sent_next_ordered h hnext hsent
    | single i => exact sent_next_single h hnext hsent
  · intro i msg hmsg
    dsimp only at hmsg
    by_cases hi : StreamId.single i = stream
    · subst hi
      rw [Function.update_self] at hmsg
      exact h.single i msg (by rw [Stream.future_next hnext]; exact List.mem_append_right _ hmsg)
    · rw [Function.update_of_ne hi] at hmsg
      exact h.single i msg hmsg

theorem ofDatagram_kind (h : Inv config s) {msgBytes : Bytes} {msg : ChannelId × Bytes} (hmem : msgBytes ∈ s.datagrams)
    (hmsg : ofDatagram msgBytes = some msg) : kind config msg.1 = some .Unreliable := by
  obtain ⟨id, payload, rfl, hkind⟩ := h.datagram msgBytes hmem
  cases payload <;> cases hmsg
  exact hkind

/-- A datagram that has arrived or is lost is no longer on its way. -/
theorem ofDatagrams_erase (s : Link) (id : ChannelId) {i : ℕ} {msgBytes : Bytes} (hi : s.datagrams[i]? = some msgBytes) :
    List.Perm (((ofDatagram msgBytes).toList.filter fun msg => msg.1 = id) ++
      ({ s with datagrams := s.datagrams.eraseIdx i } : Link).ofDatagrams id) (s.ofDatagrams id) := by
  obtain ⟨hlt, rfl⟩ := List.getElem?_eq_some_iff.mp hi
  have hperm : List.Perm (s.datagrams[i] :: s.datagrams.eraseIdx i) s.datagrams := List.getElem_cons_eraseIdx_perm hlt
  have hfilter := (hperm.filterMap ofDatagram).filter fun msg => msg.1 = id
  unfold ofDatagrams
  refine List.Perm.trans ?_ hfilter
  rw [List.filterMap_cons]
  cases ofDatagram s.datagrams[i] with
  | none => exact List.Perm.refl _
  | some msg =>
    rw [← List.filter_append]
    exact List.Perm.refl _

theorem inv_loseDatagram {i : ℕ} (h : Inv config s) (hstep : step config s (.loseDatagram i) = some s') :
    Inv config s' := by
  obtain ⟨-, rfl⟩ := step_loseDatagram hstep
  refine ⟨fun id' => ?_, h.idle, h.unopened, h.single, fun msgBytes hmem => h.datagram _ (List.mem_of_mem_eraseIdx hmem)⟩
  obtain ⟨taken, haccepted, hsent⟩ := h.taken id'
  refine ⟨taken, haccepted, ?_⟩
  by_cases hkind : kind config id' = some .Unreliable
  · unfold Sent at hsent ⊢
    rw [hkind] at hsent ⊢
    dsimp only at hsent ⊢
    refine le_trans ?_ hsent
    rw [Multiset.coe_le]
    refine List.Sublist.subperm (List.Sublist.append_left ?_ _)
    exact ((List.eraseIdx_sublist _ _).filterMap _).filter _
  · exact sent_congr hsent rfl (fun _ _ => rfl) (fun _ => rfl) fun h => absurd h hkind

theorem inv_readDatagram {i : ℕ} (h : Inv config s) (hstep : step config s (.readDatagram i) = some s') :
    Inv config s' := by
  obtain ⟨msgBytes, hi, rfl⟩ := step_readDatagram hstep
  have hmem : msgBytes ∈ s.datagrams := List.mem_of_getElem? hi
  refine ⟨fun id' => ?_, h.idle, h.unopened, h.single, fun msgBytes hmem => h.datagram _ (List.mem_of_mem_eraseIdx hmem)⟩
  obtain ⟨taken, haccepted, hsent⟩ := h.taken id'
  refine ⟨taken, haccepted, ?_⟩
  have hgot := got_push ({ s with datagrams := s.datagrams.eraseIdx i } : Link) id' (ofDatagram msgBytes).toList
  by_cases hkind : kind config id' = some .Unreliable
  · have hperm := ofDatagrams_erase s id' hi
    unfold Sent at hsent ⊢
    rw [hkind] at hsent ⊢
    dsimp only at hsent ⊢
    refine le_trans (le_of_eq ?_) hsent
    rw [hgot, Multiset.coe_eq_coe, List.append_assoc]
    exact hperm.append_left _
  · have hfilter : (ofDatagram msgBytes).toList.filter (fun msg => msg.1 = id') = [] := by
      refine List.filter_eq_nil_iff.mpr fun msg hmsg hsame => hkind ?_
      rw [← of_decide_eq_true hsame]
      exact ofDatagram_kind h hmem (Option.mem_toList.mp hmsg)
    rw [hfilter, List.append_nil] at hgot
    exact sent_congr hsent hgot (fun _ _ => rfl) (fun _ => rfl) fun h => absurd h hkind

/-! ### The tasks of the channels -/

/-- What a task writes for one more message. -/
theorem written_concat (id : ChannelId) (taken : List Bytes) (msg : Bytes) :
    written id DEFAULT_MAX_RELIABLE_FRAME_LEN (taken ++ [msg]) [] =
      written id DEFAULT_MAX_RELIABLE_FRAME_LEN taken [] ++
        if DEFAULT_MAX_RELIABLE_FRAME_LEN < msg.length then [] else frame (id, msg) := by
  rw [written_eq, written_eq, List.filter_append, List.map_append, List.flatMap_append, List.append_assoc]
  by_cases hlong : DEFAULT_MAX_RELIABLE_FRAME_LEN < msg.length
  · rw [if_pos hlong, List.filter_cons_of_neg (by simpa using hlong)]
    rfl
  · rw [if_neg hlong, List.filter_cons_of_pos (by simpa using hlong)]
    simp

/-- What will be read of a stream that carries one message. -/
theorem future_write_frame {msg : Bytes} (hmsg : ¬ DEFAULT_MAX_RELIABLE_FRAME_LEN < msg.length) :
    (Stream.fresh.write (frame (id, msg))).future [] =
      ([msg].filter fun msg => msg.length < DEFAULT_MAX_RELIABLE_FRAME_LEN).map fun msg => (id, msg) := by
  have hread := readAll_written id [msg]
  have hwritten := written_concat id [] msg
  rw [if_neg hmsg] at hwritten
  have harriving : arriving [msg] = [msg].filter fun msg => msg.length < DEFAULT_MAX_RELIABLE_FRAME_LEN := by
    unfold arriving
    rw [List.filter_cons_of_pos (by simpa using hmsg)]
    by_cases hlt : msg.length < DEFAULT_MAX_RELIABLE_FRAME_LEN <;> simp [hlt]
  rw [← harriving, ← hread]
  show (receiver.readAll .Head ([] ++ (frame (id, msg) ++ []))).1 = _
  rw [List.append_nil, List.nil_append]
  exact congrArg (fun bytes => (receiver.readAll .Head bytes).1) hwritten.symm

variable {fits closing : Bool} {msg : Bytes} {taken : List Bytes}

theorem sent_sendMessage_ordered (hkind : kind config id = some .OrderedReliable) (hsent : Sent config s id taken) :
    Sent config (sendMessage s id fits closing msg .OrderedReliable) id (taken ++ [msg]) := by
  unfold Sent at hsent ⊢
  rw [hkind] at hsent ⊢
  intro more
  unfold sendMessage
  rw [encode_eq, written_concat]
  by_cases hlong : DEFAULT_MAX_RELIABLE_FRAME_LEN < msg.length
  · simp only [if_pos hlong, List.append_nil]
    exact hsent more
  · simp only [if_neg hlong, List.append_assoc, List.nil_append, Function.update_self, Stream.future_write]
    exact hsent (frame (id, msg) ++ more)

theorem ofSingles_sendMessage (h : Inv config s) (id' : ChannelId) :
    (sendMessage s id fits closing msg .UnorderedReliable).ofSingles id' =
      s.ofSingles id' + ↑((([msg].filter fun msg => msg.length < DEFAULT_MAX_RELIABLE_FRAME_LEN).map
        fun msg => (id, msg)).filter fun msg => msg.1 = id') := by
  have hfresh := h.unopened s.opened (Nat.le_refl _)
  unfold sendMessage ofSingles
  rw [encode_eq]
  by_cases hlong : DEFAULT_MAX_RELIABLE_FRAME_LEN < msg.length
  · simp only [if_pos hlong]
    rw [Finset.sum_range_succ, hfresh, Stream.future_fresh,
      List.filter_cons_of_neg (by simp only [decide_eq_true_eq]; omega)]
    rfl
  · simp only [if_neg hlong, List.nil_append]
    rw [Finset.sum_range_succ, Function.update_self, hfresh, future_write_frame hlong]
    refine congrArg (· + _) (Finset.sum_congr rfl fun i hi => ?_)
    rw [Function.update_of_ne fun heq => Nat.ne_of_lt (Finset.mem_range.mp hi) (StreamId.single.inj heq)]

theorem ofDatagrams_sendMessage (s : Link) (id id' : ChannelId) (fits closing : Bool) (msg : Bytes) :
    (sendMessage s id fits closing msg .Unreliable).ofDatagrams id' =
      s.ofDatagrams id' ++ if fits then (([msg].filter fun msg => msg ≠ []).map fun msg => (id, msg)).filter
        fun msg => msg.1 = id' else [] := by
  have hdatagram : [id :: msg].filterMap ofDatagram = ([msg].filter fun msg => msg ≠ []).map fun msg => (id, msg) := by
    cases msg <;> simp [ofDatagram]
  unfold sendMessage ofDatagrams
  cases fits
  · simp
  · simp only [if_true, List.filterMap_append, List.filter_append, hdatagram]

theorem got_sendMessage (s : Link) (id id' : ChannelId) (fits closing : Bool) (msg : Bytes) (channelType : ChannelType) :
    (sendMessage s id fits closing msg channelType).got id' = s.got id' := by
  cases channelType <;> unfold sendMessage <;> dsimp only <;> split <;> rfl

theorem sent_sendMessage_unordered (h : Inv config s) (hkind : kind config id = some .UnorderedReliable)
    (hsent : Sent config s id taken) : Sent config (sendMessage s id fits closing msg .UnorderedReliable) id (taken ++ [msg]) := by
  unfold Sent at hsent ⊢
  rw [hkind] at hsent ⊢
  dsimp only at hsent ⊢
  rw [List.filter_append, List.map_append, ← Multiset.coe_add, ← hsent, got_sendMessage, ofSingles_sendMessage h,
    ← add_assoc, List.filter_eq_self.mpr]
  intro m hm
  obtain ⟨_, -, rfl⟩ := List.mem_map.mp hm
  exact decide_eq_true rfl

theorem sent_sendMessage_unreliable (hkind : kind config id = some .Unreliable) (hsent : Sent config s id taken) :
    Sent config (sendMessage s id fits closing msg .Unreliable) id (taken ++ [msg]) := by
  unfold Sent at hsent ⊢
  rw [hkind] at hsent ⊢
  dsimp only at hsent ⊢
  rw [List.filter_append, List.map_append, got_sendMessage, ofDatagrams_sendMessage, ← List.append_assoc,
    ← Multiset.coe_add, ← Multiset.coe_add (List.map _ _)]
  refine add_le_add hsent ?_
  cases fits
  · exact Multiset.zero_le _
  · exact Multiset.coe_le.mpr (List.filter_sublist.subperm)

/-- **What has become of the messages that a task has taken**, when it has taken one more. -/
theorem sent_sendMessage {channelType : ChannelType} (h : Inv config s) (hkind : kind config id = some channelType)
    (hsent : Sent config s id taken) : Sent config (sendMessage s id fits closing msg channelType) id (taken ++ [msg]) := by
  cases channelType with
  | OrderedReliable => exact sent_sendMessage_ordered hkind hsent
  | UnorderedReliable => exact sent_sendMessage_unordered h hkind hsent
  | Unreliable => exact sent_sendMessage_unreliable hkind hsent

/-- The messages of the other channels are not touched. -/
theorem sent_sendMessage_of_ne {channelType : ChannelType} {id' : ChannelId} (h : Inv config s) (hne : id' ≠ id)
    (hsent : Sent config s id' taken) : Sent config (sendMessage s id fits closing msg channelType) id' taken := by
  have hnone : ∀ msgs : List Bytes, (msgs.map fun msg => (id, msg)).filter (fun msg => msg.1 = id') = [] := by
    intro msgs
    refine List.filter_eq_nil_iff.mpr fun m hm hsame => hne ?_
    obtain ⟨_, -, rfl⟩ := List.mem_map.mp hm
    exact (of_decide_eq_true hsame).symm
  refine sent_congr hsent (got_sendMessage s id id' fits closing msg channelType) (fun _ more => ?_) (fun _ => ?_) fun _ => ?_
  · cases channelType <;> unfold sendMessage <;> dsimp only <;> split <;>
      simp only [Function.update_of_ne, ne_eq, StreamId.ordered.injEq, hne, reduceCtorEq, not_false_eq_true]
  · cases channelType with
    | OrderedReliable =>
      unfold sendMessage
      dsimp only
      split
      · exact ofSingles_update_ordered s id' id _
      · rfl
    | UnorderedReliable =>
      rw [ofSingles_sendMessage h, hnone]
      exact add_zero _
    | Unreliable => cases fits <;> rfl
  · cases channelType with
    | OrderedReliable =>
      unfold sendMessage
      dsimp only
      split <;> rfl
    | UnorderedReliable =>
      unfold sendMessage
      dsimp only
      split <;> rfl
    | Unreliable => rw [ofDatagrams_sendMessage, hnone, ite_self, List.append_nil]

theorem sendMessage_queue (s : Link) (queue : ChannelId → List Bytes) (id : ChannelId) (fits closing : Bool)
    (msg : Bytes) (channelType : ChannelType) :
    sendMessage { s with queue := queue } id fits closing msg channelType =
      { sendMessage s id fits closing msg channelType with queue := queue } := by
  cases channelType <;> unfold sendMessage <;> dsimp only <;> split <;> rfl

theorem sendMessage_accepted (s : Link) (id : ChannelId) (fits closing : Bool) (msg : Bytes)
    (channelType : ChannelType) :
    (sendMessage s id fits closing msg channelType).accepted = s.accepted := by
  cases channelType <;> unfold sendMessage <;> dsimp only <;> split <;> rfl

/-- The streams and the datagrams stay those of channels of their type. -/
theorem sendMessage_owners (fits closing : Bool) (msg : Bytes) {channelType : ChannelType} (h : Inv config s)
    (hkind : kind config id = some channelType) :
    let s' := sendMessage s id fits closing msg channelType
    (∀ id', kind config id' ≠ some .OrderedReliable → s'.streams (.ordered id') = .fresh) ∧
    (∀ i, s'.opened ≤ i → s'.streams (.single i) = .fresh) ∧
    (∀ i, ∀ m ∈ (s'.streams (.single i)).future [], kind config m.1 = some .UnorderedReliable) ∧
    ∀ msgBytes ∈ s'.datagrams, ∃ id payload, msgBytes = id :: payload ∧ kind config id = some .Unreliable := by
  cases channelType with
  | OrderedReliable =>
    unfold sendMessage
    dsimp only
    split
    · refine ⟨fun id' hid' => ?_, fun i hi => ?_, fun i => ?_, h.datagram⟩
      · have hne : id' ≠ id := by
          rintro rfl
          exact hid' hkind
        dsimp only
        rw [Function.update_of_ne fun heq => hne (StreamId.ordered.inj heq)]
        exact h.idle id' hid'
      · simp only [Function.update_of_ne, ne_eq, reduceCtorEq, not_false_eq_true]
        exact h.unopened i hi
      · simp only [Function.update_of_ne, ne_eq, reduceCtorEq, not_false_eq_true]
        exact h.single i
    · exact ⟨h.idle, h.unopened, h.single, h.datagram⟩
  | UnorderedReliable =>
    have hfresh := h.unopened s.opened (Nat.le_refl _)
    unfold sendMessage
    rw [encode_eq]
    by_cases hlong : DEFAULT_MAX_RELIABLE_FRAME_LEN < msg.length
    · simp only [if_pos hlong]
      exact ⟨h.idle, fun i hi => h.unopened i (Nat.le_of_succ_le hi), h.single, h.datagram⟩
    · simp only [if_neg hlong, List.nil_append]
      refine ⟨fun id' hid' => ?_, fun i hi => ?_, fun i m hm => ?_, h.datagram⟩
      · simp only [Function.update_of_ne, ne_eq, reduceCtorEq, not_false_eq_true]
        exact h.idle id' hid'
      · rw [Function.update_of_ne fun heq => Nat.ne_of_gt hi (StreamId.single.inj heq)]
        exact h.unopened i (Nat.le_of_succ_le hi)
      · by_cases hi : i = s.opened
        · subst hi
          rw [Function.update_self, hfresh, future_write_frame hlong] at hm
          obtain ⟨_, -, rfl⟩ := List.mem_map.mp hm
          exact hkind
        · rw [Function.update_of_ne fun heq => hi (StreamId.single.inj heq)] at hm
          exact h.single i m hm
  | Unreliable =>
    cases fits with
    | true =>
      refine ⟨h.idle, h.unopened, h.single, fun msgBytes hmem => ?_⟩
      rcases List.mem_append.mp hmem with hmem | hmem
      · exact h.datagram msgBytes hmem
      · exact ⟨id, msg, List.mem_singleton.mp hmem, hkind⟩
    | false => exact ⟨h.idle, h.unopened, h.single, h.datagram⟩

theorem inv_work {fits closing : Bool} (h : Inv config s) (hstep : step config s (.work id fits closing) = some s') :
    Inv config s' := by
  obtain ⟨channelType, msg, msgs, hkind, hqueue, rfl⟩ := step_work hstep
  obtain ⟨hidle, hunopened, hsingle, hdatagram⟩ := sendMessage_owners fits closing msg h hkind
  rw [sendMessage_queue]
  refine ⟨fun id' => ?_, hidle, hunopened, hsingle, hdatagram⟩
  obtain ⟨taken, haccepted, hsent⟩ := h.taken id'
  dsimp only
  rw [sendMessage_accepted]
  by_cases hid : id' = id
  · subst hid
    refine ⟨taken ++ [msg], ?_, sent_sendMessage h hkind hsent⟩
    rw [Function.update_self, haccepted, hqueue, List.append_assoc]
    rfl
  · refine ⟨taken, ?_, sent_sendMessage_of_ne h hid hsent⟩
    rw [Function.update_of_ne hid]
    exact haccepted

theorem inv_stopped {stream : StreamId} (h : Inv config s) (hstep : step config s (.stopped stream) = some s') :
    Inv config s' := by
  obtain ⟨-, -, rfl⟩ := step_stopped hstep
  refine ⟨fun id => ?_, h.idle, h.unopened, h.single, h.datagram⟩
  obtain ⟨taken, haccepted, hsent⟩ := h.taken id
  exact ⟨taken, haccepted, sent_congr hsent rfl (fun _ _ => rfl) (fun _ => rfl) fun _ => rfl⟩

theorem inv_lose (h : Inv config s) (hstep : step config s .lose = some s') : Inv config s' := by
  obtain ⟨-, -, rfl⟩ := step_lose hstep
  refine ⟨fun id => ?_, h.idle, h.unopened, h.single, h.datagram⟩
  obtain ⟨taken, haccepted, hsent⟩ := h.taken id
  exact ⟨taken, haccepted, sent_congr hsent rfl (fun _ _ => rfl) (fun _ => rfl) fun _ => rfl⟩

/-- **Every event keeps the invariant.** -/
theorem inv_step {event : Event} (h : Inv config s) (hstep : step config s event = some s') : Inv config s' := by
  cases event with
  | send id payload => exact inv_send h hstep
  | close id => exact inv_close h hstep
  | work id fits closing => exact inv_work h hstep
  | stopped stream => exact inv_stopped h hstep
  | lose => exact inv_lose h hstep
  | arrive stream n => exact inv_arrive h hstep
  | next stream => exact inv_next h hstep
  | loseDatagram i => exact inv_loseDatagram h hstep
  | readDatagram i => exact inv_readDatagram h hstep
  | receive => exact inv_receive h hstep

/-! ### What has been received -/

/-- The states of the runs of a connection. -/
abbrev Reachable (config : ChannelsConfiguration) : Link → Prop :=
  Reached (· = fresh) (fun _ _ => True) fun s event s' => step config s event = some s'

theorem Reachable.inv (h : Reachable config s) : Inv config s :=
  h.invariant (fun _ hs => hs ▸ inv_fresh config) fun _ _ _ hinv _ hstep => inv_step hinv hstep

/-- The messages that have been received on a channel. -/
def receivedOn (s : Link) (id : ChannelId) : List Bytes := (s.received.filter fun msg => msg.1 = id).map fun msg => msg.2

theorem receivedOn_prefix_got (s : Link) (id : ChannelId) : s.receivedOn id <+: (s.got id).map fun msg => msg.2 := by
  unfold receivedOn got
  rw [List.filter_append, List.map_append]
  exact List.prefix_append _ _

theorem map_snd_map (id : ChannelId) (msgs : List Bytes) : (msgs.map fun msg => (id, msg)).map (fun msg => msg.2) = msgs := by
  rw [List.map_map]
  exact List.map_id msgs

/-- When more is taken, no less arrives. -/
theorem arriving_prefix_append (taken more : List Bytes) : arriving taken <+: arriving (taken ++ more) := by
  unfold arriving
  rw [List.filter_append, List.takeWhile_append]
  split
  · next hlength =>
    rw [(List.takeWhile_prefix _).eq_of_length hlength]
    exact List.prefix_append _ _
  · exact List.prefix_refl _

theorem subperm_map_snd {l : List (ChannelId × Bytes)} {msgs : List Bytes}
    (h : List.Subperm l (msgs.map fun msg => (id, msg))) : List.Subperm (l.map fun msg => msg.2) msgs := by
  obtain ⟨l', hperm, hsub⟩ := h
  refine ⟨l'.map fun msg => msg.2, hperm.map _, ?_⟩
  rw [← map_snd_map id msgs]
  exact hsub.map _

/-- **What has been received**, in every run: of the messages of an ordered channel a first part of
what arrives of them, in their order; of those of an unordered channel some that are not too long; and
of those of an unreliable channel some that are not empty. -/
theorem received_spec (h : Reachable config s) (id : ChannelId) :
    match kind config id with
    | some .OrderedReliable => s.receivedOn id <+: arriving (s.accepted id)
    | some .UnorderedReliable =>
      List.Subperm (s.receivedOn id) ((s.accepted id).filter fun msg => msg.length < DEFAULT_MAX_RELIABLE_FRAME_LEN)
    | some .Unreliable => List.Subperm (s.receivedOn id) ((s.accepted id).filter fun msg => msg ≠ [])
    | none => s.receivedOn id = [] := by
  obtain ⟨taken, haccepted, hsent⟩ := h.inv.taken id
  have hgot := receivedOn_prefix_got s id
  unfold Sent at hsent
  rw [haccepted]
  split at hsent
  · have hall := hsent []
    rw [List.append_nil, readAll_written] at hall
    have hprefix : (s.got id).map (fun msg => msg.2) <+: arriving taken := by
      rw [← map_snd_map id (arriving taken), hall, List.map_append]
      exact List.prefix_append _ _
    exact (hgot.trans hprefix).trans (arriving_prefix_append taken _)
  · have hle : List.Subperm (s.got id) ((taken.filter fun msg => msg.length < DEFAULT_MAX_RELIABLE_FRAME_LEN).map
        fun msg => (id, msg)) := by
      rw [← Multiset.coe_le, ← hsent]
      exact Multiset.le_add_right _ _
    rw [List.filter_append]
    exact (hgot.sublist.subperm.trans (subperm_map_snd hle)).trans (List.sublist_append_left _ _).subperm
  · have hle := (List.sublist_append_left (s.got id) (s.ofDatagrams id)).subperm.trans (Multiset.coe_le.mp hsent)
    rw [List.filter_append]
    exact (hgot.sublist.subperm.trans (subperm_map_snd hle)).trans (List.sublist_append_left _ _).subperm
  · rw [hsent] at hgot
    exact List.prefix_nil.mp hgot

/-- The channels of the game. -/
def gameChannels : ChannelsConfiguration := ⟨[.Unreliable, .Unreliable, .OrderedReliable, .OrderedReliable]⟩

/-- A message is sent on an ordered channel, and received. -/
def oneMessage : List Event :=
  [.send 2 [7, 8], .work 2 true false, .arrive (.ordered 2) 3, .arrive (.ordered 2) 2, .next (.ordered 2), .receive]

theorem received_spec_oneMessage :
    ∃ s, Reachable gameChannels s ∧ s.receivedOn 2 = [[7, 8]] ∧ s.receivedOn 2 <+: arriving (s.accepted 2) := by
  have hreceived : (play (fun _ _ => True) (step gameChannels) oneMessage fresh).map (fun s => s.receivedOn 2) =
      some [[7, 8]] := by decide
  obtain ⟨s, hplay, hreceived⟩ := Option.map_eq_some_iff.mp hreceived
  have hreach : Reachable gameChannels s := Reached.play (.start rfl) hplay
  exact ⟨s, hreach, hreceived, received_spec hreach 2⟩

/-! ### When the connection is lost -/

/-- No message that a reliable channel was given is too long. -/
def Short (config : ChannelsConfiguration) (s : Link) : Prop :=
  ∀ id, kind config id = some .OrderedReliable ∨ kind config id = some .UnorderedReliable →
    ∀ msg ∈ s.accepted id, msg.length < DEFAULT_MAX_RELIABLE_FRAME_LEN

/-- All streams are read, and no task has reported anything. -/
structure Unbroken (s : Link) : Prop where
  /-- The streams. -/
  alive : ∀ stream, (s.streams stream).Alive
  /-- Nothing is reported. -/
  lost : s.lostConnection = false
  /-- The end that sends has not disconnected. -/
  ended : s.ended = false

/-- One stream is written to or read. -/
theorem Unbroken.update (h : s.Unbroken) {stream : StreamId} {t : Stream} (ht : t.Alive) (other : StreamId) :
    (Function.update s.streams stream t other).Alive := by
  by_cases hother : other = stream
  · rw [hother, Function.update_self]
    exact ht
  · rw [Function.update_of_ne hother]
    exact h.alive other

/-- A task that takes a message that is not too long reports nothing. -/
theorem Unbroken.sendMessage (h : s.Unbroken) {channelType : ChannelType} (fits closing : Bool)
    {msg : Bytes}
    (hmsg : channelType ≠ .Unreliable → msg.length < DEFAULT_MAX_RELIABLE_FRAME_LEN) :
    (sendMessage s id fits closing msg channelType).Unbroken := by
  cases channelType with
  | OrderedReliable =>
    have hshort := hmsg nofun
    unfold Link.sendMessage
    rw [encode_eq, if_neg (Nat.not_lt_of_lt hshort)]
    exact ⟨h.update ((h.alive (.ordered id)).write hshort), h.lost, h.ended⟩
  | UnorderedReliable =>
    have hshort := hmsg nofun
    unfold Link.sendMessage
    rw [encode_eq, if_neg (Nat.not_lt_of_lt hshort)]
    exact ⟨h.update ((h.alive (.single s.opened)).write hshort), h.lost, h.ended⟩
  | Unreliable =>
    unfold Link.sendMessage
    dsimp only
    split
    · exact ⟨h.alive, h.lost, h.ended⟩
    · exact h

/-- **One event** breaks nothing, as long as no message is too long. -/
theorem Unbroken.step (h : s.Unbroken) (hinv : Inv config s) (hshort : Short config s) {event : Event}
    (hstep : step config s event = some s') : s'.Unbroken := by
  cases event with
  | send id payload =>
    obtain ⟨-, rfl⟩ := step_send hstep
    exact ⟨h.alive, h.lost, h.ended⟩
  | close id =>
    cases hstep
    exact ⟨h.alive, h.lost, h.ended⟩
  | work id fits closing =>
    obtain ⟨channelType, msg, msgs, hkind, hqueue, rfl⟩ := step_work hstep
    have hqueued : ({ s with queue := Function.update s.queue id msgs } : Link).Unbroken := ⟨h.alive, h.lost, h.ended⟩
    refine hqueued.sendMessage fits closing fun hreliable => hshort id ?_ msg ?_
    · rw [hkind]
      cases channelType with
      | OrderedReliable => exact .inl rfl
      | UnorderedReliable => exact .inr rfl
      | Unreliable => exact absurd rfl hreliable
    · obtain ⟨taken, haccepted, -⟩ := hinv.taken id
      rw [haccepted, hqueue]
      exact List.mem_append_right _ List.mem_cons_self
  | stopped stream =>
    obtain ⟨⟨e, hreader⟩, -⟩ := step_stopped hstep
    exact absurd hreader ((h.alive stream).reader_ne_error e)
  | lose =>
    obtain ⟨hlost, -⟩ := step_lose hstep
    rw [h.lost] at hlost
    cases hlost
  | arrive stream n =>
    obtain ⟨t, harrive, rfl⟩ := step_arrive hstep
    exact ⟨h.update ((h.alive stream).arrive harrive), h.lost, h.ended⟩
  | next stream =>
    obtain ⟨r, t, hnext, rfl⟩ := step_next hstep
    exact ⟨h.update ((h.alive stream).next hnext), h.lost, h.ended⟩
  | loseDatagram i =>
    obtain ⟨-, rfl⟩ := step_loseDatagram hstep
    exact ⟨h.alive, h.lost, h.ended⟩
  | readDatagram i =>
    obtain ⟨msgBytes, -, rfl⟩ := step_readDatagram hstep
    exact ⟨h.alive, h.lost, h.ended⟩
  | receive =>
    obtain ⟨msg, msgs, -, rfl⟩ := step_receive hstep
    exact ⟨h.alive, h.lost, h.ended⟩

/-- What is left to be done with the streams that have been opened. -/
def streamsLoad (s : Link) : ℕ :=
  ∑ id : ChannelId, (s.streams (.ordered id)).load + ∑ i ∈ Finset.range s.opened, (s.streams (.single i)).load

/-- What is left to be done with the messages in a queue. -/
def queueLoad (msgs : List Bytes) : ℕ := (msgs.map fun msg => 3 * (frame (0, msg)).length + 4).sum

/-- What is left to be done. -/
def load (s : Link) : ℕ :=
  ∑ id : ChannelId, queueLoad (s.queue id) + s.streamsLoad + 2 * s.datagrams.length + s.incoming.length +
    (!s.lostConnection).toNat + (!s.ended).toNat

end Link

end Distgard.Quintet
